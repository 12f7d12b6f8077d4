import Mathlib.Algebra.Order.BigOperators.Group.List
import Mathlib.Algebra.Order.Ring.Nat
import ProxyGen.Proofs.Growth
import ProxyGen.Proofs.Turns

/-! What spreading costs. An upgrade takes away from the room above the status of a type, which is one step, and
two for an interface. The worklist takes one turn for each type that it begins with, one for each type that it
takes from its stack, and nothing gets onto the stack a second time without an upgrade. -/
namespace ProxyGen

theorem Status.passedTo_concrete {s : Status} {kind : Kind} (some : s ≠ none) (concrete : kind ≠ .interface) :
    s.passedTo kind = hard := by
  revert some concrete
  cases s <;> cases kind <;> decide

namespace Entry

/-- How often an entry can still be raised. Only interfaces stop at soft. -/
def room (e : Entry) : Nat :=
  if e.descriptor.kind = .interface then 2 - e.status.rank else if e.status = .hard then 0 else 1

theorem room_le (e : Entry) : e.room ≤ 1 + if e.descriptor.kind = .interface then 1 else 0 := by
  unfold room
  split
  · omega
  · split <;> omega

theorem room_raise_le (e : Entry) (s : Status) : (e.raise s).room ≤ e.room := by
  have risen := (e.kept_raise s).status
  unfold room
  rw [(Catalog.raise_keeps e s).1]
  split
  · exact Nat.sub_le_sub_left risen 2
  · split
    next => exact Nat.zero_le _
    next lower =>
      have room : e.status ≠ .hard := by
        intro full
        rw [full] at risen
        exact lower (Status.eq_hard risen)
      rw [if_neg room]

/-- What a status calls for in an entry below it leaves less room than there was. -/
theorem room_raise_lt {e : Entry} {s : Status} (lower : e.status < s) :
    (e.raise (s.passedTo e.descriptor.kind)).room < e.room := by
  have further := lt_of_lt_of_le lower (s.le_passedTo e.descriptor.kind)
  have ranks : e.status.rank < (s.passedTo e.descriptor.kind).rank := further
  have top := (s.passedTo e.descriptor.kind).rank_le_two
  unfold room
  rw [(Catalog.raise_keeps e _).1,status_raise further]
  split
  next => omega
  next concrete =>
    have some : s ≠ .none := by
      rintro rfl
      exact absurd lower (Status.not_lt_iff_le.mpr (Status.none_le _))
    have full : s.passedTo e.descriptor.kind = .hard := Status.passedTo_concrete some concrete
    have room : e.status ≠ .hard := by
      intro same
      rw [full,same] at further
      exact lt_irrefl _ further
    rw [if_pos full,if_neg room]
    exact Nat.zero_lt_one

end Entry

namespace Catalog

def room (c : Catalog) : Nat := (c.entries.map Entry.room).sum

theorem room_le (c : Catalog) :
    c.room ≤ c.entries.length + c.entries.countP fun e => e.descriptor.kind = .interface := by
  unfold room
  induction c.entries with
  | nil => exact Nat.le_refl 0
  | cons e rest ih =>
    have first := e.room_le
    rw [List.map_cons,List.sum_cons,List.length_cons,List.countP_cons]
    simp only [decide_eq_true_eq]
    omega

/-- Entries that are raised one after the other, each to what a status above its own calls for. -/
inductive Upgrades : Catalog → List String → Catalog → Prop
  | refl (c) : Upgrades c [] c
  | head {c c' key e s log} (found : c.entry? key = some e) (lower : e.status < s)
      (later : Upgrades (c.raise key (s.passedTo e.descriptor.kind)) log c') : Upgrades c (key :: log) c'

section Raise
variable {c : Catalog} {key k : String} {e : Entry} {s : Status}

theorem entry?_raise (c : Catalog) (key : String) (s : Status) (k : String) :
    Catalog.entry? (c.raise key s) k = if k = key then (c.entry? k).map (·.raise s) else c.entry? k :=
  entry?_modifyEntry c key (fun e => raise_key e s) k

theorem room_raise (found : c.entry? key = some e) (lower : e.status < s) :
    (c.raise key (s.passedTo e.descriptor.kind)).room < c.room := by
  obtain ⟨member,same⟩ := entry?_some found
  unfold room raise modifyEntry
  rw [List.map_map]
  refine List.sum_lt_sum _ _ (fun x _ => ?_) ⟨e,member,?_⟩
  · rw [Function.comp_apply]
    split
    · exact x.room_raise_le _
    · exact Nat.le_refl _
  · rw [Function.comp_apply,same,beq_self_eq_true,if_pos rfl]
    exact e.room_raise_lt lower

theorem statusOf_le_raise (c : Catalog) (key : String) (s : Status) :
    c.statusOf ≤ (c.raise key s).statusOf := by
  intro k
  unfold statusOf
  rw [entry?_raise]
  split
  · cases c.entry? k with
    | none => exact le_refl _
    | some e => exact (e.kept_raise s).status
  · exact le_refl _

theorem statusOf_found (found : c.entry? key = some e) : c.statusOf key = e.status := by
  rw [statusOf,found]
  rfl

theorem statusOf_raise_found (found : c.entry? key = some e) (lower : e.status < s) :
    (c.raise key s).statusOf key = s := by
  rw [statusOf,entry?_raise,if_pos rfl,found]
  exact Entry.status_raise lower

end Raise

namespace Upgrades
variable {c c' c'' : Catalog} {log log' : List String} {key : String} {e : Entry}

theorem trans (first : Upgrades c log c') (second : Upgrades c' log' c'') :
    Upgrades c (log ++ log') c'' := by
  induction first with
  | refl => exact second
  | head found lower _ ih => exact .head found lower (ih second)

theorem length_le (upgrades : Upgrades c log c') : log.length + c'.room ≤ c.room := by
  induction upgrades with
  | refl c => exact (Nat.zero_add _).le
  | head found lower _ ih =>
    have falls := room_raise found lower
    rw [List.length_cons]
    omega

/-- No entry is raised more often than it has room for. -/
theorem count_le (upgrades : Upgrades c log c') (found : c.entry? key = some e) :
    log.count key ≤ e.room := by
  induction upgrades generalizing e with
  | refl => exact Nat.zero_le _
  | @head c c' k x s log here lower _ ih =>
    have after := entry?_raise c k (s.passedTo x.descriptor.kind) key
    by_cases same : key = k
    · subst same
      obtain rfl : e = x := Option.some.inj (found.symm.trans here)
      rw [if_pos rfl,found,Option.map_some] at after
      have less := ih after
      have falls := e.room_raise_lt lower
      rw [List.count_cons_self]
      omega
    · rw [if_neg same,found] at after
      rw [List.count_cons_of_ne (Ne.symm same)]
      exact ih after

theorem statusOf_le (upgrades : Upgrades c log c') : c.statusOf ≤ c'.statusOf := by
  induction upgrades with
  | refl => exact le_refl _
  | head _ _ _ ih => exact le_trans (statusOf_le_raise _ _ _) ih

theorem eq_of_nil (upgrades : Upgrades c [] c') : c' = c := by
  cases upgrades
  rfl

theorem keys (upgrades : Upgrades c log c') : c'.keys = c.keys := by
  induction upgrades with
  | refl => rfl
  | head _ _ _ ih => exact ih.trans (keys_modifyEntry _ _ fun e => raise_key e _)

theorem edges (upgrades : Upgrades c log c') : c'.edges = c.edges := by
  induction upgrades with
  | refl => rfl
  | head _ _ _ ih => exact ih

theorem mem_of_changed (upgrades : Upgrades c log c') (changed : c'.statusOf key ≠ c.statusOf key) :
    key ∈ log := by
  induction upgrades with
  | refl => exact absurd rfl changed
  | @head c c' k x s log _ _ _ ih =>
    by_cases same : key = k
    · exact same ▸ List.mem_cons_self
    · refine List.mem_cons_of_mem _ (ih ?_)
      rwa [statusOf_raise_other c _ same]

/-- An upgrade shows. -/
theorem statusOf_eq_iff (upgrades : Upgrades c log c') : c'.statusOf = c.statusOf ↔ log = [] := by
  constructor
  · intro same
    cases upgrades with
    | refl => rfl
    | @head _ _ k x s log found lower later =>
      have further := lt_of_lt_of_le lower (s.le_passedTo x.descriptor.kind)
      have reached := later.statusOf_le k
      rw [statusOf_raise_found found further,same,statusOf_found found] at reached
      exact absurd further (Status.not_lt_iff_le.mpr reached)
  · rintro rfl
    rw [upgrades.eq_of_nil]

end Upgrades

/-- The raised types come before those that were raised earlier, the latest first. -/
theorem raiseAll_upgrades (s : Status) (targets : List String) (c : Catalog) (raised : List String) :
    ∃ log, Upgrades c log (raiseAll s targets c raised).1 ∧
      (raiseAll s targets c raised).2 = log.reverse ++ raised := by
  induction targets generalizing c raised with
  | nil => exact ⟨[],.refl c,rfl⟩
  | cons d rest ih =>
    simp only [raiseAll]
    split
    next => exact ih c raised
    next e found =>
      split
      next lower =>
        obtain ⟨log,upgrades,logged⟩ := ih (c.raise d (s.passedTo e.descriptor.kind)) (d :: raised)
        exact ⟨d :: log,.head found lower upgrades,by simp [logged]⟩
      next => exact ih c raised

/-- Every target that has an entry reaches the status of the source, and none is raised that has. -/
theorem raiseAll_reaches (s : Status) (targets : List String) (c : Catalog) (raised : List String) :
    (∀ d ∈ targets, d ∈ c.keys → s ≤ (raiseAll s targets c raised).1.statusOf d) ∧
      ∀ key, s ≤ c.statusOf key → (raiseAll s targets c raised).1.statusOf key = c.statusOf key := by
  induction targets generalizing c raised with
  | nil => exact ⟨fun d inside => absurd inside List.not_mem_nil,fun _ _ => rfl⟩
  | cons d rest ih =>
    simp only [raiseAll,List.forall_mem_cons]
    split
    next missing =>
      exact ⟨⟨fun present => absurd present (entry?_none.mp missing),(ih c raised).1⟩,(ih c raised).2⟩
    next e found =>
      have status := statusOf_found found
      split
      next lower =>
        have further := lt_of_lt_of_le lower (s.le_passedTo e.descriptor.kind)
        obtain ⟨log,upgrades,_⟩ :=
          raiseAll_upgrades s rest (c.raise d (s.passedTo e.descriptor.kind)) (d :: raised)
        obtain ⟨reached,kept⟩ := ih (c.raise d (s.passedTo e.descriptor.kind)) (d :: raised)
        have keys : (c.raise d (s.passedTo e.descriptor.kind)).keys = c.keys :=
          keys_modifyEntry c d fun e => raise_key e _
        rw [keys] at reached
        refine ⟨⟨fun _ => ?_,reached⟩,fun key high => ?_⟩
        · have risen := upgrades.statusOf_le d
          rw [statusOf_raise_found found further] at risen
          exact le_trans (s.le_passedTo _) risen
        · have other : key ≠ d := by
            rintro rfl
            rw [status] at high
            exact Status.not_lt_iff_le.mpr high lower
          have same := statusOf_raise_other c (s.passedTo e.descriptor.kind) other
          rw [kept key (same.symm ▸ high),same]
      next reached =>
        refine ⟨⟨fun _ => ?_,(ih c raised).1⟩,(ih c raised).2⟩
        obtain ⟨log,upgrades,_⟩ := raiseAll_upgrades s rest c raised
        have risen := upgrades.statusOf_le d
        rw [status] at risen
        exact le_trans (Status.not_lt_iff_le.mp reached) risen

theorem raiseAll_idle {s : Status} {targets : List String} {c : Catalog} (raised : List String)
    (high : ∀ d ∈ targets, d ∈ c.keys → s ≤ c.statusOf d) : raiseAll s targets c raised = (c,raised) := by
  induction targets with
  | nil => rfl
  | cons d rest ih =>
    obtain ⟨first,later⟩ := List.forall_mem_cons.mp high
    simp only [raiseAll]
    split
    next => exact ih later
    next e found =>
      have status := statusOf_found found
      have reached := first (mem_keys_of_found found)
      rw [status] at reached
      rw [if_neg (Status.not_lt_iff_le.mpr reached)]
      exact ih later

/-- A worklist between two turns: the stack, and the types that are still to be begun with. -/
structure Worklist where
  catalog : Catalog
  stack : List String
  starts : List String

namespace Worklist

/-- A turn, with the types that are raised in it, the latest first. -/
inductive Turn : Worklist → List String → Worklist → Prop
  | begin {c source starts} : Turn ⟨c,[],source :: starts⟩ [] ⟨c,[source],starts⟩
  | idle {c source rest starts} (low : c.statusOf source = .none) :
      Turn ⟨c,source :: rest,starts⟩ [] ⟨c,rest,starts⟩
  | pass {c source rest starts e} (found : c.entry? source = some e) (wrapped : e.status ≠ .none) :
      Turn ⟨c,source :: rest,starts⟩ (raiseAll e.status (c.dependents source) c []).2
        ⟨(raiseAll e.status (c.dependents source) c []).1,
          (raiseAll e.status (c.dependents source) c []).2 ++ rest,starts⟩

/-- A number of turns, with the types that are raised in them, the earliest first. -/
inductive Runs : Worklist → Nat → List String → Worklist → Prop
  | refl (w) : Runs w 0 [] w
  | head {w w' w'' n raised log} (turn : Turn w raised w') (later : Runs w' n log w'') :
      Runs w (n + 1) (raised.reverse ++ log) w''

def rank (w : Worklist) : Nat × Nat := (w.catalog.headroom,2 * w.starts.length + w.stack.length)

variable {w w' w'' : Worklist} {raised log log' : List String} {m n : Nat}

theorem Turn.falls (turn : Turn w raised w') :
    Prod.Lex (· < ·) (· < ·) w'.rank w.rank := by
  cases turn with
  | begin | idle =>
    refine .right _ ?_
    simp only [List.length_cons,List.length_nil]
    omega
  | @pass c source rest starts e found wrapped =>
    rcases headroom_raiseAll e.status (c.dependents source) c [] with same | less
    · rw [same]
      exact .right _ (by simp)
    · exact .left _ _ less

/-- No worklist is worked off for ever, whatever is on it. -/
theorem wellFounded_turn : WellFounded fun w' w => ∃ raised, Turn w raised w' :=
  Subrelation.wf (fun ⟨_,turn⟩ => turn.falls)
    (InvImage.wf rank (Nat.lt_wfRel.wf.prod_lex Nat.lt_wfRel.wf))

theorem Turn.upgrades (turn : Turn w raised w') : Upgrades w.catalog raised.reverse w'.catalog := by
  cases turn with
  | begin | idle => exact .refl _
  | @pass c source rest starts e found wrapped =>
    obtain ⟨log,upgrades,logged⟩ := raiseAll_upgrades e.status (c.dependents source) c []
    rw [List.append_nil] at logged
    rw [logged,List.reverse_reverse]
    exact upgrades

theorem Runs.trans (first : Runs w m log w') (second : Runs w' n log' w'') :
    Runs w (m + n) (log ++ log') w'' := by
  induction first with
  | refl => simpa using second
  | head turn _ ih =>
    rw [List.append_assoc,Nat.add_right_comm]
    exact .head turn (ih second)

theorem Runs.upgrades (runs : Runs w n log w') : Upgrades w.catalog log w'.catalog := by
  induction runs with
  | refl => exact .refl _
  | head turn _ ih => exact turn.upgrades.trans ih

/-- An edge on which the dependent is below its source starts at a type that is still to be taken. -/
def Covers (w : Worklist) : Prop :=
  ∀ source dependent, (source,dependent) ∈ w.catalog.edges → dependent ∈ w.catalog.keys →
    w.catalog.statusOf source ≤ w.catalog.statusOf dependent ∨ source ∈ w.stack ∨ source ∈ w.starts

theorem Covers.turn (covers : w.Covers) (turn : Turn w raised w') : w'.Covers := by
  have upgrades := turn.upgrades
  intro source dependent edge known
  rw [upgrades.edges] at edge
  rw [upgrades.keys] at known
  have before := covers source dependent edge known
  cases turn with
  | begin => simpa [or_assoc,or_comm,or_left_comm] using before
  | idle low =>
    rcases before with level | inside | later
    · exact .inl level
    · rcases List.mem_cons.mp inside with rfl | inside
      · exact .inl (low ▸ Status.none_le _)
      · exact .inr (.inl inside)
    · exact .inr (.inr later)
  | @pass c top rest starts e found wrapped =>
    obtain ⟨reached,kept⟩ := raiseAll_reaches e.status (c.dependents top) c []
    have status := statusOf_found found
    by_cases taken : source = top
    · subst taken
      rw [kept source status.ge,status]
      exact .inl (reached dependent (mem_dependents.mpr edge) known)
    · by_cases moved : (raiseAll e.status (c.dependents top) c []).1.statusOf source = c.statusOf source
      · rcases before with level | inside | later
        · rw [moved]
          exact .inl (le_trans level (upgrades.statusOf_le dependent))
        · rcases List.mem_cons.mp inside with same | inside
          · exact absurd same taken
          · exact .inr (.inl (List.mem_append_right _ inside))
        · exact .inr (.inr later)
      · have logged := upgrades.mem_of_changed moved
        exact .inr (.inl (List.mem_append_left _ (List.mem_reverse.mp logged)))

theorem Covers.runs (covers : w.Covers) (runs : Runs w n log w') : w'.Covers := by
  induction runs with
  | refl => exact covers
  | head turn _ ih => exact ih (covers.turn turn)

end Worklist

/-- No type is below one that it depends on. -/
def Level (c : Catalog) : Prop :=
  ∀ source dependent, (source,dependent) ∈ c.edges → dependent ∈ c.keys →
    c.statusOf source ≤ c.statusOf dependent

namespace Worklist
variable {w w' : Worklist} {raised log : List String} {n : Nat}

theorem Turn.level (level : w.catalog.Level) (turn : Turn w raised w') :
    raised = [] ∧ w'.catalog = w.catalog := by
  cases turn with
  | begin | idle => exact ⟨rfl,rfl⟩
  | @pass c source rest starts e found wrapped =>
    have status := statusOf_found found
    have high : ∀ d ∈ c.dependents source, d ∈ c.keys → e.status ≤ c.statusOf d := by
      intro d inside known
      rw [← status]
      exact level source d (mem_dependents.mp inside) known
    rw [raiseAll_idle [] high]
    exact ⟨rfl,rfl⟩

theorem Runs.level (level : w.catalog.Level) (runs : Runs w n log w') :
    log = [] ∧ w'.catalog = w.catalog := by
  induction runs with
  | refl => exact ⟨rfl,rfl⟩
  | head turn _ ih =>
    obtain ⟨rfl,same⟩ := turn.level level
    obtain ⟨rfl,still⟩ := ih (same.symm ▸ level)
    exact ⟨rfl,still.trans same⟩

end Worklist

open Worklist (Runs Turn)

/-- To work off a stack takes one turn for each type on it and one for each upgrade. -/
theorem spread_runs (c : Catalog) (stack starts : List String) (count : Nat) : ∃ log,
    Runs ⟨c,stack,starts⟩ (stack.length + log.length) log ⟨(spread c stack count).1,[],starts⟩ ∧
      (spread c stack count).2 = count + log.length := by
  fun_induction spread c stack count with
  | case1 c count => exact ⟨[],.refl _,rfl⟩
  | case2 c count source rest missing ih =>
    obtain ⟨log,runs,counted⟩ := ih
    have low : c.statusOf source = .none := by rw [statusOf,missing]; rfl
    refine ⟨log,?_,counted⟩
    rw [List.length_cons,Nat.add_right_comm]
    exact .head (.idle low) runs
  | case3 c count source rest e found unwrapped ih =>
    obtain ⟨log,runs,counted⟩ := ih
    have low : c.statusOf source = .none := (statusOf_found found).trans unwrapped
    refine ⟨log,?_,counted⟩
    rw [List.length_cons,Nat.add_right_comm]
    exact .head (.idle low) runs
  | case4 c count source rest e found wrapped step ih =>
    obtain ⟨log,runs,counted⟩ := ih
    refine ⟨step.2.reverse ++ log,?_,?_⟩
    · have turns : (source :: rest).length + (step.2.reverse ++ log).length =
          (step.2 ++ rest).length + log.length + 1 := by
        simp only [List.length_cons,List.length_append,List.length_reverse]
        omega
      rw [turns]
      exact .head (.pass found wrapped) runs
    · rw [counted,List.length_append,List.length_reverse,Nat.add_assoc]

theorem spreadFrom_runs (c : Catalog) (starts : List String) (count : Nat) : ∃ log,
    let out := starts.foldl (fun (c,count) source => spread c [source] count) (c,count)
    Runs ⟨c,[],starts⟩ (2 * starts.length + log.length) log ⟨out.1,[],[]⟩ ∧ out.2 = count + log.length := by
  induction starts generalizing c count with
  | nil => exact ⟨[],.refl _,rfl⟩
  | cons source rest ih =>
    obtain ⟨first,runs,counted⟩ := spread_runs c [source] rest count
    obtain ⟨log,later,total⟩ := ih (spread c [source] count).1 (spread c [source] count).2
    refine ⟨first ++ log,?_,?_⟩
    · have turns : 2 * (source :: rest).length + (first ++ log).length =
          [source].length + first.length + 1 + (2 * rest.length + log.length) := by
        simp only [List.length_cons,List.length_append,List.length_nil]
        omega
      rw [turns]
      exact Runs.trans (.head .begin runs) later
    · rw [List.foldl_cons,total,counted,List.length_append,Nat.add_assoc]

theorem resolve_runs (c : Catalog) : ∃ log,
    Runs ⟨c,[],c.sorted.map Entry.key⟩ (2 * c.entries.length + log.length) log ⟨c.resolve.1,[],[]⟩ ∧
      c.resolve.2 = log.length := by
  obtain ⟨log,runs,counted⟩ := spreadFrom_runs c (c.sorted.map Entry.key) 0
  have all : (c.sorted.map Entry.key).length = c.entries.length := by
    rw [List.length_map,sorted,(Text.sortBy_perm Entry.key c.entries).length_eq]
  rw [all] at runs
  exact ⟨log,runs,counted.trans (Nat.zero_add _)⟩

theorem level_resolve (c : Catalog) : c.resolve.1.Level := by
  obtain ⟨log,runs,_⟩ := resolve_runs c
  have covers : Worklist.Covers ⟨c,[],c.sorted.map Entry.key⟩ := by
    intro source dependent _ _
    by_cases known : source ∈ c.keys
    · obtain ⟨e,member,rfl⟩ := List.mem_map.mp known
      exact .inr (.inr (List.mem_map_of_mem (Text.mem_sortBy.mpr member)))
    · exact .inl (statusOf_of_not_mem known ▸ Status.none_le _)
  intro source dependent edge known
  rcases covers.runs runs source dependent edge known with level | inside | inside
  · exact level
  · cases inside
  · cases inside

/-- Spreading ends, on every catalog. It takes two turns for each entry and one for each upgrade, and raises no
entry more than once, or twice if it is an interface. It counts no upgrade exactly when it changes no
status, and spreading again changes nothing. -/
theorem resolve_settles (c : Catalog) :
    (WellFounded fun w' w => ∃ raised, Turn w raised w') ∧
      (∃ log, Runs ⟨c,[],c.sorted.map Entry.key⟩ (2 * c.entries.length + log.length) log
          ⟨c.resolve.1,[],[]⟩ ∧ c.resolve.2 = log.length ∧
        ∀ key e, c.entry? key = some e →
          log.count key ≤ 1 + if e.descriptor.kind = .interface then 1 else 0) ∧
      c.resolve.2 ≤ c.entries.length + c.entries.countP (fun e => e.descriptor.kind = .interface) ∧
      c.resolve.1.resolve = (c.resolve.1,0) ∧
      (c.resolve.2 = 0 ↔ c.resolve.1.statusOf = c.statusOf) ∧
      (c.resolve.2 = 0 → c.resolve.1 = c) := by
  obtain ⟨log,runs,counted⟩ := resolve_runs c
  have upgrades : Upgrades c log c.resolve.1 := runs.upgrades
  refine ⟨Worklist.wellFounded_turn,⟨log,runs,counted,?_⟩,?_,?_,?_,?_⟩
  · intro key e found
    exact le_trans (upgrades.count_le found) e.room_le
  · have most := upgrades.length_le
    have room := c.room_le
    rw [counted]
    omega
  · obtain ⟨again,runs',counted'⟩ := resolve_runs c.resolve.1
    obtain ⟨rfl,same⟩ := runs'.level (level_resolve c)
    exact Prod.ext same counted'
  · rw [upgrades.statusOf_eq_iff,counted,List.length_eq_zero_iff]
  · intro none
    obtain rfl := List.length_eq_zero_iff.mp (counted.symm.trans none)
    exact upgrades.eq_of_nil

end Catalog
end ProxyGen
