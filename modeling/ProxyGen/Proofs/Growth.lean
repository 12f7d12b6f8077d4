import ProxyGen.Proofs.Completeness
import ProxyGen.Proofs.Operations

/-! What a catalog holds, it holds for good. Whatever is done with it, entries and groups keep what they
have and may get more, statuses rise, and a claim is given up only to a direct one, which nobody takes
over again. -/
namespace ProxyGen

namespace Entry

/-- An entry before and after. -/
structure Kept (e e' : Entry) : Prop where
  descriptor : e'.descriptor = e.descriptor
  root : e'.root = e.root
  status : e.status ≤ e'.status
  methods : e.methods <+: e'.methods

theorem Kept.refl (e : Entry) : e.Kept e := ⟨rfl,rfl,le_refl _,List.prefix_refl _⟩

theorem Kept.trans {e e' e'' : Entry} (first : e.Kept e') (second : e'.Kept e'') : e.Kept e'' where
  descriptor := second.descriptor.trans first.descriptor
  root := second.root.trans first.root
  status := le_trans first.status second.status
  methods := first.methods.trans second.methods

theorem kept_raise (e : Entry) (s : Status) : e.Kept (e.raise s) := by
  unfold raise
  split
  next lower => exact ⟨rfl,rfl,le_of_lt lower,List.prefix_refl _⟩
  next => exact .refl e

theorem kept_list (e : Entry) (methods : List Selection) :
    e.Kept { e with methods := e.methods ++ methods } :=
  ⟨rfl,rfl,le_refl _,List.prefix_append _ _⟩

end Entry

/-- What is held now is held later, or it was held indirectly and has gone to a direct claim. -/
def Claim.Passes (k : Claim) (later : Option Claim) : Prop :=
  later = some k ∨ k.direct = false ∧ ∃ owner, later = some ⟨owner,true⟩

theorem Claim.Passes.trans {k : Claim} {held held' : Option Claim} (first : k.Passes held)
    (second : ∀ k', held = some k' → k'.Passes held') : k.Passes held' := by
  rcases first with same | ⟨indirect,owner,taken⟩
  · exact second k same
  · rcases second _ taken with same | ⟨direct,_⟩
    · exact .inr ⟨indirect,owner,same⟩
    · cases direct

namespace Group

/-- A group before and after. -/
structure Kept (g g' : Group) : Prop where
  descriptor : g'.descriptor = g.descriptor
  members : g.members <+: g'.members
  claims : ∀ name k, g.claim? name = some k → k.Passes (g'.claim? name)

theorem Kept.refl (g : Group) : g.Kept g := ⟨rfl,List.prefix_refl _,fun _ _ => .inl⟩

theorem Kept.trans {g g' g'' : Group} (first : g.Kept g') (second : g'.Kept g'') : g.Kept g'' where
  descriptor := second.descriptor.trans first.descriptor
  members := first.members.trans second.members
  claims name k held := (first.claims name k held).trans fun k' => second.claims name k'

theorem Kept.key {g g' : Group} (kept : g.Kept g') : g'.key = g.key :=
  congrArg Descriptor.key kept.descriptor

/-- A claim is granted on a name that is free, or held indirectly while it is asked for directly. -/
theorem kept_claim (g : Group) (method owner : String) (direct : Bool) :
    g.Kept (g.claim method owner direct) where
  descriptor := (claim_keeps g method owner direct).1
  members := (claim_keeps g method owner direct).2 ▸ List.prefix_refl _
  claims name k held := by
    by_cases same : name = method
    · subst same
      cases yields : g.yields name direct with
      | true =>
        obtain ⟨indirect,rfl⟩ := yields_iff.mp yields k held
        exact .inr ⟨indirect,owner,claim?_claim_self yields⟩
      | false => exact .inl (by simpa [claim,yields] using held)
    · exact .inl ((claim?_claim_other g owner direct same).trans held)

end Group

namespace Catalog

/-- A catalog before and after. -/
structure Kept (c c' : Catalog) : Prop where
  entries : ∀ e ∈ c.entries, ∃ e' ∈ c'.entries, e.Kept e'
  groups : ∀ g ∈ c.groups, ∃ g' ∈ c'.groups, g.Kept g'
  edges : c.edges <:+ c'.edges

section Kept
variable {c c' c'' : Catalog}

theorem Kept.refl (c : Catalog) : c.Kept c where
  entries e member := ⟨e,member,.refl e⟩
  groups g member := ⟨g,member,.refl g⟩
  edges := List.suffix_refl _

theorem Kept.trans (first : c.Kept c') (second : c'.Kept c'') : c.Kept c'' where
  entries e member := by
    obtain ⟨e',member',kept⟩ := first.entries e member
    obtain ⟨e'',member'',kept'⟩ := second.entries e' member'
    exact ⟨e'',member'',kept.trans kept'⟩
  groups g member := by
    obtain ⟨g',member',kept⟩ := first.groups g member
    obtain ⟨g'',member'',kept'⟩ := second.groups g' member'
    exact ⟨g'',member'',kept.trans kept'⟩
  edges := first.edges.trans second.edges

theorem kept_modifyEntry (c : Catalog) (key : String) {f : Entry → Entry} (each : ∀ e : Entry, e.Kept (f e)) :
    c.Kept (c.modifyEntry key f) where
  entries e member := by
    refine ⟨_,List.mem_map_of_mem member,?_⟩
    split
    · exact each e
    · exact .refl e
  groups g member := ⟨g,member,.refl g⟩
  edges := List.suffix_refl _

theorem kept_modifyGroup (c : Catalog) (root : String) {f : Group → Group} (each : ∀ g : Group, g.Kept (f g)) :
    c.Kept (c.modifyGroup root f) where
  entries e member := ⟨e,member,.refl e⟩
  groups g member := by
    refine ⟨_,List.mem_map_of_mem member,?_⟩
    split
    · exact each g
    · exact .refl g
  edges := List.suffix_refl _

theorem kept_addGroup {u : Universe} {t : TypeExpr} (ok : c.addGroup u t = .ok c') : c.Kept c' := by
  unfold addGroup at ok
  split at ok
  next =>
    cases ok
    exact .refl c
  next =>
    split at ok
    next => cases ok
    next d _ =>
      cases ok
      exact ⟨fun e member => ⟨e,member,.refl e⟩,
        fun g member => ⟨g,List.mem_append_left _ member,.refl g⟩,List.suffix_refl _⟩

theorem kept_addEntry {u : Universe} {t : TypeExpr} (ok : c.addEntry u t = .ok c') : c.Kept c' := by
  unfold addEntry at ok
  split at ok
  next =>
    cases ok
    exact .refl c
  next =>
    split at ok
    next => cases ok
    next d _ =>
      split at ok
      next => cases ok
      next c₁ grouped =>
        cases ok
        have joined := kept_modifyGroup c₁ t.root.key
          (f := fun g => { g with members := g.members ++ [t.key] })
          fun g => ⟨rfl,List.prefix_append _ _,fun _ _ => .inl⟩
        refine (kept_addGroup grouped).trans (joined.trans ?_)
        exact ⟨fun e member => ⟨e,List.mem_append_left _ member,.refl e⟩,
          fun g member => ⟨g,member,.refl g⟩,List.suffix_refl _⟩

theorem kept_link (c : Catalog) (source : String) (dependent : Option String) :
    c.Kept (c.link source dependent) where
  entries e member := ⟨e,by rwa [entries_link],.refl e⟩
  groups g member := ⟨g,by rwa [groups_link],.refl g⟩
  edges := by
    cases dependent with
    | none => exact List.suffix_refl _
    | some d =>
      simp only [link,addEdge]
      split
      · exact List.suffix_refl _
      · exact List.suffix_cons _ _

theorem Change.kept {u : Universe} (change : Change u c c') : c.Kept c' := by
  cases change with
  | register t dependent known ok =>
    obtain ⟨c₁,added,rfl⟩ := register_eq ok
    exact (kept_addEntry added).trans (kept_link c₁ t.key dependent)
  | raise key s => exact kept_modifyEntry c key fun e => e.kept_raise s
  | list key methods => exact kept_modifyEntry c key fun e => e.kept_list methods
  | claim root method owner direct =>
    exact kept_modifyGroup c root fun g => g.kept_claim method owner direct

theorem kept_of_changes {u : Universe} (changes : Changes u c c') : c.Kept c' := by
  induction changes with
  | refl => exact .refl c
  | tail _ last ih => exact ih.trans last.kept

/-- Claims are those of the groups, and groups go by their keys. -/
theorem Kept.passes (kept : c.Kept c') (distinct : (c'.groups.map Group.key).Nodup) {root name : String}
    {k : Claim} (held : c.claim? root name = some k) : k.Passes (c'.claim? root name) := by
  obtain ⟨g,found,claimed⟩ := Option.bind_eq_some_iff.mp held
  obtain ⟨member,rfl⟩ := group?_some found
  obtain ⟨g',member',same⟩ := kept.groups g member
  have found' := group?_of_mem distinct member'
  rw [same.key] at found'
  rw [claim?,found',Option.bind_some]
  exact same.claims name k claimed

end Kept

/-- A catalog with its statuses taken away. -/
abbrev bare (c : Catalog) : Catalog := c.withStatuses fun _ => .none

theorem bare_raise (c : Catalog) (key : String) (s : Status) : (c.raise key s).bare = c.bare := by
  simp only [bare,withStatuses,raise,modifyEntry,List.map_map,Catalog.mk.injEq,and_true]
  apply List.map_congr_left
  intro e _
  have kept := raise_keeps e s
  have methods : (e.raise s).methods = e.methods := by
    unfold Entry.raise
    split <;> rfl
  by_cases same : e.key = key <;> simp [same,kept.1,kept.2,methods]

theorem bare_raiseAll (s : Status) (targets : List String) (c : Catalog) (raised : List String) :
    (raiseAll s targets c raised).1.bare = c.bare := by
  induction targets generalizing c raised with
  | nil => rfl
  | cons d rest ih =>
    simp only [raiseAll]
    split
    next => exact ih c raised
    next e _ =>
      split
      next => exact (ih _ _).trans (bare_raise c d _)
      next => exact ih c raised

theorem bare_spread (c : Catalog) (stack : List String) (count : Nat) :
    (spread c stack count).1.bare = c.bare := by
  fun_induction spread c stack count with
  | case1 => rfl
  | case2 _ _ _ _ _ ih => exact ih
  | case3 _ _ _ _ _ _ _ ih => exact ih
  | case4 c _ source _ e _ _ step ih => exact ih.trans (bare_raiseAll e.status _ c [])

theorem bare_resolve (c : Catalog) : c.resolve.1.bare = c.bare := by
  have each (sources : List String) (start : Catalog × Nat) :
      (sources.foldl (fun state source => spread state.1 [source] state.2) start).1.bare =
        start.1.bare := by
    induction sources generalizing start with
    | nil => rfl
    | cons source rest ih => exact (ih _).trans (bare_spread start.1 [source] start.2)
  exact each (c.sorted.map Entry.key) (c,0)

abbrev Operations (u : Universe) : Catalog → Catalog → Prop := Relation.ReflTransGen (Operation u)

/-- Operations keep all that a catalog has, and spreading changes statuses alone. A name changes hands once
at most: who has taken it over has it directly. -/
theorem kept_of_grown {u : Universe} {c : Catalog} (grown : Grown u c) :
    (∀ c', Operation u c c' → c.Kept c') ∧ c.resolve.1.bare = c.bare ∧
      ∀ c₁ c₂, Operations u c c₁ → Operations u c₁ c₂ → ∀ root name k k₁,
        c.claim? root name = some k → c₁.claim? root name = some k₁ → k₁ ≠ k →
          c₂.claim? root name = some k₁ := by
  refine ⟨fun c' operation => kept_of_changes (operation.changes grown.wellFormed),bare_resolve c,?_⟩
  have keeps {c c' : Catalog} (grown : Grown u c) (operations : Operations u c c') : c.Kept c' := by
    induction operations with
    | refl => exact .refl c
    | tail before last ih =>
      have middle : Grown u _ := grown.trans before
      exact ih.trans (kept_of_changes (last.changes middle.wellFormed))
  intro c₁ c₂ first second root name k k₁ held held₁ moved
  have grown₁ : Grown u c₁ := grown.trans first
  have grown₂ : Grown u c₂ := grown₁.trans second
  rcases (keeps grown first).passes grown₁.wellFormed.groupsDistinct held with same | ⟨_,owner,taken⟩
  · exact absurd (Option.some.inj (held₁.symm.trans same)) moved
  · obtain rfl : k₁ = ⟨owner,true⟩ := Option.some.inj (held₁.symm.trans taken)
    rcases (keeps grown₁ second).passes grown₂.wellFormed.groupsDistinct held₁ with same | ⟨indirect,_⟩
    · exact same
    · cases indirect

end Catalog

namespace Sample

/-- The reference form of the server, with what is claimed. -/
def lone (claims : List (String × Claim)) : Catalog where
  entries := [⟨⟨"*p.S",.struct,1,.pointer (.named server)⟩,"p.S",.none,[]⟩]
  groups := [⟨⟨"p.S",.struct,0,.named server⟩,claims,["*p.S"]⟩]
  edges := []

open Evaluation in
theorem register_lone :
    Catalog.empty.register types (.pointer (.named server)) none = .ok (lone []) := by
  simp [keys,underlyings,lone]

end Sample

namespace Catalog
open Sample (lone)

/-- The value form takes the name over, and the reference form does not get it back. -/
theorem lone_kept : Grown Sample.types (lone [("Name",⟨"*p.S",false⟩)]) ∧
    (lone [("Name",⟨"*p.S",false⟩)]).Kept (lone [("Name",⟨"p.S",true⟩)]) ∧
      (lone [("Name",⟨"*p.S",false⟩)]).resolve.1.bare = (lone [("Name",⟨"*p.S",false⟩)]).bare ∧
        (lone [("Name",⟨"p.S",true⟩)]).claim? "p.S" "Name" = some ⟨"p.S",true⟩ := by
  have entered : Operation Sample.types empty (lone []) :=
    .register _ none (fun _ target => by cases target) Sample.register_lone
  have indirect : Operation Sample.types (lone []) (lone [("Name",⟨"*p.S",false⟩)]) :=
    .claim "p.S" "Name" "*p.S" false
  have direct : Operation Sample.types (lone [("Name",⟨"*p.S",false⟩)]) (lone [("Name",⟨"p.S",true⟩)]) :=
    .claim "p.S" "Name" "p.S" true
  have refused : Operation Sample.types (lone [("Name",⟨"p.S",true⟩)]) (lone [("Name",⟨"p.S",true⟩)]) :=
    .claim "p.S" "Name" "*p.S" true
  have grown : Grown Sample.types (lone [("Name",⟨"*p.S",false⟩)]) := .head entered (.single indirect)
  obtain ⟨keeps,spreads,once⟩ := kept_of_grown grown
  refine ⟨grown,keeps _ direct,spreads,?_⟩
  exact once _ _ (.single direct) (.single refused) "p.S" "Name" ⟨"*p.S",false⟩ ⟨"p.S",true⟩ (by decide)
    (by decide) (by decide)

end Catalog
end ProxyGen
