import Mathlib.Order.Bounds.Basic
import ProxyGen.Catalog.Propagation
import ProxyGen.Proofs.Catalog

/-! Spreading reaches the least statuses that the edges of a catalog allow. While a stack is worked off
every edge that is not met yet starts at a type of the stack, and no status is above any closed
assignment that lies above the first one. -/
namespace ProxyGen.Catalog

/-- The dependent of an edge is as high as its source calls for. -/
def Met (c : Catalog) (status : String → Status) (source dependent : String) : Prop :=
  ∀ e, c.entry? dependent = some e →
    (status source).effective e.descriptor.kind ≤ status dependent

def Closed (c : Catalog) (status : String → Status) : Prop :=
  ∀ source dependent, (source,dependent) ∈ c.edges → c.Met status source dependent

def SoftOnlyInterfaces (c : Catalog) : Prop :=
  ∀ e ∈ c.entries, e.status = .soft → e.descriptor.kind = .interface

/-- Statuses that a catalog can have: types that it does not hold have none. -/
structure Admissible (c : Catalog) (status : String → Status) : Prop where
  known : ∀ key, key ∉ c.keys → status key = .none
  concrete : ∀ key e, c.entry? key = some e → status key = .soft → e.descriptor.kind = .interface

/-- Statuses that were raised no further than the edges call for. -/
structure Raises (c : Catalog) (before after : String → Status) : Prop where
  above : before ≤ after
  least : ∀ bound, before ≤ bound → c.Closed bound → after ≤ bound

theorem Raises.refl (c : Catalog) (status : String → Status) : c.Raises status status :=
  ⟨le_refl status,fun _ below _ => below⟩

theorem Raises.trans {c : Catalog} {before middle after : String → Status}
    (first : c.Raises before middle) (second : c.Raises middle after) : c.Raises before after := by
  constructor
  · exact le_trans first.above second.above
  · intro bound below closed
    exact second.least bound (first.least bound below closed) closed

theorem admissible_statusOf {c : Catalog} (soft : c.SoftOnlyInterfaces) : c.Admissible c.statusOf := by
  constructor
  · intro key absent
    exact statusOf_of_not_mem absent
  · intro key e found isSoft
    apply soft e (entry?_some found).1
    simpa [statusOf,found] using isSoft

theorem statusOf_withStatuses {c : Catalog} {status : String → Status}
    (admissible : c.Admissible status) : (c.withStatuses status).statusOf = status := by
  funext key
  cases found : c.entry? key with
  | none =>
    have absent := entry?_none.mp found
    rw [statusOf_of_not_mem (by simpa using absent),admissible.known key absent]
  | some e =>
    have equal := (entry?_some found).2
    simp [statusOf,entry?_withStatuses,found,equal]

theorem softOnlyInterfaces_withStatuses {c : Catalog} (distinct : c.keys.Nodup)
    {status : String → Status} (admissible : c.Admissible status) :
    (c.withStatuses status).SoftOnlyInterfaces := by
  intro e member isSoft
  obtain ⟨original,present,rfl⟩ := List.mem_map.mp member
  exact admissible.concrete original.key original (entry?_of_mem distinct present) isSoft

theorem raise_withStatuses (c : Catalog) {status : String → Status} {key : String} {s : Status}
    (below : status key ≤ s) :
    (c.withStatuses status).raise key s = c.withStatuses (Function.update status key s) := by
  simp only [raise,modifyEntry,withStatuses,List.map_map,Catalog.mk.injEq,and_true]
  apply List.map_congr_left
  intro e _
  by_cases same : e.key = key
  · subst same
    simp only [Function.comp_apply,Entry.key,beq_self_eq_true,if_true,Function.update_self,
      Entry.raise]
    split
    next => rfl
    next kept =>
      have equal : status e.key = s := le_antisymm below (Status.not_lt_iff_le.mp kept)
      rw [← equal]
      rfl
  · have other : e.descriptor.key ≠ key := same
    simp [Entry.key,other]

theorem raises_update {c : Catalog} {status : String → Status} {source dependent : String} {e : Entry}
    (edge : (source,dependent) ∈ c.edges) (found : c.entry? dependent = some e)
    (below : status dependent ≤ (status source).effective e.descriptor.kind) :
    c.Raises status
      (Function.update status dependent ((status source).effective e.descriptor.kind)) := by
  constructor
  · intro key
    by_cases same : key = dependent
    · subst same
      simpa using below
    · simp [Function.update_of_ne same]
  · intro bound under closed key
    by_cases same : key = dependent
    · subst same
      rw [Function.update_self]
      exact le_trans (Status.effective_mono (under source) _) (closed source key edge e found)
    · rw [Function.update_of_ne same]
      exact under key

theorem admissible_update {c : Catalog} {status : String → Status} {dependent : String} {e : Entry}
    {s : Status} (admissible : c.Admissible status) (found : c.entry? dependent = some e) :
    c.Admissible (Function.update status dependent (s.effective e.descriptor.kind)) := by
  constructor
  · intro key absent
    have other : key ≠ dependent := by
      intro same
      subst same
      exact absent (mem_keys_of_found found)
    rw [Function.update_of_ne other]
    exact admissible.known key absent
  · intro key e' found' isSoft
    by_cases same : key = dependent
    · subst same
      obtain rfl : e = e' := Option.some.inj (found.symm.trans found')
      rw [Function.update_self] at isSoft
      exact Status.interface_of_effective_soft isSoft
    · rw [Function.update_of_ne same] at isSoft
      exact admissible.concrete key e' found' isSoft

theorem Met.mono {c : Catalog} {before after : String → Status} {source dependent : String}
    (met : c.Met before source dependent) (same : after source = before source)
    (above : before ≤ after) : c.Met after source dependent := by
  intro e found
  rw [same]
  exact le_trans (met e found) (above dependent)

theorem met_of_missing {c : Catalog} {status : String → Status} {source dependent : String}
    (missing : c.entry? dependent = none) : c.Met status source dependent := by
  intro e found
  rw [missing] at found
  cases found

theorem met_of_idle {c : Catalog} {status : String → Status} {source dependent : String}
    (idle : status source = .none) : c.Met status source dependent := by
  intro e _
  rw [idle]
  exact Status.none_le _

/-- A dependent that is as high as its source needs no more: if it is `Soft`, it is an interface. -/
theorem met_of_reached {c : Catalog} {status : String → Status} {source dependent : String}
    (admissible : c.Admissible status) (reached : status source ≤ status dependent) :
    c.Met status source dependent := by
  intro e found
  exact Status.effective_le (admissible.concrete dependent e found) reached

/-- A source of status `s` has passed it on to `targets`, for which the types of `more` were raised. -/
structure Passed (c : Catalog) (source : String) (s : Status) (targets : List String)
    (status after : String → Status) (more : List String) : Prop where
  raises : c.Raises status after
  fits : c.Admissible after
  kept : after source = s
  met : ∀ d ∈ targets, c.Met after source d
  changed : ∀ key, after key ≠ status key → key ∈ more

namespace Passed
variable {c : Catalog} {source d : String} {s : Status} {targets more : List String}
  {status after : String → Status} {e : Entry}

theorem nil (admissible : c.Admissible status) (here : status source = s) :
    c.Passed source s [] status status [] :=
  ⟨Raises.refl c status,admissible,here,by simp,by simp⟩

theorem skip (passed : c.Passed source s targets status after more) (met : c.Met after source d) :
    c.Passed source s (d :: targets) status after more := by
  refine ⟨passed.raises,passed.fits,passed.kept,?_,passed.changed⟩
  intro target inside
  rcases List.mem_cons.mp inside with rfl | inside
  · exact met
  · exact passed.met target inside

theorem raise (edge : (source,d) ∈ c.edges) (found : c.entry? d = some e) (here : status source = s)
    (below : status d ≤ s.effective e.descriptor.kind)
    (passed : c.Passed source s targets (Function.update status d (s.effective e.descriptor.kind))
      after more) :
    c.Passed source s (d :: targets) status after (more ++ [d]) := by
  have first := raises_update edge found (here ▸ below)
  rw [here] at first
  have met : c.Met after source d := by
    intro e' found'
    obtain rfl : e = e' := Option.some.inj (found.symm.trans found')
    have reached := passed.raises.above d
    rw [Function.update_self] at reached
    rw [passed.kept]
    exact reached
  refine ⟨first.trans passed.raises,passed.fits,passed.kept,(passed.skip met).met,?_⟩
  intro key differs
  by_cases same : key = d
  · simp [same]
  · have moved := passed.changed key (by rwa [Function.update_of_ne same])
    simp [moved]

end Passed

/-- Raising the dependents of a source meets their edges, and raises none that is not listed. -/
theorem raiseAll_spec {c : Catalog} {source : String} {s : Status} (targets : List String)
    {status : String → Status} (raised : List String) (admissible : c.Admissible status)
    (here : status source = s) (edges : ∀ d ∈ targets, (source,d) ∈ c.edges) :
    ∃ after more,
      raiseAll s targets (c.withStatuses status) raised = (c.withStatuses after,more ++ raised) ∧
      c.Passed source s targets status after more := by
  induction targets generalizing status raised with
  | nil => exact ⟨status,[],rfl,.nil admissible here⟩
  | cons d rest ih =>
    obtain ⟨edge,later⟩ := List.forall_mem_cons.mp edges
    simp only [raiseAll,entry?_withStatuses]
    cases found : c.entry? d with
    | none =>
      obtain ⟨after,more,equal,passed⟩ := ih raised admissible here later
      exact ⟨after,more,equal,passed.skip (met_of_missing found)⟩
    | some e =>
      obtain ⟨member,rfl⟩ := entry?_some found
      simp only [Option.map_some]
      split
      next lower =>
        -- A type below the source is raised; the source itself is not, so its status stays.
        have below : status e.key ≤ s.effective e.descriptor.kind :=
          le_trans (le_of_lt lower) (Status.le_effective s _)
        have other : source ≠ e.key := by
          intro same
          rw [← same,here] at lower
          exact lt_irrefl s lower
        rw [Status.passedTo_eq_effective,raise_withStatuses c below]
        obtain ⟨after,more,equal,passed⟩ := ih (e.key :: raised) (admissible_update admissible found)
          (by rw [Function.update_of_ne other,here]) later
        exact ⟨after,more ++ [e.key],by simp [equal],passed.raise edge found here below⟩
      next reached =>
        obtain ⟨after,more,equal,passed⟩ := ih raised admissible here later
        refine ⟨after,more,equal,passed.skip (met_of_reached passed.fits ?_)⟩
        rw [passed.kept]
        exact le_trans (Status.not_lt_iff_le.mp reached) (passed.raises.above e.key)

/-- Every edge is met but for those that leave a type for which `waiting` holds. -/
def Covered (c : Catalog) (status : String → Status) (waiting : String → Prop) : Prop :=
  ∀ source dependent, (source,dependent) ∈ c.edges → c.Met status source dependent ∨ waiting source

namespace Covered
variable {c : Catalog} {status after : String → Status} {source : String} {rest more : List String}
  {pending : String → Prop}

/-- A type that needs no proxy has nothing to pass on. -/
theorem pop_idle (covered : c.Covered status fun a => a ∈ source :: rest ∨ pending a)
    (idle : status source = .none) : c.Covered status fun a => a ∈ rest ∨ pending a := by
  intro a d edge
  rcases covered a d edge with met | inside | later
  · exact .inl met
  · rcases List.mem_cons.mp inside with rfl | inside
    · exact .inl (met_of_idle idle)
    · exact .inr (.inl inside)
  · exact .inr (.inr later)

/-- What a type passes on meets its own edges, and puts what it raised on the stack in its stead. -/
theorem pop_passed {s : Status} (covered : c.Covered status fun a => a ∈ source :: rest ∨ pending a)
    (passed : c.Passed source s (c.dependents source) status after more) :
    c.Covered after fun a => a ∈ more ++ rest ∨ pending a := by
  intro a d edge
  by_cases same : a = source
  · subst same
    exact .inl (passed.met d (mem_dependents.mpr edge))
  by_cases moved : after a = status a
  · rcases covered a d edge with met | inside | later
    · exact .inl (met.mono moved passed.raises.above)
    · have inside := List.mem_of_ne_of_mem same inside
      exact .inr (.inl (List.mem_append_right _ inside))
    · exact .inr (.inr later)
  · exact .inr (.inl (List.mem_append_left _ (passed.changed a moved)))

end Covered

/-- Working off a stack raises statuses until every edge is met, but for those that leave a type of
`pending`. -/
theorem spread_spec {c current : Catalog} {status : String → Status} (stack : List String)
    (count : Nat) (held : current = c.withStatuses status) (admissible : c.Admissible status)
    (pending : String → Prop) (covered : c.Covered status fun a => a ∈ stack ∨ pending a) :
    ∃ after, (spread current stack count).1 = c.withStatuses after ∧
      c.Raises status after ∧ c.Admissible after ∧ c.Covered after pending := by
  fun_induction spread current stack count generalizing status with
  | case1 current count =>
    refine ⟨status,held,Raises.refl c status,admissible,?_⟩
    intro source dependent edge
    simpa using covered source dependent edge
  | case2 current count source rest missing ih =>
    have absent : source ∉ c.keys := by
      rw [held,entry?_none,keys_withStatuses] at missing
      exact missing
    exact ih held admissible (covered.pop_idle (admissible.known source absent))
  | case3 current count source rest e found idle ih =>
    rw [held,entry?_withStatuses] at found
    obtain ⟨original,present,rfl⟩ := Option.map_eq_some_iff.mp found
    have key := (entry?_some present).2
    exact ih held admissible (covered.pop_idle (key ▸ idle))
  | case4 current count source rest e found wrapped step =>
    rename_i ih
    subst held
    rw [entry?_withStatuses] at found
    obtain ⟨original,present,rfl⟩ := Option.map_eq_some_iff.mp found
    have here : status source = status original.key := by rw [(entry?_some present).2]
    obtain ⟨after,more,equal,passed⟩ :=
      raiseAll_spec (c.dependents source) [] admissible here fun d inside => mem_dependents.mp inside
    rw [List.append_nil] at equal
    have stepped : step = (c.withStatuses after,more) := equal
    rw [stepped] at ih ⊢
    obtain ⟨final,result,further,fits,done⟩ := ih rfl passed.fits (covered.pop_passed passed)
    exact ⟨final,result,passed.raises.trans further,fits,done⟩

/-- Spreading from one type after the other meets the edges that leave any of them. -/
theorem spreadFrom_spec {c current : Catalog} {status : String → Status} (sources : List String)
    (count : Nat) (held : current = c.withStatuses status) (admissible : c.Admissible status)
    (covered : c.Covered status (· ∈ sources)) :
    ∃ after,
      (sources.foldl (fun (c,count) source => spread c [source] count) (current,count)).1 =
        c.withStatuses after ∧
      c.Raises status after ∧ c.Admissible after ∧ c.Closed after := by
  induction sources generalizing current count status with
  | nil =>
    refine ⟨status,held,Raises.refl c status,admissible,?_⟩
    intro source dependent edge
    simpa using covered source dependent edge
  | cons source rest ih =>
    obtain ⟨middle,equal,raises,fits,done⟩ :=
      spread_spec [source] count held admissible (· ∈ rest) (by simpa using covered)
    rw [List.foldl_cons]
    obtain ⟨after,result,further,finalFits,closed⟩ := ih _ equal fits done
    exact ⟨after,result,raises.trans further,finalFits,closed⟩

/-- The statuses after spreading, as the least closed ones above those before it. -/
theorem resolve_spec {c : Catalog} (distinct : c.keys.Nodup) (soft : c.SoftOnlyInterfaces) :
    ∃ after, c.resolve.1 = c.withStatuses after ∧ c.Admissible after ∧
      IsLeast {status | c.statusOf ≤ status ∧ c.Closed status} after := by
  have admissible := admissible_statusOf soft
  obtain ⟨after,result,raises,fits,closed⟩ := spreadFrom_spec (c.sorted.map Entry.key) 0
    (withStatuses_statusOf distinct).symm admissible (by
      intro source dependent edge
      by_cases present : source ∈ c.keys
      · right
        obtain ⟨e,member,rfl⟩ := List.mem_map.mp present
        exact List.mem_map_of_mem (Text.mem_sortBy.mpr member)
      · exact .inl (met_of_idle (statusOf_of_not_mem present)))
  refine ⟨after,result,fits,⟨raises.above,closed⟩,?_⟩
  intro bound limits
  exact raises.least bound limits.1 limits.2

theorem statusOf_resolve {c : Catalog} (distinct : c.keys.Nodup) (soft : c.SoftOnlyInterfaces) :
    IsLeast {status | c.statusOf ≤ status ∧ c.Closed status} c.resolve.1.statusOf ∧
      c.resolve.1 = c.withStatuses c.resolve.1.statusOf := by
  obtain ⟨after,result,fits,least⟩ := resolve_spec distinct soft
  have same : c.resolve.1.statusOf = after := by
    rw [result]
    exact statusOf_withStatuses fits
  rw [same]
  exact ⟨least,result⟩

theorem entry?_of_perm {c c' : Catalog} (distinct : c.keys.Nodup)
    (entries : c'.entries.Perm c.entries) (key : String) : c'.entry? key = c.entry? key := by
  have distinct' : c'.keys.Nodup := (entries.map Entry.key).nodup_iff.mpr distinct
  cases found : c.entry? key with
  | none =>
    rw [entry?_none] at found ⊢
    intro present
    exact found ((entries.map Entry.key).mem_iff.mp present)
  | some e =>
    obtain ⟨member,rfl⟩ := entry?_some found
    exact entry?_of_mem distinct' (entries.mem_iff.mpr member)

end ProxyGen.Catalog
