import ProxyGen.Walk.Basic

/-!
Working off the queue of a walk. A type claims the exported methods of its method set; where it claims one
that returns an error it needs a proxy, and all other results of the methods it claims are queued as types
that it mentions.
-/
namespace ProxyGen.Walk

/-- The status of a type that claims a method with an error result. A method that is not exported keeps
an interface from being met by another type. -/
def errorStatus (kind : Kind) (methods : List Selection) : Status :=
  if kind = .interface ∧ methods.all Selection.exported then .soft else .hard

def takeResult (u : Universe) (scope : List String) (key : String) (status : Status) (w : Walk)
    (result : Param) : Except Halt Walk :=
  if result.type.isError then .ok { w with catalog := w.catalog.raise key status }
  else w.enqueue u scope result.type (some key)

def takeResults (u : Universe) (scope : List String) (key : String) (status : Status) :
    List Param → Walk → Except Halt Walk
  | [], w => .ok w
  | r :: rest, w =>
    match takeResult u scope key status w r with
    | .error h => .error h
    | .ok w => takeResults u scope key status rest w

/-- The group of an entry after it has claimed its exported methods, and those it was granted. -/
def claimMethods (c : Catalog) (e : Entry) (methods : List Selection) :
    Catalog × List Selection :=
  match c.group? e.root with
  | none => (c,[])
  | some g =>
    let (g',claimed) := g.claimAll e.key (methods.filter Selection.exported)
    (c.modifyGroup e.root fun _ => g', claimed)

/-- Classifies one type. Its methods are listed once all their results have been queued. -/
def classify (u : Universe) (scope : List String) (key : String) (w : Walk) : Except Halt Walk :=
  match w.catalog.entry? key with
  | none => .ok w
  | some e =>
    match u.methodSet e.descriptor.type with
    | .error err => .error ⟨err,w⟩
    | .ok methods =>
      let (c,claimed) := claimMethods w.catalog e methods
      let status := errorStatus e.descriptor.kind methods
      let results := claimed.flatMap fun m => m.signature.results
      match takeResults u scope key status results { w with catalog := c } with
      | .error h => .error h
      | .ok w =>
        let list (e : Entry) : Entry := { e with methods := e.methods ++ claimed }
        .ok { w with catalog := w.catalog.modifyEntry key list }

theorem claimAll_subset {owner : String} {methods : List Selection} {g : Group} :
    ∀ m ∈ (g.claimAll owner methods).2, m ∈ methods := by
  induction methods generalizing g with
  | nil => exact fun _ none => none
  | cons first rest ih =>
    intro m member
    simp only [Group.claimAll] at member
    split at member
    · rcases List.mem_cons.mp member with rfl | later
      · exact List.mem_cons_self
      · exact List.mem_cons_of_mem _ (ih m later)
    · exact List.mem_cons_of_mem _ (ih m member)

theorem claimMethods_subset {c : Catalog} {e : Entry} {methods : List Selection} :
    ∀ m ∈ (claimMethods c e methods).2, m ∈ methods := by
  intro m member
  unfold claimMethods at member
  split at member
  · cases member
  · exact (List.mem_filter.mp (claimAll_subset m member)).1

section Potential
variable {u : Universe} {scope : List String} {key : String} {status : Status} {w w' : Walk}

theorem potential_takeResult {r : Param} (taken : takeResult u scope key status w r = .ok w')
    (among : r.type ∈ u.exprs) : w'.potential u ≤ w.potential u := by
  unfold takeResult at taken
  split at taken
  · cases taken
    exact Nat.le_refl _
  · refine potential_queueAll taken fun t member => ?_
    cases List.mem_singleton.mp member
    exact among

theorem potential_takeResults {results : List Param} (taken : takeResults u scope key status results w = .ok w')
    (among : ∀ r ∈ results, r.type ∈ u.exprs) : w'.potential u ≤ w.potential u := by
  induction results generalizing w with
  | nil =>
    cases taken
    exact Nat.le_refl _
  | cons r rest ih =>
    unfold takeResults at taken
    split at taken
    next => cases taken
    next w₁ first =>
      exact Nat.le_trans (ih taken fun x member => among x (List.mem_cons_of_mem _ member))
        (potential_takeResult first (among r List.mem_cons_self))

theorem potential_classify (classified : w.classify u scope key = .ok w') : w'.potential u ≤ w.potential u := by
  simp only [classify] at classified
  split at classified
  next =>
    cases classified
    exact Nat.le_refl _
  next e _ =>
    split at classified
    next => cases classified
    next methods offered =>
      split at classified
      next => cases classified
      next w₁ taken =>
        cases classified
        have fewer := potential_takeResults taken fun r member => by
          obtain ⟨m,claimed,returned⟩ := List.mem_flatMap.mp member
          exact Universe.result_mem_exprs
            (Universe.methodSet_declares offered m (claimMethods_subset m claimed)) returned
        exact fewer

theorem potential_turn {rest : List String} (queue : w.queue = key :: rest)
    (classified : classify u scope key { w with queue := rest } = .ok w') : w'.potential u < w.potential u := by
  have fewer := potential_classify classified
  simp only [potential,queue,List.length_cons] at fewer ⊢
  omega

end Potential

/-- Classifies the types of the queue, first come, first served, until it is empty. -/
def drain (u : Universe) (scope : List String) (w : Walk) : Except Halt Walk :=
  match _ : w.queue with
  | [] => .ok w
  | key :: rest =>
    match _ : classify u scope key { w with queue := rest } with
    | .error h => .error h
    | .ok w' => drain u scope w'
termination_by w.potential u
decreasing_by exact potential_turn ‹_› ‹_›

end ProxyGen.Walk
