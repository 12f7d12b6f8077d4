import ProxyGen.Analysis

/-! The recursions of the model without the proofs that they end, and what a run of a small universe is worked out
with. -/
namespace ProxyGen

namespace Universe

theorem underlyingFrom_eq (u : Universe) (origin n : NamedType) (seen : List NamedType) :
    u.underlyingFrom origin n seen =
      if n ∈ seen then .error (.cyclicUnderlying origin)
      else match u.declaration n with
        | .error e => .error e
        | .ok d =>
          match d.underlying with
          | .named next => u.underlyingFrom origin next (n :: seen)
          | t => .ok t := by
  rw [underlyingFrom]
  cases u.declaration n <;> rfl

theorem flatten_cons (u : Universe) (found : List Selection) (seen : List NamedType) (n : NamedType)
    (rest : List NamedType) :
    u.flatten found seen (n :: rest) =
      if n ∈ seen then u.flatten found seen rest
      else match u.find n with
        | .error e => .error e
        | .ok none => u.flatten found (n :: seen) rest
        | .ok (some d) =>
          u.flatten (d.methods.foldl addNew found) (n :: seen) (d.embeddedNames.reverse ++ rest) := by
  rw [flatten]
  rcases u.find n with e | none | d <;> rfl

theorem promote_cons (u : Universe) (found : List Selection) (decided : List String) (seen : List NamedType)
    (n : NamedType × Bool) (rest : List (NamedType × Bool)) :
    u.promote found decided seen (n :: rest) =
      match u.visit (n :: rest) ⟨seen,[],[]⟩ with
      | .error e => .error e
      | .ok s =>
        u.promote (found ++ selected decided s.offered) (decided ++ s.offered.map (·.name)) s.seen s.next := by
  rw [promote]
  cases u.visit (n :: rest) ⟨seen,[],[]⟩ <;> rfl

theorem shapeFrom_named (u : Universe) (seen : List NamedType) (n : NamedType) :
    u.shapeFrom seen (.named n) =
      if n ∈ seen then .error (.endlessReference n)
      else match u.underlying n with
        | .error e => .error e
        | .ok t => u.shapeFrom (n :: seen) t := by
  rw [shapeFrom]
  cases u.underlying n <;> rfl

/-- Shapes hang on the underlying types alone. -/
theorem shapeFrom_congr {u u' : Universe} (same : ∀ n, u.underlying n = u'.underlying n)
    (seen : List NamedType) (t : TypeExpr) : u.shapeFrom seen t = u'.shapeFrom seen t := by
  match t with
  | .named n =>
    rw [shapeFrom_named,shapeFrom_named,same]
    by_cases old : n ∈ seen
    · rw [if_pos old,if_pos old]
    · rw [if_neg old,if_neg old]
      cases known : u'.underlying n with
      | error e => rfl
      | ok t => exact shapeFrom_congr same (n :: seen) t
  | .pointer t => rw [shapeFrom,shapeFrom,shapeFrom_congr same seen t]
  | .error | .basic _ | .slice _ | .array _ _ | .map _ _ | .chan _ _ | .struct | .interface =>
    simp only [shapeFrom]
termination_by (u.unseen seen,t.size)
decreasing_by
  · obtain ⟨d,declared⟩ := declared_of_underlying ((same n).trans known)
    exact .left _ _ (unseen_cons_lt declared old)
  · exact .right _ t.size_pointer

theorem shape_named {u : Universe} {n : NamedType} {t : TypeExpr} (stands : u.underlying n = .ok t) :
    u.shape (.named n) = u.shapeFrom [n] t := by
  rw [shape,shapeFrom_named,stands]
  rfl

theorem shape_pointer {u : Universe} {t : TypeExpr} {s : Shape} (known : u.shape t = .ok s) :
    u.shape (.pointer t) = .ok ⟨s.kind,s.depth + 1⟩ := by
  unfold shape at known ⊢
  rw [shapeFrom,known]

end Universe

namespace Catalog

theorem spread_nil (c : Catalog) (count : Nat) : c.spread [] count = (c,count) := by
  rw [spread]

theorem spread_cons (c : Catalog) (source : String) (rest : List String) (count : Nat) :
    c.spread (source :: rest) count =
      match c.entry? source with
      | none => c.spread rest count
      | some e =>
        if e.status = .none then c.spread rest count
        else
          let step := raiseAll e.status (c.dependents source) c []
          step.1.spread (step.2 ++ rest) (count + step.2.length) := by
  cases found : c.entry? source <;> simp only [spread,found]

end Catalog

namespace Walk

theorem queueAll_cons (u : Universe) (scope : List String) (dependent : Option String)
    (t : TypeExpr) (rest : List TypeExpr) (w : Walk) :
    w.queueAll u scope dependent (t :: rest) =
      if inScope scope t then
        match w.catalog.register u t dependent with
        | .error e => .error ⟨e,w⟩
        | .ok c =>
          if t.key ∈ w.visited then queueAll u scope dependent rest { w with catalog := c }
          else
            match elements u t with
            | .error e => .error ⟨e,⟨c,w.queue ++ [t.key],t.key :: w.visited⟩⟩
            | .ok ts =>
              queueAll u scope dependent (ts ++ rest) ⟨c,w.queue ++ [t.key],t.key :: w.visited⟩
      else queueAll u scope dependent rest w := by
  rw [queueAll]
  cases w.catalog.register u t dependent with
  | error e => rfl
  | ok c => cases elements u t <;> rfl

theorem drain_cons (u : Universe) (scope : List String) (c : Catalog) (key : String)
    (rest visited : List String) :
    drain u scope ⟨c,key :: rest,visited⟩ =
      match classify u scope key ⟨c,rest,visited⟩ with
      | .error h => .error h
      | .ok w => drain u scope w := by
  rw [drain]
  dsimp only
  cases classify u scope key ⟨c,rest,visited⟩ <;> rfl

theorem drain_nil (u : Universe) (scope : List String) (c : Catalog) (visited : List String) :
    drain u scope ⟨c,[],visited⟩ = .ok ⟨c,[],visited⟩ := by
  rw [drain]

end Walk

theorem Status.lt_iff {s s' : Status} : s < s' ↔ s.rank < s'.rank := Iff.rfl

theorem Analysis.run_of_walk {u : Universe} {root : TypeExpr} {packages : List String} {w : Walk} {c : Catalog}
    {upgrades : Nat} (walked : walk u root packages = .ok w) (resolved : w.catalog.resolve = (c,upgrades)) :
    run u root packages = .ok ⟨c,w.visited.length,upgrades⟩ := by
  unfold run
  rw [walked]
  simp only [resolved]

/-! All that a walk does but for what it asks the universe. A run of a small universe is worked out with these and with
the underlying types and the method sets that it comes upon. -/
namespace Evaluation

attribute [scoped simp] Analysis.walk Analysis.scopeOf TypeExpr.root TypeExpr.key TypeExpr.children TypeExpr.isError
  Universe.shape Universe.shapeFrom_named Universe.shapeFrom Walk.start Walk.seed Walk.seedType Walk.enqueue
  Walk.queueAll_cons Walk.queueAll Walk.inScope Walk.elements Walk.drain_cons Walk.drain_nil Walk.classify
  Walk.claimMethods Walk.takeResults Walk.takeResult Walk.errorStatus Catalog.empty Catalog.register
  Catalog.addEntry Catalog.entry? Catalog.addGroup Catalog.group? Catalog.modifyGroup Catalog.addEdge
  Catalog.modifyEntry Catalog.raise Descriptor.ofType Entry.key Entry.raise Group.key Group.claimAll Group.claim
  Group.yields Group.claim? Selection.exported Status.lt_iff Status.rank List.lookup_cons

end Evaluation
end ProxyGen
