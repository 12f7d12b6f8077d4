import ProxyGen.Proofs.Edges

/-! Which types can have a proxy at all. Methods belong to declared names and to single references to names
that are no interfaces, and a status comes only to a type that lists a method, so composites, references
to references and types of other packages go without, whatever returns them. -/
namespace ProxyGen

namespace Universe

theorem declared_of_namedMethods {u : Universe} {n : NamedType} {viaReference : Bool}
    {methods : List Selection} (known : u.namedMethods n viaReference = .ok methods) {m : Selection}
    (offered : m ∈ methods) :
    ∃ d, u.find n = .ok (some d) ∧ (viaReference = true → d.kind ≠ .interface) := by
  unfold namedMethods at known
  split at known
  next => cases known
  next =>
    cases known
    cases offered
  next d found =>
    refine ⟨d,found,?_⟩
    rintro rfl interface
    rw [if_pos interface,if_pos rfl] at known
    cases known
    cases offered

/-- A type that has a method is a declared name, or the reference to one that is no interface. -/
theorem declared_of_methodSet {u : Universe} {t : TypeExpr} {methods : List Selection}
    (known : u.methodSet t = .ok methods) {m : Selection} (offered : m ∈ methods) :
    ∃ n d, u.find n = .ok (some d) ∧
      (t = .named n ∨ t = .pointer (.named n) ∧ d.kind ≠ .interface) := by
  unfold methodSet at known
  split at known
  next n =>
    obtain ⟨d,found,_⟩ := declared_of_namedMethods known offered
    exact ⟨n,d,found,.inl rfl⟩
  next n =>
    obtain ⟨d,found,other⟩ := declared_of_namedMethods known offered
    exact ⟨n,d,found,.inr ⟨rfl,other rfl⟩⟩
  next =>
    cases known
    cases offered

end Universe

namespace Analysis

/-- An edge leads only to a type that lists a method, so every type with a status lists one. -/
theorem lists_of_wrapped {u : Universe} {root : TypeExpr} {packages : List String} {a : Analysis}
    (ok : run u root packages = .ok a) {e : Entry} (member : e ∈ a.catalog.entries)
    (wrapped : e.status ≠ .none) : ∃ m, m ∈ e.methods := by
  obtain ⟨w,finished⟩ := finished_of_run ok
  obtain ⟨_,_,linked⟩ := linked_of_run ok
  obtain ⟨source,known,⟨m,listed,_⟩,path⟩ := (finished.wrapped_iff member).mp wrapped
  rcases path.cases_tail with same | ⟨middle,_,edge⟩
  · obtain rfl := Catalog.entry_unique finished.distinct member known same
    exact ⟨m,listed⟩
  · obtain ⟨_,_,_,⟨e',present,same,_,⟨m',listed,_⟩,_⟩,_⟩ := linked.edges middle e.key edge
    obtain rfl := Catalog.entry_unique finished.distinct present member same
    exact ⟨m',listed⟩

/-- A type with a status is a name that a package of the scope declares, or the reference to such a name that
is no interface. -/
theorem wrapped_declared {u : Universe} {root : TypeExpr} {packages : List String} {a : Analysis}
    (ok : run u root packages = .ok a) {e : Entry} (member : e ∈ a.catalog.entries)
    (wrapped : e.status ≠ .none) :
    ∃ n d, u.find n = .ok (some d) ∧ n.path ∈ scopeOf root packages ∧
      (e.descriptor.type = .named n ∨
        e.descriptor.type = .pointer (.named n) ∧ d.kind ≠ .interface) := by
  obtain ⟨w,finished⟩ := finished_of_run ok
  obtain ⟨m,listed⟩ := lists_of_wrapped ok member wrapped
  obtain ⟨before,after,split⟩ := List.append_of_mem member
  obtain ⟨⟨methods,known,offered,_⟩,_⟩ := (finished.listed_iff split m).mp listed
  obtain ⟨n,d,found,form⟩ := Universe.declared_of_methodSet known offered
  have inside := finished.withinScope e member
  refine ⟨n,d,found,?_,form⟩
  rcases form with named | ⟨reference,_⟩
  · rw [named] at inside
    simpa [Walk.inScope] using inside
  · rw [reference] at inside
    simpa [Walk.inScope] using inside

theorem sample_declared :
    run Sample.types (.named Sample.server) [] = .ok ⟨Sample.catalog .hard,4,1⟩ ∧
      Sample.serverRefEntry .hard ∈ (Sample.catalog .hard).entries ∧
      (Sample.serverRefEntry .hard).status ≠ .none ∧
      ∃ n d, Sample.types.find n = .ok (some d) ∧ n.path ∈ scopeOf (.named Sample.server) [] ∧
        ((Sample.serverRefEntry .hard).descriptor.type = .named n ∨
          (Sample.serverRefEntry .hard).descriptor.type = .pointer (.named n) ∧ d.kind ≠ .interface) := by
  have member : Sample.serverRefEntry .hard ∈ (Sample.catalog .hard).entries := List.mem_cons_self
  have wrapped : (Sample.serverRefEntry .hard).status ≠ .none := by decide
  exact ⟨Sample.run_types,member,wrapped,wrapped_declared Sample.run_types member wrapped⟩

end Analysis
end ProxyGen
