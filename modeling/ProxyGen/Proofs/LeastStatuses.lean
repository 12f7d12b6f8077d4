import ProxyGen.Proofs.WalkCatalogs

/-! The statuses at the end are a matter of the edges alone. They are the least ones above the first that
meet every edge, so no order of entries or edges shows in them. -/
namespace ProxyGen.Catalog

theorem statusOf_of_perm {c c' : Catalog} (distinct : c.keys.Nodup)
    (entries : c'.entries.Perm c.entries) : c'.statusOf = c.statusOf := by
  funext key
  simp only [statusOf,entry?_of_perm distinct entries]

theorem closed_of_perm {c c' : Catalog} (distinct : c.keys.Nodup)
    (entries : c'.entries.Perm c.entries) (edges : c'.edges.Perm c.edges)
    {status : String → Status} : c'.Closed status ↔ c.Closed status := by
  simp only [Closed,Met,edges.mem_iff,entry?_of_perm distinct entries]

theorem softOnlyInterfaces_of_perm {c c' : Catalog} (soft : c.SoftOnlyInterfaces)
    (entries : c'.entries.Perm c.entries) : c'.SoftOnlyInterfaces :=
  fun e member => soft e (entries.mem_iff.mp member)

theorem resolve_of_perm {c c' : Catalog} (distinct : c.keys.Nodup) (soft : c.SoftOnlyInterfaces)
    (entries : c'.entries.Perm c.entries) (edges : c'.edges.Perm c.edges) :
    c'.resolve.1.statusOf = c.resolve.1.statusOf := by
  have distinct' : c'.keys.Nodup := (entries.map Entry.key).nodup_iff.mpr distinct
  have least := (statusOf_resolve distinct soft).1
  have least' := (statusOf_resolve distinct' (softOnlyInterfaces_of_perm soft entries)).1
  have same : {status | c'.statusOf ≤ status ∧ c'.Closed status} =
      {status | c.statusOf ≤ status ∧ c.Closed status} := by
    ext status
    rw [Set.mem_ofPred_eq,Set.mem_ofPred_eq,statusOf_of_perm distinct entries,
      closed_of_perm distinct entries edges]
  rw [same] at least'
  exact least'.unique least

/-- Spreading ends with the least statuses that are no lower than those at the start and meet every edge.
It changes nothing else, no order shows in it, and soft statuses stay with interfaces; catalogs that
walks build are as it takes them. -/
theorem resolve_least {c : Catalog} (distinct : c.keys.Nodup) (soft : c.SoftOnlyInterfaces) :
    IsLeast {status | c.statusOf ≤ status ∧ c.Closed status} c.resolve.1.statusOf ∧
      c.resolve.1 = c.withStatuses c.resolve.1.statusOf ∧
      (∀ c' : Catalog, c'.entries.Perm c.entries → c'.edges.Perm c.edges →
        c'.resolve.1.statusOf = c.resolve.1.statusOf) ∧
      c.resolve.1.SoftOnlyInterfaces ∧
      ∀ u w, Walk.Built u w → w.catalog.keys.Nodup ∧ w.catalog.SoftOnlyInterfaces := by
  obtain ⟨after,result,fits,_⟩ := resolve_spec distinct soft
  obtain ⟨least,same⟩ := statusOf_resolve distinct soft
  refine ⟨least,same,?_,?_,?_⟩
  · intro c' entries edges
    exact resolve_of_perm distinct soft entries edges
  · rw [result]
    exact softOnlyInterfaces_withStatuses distinct fits
  · intro u w built
    exact ⟨built.good.1.distinct,built.good.2⟩

/-- An interface and a struct that return each other, and the struct itself. -/
def cyclic : Catalog where
  entries := [⟨⟨"p.I",.interface,0,.named ⟨"p","I"⟩⟩,"p.I",.soft,[]⟩,
    ⟨⟨"p.S",.struct,0,.named ⟨"p","S"⟩⟩,"p.S",.none,[]⟩]
  groups := []
  edges := [("p.S","p.S"),("p.S","p.I"),("p.I","p.S")]

theorem resolve_cyclic : cyclic.keys.Nodup ∧ cyclic.SoftOnlyInterfaces ∧
    IsLeast {status | cyclic.statusOf ≤ status ∧ cyclic.Closed status} cyclic.resolve.1.statusOf ∧
      cyclic.resolve.1.SoftOnlyInterfaces := by
  have distinct : cyclic.keys.Nodup := by decide
  have soft : cyclic.SoftOnlyInterfaces := by simp [SoftOnlyInterfaces,cyclic]
  obtain ⟨least,_,_,kept,_⟩ := resolve_least distinct soft
  exact ⟨distinct,soft,least,kept⟩

end ProxyGen.Catalog
