import ProxyGen.Proofs.Promotion
import ProxyGen.Proofs.Routes

/-! Methods to which more than one route leads. A type is visited once, however many routes of one length end in
it; so routes compete for a name only if they end in different types. -/
namespace ProxyGen.Universe

/-- The route ends in a type that offers the name. -/
structure LeadsTo (u : Universe) (n : NamedType) (fields : List (NamedType × Bool)) (x : NamedType)
    (name : String) : Prop where
  route : u.Route n fields x
  offers : name ∈ names (u.offering x)

/-- Two routes of one length that go through different types lead to the name, and no shorter one does. -/
structure Ambiguous (u : Universe) (n : NamedType) (k : Nat) (name : String) : Prop where
  routes : ∃ first second x y, u.LeadsTo n first x name ∧ u.LeadsTo n second y name ∧
    first.length = k ∧ second.length = k ∧ first.map Prod.fst ≠ second.map Prod.fst
  shortest : ∀ fields x, u.LeadsTo n fields x name → k ≤ fields.length

section Ambiguity
variable {u : Universe} {n x : NamedType} {k : Nat} {name : String}

theorem AtDistance.leads (distance : u.AtDistance n k x) (offers : name ∈ names (u.offering x)) :
    ∃ fields, u.LeadsTo n fields x name ∧ fields.length = k := by
  obtain ⟨fields,route,length⟩ := path_iff_route.mp distance.path
  exact ⟨fields,⟨route,offers⟩,length⟩

theorem Ambiguous.atDistance (ambiguous : u.Ambiguous n k name) {fields : List (NamedType × Bool)}
    (leads : u.LeadsTo n fields x name) (length : fields.length = k) : u.AtDistance n k x where
  path := path_iff_route.mpr ⟨fields,leads.route,length⟩
  shortest := by
    intro j path
    obtain ⟨others,route,rfl⟩ := path_iff_route.mp path
    exact ambiguous.shortest others x ⟨route,leads.offers⟩

/-- A name that the reference selects is selected at the distance of the types that compete for it. -/
theorem Ambiguous.eq_distance (ambiguous : u.Ambiguous n k name) {j : Nat} {m : Selection}
    (once : u.OfferedOnce n j m) (named : m.name = name) : j = k := by
  subst named
  obtain ⟨y,distance,own,_⟩ := once.once
  obtain ⟨fields,leads,length⟩ := distance.leads (mem_names own)
  have far := ambiguous.shortest fields y leads
  obtain ⟨first,_,x,_,leads',_,length',_⟩ := ambiguous.routes
  have near : ¬ k < j := fun before => once.nearest k before x (ambiguous.atDistance leads' length') leads'.offers
  omega

/-- A name to which two routes lead is a method of the reference exactly if all routes of that length that lead to it
end in one type, which has it once. -/
theorem ambiguous_kept_iff {d : TypeDecl} {methods : List Selection} (declared : u.find n = .ok (some d))
    (concrete : d.kind ≠ .interface) (ok : u.methodSet (.pointer (.named n)) = .ok methods)
    (ambiguous : u.Ambiguous n k name) :
    name ∈ names methods ↔ ∃ x, (names (u.offering x)).count name = 1 ∧
      ∀ fields y, u.LeadsTo n fields y name → fields.length = k → y = x := by
  have promoted : u.promotedMethods n true = .ok methods :=
    (methodSet_of_concrete declared concrete).2.symm.trans ok
  constructor
  · intro among
    obtain ⟨s,member,rfl⟩ := List.mem_map.mp among
    obtain ⟨j,selected⟩ := (mem_promotedMethods_iff promoted s).mp member
    obtain ⟨m,once,rfl⟩ := selectedIn_reference_iff.mp selected
    obtain rfl := ambiguous.eq_distance once rfl
    obtain ⟨x,_,_,single,only⟩ := once.once
    exact ⟨x,single,fun fields y leads length => only y (ambiguous.atDistance leads length) leads.offers⟩
  · rintro ⟨x,single,only⟩
    obtain ⟨first,_,y,_,leads,_,length,_⟩ := ambiguous.routes
    obtain rfl := only first y leads length
    obtain ⟨m,own,rfl⟩ := List.mem_map.mp leads.offers
    have once : u.OfferedOnce n k m := by
      refine ⟨?_,y,ambiguous.atDistance leads length,own,single,?_⟩
      · intro j nearer z distance offers
        obtain ⟨fields,leads,rfl⟩ := distance.leads offers
        exact absurd (ambiguous.shortest fields z leads) (by omega)
      · intro z distance offers
        obtain ⟨fields,leads,length⟩ := distance.leads offers
        exact only fields z leads length
    have selected : u.SelectedIn n true k (referenced m) := selectedIn_reference_iff.mpr ⟨m,once,rfl⟩
    have among := mem_names ((mem_promotedMethods_iff promoted _).mpr ⟨k,selected⟩)
    exact among

end Ambiguity

namespace Boat

abbrev named (name : String) : NamedType := ⟨"p",name⟩

def boat : TypeDecl := ⟨"Boat",.struct,.struct,[.named (named "Hull"),.named (named "Deck")],[]⟩

def hull : TypeDecl := ⟨"Hull",.struct,.struct,[.named (named "Log")],[]⟩

def deck : TypeDecl := ⟨"Deck",.struct,.struct,[.named (named "Log")],[]⟩

def log : TypeDecl := ⟨"Log",.struct,.struct,[],[⟨"Write",false,none,⟨[],[],false⟩⟩]⟩

/-- Both parts of a boat have a log. -/
def types : Universe := ⟨[⟨"p","p",[boat,hull,deck,log]⟩]⟩

def write : Selection := ⟨"Write",none,⟨[],[],false⟩,true⟩

theorem find_boat : types.find (named "Boat") = .ok (some boat) := by decide +kernel

theorem find_hull : types.find (named "Hull") = .ok (some hull) := by decide +kernel

theorem find_deck : types.find (named "Deck") = .ok (some deck) := by decide +kernel

theorem find_log : types.find (named "Log") = .ok (some log) := by decide +kernel

theorem methodSet_boat : types.methodSet (.pointer (.named (named "Boat"))) = .ok [write] := by
  simp [methodSet,namedMethods,promotedMethods,promote_cons,promote,visit,offers,selected,find_boat,
    find_hull,find_deck,find_log,boat,hull,deck,log,TypeDecl.embeddedFields,MethodDecl.select]
  cbv

theorem embeds_boat {x : NamedType} (embeds : types.Embeds (named "Boat") x) :
    x = named "Hull" ∨ x = named "Deck" := by
  obtain ⟨d,declared,_,member⟩ := embeds
  cases find_boat.symm.trans declared
  simpa [boat] using member

theorem names_offering (d : TypeDecl) {x : NamedType} (found : types.find x = .ok (some d))
    (struct : d.kind = .struct) : names (types.offering x) = d.methods.map MethodDecl.name := by
  unfold offering
  simp [found,struct,names,MethodDecl.select,Function.comp_def]

/-- Through either part a route leads to the log, which alone writes. -/
theorem ambiguous : types.Ambiguous (named "Boat") 2 "Write" where
  routes := by
    have offers : "Write" ∈ names (types.offering (named "Log")) := by
      simp [names_offering log find_log rfl,log]
    have through {part : TypeDecl} {name : String} (found : types.find (named name) = .ok (some part))
        (struct : part.kind ≠ .interface) (own : .named (named name) ∈ boat.embeds)
        (inner : .named (named "Log") ∈ part.embeds) :
        types.LeadsTo (named "Boat") [(named name,false),(named "Log",false)] (named "Log") "Write" := by
      have outer : types.HasField (named "Boat") (named name,false) := ⟨boat,find_boat,by decide,own⟩
      exact ⟨.field (.field .here outer) ⟨part,found,struct,inner⟩,offers⟩
    exact ⟨_,_,_,_,through find_hull (by decide) (by decide) (by decide),
      through find_deck (by decide) (by decide) (by decide),rfl,rfl,by decide⟩
  shortest := by
    rintro fields x ⟨route,offers⟩
    have path : types.Path (named "Boat") fields.length x := path_iff_route.mpr ⟨fields,route,rfl⟩
    by_contra near
    have cases : fields.length = 0 ∨ fields.length = 1 := by omega
    rcases cases with length | length <;> rw [length] at path
    · cases path
      simp [names_offering boat find_boat rfl,boat] at offers
    · cases path with
      | field before embeds =>
        cases before
        rcases embeds_boat embeds with rfl | rfl
        · simp [names_offering hull find_hull rfl,hull] at offers
        · simp [names_offering deck find_deck rfl,deck] at offers

/-- The boat writes, although two routes of one length lead to the log and no shorter one does. -/
theorem boat_ambiguous : types.find (named "Boat") = .ok (some boat) ∧ boat.kind ≠ .interface ∧
    types.methodSet (.pointer (.named (named "Boat"))) = .ok [write] ∧
      types.Ambiguous (named "Boat") 2 "Write" ∧ ¬ "Write" ∉ names [write] :=
  ⟨find_boat,by decide,methodSet_boat,ambiguous,by decide⟩

/-- All routes to the name end in the log. -/
theorem boat_kept : types.find (named "Boat") = .ok (some boat) ∧ boat.kind ≠ .interface ∧
    types.methodSet (.pointer (.named (named "Boat"))) = .ok [write] ∧
      types.Ambiguous (named "Boat") 2 "Write" ∧
      ∃ x, (names (types.offering x)).count "Write" = 1 ∧
        ∀ fields y, types.LeadsTo (named "Boat") fields y "Write" → fields.length = 2 → y = x := by
  have struct : boat.kind ≠ .interface := by decide
  exact ⟨find_boat,struct,methodSet_boat,ambiguous,
    (ambiguous_kept_iff find_boat struct methodSet_boat ambiguous).mp (by decide)⟩

end Boat
end ProxyGen.Universe
