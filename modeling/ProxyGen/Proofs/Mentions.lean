import ProxyGen.Proofs.Turns

/-! Who mentions a type. During the turn of a type everything on the stack comes out of a result of its
methods, so each edge that is recorded leads from a result, or from something that a result contains. Only
the first mention of a type brings along its parts. -/
namespace ProxyGen

namespace Walk

/-- What a type consists of: its elements, or what a name stands for unless that is a plain struct or
interface. -/
def Part (u : Universe) (t x : TypeExpr) : Prop :=
  x ∈ t.children ∨ ∃ n s, t = .named n ∧ u.underlying n = .ok x ∧ u.shape x = .ok s ∧
    ¬ (s.depth = 0 ∧ (s.kind = .struct ∨ s.kind = .interface))

/-- The second type is the first, or is found in it without leaving the scope. -/
def Contains (u : Universe) (scope : List String) : TypeExpr → TypeExpr → Prop :=
  Relation.ReflTransGen fun t x => Part u t x ∧ inScope scope x = true

theorem mem_elements_iff {u : Universe} {t : TypeExpr} {ts : List TypeExpr}
    (known : elements u t = .ok ts) (x : TypeExpr) : x ∈ ts ↔ Part u t x := by
  unfold Part
  cases t with
  | named n =>
    unfold elements at known
    cases stands : u.underlying n with
    | error err => simp [stands] at known
    | ok t =>
      cases shaped : u.shape t with
      | error err => simp [stands,shaped] at known
      | ok s =>
        simp only [stands,shaped,Except.ok.injEq] at known
        subst known
        have plain : (s.kind = .other ∨ s.depth > 0) ↔
            ¬ (s.depth = 0 ∧ (s.kind = .struct ∨ s.kind = .interface)) := by
          cases s.kind <;> simp [Nat.pos_iff_ne_zero]
        simp only [TypeExpr.children,List.not_mem_nil,false_or,TypeExpr.named.injEq]
        constructor
        · intro member
          split at member
          next followed =>
            rw [List.mem_singleton.mp member]
            exact ⟨n,s,rfl,stands,shaped,plain.mp (by simpa using followed)⟩
          next => cases member
        · rintro ⟨_,s',rfl,same,shape,followed⟩
          rw [stands] at same
          cases same
          rw [shaped] at shape
          cases shape
          simp [plain.mpr followed]
  | _ =>
    cases known
    simp

end Walk

namespace Catalog

/-- The type that was the first to mention another. -/
def firstDependent (c : Catalog) (key : String) : Option String := (c.dependents key).getLast?

theorem firstDependent_congr {c c' : Catalog} (edges : c'.edges = c.edges) :
    c'.firstDependent = c.firstDependent := by
  funext key
  simp only [firstDependent,dependents,edges]

theorem firstDependent_none {c : Catalog} {key : String} (unmentioned : ∀ d, (key,d) ∉ c.edges) :
    c.firstDependent key = none := by
  rw [firstDependent,List.getLast?_eq_none_iff,List.eq_nil_iff_forall_not_mem]
  intro d present
  exact unmentioned d (mem_dependents.mp present)

/-- A later mention does not show. -/
theorem firstDependent_link (c : Catalog) (source : String) (dependent : Option String) (key : String) :
    (c.link source dependent).firstDependent key =
      (c.firstDependent key).or (if key = source then dependent else none) := by
  cases dependent with
  | none => simp [link]
  | some d =>
    simp only [link,addEdge]
    split
    next known =>
      by_cases same : key = source
      · subst same
        cases first : c.firstDependent key with
        | none =>
          rw [firstDependent,List.getLast?_eq_none_iff] at first
          have present := mem_dependents.mpr known
          rw [first] at present
          cases present
        | some _ => rfl
      · simp [same]
    next =>
      by_cases same : key = source
      · subst same
        simp [firstDependent,dependents,List.getLast?_cons,Option.or_some]
      · simp [firstDependent,dependents,same,Ne.symm same]

theorem firstDependent_register {u : Universe} {c c' : Catalog} {t : TypeExpr}
    {dependent : Option String} (ok : c.register u t dependent = .ok c') (key : String) :
    c'.firstDependent key = (c.firstDependent key).or (if key = t.key then dependent else none) := by
  rcases register_cases ok with ⟨_,rfl⟩ | ⟨_,c₁,new,rfl⟩
  · exact firstDependent_link c t.key dependent key
  · rw [firstDependent_link,firstDependent_congr new.edges]

end Catalog

/-- A listed method returns values of the type. -/
def Entry.Results (e : Entry) (t : TypeExpr) : Prop :=
  ∃ m ∈ e.methods, ∃ r ∈ m.signature.results, r.type.isError = false ∧ r.type = t

namespace Walk

/-- The type comes out of a result of the methods that an entry lists. -/
def ComesFrom (u : Universe) (scope : List String) (entries : List Entry) (d : String)
    (t : TypeExpr) : Prop :=
  ∃ e ∈ entries, e.key = d ∧ ∃ r, e.Results r ∧ inScope scope r = true ∧ Contains u scope r t

/-- The type is such a result itself, or part of a type that the entry was the first to mention. The types
of `begun` are those a walk began with, before there was anyone to mention them. -/
def Introduced (u : Universe) (begun : List String) (first : String → Option String)
    (entries : List Entry) (d : String) (t : TypeExpr) : Prop :=
  (∃ e ∈ entries, e.key = d ∧ e.Results t) ∨
    ∃ e ∈ entries, e.key ∉ begun ∧ first e.key = some d ∧ Part u e.descriptor.type t

structure Mentioned (u : Universe) (scope begun : List String) (cfg : Config) (d : String)
    (t : TypeExpr) : Prop where
  inside : inScope scope t = true
  source : ComesFrom u scope cfg.ledger d t
  near : Introduced u begun cfg.walk.catalog.firstDependent cfg.ledger d t

/-- The parts of a type are mentioned too, or they still stand on the stack. -/
def Followed (u : Universe) (scope : List String) (cfg : Config) (d : String) (t : TypeExpr) : Prop :=
  (cfg.dependent = some d ∧ Item.parts t ∈ cfg.stack) ∨
    ∀ x, Part u t x → inScope scope x = true →
      (x.key,d) ∈ cfg.walk.catalog.edges ∨ cfg.dependent = some d ∧ Item.type x ∈ cfg.stack

/-- Where the edges of a walk come from that began with the types of `begun`. -/
structure Traced (u : Universe) (scope begun : List String) (cfg : Config) : Prop where
  entered : ∀ key ∈ begun, key ∈ cfg.walk.catalog.keys
  idle : cfg.dependent = none → cfg.stack = []
  edges : ∀ key d, (key,d) ∈ cfg.walk.catalog.edges → ∃ t, t.key = key ∧ Mentioned u scope begun cfg d t
  types : ∀ d, cfg.dependent = some d → ∀ t, Item.type t ∈ cfg.stack → inScope scope t = true →
    Mentioned u scope begun cfg d t
  parts : ∀ d, cfg.dependent = some d → ∀ t, Item.parts t ∈ cfg.stack →
    Mentioned u scope begun cfg d t ∧ ∃ e ∈ cfg.ledger, e.descriptor.type = t ∧ e.key ∉ begun ∧
      cfg.walk.catalog.firstDependent e.key = some d
  rooted : ∀ e ∈ cfg.ledger, e.key ∉ begun → ∃ d, cfg.walk.catalog.firstDependent e.key = some d
  followed : ∀ e ∈ cfg.ledger, e.key ∉ begun → ∀ d, cfg.walk.catalog.firstDependent e.key = some d →
    Followed u scope cfg d e.descriptor.type

/-- Entries stay, with what they list, and first mentions stay the first. -/
structure Config.Extends (cfg cfg' : Config) : Prop where
  entries : ∀ e ∈ cfg.ledger, ∃ e' ∈ cfg'.ledger, e'.descriptor = e.descriptor ∧
    ∀ m ∈ e.methods, m ∈ e'.methods
  first : ∀ key d, cfg.walk.catalog.firstDependent key = some d →
    cfg'.walk.catalog.firstDependent key = some d

section Extends
variable {u : Universe} {scope begun : List String} {cfg cfg' : Config}

theorem Config.Extends.of_eq (ledger : cfg'.ledger = cfg.ledger)
    (edges : cfg'.walk.catalog.edges = cfg.walk.catalog.edges) : cfg.Extends cfg' where
  entries e member := ⟨e,ledger ▸ member,rfl,fun _ => id⟩
  first key d mentioned := by
    rw [Catalog.firstDependent_congr edges]
    exact mentioned

theorem Config.Extends.first_register {c c' : Catalog} {t : TypeExpr} {dependent : Option String}
    (ok : c.register u t dependent = .ok c') (key d : String) (first : c.firstDependent key = some d) :
    c'.firstDependent key = some d := by
  rw [Catalog.firstDependent_register ok,first]
  rfl

/-- An entry is still first mentioned by whom it was. -/
theorem Config.Extends.first_entry (ext : cfg.Extends cfg') {e : Entry} (member : e ∈ cfg.ledger)
    (later : e.key ∉ begun) {d : String} (first : cfg.walk.catalog.firstDependent e.key = some d) :
    ∃ e' ∈ cfg'.ledger, e'.descriptor = e.descriptor ∧ e'.key ∉ begun ∧
      cfg'.walk.catalog.firstDependent e'.key = some d := by
  obtain ⟨e',present,same,_⟩ := ext.entries e member
  have key : e'.key = e.key := congrArg Descriptor.key same
  rw [← key] at later first
  exact ⟨e',present,same,later,ext.first _ _ first⟩

theorem Mentioned.mono {d : String} {t : TypeExpr} (mentioned : Mentioned u scope begun cfg d t)
    (ext : cfg.Extends cfg') : Mentioned u scope begun cfg' d t where
  inside := mentioned.inside
  source := by
    obtain ⟨e,member,rfl,r,⟨m,listed,result⟩,facts⟩ := mentioned.source
    obtain ⟨e',present,same,kept⟩ := ext.entries e member
    exact ⟨e',present,congrArg Descriptor.key same,r,⟨m,kept m listed,result⟩,facts⟩
  near := by
    rcases mentioned.near with ⟨e,member,rfl,m,listed,result⟩ | ⟨e,member,later,first,part⟩
    · obtain ⟨e',present,same,kept⟩ := ext.entries e member
      exact .inl ⟨e',present,congrArg Descriptor.key same,m,kept m listed,result⟩
    · obtain ⟨e',present,same,later',first'⟩ := ext.first_entry member later first
      exact .inr ⟨e',present,later',first',by rwa [same]⟩

end Extends

namespace Traced
variable {u : Universe} {scope begun : List String} {cfg cfg' : Config}

/-- A step that enters nothing and records no edge. -/
theorem keep (traced : Traced u scope begun cfg) (ext : cfg.Extends cfg')
    (same : cfg'.ledger.map Entry.descriptor = cfg.ledger.map Entry.descriptor)
    (edges : cfg'.walk.catalog.edges = cfg.walk.catalog.edges)
    (idle : cfg'.dependent = none → cfg'.stack = [])
    (types : ∀ d t, cfg'.dependent = some d → Item.type t ∈ cfg'.stack → inScope scope t = true →
      Mentioned u scope begun cfg d t)
    (parts : ∀ d t, cfg'.dependent = some d → Item.parts t ∈ cfg'.stack →
      cfg.dependent = some d ∧ Item.parts t ∈ cfg.stack)
    (pending : ∀ d t, cfg.dependent = some d → Item.parts t ∈ cfg.stack → Followed u scope cfg' d t)
    (waiting : ∀ d t, cfg.dependent = some d → Item.type t ∈ cfg.stack → inScope scope t = true →
      cfg'.dependent = some d ∧ Item.type t ∈ cfg'.stack) : Traced u scope begun cfg' := by
  have first : cfg'.walk.catalog.firstDependent = cfg.walk.catalog.firstDependent :=
    Catalog.firstDependent_congr edges
  have origin : ∀ e' ∈ cfg'.ledger, ∃ e ∈ cfg.ledger, e.descriptor = e'.descriptor := by
    intro e' member
    have inside := List.mem_map_of_mem (f := Entry.descriptor) member
    rw [same] at inside
    exact List.mem_map.mp inside
  constructor
  case entered =>
    intro key present
    rw [← ledger_keys]
    have known := traced.entered key present
    rw [← ledger_keys] at known
    obtain ⟨e,member,rfl⟩ := List.mem_map.mp known
    obtain ⟨e',present',equal,_⟩ := ext.entries e member
    exact List.mem_map.mpr ⟨e',present',congrArg Descriptor.key equal⟩
  case idle => exact idle
  case edges =>
    intro key d edge
    rw [edges] at edge
    obtain ⟨t,named,mentioned⟩ := traced.edges key d edge
    exact ⟨t,named,mentioned.mono ext⟩
  case types =>
    intro d target t onStack inside
    exact (types d t target onStack inside).mono ext
  case parts =>
    intro d target t onStack
    obtain ⟨before,stacked⟩ := parts d t target onStack
    obtain ⟨mentioned,e,member,type,later,found⟩ := traced.parts d before t stacked
    obtain ⟨e',present,equal,facts⟩ := ext.first_entry member later found
    exact ⟨mentioned.mono ext,e',present,by rwa [equal],facts⟩
  case rooted =>
    intro e' member later
    obtain ⟨e,present,equal⟩ := origin e' member
    have key : e.key = e'.key := congrArg Descriptor.key equal
    rw [← key] at later ⊢
    rw [first]
    exact traced.rooted e present later
  case followed =>
    intro e' member later d found
    obtain ⟨e,present,equal⟩ := origin e' member
    have key : e.key = e'.key := congrArg Descriptor.key equal
    rw [← key] at later
    rw [first,← key] at found
    rw [← equal]
    rcases traced.followed e present later d found with ⟨target,onStack⟩ | covered
    · exact pending d _ target onStack
    · right
      intro x part inside
      rw [edges]
      apply (covered x part inside).imp_right
      rintro ⟨target,onStack⟩
      exact waiting d x target onStack inside

section Register
variable {w : Walk} {c : Catalog} {t : TypeExpr} {rest stack : List Item} {d : String}
  {turn : Option Turn} {queue visited : List String}

/-- What was to be mentioned on the stack is mentioned by the edge that is recorded. -/
theorem followed_register (registered : w.catalog.register u t (some d) = .ok c)
    (kept : ∀ item ∈ rest, item ∈ stack) {d' : String} {x : TypeExpr}
    (followed : Followed u scope ⟨w,.type t :: rest,some d,turn⟩ d' x) :
    Followed u scope ⟨⟨c,queue,visited⟩,stack,some d,turn⟩ d' x := by
  rcases followed with ⟨target,onStack⟩ | covered
  · exact .inl ⟨target,kept _ (by simpa using onStack)⟩
  · right
    intro y part inside
    rcases covered y part inside with edge | ⟨target,onStack⟩
    · exact .inl ((Catalog.mem_edges_register registered).mpr (.inl edge))
    · rcases List.mem_cons.mp onStack with here | onStack
      · cases here
        exact .inl ((Catalog.mem_edges_register registered).mpr (.inr ⟨rfl,target⟩))
      · exact .inr ⟨target,kept _ onStack⟩

theorem register (traced : Traced u scope begun ⟨w,.type t :: rest,some d,turn⟩)
    (inside : inScope scope t = true) (registered : w.catalog.register u t (some d) = .ok c)
    (ext : Config.Extends ⟨w,.type t :: rest,some d,turn⟩ ⟨⟨c,queue,visited⟩,stack,some d,turn⟩)
    (kept : ∀ item ∈ rest, item ∈ stack) (added : ∀ item ∈ stack, item ∈ rest ∨ item = .parts t)
    (fresh : .parts t ∈ stack → .parts t ∈ rest ∨
      ∃ e ∈ Config.ledger ⟨⟨c,queue,visited⟩,stack,some d,turn⟩, e.descriptor.type = t ∧
        e.key ∉ begun ∧ c.firstDependent e.key = some d)
    (origin : ∀ e' ∈ Config.ledger ⟨⟨c,queue,visited⟩,stack,some d,turn⟩,
      (∃ e ∈ Config.ledger ⟨w,.type t :: rest,some d,turn⟩, e.descriptor = e'.descriptor) ∨
      e'.descriptor.type = t ∧ c.firstDependent e'.key = some d ∧ .parts t ∈ stack) :
    Traced u scope begun ⟨⟨c,queue,visited⟩,stack,some d,turn⟩ := by
  have mentioned := (traced.types d rfl t List.mem_cons_self inside).mono ext
  constructor
  case entered =>
    intro key present
    exact (Catalog.mem_keys_register registered).2 key (traced.entered key present)
  case idle =>
    intro absurd
    cases absurd
  case edges =>
    intro key d' edge
    rcases (Catalog.mem_edges_register registered).mp edge with old | ⟨rfl,target⟩
    · obtain ⟨x,named,before⟩ := traced.edges key d' old
      exact ⟨x,named,before.mono ext⟩
    · cases target
      exact ⟨t,rfl,mentioned⟩
  case types =>
    intro d' target x onStack within
    rcases added _ onStack with old | isParts
    · exact (traced.types d' target x (List.mem_cons_of_mem _ old) within).mono ext
    · cases isParts
  case parts =>
    intro d' target x onStack
    cases target
    have old (here : .parts x ∈ rest) : ∃ e ∈ Config.ledger ⟨⟨c,queue,visited⟩,stack,some d,turn⟩,
        e.descriptor.type = x ∧ e.key ∉ begun ∧ c.firstDependent e.key = some d := by
      obtain ⟨_,e,member,type,later,found⟩ := traced.parts d rfl x (List.mem_cons_of_mem _ here)
      obtain ⟨e',present,equal,facts⟩ := ext.first_entry member later found
      exact ⟨e',present,by rwa [equal],facts⟩
    rcases added _ onStack with here | isParts
    · exact ⟨(traced.parts d rfl x (List.mem_cons_of_mem _ here)).1.mono ext,old here⟩
    · cases isParts
      exact ⟨mentioned,(fresh onStack).elim old id⟩
  case rooted =>
    intro e' member later
    rcases origin e' member with ⟨e,present,equal⟩ | ⟨_,first,_⟩
    · have key : e.key = e'.key := congrArg Descriptor.key equal
      obtain ⟨d₀,found⟩ := traced.rooted e present (key ▸ later)
      exact ⟨d₀,by rw [← key]; exact ext.first _ _ found⟩
    · exact ⟨d,first⟩
  case followed =>
    intro e' member later d' found
    rcases origin e' member with ⟨e,present,equal⟩ | ⟨type,first,onStack⟩
    · have key : e.key = e'.key := congrArg Descriptor.key equal
      obtain ⟨d₀,before⟩ := traced.rooted e present (key ▸ later)
      have after := ext.first _ _ before
      rw [key,found] at after
      cases after
      rw [← equal]
      exact followed_register registered kept (traced.followed e present (key ▸ later) d' before)
    · rw [first] at found
      cases found
      rw [type]
      exact .inl ⟨rfl,onStack⟩

theorem revisit (traced : Traced u scope begun ⟨w,.type t :: rest,some d,turn⟩)
    (explored : Explored u scope ⟨w,.type t :: rest,some d,turn⟩) (inside : inScope scope t = true)
    (registered : w.catalog.register u t (some d) = .ok c) (known : t.key ∈ w.visited) :
    Traced u scope begun ⟨{ w with catalog := c },rest,some d,turn⟩ := by
  have same := (ledger_revisit explored registered known).1
  refine traced.register inside registered ⟨?_,Config.Extends.first_register registered⟩
    (fun _ => id) (fun _ => .inl) .inl ?_
  · intro e member
    exact ⟨e,same ▸ member,rfl,fun _ => id⟩
  · intro e' member
    rw [same] at member
    exact .inl ⟨e',member,rfl⟩

/-- A type that nobody has mentioned before is followed by its parts. -/
theorem visit (traced : Traced u scope begun ⟨w,.type t :: rest,some d,turn⟩)
    (sound : Sound u ⟨w,.type t :: rest,some d,turn⟩)
    (explored : Explored u scope ⟨w,.type t :: rest,some d,turn⟩) (inside : inScope scope t = true)
    (registered : w.catalog.register u t (some d) = .ok c) (fresh : t.key ∉ w.visited) :
    Traced u scope begun ⟨⟨c,w.queue ++ [t.key],t.key :: w.visited⟩,.parts t :: rest,some d,turn⟩ := by
  obtain ⟨absent,_,new,key,type,_,equal⟩ := ledger_visit sound explored registered fresh
  have first : c.firstDependent new.key = some d := by
    rw [Catalog.firstDependent_register registered,key,Catalog.firstDependent_none,if_pos rfl]
    · rfl
    · intro d' edge
      exact absent (sound.good.joined _ _ edge).1
  have later : new.key ∉ begun := by
    rw [key]
    exact fun present => absent (traced.entered _ present)
  refine traced.register inside registered ⟨?_,Config.Extends.first_register registered⟩
    (fun _ => List.mem_cons_of_mem _) ?_ ?_ ?_
  · intro e member
    exact ⟨e,by rw [equal]; exact List.mem_append_left _ member,rfl,fun _ => id⟩
  · intro item onStack
    exact (List.mem_cons.mp onStack).symm
  · intro _
    exact .inr ⟨new,by rw [equal]; exact List.mem_append_right _ List.mem_cons_self,type,later,first⟩
  · intro e' member
    rw [equal] at member
    rcases List.mem_append.mp member with old | isNew
    · exact .inl ⟨e',old,rfl⟩
    · rw [List.mem_singleton.mp isNew]
      exact .inr ⟨type,first,List.mem_cons_self⟩

end Register

theorem expand {w : Walk} {t : TypeExpr} {ts : List TypeExpr} {rest : List Item}
    {d : Option String} {turn : Option Turn} (traced : Traced u scope begun ⟨w,.parts t :: rest,d,turn⟩)
    (known : elements u t = .ok ts) : Traced u scope begun ⟨w,ts.map .type ++ rest,d,turn⟩ := by
  refine traced.keep (.of_eq rfl rfl) rfl rfl ?_ ?_ ?_ ?_ ?_
  · intro absent
    cases traced.idle absent
  · intro d' x target onStack inside
    rcases List.mem_append.mp onStack with isPart | old
    · obtain ⟨y,member,equal⟩ := List.mem_map.mp isPart
      cases equal
      have part := (mem_elements_iff known x).mp member
      obtain ⟨mentioned,e,present,type,later,first⟩ := traced.parts d' target t List.mem_cons_self
      obtain ⟨source,listed,key,r,result,within,contained⟩ := mentioned.source
      refine ⟨inside,⟨source,listed,key,r,result,within,contained.tail ⟨part,inside⟩⟩,?_⟩
      exact .inr ⟨e,present,later,first,by rwa [type]⟩
    · exact traced.types d' target x (List.mem_cons_of_mem _ old) inside
  · intro d' x target onStack
    exact ⟨target,List.mem_cons_of_mem _ (by simpa using onStack)⟩
  · intro d' x target onStack
    rcases List.mem_cons.mp onStack with here | old
    · cases here
      right
      intro y part inside
      exact .inr ⟨target,List.mem_append_left _ (List.mem_map_of_mem ((mem_elements_iff known y).mpr part))⟩
    · exact .inl ⟨target,List.mem_append_right _ old⟩
  · intro d' x target onStack _
    exact ⟨target,List.mem_append_right _ (by simpa using onStack)⟩

/-- The results that are still to be taken are those of methods that the type lists. -/
theorem results_listed (sound : Sound u cfg) (accounted : Accounted u scope cfg) {tn : Turn}
    (present : cfg.turn = some tn) {r : Param} (later : r ∈ tn.results) :
    ∃ e ∈ cfg.ledger, e.key = tn.key ∧ ∃ m ∈ e.methods, r ∈ m.signature.results := by
  obtain ⟨e,_,found,_⟩ := sound.turn tn present
  have member := (Catalog.entry?_some found).1
  have key := (Catalog.entry?_some found).2
  have inLedger : cfg.settled e ∈ cfg.ledger := List.mem_map_of_mem member
  obtain ⟨claimed,_⟩ := turn_entry sound present inLedger key.symm
  obtain ⟨m,granted,result⟩ := accounted.results tn present r later
  exact ⟨_,inLedger,key,m,claimed m granted,result⟩

theorem take {w : Walk} {key : String} {status : Status} {claimed : List Selection} {r : Param}
    {rest : List Param}
    (traced : Traced u scope begun ⟨w,[],some key,some ⟨key,status,claimed,r :: rest⟩⟩)
    (sound : Sound u ⟨w,[],some key,some ⟨key,status,claimed,r :: rest⟩⟩)
    (accounted : Accounted u scope ⟨w,[],some key,some ⟨key,status,claimed,r :: rest⟩⟩)
    (value : r.type.isError = false) :
    Traced u scope begun ⟨w,[.type r.type],some key,some ⟨key,status,claimed,rest⟩⟩ := by
  refine traced.keep (.of_eq rfl rfl) rfl rfl ?_ ?_ ?_ ?_ ?_
  · intro absent
    cases absent
  · intro d t target onStack inside
    cases target
    cases List.mem_singleton.mp onStack
    obtain ⟨e,member,same,m,listed,result⟩ := results_listed sound accounted rfl List.mem_cons_self
    have returned : e.Results r.type := ⟨m,listed,r,result,value,rfl⟩
    exact ⟨inside,⟨e,member,same,_,returned,inside,.refl⟩,.inl ⟨e,member,same,returned⟩⟩
  · intro d t _ onStack
    cases List.mem_singleton.mp onStack
  · intro d t _ onStack
    cases onStack
  · intro d t _ onStack
    cases onStack

/-- With nothing on the stack only what is listed can change. -/
theorem between (traced : Traced u scope begun cfg) (before : cfg.stack = []) (after : cfg'.stack = [])
    (ledger : cfg'.ledger = cfg.ledger) (edges : cfg'.walk.catalog.edges = cfg.walk.catalog.edges) :
    Traced u scope begun cfg' := by
  refine traced.keep (.of_eq ledger edges) (by rw [ledger]) edges (fun _ => after) ?_ ?_ ?_ ?_
  all_goals simp [before,after]

theorem start {w : Walk} {c : Catalog} {e : Entry} {methods granted : List Selection} {key : String}
    {status : Status} {results : List Param} {queue : List String}
    (traced : Traced u scope begun ⟨w,[],none,none⟩) (grants : Grants w.catalog e methods c granted) :
    Traced u scope begun
      ⟨⟨c,queue,w.visited⟩,[],some key,some ⟨key,status,granted,results⟩⟩ := by
  have listing := Settled.listing_keeps key granted
  have ledger := ledger_start grants key status results queue
  refine traced.keep ⟨?_,?_⟩ ?_ grants.edges (fun _ => rfl) ?_ ?_ ?_ ?_
  · intro x member
    refine ⟨_,by rw [ledger]; exact List.mem_map_of_mem member,(listing x).1,?_⟩
    intro m listed
    unfold Settled.listing
    split
    · exact List.mem_append_left _ listed
    · exact listed
  · intro source d first
    rw [Catalog.firstDependent_congr grants.edges]
    exact first
  · rw [ledger,List.map_map]
    exact List.map_congr_left fun x _ => (listing x).1
  all_goals simp

theorem step (traced : Traced u scope begun cfg) (sound : Sound u cfg) (explored : Explored u scope cfg)
    (accounted : Accounted u scope cfg) (step : Step u scope cfg cfg') :
    Traced u scope begun cfg' := by
  cases step with
  | @leave w t rest d turn outside =>
    refine traced.keep (.of_eq rfl rfl) rfl rfl ?_ ?_ ?_ ?_ ?_
    · intro absent
      cases traced.idle absent
    · intro d t target onStack inside
      exact traced.types d target t (List.mem_cons_of_mem _ onStack) inside
    · intro d t target onStack
      exact ⟨target,List.mem_cons_of_mem _ onStack⟩
    · intro d t target onStack
      exact .inl ⟨target,by simpa using onStack⟩
    · intro d t target onStack inside
      rcases List.mem_cons.mp onStack with here | old
      · cases here
        rw [outside] at inside
        cases inside
      · exact ⟨target,old⟩
  | @revisit w c t rest d turn inside registered known =>
    cases d with
    | none => cases traced.idle rfl
    | some d => exact traced.revisit explored inside registered known
  | @visit w c t rest d turn inside registered fresh =>
    cases d with
    | none => cases traced.idle rfl
    | some d => exact traced.visit sound explored inside registered fresh
  | expand known => exact traced.expand known
  | raise error => exact traced.between rfl rfl (ledger_raise _ _ _ _ _) rfl
  | take value => exact traced.take sound accounted value
  | @start w key rest e methods queued found offered =>
    have grants := claimMethods_grants sound.good (Catalog.entry?_some found).1
      (Universe.methodSet_nodup offered)
    exact traced.start grants
  | finish => exact traced.between rfl rfl (ledger_finish _ _ _) rfl
  | skip queued missing => exact traced.between rfl rfl rfl rfl

end Traced
end Walk
end ProxyGen
