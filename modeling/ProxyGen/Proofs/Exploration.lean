import ProxyGen.Proofs.WalkCatalogs

/-! What a walk from the empty catalog has come upon. It enters a type when it queues it, so entries and
queued types are the same, and what an entry brings along is entered or still on the stack. -/
namespace ProxyGen.Walk

structure Explored (u : Universe) (scope : List String) (cfg : Config) : Prop where
  visited : cfg.walk.catalog.keys = cfg.walk.visited.reverse
  inside : ∀ e ∈ cfg.walk.catalog.entries, inScope scope e.descriptor.type = true
  parts : ∀ e ∈ cfg.walk.catalog.entries, Item.parts e.descriptor.type ∈ cfg.stack ∨
    ∃ ts, elements u e.descriptor.type = .ok ts ∧
      ∀ t ∈ ts, inScope scope t = true → t.key ∈ cfg.walk.catalog.keys ∨ Item.type t ∈ cfg.stack

namespace Explored
variable {u : Universe} {scope : List String}

theorem mem_keys_iff {cfg : Config} (explored : Explored u scope cfg) {key : String} :
    key ∈ cfg.walk.catalog.keys ↔ key ∈ cfg.walk.visited := by
  rw [explored.visited,List.mem_reverse]

section Register
variable {w : Walk} {c : Catalog} {t : TypeExpr} {rest : List Item} {d : Option String}
  {turn : Option Turn}

/-- A type that was queued before has its entry. -/
theorem revisited (explored : Explored u scope ⟨w,.type t :: rest,d,turn⟩)
    (registered : w.catalog.register u t d = .ok c) (visited : t.key ∈ w.visited) :
    c = w.catalog.link t.key d := by
  rcases Catalog.register_cases registered with ⟨_,equal⟩ | ⟨absent,_⟩
  · exact equal
  · exact absurd (explored.mem_keys_iff.mpr visited) absent

theorem entered (explored : Explored u scope ⟨w,.type t :: rest,d,turn⟩)
    (registered : w.catalog.register u t d = .ok c) (fresh : t.key ∉ w.visited) :
    ∃ c₁, w.catalog.Enters u t c₁ ∧ c = c₁.link t.key d := by
  rcases Catalog.register_cases registered with ⟨known,_⟩ | ⟨_,new⟩
  · exact absurd (explored.mem_keys_iff.mp known) fresh
  · exact new

theorem revisit (explored : Explored u scope ⟨w,.type t :: rest,d,turn⟩)
    (registered : w.catalog.register u t d = .ok c) (visited : t.key ∈ w.visited) :
    Explored u scope ⟨{ w with catalog := c },rest,d,turn⟩ := by
  have known := (Catalog.mem_keys_register registered).1
  obtain rfl := explored.revisited registered visited
  refine ⟨by simpa using explored.visited,by simpa using explored.inside,?_⟩
  intro e member
  rw [Catalog.entries_link] at member
  rcases explored.parts e member with later | ⟨ts,parts,covered⟩
  · exact .inl (by simpa using later)
  · refine .inr ⟨ts,parts,?_⟩
    intro x part inside
    rcases covered x part inside with old | onStack
    · exact .inl (by simpa using old)
    · rcases List.mem_cons.mp onStack with same | onStack
      · cases same
        exact .inl known
      · exact .inr onStack

theorem visit (explored : Explored u scope ⟨w,.type t :: rest,d,turn⟩) (inside : inScope scope t = true)
    (registered : w.catalog.register u t d = .ok c) (fresh : t.key ∉ w.visited) :
    Explored u scope ⟨⟨c,w.queue ++ [t.key],t.key :: w.visited⟩,.parts t :: rest,d,turn⟩ := by
  have known := Catalog.mem_keys_register registered
  obtain ⟨c₁,new,rfl⟩ := explored.entered registered fresh
  constructor
  · simp [new.keys,explored.visited]
  · intro e member
    rw [Catalog.entries_link] at member
    rcases new.entry_cases member with old | ⟨_,type,_⟩
    · exact explored.inside e old
    · rw [type]
      exact inside
  · intro e member
    rw [Catalog.entries_link] at member
    rcases new.entry_cases member with old | ⟨_,type,_⟩
    · rcases explored.parts e old with later | ⟨ts,parts,covered⟩
      · exact .inl (List.mem_cons_of_mem _ (by simpa using later))
      · refine .inr ⟨ts,parts,?_⟩
        intro x part inside
        rcases covered x part inside with old | onStack
        · exact .inl (known.2 x.key old)
        · rcases List.mem_cons.mp onStack with same | onStack
          · cases same
            exact .inl known.1
          · exact .inr (List.mem_cons_of_mem _ onStack)
    · rw [type]
      exact .inl List.mem_cons_self

end Register

/-- A step that leaves types and keys alone and takes nothing from the stack but what is out of scope. -/
theorem keep {cfg cfg' : Config} (explored : Explored u scope cfg)
    (visited : cfg'.walk.visited = cfg.walk.visited)
    (same : cfg'.walk.catalog.entries.map Entry.descriptor =
      cfg.walk.catalog.entries.map Entry.descriptor)
    (parts : ∀ t, Item.parts t ∈ cfg.stack → Item.parts t ∈ cfg'.stack)
    (types : ∀ t, Item.type t ∈ cfg.stack → inScope scope t = true → Item.type t ∈ cfg'.stack) :
    Explored u scope cfg' := by
  have keys : cfg'.walk.catalog.keys = cfg.walk.catalog.keys := by
    have equal := congrArg (List.map Descriptor.key) same
    rw [List.map_map,List.map_map] at equal
    exact equal
  have origin : ∀ e' ∈ cfg'.walk.catalog.entries, ∃ e ∈ cfg.walk.catalog.entries,
      e.descriptor = e'.descriptor := by
    intro e' member
    have inside := List.mem_map_of_mem (f := Entry.descriptor) member
    rw [same] at inside
    exact List.mem_map.mp inside
  constructor
  · rw [keys,visited]
    exact explored.visited
  · intro e' member
    obtain ⟨e,present,equal⟩ := origin e' member
    rw [← equal]
    exact explored.inside e present
  · intro e' member
    obtain ⟨e,present,equal⟩ := origin e' member
    rw [← equal,keys]
    rcases explored.parts e present with later | ⟨ts,known,covered⟩
    · exact .inl (parts _ later)
    · refine .inr ⟨ts,known,?_⟩
      intro t part inside
      exact (covered t part inside).imp_right fun onStack => types t onStack inside

theorem expand {w : Walk} {t : TypeExpr} {ts : List TypeExpr} {rest : List Item}
    {d : Option String} {turn : Option Turn} (explored : Explored u scope ⟨w,.parts t :: rest,d,turn⟩)
    (known : elements u t = .ok ts) :
    Explored u scope ⟨w,ts.map .type ++ rest,d,turn⟩ := by
  refine ⟨explored.visited,explored.inside,?_⟩
  intro e member
  rcases explored.parts e member with later | ⟨parts,equal,covered⟩
  · rcases List.mem_cons.mp later with same | onStack
    · cases same
      refine .inr ⟨ts,known,?_⟩
      intro x part _
      exact .inr (List.mem_append_left _ (List.mem_map_of_mem part))
    · exact .inl (List.mem_append_right _ onStack)
  · refine .inr ⟨parts,equal,?_⟩
    intro x part inside
    apply (covered x part inside).imp_right
    intro onStack
    exact List.mem_append_right _ (by simpa using onStack)

theorem step {cfg cfg' : Config} (explored : Explored u scope cfg) (sound : Sound u cfg)
    (step : Step u scope cfg cfg') : Explored u scope cfg' := by
  cases step with
  | leave outside =>
    refine explored.keep rfl rfl (by simp) ?_
    intro t onStack inside
    rcases List.mem_cons.mp onStack with same | onStack
    · cases same
      rw [outside] at inside
      cases inside
    · exact onStack
  | revisit inside registered visited => exact explored.revisit registered visited
  | visit inside registered fresh => exact explored.visit inside registered fresh
  | expand known => exact explored.expand known
  | raise error =>
    refine explored.keep rfl ?_ (fun _ onStack => onStack) (fun _ onStack _ => onStack)
    apply Catalog.descriptors_modifyEntry
    exact fun e => (Catalog.raise_keeps e _).1
  | take value => exact explored.keep rfl rfl (by simp) (by simp)
  | start queued found offered =>
    have grants := claimMethods_grants sound.good (Catalog.entry?_some found).1
      (Universe.methodSet_nodup offered)
    refine explored.keep rfl ?_ (fun _ onStack => onStack) (fun _ onStack _ => onStack)
    exact congrArg (List.map Entry.descriptor) grants.entries
  | finish =>
    refine explored.keep rfl ?_ (fun _ onStack => onStack) (fun _ onStack _ => onStack)
    exact Catalog.descriptors_modifyEntry _ _ fun _ => rfl
  | skip queued missing =>
    exact explored.keep rfl rfl (fun _ onStack => onStack) (fun _ onStack _ => onStack)

end Explored
end ProxyGen.Walk
