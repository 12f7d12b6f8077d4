import ProxyGen.Proofs.Catalog

/-! What the operations on a catalog change. An entry that is new stands behind the others, without a
status and without methods, in the group of its root; an edge joins entries; claims belong to the groups
and are left alone by all that concerns entries. -/
namespace ProxyGen.Catalog

def claim? (c : Catalog) (root name : String) : Option Claim :=
  (c.group? root).bind fun g => g.claim? name

def membersOf (c : Catalog) (root : String) : List String :=
  ((c.group? root).map Group.members).getD []

/-- Records who mentions a type. -/
def link (c : Catalog) (source : String) : Option String → Catalog
  | none => c
  | some dependent => c.addEdge source dependent

structure WellFormed (u : Universe) (c : Catalog) : Prop where
  distinct : c.keys.Nodup
  described : ∀ e ∈ c.entries, Descriptor.ofType u e.descriptor.type = .ok e.descriptor ∧
    e.root = e.descriptor.type.root.key
  joined : ∀ source dependent, (source,dependent) ∈ c.edges → source ∈ c.keys ∧ dependent ∈ c.keys
  groupsDistinct : (c.groups.map Group.key).Nodup
  grouped : ∀ e ∈ c.entries, e.key ∈ c.membersOf e.root
  members : ∀ root, ∀ key ∈ c.membersOf root, ∃ e ∈ c.entries, e.key = key ∧ e.root = root

/-- The second catalog is the first one with a new entry for a type. -/
structure Enters (u : Universe) (c : Catalog) (t : TypeExpr) (c' : Catalog) : Prop where
  entries : ∃ d, Descriptor.ofType u t = .ok d ∧
    c'.entries = c.entries ++ [⟨d,t.root.key,.none,[]⟩]
  edges : c'.edges = c.edges
  claims : ∀ root name, c'.claim? root name = c.claim? root name
  members : ∀ root,
    c'.membersOf root = c.membersOf root ++ if root = t.root.key then [t.key] else []
  groupsDistinct : (c.groups.map Group.key).Nodup → (c'.groups.map Group.key).Nodup

theorem ofType_key {u : Universe} {t : TypeExpr} {d : Descriptor}
    (known : Descriptor.ofType u t = .ok d) : d.key = t.key ∧ d.type = t := by
  unfold Descriptor.ofType at known
  cases found : u.shape t with
  | error e => simp [found] at known
  | ok s =>
    simp only [found,Except.ok.injEq] at known
    subst known
    exact ⟨rfl,rfl⟩

theorem group?_some {c : Catalog} {root : String} {g : Group} (found : c.group? root = some g) :
    g ∈ c.groups ∧ g.key = root :=
  ⟨List.mem_of_find?_eq_some found,by simpa using List.find?_some found⟩

theorem group?_none {c : Catalog} {root : String} :
    c.group? root = none ↔ root ∉ c.groups.map Group.key := by
  simp [group?,List.find?_eq_none]

theorem group?_of_mem {c : Catalog} (distinct : (c.groups.map Group.key).Nodup) {g : Group}
    (member : g ∈ c.groups) : c.group? g.key = some g := by
  cases found : c.group? g.key with
  | none => exact absurd (List.mem_map_of_mem member) (group?_none.mp found)
  | some other =>
    obtain ⟨present,equal⟩ := group?_some found
    rw [List.inj_on_of_nodup_map distinct present member equal]

/-- Changing the elements of one key changes what is found under this key alone. -/
theorem find?_update {α : Type} (key : α → String) (k r : String) {f : α → α}
    (keeps : ∀ a, key (f a) = key a) (l : List α) :
    (l.map fun a => if key a == k then f a else a).find? (fun a => key a == r) =
      if r = k then (l.find? fun a => key a == r).map f else l.find? fun a => key a == r := by
  have same : ((fun a => key a == r) ∘ fun a => if key a == k then f a else a) =
      fun a => key a == r := by
    funext a
    by_cases changed : key a = k <;> simp [changed,keeps]
  rw [List.find?_map,same]
  cases found : l.find? fun a => key a == r with
  | none => simp
  | some a =>
    have equal : key a = r := by simpa using List.find?_some found
    by_cases changed : r = k <;> simp [equal,changed]

theorem group?_modifyGroup (c : Catalog) (root : String) {f : Group → Group}
    (keeps : ∀ g, (f g).key = g.key) (r : String) :
    (c.modifyGroup root f).group? r = if r = root then (c.group? r).map f else c.group? r :=
  find?_update Group.key root r keeps c.groups

theorem entry?_modifyEntry (c : Catalog) (key : String) {f : Entry → Entry}
    (keeps : ∀ e, (f e).key = e.key) (k : String) :
    Catalog.entry? (c.modifyEntry key f) k = if k = key then (c.entry? k).map f else c.entry? k :=
  find?_update Entry.key key k keeps c.entries

theorem descriptors_modifyEntry (c : Catalog) (key : String) {f : Entry → Entry}
    (keeps : ∀ e, (f e).descriptor = e.descriptor) :
    (c.modifyEntry key f).entries.map Entry.descriptor = c.entries.map Entry.descriptor := by
  simp only [modifyEntry,List.map_map]
  apply List.map_congr_left
  intro e _
  by_cases same : e.key = key <;> simp [same,keeps]

theorem keys_modifyEntry (c : Catalog) (key : String) {f : Entry → Entry}
    (keeps : ∀ e, (f e).key = e.key) : (c.modifyEntry key f).keys = c.keys := by
  simp only [keys,modifyEntry,List.map_map]
  apply List.map_congr_left
  intro e _
  by_cases same : e.key = key <;> simp [same,keeps]

theorem raise_keeps (e : Entry) (s : Status) :
    (e.raise s).descriptor = e.descriptor ∧ (e.raise s).root = e.root := by
  unfold Entry.raise
  split <;> exact ⟨rfl,rfl⟩

theorem raise_key (e : Entry) (s : Status) : (e.raise s).key = e.key :=
  congrArg Descriptor.key (raise_keeps e s).1

theorem groupKeys_modifyGroup (c : Catalog) (root : String) {f : Group → Group}
    (keeps : ∀ g, (f g).key = g.key) :
    (c.modifyGroup root f).groups.map Group.key = c.groups.map Group.key := by
  simp only [modifyGroup,List.map_map]
  apply List.map_congr_left
  intro g _
  by_cases same : g.key = root <;> simp [same,keeps]

/-- A group that was missing comes without claims and without members. -/
theorem addGroup_spec {u : Universe} {c c' : Catalog} {t : TypeExpr}
    (ok : c.addGroup u t = .ok c') :
    c'.entries = c.entries ∧ c'.edges = c.edges ∧
      (∀ root name, c'.claim? root name = c.claim? root name) ∧
      (∀ root, c'.membersOf root = c.membersOf root) ∧
      ((c.groups.map Group.key).Nodup → (c'.groups.map Group.key).Nodup) ∧
      ∃ g, c'.group? t.root.key = some g := by
  unfold addGroup at ok
  cases found : c.group? t.root.key with
  | some g =>
    simp only [found,Except.ok.injEq] at ok
    subst ok
    exact ⟨rfl,rfl,fun _ _ => rfl,fun _ => rfl,id,g,found⟩
  | none =>
    cases known : Descriptor.ofType u t.root with
    | error e => simp [found,known] at ok
    | ok d =>
      simp only [found,known,Except.ok.injEq] at ok
      have key : d.key = t.root.key := (ofType_key known).1
      have view (root : String) : c'.group? root =
          (c.group? root).or (if root = t.root.key then some ⟨d,[],[]⟩ else none) := by
        subst ok
        simp only [group?,List.find?_append,List.find?_singleton,Group.key,key,beq_iff_eq]
        by_cases same : t.root.key = root
        · simp [same]
        · simp [same,Ne.symm same]
      refine ⟨by rw [← ok],by rw [← ok],?_,?_,?_,⟨d,[],[]⟩,by simp [view,found]⟩
      · intro root name
        simp only [claim?,view]
        by_cases same : root = t.root.key
        · subst same
          simp [found,Group.claim?]
        · simp [same]
      · intro root
        simp only [membersOf,view]
        by_cases same : root = t.root.key
        · subst same
          simp [found]
        · simp [same]
      · intro distinct
        have absent := group?_none.mp found
        subst ok
        simp only [List.map_append,List.map_cons,List.map_nil,Group.key,key]
        apply List.nodup_append.mpr
        refine ⟨distinct,by simp,?_⟩
        rintro k present _ (_ | ⟨_,impossible⟩) rfl
        · exact absent present
        · cases impossible

theorem addEntry_new {u : Universe} {c c' : Catalog} {t : TypeExpr} (absent : t.key ∉ c.keys)
    (ok : c.addEntry u t = .ok c') : c.Enters u t c' := by
  unfold addEntry at ok
  rw [entry?_none.mpr absent] at ok
  cases known : Descriptor.ofType u t with
  | error e => simp [known] at ok
  | ok d =>
    cases added : c.addGroup u t with
    | error e => simp [known,added] at ok
    | ok c₁ =>
      simp only [known,added,Except.ok.injEq] at ok
      obtain ⟨entries,edges,claims,members,groups,g,found⟩ := addGroup_spec added
      let join (g : Group) : Group := { g with members := g.members ++ [t.key] }
      have view (root : String) : c'.group? root =
          if root = t.root.key then (c₁.group? root).map join else c₁.group? root := by
        subst ok
        exact group?_modifyGroup c₁ t.root.key (f := join) (fun _ => rfl) root
      constructor
      · refine ⟨d,known,?_⟩
        subst ok
        simp [modifyGroup,entries]
      · subst ok
        exact edges
      · intro root name
        rw [← claims root name]
        simp only [claim?,view]
        by_cases same : root = t.root.key
        · subst same
          simp only [found,if_true,Option.map_some,Option.bind_some]
          rfl
        · simp [same]
      · intro root
        rw [← members root]
        simp only [membersOf,view]
        by_cases same : root = t.root.key
        · subst same
          simp [found,join]
        · simp [same]
      · intro distinct
        have kept := groupKeys_modifyGroup c₁ t.root.key (f := join) (fun _ => rfl)
        subst ok
        exact kept ▸ groups distinct

theorem addEntry_known {u : Universe} {c : Catalog} {t : TypeExpr} (known : t.key ∈ c.keys) :
    c.addEntry u t = .ok c := by
  unfold addEntry
  cases found : c.entry? t.key with
  | none => exact absurd known (entry?_none.mp found)
  | some e => rfl

theorem register_eq {u : Universe} {c c' : Catalog} {t : TypeExpr} {dependent : Option String}
    (ok : c.register u t dependent = .ok c') :
    ∃ c₁, c.addEntry u t = .ok c₁ ∧ c' = c₁.link t.key dependent := by
  unfold register at ok
  cases added : c.addEntry u t with
  | error e => simp [added] at ok
  | ok c₁ =>
    refine ⟨c₁,rfl,?_⟩
    cases dependent <;> simpa [added,link,eq_comm] using ok

/-- All that registering a type can do. -/
theorem register_cases {u : Universe} {c c' : Catalog} {t : TypeExpr} {dependent : Option String}
    (ok : c.register u t dependent = .ok c') :
    (t.key ∈ c.keys ∧ c' = c.link t.key dependent) ∨
    (t.key ∉ c.keys ∧ ∃ c₁, c.Enters u t c₁ ∧ c' = c₁.link t.key dependent) := by
  obtain ⟨c₁,added,rfl⟩ := register_eq ok
  by_cases known : t.key ∈ c.keys
  · rw [addEntry_known known] at added
    cases added
    exact .inl ⟨known,rfl⟩
  · exact .inr ⟨known,c₁,addEntry_new known added,rfl⟩

section Link
variable (c : Catalog) (source : String) (dependent : Option String)

@[simp] theorem entries_link : (c.link source dependent).entries = c.entries := by
  cases dependent with
  | none => rfl
  | some d => simp only [link,addEdge]; split <;> rfl

@[simp] theorem groups_link : (c.link source dependent).groups = c.groups := by
  cases dependent with
  | none => rfl
  | some d => simp only [link,addEdge]; split <;> rfl

@[simp] theorem keys_link : (c.link source dependent).keys = c.keys := by
  simp [keys]

@[simp] theorem entry?_link (key : String) :
    Catalog.entry? (c.link source dependent) key = c.entry? key := by
  simp [Catalog.entry?]

@[simp] theorem claim?_link (root name : String) :
    (c.link source dependent).claim? root name = c.claim? root name := by
  simp [claim?,group?]

@[simp] theorem membersOf_link (root : String) :
    (c.link source dependent).membersOf root = c.membersOf root := by
  simp [membersOf,group?]

theorem mem_edges_link {edge : String × String} :
    edge ∈ (c.link source dependent).edges ↔
      edge ∈ c.edges ∨ edge.1 = source ∧ dependent = some edge.2 := by
  obtain ⟨a,b⟩ := edge
  cases dependent with
  | none => simp [link]
  | some d =>
    simp only [link,addEdge,Option.some.injEq]
    split
    next present =>
      constructor
      · exact .inl
      · rintro (known | ⟨rfl,rfl⟩)
        · exact known
        · exact present
    next => simp [or_comm,eq_comm]

end Link

theorem membersOf_modifyGroup (c : Catalog) (root : String) {f : Group → Group}
    (keeps : ∀ g, (f g).descriptor = g.descriptor ∧ (f g).members = g.members) (r : String) :
    (c.modifyGroup root f).membersOf r = c.membersOf r := by
  simp only [membersOf]
  rw [group?_modifyGroup c root (fun g => congrArg Descriptor.key (keeps g).1)]
  by_cases same : r = root
  · cases found : c.group? r <;> simp [same,keeps]
  · simp [same]

theorem wellFormed_empty (u : Universe) : empty.WellFormed u where
  distinct := List.nodup_nil
  described _ member := absurd member List.not_mem_nil
  joined _ _ edge := absurd edge List.not_mem_nil
  groupsDistinct := List.nodup_nil
  grouped _ member := absurd member List.not_mem_nil
  members _ _ member := absurd member List.not_mem_nil

namespace Enters
variable {u : Universe} {c c' : Catalog} {t : TypeExpr}

theorem keys (enters : c.Enters u t c') : c'.keys = c.keys ++ [t.key] := by
  obtain ⟨d,known,equal⟩ := enters.entries
  simp [Catalog.keys,equal,Entry.key,(ofType_key known).1]

theorem mem_entries (enters : c.Enters u t c') {e : Entry} (member : e ∈ c.entries) :
    e ∈ c'.entries := by
  obtain ⟨d,_,equal⟩ := enters.entries
  simp [equal,member]

/-- An entry of the second catalog is one of the first or the new one, which nothing has happened to. -/
theorem entry_cases (enters : c.Enters u t c') {e : Entry} (member : e ∈ c'.entries) :
    e ∈ c.entries ∨ e.key = t.key ∧ e.descriptor.type = t ∧ e.root = t.root.key ∧
      e.status = .none ∧ e.methods = [] ∧ Descriptor.ofType u t = .ok e.descriptor := by
  obtain ⟨d,known,equal⟩ := enters.entries
  rw [equal] at member
  rcases List.mem_append.mp member with old | new
  · exact .inl old
  · rw [List.mem_singleton.mp new]
    exact .inr ⟨(ofType_key known).1,(ofType_key known).2,rfl,rfl,rfl,known⟩

theorem entry?_or (enters : c.Enters u t c') (key : String) :
    ∃ new, c'.entry? key = (c.entry? key).or new ∧ ∀ e, new = some e → e.status = .none := by
  obtain ⟨d,_,equal⟩ := enters.entries
  refine ⟨[⟨d,t.root.key,.none,[]⟩].find? fun e => e.key == key,?_,?_⟩
  · simp only [Catalog.entry?,equal,List.find?_append]
  · intro e found
    rw [List.mem_singleton.mp (List.mem_of_find?_eq_some found)]

/-- A type without an entry has no status, and neither has one with a new entry. -/
theorem statusOf (enters : c.Enters u t c') (key : String) : c'.statusOf key = c.statusOf key := by
  obtain ⟨new,equal,blank⟩ := enters.entry?_or key
  simp only [Catalog.statusOf,equal]
  cases c.entry? key with
  | some e => rfl
  | none =>
    cases found : new with
    | none => rfl
    | some e => exact blank e found

end Enters

section Register
variable {u : Universe} {c c' : Catalog} {t : TypeExpr} {dependent : Option String}

theorem mem_keys_register (ok : c.register u t dependent = .ok c') :
    t.key ∈ c'.keys ∧ ∀ key ∈ c.keys, key ∈ c'.keys := by
  rcases register_cases ok with ⟨known,rfl⟩ | ⟨_,c₁,new,rfl⟩
  · rw [keys_link]
    exact ⟨known,fun _ => id⟩
  · rw [keys_link,new.keys]
    exact ⟨by simp,fun _ present => List.mem_append_left _ present⟩

theorem mem_edges_register (ok : c.register u t dependent = .ok c') {edge : String × String} :
    edge ∈ c'.edges ↔ edge ∈ c.edges ∨ edge.1 = t.key ∧ dependent = some edge.2 := by
  rcases register_cases ok with ⟨_,rfl⟩ | ⟨_,c₁,new,rfl⟩
  · exact mem_edges_link c t.key dependent
  · rw [mem_edges_link,new.edges]

theorem entry?_register (ok : c.register u t dependent = .ok c') {key : String} {e : Entry}
    (found : c.entry? key = some e) : c'.entry? key = some e := by
  rcases register_cases ok with ⟨_,rfl⟩ | ⟨_,c₁,new,rfl⟩
  · rw [entry?_link,found]
  · obtain ⟨added,equal,_⟩ := new.entry?_or key
    rw [entry?_link,equal,found,Option.some_or]

theorem statusOf_register (ok : c.register u t dependent = .ok c') (key : String) :
    c'.statusOf key = c.statusOf key := by
  rcases register_cases ok with ⟨_,rfl⟩ | ⟨_,c₁,new,rfl⟩
  · simp [statusOf]
  · rw [← new.statusOf key]
    simp [statusOf]

end Register

namespace WellFormed
variable {u : Universe} {c c' : Catalog} {t : TypeExpr}

theorem enters (good : c.WellFormed u) (absent : t.key ∉ c.keys) (new : c.Enters u t c') :
    c'.WellFormed u where
  distinct := by
    rw [new.keys]
    apply List.nodup_append.mpr
    refine ⟨good.distinct,by simp,?_⟩
    intro key present other isNew equal
    rw [equal,List.mem_singleton.mp isNew] at present
    exact absent present
  described := by
    intro e member
    rcases new.entry_cases member with old | ⟨_,type,root,_,_,known⟩
    · exact good.described e old
    · rw [type]
      exact ⟨known,root⟩
  joined := by
    intro source dependent edge
    rw [new.edges] at edge
    obtain ⟨first,second⟩ := good.joined source dependent edge
    rw [new.keys]
    exact ⟨List.mem_append_left _ first,List.mem_append_left _ second⟩
  groupsDistinct := new.groupsDistinct good.groupsDistinct
  grouped := by
    intro e member
    rw [new.members]
    rcases new.entry_cases member with old | ⟨key,_,root,_⟩
    · exact List.mem_append_left _ (good.grouped e old)
    · simp [key,root]
  members := by
    intro root key member
    rw [new.members] at member
    rcases List.mem_append.mp member with old | isNew
    · obtain ⟨e,present,facts⟩ := good.members root key old
      exact ⟨e,new.mem_entries present,facts⟩
    · obtain ⟨d,known,equal⟩ := new.entries
      by_cases same : root = t.root.key
      · rw [if_pos same,List.mem_singleton] at isNew
        refine ⟨⟨d,t.root.key,.none,[]⟩,by simp [equal],?_,same.symm⟩
        rw [isNew]
        exact (ofType_key known).1
      · simp [same] at isNew

theorem link (good : c.WellFormed u) {source : String} {dependent : Option String}
    (known : source ∈ c.keys) (dependents : ∀ d, dependent = some d → d ∈ c.keys) :
    (c.link source dependent).WellFormed u where
  distinct := by simpa using good.distinct
  described e member := good.described e (by simpa using member)
  joined := by
    intro a b edge
    rw [keys_link]
    rcases mem_edges_link c source dependent |>.mp edge with old | ⟨rfl,target⟩
    · exact good.joined a b old
    · exact ⟨known,dependents b target⟩
  groupsDistinct := by simpa using good.groupsDistinct
  grouped := by simpa using good.grouped
  members := by simpa using good.members

theorem register (good : c.WellFormed u) {dependent : Option String}
    (dependents : ∀ d, dependent = some d → d ∈ c.keys)
    (ok : c.register u t dependent = .ok c') : c'.WellFormed u := by
  rcases register_cases ok with ⟨known,rfl⟩ | ⟨absent,c₁,new,rfl⟩
  · exact good.link known dependents
  · apply (good.enters absent new).link
    · simp [new.keys]
    · intro d target
      rw [new.keys]
      exact List.mem_append_left _ (dependents d target)

theorem modifyEntry (good : c.WellFormed u) (key : String) {f : Entry → Entry}
    (keeps : ∀ e, (f e).descriptor = e.descriptor ∧ (f e).root = e.root) :
    (c.modifyEntry key f).WellFormed u := by
  have keysKept := keys_modifyEntry c key (f := f) fun e => congrArg Descriptor.key (keeps e).1
  have image : ∀ e ∈ (c.modifyEntry key f).entries, ∃ e₀ ∈ c.entries,
      e.descriptor = e₀.descriptor ∧ e.root = e₀.root := by
    intro e member
    obtain ⟨e₀,present,rfl⟩ := List.mem_map.mp member
    refine ⟨e₀,present,?_⟩
    split
    · exact keeps e₀
    · exact ⟨rfl,rfl⟩
  constructor
  · rw [keysKept]
    exact good.distinct
  · intro e member
    obtain ⟨e₀,present,descriptor,root⟩ := image e member
    rw [descriptor,root]
    exact good.described e₀ present
  · intro source dependent edge
    rw [keysKept]
    exact good.joined source dependent edge
  · exact good.groupsDistinct
  · intro e member
    obtain ⟨e₀,present,descriptor,root⟩ := image e member
    rw [Entry.key,descriptor,root]
    exact good.grouped e₀ present
  · intro root k member
    obtain ⟨e,present,equal,inRoot⟩ := good.members root k member
    refine ⟨if e.key == key then f e else e,List.mem_map_of_mem present,?_⟩
    split
    · exact ⟨(congrArg Descriptor.key (keeps e).1).trans equal,(keeps e).2.trans inRoot⟩
    · exact ⟨equal,inRoot⟩

theorem modifyGroup (good : c.WellFormed u) (root : String) {f : Group → Group}
    (keeps : ∀ g, (f g).descriptor = g.descriptor ∧ (f g).members = g.members) :
    (c.modifyGroup root f).WellFormed u where
  distinct := good.distinct
  described := good.described
  joined := good.joined
  groupsDistinct := by
    rw [groupKeys_modifyGroup c root fun g => congrArg Descriptor.key (keeps g).1]
    exact good.groupsDistinct
  grouped := by
    intro e member
    rw [membersOf_modifyGroup c root keeps]
    exact good.grouped e member
  members := by
    intro r key member
    rw [membersOf_modifyGroup c root keeps] at member
    exact good.members r key member

theorem group_of_mem (good : c.WellFormed u) {e : Entry} (member : e ∈ c.entries) :
    ∃ g, c.group? e.root = some g ∧ g ∈ c.groups ∧ g.key = e.root := by
  have grouped := good.grouped e member
  unfold membersOf at grouped
  cases found : c.group? e.root with
  | none => simp [found] at grouped
  | some g => exact ⟨g,rfl,group?_some found⟩

/-- Groups part the entries by their roots. -/
theorem mem_members_iff (good : c.WellFormed u) {g : Group} (group : g ∈ c.groups) {e : Entry}
    (member : e ∈ c.entries) : e.key ∈ g.members ↔ e.root = g.key := by
  have members : c.membersOf g.key = g.members := by
    simp [membersOf,group?_of_mem good.groupsDistinct group]
  rw [← members]
  constructor
  · intro inside
    obtain ⟨other,present,same,root⟩ := good.members g.key e.key inside
    obtain rfl := entry_unique good.distinct present member same
    exact root
  · intro root
    rw [← root]
    exact good.grouped e member

end WellFormed

end ProxyGen.Catalog
