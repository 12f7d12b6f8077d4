import Mathlib.Data.List.Induction
import Mathlib.Data.List.Nodup
import ProxyGen.FileSystem.Tree

/-! Places in file trees. A tree holds what stands at each place, and a path leads to a place through
directories; a name joined to the path of a directory leads to the place of that name below it. -/
namespace ProxyGen

namespace Text

theorem splitAll_ne_nil (separator : Char) (s : List Char) : splitAll separator s ≠ [] := by
  cases s with
  | nil => exact List.cons_ne_nil _ _
  | cons c s =>
    simp only [splitAll]
    split
    · exact List.cons_ne_nil _ _
    · split <;> exact List.cons_ne_nil _ _

theorem splitAll_cons (separator c : Char) (s : List Char) : ∃ part parts,
    splitAll separator s = part :: parts ∧ splitAll separator (c :: s) =
      if c = separator then [] :: part :: parts else (c :: part) :: parts := by
  cases rest : splitAll separator s with
  | nil => exact absurd rest (splitAll_ne_nil separator s)
  | cons part parts => exact ⟨part,parts,rfl,by simp only [splitAll,rest]⟩

theorem splitAll_separator (separator : Char) (a b : List Char) :
    splitAll separator (a ++ separator :: b) = splitAll separator a ++ splitAll separator b := by
  induction a with
  | nil =>
    obtain ⟨part,parts,rest,whole⟩ := splitAll_cons separator separator b
    rw [List.nil_append,whole,if_pos rfl,rest]
    rfl
  | cons c a ih =>
    obtain ⟨part,parts,rest,whole⟩ := splitAll_cons separator c a
    simp only [List.cons_append,splitAll,ih,rest]
    split <;> rfl

theorem splitAll_of_not_mem {separator : Char} {s : List Char} (whole : separator ∉ s) :
    splitAll separator s = [s] := by
  induction s with
  | nil => rfl
  | cons c s ih =>
    obtain ⟨other,later⟩ := not_or.mp (List.mem_cons.not.mp whole)
    simp only [splitAll,ih later,if_neg (Ne.symm other)]

/-- Parts have the characters of the text, without the separator. -/
theorem mem_part {separator c : Char} {s part : List Char} (inside : part ∈ splitAll separator s)
    (member : c ∈ part) : c ∈ s ∧ c ≠ separator := by
  induction s generalizing part with
  | nil =>
    rw [splitAll,List.mem_singleton] at inside
    rw [inside] at member
    cases member
  | cons d s ih =>
    obtain ⟨first,parts,rest,whole⟩ := splitAll_cons separator d s
    rw [whole] at inside
    rw [rest] at ih
    split at inside
    next =>
      rcases List.mem_cons.mp inside with rfl | inside
      · cases member
      · exact (ih inside member).imp_left (List.mem_cons_of_mem _)
    next other =>
      rcases List.mem_cons.mp inside with rfl | inside
      · rcases List.mem_cons.mp member with rfl | member
        · exact ⟨List.mem_cons_self,other⟩
        · exact (ih List.mem_cons_self member).imp_left (List.mem_cons_of_mem _)
      · exact (ih (List.mem_cons_of_mem _ inside) member).imp_left (List.mem_cons_of_mem _)

end Text

namespace Path

/-- A name that leads one step down. -/
structure Plain (name : String) : Prop where
  nonempty : name ≠ ""
  notHere : name ≠ "."
  notAbove : name ≠ ".."
  single : '/' ∉ name.toList

/-- A name that a file or a directory can have. -/
structure Valid (name : String) : Prop extends Plain name where
  short : name.utf8ByteSize ≤ maxName
  textual : '\x00' ∉ name.toList

theorem valid_iff {name : String} : Valid name ↔ name ≠ "" ∧ name ≠ "." ∧ name ≠ ".." ∧
    '/' ∉ name.toList ∧ name.utf8ByteSize ≤ maxName ∧ '\x00' ∉ name.toList :=
  ⟨fun v => ⟨v.nonempty,v.notHere,v.notAbove,v.single,v.short,v.textual⟩,
    fun ⟨nonempty,notHere,notAbove,single,short,textual⟩ =>
      ⟨⟨nonempty,notHere,notAbove,single⟩,short,textual⟩⟩

instance (name : String) : Decidable (Valid name) := decidable_of_iff' _ valid_iff

/-- A name is not too long for a path, and neither is the path that it makes. -/
structure Fits (dir name : String) : Prop where
  short : name.utf8ByteSize ≤ maxName
  textual : '\x00' ∉ name.toList
  bounded : (join dir name).utf8ByteSize ≤ maxPath

section Join
variable {dir name : String}

theorem allElements_of_single (single : '/' ∉ name.toList) : allElements name = [name] := by
  simp [allElements,Text.splitAll_of_not_mem single]

theorem allElements_separator (a b : String) :
    allElements (a ++ "/" ++ b) = allElements a ++ allElements b := by
  have split : (a ++ "/" ++ b).toList = a.toList ++ '/' :: b.toList := by simp
  rw [allElements,split,Text.splitAll_separator,List.map_append]
  rfl

/-- A path that ends in a slash has an empty element there. -/
theorem exists_of_ends_slash (ends : dir.toList.getLast? = some '/') : ∃ above, dir = above ++ "/" := by
  obtain ⟨front,split⟩ := List.getLast?_eq_some_iff.mp ends
  refine ⟨String.ofList front,String.toList_injective ?_⟩
  simp [split]

theorem join_of_single (nonempty : dir ≠ "") (single : '/' ∉ name.toList) : join dir name =
    if dir.toList.getLast? = some '/' then dir ++ name else dir ++ "/" ++ name := by
  unfold join
  rw [if_neg]
  rintro (rooted | empty)
  · exact single (List.mem_of_mem_head? rooted)
  · exact nonempty empty

theorem allElements_join (nonempty : dir ≠ "") (single : '/' ∉ name.toList) : ∃ above,
    allElements (join dir name) = above ++ [name] ∧
      (allElements dir = above ∨ allElements dir = above ++ [""]) := by
  rw [join_of_single nonempty single]
  split
  next ends =>
    obtain ⟨above,rfl⟩ := exists_of_ends_slash ends
    refine ⟨allElements above,?_,.inr ?_⟩
    · rw [allElements_separator,allElements_of_single single]
    · have slashed := allElements_separator above ""
      rw [String.append_empty] at slashed
      exact slashed
  next => exact ⟨_,by rw [allElements_separator,allElements_of_single single],.inl rfl⟩

theorem toList_join (nonempty : dir ≠ "") (single : '/' ∉ name.toList) :
    ∃ slash, (slash = [] ∨ slash = ['/']) ∧ (join dir name).toList = dir.toList ++ slash ++ name.toList := by
  rw [join_of_single nonempty single]
  split
  · exact ⟨[],.inl rfl,by simp⟩
  · exact ⟨['/'],.inr rfl,by simp⟩

theorem elements_separator (a b : String) : elements (a ++ "/" ++ b) = elements a ++ elements b := by
  rw [elements,allElements_separator,List.filter_append]
  rfl

theorem elements_join (relative : name.toList.head? ≠ some '/') :
    elements (join dir name) = elements dir ++ elements name := by
  unfold join
  by_cases blank : dir = ""
  · rw [if_pos (.inr blank),blank]
    rfl
  · rw [if_neg (not_or.mpr ⟨relative,blank⟩)]
    split
    next ends =>
      obtain ⟨above,rfl⟩ := exists_of_ends_slash ends
      have slashed := elements_separator above ""
      rw [String.append_empty] at slashed
      rw [elements_separator,slashed]
      simp [elements,allElements,Text.splitAll]
    next => exact elements_separator dir name

/-- A path that says no more than where it starts has the name of the working directory. -/
theorem lastNameIn?_of_elements {here : String} (nothing : elements name = []) (nonempty : name ≠ "")
    (relative : name.toList.head? ≠ some '/') : lastNameIn? (some here) name = lastName? here := by
  rw [lastNameIn?,if_neg nonempty,if_neg relative,Option.bind_some]
  unfold lastName?
  rw [elements_join relative,nothing,List.append_nil]

example : lastNameIn? (some "/home/shop") "./" = some "shop" := by decide +kernel

end Join
end Path

namespace FileTree

/-- Trees as they are: every place has one node and lies in a directory, and names can be names. -/
structure WellFormed (t : FileTree) : Prop where
  distinct : (t.nodes.map Prod.fst).Nodup
  rooted : ∀ n ∈ t.nodes, n.1 ≠ []
  named : ∀ n ∈ t.nodes, ∀ name ∈ n.1, Path.Valid name
  above : ∀ n ∈ t.nodes, t.node? n.1.dropLast = some .directory
  home : t.node? t.home = some .directory

theorem child_iff {place p : List String} {name : String} :
    (if p.dropLast = place then p.getLast? else none) = some name ↔ p = place ++ [name] := by
  constructor
  · intro named
    split at named
    next under =>
      obtain ⟨front,rfl⟩ := List.getLast?_eq_some_iff.mp named
      rw [← under,List.dropLast_concat]
    next => cases named
  · rintro rfl
    simp

section Nodes
variable {t : FileTree} {place : List String} {n : Node}

theorem node?_of_mem (good : t.WellFormed) (member : (place,n) ∈ t.nodes) : t.node? place = some n := by
  rw [node?,if_neg (by simpa using good.rooted _ member)]
  exact lookup_of_mem good.distinct member

theorem mem_of_node? (proper : place ≠ []) (found : t.node? place = some n) : (place,n) ∈ t.nodes := by
  rw [node?,if_neg (by simpa using proper)] at found
  exact mem_of_lookup found

theorem node?_dropLast (good : t.WellFormed) (found : t.node? place = some n) :
    t.node? place.dropLast = some .directory := by
  by_cases root : place = []
  · rw [root]
    rfl
  · exact good.above _ (mem_of_node? root found)

/-- Whatever stands above something is a directory. -/
theorem node?_above (good : t.WellFormed) {above below : List String}
    (found : t.node? (above ++ below) = some n) (proper : below ≠ []) :
    t.node? above = some .directory := by
  induction below using List.reverseRecOn generalizing n with
  | nil => exact absurd rfl proper
  | append_singleton below name ih =>
    have parent := node?_dropLast good found
    rw [← List.append_assoc,List.dropLast_concat] at parent
    by_cases empty : below = []
    · rw [empty,List.append_nil] at parent
      exact parent
    · exact ih parent empty

theorem valid_of_node? (good : t.WellFormed) {name : String} (found : t.node? (place ++ [name]) = some n) :
    Path.Valid name :=
  good.named _ (mem_of_node? (by simp) found) name (by simp)

theorem mem_namesAt (good : t.WellFormed) {name : String} :
    name ∈ t.namesAt place ↔ ∃ n, t.node? (place ++ [name]) = some n := by
  rw [namesAt,List.mem_filterMap]
  constructor
  · rintro ⟨⟨p,n⟩,member,named⟩
    obtain rfl := child_iff.mp named
    exact ⟨n,node?_of_mem good member⟩
  · rintro ⟨n,found⟩
    exact ⟨_,mem_of_node? (by simp) found,child_iff.mpr rfl⟩

theorem namesAt_nodup (good : t.WellFormed) (place : List String) : (t.namesAt place).Nodup := by
  have once := good.distinct
  rw [namesAt]
  clear good
  generalize t.nodes = nodes at once
  induction nodes with
  | nil => exact List.nodup_nil
  | cons first rest ih =>
    obtain ⟨fresh,later⟩ := List.nodup_cons.mp once
    rw [List.filterMap_cons]
    split
    next => exact ih later
    next name named =>
      refine List.nodup_cons.mpr ⟨?_,ih later⟩
      intro again
      obtain ⟨other,member,named'⟩ := List.mem_filterMap.mp again
      exact fresh (List.mem_map.mpr
        ⟨other,member,(child_iff.mp named').trans (child_iff.mp named).symm⟩)

theorem mem_empty {home : List String} :
    (place,n) ∈ (empty home).nodes ↔ place ≠ [] ∧ place <+: home ∧ n = .directory := by
  rw [empty,List.mem_map]
  constructor
  · rintro ⟨k,inside,same⟩
    obtain ⟨rfl,rfl⟩ := Prod.mk.inj same
    rw [List.mem_range] at inside
    refine ⟨?_,List.take_prefix _ _,rfl⟩
    rw [Ne,List.take_eq_nil_iff]
    rintro (zero | none)
    · exact Nat.succ_ne_zero k zero
    · rw [none] at inside
      exact absurd inside (Nat.not_lt_zero k)
  · rintro ⟨proper,first,rfl⟩
    have some := List.length_pos_iff.mpr proper
    have inside := first.length_le
    refine ⟨place.length - 1,List.mem_range.mpr (by omega),?_⟩
    rw [Nat.sub_add_cancel some,← List.prefix_iff_eq_take.mp first]

theorem wellFormed_empty {home : List String} (valid : ∀ name ∈ home, Path.Valid name) :
    (empty home).WellFormed := by
  have distinct : ((empty home).nodes.map Prod.fst).Nodup := by
    rw [empty,List.map_map]
    refine List.nodup_range.map_on fun a first b second same => ?_
    have sizes := congrArg List.length same
    simp only [List.mem_range] at first second
    simp only [Function.comp_apply,List.length_take] at sizes
    omega
  have directories {p : List String} (first : p <+: home) : (empty home).node? p = some .directory := by
    by_cases root : p = []
    · rw [root]
      rfl
    · rw [node?,if_neg (by simpa using root)]
      exact lookup_of_mem distinct (mem_empty.mpr ⟨root,first,rfl⟩)
  refine ⟨distinct,fun n member => (mem_empty.mp member).1,?_,?_,directories (List.prefix_refl _)⟩
  · intro n member name inside
    exact valid name ((mem_empty.mp member).2.1.subset inside)
  · intro n member
    exact directories ((List.dropLast_prefix _).trans (mem_empty.mp member).2.1)

end Nodes

section Changes
variable {t : FileTree} {place : List String} {n : Node}

@[simp] theorem home_put (t : FileTree) (place : List String) (n : Node) : (t.put place n).home = t.home :=
  rfl

@[simp] theorem home_erase (t : FileTree) (place : List String) : (t.erase place).home = t.home := rfl

theorem nodes_struck_nodup (good : t.WellFormed) (place : List String) :
    ((t.nodes.filter fun n => n.1 != place).map Prod.fst).Nodup :=
  good.distinct.sublist (List.filter_sublist.map Prod.fst)

/-- Something new can be put into a directory, or in the place of a file. -/
theorem WellFormed.put (good : t.WellFormed) {name : String} (parent : t.node? place = some .directory)
    (valid : Path.Valid name) (free : t.node? (place ++ [name]) ≠ some .directory) :
    (t.put (place ++ [name]) n).WellFormed := by
  have proper : place ++ [name] ≠ [] := by simp
  have directories {p : List String} (there : t.node? p = some .directory) :
      (t.put (place ++ [name]) n).node? p = some .directory := by
    rw [node?_put t n p proper,if_neg]
    · exact there
    · rintro rfl
      exact free there
  have cases {m : List String × Node} (member : m ∈ (t.put (place ++ [name]) n).nodes) :
      m = (place ++ [name],n) ∨ m ∈ t.nodes :=
    (List.mem_cons.mp member).imp_right fun old => (List.mem_filter.mp old).1
  constructor
  case distinct =>
    refine List.nodup_cons.mpr ⟨?_,nodes_struck_nodup good _⟩
    intro again
    obtain ⟨other,member,same⟩ := List.mem_map.mp again
    simpa [same] using (List.mem_filter.mp member).2
  case rooted =>
    intro m member
    rcases cases member with rfl | old
    · exact proper
    · exact good.rooted m old
  case named =>
    intro m member x inside
    rcases cases member with rfl | old
    · rcases List.mem_append.mp inside with above | new
      · -- The names above belong to the directory, unless it is the root.
        by_cases root : place = []
        · simp [root] at above
        · exact good.named _ (mem_of_node? root parent) x above
      · rw [List.mem_singleton.mp new]
        exact valid
    · exact good.named m old x inside
  case above =>
    intro m member
    rcases cases member with rfl | old
    · rw [List.dropLast_concat]
      exact directories parent
    · exact directories (good.above m old)
  case home => exact directories good.home

/-- A file can be taken away. -/
theorem WellFormed.erase (good : t.WellFormed) {text : String} (found : t.node? place = some (.file text)) :
    (t.erase place).WellFormed := by
  have proper : place ≠ [] := by
    rintro rfl
    cases found
  have directories {p : List String} (there : t.node? p = some .directory) :
      (t.erase place).node? p = some .directory := by
    rw [node?_erase t p proper,if_neg]
    · exact there
    · rintro rfl
      cases found.symm.trans there
  have old {m : List String × Node} (member : m ∈ (t.erase place).nodes) : m ∈ t.nodes :=
    (List.mem_filter.mp member).1
  exact ⟨nodes_struck_nodup good place,fun m member => good.rooted m (old member),
    fun m member => good.named m (old member),fun m member => directories (good.above m (old member)),
    directories good.home⟩

end Changes

section Follow
variable {t : FileTree}

theorem follow_append (t : FileTree) (place : List String) (first second : List String) :
    t.follow place (first ++ second) = (t.follow place first).bind fun p => t.follow p second := by
  induction first generalizing place with
  | nil => rfl
  | cons e rest ih =>
    simp only [List.cons_append,follow]
    cases t.node? place with
    | none => rfl
    | some n =>
      cases n with
      | file text => rfl
      | directory =>
        dsimp only
        split
        · rfl
        · exact ih _

theorem follow_single {place : List String} (here : t.node? place = some .directory) (e : String) :
    t.follow place [e] =
      if e.utf8ByteSize > Path.maxName then .error .nameTooLong else .ok (step place e) := by
  simp only [follow,here]

theorem step_plain {name : String} (plain : Path.Plain name) (place : List String) :
    step place name = place ++ [name] := by
  simp [step,plain.nonempty,plain.notHere,plain.notAbove]

/-- Only directories count on the way. -/
theorem follow_mono {t' : FileTree}
    (directories : ∀ p, t.node? p = some .directory → t'.node? p = some .directory)
    {elements place p : List String} (leads : t.follow place elements = .ok p) :
    t'.follow place elements = .ok p := by
  induction elements generalizing place with
  | nil => exact leads
  | cons e rest ih =>
    simp only [follow] at leads ⊢
    cases here : t.node? place with
    | none => simp [here] at leads
    | some n =>
      cases n with
      | file text => simp [here] at leads
      | directory =>
        simp only [here,directories place here] at leads ⊢
        split at leads
        next => cases leads
        next short =>
          rw [if_neg short]
          exact ih leads

theorem locate_eq_ok {path : String} {place : List String} {n : Node} : t.locate path = .ok (place,n) ↔
    ∃ elements, elementsOf path = .ok elements ∧ t.follow (t.start path) elements = .ok place ∧
      t.node? place = some n := by
  unfold locate
  cases elementsOf path with
  | error f => simp [bind,Except.bind]
  | ok elements =>
    cases followed : t.follow (t.start path) elements with
    | error f => simp [bind,Except.bind,followed]
    | ok p =>
      cases found : t.node? p with
      | none =>
        simp only [bind,Except.bind,followed,found]
        constructor
        · intro impossible
          cases impossible
        · rintro ⟨_,known,leads,there⟩
          cases known
          cases followed.symm.trans leads
          cases found.symm.trans there
      | some m =>
        simp only [bind,Except.bind,followed,found,pure,Except.pure,Except.ok.injEq,Prod.mk.injEq]
        constructor
        · rintro ⟨rfl,rfl⟩
          exact ⟨elements,rfl,followed,found⟩
        · rintro ⟨_,known,leads,there⟩
          cases known
          cases followed.symm.trans leads
          exact ⟨rfl,Option.some.inj (found.symm.trans there)⟩

theorem elementsOf_eq_ok {path : String} {elements : List String} : elementsOf path = .ok elements ↔
    path ≠ "" ∧ '\x00' ∉ path.toList ∧ path.utf8ByteSize ≤ Path.maxPath ∧
      Path.allElements path = elements := by
  unfold elementsOf
  split
  next empty =>
    rw [String.isEmpty_iff] at empty
    simp [empty]
  next nonempty =>
    rw [String.isEmpty_iff] at nonempty
    split
    next nul =>
      have inside : '\x00' ∈ path.toList := by simpa using nul
      simp [inside]
    next textual =>
      have outside : '\x00' ∉ path.toList := by simpa using textual
      split
      next long => simp [Nat.not_le.mpr long]
      next short => simp [nonempty,outside,Nat.not_lt.mp short]

/-- A path leads to the same node as long as that node and the directories stay. -/
theorem locate_kept {t' : FileTree} {path : String} {place : List String} {n : Node} (home : t'.home = t.home)
    (directories : ∀ p, t.node? p = some .directory → t'.node? p = some .directory)
    (there : t'.node? place = some n) (here : t.locate path = .ok (place,n)) :
    t'.locate path = .ok (place,n) := by
  obtain ⟨es,known,leads,_⟩ := locate_eq_ok.mp here
  have starts : t'.start path = t.start path := by rw [start,start,home]
  rw [← starts] at leads
  exact locate_eq_ok.mpr ⟨es,known,follow_mono directories leads,there⟩

theorem kind_of_locate {path : String} {place : List String} {n : Node}
    (here : t.locate path = .ok (place,n)) : t.kind path = .ok n.kind := by
  rw [kind,here]
  rfl

theorem kind_of_fault {path : String} {f : FileFault} (fault : t.locate path = .error f) :
    t.kind path = .error f := by
  rw [kind,fault]
  rfl

theorem read_of_file {path text : String} {place : List String}
    (here : t.locate path = .ok (place,.file text)) : t.read path = .ok text := by
  rw [FileTree.read,here]
  rfl

theorem read_of_directory {path : String} {place : List String}
    (here : t.locate path = .ok (place,.directory)) : t.read path = .error .isDirectory := by
  rw [FileTree.read,here]
  rfl

theorem list_of_file {path text : String} {place : List String}
    (here : t.locate path = .ok (place,.file text)) : t.list path = .error .notDirectory := by
  rw [list,here]
  rfl

theorem list_of_directory {path : String} {place : List String}
    (here : t.locate path = .ok (place,.directory)) : t.list path = .ok (t.namesAt place) := by
  rw [list,here]
  rfl

/-- Where a name joined to the path of a directory leads. -/
theorem follow_join {dir name : String} {place : List String} (here : t.locate dir = .ok (place,.directory))
    (plain : Path.Plain name) : t.start (Path.join dir name) = t.start dir ∧
      ∃ above, Path.allElements (Path.join dir name) = above ++ [name] ∧
        t.follow (t.start dir) (above ++ [name]) =
          if name.utf8ByteSize > Path.maxName then .error .nameTooLong else .ok (place ++ [name]) := by
  obtain ⟨elements,known,leads,directory⟩ := locate_eq_ok.mp here
  obtain ⟨nonempty,_,_,rfl⟩ := elementsOf_eq_ok.mp known
  constructor
  · obtain ⟨slash,_,chars⟩ := Path.toList_join nonempty plain.single
    unfold start
    cases first : dir.toList with
    | nil => exact absurd (String.toList_eq_nil_iff.mp first) nonempty
    | cons c rest => simp [chars,first]
  · obtain ⟨above,joined,whole⟩ := Path.allElements_join nonempty plain.single
    refine ⟨above,joined,?_⟩
    have reached : t.follow (t.start dir) above = .ok place := by
      rcases whole with same | slashed
      · rwa [same] at leads
      · -- An empty element at the end leads from a directory to itself.
        rw [slashed,follow_append] at leads
        cases before : t.follow (t.start dir) above with
        | error f => simp [before,Except.bind] at leads
        | ok p =>
          simp only [before,Except.bind,follow] at leads
          split at leads
          · cases leads
          · cases leads
          · split at leads
            · cases leads
            · simpa [step] using leads
    rw [follow_append,reached]
    exact (follow_single directory name).trans (by rw [step_plain plain])

theorem elementsOf_join {dir name : String} {place : List String} {n : Node}
    (here : t.locate dir = .ok (place,n)) (plain : Path.Plain name) {elements : List String} :
    elementsOf (Path.join dir name) = .ok elements ↔
      '\x00' ∉ name.toList ∧ (Path.join dir name).utf8ByteSize ≤ Path.maxPath ∧
        Path.allElements (Path.join dir name) = elements := by
  obtain ⟨_,known,_,_⟩ := locate_eq_ok.mp here
  obtain ⟨nonempty,textual,_,_⟩ := elementsOf_eq_ok.mp known
  obtain ⟨slash,kind,chars⟩ := Path.toList_join nonempty plain.single
  have proper : Path.join dir name ≠ "" := by
    intro empty
    rw [empty] at chars
    simp [plain.nonempty] at chars
  have clean : '\x00' ∉ slash := by
    rcases kind with rfl | rfl <;> simp
  rw [elementsOf_eq_ok]
  simp [proper,chars,textual,clean]

theorem locate_join {dir name : String} {place p : List String} {n : Node}
    (here : t.locate dir = .ok (place,.directory)) (plain : Path.Plain name) :
    t.locate (Path.join dir name) = .ok (p,n) ↔
      Path.Fits dir name ∧ p = place ++ [name] ∧ t.node? p = some n := by
  obtain ⟨starts,above,joined,leads⟩ := follow_join here plain
  rw [locate_eq_ok,starts]
  constructor
  · rintro ⟨elements,known,followed,found⟩
    obtain ⟨textual,bounded,rfl⟩ := (elementsOf_join here plain).mp known
    rw [joined,leads] at followed
    split at followed
    next => cases followed
    next short =>
      cases followed
      exact ⟨⟨Nat.not_lt.mp short,textual,bounded⟩,rfl,found⟩
  · rintro ⟨fits,rfl,found⟩
    refine ⟨_,(elementsOf_join here plain).mpr ⟨fits.textual,fits.bounded,joined⟩,?_,found⟩
    rw [leads,if_neg (Nat.not_lt.mpr fits.short)]

end Follow

section Changing
variable {t t' u : FileTree} {path text : String} {place : List String}

theorem ne_nil_of_file (there : t.node? place = some (.file text)) : place ≠ [] := by
  rintro rfl
  cases there

theorem remove_eq_ok : t.remove path = .ok t' ↔
    ∃ place text, t.locate path = .ok (place,.file text) ∧ t' = t.erase place := by
  unfold remove
  rcases t.locate path with f | ⟨p,text | _⟩
  · simp [bind,Except.bind]
  · simp [bind,Except.bind,pure,Except.pure,eq_comm]
  · simp [bind,Except.bind,throw,throwThe,MonadExceptOf.throw]

theorem write_eq_ok : t.write path text = .ok t' ↔ ∃ es place, elementsOf path = .ok es ∧
    Path.withoutTrailing es = es ∧ t.follow (t.start path) es = .ok place ∧
      t.node? place ≠ some .directory ∧ t' = t.put place (.file text) := by
  unfold FileTree.write
  cases elementsOf path with
  | error f => simp [bind,Except.bind]
  | ok es =>
    by_cases whole : Path.withoutTrailing es = es
    · cases followed : t.follow (t.start path) es with
      | error f => simp [bind,Except.bind,whole,followed]
      | ok place =>
        by_cases taken : t.node? place = some .directory
        · simp [bind,Except.bind,whole,followed,taken,throw,throwThe,MonadExceptOf.throw]
        · have free : ¬some Node.directory = t.node? place := fun same => taken same.symm
          simp [bind,Except.bind,whole,followed,taken,free,pure,Except.pure,eq_comm]
    · simp only [bind,Except.bind,whole]
      cases discard (t.follow (t.start path) ((Path.withoutTrailing es).dropLast ++ [""])) with
      | error f => simp [whole]
      | ok => simp [whole,throw,throwThe,MonadExceptOf.throw]

theorem withoutTrailing_concat {name : String} (nonempty : name ≠ "") (above : List String) :
    Path.withoutTrailing (above ++ [name]) = above ++ [name] := by
  simp [Path.withoutTrailing,nonempty]

/-- What it takes to write a file into a directory. -/
theorem write_join {dir name : String}
    (here : t.locate dir = .ok (place,.directory)) (plain : Path.Plain name) :
    t.write (Path.join dir name) text = .ok t' ↔ Path.Fits dir name ∧
      t.node? (place ++ [name]) ≠ some .directory ∧ t' = t.put (place ++ [name]) (.file text) := by
  obtain ⟨starts,above,joined,leads⟩ := follow_join here plain
  have whole := withoutTrailing_concat plain.nonempty above
  rw [write_eq_ok,starts]
  constructor
  · rintro ⟨es,p,known,_,followed,free,rfl⟩
    obtain ⟨textual,bounded,rfl⟩ := (elementsOf_join here plain).mp known
    rw [joined,leads] at followed
    split at followed
    next => cases followed
    next short =>
      cases followed
      exact ⟨⟨Nat.not_lt.mp short,textual,bounded⟩,free,rfl⟩
  · rintro ⟨fits,free,rfl⟩
    refine ⟨_,_,(elementsOf_join here plain).mpr ⟨fits.textual,fits.bounded,joined⟩,whole,?_,free,rfl⟩
    rw [leads,if_neg (Nat.not_lt.mpr fits.short)]

/-- A tree is what another one leaves when files are removed. -/
structure Fewer (u t : FileTree) : Prop where
  home : u.home = t.home
  nodes : ∀ p n, u.node? p = some n → t.node? p = some n

theorem Fewer.locate (fewer : Fewer u t) {n : Node} (here : u.locate path = .ok (place,n)) :
    t.locate path = .ok (place,n) := by
  obtain ⟨_,_,_,there⟩ := locate_eq_ok.mp here
  exact locate_kept fewer.home.symm (fun p => fewer.nodes p .directory) (fewer.nodes place n there) here

theorem Fewer.erase (fewer : Fewer u t) (proper : place ≠ []) : Fewer (u.erase place) t where
  home := fewer.home
  nodes p n there := by
    rw [node?_erase u p proper] at there
    split at there
    next => cases there
    next => exact fewer.nodes p n there

/-- Trees with the same nodes at the same places. -/
structure Same (t t' : FileTree) : Prop where
  home : t'.home = t.home
  nodes : ∀ p, t'.node? p = t.node? p

theorem Same.put (same : Same t t') (proper : place ≠ []) (n : Node) :
    Same (t.put place n) (t'.put place n) where
  home := same.home
  nodes p := by rw [node?_put t n p proper,node?_put t' n p proper,same.nodes p]

theorem directories_put {n : Node} (proper : place ≠ []) (free : t.node? place ≠ some .directory)
    (p : List String) (there : t.node? p = some .directory) : (t.put place n).node? p = some .directory := by
  rw [node?_put t n p proper,if_neg]
  · exact there
  · rintro rfl
    exact free there

theorem directories_erase (found : t.node? place = some (.file text)) (p : List String)
    (there : t.node? p = some .directory) : (t.erase place).node? p = some .directory := by
  rw [node?_erase t p (ne_nil_of_file found),if_neg]
  · exact there
  · rintro rfl
    cases found.symm.trans there

end Changing
end FileTree
end ProxyGen
