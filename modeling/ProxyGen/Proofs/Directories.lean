import Mathlib.Data.List.TakeWhile
import ProxyGen.Proofs.Places

/-! Making directories. A path that goes only down leads to the place of its names; the directories that are
made for it stand on the way there, one below the other, and those made before a failure stay. -/
namespace ProxyGen

namespace Path

/-- Neither empty nor the directory itself. -/
def isProper (element : String) : Bool := element != "" && element != "."

theorem isProper_iff {e : String} : isProper e = true ↔ e ≠ "" ∧ e ≠ "." := by
  simp [isProper]

/-- The names that elements go through. -/
def namesOf (elements : List String) : List String := elements.filter isProper

theorem namesOf_append (a b : List String) : namesOf (a ++ b) = namesOf a ++ namesOf b :=
  List.filter_append ..

/-- Elements that never lead up, and whose names can be names, unless they are too long. -/
def Downward (elements : List String) : Prop :=
  ∀ e ∈ elements, isProper e = true → Plain e ∧ '\x00' ∉ e.toList

section Downward
variable {path e : String} {es es' : List String}

theorem Downward.of_subset (down : Downward es) (inside : es' ⊆ es) : Downward es' :=
  fun e member => down e (inside member)

theorem Downward.plain (down : Downward es) (member : e ∈ namesOf es) : Plain e :=
  (down e (List.mem_filter.mp member).1 (List.mem_filter.mp member).2).1

theorem Downward.textual (down : Downward es) (member : e ∈ namesOf es) : '\x00' ∉ e.toList :=
  (down e (List.mem_filter.mp member).1 (List.mem_filter.mp member).2).2

theorem downward_allElements (textual : '\x00' ∉ path.toList) (down : ".." ∉ elements path) :
    Downward (allElements path) := by
  intro e member proper
  obtain ⟨part,inside,rfl⟩ := List.mem_map.mp member
  obtain ⟨nonempty,notHere⟩ := isProper_iff.mp proper
  refine ⟨⟨nonempty,notHere,?_,?_⟩,?_⟩
  · rintro up
    exact down (List.mem_filter.mpr ⟨up ▸ member,rfl⟩)
  · intro slash
    exact (Text.mem_part inside (by simpa using slash)).2 rfl
  · intro nul
    exact textual (Text.mem_part inside (by simpa using nul)).1

theorem exists_of_namesOf {above rest : List String} (split : namesOf es = above ++ e :: rest) :
    ∃ first after, es = first ++ e :: after ∧ namesOf first = above ∧ isProper e = true ∧
      namesOf after = rest := by
  obtain ⟨first,second,rfl,passed,later⟩ := List.filter_eq_append_iff.mp split
  obtain ⟨stays,after,rfl,blank,proper,remain⟩ := List.filter_eq_cons_iff.mp later
  refine ⟨first ++ stays,after,(List.append_assoc ..).symm,?_,proper,remain⟩
  rw [namesOf_append,namesOf,namesOf,passed,List.filter_eq_nil_iff.mpr blank,List.append_nil]

theorem exists_trailing (es : List String) :
    ∃ blank, (∀ e ∈ blank, e = "") ∧ es = withoutTrailing es ++ blank := by
  refine ⟨(es.reverse.takeWhile (· == "")).reverse,?_,?_⟩
  · intro e member
    simpa using List.mem_takeWhile_imp (List.mem_reverse.mp member)
  · rw [withoutTrailing,← List.reverse_append,List.takeWhile_append_dropWhile,List.reverse_reverse]

theorem namesOf_withoutTrailing (es : List String) : namesOf (withoutTrailing es) = namesOf es := by
  obtain ⟨blank,empty,split⟩ := exists_trailing es
  have none : namesOf blank = [] :=
    List.filter_eq_nil_iff.mpr fun e member => by simp [empty e member,isProper]
  conv_rhs => rw [split,namesOf_append,none,List.append_nil]

theorem withoutTrailing_subset (es : List String) : withoutTrailing es ⊆ es := by
  obtain ⟨blank,_,split⟩ := exists_trailing es
  intro e member
  rw [split]
  exact List.mem_append_left _ member

theorem withoutTrailing_of_proper (proper : ∀ e ∈ es, isProper e = true) : withoutTrailing es = es := by
  obtain ⟨blank,empty,split⟩ := exists_trailing es
  cases blank with
  | nil => exact (split.trans (List.append_nil _)).symm
  | cons e rest =>
    have blank := empty e List.mem_cons_self
    have named := proper e (by rw [split]; simp)
    simp [blank,isProper] at named

theorem namesOf_of_proper (proper : ∀ e ∈ es, isProper e = true) : namesOf es = es :=
  List.filter_eq_self.mpr proper

end Downward
end Path

namespace FileTree
open ProxyGen.Path (isProper namesOf Downward)

/-- A directory is missing directly below one that is there, and can be made. -/
structure Gap (t : FileTree) (start above : List String) (name : String) : Prop where
  here : t.node? (start ++ above) = some .directory
  missing : t.node? (start ++ above ++ [name]) = none
  short : name.utf8ByteSize ≤ Path.maxName

section Follow
variable {t : FileTree} {place p above rest es : List String} {name e : String}

theorem step_of_proper (down : Downward es) (member : e ∈ es) (proper : isProper e = true)
    (place : List String) : step place e = place ++ [e] :=
  step_plain (down e member proper).1 place

theorem step_of_not_proper (stays : isProper e ≠ true) (place : List String) : step place e = place := by
  rw [step,if_pos]
  by_contra other
  exact stays (Path.isProper_iff.mpr (not_or.mp other))

theorem follow_eq_ok (down : Downward es) (leads : t.follow place es = .ok p) : p = place ++ namesOf es := by
  induction es generalizing place with
  | nil =>
    cases leads
    exact (List.append_nil p).symm
  | cons e rest ih =>
    have later : t.follow (step place e) rest = .ok p → p = step place e ++ namesOf rest :=
      ih (down.of_subset (List.subset_cons_self e rest))
    simp only [follow] at leads
    split at leads
    next => cases leads
    next => cases leads
    next =>
      split at leads
      next => cases leads
      next =>
        rw [later leads]
        by_cases proper : isProper e = true
        · rw [step_of_proper down List.mem_cons_self proper]
          simp [namesOf,proper]
        · rw [step_of_not_proper proper]
          simp [namesOf,proper]

/-- Whatever can be followed goes through directories, by names that are not too long. -/
theorem follow_passes (down : Downward es) (leads : t.follow place es = .ok p)
    (split : namesOf es = above ++ name :: rest) :
    t.node? (place ++ above) = some .directory ∧ name.utf8ByteSize ≤ Path.maxName := by
  obtain ⟨first,after,rfl,rfl,_,_⟩ := Path.exists_of_namesOf split
  rw [follow_append] at leads
  cases reached : t.follow place first with
  | error f => simp [reached,Except.bind] at leads
  | ok q =>
    rw [← follow_eq_ok (down.of_subset (List.subset_append_left _ _)) reached]
    simp only [reached,Except.bind,follow] at leads
    split at leads
    next => cases leads
    next => cases leads
    next directory =>
      split at leads
      next => cases leads
      next short => exact ⟨directory,Nat.not_lt.mp short⟩

theorem node?_before (good : t.WellFormed) (there : t.node? (place ++ above) = some .directory) :
    t.node? place = some .directory := by
  by_cases same : above = []
  · rwa [same,List.append_nil] at there
  · exact node?_above good there same

theorem follow_of_directory (good : t.WellFormed) (down : Downward es)
    (there : t.node? (place ++ namesOf es) = some .directory) :
    t.follow place es = .ok (place ++ namesOf es) := by
  induction es generalizing place with
  | nil => simp [follow,namesOf]
  | cons e rest ih =>
    have restDown := down.of_subset (List.subset_cons_self e rest)
    simp only [follow,node?_before good there]
    by_cases proper : isProper e = true
    · have split : place ++ namesOf (e :: rest) = place ++ [e] ++ namesOf rest := by
        simp [namesOf,proper]
      rw [split] at there ⊢
      -- The name is one that a node has, so it cannot be too long.
      have short := (valid_of_node? good (node?_before good there)).short
      rw [if_neg (Nat.not_lt.mpr short),step_of_proper down List.mem_cons_self proper]
      exact ih restDown there
    · have same : namesOf (e :: rest) = namesOf rest := List.filter_cons_of_neg proper
      have short : ¬e.utf8ByteSize > Path.maxName := by
        have blank := Path.isProper_iff.not.mp proper
        by_cases empty : e = ""
        · subst empty
          decide
        · have here : e = "." := by simpa [empty] using blank
          subst here
          decide
      rw [same] at there ⊢
      rw [if_neg short,step_of_not_proper proper]
      exact ih restDown there

/-- A missing directory ends the way, unless it is the last on it. -/
theorem Gap.follow (gap : Gap t place above name) (good : t.WellFormed) (down : Downward es)
    (split : namesOf es = above ++ name :: rest) (more : rest ≠ []) :
    t.follow place es = .error .notFound := by
  obtain ⟨first,after,rfl,rfl,proper,rfl⟩ := Path.exists_of_namesOf split
  have reached := follow_of_directory good (down.of_subset (List.subset_append_left _ _)) gap.here
  rw [follow_append,reached]
  cases after with
  | nil => exact absurd rfl more
  | cons e after =>
    simp only [Except.bind,FileTree.follow,gap.here]
    rw [if_neg (Nat.not_lt.mpr gap.short),step_of_proper down (by simp) proper,gap.missing]

theorem follow_blank (here : t.node? place = some .directory) (blank : ∀ e ∈ es, e = "") :
    t.follow place es = .ok place := by
  induction es with
  | nil => rfl
  | cons e rest ih =>
    rw [List.forall_mem_cons] at blank
    simp only [follow,here,blank.1]
    exact ih blank.2

end Follow

section Locate
variable {t : FileTree} {path : String} {place : List String} {n : Node}

/-- The place that a path leads to if it goes only down. -/
def placeOf (t : FileTree) (path : String) : List String := t.start path ++ Path.elements path

theorem downward_of_elementsOf {es : List String} (known : elementsOf path = .ok es)
    (down : ".." ∉ Path.elements path) : es = Path.allElements path ∧ Downward es := by
  obtain ⟨_,textual,_,rfl⟩ := elementsOf_eq_ok.mp known
  exact ⟨rfl,Path.downward_allElements textual down⟩

theorem eq_placeOf_of_locate (down : ".." ∉ Path.elements path) (here : t.locate path = .ok (place,n)) :
    place = t.placeOf path := by
  obtain ⟨es,known,leads,_⟩ := locate_eq_ok.mp here
  obtain ⟨rfl,downward⟩ := downward_of_elementsOf known down
  exact follow_eq_ok downward leads

theorem locate_of_directory (good : t.WellFormed) (down : ".." ∉ Path.elements path) {es : List String}
    (known : elementsOf path = .ok es) (there : t.node? (t.placeOf path) = some .directory) :
    t.locate path = .ok (t.placeOf path,.directory) := by
  obtain ⟨rfl,downward⟩ := downward_of_elementsOf known down
  exact locate_eq_ok.mpr ⟨_,known,follow_of_directory good downward there,there⟩

theorem start_directory (good : t.WellFormed) (path : String) : t.node? (t.start path) = some .directory := by
  unfold start
  split
  · rfl
  · exact good.home

end Locate

section Making
variable {t t' : FileTree} {start es : List String}

theorem makeDir_eq_ok : t.makeDir start es = .ok t' ↔ ∃ place,
    t.follow start (Path.withoutTrailing es) = .ok place ∧ t.node? place = none ∧
      t' = t.put place .directory := by
  unfold makeDir
  cases followed : t.follow start (Path.withoutTrailing es) with
  | error f => simp [bind,Except.bind]
  | ok place =>
    cases found : t.node? place with
    | some n => simp [bind,Except.bind,found,throw,throwThe,MonadExceptOf.throw]
    | none => simp [bind,Except.bind,found,pure,Except.pure,eq_comm]

theorem ne_nil_of_missing {place : List String} (missing : t.node? place = none) : place ≠ [] := by
  rintro rfl
  cases missing

theorem node?_makeDir (made : t.makeDir start es = .ok t') {p : List String} {n : Node}
    (there : t.node? p = some n) : t'.node? p = some n := by
  obtain ⟨place,_,missing,rfl⟩ := makeDir_eq_ok.mp made
  rw [node?_put t _ p (ne_nil_of_missing missing),if_neg]
  · exact there
  · rintro rfl
    cases missing.symm.trans there

theorem isDirectoryAt_iff : t.isDirectoryAt start es = true ↔
    ∃ place, t.follow start es = .ok place ∧ t.node? place = some .directory := by
  unfold isDirectoryAt
  cases t.follow start es with
  | error f => simp
  | ok place => simp

theorem isDirectoryAt_makeDir (made : t.makeDir start es = .ok t') : t'.isDirectoryAt start es = true := by
  obtain ⟨place,leads,missing,rfl⟩ := makeDir_eq_ok.mp made
  have there : (t.put place .directory).node? place = some .directory := by
    rw [node?_put t _ place (ne_nil_of_missing missing),if_pos rfl]
  obtain ⟨blank,empty,split⟩ := Path.exists_trailing es
  refine isDirectoryAt_iff.mpr ⟨place,?_,there⟩
  rw [split,follow_append,follow_mono (fun p directory => node?_makeDir made directory) leads]
  exact follow_blank there empty

theorem ensureDir_cases (ensured : ensureDir start es t = .ok t') :
    t.makeDir start es = .ok t' ∨ t' = t ∧ t.isDirectoryAt start es = true := by
  unfold ensureDir at ensured
  split at ensured
  next made =>
    cases ensured
    exact .inl made
  next =>
    split at ensured
    next there =>
      cases ensured
      exact .inr ⟨rfl,there⟩
    next => cases ensured

theorem isDirectoryAt_ensureDir (ensured : ensureDir start es t = .ok t') :
    t'.isDirectoryAt start es = true := by
  rcases ensureDir_cases ensured with made | ⟨rfl,there⟩
  · exact isDirectoryAt_makeDir made
  · exact there

end Making

/-- What can happen when one directory is made, and the one above it first where that is missing. -/
inductive Making (above : FileTree → FileTree × Except FileFault Unit) (start es : List String)
    (t : FileTree) : FileTree × Except FileFault Unit → Prop
  | made {t' : FileTree} : ensureDir start es t = .ok t' → Making above start es t (t',.ok ())
  | refused {f : FileFault} : ensureDir start es t = .error f → f ≠ .notFound →
      Making above start es t (t,.error f)
  | stopped {u : FileTree} {f : FileFault} : ensureDir start es t = .error .notFound →
      above t = (u,.error f) → Making above start es t (u,.error f)
  | retried {u t' : FileTree} : ensureDir start es t = .error .notFound → above t = (u,.ok ()) →
      ensureDir start es u = .ok t' → Making above start es t (t',.ok ())
  | failed {u : FileTree} {f : FileFault} : ensureDir start es t = .error .notFound →
      above t = (u,.ok ()) → ensureDir start es u = .error f → Making above start es t (u,.error f)

theorem making_ensureDirBelow (above : FileTree → FileTree × Except FileFault Unit) (start es : List String)
    (t : FileTree) : Making above start es t (ensureDirBelow above start es t) := by
  unfold ensureDirBelow
  split
  next ensured => exact .made ensured
  next missing =>
    split
    next stopped => exact .stopped missing stopped
    next u went =>
      split
      next ensured => exact .retried missing went ensured
      next refused => exact .failed missing went refused
  next other refused =>
    exact .refused refused other

theorem ensureDirs_concat (start names : List String) (name : String) :
    ensureDirs start (names ++ [name]).reverse =
      ensureDirBelow (ensureDirs start names.reverse) start (names ++ [name]) := by
  funext t
  rw [List.reverse_concat,ensureDirs,List.reverse_cons,List.reverse_reverse]

section Keeping
variable {above : FileTree → FileTree × Except FileFault Unit} {start es : List String} {t t' : FileTree}
  {r : FileTree × Except FileFault Unit} {I : FileTree → Prop}

theorem keeps_ensureDir (kept : ∀ u u', I u → u.makeDir start es = .ok u' → I u') (holds : I t)
    (ensured : ensureDir start es t = .ok t') : I t' := by
  rcases ensureDir_cases ensured with made | ⟨rfl,_⟩
  · exact kept _ _ holds made
  · exact holds

/-- Where the first attempt finds a directory missing, all depends on the second. -/
theorem Making.keeps_of_missing (making : Making above start es t r)
    (missing : ensureDir start es t = .error .notFound)
    (kept : ∀ u u', I u → u.makeDir start es = .ok u' → I u') (holds : I (above t).1) : I r.1 := by
  cases making with
  | made ensured => cases missing.symm.trans ensured
  | refused refused other =>
    cases missing.symm.trans refused
    exact absurd rfl other
  | stopped _ stopped => rwa [stopped] at holds
  | retried _ went ensured =>
    rw [went] at holds
    exact keeps_ensureDir kept holds ensured
  | failed _ went => rwa [went] at holds

theorem Making.keeps (making : Making above start es t r)
    (kept : ∀ u u', I u → u.makeDir start es = .ok u' → I u') (goes : I (above t).1) (holds : I t) :
    I r.1 := by
  by_cases missing : ensureDir start es t = .error .notFound
  · exact making.keeps_of_missing missing kept goes
  · cases making with
    | made ensured => exact keeps_ensureDir kept holds ensured
    | refused => exact holds
    | stopped found => exact absurd found missing
    | retried found => exact absurd found missing
    | failed found => exact absurd found missing

theorem Making.isDirectoryAt (making : Making above start es t r) (done : r.2 = .ok ()) :
    r.1.isDirectoryAt start es = true := by
  cases making with
  | made ensured => exact isDirectoryAt_ensureDir ensured
  | retried _ _ ensured => exact isDirectoryAt_ensureDir ensured
  | refused => cases done
  | stopped => cases done
  | failed => cases done

theorem keeps_ensureDirs {names : List String}
    (kept : ∀ es, es <+: names → ∀ u u', I u → u.makeDir start es = .ok u' → I u') (holds : I t) :
    I (ensureDirs start names.reverse t).1 := by
  induction names using List.reverseRecOn with
  | nil => exact holds
  | append_singleton names name ih =>
    rw [ensureDirs_concat]
    exact (making_ensureDirBelow _ _ _ t).keeps (kept _ (List.prefix_refl _))
      (ih fun es first => kept es (first.trans (List.prefix_append _ _))) holds

theorem createDirs_of_elements {path : String} (known : elementsOf path = .ok es) : t.createDirs path =
    ensureDirBelow (ensureDirs (t.start path) (Path.elements path).dropLast.reverse) (t.start path) es t := by
  unfold createDirs
  rw [if_neg (by simpa using (elementsOf_eq_ok.mp known).1),known]

theorem making_createDirs (t : FileTree) {path : String} (known : elementsOf path = .ok es) :
    Making (ensureDirs (t.start path) (Path.elements path).dropLast.reverse) (t.start path) es t
      (t.createDirs path) := by
  rw [createDirs_of_elements known]
  exact making_ensureDirBelow _ _ _ t

theorem createDirs_of_fault {path : String} {f : FileFault} (proper : path ≠ "")
    (fault : elementsOf path = .error f) : t.createDirs path = (t,.error f) := by
  unfold createDirs
  rw [if_neg (by simpa using proper),fault]

/-- What every new directory on the way keeps is kept by making them all, also where that fails. -/
theorem keeps_createDirs {path : String}
    (kept : elementsOf path = .ok (Path.allElements path) →
      ∀ es, es = Path.allElements path ∨ es <+: Path.elements path →
        ∀ u u', I u → u.makeDir (t.start path) es = .ok u' → I u')
    (holds : I t) : I (t.createDirs path).1 := by
  by_cases empty : path = ""
  · rwa [empty]
  · cases known : elementsOf path with
    | error f => rwa [createDirs_of_fault empty known]
    | ok es =>
      obtain ⟨_,_,_,rfl⟩ := elementsOf_eq_ok.mp known
      refine (making_createDirs t known).keeps (kept known _ (.inl rfl)) (keeps_ensureDirs ?_ holds) holds
      exact fun es first => kept known es (.inr (first.trans (List.dropLast_prefix _)))

end Keeping

/-- Directories on the way to a place are made where there was nothing. -/
structure Made (place : List String) (t t' : FileTree) : Prop where
  home : t'.home = t.home
  nodes : ∀ p, t'.node? p = t.node? p ∨
    t.node? p = none ∧ t'.node? p = some .directory ∧ p <+: place

section Made
variable {place start es : List String} {t t' t'' : FileTree}

theorem Made.refl (place : List String) (t : FileTree) : Made place t t := ⟨rfl,fun _ => .inl rfl⟩

theorem Made.node? (made : Made place t t') {p : List String} {n : Node} (there : t.node? p = some n) :
    t'.node? p = some n := by
  rcases made.nodes p with same | ⟨missing,_⟩
  · exact same.trans there
  · cases missing.symm.trans there

theorem Made.trans (first : Made place t t') (second : Made place t' t'') : Made place t t'' where
  home := second.home.trans first.home
  nodes p := by
    rcases first.nodes p with same | ⟨missing,there,onWay⟩
    · rw [← same]
      exact second.nodes p
    · exact .inr ⟨missing,second.node? there,onWay⟩

theorem follow_makeDir (down : Downward es) (made : t.makeDir start es = .ok t') :
    t.follow start (Path.withoutTrailing es) = .ok (start ++ namesOf es) ∧
      t.node? (start ++ namesOf es) = none ∧ t' = t.put (start ++ namesOf es) .directory := by
  obtain ⟨p,leads,missing,rfl⟩ := makeDir_eq_ok.mp made
  have same := follow_eq_ok (down.of_subset (Path.withoutTrailing_subset es)) leads
  rw [Path.namesOf_withoutTrailing] at same
  subst same
  exact ⟨leads,missing,rfl⟩

theorem made_makeDir (down : Downward es) {names : List String} (onWay : namesOf es <+: names)
    (made : t.makeDir start es = .ok t') : Made (start ++ names) t t' := by
  obtain ⟨_,missing,rfl⟩ := follow_makeDir down made
  refine ⟨rfl,fun p => ?_⟩
  rw [node?_put t _ p (ne_nil_of_missing missing)]
  split
  next same =>
    subst same
    exact .inr ⟨missing,rfl,(List.prefix_append_right_inj start).mpr onWay⟩
  next => exact .inl rfl

theorem WellFormed.makeDir (good : t.WellFormed) (there : t.node? start = some .directory)
    (down : Downward es) (made : t.makeDir start es = .ok t') : t'.WellFormed := by
  obtain ⟨leads,missing,rfl⟩ := follow_makeDir down made
  rcases List.eq_nil_or_concat' (namesOf es) with none | ⟨above,name,split⟩
  · rw [none,List.append_nil,there] at missing
    cases missing
  · have trailing := (Path.namesOf_withoutTrailing es).trans split
    obtain ⟨parent,short⟩ :=
      follow_passes (down.of_subset (Path.withoutTrailing_subset es)) leads trailing
    have member : name ∈ namesOf es := by simp [split]
    have valid : Path.Valid name := ⟨down.plain member,short,down.textual member⟩
    rw [split,← List.append_assoc] at missing ⊢
    exact good.put parent valid (by rw [missing]; nofun)

end Made

section Creating
variable {t : FileTree} {path : String}

theorem proper_of_mem_elements {e : String} (member : e ∈ Path.elements path) : isProper e = true :=
  (List.mem_filter.mp member).2

theorem downward_elements {es : List String} (down : Downward (Path.allElements path))
    (inside : es ⊆ Path.elements path) : Downward es :=
  down.of_subset fun _ member => (List.mem_filter.mp (inside member)).1

theorem made_createDirs (good : t.WellFormed) (down : ".." ∉ Path.elements path) :
    (t.createDirs path).1.WellFormed ∧ Made (t.placeOf path) t (t.createDirs path).1 := by
  refine keeps_createDirs (I := fun u => u.WellFormed ∧ Made (t.placeOf path) t u) ?_ ⟨good,.refl _ t⟩
  rintro known es which u u' ⟨goodAt,soFar⟩ made
  have downAll := (downward_of_elementsOf known down).2
  have ⟨downEs,onWay⟩ : Downward es ∧ namesOf es <+: Path.elements path := by
    rcases which with rfl | first
    · exact ⟨downAll,List.prefix_refl _⟩
    · refine ⟨downward_elements downAll first.subset,?_⟩
      rwa [Path.namesOf_of_proper fun e member => proper_of_mem_elements (first.subset member)]
  exact ⟨goodAt.makeDir (soFar.node? (start_directory good path)) downEs made,
    soFar.trans (made_makeDir downEs onWay made)⟩

theorem locate_createDirs (good : t.WellFormed) (down : ".." ∉ Path.elements path) (proper : path ≠ "")
    (done : (t.createDirs path).2 = .ok ()) :
    (t.createDirs path).1.locate path = .ok (t.placeOf path,.directory) := by
  have made := (made_createDirs good down).2
  have starts : (t.createDirs path).1.start path = t.start path := by rw [start,start,made.home]
  cases known : elementsOf path with
  | error f =>
    rw [createDirs_of_fault proper known] at done
    cases done
  | ok es =>
    obtain ⟨place,leads,directory⟩ := isDirectoryAt_iff.mp ((making_createDirs t known).isDirectoryAt done)
    have here := locate_eq_ok.mpr ⟨es,known,starts.symm ▸ leads,directory⟩
    rw [here,eq_placeOf_of_locate down here,placeOf,placeOf,starts]

/-- A directory that has just been made is empty. -/
theorem empty_createDirs (good : t.WellFormed) (down : ".." ∉ Path.elements path) (proper : path ≠ "")
    (missing : ∀ place, t.locate path ≠ .ok (place,.directory)) (done : (t.createDirs path).2 = .ok ())
    (name : String) : (t.createDirs path).1.node? (t.placeOf path ++ [name]) = none := by
  have here := locate_createDirs good down proper done
  obtain ⟨_,known,_,directory⟩ := locate_eq_ok.mp here
  have made := (made_createDirs good down).2
  -- The place itself is new, so there was nothing below it, and what is made stands above it.
  have before : t.node? (t.placeOf path) = none := by
    rcases made.nodes (t.placeOf path) with same | ⟨none,_⟩
    · exact absurd (locate_of_directory good down known (same ▸ directory)) (missing _)
    · exact none
  rcases made.nodes (t.placeOf path ++ [name]) with same | ⟨_,_,onWay⟩
  · rw [same]
    by_contra some
    obtain ⟨n,found⟩ := Option.ne_none_iff_exists'.mp some
    cases before.symm.trans (node?_above good found (by simp))
  · exact absurd onWay.length_le (by simp)

end Creating

/-- The first directory that is missing on the way to a path is not the last one, and can be made. -/
structure Partway (t : FileTree) (path : String) (above : List String) (name : String)
    (rest : List String) : Prop extends Gap t (t.start path) above name where
  known : ∃ es, elementsOf path = .ok es
  names : Path.elements path = above ++ name :: rest
  more : rest ≠ []

section Failing
variable {t : FileTree} {start above names rest : List String} {name path : String} {f : FileFault}

theorem exists_gap (down : Downward names) (proper : ∀ e ∈ names, isProper e = true)
    (changed : (ensureDirs start names.reverse t).1 ≠ t) :
    ∃ above name rest, names = above ++ name :: rest ∧ Gap t start above name := by
  induction names using List.reverseRecOn with
  | nil => exact absurd rfl changed
  | append_singleton names last ih =>
    -- The gap was found further up, unless the last directory is the one that was made.
    have earlier (changed : (ensureDirs start names.reverse t).1 ≠ t) :
        ∃ above name rest, names ++ [last] = above ++ name :: rest ∧ Gap t start above name := by
      obtain ⟨above,name,rest,split,gap⟩ := ih (down.of_subset (List.subset_append_left _ _))
        (fun e member => proper e (List.mem_append_left _ member)) changed
      exact ⟨above,name,rest ++ [last],by simp [split],gap⟩
    rw [ensureDirs_concat] at changed
    have making := making_ensureDirBelow (ensureDirs start names.reverse) start (names ++ [last]) t
    generalize ensureDirBelow (ensureDirs start names.reverse) start (names ++ [last]) t = r
      at changed making
    cases making with
    | made ensured =>
      rcases ensureDir_cases ensured with made | ⟨rfl,_⟩
      · obtain ⟨leads,missing,_⟩ := follow_makeDir down made
        rw [Path.withoutTrailing_of_proper proper] at leads
        rw [Path.namesOf_of_proper proper,← List.append_assoc] at missing
        obtain ⟨parent,short⟩ := follow_passes down leads (Path.namesOf_of_proper proper)
        exact ⟨names,last,[],rfl,parent,missing,short⟩
      · exact absurd rfl changed
    | refused => exact absurd rfl changed
    | stopped _ stopped => exact earlier (by rwa [stopped])
    | retried failed went ensured =>
      refine earlier fun same => ?_
      rw [went] at same
      dsimp only at same
      rw [same,failed] at ensured
      cases ensured
    | failed _ went => exact earlier (by rwa [went])

theorem Gap.ensureDir (gap : Gap t start above name) (good : t.WellFormed) {es : List String}
    (down : Downward es) (split : namesOf es = above ++ name :: rest) (more : rest ≠ []) :
    ensureDir start es t = .error .notFound := by
  have whole := gap.follow good down split more
  have front := gap.follow good (down.of_subset (Path.withoutTrailing_subset es))
    ((Path.namesOf_withoutTrailing es).trans split) more
  simp [FileTree.ensureDir,makeDir,isDirectoryAt,whole,front,bind,Except.bind]

/-- The missing directory is made, whatever becomes of those below it. -/
theorem Gap.ensureDirs (gap : Gap t start above name) (good : t.WellFormed)
    (down : Downward (above ++ name :: rest)) (proper : ∀ e ∈ above ++ name :: rest, isProper e = true) :
    (ensureDirs start (above ++ name :: rest).reverse t).1.node? (start ++ above ++ [name]) =
      some .directory := by
  induction rest using List.reverseRecOn with
  | nil =>
    have names : namesOf above = above :=
      Path.namesOf_of_proper fun e member => proper e (List.mem_append_left _ member)
    have reached : t.follow start (above ++ [name]) = .ok (start ++ above ++ [name]) := by
      have parent := follow_of_directory good (down.of_subset (List.subset_append_left _ _))
        (show t.node? (start ++ namesOf above) = _ by rw [names]; exact gap.here)
      rw [follow_append,parent,names]
      refine (follow_single gap.here name).trans ?_
      rw [if_neg (Nat.not_lt.mpr gap.short),step_of_proper down (by simp) (proper name (by simp))]
    have made : t.makeDir start (above ++ [name]) = .ok (t.put (start ++ above ++ [name]) .directory) :=
      makeDir_eq_ok.mpr ⟨_,by rwa [Path.withoutTrailing_of_proper proper],gap.missing,rfl⟩
    rw [ensureDirs_concat,ensureDirBelow,FileTree.ensureDir,made]
    dsimp only
    rw [node?_put t _ _ (by simp),if_pos rfl]
  | append_singleton rest last ih =>
    have split : above ++ name :: (rest ++ [last]) = above ++ name :: rest ++ [last] := by simp
    have refused := gap.ensureDir good down (Path.namesOf_of_proper proper) (by simp)
    rw [split] at down proper refused ⊢
    have earlier := ih (down.of_subset (List.subset_append_left _ _))
      fun e member => proper e (List.mem_append_left _ member)
    rw [ensureDirs_concat]
    exact (making_ensureDirBelow _ _ _ t).keeps_of_missing refused
      (fun u u' there made => node?_makeDir made there) earlier

theorem exists_partway (down : ".." ∉ Path.elements path) (failed : (t.createDirs path).2 = .error f)
    (changed : (t.createDirs path).1 ≠ t) : ∃ above name rest, Partway t path above name rest := by
  by_cases empty : path = ""
  · rw [empty] at failed
    cases failed
  cases known : elementsOf path with
  | error fault =>
    rw [createDirs_of_fault empty known] at changed
    exact absurd rfl changed
  | ok es =>
    obtain ⟨rfl,downAll⟩ := downward_of_elementsOf known down
    have inside : (Path.elements path).dropLast ⊆ Path.elements path := List.dropLast_subset _
    have earlier (changed : (ensureDirs (t.start path) (Path.elements path).dropLast.reverse t).1 ≠ t) :
        ∃ above name rest, Partway t path above name rest := by
      obtain ⟨above,name,rest,split,gap⟩ := exists_gap (downward_elements downAll inside)
        (fun e member => proper_of_mem_elements (inside member)) changed
      rcases List.eq_nil_or_concat' (Path.elements path) with none | ⟨front,last,whole⟩
      · simp [none] at split
      · rw [whole,List.dropLast_concat] at split
        exact ⟨above,name,rest ++ [last],gap,⟨_,known⟩,by simp [whole,split],by simp⟩
    have making := making_createDirs t known
    generalize t.createDirs path = r at making changed failed
    cases making with
    | made => cases failed
    | refused => exact absurd rfl changed
    | stopped _ stopped => exact earlier (by rwa [stopped])
    | retried => cases failed
    | failed _ went => exact earlier (by rwa [went])

theorem Partway.makes (part : Partway t path above name rest) (good : t.WellFormed)
    (down : ".." ∉ Path.elements path) :
    (t.createDirs path).1.node? (t.start path ++ above ++ [name]) = some .directory := by
  obtain ⟨es,known⟩ := part.known
  obtain ⟨rfl,downAll⟩ := downward_of_elementsOf known down
  have front : (Path.elements path).dropLast = above ++ name :: rest.dropLast := by
    rw [part.names,List.dropLast_append_cons,List.dropLast_cons_of_ne_nil part.more]
  have inside : above ++ name :: rest.dropLast ⊆ Path.elements path := front ▸ List.dropLast_subset _
  have making := making_createDirs t known
  rw [front] at making
  refine making.keeps_of_missing (I := fun u => u.node? (t.start path ++ above ++ [name]) = some .directory)
    (part.ensureDir good downAll part.names part.more) (fun u u' there made => node?_makeDir made there) ?_
  exact part.ensureDirs good (downward_elements downAll inside)
    fun e member => proper_of_mem_elements (inside member)

/-- A failure leaves new directories exactly where it comes partway. -/
theorem createDirs_changes_iff (good : t.WellFormed) (down : ".." ∉ Path.elements path)
    (failed : (t.createDirs path).2 = .error f) :
    (t.createDirs path).1 ≠ t ↔ ∃ above name rest, Partway t path above name rest := by
  refine ⟨exists_partway down failed,?_⟩
  rintro ⟨above,name,rest,part⟩ same
  have there := part.makes good down
  rw [same,part.missing] at there
  cases there

/-- Where something stands at the end of a path, no failure on the way is possible. -/
theorem Partway.missing_end (good : t.WellFormed) (part : Partway t path above name rest) :
    t.node? (t.placeOf path) = none := by
  by_contra some
  obtain ⟨n,found⟩ := Option.ne_none_iff_exists'.mp some
  have split : t.placeOf path = t.start path ++ above ++ [name] ++ rest := by
    simp [placeOf,part.names]
  rw [split] at found
  cases part.missing.symm.trans (node?_above good found part.more)

end Failing
end FileTree
end ProxyGen
