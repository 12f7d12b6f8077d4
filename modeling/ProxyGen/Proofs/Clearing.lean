import ProxyGen.Proofs.Outcomes

/-! Preparing an output directory. A directory that is there is cleared of its generated files, or left alone
when the preparation is refused; one that is missing is made. -/
namespace ProxyGen.OutputDir
open FileTree

/-- A generated file directly in a directory, of a name that can be joined to its path. -/
structure Stale (t : FileTree) (dir : String) (place : List String) (name text : String) : Prop where
  there : t.node? (place ++ [name]) = some (.file text)
  generated : hasHeader text = true
  extension : Path.extension? name = some "go"
  bounded : (Path.join dir name).utf8ByteSize ≤ Path.maxPath

/-- A directory before and after its generated files are removed. -/
structure Cleared (dir : String) (place : List String) (t t' : FileTree) : Prop where
  home : t'.home = t.home
  gone : ∀ name text, Stale t dir place name text → t'.node? (place ++ [name]) = none
  kept : ∀ p, (∀ name text, p = place ++ [name] → ¬Stale t dir place name text) →
    t'.node? p = t.node? p

def eraseAll (t : FileTree) (place : List String) (names : List String) : FileTree :=
  names.foldl (fun u name => u.erase (place ++ [name])) t

section Erasing
variable {t : FileTree} {dir : String} {place : List String} {names : List String}

@[simp] theorem home_eraseAll (t : FileTree) (place names : List String) :
    (eraseAll t place names).home = t.home := by
  induction names generalizing t with
  | nil => rfl
  | cons name names ih => exact ih (t.erase (place ++ [name]))

theorem node?_eraseAll (t : FileTree) (place names p : List String) : (eraseAll t place names).node? p =
    if p ∈ names.map fun name => place ++ [name] then none else t.node? p := by
  induction names generalizing t with
  | nil => simp [eraseAll]
  | cons name names ih =>
    have later := ih (t.erase (place ++ [name]))
    rw [node?_erase t p (by simp)] at later
    rw [eraseAll,List.foldl_cons,← eraseAll,later]
    by_cases same : p = place ++ [name]
    · simp [same]
    · simp [same]

theorem apart {name other : String} (fresh : name ∉ names) (member : other ∈ names) :
    place ++ [other] ≠ place ++ [name] := by
  intro same
  have again : other = name := by simpa using same
  exact fresh (again ▸ member)

/-- All files of these names can be removed, one after the other. -/
theorem outcome_removeAll (here : t.locate dir = .ok (place,.directory)) (once : names.Nodup)
    (files : ∀ name ∈ names, ∃ text, t.locate (Path.join dir name) = .ok (place ++ [name],.file text)) :
    outcome (removeAll (names.map (Path.join dir))) t = (.ok (),eraseAll t place names) := by
  induction names generalizing t with
  | nil => rfl
  | cons name names ih =>
    obtain ⟨fresh,later⟩ := List.nodup_cons.mp once
    rw [List.forall_mem_cons] at files
    obtain ⟨⟨text,found⟩,others⟩ := files
    obtain ⟨_,_,_,there⟩ := locate_eq_ok.mp found
    have removed := remove_eq_ok.mpr ⟨_,text,found,rfl⟩
    rw [List.map_cons,outcome_removeAll_cons,removed]
    have past {path : String} {p : List String} {n : Node} (other : p ≠ place ++ [name])
        (here : t.locate path = .ok (p,n)) : (t.erase (place ++ [name])).locate path = .ok (p,n) := by
      obtain ⟨_,_,_,node⟩ := locate_eq_ok.mp here
      refine locate_kept (home_erase ..) (directories_erase there) ?_ here
      rw [node?_erase t p (by simp),if_neg other]
      exact node
    refine ih (past (by simp) here) later fun other member => ?_
    obtain ⟨content,found'⟩ := others other member
    exact ⟨content,past (apart fresh member) found'⟩

end Erasing

section Prepare
variable {t t' : FileTree} {dir : String} {place : List String} {names : List String} {name : String}

theorem locate_stale (good : t.WellFormed) (here : t.locate dir = .ok (place,.directory)) {text : String}
    (stale : Stale t dir place name text) :
    t.locate (Path.join dir name) = .ok (place ++ [name],.file text) := by
  have valid := valid_of_node? good stale.there
  exact (locate_join here valid.toPlain).mpr ⟨⟨valid.short,valid.textual,stale.bounded⟩,rfl,stale.there⟩

theorem exists_stale_iff (good : t.WellFormed) (here : t.locate dir = .ok (place,.directory)) :
    name ∈ staleNames t dir place ↔ ∃ text, Stale t dir place name text := by
  rw [staleNames,List.mem_filter,mem_namesAt good,Bool.and_eq_true,decide_eq_true_iff]
  constructor
  · rintro ⟨⟨n,found⟩,extension,leads⟩
    unfold leadsToGenerated at leads
    split at leads
    next p text located =>
      obtain ⟨fits,rfl,there⟩ := (locate_join here (valid_of_node? good found).toPlain).mp located
      exact ⟨text,there,leads,extension,fits.bounded⟩
    next => cases leads
  · rintro ⟨text,stale⟩
    refine ⟨⟨_,stale.there⟩,stale.extension,?_⟩
    rw [leadsToGenerated,locate_stale good here stale]
    exact stale.generated

theorem nodup_staleNames (good : t.WellFormed) (dir : String) (place : List String) :
    (staleNames t dir place).Nodup :=
  (namesAt_nodup good place).filter _

theorem prepare_directory (good : t.WellFormed) (here : t.locate dir = .ok (place,.directory)) :
    outcome (prepare dir names) t =
      match names.forM fun name => checked t (Path.join dir name) with
      | .error f => (.error f,t)
      | .ok () => (.ok (),eraseAll t place (staleNames t dir place)) := by
  rw [outcome_prepare_directory here]
  cases names.forM fun name => checked t (Path.join dir name) with
  | error f => rfl
  | ok =>
    refine outcome_removeAll here (nodup_staleNames good dir place) fun name member => ?_
    obtain ⟨text,stale⟩ := (exists_stale_iff good here).mp member
    exact ⟨text,locate_stale good here stale⟩

theorem cleared_eraseAll (good : t.WellFormed) (here : t.locate dir = .ok (place,.directory)) :
    Cleared dir place t (eraseAll t place (staleNames t dir place)) where
  home := home_eraseAll t place _
  gone name text stale := by
    rw [node?_eraseAll,if_pos]
    exact List.mem_map.mpr ⟨name,(exists_stale_iff good here).mpr ⟨text,stale⟩,rfl⟩
  kept p other := by
    rw [node?_eraseAll,if_neg]
    intro member
    obtain ⟨name,stale,rfl⟩ := List.mem_map.mp member
    obtain ⟨text,stale⟩ := (exists_stale_iff good here).mp stale
    exact other name text rfl stale

theorem Cleared.locate (cleared : Cleared dir place t t') {path : String} {p : List String}
    (here : t.locate path = .ok (p,.directory)) : t'.locate path = .ok (p,.directory) := by
  obtain ⟨_,_,_,directory⟩ := locate_eq_ok.mp here
  have directories (q : List String) (there : t.node? q = some .directory) :
      t'.node? q = some .directory := by
    rw [cleared.kept q,there]
    rintro name text rfl stale
    cases there.symm.trans stale.there
  exact locate_kept cleared.home directories (directories p directory) here

theorem Cleared.kept_at (cleared : Cleared dir place t t') (fresh : ¬∃ text, Stale t dir place name text) :
    t'.node? (place ++ [name]) = t.node? (place ++ [name]) := by
  refine cleared.kept _ fun other text equal stale => fresh ⟨text,?_⟩
  obtain rfl : name = other := by simpa using equal
  exact stale

theorem Cleared.not_stale (cleared : Cleared dir place t t') {text : String} :
    ¬Stale t' dir place name text := by
  intro still
  by_cases old : ∃ text, Stale t dir place name text
  · obtain ⟨_,stale⟩ := old
    cases (cleared.gone name _ stale).symm.trans still.there
  · have same := cleared.kept_at old
    exact old ⟨text,same ▸ still.there,still.generated,still.extension,still.bounded⟩

/-- What a refused preparation leaves behind: nothing, or directories when it came partway in making one
that is missing. -/
theorem prepare_refused (good : t.WellFormed) (down : ".." ∉ Path.elements dir) {f : Failure}
    (refused : outcome (prepare dir names) t = (.error f,t')) :
    Made (t.placeOf dir) t t' ∧ (t' ≠ t ↔ ∃ above name rest, Partway t dir above name rest) := by
  rcases here : t.locate dir with fault | ⟨place,n⟩
  · rw [outcome_prepare_missing here] at refused
    obtain ⟨failed,rfl⟩ := Prod.mk.inj refused
    cases result : (t.createDirs dir).2 with
    | ok => simp [result,Except.mapError] at failed
    | error fault' => exact ⟨(made_createDirs good down).2,createDirs_changes_iff good down result⟩
  · have same : t' = t := by
      cases n with
      | file text =>
        obtain ⟨_,unchanged⟩ := outcome_prepare_file names here
        rw [unchanged] at refused
        exact (Prod.mk.inj refused).2.symm
      | directory =>
        rw [prepare_directory good here] at refused
        split at refused
        next => exact (Prod.mk.inj refused).2.symm
        next => cases refused
    subst same
    refine ⟨.refl _ _,fun changed => absurd rfl changed,?_⟩
    rintro ⟨above,name,rest,part⟩
    obtain ⟨_,_,_,there⟩ := locate_eq_ok.mp here
    rw [eq_placeOf_of_locate down here,part.missing_end good] at there
    cases there

theorem prepare_cleared (good : t.WellFormed) (down : ".." ∉ Path.elements dir)
    (directory : t.kind dir = .ok .directory) (done : outcome (prepare dir names) t = (.ok (),t')) :
    Cleared dir (t.placeOf dir) t t' := by
  rcases here : t.locate dir with fault | ⟨place,text | _⟩
  · rw [kind_of_fault here] at directory
    cases directory
  · rw [kind_of_locate here] at directory
    cases directory
  · rw [← eq_placeOf_of_locate down here]
    rw [prepare_directory good here] at done
    split at done
    next => cases done
    next =>
      obtain ⟨_,rfl⟩ := Prod.mk.inj done
      exact cleared_eraseAll good here

end Prepare

/-- A call to the writer of a directory. -/
inductive Call
  | prepare (units : List OutputUnit)
  | write (unit : OutputUnit)

def Call.run (dir : String) : Call → ExceptT Failure (StateM FileTree) Unit
  | prepare units => (sink dir).prepare units
  | write unit => (sink dir).write unit

/-- The tree after a sequence of calls, whether they succeed or not. -/
def after (dir : String) (calls : List Call) (t : FileTree) : FileTree :=
  calls.foldl (fun u call => (outcome (call.run dir) u).2) t

theorem protects_call (dir : String) (call : Call) (t : FileTree) :
    Protects t (outcome (call.run dir) t).2 := by
  cases call with
  | prepare units => exact protects_prepare dir _ t
  | write unit => exact protects_write dir unit.fileName unit.text t

theorem protects_after (dir : String) (calls : List Call) (t : FileTree) :
    Protects t (after dir calls t) := by
  induction calls generalizing t with
  | nil => exact .refl t
  | cons call calls ih => exact (protects_call dir call t).trans (ih _)

section Effects
variable {t : FileTree} {dir : String}

/-- A refused preparation leaves the tree alone, unless it comes partway in making a missing directory. One
that succeeds takes the generated files from a directory that is there, and nothing else. Whatever was not
generated stays throughout. -/
theorem prepare_effects (good : t.WellFormed) (down : ".." ∉ Path.elements dir) (units : List OutputUnit) :
    (∀ f t', outcome ((sink dir).prepare units) t = (.error f,t') →
      Made (t.placeOf dir) t t' ∧ (t' ≠ t ↔ ∃ above name rest, Partway t dir above name rest)) ∧
    (t.kind dir = .ok .directory → ∀ t', outcome ((sink dir).prepare units) t = (.ok (),t') →
      Cleared dir (t.placeOf dir) t t') ∧
    ∀ calls place text, t.node? place = some (.file text) → hasHeader text = false →
      (after dir calls t).node? place = some (.file text) :=
  ⟨fun _ _ refused => prepare_refused good down refused,
    fun directory _ done => prepare_cleared good down directory done,
    fun calls => protects_after dir calls t⟩

end Effects

/-- A directory with a generated file and one written by hand. -/
def mixed : FileTree :=
  (((FileTree.empty ["w"]).put ["w","out"] .directory).put ["w","out","a.go"] (.file header)).put
    ["w","out","b.go"] (.file "package out")

theorem wellFormed_mixed : mixed.WellFormed := by
  have valid : Path.Valid "out" ∧ Path.Valid "a.go" ∧ Path.Valid "b.go" := by decide
  have home : (FileTree.empty ["w"]).node? ["w"] = some .directory := rfl
  have made := (wellFormed_empty (by decide)).put (n := .directory) home valid.1 (by decide)
  have out : ((FileTree.empty ["w"]).put ["w","out"] .directory).node? ["w","out"] = some .directory := rfl
  have generated := made.put (n := .file header) out valid.2.1 (by decide)
  have still : (((FileTree.empty ["w"]).put ["w","out"] .directory).put ["w","out","a.go"]
    (.file header)).node? ["w","out"] = some .directory := rfl
  exact generated.put still valid.2.2 (by decide)

theorem mixed_prepared : mixed.WellFormed ∧ ".." ∉ Path.elements "out" ∧
    Cleared "out" ["w","out"] mixed (mixed.erase ["w","out","a.go"]) ∧
    (after "out" [.prepare [],.prepare []] mixed).node? ["w","out","b.go"] = some (.file "package out") :=
  have down : ".." ∉ Path.elements "out" := by decide
  have ⟨_,cleared,kept⟩ := prepare_effects wellFormed_mixed down []
  ⟨wellFormed_mixed,down,cleared rfl _ rfl,kept _ _ _ rfl rfl⟩

/-- The directories above the last name can be made, and the path still leads nowhere. -/
theorem partway_left : (FileTree.empty ["w"]).WellFormed ∧ ".." ∉ Path.elements "a/out/." ∧
    outcome ((sink "a/out/.").prepare []) (FileTree.empty ["w"]) =
      (.error ⟨[.createDir "a/out/."],.file .notFound⟩,(FileTree.empty ["w"]).put ["w","a"] .directory) ∧
    (FileTree.empty ["w"]).put ["w","a"] .directory ≠ FileTree.empty ["w"] :=
  ⟨wellFormed_empty (by decide),by decide,rfl,by decide⟩

end ProxyGen.OutputDir
