import ProxyGen.Proofs.Clearing
import ProxyGen.Proofs.Recognition
import ProxyGen.Proofs.Units

/-! Generating again. What an output directory was given before leaves no trace: the next files are stored
as they would be without it, and the writer takes its own files for what they are. -/
namespace ProxyGen

namespace OutputDir
open FileTree

/-- There is nothing at a place, or a generated file. -/
def Free (t : FileTree) (p : List String) : Prop :=
  ∀ n, t.node? p = some n → ∃ text, n = .file text ∧ hasHeader text = true

theorem free_congr {t t' : FileTree} {p : List String} (same : t'.node? p = t.node? p) :
    Free t' p ↔ Free t p := by
  rw [Free,Free,same]

/-- A directory takes a file whose name fits and whose place is free. -/
structure Takes (t : FileTree) (dir : String) (place : List String) (name : String) : Prop where
  fits : Path.Fits dir name
  free : Free t (place ++ [name])

theorem takes_congr {t t' : FileTree} {dir name : String} {place : List String}
    (free : Free t' (place ++ [name]) ↔ Free t (place ++ [name])) :
    Takes t' dir place name ↔ Takes t dir place name :=
  ⟨fun takes => ⟨takes.fits,free.mp takes.free⟩,fun takes => ⟨takes.fits,free.mpr takes.free⟩⟩

/-- All units are put into a directory. -/
def putAll (t : FileTree) (place : List String) (units : List OutputUnit) : FileTree :=
  units.foldl (fun u unit => u.put (place ++ [unit.fileName]) (.file unit.text)) t

@[simp] theorem home_putAll (t : FileTree) (place : List String) (units : List OutputUnit) :
    (putAll t place units).home = t.home := by
  induction units generalizing t with
  | nil => rfl
  | cons unit units ih => exact ih _

/-- The part of storing units that writes them. -/
def writeAll (dir : String) (units : List OutputUnit) : ExceptT Failure (StateM FileTree) Unit :=
  units.forM fun unit => (Task.writeUnit unit.fileName).within ((sink dir).write unit)

section Writing
variable {t t' : FileTree} {dir name text : String} {place : List String} {unit : OutputUnit}
  {units : List OutputUnit}

theorem Takes.not_directory (takes : Takes t dir place name) :
    t.node? (place ++ [name]) ≠ some .directory := by
  intro there
  obtain ⟨text,file,_⟩ := takes.free _ there
  cases file

theorem checked_join (here : t.locate dir = .ok (place,.directory)) (plain : Path.Plain name) :
    checked t (Path.join dir name) = .ok () ↔ (Path.Fits dir name → Free t (place ++ [name])) := by
  unfold checked
  rcases found : t.locate (Path.join dir name) with f | ⟨p,text | _⟩
  · refine iff_of_true rfl fun fits n there => ?_
    cases found.symm.trans ((locate_join here plain).mpr ⟨fits,rfl,there⟩)
  · obtain ⟨fits,rfl,there⟩ := (locate_join here plain).mp found
    simp [Free,fits,there]
  · obtain ⟨fits,rfl,there⟩ := (locate_join here plain).mp found
    simp [Free,fits,there]

theorem write_iff (here : t.locate dir = .ok (place,.directory)) (plain : Path.Plain name) :
    outcome (write dir name text) t = (.ok (),t') ↔
      Takes t dir place name ∧ t' = t.put (place ++ [name]) (.file text) := by
  rw [outcome_write]
  constructor
  · intro done
    split at done
    next => cases done
    next allowed =>
      split at done
      next written =>
        obtain ⟨_,rfl⟩ := Prod.mk.inj done
        obtain ⟨fits,_,same⟩ := (write_join here plain).mp written
        exact ⟨⟨fits,(checked_join here plain).mp allowed fits⟩,same⟩
      next => cases done
  · rintro ⟨takes,rfl⟩
    rw [(checked_join here plain).mpr fun _ => takes.free,
      (write_join here plain).mpr ⟨takes.fits,takes.not_directory,rfl⟩]

theorem takes_put_iff {other : String} (takes : Takes t dir place name) (generated : hasHeader text = true) :
    Takes (t.put (place ++ [name]) (.file text)) dir place other ↔ Takes t dir place other := by
  have node := node?_put t (.file text) (place ++ [other]) (show place ++ [name] ≠ [] by simp)
  by_cases same : other = name
  · subst same
    refine iff_of_true ⟨takes.fits,fun n there => ?_⟩ takes
    rw [node,if_pos rfl] at there
    exact ⟨text,(Option.some.inj there).symm,generated⟩
  · rw [if_neg (by simpa using same)] at node
    exact takes_congr (free_congr node)

theorem locate_put {n : Node} (here : t.locate dir = .ok (place,.directory))
    (free : t.node? (place ++ [name]) ≠ some .directory) :
    (t.put (place ++ [name]) n).locate dir = .ok (place,.directory) := by
  obtain ⟨_,_,_,there⟩ := locate_eq_ok.mp here
  have directories := directories_put (n := n) (show place ++ [name] ≠ [] by simp) free
  exact locate_kept (home_put ..) directories (directories place there) here

theorem writeAll_cons {t'' : FileTree} : outcome (writeAll dir (unit :: units)) t = (.ok (),t'') ↔
    ∃ t', outcome (write dir unit.fileName unit.text) t = (.ok (),t') ∧
      outcome (writeAll dir units) t' = (.ok (),t'') := by
  rw [writeAll,List.forM,outcome_bind_ok]
  simp only [outcome_within_ok]
  constructor
  · rintro ⟨_,rest⟩
    exact rest
  · intro rest
    exact ⟨(),rest⟩

theorem writeAll_iff (here : t.locate dir = .ok (place,.directory))
    (ours : ∀ unit ∈ units, unit.Recognised) (t' : FileTree) :
    outcome (writeAll dir units) t = (.ok (),t') ↔
      (∀ unit ∈ units, Takes t dir place unit.fileName) ∧ t' = putAll t place units := by
  induction units generalizing t with
  | nil => simp [writeAll,putAll,eq_comm]
  | cons unit units ih =>
    rw [List.forall_mem_cons] at ours ⊢
    have later (takes : Takes t dir place unit.fileName) :
        outcome (writeAll dir units) (t.put (place ++ [unit.fileName]) (.file unit.text)) = (.ok (),t') ↔
          (∀ unit ∈ units, Takes t dir place unit.fileName) ∧ t' = putAll t place (unit :: units) := by
      have still : (t.put (place ++ [unit.fileName]) (.file unit.text)).locate dir = .ok (place,.directory) :=
        locate_put here takes.not_directory
      simp only [ih still ours.2,takes_put_iff takes ours.1.generated]
      rfl
    rw [writeAll_cons]
    constructor
    · rintro ⟨u,written,rest⟩
      obtain ⟨takes,rfl⟩ := (write_iff here ours.1.plain).mp written
      obtain ⟨others,same⟩ := (later takes).mp rest
      exact ⟨⟨takes,others⟩,same⟩
    · rintro ⟨⟨takes,others⟩,same⟩
      exact ⟨_,(write_iff here ours.1.plain).mpr ⟨takes,rfl⟩,(later takes).mpr ⟨others,same⟩⟩

end Writing

section Storing
variable {t t' : FileTree} {dir name : String} {place : List String} {units : List OutputUnit}

/-- What may be stored does not depend on the files that are cleared away. -/
theorem Cleared.takes_iff (cleared : Cleared dir place t t') :
    Takes t' dir place name ↔ Takes t dir place name := by
  by_cases old : ∃ text, Stale t dir place name text
  · obtain ⟨text,stale⟩ := old
    refine takes_congr (iff_of_true (fun n there => ?_) fun n there => ⟨text,?_,stale.generated⟩)
    · cases (cleared.gone name text stale).symm.trans there
    · exact Option.some.inj (there.symm.trans stale.there)
  · exact takes_congr (free_congr (cleared.kept_at old))

/-- Where a generated file can be stored, there is nothing once the directory is cleared. -/
theorem Cleared.node? (cleared : Cleared dir place t t') (takes : Takes t dir place name)
    (extension : Path.extension? name = some "go") : t'.node? (place ++ [name]) = none := by
  by_contra some
  obtain ⟨n,there⟩ := Option.ne_none_iff_exists'.mp some
  obtain ⟨text,rfl,generated⟩ := (cleared.takes_iff.mpr takes).free n there
  exact cleared.not_stale ⟨there,generated,extension,takes.fits.bounded⟩

theorem store_iff : outcome ((sink dir).store units) t = (.ok (),t') ↔
    ∃ u, outcome (prepare dir (units.map (·.fileName))) t = (.ok (),u) ∧
      outcome (writeAll dir units) u = (.ok (),t') := by
  rw [Sink.store,outcome_bind_ok]
  simp only [outcome_within_ok]
  exact ⟨fun ⟨_,rest⟩ => rest,fun rest => ⟨(),rest⟩⟩

/-- The tree that is left when units are stored in a directory that is there. -/
def stored (t : FileTree) (dir : String) (place : List String) (units : List OutputUnit) : FileTree :=
  putAll (eraseAll t place (staleNames t dir place)) place units

theorem store_directory_iff (good : t.WellFormed) (here : t.locate dir = .ok (place,.directory))
    (ours : ∀ unit ∈ units, unit.Recognised) (t' : FileTree) :
    outcome ((sink dir).store units) t = (.ok (),t') ↔
      (∀ unit ∈ units, Takes t dir place unit.fileName) ∧ t' = stored t dir place units := by
  have cleared := cleared_eraseAll good here
  have writes := writeAll_iff (cleared.locate here) ours t'
  simp only [cleared.takes_iff] at writes
  rw [store_iff,prepare_directory good here]
  constructor
  · rintro ⟨u,prepared,written⟩
    split at prepared
    next => cases prepared
    next =>
      obtain ⟨_,rfl⟩ := Prod.mk.inj prepared
      exact writes.mp written
  · rintro ⟨takes,same⟩
    refine ⟨_,?_,writes.mpr ⟨takes,same⟩⟩
    have allowed : (units.map (·.fileName)).forM (fun name => checked t (Path.join dir name)) = .ok () := by
      refine forM_eq_ok.mpr fun name member => ?_
      obtain ⟨unit,inside,rfl⟩ := List.mem_map.mp member
      exact (checked_join here (ours unit inside).plain).mpr fun _ => (takes unit inside).free
    rw [allowed]

theorem node?_putAll (t : FileTree) (place : List String) (units : List OutputUnit) (p : List String) :
    (∃ unit ∈ units, p = place ++ [unit.fileName] ∧
      (putAll t place units).node? p = some (.file unit.text)) ∨
    (∀ unit ∈ units, p ≠ place ++ [unit.fileName]) ∧ (putAll t place units).node? p = t.node? p := by
  induction units generalizing t with
  | nil => exact .inr ⟨fun unit member => (by cases member),rfl⟩
  | cons first units ih =>
    rcases ih (t.put (place ++ [first.fileName]) (.file first.text)) with
      ⟨unit,member,here,there⟩ | ⟨other,same⟩
    · exact .inl ⟨unit,List.mem_cons_of_mem _ member,here,there⟩
    · rw [node?_put t _ p (by simp)] at same
      by_cases here : p = place ++ [first.fileName]
      · rw [if_pos here] at same
        exact .inl ⟨first,List.mem_cons_self,here,same⟩
      · rw [if_neg here] at same
        exact .inr ⟨List.forall_mem_cons.mpr ⟨here,other⟩,same⟩

theorem same_putAll {u u' : FileTree} (same : Same u u') (place : List String) (units : List OutputUnit) :
    Same (putAll u place units) (putAll u' place units) := by
  induction units generalizing u u' with
  | nil => exact same
  | cons unit units ih => exact ih (same.put (by simp) _)

theorem wellFormed_eraseAll (good : t.WellFormed) {names : List String} (once : names.Nodup)
    (files : ∀ name ∈ names, ∃ text, t.node? (place ++ [name]) = some (.file text)) :
    (eraseAll t place names).WellFormed := by
  induction names generalizing t with
  | nil => exact good
  | cons name names ih =>
    obtain ⟨fresh,later⟩ := List.nodup_cons.mp once
    rw [List.forall_mem_cons] at files
    obtain ⟨⟨text,found⟩,others⟩ := files
    refine ih (good.erase found) later fun other member => ?_
    obtain ⟨content,there⟩ := others other member
    refine ⟨content,?_⟩
    rw [node?_erase t _ (by simp),if_neg (apart fresh member)]
    exact there

theorem wellFormed_putAll (good : t.WellFormed) (parent : t.node? place = some .directory)
    (takes : ∀ unit ∈ units, Takes t dir place unit.fileName) (ours : ∀ unit ∈ units, unit.Recognised) :
    (putAll t place units).WellFormed := by
  induction units generalizing t with
  | nil => exact good
  | cons unit units ih =>
    rw [List.forall_mem_cons] at takes ours
    have valid : Path.Valid unit.fileName := ⟨ours.1.plain,takes.1.fits.short,takes.1.fits.textual⟩
    have still := directories_put (n := .file unit.text) (by simp) takes.1.not_directory place parent
    refine ih (good.put parent valid takes.1.not_directory) still ?_ ours.2
    exact fun other member => (takes_put_iff takes.1 ours.1.generated).mpr (takes.2 other member)

theorem wellFormed_stored (good : t.WellFormed) (here : t.locate dir = .ok (place,.directory))
    (ours : ∀ unit ∈ units, unit.Recognised) (takes : ∀ unit ∈ units, Takes t dir place unit.fileName) :
    (stored t dir place units).WellFormed := by
  have cleared := cleared_eraseAll good here
  have goodCleared : (eraseAll t place (staleNames t dir place)).WellFormed := by
    refine wellFormed_eraseAll good (nodup_staleNames good dir place) fun name member => ?_
    obtain ⟨text,stale⟩ := (exists_stale_iff good here).mp member
    exact ⟨text,stale.there⟩
  obtain ⟨_,_,_,parent⟩ := locate_eq_ok.mp (cleared.locate here)
  exact wellFormed_putAll goodCleared parent
    (fun unit member => cleared.takes_iff.mpr (takes unit member)) ours

end Storing

section Again
variable {t t₁ c c₁ : FileTree} {dir : String} {place : List String} {units : List OutputUnit}

/-- Clearing a directory after units were stored in it leaves what clearing it before leaves. -/
theorem same_cleared (cleared : Cleared dir place t c) (again : Cleared dir place (putAll c place units) c₁)
    (ours : ∀ unit ∈ units, unit.Recognised) (takes : ∀ unit ∈ units, Takes t dir place unit.fileName) :
    Same c c₁ where
  home := again.home.trans (home_putAll c place units)
  nodes p := by
    rcases node?_putAll c place units p with ⟨unit,member,rfl,there⟩ | ⟨other,same⟩
    · have before := cleared.node? (takes unit member) (ours unit member).extension
      rw [before]
      exact again.gone _ unit.text ⟨there,(ours unit member).generated,(ours unit member).extension,
        (takes unit member).fits.bounded⟩
    · rw [← same]
      refine again.kept p fun name text equal stale => ?_
      subst equal
      exact cleared.not_stale ⟨same ▸ stale.there,stale.generated,stale.extension,stale.bounded⟩

theorem store_missing_iff {fault : FileFault} (good : t.WellFormed) (down : ".." ∉ Path.elements dir)
    (proper : dir ≠ "") (missing : t.locate dir = .error fault) (made : (t.createDirs dir).2 = .ok ())
    (ours : ∀ unit ∈ units, unit.Recognised) :
    outcome ((sink dir).store units) t = (.ok (),t₁) ↔
      outcome ((sink dir).store units) (t.createDirs dir).1 = (.ok (),t₁) := by
  have goodMade := (made_createDirs good down).1
  have here := locate_createDirs good down proper made
  have empty := empty_createDirs good down proper (fun place there => by cases missing.symm.trans there) made
  have nothing : staleNames (t.createDirs dir).1 dir (t.placeOf dir) = [] := by
    refine List.eq_nil_iff_forall_not_mem.mpr fun name member => ?_
    obtain ⟨text,stale⟩ := (exists_stale_iff goodMade here).mp member
    cases (empty name).symm.trans stale.there
  rw [store_directory_iff goodMade here ours,stored,nothing,store_iff,outcome_prepare_missing missing,made]
  constructor
  · rintro ⟨u,prepared,written⟩
    obtain ⟨_,rfl⟩ := Prod.mk.inj prepared
    exact (writeAll_iff here ours _).mp written
  · intro written
    exact ⟨_,rfl,(writeAll_iff here ours _).mpr written⟩

/-- Where units can be stored at all, it comes to storing them in a directory that is there. -/
theorem exists_opened (good : t.WellFormed) (down : ".." ∉ Path.elements dir) (proper : dir ≠ "")
    (done : outcome ((sink dir).store units) t = (.ok (),t₁)) :
    ∃ u place, u.WellFormed ∧ u.locate dir = .ok (place,.directory) ∧
      ∀ units t', (∀ unit ∈ units, unit.Recognised) →
        (outcome ((sink dir).store units) t = (.ok (),t') ↔
          outcome ((sink dir).store units) u = (.ok (),t')) := by
  obtain ⟨v,prepared,_⟩ := store_iff.mp done
  rcases here : t.locate dir with fault | ⟨place,text | _⟩
  · rw [outcome_prepare_missing here] at prepared
    have made : (t.createDirs dir).2 = .ok () := by
      cases result : (t.createDirs dir).2 with
      | ok => rfl
      | error f => simp [result,Except.mapError] at prepared
    exact ⟨_,_,(made_createDirs good down).1,locate_createDirs good down proper made,
      fun units t' ours => store_missing_iff good down proper here made ours⟩
  · obtain ⟨f,refused⟩ := outcome_prepare_file (units.map (·.fileName)) here
    cases refused.symm.trans prepared
  · exact ⟨t,place,good,here,fun _ _ _ => Iff.rfl⟩

theorem locate_stored (good : t.WellFormed) (here : t.locate dir = .ok (place,.directory))
    (takes : ∀ unit ∈ units, Takes t dir place unit.fileName) :
    (stored t dir place units).locate dir = .ok (place,.directory) := by
  have cleared := cleared_eraseAll good here
  have directories (p : List String)
      (there : (eraseAll t place (staleNames t dir place)).node? p = some .directory) :
      (stored t dir place units).node? p = some .directory := by
    rcases node?_putAll (eraseAll t place (staleNames t dir place)) place units p with
      ⟨unit,member,rfl,_⟩ | ⟨_,same⟩
    · exact absurd there (cleared.takes_iff.mpr (takes unit member)).not_directory
    · exact same.trans there
  obtain ⟨_,_,_,there⟩ := locate_eq_ok.mp (cleared.locate here)
  exact locate_kept (home_putAll ..) directories (directories place there) (cleared.locate here)

variable {first second : List OutputUnit}

/-- Units stored before make no difference to what can be stored, and to what is left then. -/
theorem stored_again (second : List OutputUnit) (good : t.WellFormed)
    (here : t.locate dir = .ok (place,.directory)) (ours : ∀ unit ∈ first, unit.Recognised)
    (takes : ∀ unit ∈ first, Takes t dir place unit.fileName) :
    (∀ name, Takes (stored t dir place first) dir place name ↔ Takes t dir place name) ∧
      Same (stored t dir place second) (stored (stored t dir place first) dir place second) := by
  have still := locate_stored good here takes
  have cleared := cleared_eraseAll good here
  have again := cleared_eraseAll (wellFormed_stored good here ours takes) still
  have same := same_cleared cleared again ours takes
  refine ⟨fun name => ?_,same_putAll same place second⟩
  rw [← again.takes_iff,← cleared.takes_iff]
  exact takes_congr (free_congr (same.nodes _))

/-- Storing files leaves no trace that later files could show: they can be stored exactly when they could
have been stored at first, and the tree they leave is the one they would have left alone. Files that are
stored can be stored again, and are never refused as foreign. -/
theorem store_again {p p' : Plan} (good : t.WellFormed) (down : ".." ∉ Path.elements dir) (proper : dir ≠ "")
    (planned : p.units = .ok first) (single : ∀ unit ∈ first, '/' ∉ unit.fileName.toList)
    (planned' : p'.units = .ok second) (single' : ∀ unit ∈ second, '/' ∉ unit.fileName.toList)
    (done : outcome ((sink dir).store first) t = (.ok (),t₁)) :
    ((∃ t', outcome ((sink dir).store second) t₁ = (.ok (),t')) ↔
      ∃ t', outcome ((sink dir).store second) t = (.ok (),t')) ∧
    (∀ t' t'', outcome ((sink dir).store second) t = (.ok (),t') →
      outcome ((sink dir).store second) t₁ = (.ok (),t'') → Same t' t'') ∧
    (∃ t', outcome ((sink dir).store first) t₁ = (.ok (),t') ∧ Same t₁ t') ∧
    ∀ unit ∈ first, outcome (checkTarget (Path.join dir unit.fileName)) t₁ = (.ok (),t₁) := by
  have ours := Plan.recognised_of_units planned single
  have ours' := Plan.recognised_of_units planned' single'
  obtain ⟨u,place,goodAt,here,opened⟩ := exists_opened good down proper done
  obtain ⟨takes,rfl⟩ := (store_directory_iff goodAt here ours _).mp ((opened first _ ours).mp done)
  have goodAfter := wellFormed_stored goodAt here ours takes
  have still := locate_stored goodAt here takes
  have alone (t') := (opened second t' ours').trans (store_directory_iff goodAt here ours' t')
  have later := store_directory_iff goodAfter still ours'
  have twice := store_directory_iff goodAfter still ours
  obtain ⟨same,after⟩ := stored_again second goodAt here ours takes
  have repeated := (stored_again first goodAt here ours takes).2
  simp only [same] at later twice
  refine ⟨?_,?_,⟨_,(twice _).mpr ⟨takes,rfl⟩,repeated⟩,?_⟩
  · simp only [alone,later,exists_and_left]
    simp
  · intro t' t'' before behind
    rw [((alone t').mp before).2,((later t'').mp behind).2]
    exact after
  · intro unit member
    rw [outcome_checkTarget,(checked_join still (ours unit member).plain).mpr]
    exact fun _ => ((same _).mpr (takes unit member)).free

end Again
end OutputDir

/-- The writer of an empty path would clear nothing, and no settings have one. -/
theorem Settings.outputDir_ne {s : Settings} {here : Option String} (valid : s.validate here = .ok ()) :
    s.outputDir ≠ "" := by
  intro blank
  cases noPackage : isBlankText s.inputPackage <;> cases noType : isBlankText s.typeName <;>
    simp [validate,noPackage,noType,blank,bind,Except.bind,throw,throwThe,
      MonadExceptOf.throw] at valid

namespace Sample

/-- Only the connection, which needs a proxy by value. -/
def connPlan : Plan :=
  ⟨⟨[connEntry .hard,connRefEntry .none],[connGroup],[]⟩,types,⟨"out","","Transform"⟩⟩

theorem wrappedGroups_connPlan : connPlan.catalog.wrappedGroups = [connGroup] := by decide +kernel

theorem units_connPlan : ∃ unit, connPlan.units = .ok [unit] ∧ unit.fileName = "p_c.go" := by
  obtain ⟨units,planned⟩ : ∃ units, connPlan.units = .ok units := by
    apply Plan.units_total connPlan (by decide)
    · rw [wrappedGroups_connPlan]
      simp
    · have names : connPlan.names connGroup = [("p_c.go","p.C"),("PC","p.C")] := by
        simp [Plan.names,connPlan,connGroup,Group.key,fileName_conn,proxyName_conn]
      rw [wrappedGroups_connPlan]
      simp [names,Plan.collision?,List.lookup_cons]
  obtain ⟨made,each,sorted,_⟩ := Plan.units_made planned
  rw [wrappedGroups_connPlan] at each
  obtain ⟨unit,_,made,none,rfl⟩ := List.forall₂_cons_left_iff.mp each
  obtain rfl := List.forall₂_nil_left_iff.mp none
  refine ⟨unit,planned.trans (congrArg Except.ok (sorted.trans ?_)),?_⟩
  · exact Text.sortBy_eq (.refl _) (List.pairwise_singleton _ _)
  · rw [(Plan.unit_head made).1]
    exact fileName_conn

theorem single_plan {units : List OutputUnit} (planned : plan.units = .ok units) :
    ∀ unit ∈ units, '/' ∉ unit.fileName.toList := by
  intro unit member
  obtain ⟨g,needed,made⟩ := ((Plan.mem_units planned).2 unit).mp member
  rw [wrappedGroups_plan] at needed
  rw [(Plan.unit_head made).1]
  rcases List.mem_pair.mp needed with rfl | rfl
  · exact fileName_conn ▸ (by decide)
  · exact fileName_server ▸ (by decide)

end Sample

namespace OutputDir
open FileTree

section Runs
variable {unit : OutputUnit}

/-- The generated file goes, the other one stays, and the new one comes. -/
theorem store_mixed (named : unit.fileName = "p_c.go") : outcome ((sink "out").store [unit]) mixed =
    (.ok (),(mixed.erase ["w","out","a.go"]).put ["w","out","p_c.go"] (.file unit.text)) := by
  have prepared : outcome (prepare "out" ["p_c.go"]) mixed = (.ok (),mixed.erase ["w","out","a.go"]) := rfl
  have written (text : String) : outcome (write "out" "p_c.go" text) (mixed.erase ["w","out","a.go"]) =
      (.ok (),(mixed.erase ["w","out","a.go"]).put ["w","out","p_c.go"] (.file text)) := rfl
  refine store_iff.mpr ⟨mixed.erase ["w","out","a.go"],?_,writeAll_cons.mpr ⟨_,?_,rfl⟩⟩
  · rw [List.map_singleton,named]
    exact prepared
  · rw [named]
    exact written unit.text

theorem store_blank (named : unit.fileName = "p_c.go") :
    outcome ((sink "").store [unit]) (FileTree.empty ["w"]) =
      (.ok (),(FileTree.empty ["w"]).put ["w","p_c.go"] (.file unit.text)) := by
  have written (text : String) : outcome (write "" "p_c.go" text) (FileTree.empty ["w"]) =
      (.ok (),(FileTree.empty ["w"]).put ["w","p_c.go"] (.file text)) := rfl
  refine store_iff.mpr ⟨FileTree.empty ["w"],rfl,writeAll_cons.mpr ⟨_,?_,rfl⟩⟩
  rw [named]
  exact written unit.text

end Runs

/-- A directory with an old file and one written by hand is given the connection, and then all units. -/
theorem mixed_again : ∃ first second t₁, mixed.WellFormed ∧ ".." ∉ Path.elements "out" ∧ "out" ≠ "" ∧
    Sample.connPlan.units = .ok first ∧ (∀ unit ∈ first, '/' ∉ unit.fileName.toList) ∧
    Sample.plan.units = .ok second ∧ (∀ unit ∈ second, '/' ∉ unit.fileName.toList) ∧
    outcome ((sink "out").store first) mixed = (.ok (),t₁) ∧
    ((∃ t', outcome ((sink "out").store second) t₁ = (.ok (),t')) ↔
      ∃ t', outcome ((sink "out").store second) mixed = (.ok (),t')) ∧
    ∃ t', outcome ((sink "out").store first) t₁ = (.ok (),t') ∧ Same t₁ t' := by
  obtain ⟨unit,planned,named⟩ := Sample.units_connPlan
  obtain ⟨second,planned'⟩ := Sample.plan_units
  have down : ".." ∉ Path.elements "out" := by decide
  have single : ∀ x ∈ [unit], '/' ∉ x.fileName.toList := by
    rw [List.forall_mem_singleton,named]
    decide
  have single' := Sample.single_plan planned'
  have done := store_mixed named
  obtain ⟨again,_,repeated,_⟩ :=
    store_again wellFormed_mixed down (by decide) planned single planned' single' done
  exact ⟨_,second,_,wellFormed_mixed,down,by decide,planned,single,planned',single',done,again,repeated⟩

/-- An empty path is no directory to clear: what was stored stays, though nothing is stored after it. -/
theorem blank_left : ∃ first t₁, (FileTree.empty ["w"]).WellFormed ∧ ".." ∉ Path.elements "" ∧
    Sample.connPlan.units = .ok first ∧ (∀ unit ∈ first, '/' ∉ unit.fileName.toList) ∧
    Plan.units ⟨.empty,Sample.types,⟨"out","","Transform"⟩⟩ = .ok [] ∧
    outcome ((sink "").store first) (FileTree.empty ["w"]) = (.ok (),t₁) ∧
    outcome ((sink "").store []) t₁ = (.ok (),t₁) ∧
    outcome ((sink "").store []) (FileTree.empty ["w"]) = (.ok (),FileTree.empty ["w"]) ∧
    ¬Same (FileTree.empty ["w"]) t₁ := by
  obtain ⟨unit,planned,named⟩ := Sample.units_connPlan
  have single : ∀ x ∈ [unit], '/' ∉ x.fileName.toList := by
    rw [List.forall_mem_singleton,named]
    decide
  refine ⟨[unit],_,wellFormed_empty (by decide),by decide,planned,single,by cbv,store_blank named,rfl,rfl,?_⟩
  intro same
  have there := same.nodes ["w","p_c.go"]
  rw [node?_put _ _ _ (by simp),if_pos rfl] at there
  cases there

end OutputDir
end ProxyGen
