import ProxyGen.OutputDir
import ProxyGen.Proofs.Directories

/-! Calls to the writer of an output directory, as functions on trees. Checks leave a tree alone, and what
has not been generated is never written over or removed. -/
namespace ProxyGen

section Outcome
variable {α β : Type}

/-- The result of a call on a tree, and the tree that it leaves. -/
def outcome (act : ExceptT Failure (StateM FileTree) α) (t : FileTree) : Except Failure α × FileTree :=
  act.run.run t

@[simp] theorem outcome_pure (a : α) (t : FileTree) : outcome (pure a) t = (.ok a,t) := rfl

@[simp] theorem outcome_throw (f : Failure) (t : FileTree) :
    outcome (throw f : ExceptT Failure (StateM FileTree) α) t = (.error f,t) := rfl

theorem outcome_bind (act : ExceptT Failure (StateM FileTree) α)
    (next : α → ExceptT Failure (StateM FileTree) β) (t : FileTree) : outcome (act >>= next) t =
      match outcome act t with
      | (.ok a,t') => outcome (next a) t'
      | (.error f,t') => (.error f,t') := by
  unfold outcome
  rw [ExceptT.run_bind,StateT.run_bind]
  rcases act.run.run t with ⟨r | a,t'⟩ <;> rfl

theorem outcome_onFile (task : Task) (act : StateM FileTree (Except FileFault α)) (t : FileTree) :
    outcome (task.onFile act) t = ((act.run t).1.mapError fun f => ⟨[task],.file f⟩,(act.run t).2) :=
  rfl

theorem outcome_within (task : Task) (act : ExceptT Failure (StateM FileTree) α) (t : FileTree) :
    outcome (task.within act) t =
      ((outcome act t).1.mapError (Failure.within task),(outcome act t).2) :=
  rfl

theorem outcome_bind_ok {act : ExceptT Failure (StateM FileTree) α}
    {next : α → ExceptT Failure (StateM FileTree) β} {t t'' : FileTree} {b : β} :
    outcome (act >>= next) t = (.ok b,t'') ↔
      ∃ a t', outcome act t = (.ok a,t') ∧ outcome (next a) t' = (.ok b,t'') := by
  rw [outcome_bind]
  rcases outcome act t with ⟨f | a,t'⟩ <;> simp

theorem outcome_within_ok {task : Task} {act : ExceptT Failure (StateM FileTree) α} {t t' : FileTree}
    {a : α} : outcome (task.within act) t = (.ok a,t') ↔ outcome act t = (.ok a,t') := by
  rw [outcome_within]
  rcases outcome act t with ⟨f | b,u⟩ <;> simp [Except.mapError]

/-- A loop of checks. -/
theorem outcome_forM_of_reads {f : α → ExceptT Failure (StateM FileTree) Unit} {g : α → Except Failure Unit}
    {t : FileTree} (reads : ∀ a, outcome (f a) t = (g a,t)) (as : List α) :
    outcome (as.forM f) t = (as.forM g,t) := by
  induction as with
  | nil => rfl
  | cons a rest ih =>
    rw [List.forM,List.forM,outcome_bind,reads]
    cases g a with
    | error e => rfl
    | ok => exact ih

theorem forM_eq_ok {g : α → Except Failure Unit} {as : List α} :
    as.forM g = .ok () ↔ ∀ a ∈ as, g a = .ok () := by
  induction as with
  | nil => exact iff_of_true rfl fun a member => by cases member
  | cons a rest ih =>
    rw [List.forM,List.forall_mem_cons,← ih]
    cases g a <;> simp [bind,Except.bind]

theorem outcome_filterM_of_reads {p : α → ExceptT Failure (StateM FileTree) Bool} {q : α → Bool}
    {t : FileTree} (reads : ∀ a, outcome (p a) t = (.ok (q a),t)) (as : List α) :
    outcome (as.filterM p) t = (.ok (as.filter q),t) := by
  have collects (as found : List α) :
      outcome (as.filterAuxM p found) t = (.ok ((as.filter q).reverse ++ found),t) := by
    induction as generalizing found with
    | nil => rfl
    | cons a rest ih =>
      rw [List.filterAuxM,outcome_bind,reads]
      dsimp only
      rw [ih,List.filter_cons]
      cases q a <;> simp
  rw [List.filterM,outcome_bind,collects]
  simp

end Outcome

namespace OutputDir
open FileTree

/-- What the check of a target says. -/
def checked (t : FileTree) (path : String) : Except Failure Unit :=
  match t.locate path with
  | .error _ => .ok ()
  | .ok (_,.directory) => .error ⟨[.readFile path],.file .isDirectory⟩
  | .ok (_,.file text) => if hasHeader text then .ok () else .error ⟨[],.error (.foreignFile path)⟩

/-- Whether a path leads to a generated file. -/
def leadsToGenerated (t : FileTree) (path : String) : Bool :=
  match t.locate path with
  | .ok (_,.file text) => hasHeader text
  | _ => false

/-- The generated files directly in a directory. -/
def staleNames (t : FileTree) (dir : String) (place : List String) : List String :=
  (t.namesAt place).filter fun name =>
    decide (Path.extension? name = some "go") && leadsToGenerated t (Path.join dir name)

section Calls
variable {t : FileTree} {dir path : String} {place : List String}

theorem run_read (path : String) (t : FileTree) :
    (FileSystem.read path : StateM FileTree _).run t = (t.read path,t) := rfl

theorem run_list (path : String) (t : FileTree) :
    (FileSystem.list path : StateM FileTree _).run t = (t.list path,t) := rfl

theorem run_update (step : FileTree → Except FileFault FileTree) (t : FileTree) : (update step).run t =
    match step t with
    | .ok t' => (.ok (),t')
    | .error f => (.error f,t) := by
  change update step t = _
  unfold update
  split <;> simp_all

theorem outcome_kind? (path : String) (t : FileTree) :
    outcome (kind? path) t = (.ok (t.kind path).toOption,t) := rfl

theorem outcome_isGenerated (path : String) (t : FileTree) : outcome (isGenerated path) t =
    (((t.read path).mapError fun f => ⟨[.readFile path],.file f⟩).map hasHeader,t) := by
  rw [isGenerated,outcome_bind,outcome_onFile,run_read]
  cases t.read path <;> rfl

theorem outcome_checkTarget (path : String) (t : FileTree) :
    outcome (checkTarget path) t = (checked t path,t) := by
  rw [checkTarget,outcome_bind,outcome_kind?]
  unfold checked
  rcases found : t.locate path with f | ⟨p,text | _⟩
  · rw [kind_of_fault found]
    rfl
  · rw [kind_of_locate found]
    simp only [Except.toOption,Option.isSome_some,if_true]
    rw [outcome_bind,outcome_isGenerated,read_of_file found]
    cases generated : hasHeader text <;> simp [Except.mapError,Except.map,generated]
  · rw [kind_of_locate found]
    simp only [Except.toOption,Option.isSome_some,if_true]
    rw [outcome_bind,outcome_isGenerated,read_of_directory found]
    rfl

theorem outcome_isStale (path : String) (t : FileTree) :
    outcome (isStale path) t = (.ok (leadsToGenerated t path),t) := by
  rw [isStale,outcome_bind,outcome_kind?]
  unfold leadsToGenerated
  rcases found : t.locate path with f | ⟨p,text | _⟩
  · rw [kind_of_fault found]
    rfl
  · rw [kind_of_locate found]
    simp [Except.toOption,Node.kind,outcome_isGenerated,read_of_file found,Except.mapError,Except.map]
  · rw [kind_of_locate found]
    rfl

theorem outcome_staleFiles (here : t.locate dir = .ok (place,.directory)) :
    outcome (staleFiles dir) t = (.ok ((staleNames t dir place).map (Path.join dir)),t) := by
  rw [staleFiles,outcome_bind,outcome_onFile,run_list,list_of_directory here]
  refine (outcome_filterM_of_reads (fun path => outcome_isStale path t) _).trans ?_
  rw [List.filter_map,List.filter_filter,staleNames]
  simp only [Function.comp_def,Bool.and_comm]

theorem outcome_write (dir name text : String) (t : FileTree) : outcome (write dir name text) t =
    match checked t (Path.join dir name) with
    | .error f => (.error f,t)
    | .ok () =>
      match t.write (Path.join dir name) text with
      | .ok t' => (.ok (),t')
      | .error f => (.error ⟨[.writeFile (Path.join dir name)],.file f⟩,t) := by
  rw [write,outcome_bind,outcome_checkTarget]
  cases checked t (Path.join dir name) with
  | error f => rfl
  | ok =>
    have ran : (FileSystem.write (Path.join dir name) text : StateM FileTree _).run t = _ :=
      run_update (fun t => t.write (Path.join dir name) text) t
    dsimp only
    rw [outcome_onFile,ran]
    cases t.write (Path.join dir name) text <;> rfl

/-- The part of the preparation that removes files. -/
def removeAll (paths : List String) : ExceptT Failure (StateM FileTree) Unit :=
  paths.forM fun path => (Task.removeFile path).onFile (FileSystem.remove path)

theorem outcome_removeAll_cons (path : String) (paths : List String) (t : FileTree) :
    outcome (removeAll (path :: paths)) t =
      match t.remove path with
      | .ok t' => outcome (removeAll paths) t'
      | .error f => (.error ⟨[.removeFile path],.file f⟩,t) := by
  have ran : (FileSystem.remove path : StateM FileTree _).run t = _ := run_update (fun t => t.remove path) t
  rw [removeAll,List.forM,outcome_bind,outcome_onFile,ran]
  cases t.remove path <;> rfl

section Prepare
variable {names : List String}

theorem outcome_prepare_missing {fault : FileFault} (missing : t.locate dir = .error fault) :
    outcome (prepare dir names) t =
      ((t.createDirs dir).2.mapError fun f => ⟨[.createDir dir],.file f⟩,(t.createDirs dir).1) := by
  rw [prepare,outcome_bind,outcome_kind?,kind_of_fault missing]
  rfl

/-- Where something is, all targets are checked before it is listed. -/
theorem outcome_prepare_there {n : Node} (here : t.locate dir = .ok (place,n)) :
    outcome (prepare dir names) t =
      match names.forM fun name => checked t (Path.join dir name) with
      | .error f => (.error f,t)
      | .ok () => outcome (staleFiles dir >>= removeAll) t := by
  rw [prepare,outcome_bind,outcome_kind?,kind_of_locate here]
  simp only [Except.toOption,Option.isNone_some,Bool.false_eq_true,if_false]
  rw [outcome_bind,outcome_forM_of_reads fun name => outcome_checkTarget (Path.join dir name) t]
  cases names.forM fun name => checked t (Path.join dir name) <;> rfl

theorem outcome_prepare_directory (here : t.locate dir = .ok (place,.directory)) :
    outcome (prepare dir names) t =
      match names.forM fun name => checked t (Path.join dir name) with
      | .error f => (.error f,t)
      | .ok () => outcome (removeAll ((staleNames t dir place).map (Path.join dir))) t := by
  rw [outcome_prepare_there here,outcome_bind,outcome_staleFiles here]

/-- A file is no output directory. -/
theorem outcome_prepare_file {text : String} (names : List String)
    (here : t.locate dir = .ok (place,.file text)) :
    ∃ f, outcome (prepare dir names) t = (.error f,t) := by
  rw [outcome_prepare_there here]
  cases names.forM fun name => checked t (Path.join dir name) with
  | error f => exact ⟨f,rfl⟩
  | ok =>
    dsimp only
    rw [outcome_bind,staleFiles,outcome_bind,outcome_onFile,run_list,list_of_file here]
    exact ⟨_,rfl⟩

end Prepare
end Calls

/-- Whatever was not generated stays as it is. -/
def Protects (t t' : FileTree) : Prop :=
  ∀ place text, t.node? place = some (.file text) → hasHeader text = false →
    t'.node? place = some (.file text)

section Protects
variable {t t' t'' : FileTree} {dir path text : String} {place : List String}

theorem Protects.refl (t : FileTree) : Protects t t := fun _ _ there _ => there

theorem Protects.trans (first : Protects t t') (second : Protects t' t'') : Protects t t'' :=
  fun place text there foreign => second place text (first place text there foreign) foreign

theorem protects_createDirs (t : FileTree) (path : String) : Protects t (t.createDirs path).1 := by
  have kept : ∀ p n, t.node? p = some n → (t.createDirs path).1.node? p = some n := keeps_createDirs
    (I := fun u => ∀ p n, t.node? p = some n → u.node? p = some n)
    (fun _ _ _ u u' soFar made p n there => node?_makeDir made (soFar p n there)) (fun _ _ there => there)
  exact fun place text there _ => kept place _ there

/-- Paths that led to generated files lead to nothing else later. -/
theorem protects_removeAll {paths : List String} (stale : ∀ path ∈ paths, leadsToGenerated t path = true)
    {u : FileTree} (fewer : Fewer u t) : Protects u (outcome (removeAll paths) u).2 := by
  induction paths generalizing u with
  | nil => exact .refl u
  | cons path paths ih =>
    rw [List.forall_mem_cons] at stale
    rw [outcome_removeAll_cons]
    cases removed : u.remove path with
    | error f => exact .refl u
    | ok u' =>
      obtain ⟨place,text,here,rfl⟩ := remove_eq_ok.mp removed
      obtain ⟨_,_,_,there⟩ := locate_eq_ok.mp here
      have proper := ne_nil_of_file there
      refine .trans ?_ (ih stale.2 (fewer.erase proper))
      intro p foreign found unmarked
      rw [node?_erase u p proper,if_neg]
      · exact found
      · rintro rfl
        cases there.symm.trans found
        have marked := stale.1
        rw [leadsToGenerated,fewer.locate here] at marked
        simp [unmarked] at marked

theorem protects_prepare (dir : String) (names : List String) (t : FileTree) :
    Protects t (outcome (prepare dir names) t).2 := by
  rcases here : t.locate dir with fault | ⟨place,text | _⟩
  · rw [outcome_prepare_missing here]
    exact protects_createDirs t dir
  · obtain ⟨f,refused⟩ := outcome_prepare_file names here
    rw [refused]
    exact .refl t
  · rw [outcome_prepare_directory here]
    cases names.forM fun name => checked t (Path.join dir name) with
    | error f => exact .refl t
    | ok =>
      refine protects_removeAll ?_ ⟨rfl,fun _ _ there => there⟩
      intro path member
      obtain ⟨name,inside,rfl⟩ := List.mem_map.mp member
      exact (Bool.and_eq_true_iff.mp (List.mem_filter.mp inside).2).2

theorem protects_write (dir name text : String) (t : FileTree) :
    Protects t (outcome (write dir name text) t).2 := by
  rw [outcome_write]
  cases allowed : checked t (Path.join dir name) with
  | error f => exact .refl t
  | ok =>
    cases written : t.write (Path.join dir name) text with
    | error f => exact .refl t
    | ok t' =>
      obtain ⟨es,place,known,_,leads,free,rfl⟩ := write_eq_ok.mp written
      have proper : place ≠ [] := by
        rintro rfl
        exact free rfl
      intro p foreign found unmarked
      dsimp only
      rw [node?_put t _ p proper,if_neg]
      · exact found
      · rintro rfl
        have here := locate_eq_ok.mpr ⟨es,known,leads,found⟩
        simp [checked,here,unmarked] at allowed

end Protects
end OutputDir
end ProxyGen
