import Mathlib.Logic.Relation
import ProxyGen.Analysis

/-! A walk as a sequence of small steps. Everything a walk does to its catalog is one of these steps, so
what each of them keeps is kept by queueing, by classifying and by whole walks, those included that end
early. -/
namespace ProxyGen.Walk

/-- A type to be queued, or one that was queued and is to be followed by what it brings along. -/
inductive Item
  | type (t : TypeExpr)
  | parts (t : TypeExpr)

/-- A type that is being classified: what it was granted, and the results that are still to be taken. -/
structure Turn where
  key : String
  status : Status
  claimed : List Selection
  results : List Param

/-- A walk between two steps. The items of the stack are mentioned by `dependent`. -/
structure Config where
  walk : Walk
  stack : List Item
  dependent : Option String
  turn : Option Turn

inductive Step (u : Universe) (scope : List String) : Config → Config → Prop
  | leave {w t rest d turn} (outside : inScope scope t = false) :
      Step u scope ⟨w,.type t :: rest,d,turn⟩ ⟨w,rest,d,turn⟩
  | revisit {w c t rest d turn} (inside : inScope scope t = true)
      (registered : w.catalog.register u t d = .ok c) (visited : t.key ∈ w.visited) :
      Step u scope ⟨w,.type t :: rest,d,turn⟩ ⟨{ w with catalog := c },rest,d,turn⟩
  | visit {w c t rest d turn} (inside : inScope scope t = true)
      (registered : w.catalog.register u t d = .ok c) (fresh : t.key ∉ w.visited) :
      Step u scope ⟨w,.type t :: rest,d,turn⟩
        ⟨⟨c,w.queue ++ [t.key],t.key :: w.visited⟩,.parts t :: rest,d,turn⟩
  | expand {w t parts rest d turn} (known : elements u t = .ok parts) :
      Step u scope ⟨w,.parts t :: rest,d,turn⟩ ⟨w,parts.map .type ++ rest,d,turn⟩
  | raise {w key status claimed r rest} (error : r.type.isError = true) :
      Step u scope ⟨w,[],some key,some ⟨key,status,claimed,r :: rest⟩⟩
        ⟨{ w with catalog := w.catalog.raise key status },[],some key,
          some ⟨key,status,claimed,rest⟩⟩
  | take {w key status claimed r rest} (value : r.type.isError = false) :
      Step u scope ⟨w,[],some key,some ⟨key,status,claimed,r :: rest⟩⟩
        ⟨w,[.type r.type],some key,some ⟨key,status,claimed,rest⟩⟩
  | start {w key rest e methods} (queued : w.queue = key :: rest)
      (found : w.catalog.entry? key = some e)
      (offered : u.methodSet e.descriptor.type = .ok methods) :
      Step u scope ⟨w,[],none,none⟩
        ⟨{ w with queue := rest, catalog := (claimMethods w.catalog e methods).1 },[],some key,
          some ⟨key,errorStatus e.descriptor.kind methods,(claimMethods w.catalog e methods).2,
            (claimMethods w.catalog e methods).2.flatMap fun m => m.signature.results⟩⟩
  | finish {w key status claimed} :
      Step u scope ⟨w,[],some key,some ⟨key,status,claimed,[]⟩⟩
        ⟨{ w with catalog := w.catalog.modifyEntry key fun e =>
            { e with methods := e.methods ++ claimed } },[],none,none⟩
  | skip {w key rest} (queued : w.queue = key :: rest) (missing : w.catalog.entry? key = none) :
      Step u scope ⟨w,[],none,none⟩ ⟨{ w with queue := rest },[],none,none⟩

abbrev Steps (u : Universe) (scope : List String) : Config → Config → Prop :=
  Relation.ReflTransGen (Step u scope)

/-- What a walk is about to do is refused. -/
inductive Fails (u : Universe) (scope : List String) : Config → Error → Prop
  | register {w t rest d turn e} (inside : inScope scope t = true)
      (refused : w.catalog.register u t d = .error e) : Fails u scope ⟨w,.type t :: rest,d,turn⟩ e
  | expand {w t rest d turn e} (refused : elements u t = .error e) :
      Fails u scope ⟨w,.parts t :: rest,d,turn⟩ e
  | start {w key rest entry e} (queued : w.queue = key :: rest)
      (found : w.catalog.entry? key = some entry)
      (refused : u.methodSet entry.descriptor.type = .error e) : Fails u scope ⟨w,[],none,none⟩ e

/-- The steps from a configuration lead to where an operation stops. It stops early where it is refused
something, with the catalog and the types visited so far. -/
def Stops (u : Universe) (scope : List String) (cfg : Config) (result : Except Halt Walk)
    (dependent : Option String) (turn : Option Turn) : Prop :=
  match result with
  | .ok w => Steps u scope cfg ⟨w,[],dependent,turn⟩
  | .error h => ∃ last, Steps u scope cfg last ∧ Fails u scope last h.error ∧
      last.walk.catalog = h.walk.catalog ∧ last.walk.visited = h.walk.visited

/-- The steps from a configuration lead to the result of an operation; of a walk that ended early the
catalog counts. -/
def Leads (u : Universe) (scope : List String) (cfg : Config) (result : Except Halt Walk)
    (dependent : Option String) (turn : Option Turn) : Prop :=
  match result with
  | .ok w => Steps u scope cfg ⟨w,[],dependent,turn⟩
  | .error h => ∃ last, Steps u scope cfg last ∧ last.walk.catalog = h.walk.catalog

theorem Stops.leads {u : Universe} {scope : List String} {cfg : Config} {result : Except Halt Walk}
    {dependent : Option String} {turn : Option Turn}
    (stops : Stops u scope cfg result dependent turn) : Leads u scope cfg result dependent turn := by
  cases result with
  | ok w => exact stops
  | error h =>
    obtain ⟨last,steps,_,same,_⟩ := stops
    exact ⟨last,steps,same⟩

theorem Stops.prepend {u : Universe} {scope : List String} {first second : Config}
    {result : Except Halt Walk} {dependent : Option String} {turn : Option Turn}
    (before : Steps u scope first second) (after : Stops u scope second result dependent turn) :
    Stops u scope first result dependent turn := by
  cases result with
  | ok w => exact before.trans after
  | error h =>
    obtain ⟨last,steps,ended⟩ := after
    exact ⟨last,before.trans steps,ended⟩

theorem queueAll_stops (u : Universe) (scope : List String) (dependent : Option String)
    (turn : Option Turn) (stack : List TypeExpr) (w : Walk) :
    Stops u scope ⟨w,stack.map .type,dependent,turn⟩ (w.queueAll u scope dependent stack)
      dependent turn := by
  fun_induction queueAll u scope dependent stack w with
  | case1 w => exact .refl
  | case2 w t rest inside e failed => exact ⟨_,.refl,.register inside failed,rfl,rfl⟩
  | case3 w t rest inside c registered visited ih =>
    exact ih.prepend (.single (.revisit inside registered visited))
  | case4 w t rest inside c registered fresh w₁ e failed =>
    exact ⟨_,.single (.visit inside registered fresh),.expand failed,rfl,rfl⟩
  | case5 w t rest inside c registered fresh w₁ parts known ih =>
    rw [List.map_append] at ih
    exact (ih.prepend (.single (.expand known))).prepend (.single (.visit inside registered fresh))
  | case6 w t rest outside ih =>
    exact ih.prepend (.single (.leave (by simpa using outside)))

theorem takeResults_stops (u : Universe) (scope : List String) (key : String) (status : Status)
    (claimed : List Selection) (results : List Param) (w : Walk) :
    Stops u scope ⟨w,[],some key,some ⟨key,status,claimed,results⟩⟩
      (takeResults u scope key status results w) (some key) (some ⟨key,status,claimed,[]⟩) := by
  induction results generalizing w with
  | nil => exact .refl
  | cons r rest ih =>
    simp only [takeResults,takeResult]
    cases error : r.type.isError with
    | true => exact (ih _).prepend (.single (.raise error))
    | false =>
      have queued := queueAll_stops u scope (some key) (some ⟨key,status,claimed,rest⟩) [r.type] w
      have taken := queued.prepend (.single (.take error))
      simp only [enqueue,Bool.false_eq_true,if_false]
      cases result : w.queueAll u scope (some key) [r.type] with
      | error h =>
        rw [result] at taken
        exact taken
      | ok w₁ =>
        rw [result] at taken
        exact (ih w₁).prepend taken

theorem classify_stops (u : Universe) (scope : List String) (w : Walk) {key : String}
    {rest : List String} (queued : w.queue = key :: rest) :
    Stops u scope ⟨w,[],none,none⟩ (classify u scope key { w with queue := rest }) none none := by
  simp only [classify]
  cases found : w.catalog.entry? key with
  | none => exact .single (.skip queued found)
  | some e =>
    cases offered : u.methodSet e.descriptor.type with
    | error err =>
      simp only [offered]
      exact ⟨_,.refl,.start queued found offered,rfl,rfl⟩
    | ok methods =>
      have taken := (takeResults_stops u scope key (errorStatus e.descriptor.kind methods)
        (claimMethods w.catalog e methods).2
        ((claimMethods w.catalog e methods).2.flatMap fun m => m.signature.results)
        { w with queue := rest, catalog := (claimMethods w.catalog e methods).1 }).prepend
          (.single (.start queued found offered))
      simp only [offered]
      split
      next h failed =>
        rw [failed] at taken
        exact taken
      next w₁ done =>
        rw [done] at taken
        exact taken.trans (.single .finish)

theorem drain_stops (u : Universe) (scope : List String) (w : Walk) :
    Stops u scope ⟨w,[],none,none⟩ (w.drain u scope) none none := by
  fun_induction drain u scope w with
  | case1 w empty => exact .refl
  | case2 w key rest queued h failed =>
    have halted := classify_stops u scope w queued
    rw [failed] at halted
    exact halted
  | case3 w key rest queued w' done ih =>
    have classified := classify_stops u scope w queued
    rw [done] at classified
    exact ih.prepend classified

theorem queueAll_leads (u : Universe) (scope : List String) (dependent : Option String)
    (turn : Option Turn) (stack : List TypeExpr) (w : Walk) :
    Leads u scope ⟨w,stack.map .type,dependent,turn⟩ (w.queueAll u scope dependent stack)
      dependent turn :=
  (queueAll_stops u scope dependent turn stack w).leads

theorem drain_leads (u : Universe) (scope : List String) (w : Walk) :
    Leads u scope ⟨w,[],none,none⟩ (w.drain u scope) none none :=
  (drain_stops u scope w).leads

theorem drain_queue {u : Universe} {scope : List String} {w w' : Walk}
    (done : w.drain u scope = .ok w') : w'.queue = [] := by
  fun_induction drain u scope w with
  | case1 w empty =>
    cases done
    exact empty
  | case2 => cases done
  | case3 _ _ _ _ _ _ ih => exact ih done

/-- A finished analysis has walked step by step from the root until nothing was left to do. -/
theorem steps_of_walk {u : Universe} {root : TypeExpr} {packages : List String} {w : Walk}
    (done : Analysis.walk u root packages = .ok w) :
    ∃ t, seedType u root = .ok t ∧ w.queue = [] ∧
      Steps u (Analysis.scopeOf root packages) ⟨start .empty,[.type t],none,none⟩ ⟨w,[],none,none⟩ := by
  simp only [Analysis.walk,seed] at done
  cases seeded : seedType u root with
  | error e => simp [seeded] at done
  | ok t =>
    simp only [seeded] at done
    cases queued : (start .empty).enqueue u (Analysis.scopeOf root packages) t none with
    | error h => simp [queued] at done
    | ok w₀ =>
      simp only [queued] at done
      have first := queueAll_leads u (Analysis.scopeOf root packages) none none [t] (start .empty)
      have second := drain_leads u (Analysis.scopeOf root packages) w₀
      rw [← enqueue,queued] at first
      rw [done] at second
      exact ⟨t,rfl,drain_queue done,first.trans second⟩

end ProxyGen.Walk
