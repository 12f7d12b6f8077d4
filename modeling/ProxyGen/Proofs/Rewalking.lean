import ProxyGen.Proofs.Termination

/-! Walking again. A walk that has come to its end has entered all that its types bring along, and each name
they offer is held by a variant that need not give it up. Whoever walks on from its catalog, with an empty
list of visited types, queues and classifies them once more and finds nothing to change. -/
namespace ProxyGen

theorem Group.claimAll_refused {g : Group} (owner : String) {methods : List Selection}
    (refused : ∀ m ∈ methods, ¬ Claim.Open (g.claim? m.name) (!m.indirect)) :
    g.claimAll owner methods = (g,[]) := by
  induction methods with
  | nil => rfl
  | cons m rest ih =>
    have stays : g.yields m.name (!m.indirect) = false := by
      rw [← Bool.not_eq_true,yields_iff]
      exact refused m List.mem_cons_self
    have same : g.claim m.name owner (!m.indirect) = g := by simp [claim,stays]
    rw [claimAll,same,ih fun x later => refused x (List.mem_cons_of_mem _ later),stays]
    rfl

namespace Catalog

def Holds (c : Catalog) (t : TypeExpr) : Prop := ∃ e ∈ c.entries, e.descriptor.type = t

/-- There is nothing left for a walk to enter, and no name left for it to claim. -/
structure Exhausted (u : Universe) (scope : List String) (c : Catalog) : Prop where
  good : c.WellFormed u
  parts : ∀ t, c.Holds t → ∃ ts, Walk.elements u t = .ok ts ∧
    ∀ x ∈ ts, Walk.inScope scope x = true → c.Holds x
  refused : ∀ e ∈ c.entries, ∃ methods, u.methodSet e.descriptor.type = .ok methods ∧
    ∀ m ∈ methods, m.exported = true → ¬ Claim.Open (c.claim? e.root m.name) (!m.indirect)

section Exhausted
variable {u : Universe} {scope : List String} {c : Catalog}

theorem WellFormed.key_type (good : c.WellFormed u) {e : Entry} (member : e ∈ c.entries) :
    e.key = e.descriptor.type.key := (ofType_key (good.described e member).1).1

theorem Exhausted.register (done : c.Exhausted u scope) {t : TypeExpr} (held : c.Holds t) :
    c.register u t none = .ok c := by
  obtain ⟨e,member,rfl⟩ := held
  have known := mem_keys member
  rw [done.good.key_type member] at known
  simp only [Catalog.register,addEntry_known known]

theorem Exhausted.claimMethods (done : c.Exhausted u scope) {e : Entry} (member : e ∈ c.entries)
    {methods : List Selection} (offered : u.methodSet e.descriptor.type = .ok methods) :
    Walk.claimMethods c e methods = (c,[]) := by
  obtain ⟨methods',same,refused⟩ := done.refused e member
  cases offered.symm.trans same
  obtain ⟨g,found,_⟩ := done.good.group_of_mem member
  have none : g.claimAll e.key (methods.filter Selection.exported) = (g,[]) := by
    apply Group.claimAll_refused
    intro m inside
    obtain ⟨among,exported⟩ := List.mem_filter.mp inside
    have kept := refused m among exported
    rwa [Catalog.claim?,found,Option.bind_some] at kept
  simp only [Walk.claimMethods,found,none,modifyGroup_self done.good.groupsDistinct found]

end Exhausted
end Catalog

namespace Walk

/-- What a walk is asked for: to queue a type that nobody mentions, or to work off its queue. -/
inductive Request
  | queue (t : TypeExpr)
  | drain

def Request.type? : Request → Option TypeExpr
  | .queue t => some t
  | .drain => none

def asked (requests : List Request) : List TypeExpr := requests.filterMap Request.type?

def answer (u : Universe) (scope : List String) (w : Walk) : Request → Except Halt Walk
  | .queue t => w.enqueue u scope t none
  | .drain => w.drain u scope

/-- Answers one request after the other, until one fails. -/
def serve (u : Universe) (scope : List String) : List Request → Walk → Except Halt Walk
  | [], w => .ok w
  | r :: rest, w =>
    match w.answer u scope r with
    | .error h => .error h
    | .ok w => serve u scope rest w

variable {u : Universe} {scope : List String} {c : Catalog}

theorem serve_append (first second : List Request) (w : Walk) : w.serve u scope (first ++ second) =
    match w.serve u scope first with
    | .error h => .error h
    | .ok w => w.serve u scope second := by
  induction first generalizing w with
  | nil => rfl
  | cons r rest ih =>
    simp only [List.cons_append,serve]
    cases w.answer u scope r with
    | error h => rfl
    | ok w₁ => exact ih w₁

theorem queue_served {requests : List Request} {w w' : Walk}
    (served : w.serve u scope (requests ++ [.drain]) = .ok w') : w'.queue = [] := by
  rw [serve_append] at served
  cases first : w.serve u scope requests with
  | error h => simp [first] at served
  | ok w₁ =>
    simp only [first,serve,answer] at served
    cases drained : w₁.drain u scope with
    | error h => simp [drained] at served
    | ok w₂ =>
      simp only [drained,Except.ok.injEq] at served
      subst served
      exact drain_queue drained

section Again

theorem queueAll_again (done : c.Exhausted u scope) {stack : List TypeExpr} {w : Walk}
    (held : ∀ t ∈ stack, inScope scope t = true → c.Holds t) (same : w.catalog = c) :
    ∃ w', w.queueAll u scope none stack = .ok w' ∧ w'.catalog = c := by
  fun_induction queueAll u scope none stack w with
  | case1 w => exact ⟨w,rfl,same⟩
  | case2 w t rest inside e failed =>
    rw [same,done.register (held t List.mem_cons_self inside)] at failed
    cases failed
  | case3 w t rest inside c' registered visited ih =>
    rw [same,done.register (held t List.mem_cons_self inside)] at registered
    cases registered
    exact ih (fun x later => held x (List.mem_cons_of_mem _ later)) rfl
  | case4 w t rest inside c' registered fresh w₁ e failed =>
    obtain ⟨ts,known,_⟩ := done.parts t (held t List.mem_cons_self inside)
    cases failed.symm.trans known
  | case5 w t rest inside c' registered fresh w₁ ts known ih =>
    have here := held t List.mem_cons_self inside
    rw [same,done.register here] at registered
    cases registered
    obtain ⟨ts',known',covered⟩ := done.parts t here
    cases known.symm.trans known'
    refine ih (fun x member => ?_) rfl
    rcases List.mem_append.mp member with isPart | later
    · exact covered x isPart
    · exact held x (List.mem_cons_of_mem _ later)
  | case6 w t rest outside ih => exact ih (fun x later => held x (List.mem_cons_of_mem _ later)) same

theorem classify_again (done : c.Exhausted u scope) (key : String) {w : Walk} (same : w.catalog = c) :
    ∃ w', w.classify u scope key = .ok w' ∧ w'.catalog = c := by
  subst same
  cases found : w.catalog.entry? key with
  | none => exact ⟨w,by simp only [classify,found],rfl⟩
  | some e =>
    obtain ⟨member,_⟩ := Catalog.entry?_some found
    obtain ⟨methods,offered,_⟩ := done.refused e member
    refine ⟨{ w with catalog := w.catalog.modifyEntry key fun e => { e with methods := e.methods ++ [] } },?_,?_⟩
    · simp only [classify,found,offered,done.claimMethods member offered,List.flatMap_nil,takeResults]
    · simp [Catalog.modifyEntry]

theorem drain_again (done : c.Exhausted u scope) {w : Walk} (same : w.catalog = c) :
    ∃ w', w.drain u scope = .ok w' ∧ w'.catalog = c := by
  fun_induction drain u scope w with
  | case1 w empty => exact ⟨w,rfl,same⟩
  | case2 w key rest queued h failed =>
    obtain ⟨w',classified,_⟩ := classify_again done key (w := { w with queue := rest }) same
    cases failed.symm.trans classified
  | case3 w key rest queued w₁ classified ih =>
    obtain ⟨w',classified',kept⟩ := classify_again done key (w := { w with queue := rest }) same
    cases classified.symm.trans classified'
    exact ih kept

theorem serve_exhausted (done : c.Exhausted u scope) {requests : List Request} {w : Walk}
    (held : ∀ t ∈ asked requests, c.Holds t) (same : w.catalog = c) :
    ∃ w', w.serve u scope requests = .ok w' ∧ w'.catalog = c := by
  induction requests generalizing w with
  | nil => exact ⟨w,rfl,same⟩
  | cons r rest ih =>
    have answered : ∃ w', w.answer u scope r = .ok w' ∧ w'.catalog = c := by
      cases r with
      | queue t =>
        refine queueAll_again done (fun x member _ => ?_) same
        obtain rfl := List.mem_singleton.mp member
        exact held x List.mem_cons_self
      | drain => exact drain_again done same
    obtain ⟨w₁,first,kept⟩ := answered
    simp only [serve,first]
    refine ih (fun t later => held t ?_) kept
    cases r with
    | queue => exact List.mem_cons_of_mem _ later
    | drain => exact later

end Again

section Entries
variable {ts : List TypeExpr} {cfg cfg' : Config}

/-- An entry was there before the step, or its type was on the stack. -/
theorem entry_origin (step : Step u scope cfg cfg') {e' : Entry} (member : e' ∈ cfg'.walk.catalog.entries) :
    (∃ e ∈ cfg.walk.catalog.entries, e.descriptor = e'.descriptor) ∨
      Item.type e'.descriptor.type ∈ cfg.stack := by
  have registered {c c' : Catalog} {t : TypeExpr} {rest : List Item} {d : Option String}
      (ok : c.register u t d = .ok c') (member : e' ∈ c'.entries) :
      (∃ e ∈ c.entries, e.descriptor = e'.descriptor) ∨ Item.type e'.descriptor.type ∈ Item.type t :: rest := by
    rcases Catalog.register_cases ok with ⟨_,rfl⟩ | ⟨_,c₁,new,rfl⟩
    · rw [Catalog.entries_link] at member
      exact .inl ⟨e',member,rfl⟩
    · rw [Catalog.entries_link] at member
      rcases new.entry_cases member with old | ⟨_,type,_⟩
      · exact .inl ⟨e',old,rfl⟩
      · rw [type]
        exact .inr List.mem_cons_self
  have modified {c : Catalog} {key : String} {f : Entry → Entry}
      (keeps : ∀ e, (f e).descriptor = e.descriptor) (member : e' ∈ (c.modifyEntry key f).entries) :
      ∃ e ∈ c.entries, e.descriptor = e'.descriptor := by
    obtain ⟨e,present,rfl⟩ := List.mem_map.mp member
    refine ⟨e,present,?_⟩
    split
    · exact (keeps e).symm
    · rfl
  cases step with
  | leave | expand | take | skip => exact .inl ⟨e',member,rfl⟩
  | revisit inside ok | visit inside ok => exact registered ok member
  | raise error => exact .inl (modified (fun e => (Catalog.raise_keeps e _).1) member)
  | @finish w key status claimed =>
    exact .inl (modified (f := fun e => { e with methods := e.methods ++ claimed }) (fun _ => rfl) member)
  | start =>
    refine .inl ⟨e',?_,rfl⟩
    unfold claimMethods at member
    split at member <;> exact member

/-- What is entered can be reached from `ts`, and so can what is still to be looked at. -/
structure Reaches (u : Universe) (ts : List TypeExpr) (cfg : Config) : Prop where
  within : Within u ts cfg
  entered : ∀ e ∈ cfg.walk.catalog.entries, e.descriptor.type ∈ u.reach ts

theorem Reaches.step (reaches : Reaches u ts cfg) (step : Step u scope cfg cfg') : Reaches u ts cfg' where
  within := reaches.within.step step
  entered e' member := by
    rcases entry_origin step member with ⟨e,old,same⟩ | onStack
    · rw [← same]
      exact reaches.entered e old
    · exact reaches.within.items _ onStack

theorem Reaches.steps (reaches : Reaches u ts cfg) (steps : Steps u scope cfg cfg') : Reaches u ts cfg' := by
  induction steps with
  | refl => exact reaches
  | tail _ last ih => exact ih.step last

end Entries

section Served
variable {w w' : Walk} {ts : List TypeExpr}

/-- A type may be put on the empty stack at any time between two turns. -/
theorem Orderly.queue (orderly : Orderly u scope ⟨w,[],none,none⟩) (t : TypeExpr) :
    Orderly u scope ⟨w,[.type t],none,none⟩ where
  sound := .between ⟨orderly.sound.good,orderly.sound.soft⟩ fun _ target => by cases target
  explored := by
    refine ⟨orderly.explored.visited,orderly.explored.inside,fun e member => ?_⟩
    rcases orderly.explored.parts e member with later | ⟨parts,known,covered⟩
    · cases later
    · refine .inr ⟨parts,known,fun x part inside => (covered x part inside).imp_right fun onStack => ?_⟩
      cases onStack
  settled := orderly.settled
  accounted := by
    refine ⟨orderly.accounted.results,fun e member m listed r result => .inr ?_,orderly.accounted.caused⟩
    rcases orderly.accounted.answered e member m listed r result with (⟨_,turn,_⟩ | ⟨target,_⟩) | answered
    · cases turn
    · cases target
    · exact answered

/-- What holds of a walk between two requests for types of `ts`. -/
structure Between (u : Universe) (scope : List String) (ts : List TypeExpr) (w : Walk) : Prop where
  orderly : Orderly u scope ⟨w,[],none,none⟩
  entered : ∀ e ∈ w.catalog.entries, e.descriptor.type ∈ u.reach ts

theorem Between.start (u : Universe) (scope : List String) (ts : List TypeExpr) :
    Between u scope ts (start .empty) where
  orderly := (Orderly.start u scope .error).steps (.single (.leave rfl))
  entered _ member := absurd member List.not_mem_nil

theorem Between.steps (between : Between u scope ts w) {stack : List Item}
    (orderly : Orderly u scope ⟨w,stack,none,none⟩) (items : ∀ item ∈ stack, item.expr ∈ u.reach ts)
    (steps : Steps u scope ⟨w,stack,none,none⟩ ⟨w',[],none,none⟩) : Between u scope ts w' where
  orderly := orderly.steps steps
  entered := by
    have before : Reaches u ts ⟨w,stack,none,none⟩ :=
      ⟨⟨items,fun _ present => by cases present⟩,between.entered⟩
    exact (before.steps steps).entered

theorem Between.answer (between : Between u scope ts w) {r : Request}
    (reached : ∀ t, r.type? = some t → t ∈ u.reach ts) (answered : w.answer u scope r = .ok w') :
    Between u scope ts w' := by
  cases r with
  | queue t =>
    have steps := queueAll_leads u scope none none [t] w
    rw [← enqueue,show w.enqueue u scope t none = .ok w' from answered] at steps
    refine between.steps (between.orderly.queue t) (fun item member => ?_) steps
    obtain rfl := List.mem_singleton.mp member
    exact reached t rfl
  | drain =>
    have steps := drain_leads u scope w
    rw [show w.drain u scope = .ok w' from answered] at steps
    exact between.steps between.orderly (fun _ member => absurd member List.not_mem_nil) steps

theorem Between.serve (between : Between u scope ts w) {requests : List Request}
    (reached : ∀ t ∈ asked requests, t ∈ u.reach ts) (served : w.serve u scope requests = .ok w') :
    Between u scope ts w' := by
  induction requests generalizing w with
  | nil =>
    cases served
    exact between
  | cons r rest ih =>
    rw [Walk.serve] at served
    split at served
    next => cases served
    next w₁ first =>
      refine ih (between.answer (fun t named => reached t ?_) first) (fun t later => reached t ?_) served
      · exact List.mem_filterMap.mpr ⟨r,List.mem_cons_self,named⟩
      · obtain ⟨r',member,named⟩ := List.mem_filterMap.mp later
        exact List.mem_filterMap.mpr ⟨r',List.mem_cons_of_mem _ member,named⟩

/-- Types that can be reached are told apart by their keys. -/
def Keyed (u : Universe) (ts : List TypeExpr) : Prop :=
  ∀ x ∈ u.reach ts, ∀ y ∈ u.reach ts, x.key = y.key → x = y

/-- What a walk has left once its queue is empty. A part of a type goes by its key in the catalog, and the entry
there could be another type's if they shared it. -/
theorem Between.exhausted (between : Between u scope ts w) (empty : w.queue = []) (keyed : Keyed u ts) :
    w.catalog.Exhausted u scope := by
  have good := between.orderly.sound.good
  have settled := between.orderly.settled
  rw [Catalog.ledger_of_idle,show (Config.walk ⟨w,[],none,none⟩).queue = [] from empty] at settled
  refine ⟨good,?_,?_⟩
  · rintro _ ⟨e,member,rfl⟩
    rcases between.orderly.explored.parts e member with later | ⟨parts,known,covered⟩
    · cases later
    · refine ⟨parts,known,fun x part inside => ?_⟩
      rcases covered x part inside with entered | onStack
      · obtain ⟨e',present,same⟩ := List.mem_map.mp entered
        refine ⟨e',present,keyed _ (between.entered e' present) x ?_ ?_⟩
        · exact elements_mem_reach known (between.entered e member) x part
        · exact (good.key_type present).symm.trans same
      · cases onStack
  · intro e member
    have inside := Catalog.mem_ledger member
    obtain ⟨methods,offered⟩ := settled.known _ inside List.not_mem_nil
    refine ⟨methods,offered,fun m among exported isOpen => ?_⟩
    obtain ⟨claim,held,direct⟩ := settled.offered _ inside List.not_mem_nil m ⟨methods,offered,among,exported⟩
    obtain ⟨indirect,value⟩ := isOpen claim held
    simp [direct (by simpa using value)] at indirect

end Served

/-- Whatever a finished walk has entered may be asked for again, in any order: nothing of it is refused, and nothing
of the catalog changes. -/
theorem serve_again {requests again : List Request} {w : Walk} (keyed : Keyed u (asked requests))
    (walked : (start .empty).serve u scope (requests ++ [.drain]) = .ok w)
    (registered : ∀ t ∈ asked again, w.catalog.Holds t) :
    ∃ w', (start w.catalog).serve u scope again = .ok w' ∧ w'.catalog = w.catalog := by
  have same : asked (requests ++ [.drain]) = asked requests := by simp [asked,Request.type?]
  have between : Between u scope (asked requests) w :=
    (Between.start u scope _).serve (fun t seed => Universe.mem_reach (same ▸ seed)) walked
  exact serve_exhausted (between.exhausted (queue_served walked) keyed) registered rfl

/-- An analysis asks for its seed and then for the rest. -/
theorem serve_seed {root t : TypeExpr} (seeded : seedType u root = .ok t) (packages : List String) :
    (start .empty).serve u (Analysis.scopeOf root packages) [.queue t,.drain] =
      Analysis.walk u root packages := by
  simp only [serve,answer,Analysis.walk,seed,seeded]
  cases (start .empty).enqueue u (Analysis.scopeOf root packages) t none with
  | error h => rfl
  | ok w =>
    dsimp only
    cases w.drain u (Analysis.scopeOf root packages) <;> rfl

open Evaluation in
theorem sample_walked_again :
    Keyed Sample.types (asked [.queue (.pointer (.named Sample.server))]) ∧
      (start .empty).serve Sample.types ["p"] ([.queue (.pointer (.named Sample.server))] ++ [.drain]) =
        .ok ⟨Sample.catalog .none,[],["*p.C","p.C","p.S","*p.S"]⟩ ∧
      ∃ w', (start (Sample.catalog .none)).serve Sample.types ["p"]
          [.queue (.named Sample.conn),.drain,.queue (.named Sample.server),.drain] = .ok w' ∧
        w'.catalog = Sample.catalog .none := by
  have seeded : seedType Sample.types (.named Sample.server) = .ok (.pointer (.named Sample.server)) := by
    simp [Sample.underlyings]
  have keyed : Keyed Sample.types (asked [.queue (.pointer (.named Sample.server))]) := by
    unfold Keyed
    decide
  have walked := (serve_seed seeded []).trans Sample.walk_types
  have registered : ∀ t ∈ asked [.queue (.named Sample.conn),.drain,.queue (.named Sample.server),.drain],
      (Sample.catalog .none).Holds t := by
    intro t member
    rcases List.mem_cons.mp member with rfl | later
    · exact ⟨Sample.connEntry .hard,by simp [Sample.catalog],rfl⟩
    · obtain rfl := List.mem_singleton.mp later
      exact ⟨Sample.serverEntry .none,by simp [Sample.catalog],rfl⟩
  exact ⟨keyed,walked,serve_again keyed walked registered⟩

end Walk
end ProxyGen
