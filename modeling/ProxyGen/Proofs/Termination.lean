import Mathlib.Algebra.Ring.Nat
import Mathlib.Data.Finset.Card
import ProxyGen.Proofs.Grounding
import ProxyGen.Proofs.Mentions
import ProxyGen.Proofs.Records

/-! Walks end. All that a walk can queue lies below its seed or is declared in the universe; each type is queued
once, and between two of them the stack and the results that are still to be taken run out. -/
namespace ProxyGen

/-- Everything below the given types, and below what is declared. -/
def Universe.reach (u : Universe) (ts : List TypeExpr) : List TypeExpr :=
  ts.flatMap TypeExpr.subexprs ++ u.exprs

theorem Universe.mem_reach {u : Universe} {ts : List TypeExpr} {t : TypeExpr} (member : t ∈ ts) :
    t ∈ u.reach ts :=
  List.mem_append_left _ (List.mem_flatMap.mpr ⟨t,member,TypeExpr.mem_subexprs_self t⟩)

namespace Walk
variable {u : Universe} {scope : List String} {ts : List TypeExpr} {cfg cfg' : Config}

theorem elements_mem_reach {t : TypeExpr} {parts : List TypeExpr} (known : elements u t = .ok parts)
    (inside : t ∈ u.reach ts) : ∀ x ∈ parts, x ∈ u.reach ts := by
  intro x member
  rcases (mem_elements_iff known x).mp member with child | ⟨n,_,rfl,stands,_⟩
  · have under := TypeExpr.subexprs_of_mem_children child x (TypeExpr.mem_subexprs_self x)
    rcases List.mem_append.mp inside with below | declared
    · obtain ⟨s,seed,above⟩ := List.mem_flatMap.mp below
      exact List.mem_append_left _ (List.mem_flatMap.mpr ⟨s,seed,TypeExpr.subexprs_trans above under⟩)
    · exact List.mem_append_right _ (Universe.subexprs_exprs declared under)
  · exact List.mem_append_right _ (Universe.underlying_mem_exprs stands)

theorem length_elements {t : TypeExpr} {parts : List TypeExpr} (known : elements u t = .ok parts) :
    parts.length ≤ 2 := by
  unfold elements at known
  split at known
  next n =>
    split at known
    next => cases known
    next =>
      split at known
      next => cases known
      next =>
        cases known
        split <;> simp
  next =>
    cases known
    cases t <;> simp [TypeExpr.children]

theorem elements_undeclared (grounded : u.Grounded) {t : TypeExpr} {e : Error}
    (failed : elements u t = .error e) : e.Undeclared := by
  unfold elements at failed
  split at failed
  next =>
    split at failed
    next _ missing =>
      cases failed
      exact Universe.underlying_undeclared grounded missing
    next =>
      split at failed
      next _ shapeless =>
        cases failed
        exact Universe.shape_undeclared grounded shapeless
      next => cases failed
  next => cases failed

theorem seedType_undeclared (grounded : u.Grounded) {root : TypeExpr} {e : Error}
    (failed : seedType u root = .error e) : e.Undeclared := by
  unfold seedType at failed
  split at failed
  next =>
    split at failed
    next _ shapeless =>
      cases failed
      exact Universe.shape_undeclared grounded shapeless
    next => cases failed
  next => cases failed

def Item.expr : Item → TypeExpr
  | .type t | .parts t => t

/-- Nothing but what can be reached from `ts` is still to be looked at. -/
structure Within (u : Universe) (ts : List TypeExpr) (cfg : Config) : Prop where
  items : ∀ item ∈ cfg.stack, item.expr ∈ u.reach ts
  results : ∀ turn, cfg.turn = some turn → ∀ r ∈ turn.results, r.type ∈ u.reach ts

theorem Within.step (within : Within u ts cfg) (step : Step u scope cfg cfg') : Within u ts cfg' := by
  obtain ⟨items,results⟩ := within
  cases step with
  | leave | revisit => exact ⟨fun item member => items item (List.mem_cons_of_mem _ member),results⟩
  | @visit w c t rest =>
    refine ⟨fun item member => ?_,results⟩
    rcases List.mem_cons.mp member with rfl | later
    · exact items (.type t) List.mem_cons_self
    · exact items item (List.mem_cons_of_mem _ later)
  | @expand w t parts rest _ _ known =>
    refine ⟨fun item member => ?_,results⟩
    rcases List.mem_append.mp member with isPart | later
    · obtain ⟨x,part,rfl⟩ := List.mem_map.mp isPart
      exact elements_mem_reach known (items (.parts t) List.mem_cons_self) x part
    · exact items item (List.mem_cons_of_mem _ later)
  | raise =>
    refine ⟨items,fun turn present r member => ?_⟩
    cases present
    exact results _ rfl r (List.mem_cons_of_mem _ member)
  | @take w key status claimed r rest value =>
    constructor
    · intro item member
      obtain rfl := List.mem_singleton.mp member
      exact results _ rfl r List.mem_cons_self
    · intro turn present r member
      cases present
      exact results _ rfl r (List.mem_cons_of_mem _ member)
  | start queued found offered =>
    refine ⟨items,fun turn present r member => ?_⟩
    cases present
    obtain ⟨m,claimed,result⟩ := List.mem_flatMap.mp member
    have declared := Universe.methodSet_declares offered m (claimMethods_subset m claimed)
    exact List.mem_append_right _ (Universe.result_mem_exprs declared result)
  | finish | skip =>
    refine ⟨items,fun turn present => ?_⟩
    cases present

/-- An item that was queued gives way to at most two that were not. -/
def Item.weight : Item → Nat
  | .type _ => 1
  | .parts _ => 3

/-- What is left to do before the next type is queued or taken from the queue. -/
def Config.pending (cfg : Config) : Nat :=
  (cfg.stack.map Item.weight).sum + match cfg.turn with
    | none => 0
    | some turn => 2 * turn.results.length + 1

/-- What is left of the types that can be reached: to be queued, and then to be taken from the queue. -/
def Config.ahead (u : Universe) (ts : List TypeExpr) (cfg : Config) : Nat :=
  2 * (u.reach ts).countP (fun t => !cfg.walk.visited.contains t.key) + cfg.walk.queue.length

def Config.rank (u : Universe) (ts : List TypeExpr) (cfg : Config) : Nat × Nat :=
  (cfg.ahead u ts,cfg.pending)

theorem sum_weights (parts : List TypeExpr) : ((parts.map Item.type).map Item.weight).sum = parts.length := by
  simp [Function.comp_def,Item.weight]

theorem Within.falls (within : Within u ts cfg) (step : Step u scope cfg cfg') :
    Prod.Lex (· < ·) (· < ·) (cfg'.rank u ts) (cfg.rank u ts) := by
  cases step with
  | leave | revisit =>
    refine .right _ ?_
    simp only [Config.pending,List.map_cons,List.sum_cons,Item.weight]
    omega
  | @visit w c t rest d turn inside registered fresh =>
    have reached : t ∈ u.reach ts := within.items (.type t) List.mem_cons_self
    have fewer : (u.reach ts).countP (fun x => !(t.key :: w.visited).contains x.key) <
        (u.reach ts).countP fun x => !w.visited.contains x.key :=
      countP_lt_countP (fun _ new => by simp_all) reached (by simpa using fresh) (by simp)
    refine .left _ _ ?_
    simp only [Config.ahead,List.length_append,List.length_singleton]
    omega
  | expand known =>
    have few := length_elements known
    refine .right _ ?_
    simp only [Config.pending,List.map_append,List.sum_append,sum_weights,List.map_cons,List.sum_cons,Item.weight]
    omega
  | raise | take =>
    refine .right _ ?_
    simp only [Config.pending,List.map_cons,List.sum_cons,Item.weight,List.length_cons]
    omega
  | start queued | skip queued =>
    refine .left _ _ ?_
    simp only [Config.ahead,queued,List.length_cons]
    omega
  | finish =>
    refine .right _ ?_
    simp [Config.pending]

theorem Within.acc (within : Within u ts cfg) : Acc (Function.swap (Step u scope)) cfg := by
  have lower : WellFounded (InvImage (Prod.Lex (· < ·) (· < ·)) (Config.rank u ts)) :=
    InvImage.wf _ (Nat.lt_wfRel.wf.prod_lex Nat.lt_wfRel.wf)
  induction cfg using lower.induction with
  | _ cfg ih => exact ⟨_,fun next step => ih next (within.falls step) (within.step step)⟩

/-- No run is endless, wherever it begins. -/
theorem wellFounded_step (u : Universe) (scope : List String) :
    WellFounded (Function.swap (Step u scope)) := by
  constructor
  intro cfg
  have within : Within u (cfg.stack.map Item.expr ++
      cfg.turn.toList.flatMap fun turn => turn.results.map Param.type) cfg := by
    constructor
    · intro item member
      exact Universe.mem_reach (List.mem_append_left _ (List.mem_map_of_mem member))
    · intro turn present r member
      apply Universe.mem_reach
      simp only [present,Option.toList_some,List.flatMap_singleton]
      exact List.mem_append_right _ (List.mem_map_of_mem member)
  exact within.acc

theorem Fails.stuck {e : Error} (fails : Fails u scope cfg e) : ¬ Step u scope cfg cfg' := by
  intro step
  cases fails with
  | register inside refused => cases step <;> simp_all
  | expand refused =>
    cases step with
    | expand known =>
      rw [refused] at known
      cases known
  | start queued found refused => cases step <;> simp_all

theorem Fails.undeclared (grounded : u.Grounded) {e : Error} (fails : Fails u scope cfg e) :
    e.Undeclared := by
  cases fails with
  | @register _ t _ _ _ _ inside refused =>
    have shapeless := (Catalog.register_error_iff.mp refused).2
    unfold Descriptor.ofType at shapeless
    split at shapeless
    next _ failed =>
      cases shapeless
      exact Universe.shape_undeclared grounded failed
    next => cases shapeless
  | expand refused => exact elements_undeclared grounded refused
  | start queued found refused => exact Universe.methodSet_undeclared refused

/-- Nothing is left to do. -/
theorem finished_stuck {w : Walk} (empty : w.queue = []) : ¬ Step u scope ⟨w,[],none,none⟩ cfg' := by
  intro step
  cases step <;> simp_all

/-- Each visited type is one that can be reached, and is visited once. -/
structure Bounded (u : Universe) (scope : List String) (ts : List TypeExpr) (w : Walk) : Prop where
  once : w.visited.Nodup
  reached : ∀ key ∈ w.visited, ∃ t ∈ u.reach ts, inScope scope t = true ∧ t.key = key

theorem Bounded.length_le {w : Walk} (bounded : Bounded u scope ts w) :
    w.visited.length ≤ (u.reach ts).toFinset.card := by
  have covered : w.visited.toFinset ⊆ (u.reach ts).toFinset.image TypeExpr.key := by
    intro key member
    obtain ⟨t,reached,_,rfl⟩ := bounded.reached key (List.mem_toFinset.mp member)
    exact Finset.mem_image_of_mem _ (List.mem_toFinset.mpr reached)
  calc w.visited.length
      = w.visited.toFinset.card := (List.toFinset_card_of_nodup bounded.once).symm
    _ ≤ ((u.reach ts).toFinset.image TypeExpr.key).card := Finset.card_le_card covered
    _ ≤ (u.reach ts).toFinset.card := Finset.card_image_le

theorem Bounded.step (bounded : Bounded u scope ts cfg.walk) (within : Within u ts cfg)
    (step : Step u scope cfg cfg') : Bounded u scope ts cfg'.walk := by
  cases step with
  | @visit w c t rest d turn inside registered fresh =>
    refine ⟨List.nodup_cons.mpr ⟨fresh,bounded.once⟩,fun key member => ?_⟩
    rcases List.mem_cons.mp member with rfl | old
    · exact ⟨t,within.items (.type t) List.mem_cons_self,inside,rfl⟩
    · exact bounded.reached key old
  | leave | revisit | expand | raise | take | start | finish | skip => exact ⟨bounded.once,bounded.reached⟩

theorem Bounded.steps (bounded : Bounded u scope ts cfg.walk) (within : Within u ts cfg)
    (steps : Steps u scope cfg cfg') : Bounded u scope ts cfg'.walk := by
  suffices both : Within u ts cfg' ∧ Bounded u scope ts cfg'.walk from both.2
  induction steps with
  | refl => exact ⟨within,bounded⟩
  | tail _ last ih => exact ⟨ih.1.step last,ih.2.step ih.1 last⟩

/-- A whole walk: the root is queued, and the queue is worked off. -/
def through (u : Universe) (scope : List String) (root : TypeExpr) (c : Catalog) : Except Halt Walk :=
  match (start c).seed u scope root with
  | .error h => .error h
  | .ok w => w.drain u scope

theorem walk_eq_through (u : Universe) (root : TypeExpr) (packages : List String) :
    Analysis.walk u root packages = through u (Analysis.scopeOf root packages) root .empty := rfl

/-- The type that a walk from `root` begins with, if there is one. -/
def seeds (u : Universe) (root : TypeExpr) : List TypeExpr := (seedType u root).toOption.toList

theorem through_unseeded {root : TypeExpr} {e : Error} (refused : seedType u root = .error e)
    (c : Catalog) : through u scope root c = .error ⟨e,start c⟩ := by
  simp [through,seed,refused]

theorem through_stops {root t : TypeExpr} (seeded : seedType u root = .ok t) (c : Catalog) :
    Stops u scope ⟨start c,[.type t],none,none⟩ (through u scope root c) none none := by
  have first := queueAll_stops u scope none none [t] (start c)
  rw [← enqueue] at first
  simp only [through,seed,seeded]
  cases queued : (start c).enqueue u scope t none with
  | error h =>
    rw [queued] at first
    exact first
  | ok w =>
    rw [queued] at first
    exact (drain_stops u scope w).prepend first

theorem through_queue {root : TypeExpr} {c : Catalog} {w : Walk} (done : through u scope root c = .ok w) :
    w.queue = [] := by
  unfold through at done
  split at done
  next => cases done
  next => exact drain_queue done

/-- Where an operation stops with an empty queue, its steps cannot be continued. -/
theorem Stops.over {result : Except Halt Walk} (stops : Stops u scope cfg result none none)
    (empty : ∀ w, result = .ok w → w.queue = []) :
    ∃ last, Steps u scope cfg last ∧ (∀ next, ¬ Step u scope last next) ∧
      last.walk.catalog = (ended result).catalog ∧ last.walk.visited = (ended result).visited ∧
      ∀ h, result = .error h → Fails u scope last h.error := by
  cases result with
  | ok w => exact ⟨_,stops,fun _ => finished_stuck (empty w rfl),rfl,rfl,fun h failed => by cases failed⟩
  | error h =>
    obtain ⟨last,steps,fails,catalog,visited⟩ := stops
    refine ⟨last,steps,fun _ => fails.stuck,catalog,visited,fun h' same => ?_⟩
    cases same
    exact fails

/-- Where references and names make no cycle, a walk ends, and it fails only over what is not declared. It visits
nothing but what lies below its seed or is declared in the universe, each type once. -/
theorem ends_of_grounded (grounded : u.Grounded) (scope : List String) (root : TypeExpr) (c : Catalog) :
    (∀ t, Acc (Function.swap u.Refers) t) ∧ WellFounded (Function.swap (Step u scope)) ∧
      (∀ t ∈ seeds u root, ∃ last, Steps u scope ⟨start c,[.type t],none,none⟩ last ∧
        (∀ next, ¬ Step u scope last next) ∧
        last.walk.catalog = (ended (through u scope root c)).catalog ∧
        last.walk.visited = (ended (through u scope root c)).visited) ∧
      (∀ h, through u scope root c = .error h → h.error.Undeclared) ∧
      Bounded u scope (seeds u root) (ended (through u scope root c)) ∧
      (ended (through u scope root c)).visited.length ≤ (u.reach (seeds u root)).toFinset.card := by
  refine ⟨Universe.acc_refers grounded,wellFounded_step u scope,?_⟩
  have blank (ts : List TypeExpr) : Bounded u scope ts (start c) :=
    ⟨List.nodup_nil,fun _ member => absurd member List.not_mem_nil⟩
  cases seeded : seedType u root with
  | error e =>
    have none : seeds u root = [] := by simp [seeds,seeded,Except.toOption]
    rw [through_unseeded seeded c,none]
    refine ⟨fun t seed => absurd seed List.not_mem_nil,fun h failed => ?_,blank [],(blank []).length_le⟩
    cases failed
    exact seedType_undeclared grounded seeded
  | ok t =>
    have one : seeds u root = [t] := by simp [seeds,seeded,Except.toOption]
    have stops : Stops u scope ⟨start c,[.type t],none,none⟩ (through u scope root c) none none :=
      through_stops seeded c
    obtain ⟨last,steps,stuck,catalog,visited,fails⟩ := stops.over fun w done => through_queue done
    have within : Within u [t] ⟨start c,[.type t],none,none⟩ := by
      refine ⟨fun item member => ?_,fun turn present => by cases present⟩
      obtain rfl := List.mem_singleton.mp member
      exact Universe.mem_reach List.mem_cons_self
    have bounded : Bounded u scope [t] (ended (through u scope root c)) := by
      obtain ⟨once,reached⟩ := (blank [t]).steps within steps
      rw [visited] at once reached
      exact ⟨once,reached⟩
    rw [one]
    refine ⟨fun t' seed => ?_,fun h failed => (fails h failed).undeclared grounded,bounded,bounded.length_le⟩
    obtain rfl := List.mem_singleton.mp seed
    exact ⟨last,steps,stuck,catalog,visited⟩

end Walk

namespace Tree

def tree : NamedType := ⟨"p","Tree"⟩

/-- A map to lists of itself, which gives out references to itself. -/
def types : Universe := ⟨[⟨"p","p",[
  ⟨"Tree",.other,.map (.basic "string") (.slice (.named tree)),[],
    [⟨"Walk",false,none,Sample.returning [.chan .both (.pointer (.named tree)),.error]⟩]⟩]⟩]⟩

open Evaluation in
theorem seeds_tree : Walk.seeds types (.named tree) = [.pointer (.named tree)] := by
  have stands : types.underlying tree = .ok (.map (.basic "string") (.slice (.named tree))) := by decide +kernel
  simp [Walk.seeds,stands,Except.toOption]

end Tree

theorem Walk.tree_ends : Tree.types.Grounded ∧
    (∃ last, Steps Tree.types ["p"] ⟨start .empty,[.type (.pointer (.named Tree.tree))],none,none⟩ last ∧
      ∀ next, ¬ Step Tree.types ["p"] last next) ∧
    (ended (Analysis.walk Tree.types (.named Tree.tree) [])).visited.length ≤ 7 := by
  have grounded : Tree.types.Grounded := Universe.grounded_of_composite (by decide)
  obtain ⟨_,_,runs,_,_,few⟩ := ends_of_grounded grounded ["p"] (.named Tree.tree) .empty
  rw [Tree.seeds_tree] at runs few
  obtain ⟨last,steps,stuck,_⟩ := runs _ List.mem_cons_self
  refine ⟨grounded,⟨last,steps,stuck⟩,few.trans ?_⟩
  decide

end ProxyGen
