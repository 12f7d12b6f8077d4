import ProxyGen.Proofs.Claims
import ProxyGen.Proofs.Propagation
import ProxyGen.Proofs.WalkSteps

/-! The catalogs that walks build. They are well formed, whatever they have been through, and no type that
is not an interface becomes soft: a walk raises a type only to the status of its turn. -/
namespace ProxyGen
namespace Catalog

theorem softOnlyInterfaces_register {u : Universe} {c c' : Catalog} {t : TypeExpr}
    {dependent : Option String} (soft : c.SoftOnlyInterfaces)
    (ok : c.register u t dependent = .ok c') : c'.SoftOnlyInterfaces := by
  intro e member isSoft
  rcases register_cases ok with ⟨_,rfl⟩ | ⟨_,c₁,new,rfl⟩
  · rw [entries_link] at member
    exact soft e member isSoft
  · rw [entries_link] at member
    rcases new.entry_cases member with old | ⟨_,_,_,blank,_⟩
    · exact soft e old isSoft
    · rw [blank] at isSoft
      cases isSoft

theorem softOnlyInterfaces_raise {c : Catalog} (soft : c.SoftOnlyInterfaces) {key : String}
    {s : Status} (concrete : ∀ e ∈ c.entries, e.key = key → s = .soft → e.descriptor.kind = .interface) :
    (c.raise key s).SoftOnlyInterfaces := by
  intro e' member
  obtain ⟨e,present,rfl⟩ := List.mem_map.mp member
  by_cases same : e.key = key
  · simp only [same,beq_self_eq_true,if_true,Entry.raise]
    split
    · exact concrete e present same
    · exact soft e present
  · simp only [beq_eq_false_iff_ne.mpr same,Bool.false_eq_true,if_false]
    exact soft e present

theorem softOnlyInterfaces_list {c : Catalog} (soft : c.SoftOnlyInterfaces) (key : String)
    (methods : List Selection) :
    (c.modifyEntry key fun e => { e with methods := e.methods ++ methods }).SoftOnlyInterfaces := by
  intro e' member
  obtain ⟨e,present,rfl⟩ := List.mem_map.mp member
  split <;> exact soft e present

end Catalog

namespace Walk

theorem errorStatus_soft {kind : Kind} {methods : List Selection}
    (isSoft : errorStatus kind methods = .soft) : kind = .interface := by
  unfold errorStatus at isSoft
  split at isSoft
  next both => exact both.1
  next => cases isSoft

/-- What holds of a walk at any time. The status of a turn is that of a type with an error result. -/
structure Sound (u : Universe) (cfg : Config) : Prop where
  good : cfg.walk.catalog.WellFormed u
  soft : cfg.walk.catalog.SoftOnlyInterfaces
  dependent : ∀ d, cfg.dependent = some d → d ∈ cfg.walk.catalog.keys
  turn : ∀ t, cfg.turn = some t → ∃ e methods, cfg.walk.catalog.entry? t.key = some e ∧
    u.methodSet e.descriptor.type = .ok methods ∧ t.status = errorStatus e.descriptor.kind methods

namespace Sound
variable {u : Universe} {scope : List String}

theorem register {w : Walk} {t : TypeExpr} {stack stack' : List Item} {d : Option String}
    {turn : Option Turn} {c : Catalog} {queue visited : List String}
    (sound : Sound u ⟨w,stack,d,turn⟩) (registered : w.catalog.register u t d = .ok c) :
    Sound u ⟨⟨c,queue,visited⟩,stack',d,turn⟩ where
  good := sound.good.register sound.dependent registered
  soft := Catalog.softOnlyInterfaces_register sound.soft registered
  dependent k target := (Catalog.mem_keys_register registered).2 k (sound.dependent k target)
  turn t present := by
    obtain ⟨e,methods,found,facts⟩ := sound.turn t present
    exact ⟨e,methods,Catalog.entry?_register registered found,facts⟩

theorem raise {w : Walk} {key : String} {status : Status} {claimed : List Selection}
    {results : List Param} {turn : Turn}
    (sound : Sound u ⟨w,[],some key,some ⟨key,status,claimed,results⟩⟩)
    (same : turn.key = key ∧ turn.status = status) :
    Sound u ⟨{ w with catalog := w.catalog.raise key status },[],some key,some turn⟩ := by
  have keyKept (e : Entry) : (e.raise status).key = e.key := Catalog.raise_key e status
  obtain ⟨e,methods,found,known,equal⟩ := sound.turn _ rfl
  constructor
  · exact sound.good.modifyEntry key fun e => Catalog.raise_keeps e status
  · apply Catalog.softOnlyInterfaces_raise sound.soft
    intro x member here isSoft
    have this : w.catalog.entry? key = some x := by
      rw [← here]
      exact Catalog.entry?_of_mem sound.good.distinct member
    rw [found] at this
    cases this
    exact errorStatus_soft (equal.symm.trans isSoft)
  · intro d target
    have inside := sound.dependent d target
    simp only [Catalog.raise,Catalog.keys_modifyEntry w.catalog key keyKept]
    exact inside
  · intro t present
    cases present
    refine ⟨e.raise status,methods,?_,?_⟩
    · simp only [Catalog.raise,Catalog.entry?_modifyEntry w.catalog key keyKept]
      rw [same.1,found]
      simp
    · rw [(Catalog.raise_keeps e status).1,same.2]
      exact ⟨known,equal⟩

theorem start {w : Walk} {key : String} {rest : List String} {e : Entry}
    {methods : List Selection} {turn : Turn} (sound : Sound u ⟨w,[],none,none⟩)
    (found : w.catalog.entry? key = some e) (known : u.methodSet e.descriptor.type = .ok methods)
    (same : turn.key = key ∧ turn.status = errorStatus e.descriptor.kind methods) :
    Sound u ⟨{ w with queue := rest, catalog := (claimMethods w.catalog e methods).1 },[],some key,
      some turn⟩ := by
  obtain ⟨member,_⟩ := Catalog.entry?_some found
  have distinct := Universe.methodSet_nodup known
  have grants := claimMethods_grants sound.good member distinct
  constructor
  · exact wellFormed_claimMethods sound.good member distinct
  · intro x present
    rw [grants.entries] at present
    exact sound.soft x present
  · intro d target
    cases target
    apply Catalog.mem_keys_of_found (e := e)
    rw [grants.entry?_eq,found]
  · intro t present
    cases present
    exact ⟨e,methods,by rw [same.1,grants.entry?_eq,found],known,same.2⟩

theorem step {cfg cfg' : Config} (sound : Sound u cfg) (step : Step u scope cfg cfg') :
    Sound u cfg' := by
  cases step with
  | leave outside => exact ⟨sound.good,sound.soft,sound.dependent,sound.turn⟩
  | revisit inside registered visited => exact sound.register registered
  | visit inside registered fresh => exact sound.register registered
  | expand known => exact ⟨sound.good,sound.soft,sound.dependent,sound.turn⟩
  | raise error => exact sound.raise ⟨rfl,rfl⟩
  | take value =>
    refine ⟨sound.good,sound.soft,sound.dependent,?_⟩
    intro t present
    cases present
    have taken := sound.turn _ rfl
    exact taken
  | start queued found offered => exact sound.start found offered ⟨rfl,rfl⟩
  | finish =>
    refine ⟨sound.good.modifyEntry _ fun _ => ⟨rfl,rfl⟩,Catalog.softOnlyInterfaces_list sound.soft _ _,
      ?_,?_⟩
    · intro d target
      cases target
    · intro t present
      cases present
  | skip queued missing => exact ⟨sound.good,sound.soft,sound.dependent,sound.turn⟩

theorem steps {cfg cfg' : Config} (sound : Sound u cfg) (steps : Steps u scope cfg cfg') :
    Sound u cfg' := by
  induction steps with
  | refl => exact sound
  | tail _ last ih => exact ih.step last

end Sound

/-- The walk that an operation leaves behind, finished or not. -/
def ended : Except Halt Walk → Walk
  | .ok w => w
  | .error h => h.walk

/-- The walks there can be. Each starts from the empty catalog or from one that another walk has left
behind. -/
inductive Built (u : Universe) : Walk → Prop
  | empty : Built u (start .empty)
  | renew {w} (built : Built u w) : Built u (start w.catalog)
  | seed {w} (scope root) (built : Built u w) : Built u (ended (w.seed u scope root))
  | enqueue {w} (scope t dependent) (built : Built u w)
      (known : ∀ d, dependent = some d → d ∈ w.catalog.keys) :
      Built u (ended (w.enqueue u scope t dependent))
  | drain {w} (scope) (built : Built u w) : Built u (ended (w.drain u scope))

/-- Between turns a good catalog is all it takes. -/
theorem Sound.between {u : Universe} {w : Walk} {stack : List Item} {dependent : Option String}
    (good : w.catalog.WellFormed u ∧ w.catalog.SoftOnlyInterfaces)
    (known : ∀ d, dependent = some d → d ∈ w.catalog.keys) :
    Sound u ⟨w,stack,dependent,none⟩ where
  good := good.1
  soft := good.2
  dependent := known
  turn _ present := by cases present

theorem Leads.built {u : Universe} {scope : List String} {cfg : Config} {result : Except Halt Walk}
    {dependent : Option String} {turn : Option Turn} (leads : Leads u scope cfg result dependent turn)
    (sound : Sound u cfg) :
    (ended result).catalog.WellFormed u ∧ (ended result).catalog.SoftOnlyInterfaces := by
  cases result with
  | ok w =>
    have after := sound.steps leads
    exact ⟨after.good,after.soft⟩
  | error h =>
    obtain ⟨last,steps,same⟩ := leads
    have after := sound.steps steps
    rw [ended,← same]
    exact ⟨after.good,after.soft⟩

theorem enqueue_leads (u : Universe) (scope : List String) (t : TypeExpr) (dependent : Option String)
    (w : Walk) :
    Leads u scope ⟨w,[.type t],dependent,none⟩ (w.enqueue u scope t dependent) dependent none :=
  queueAll_leads u scope dependent none [t] w

/-- Catalogs are good whatever walks have gone through them. -/
theorem Built.good {u : Universe} {w : Walk} (built : Built u w) :
    w.catalog.WellFormed u ∧ w.catalog.SoftOnlyInterfaces := by
  induction built with
  | empty =>
    refine ⟨Catalog.wellFormed_empty u,?_⟩
    intro e member
    cases member
  | renew _ ih => exact ih
  | @seed w scope root _ ih =>
    simp only [Walk.seed]
    cases seedType u root with
    | error e => exact ih
    | ok t =>
      exact (enqueue_leads u scope t none w).built (.between ih fun _ target => by cases target)
  | enqueue scope t dependent _ known ih =>
    exact (enqueue_leads u scope t dependent _).built (.between ih known)
  | drain scope _ ih =>
    exact (drain_leads u scope _).built (.between ih fun _ target => by cases target)

end Walk
end ProxyGen
