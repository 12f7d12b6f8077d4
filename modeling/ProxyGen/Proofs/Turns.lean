import ProxyGen.Proofs.Exploration
import ProxyGen.Proofs.Ownership

/-! The turns of a walk. Its ledger shows each entry with what it was granted so far, and the results of what
is listed there have been taken, stand on the stack, or are still to be taken in the present turn. -/
namespace ProxyGen

namespace Catalog

/-- What a type returns has been dealt with: it has the status of an error result, or the type of the result
is entered and known to be mentioned. -/
def Answered (u : Universe) (scope : List String) (c : Catalog) (e : Entry) (r : Param) : Prop :=
  if r.type.isError = true then
    ∃ methods, u.methodSet e.descriptor.type = .ok methods ∧
      Walk.errorStatus e.descriptor.kind methods ≤ c.statusOf e.key
  else Walk.inScope scope r.type = true → r.type.key ∈ c.keys ∧ (r.type.key,e.key) ∈ c.edges

/-- Nothing is taken back. -/
structure Grows (c c' : Catalog) : Prop where
  keys : ∀ key ∈ c.keys, key ∈ c'.keys
  edges : ∀ edge ∈ c.edges, edge ∈ c'.edges
  statuses : c.statusOf ≤ c'.statusOf

theorem Grows.answered {c c' : Catalog} (grows : c.Grows c') {u : Universe} {scope : List String}
    {e e' : Entry} {r : Param} (answered : c.Answered u scope e r)
    (same : e.descriptor = e'.descriptor) : c'.Answered u scope e' r := by
  have key : e.key = e'.key := congrArg Descriptor.key same
  unfold Answered at answered ⊢
  rw [← same,← key]
  split at answered
  next error =>
    obtain ⟨methods,known,reached⟩ := answered
    rw [if_pos error]
    exact ⟨methods,known,le_trans reached (grows.statuses e.key)⟩
  next value =>
    rw [if_neg value]
    intro inside
    obtain ⟨entered,edge⟩ := answered inside
    exact ⟨grows.keys _ entered,grows.edges _ edge⟩

theorem answered_register {u : Universe} {scope : List String} {c c' : Catalog} {e : Entry} {r : Param}
    (value : r.type.isError = false) (ok : c.register u r.type (some e.key) = .ok c') :
    c'.Answered u scope e r := by
  unfold Answered
  rw [value,if_neg Bool.false_ne_true]
  intro _
  exact ⟨(mem_keys_register ok).1,(mem_edges_register ok).mpr (.inr ⟨rfl,rfl⟩)⟩

/-- Nothing has to be done for a result whose type is out of scope. -/
theorem answered_outside {u : Universe} {scope : List String} (c : Catalog) (e : Entry) {r : Param}
    (value : r.type.isError = false) (outside : Walk.inScope scope r.type = false) :
    c.Answered u scope e r := by
  unfold Answered
  rw [value,if_neg Bool.false_ne_true,outside]
  exact fun inside => absurd inside Bool.false_ne_true

theorem grows_refl (c : Catalog) : c.Grows c := ⟨fun _ => id,fun _ => id,le_refl _⟩

theorem grows_register {u : Universe} {c c' : Catalog} {t : TypeExpr} {dependent : Option String}
    (ok : c.register u t dependent = .ok c') : c.Grows c' where
  keys := (mem_keys_register ok).2
  edges _ present := (mem_edges_register ok).mpr (.inl present)
  statuses key := le_of_eq (statusOf_register ok key).symm

theorem statusOf_raise_other (c : Catalog) {key other : String} (s : Status) (different : other ≠ key) :
    (c.raise key s).statusOf other = c.statusOf other := by
  unfold statusOf raise
  rw [entry?_modifyEntry c key (fun e => raise_key e s),if_neg different]

theorem statusOf_raise_self {c : Catalog} {key : String} {s : Status} (known : key ∈ c.keys) :
    c.statusOf key ≤ (c.raise key s).statusOf key ∧ s ≤ (c.raise key s).statusOf key ∧
      ((c.raise key s).statusOf key = c.statusOf key ∨ (c.raise key s).statusOf key = s) := by
  unfold statusOf raise
  rw [entry?_modifyEntry c key (fun e => raise_key e s),if_pos rfl]
  cases found : c.entry? key with
  | none => exact absurd known (entry?_none.mp found)
  | some e =>
    simp only [Option.map_some,Option.getD_some,Entry.raise]
    split
    next lower => exact ⟨le_of_lt lower,le_refl s,.inr rfl⟩
    next reached => exact ⟨le_refl _,Status.not_lt_iff_le.mp reached,.inl rfl⟩

theorem grows_raise (c : Catalog) {key : String} (s : Status) (known : key ∈ c.keys) :
    c.Grows (c.raise key s) where
  keys k present := by
    unfold raise
    rw [keys_modifyEntry c key fun e => raise_key e s]
    exact present
  edges _ present := present
  statuses k := by
    by_cases same : k = key
    · subst same
      exact (statusOf_raise_self known).1
    · exact le_of_eq (statusOf_raise_other c s same).symm

theorem statusOf_list (c : Catalog) (key : String) (methods : List Selection) (k : String) :
    (c.modifyEntry key fun e => { e with methods := e.methods ++ methods }).statusOf k =
      c.statusOf k := by
  unfold statusOf
  rw [entry?_modifyEntry c key (f := fun e => { e with methods := e.methods ++ methods })
    (fun _ => rfl)]
  split
  · cases c.entry? k <;> rfl
  · rfl

theorem grows_list (c : Catalog) (key : String) (methods : List Selection) :
    c.Grows (c.modifyEntry key fun e => { e with methods := e.methods ++ methods }) where
  keys k present := by
    rw [keys_modifyEntry c key (f := fun e => { e with methods := e.methods ++ methods })
      fun _ => rfl]
    exact present
  edges _ present := present
  statuses k := le_of_eq (statusOf_list c key methods k).symm

end Catalog

namespace Walk

theorem Grants.statusOf {c c' : Catalog} {e : Entry} {methods granted : List Selection}
    (grants : Grants c e methods c' granted) : c'.statusOf = c.statusOf := by
  funext key
  rw [Catalog.statusOf,grants.entry?_eq,Catalog.statusOf]

theorem Grants.grows {c c' : Catalog} {e : Entry} {methods granted : List Selection}
    (grants : Grants c e methods c' granted) : c.Grows c' where
  keys key present := by
    rw [Catalog.keys,grants.entries]
    exact present
  edges edge present := by
    rw [grants.edges]
    exact present
  statuses := le_of_eq grants.statusOf.symm

/-- What the type of a key was granted in the present turn. -/
def Config.granted (cfg : Config) (key : String) : List Selection :=
  match cfg.turn with
  | none => []
  | some t => if t.key = key then t.claimed else []

/-- An entry with what it was granted, listed or not. Its status may still rise and is left out. -/
def Config.settled (cfg : Config) (e : Entry) : Entry :=
  { e with status := .none, methods := e.methods ++ cfg.granted e.key }

def Config.ledger (cfg : Config) : List Entry := cfg.walk.catalog.entries.map cfg.settled

/-- A result that is still to be taken, or that is on the stack. -/
def Config.Owes (cfg : Config) (key : String) (r : Param) : Prop :=
  (∃ t, cfg.turn = some t ∧ t.key = key ∧ r ∈ t.results) ∨
    cfg.dependent = some key ∧ r.type.isError = false ∧ Item.type r.type ∈ cfg.stack

theorem ledger_keys (cfg : Config) : cfg.ledger.map Entry.key = cfg.walk.catalog.keys := by
  rw [Config.ledger,List.map_map]
  rfl

section Ledger
variable {u : Universe} {w : Walk} {d : Option String}

theorem ledger_link (source : String) (stack stack' : List Item) (turn : Option Turn) :
    Config.ledger ⟨{ w with catalog := w.catalog.link source d },stack',d,turn⟩ =
      Config.ledger ⟨w,stack,d,turn⟩ := by
  unfold Config.ledger
  rw [Catalog.entries_link]
  rfl

theorem ledger_raise (key : String) (status : Status) (claimed : List Selection) (r : Param)
    (rest : List Param) :
    Config.ledger ⟨{ w with catalog := w.catalog.raise key status },[],some key,
        some ⟨key,status,claimed,rest⟩⟩ =
      Config.ledger ⟨w,[],some key,some ⟨key,status,claimed,r :: rest⟩⟩ := by
  simp only [Config.ledger,Catalog.raise,Catalog.modifyEntry,List.map_map]
  apply List.map_congr_left
  intro e _
  simp only [Function.comp_apply,Config.settled,Config.granted]
  split
  · rw [Catalog.raise_key]
    unfold Entry.raise
    split <;> rfl
  · rfl

theorem ledger_finish (key : String) (status : Status) (claimed : List Selection) :
    Config.ledger ⟨{ w with catalog := w.catalog.modifyEntry key fun e =>
        { e with methods := e.methods ++ claimed } },[],none,none⟩ =
      Config.ledger ⟨w,[],some key,some ⟨key,status,claimed,[]⟩⟩ := by
  simp only [Config.ledger,Catalog.modifyEntry,List.map_map]
  apply List.map_congr_left
  intro e _
  by_cases same : e.key = key
  · simp [Config.settled,Config.granted,same]
  · simp [Config.settled,Config.granted,same,Ne.symm same]

/-- At the start of its turn a type is granted what it lists at the end. -/
theorem ledger_start {c : Catalog} {e : Entry} {methods granted : List Selection}
    (grants : Grants w.catalog e methods c granted) (key : String) (status : Status)
    (results : List Param) (queue : List String) :
    Config.ledger ⟨⟨c,queue,w.visited⟩,[],some key,some ⟨key,status,granted,results⟩⟩ =
      (Config.ledger ⟨w,[],none,none⟩).map (Settled.listing key granted) := by
  simp only [Config.ledger,grants.entries,List.map_map]
  apply List.map_congr_left
  intro x _
  by_cases same : x.key = key
  · have here : x.descriptor.key = key := same
    simp [Config.settled,Config.granted,Settled.listing,Entry.key,here]
  · have other : x.descriptor.key ≠ key := same
    simp [Config.settled,Config.granted,Settled.listing,Entry.key,other,Ne.symm other]

end Ledger

section Register
variable {u : Universe} {scope : List String} {w : Walk} {t : TypeExpr} {rest : List Item}
  {d : Option String} {turn : Option Turn} {c : Catalog}

theorem ledger_revisit (explored : Explored u scope ⟨w,.type t :: rest,d,turn⟩)
    (registered : w.catalog.register u t d = .ok c) (visited : t.key ∈ w.visited) :
    Config.ledger ⟨{ w with catalog := c },rest,d,turn⟩ =
        Config.ledger ⟨w,.type t :: rest,d,turn⟩ ∧ c.claim? = w.catalog.claim? := by
  obtain rfl := explored.revisited registered visited
  refine ⟨ledger_link t.key _ rest turn,?_⟩
  funext root name
  exact Catalog.claim?_link w.catalog t.key d root name

/-- A type that is new to the walk comes without claims and is not the one whose turn it is. -/
theorem ledger_visit (sound : Sound u ⟨w,.type t :: rest,d,turn⟩)
    (explored : Explored u scope ⟨w,.type t :: rest,d,turn⟩)
    (registered : w.catalog.register u t d = .ok c) (fresh : t.key ∉ w.visited) :
    t.key ∉ w.catalog.keys ∧ c.claim? = w.catalog.claim? ∧
    ∃ e, e.key = t.key ∧ e.descriptor.type = t ∧ e.methods = [] ∧
      Config.ledger ⟨⟨c,w.queue ++ [t.key],t.key :: w.visited⟩,.parts t :: rest,d,turn⟩ =
        Config.ledger ⟨w,.type t :: rest,d,turn⟩ ++ [e] := by
  have absent : t.key ∉ w.catalog.keys := fun known => fresh (explored.mem_keys_iff.mp known)
  obtain ⟨c₁,new,rfl⟩ := explored.entered registered fresh
  refine ⟨absent,?_,?_⟩
  · funext root name
    rw [Catalog.claim?_link,new.claims]
  · obtain ⟨desc,known,equal⟩ := new.entries
    obtain ⟨key,type⟩ := Catalog.ofType_key known
    refine ⟨⟨desc,t.root.key,.none,[]⟩,key,type,rfl,?_⟩
    have blank : Config.granted ⟨⟨c₁.link t.key d,w.queue ++ [t.key],t.key :: w.visited⟩,
        .parts t :: rest,d,turn⟩ t.key = [] := by
      unfold Config.granted
      split
      next => rfl
      next tn present =>
        apply if_neg
        intro same
        obtain ⟨e,_,found,_⟩ := sound.turn tn present
        rw [same] at found
        exact absent (Catalog.mem_keys_of_found found)
    simp only [Config.ledger,Catalog.entries_link,equal,List.map_append,List.map_cons,
      List.map_nil]
    simp only [Config.settled,Entry.key,key,blank]
    rfl

end Register

section Step
variable {u : Universe} {scope : List String} {cfg cfg' : Config}

theorem grows_step (sound : Sound u cfg) (step : Step u scope cfg cfg') :
    cfg.walk.catalog.Grows cfg'.walk.catalog := by
  cases step with
  | leave outside => exact Catalog.grows_refl _
  | revisit inside registered visited => exact Catalog.grows_register registered
  | visit inside registered fresh => exact Catalog.grows_register registered
  | expand known => exact Catalog.grows_refl _
  | raise error => exact Catalog.grows_raise _ _ (sound.dependent _ rfl)
  | take value => exact Catalog.grows_refl _
  | start queued found offered =>
    exact (claimMethods_grants sound.good (Catalog.entry?_some found).1
      (Universe.methodSet_nodup offered)).grows
  | finish => exact Catalog.grows_list _ _ _
  | skip queued missing => exact Catalog.grows_refl _

theorem settled_step (sound : Sound u cfg) (explored : Explored u scope cfg)
    (settled : Settled u cfg.walk.catalog.claim? cfg.ledger cfg.walk.queue)
    (step : Step u scope cfg cfg') :
    Settled u cfg'.walk.catalog.claim? cfg'.ledger cfg'.walk.queue := by
  cases step with
  | leave outside => exact settled
  | revisit inside registered visited =>
    obtain ⟨equal,claims⟩ := ledger_revisit explored registered visited
    rw [equal,claims]
    exact settled
  | visit inside registered fresh =>
    obtain ⟨absent,claims,e,key,_,idle,equal⟩ := ledger_visit sound explored registered fresh
    have appended := settled.append (by rw [ledger_keys,key]; exact absent) idle
    rw [key] at appended
    rw [equal,claims]
    exact appended
  | expand known => exact settled
  | raise error =>
    rw [ledger_raise]
    exact settled
  | take value => exact settled
  | @start w key rest e methods queued found offered =>
    obtain ⟨member,rfl⟩ := Catalog.entry?_some found
    have grants := claimMethods_grants sound.good member (Universe.methodSet_nodup offered)
    rw [ledger_start grants]
    change Settled u w.catalog.claim? _ w.queue at settled
    rw [queued] at settled
    exact settled.turn (List.mem_map_of_mem member) ⟨rfl,rfl⟩ offered grants
  | finish =>
    rw [ledger_finish]
    exact settled
  | @skip w key rest queued missing =>
    exfalso
    have waiting : key ∈ w.queue := by simp [queued]
    have known := settled.order.subset waiting
    rw [ledger_keys] at known
    exact Catalog.entry?_none.mp missing known

/-- An entry of the ledger is new, with nothing to its name, or it was there and lists what it listed, and
what it was granted now, of which all results are still to be taken. -/
theorem ledger_origin (sound : Sound u cfg) (explored : Explored u scope cfg)
    (step : Step u scope cfg cfg') {e' : Entry} (member : e' ∈ cfg'.ledger) :
    (e'.methods = [] ∧ cfg'.walk.catalog.statusOf e'.key = .none) ∨
    ∃ e ∈ cfg.ledger, e.descriptor = e'.descriptor ∧ (∀ m ∈ e.methods, m ∈ e'.methods) ∧
      ∀ m ∈ e'.methods, m ∈ e.methods ∨ ∀ r ∈ m.signature.results, cfg'.Owes e'.key r := by
  have kept (equal : cfg'.ledger = cfg.ledger) : ∃ e ∈ cfg.ledger, e.descriptor = e'.descriptor ∧
      (∀ m ∈ e.methods, m ∈ e'.methods) ∧
      ∀ m ∈ e'.methods, m ∈ e.methods ∨ ∀ r ∈ m.signature.results, cfg'.Owes e'.key r :=
    ⟨e',equal ▸ member,rfl,fun _ => id,fun _ inside => .inl inside⟩
  cases step with
  | leave outside => exact .inr (kept rfl)
  | revisit inside registered visited =>
    exact .inr (kept (ledger_revisit explored registered visited).1)
  | @visit w c t rest d turn inside registered fresh =>
    obtain ⟨absent,_,e,key,_,idle,equal⟩ := ledger_visit sound explored registered fresh
    rw [equal] at member
    rcases List.mem_append.mp member with old | isNew
    · exact .inr ⟨e',old,rfl,fun _ => id,fun _ inside => .inl inside⟩
    · left
      rw [List.mem_singleton.mp isNew,key]
      refine ⟨idle,?_⟩
      exact (Catalog.statusOf_register registered t.key).trans (Catalog.statusOf_of_not_mem absent)
  | expand known => exact .inr (kept rfl)
  | raise error => exact .inr (kept (ledger_raise _ _ _ _ _))
  | take value => exact .inr (kept rfl)
  | @start w key rest e methods queued found offered =>
    right
    obtain ⟨present,rfl⟩ := Catalog.entry?_some found
    have grants := claimMethods_grants sound.good present (Universe.methodSet_nodup offered)
    rw [ledger_start grants] at member
    obtain ⟨x,inside,rfl⟩ := List.mem_map.mp member
    refine ⟨x,inside,(Settled.listing_keeps _ _ x).1.symm,?_,?_⟩
    · intro m listed
      unfold Settled.listing
      split
      · exact List.mem_append_left _ listed
      · exact listed
    · intro m listed
      rw [Settled.listing_key]
      by_cases same : x.key = e.key
      · rw [← same,Settled.listing_self] at listed
        apply (List.mem_append.mp listed).imp_right
        intro granted r result
        left
        exact ⟨_,rfl,same.symm,List.mem_flatMap.mpr ⟨m,granted,result⟩⟩
      · rw [Settled.listing_other same] at listed
        exact .inl listed
  | finish => exact .inr (kept (ledger_finish _ _ _))
  | skip queued missing => exact .inr (kept rfl)

theorem turn_entry (sound : Sound u cfg) {t : Turn} (present : cfg.turn = some t) {e : Entry}
    (member : e ∈ cfg.ledger) (same : t.key = e.key) :
    (∀ m ∈ t.claimed, m ∈ e.methods) ∧ ∃ methods, u.methodSet e.descriptor.type = .ok methods ∧
      t.status = errorStatus e.descriptor.kind methods := by
  obtain ⟨x,inside,rfl⟩ := List.mem_map.mp member
  have key : t.key = x.key := same
  constructor
  · intro m claimed
    apply List.mem_append_right
    simp only [Config.granted,present,key,if_true]
    exact claimed
  · obtain ⟨y,methods,found,facts⟩ := sound.turn t present
    rw [key,Catalog.entry?_of_mem sound.good.distinct inside] at found
    cases found
    exact ⟨methods,facts⟩

/-- A result that the present turn has not come to yet is still to be taken after a step, or it has been
put on the stack, or it was an error result and has raised the type of the turn. -/
theorem later_step (sound : Sound u cfg) (step : Step u scope cfg cfg') {e : Entry}
    (member : e ∈ cfg.ledger) {r : Param} {t : Turn} (present : cfg.turn = some t)
    (same : t.key = e.key) (later : r ∈ t.results) :
    cfg'.Owes e.key r ∨ cfg'.walk.catalog.Answered u scope e r := by
  cases step with
  | leave | revisit | visit | expand => exact .inl (.inl ⟨t,present,same,later⟩)
  | raise error =>
    obtain ⟨_,methods,known,status⟩ := turn_entry sound present member same
    cases present
    rcases List.mem_cons.mp later with rfl | later
    · right
      unfold Catalog.Answered
      rw [if_pos error]
      refine ⟨methods,known,?_⟩
      rw [← status,← same]
      exact (Catalog.statusOf_raise_self (sound.dependent _ rfl)).2.1
    · exact .inl (.inl ⟨_,rfl,same,later⟩)
  | take value =>
    cases present
    rcases List.mem_cons.mp later with rfl | later
    · exact .inl (.inr ⟨congrArg some same,value,List.mem_singleton_self _⟩)
    · exact .inl (.inl ⟨_,rfl,same,later⟩)
  | finish =>
    cases present
    cases later
  | start | skip => cases present

/-- A result on the stack stays there until the walk looks at its type. -/
theorem stacked_step (step : Step u scope cfg cfg') {e : Entry} {r : Param}
    (target : cfg.dependent = some e.key) (value : r.type.isError = false)
    (stacked : Item.type r.type ∈ cfg.stack) :
    cfg'.Owes e.key r ∨ cfg'.walk.catalog.Answered u scope e r := by
  cases step with
  | leave outside =>
    rcases List.mem_cons.mp stacked with here | below
    · cases here
      exact .inr (Catalog.answered_outside _ e value outside)
    · exact .inl (.inr ⟨target,value,below⟩)
  | revisit inside registered visited =>
    rcases List.mem_cons.mp stacked with here | below
    · cases here
      cases target
      exact .inr (Catalog.answered_register value registered)
    · exact .inl (.inr ⟨target,value,below⟩)
  | visit inside registered fresh =>
    rcases List.mem_cons.mp stacked with here | below
    · cases here
      cases target
      exact .inr (Catalog.answered_register value registered)
    · exact .inl (.inr ⟨target,value,List.mem_cons_of_mem _ below⟩)
  | expand known =>
    rcases List.mem_cons.mp stacked with here | below
    · cases here
    · exact .inl (.inr ⟨target,value,List.mem_append_right _ below⟩)
  | raise | take | start | finish | skip => cases stacked

/-- A result that is owed stays owed until it is answered. -/
theorem owes_step (sound : Sound u cfg) (step : Step u scope cfg cfg') {e : Entry}
    (member : e ∈ cfg.ledger) {r : Param} (owes : cfg.Owes e.key r) :
    cfg'.Owes e.key r ∨ cfg'.walk.catalog.Answered u scope e r := by
  rcases owes with ⟨t,present,same,later⟩ | ⟨target,value,stacked⟩
  · exact later_step sound step member present same later
  · exact stacked_step step target value stacked

/-- Only the type whose turn it is can be raised, and only for an error result. -/
theorem status_step (sound : Sound u cfg) (step : Step u scope cfg cfg') (key : String) :
    cfg'.walk.catalog.statusOf key = cfg.walk.catalog.statusOf key ∨
    ∃ t, cfg.turn = some t ∧ t.key = key ∧ cfg'.walk.catalog.statusOf key = t.status ∧
      ∃ r ∈ t.results, r.type.isError = true := by
  cases step with
  | leave outside => exact .inl rfl
  | revisit inside registered visited => exact .inl (Catalog.statusOf_register registered key)
  | visit inside registered fresh => exact .inl (Catalog.statusOf_register registered key)
  | expand known => exact .inl rfl
  | @raise w own status claimed r rest error =>
    by_cases same : key = own
    · subst same
      apply (Catalog.statusOf_raise_self (sound.dependent key rfl)).2.2.imp_right
      intro raised
      exact ⟨_,rfl,rfl,raised,r,List.mem_cons_self,error⟩
    · exact .inl (Catalog.statusOf_raise_other w.catalog status same)
  | take value => exact .inl rfl
  | start queued found offered =>
    left
    exact congrFun (claimMethods_grants sound.good (Catalog.entry?_some found).1
      (Universe.methodSet_nodup offered)).statusOf key
  | finish => exact .inl (Catalog.statusOf_list _ _ _ key)
  | skip queued missing => exact .inl rfl

end Step

/-- Results and statuses account for each other. -/
structure Accounted (u : Universe) (scope : List String) (cfg : Config) : Prop where
  results : ∀ t, cfg.turn = some t → ∀ r ∈ t.results, ∃ m ∈ t.claimed, r ∈ m.signature.results
  answered : ∀ e ∈ cfg.ledger, ∀ m ∈ e.methods, ∀ r ∈ m.signature.results,
    cfg.Owes e.key r ∨ cfg.walk.catalog.Answered u scope e r
  caused : ∀ e ∈ cfg.ledger, cfg.walk.catalog.statusOf e.key ≠ .none →
    (∃ methods, u.methodSet e.descriptor.type = .ok methods ∧
      cfg.walk.catalog.statusOf e.key = errorStatus e.descriptor.kind methods) ∧
    ∃ m ∈ e.methods, ∃ r ∈ m.signature.results, r.type.isError = true

namespace Accounted
variable {u : Universe} {scope : List String} {cfg cfg' : Config}

theorem results_step (accounted : Accounted u scope cfg) (step : Step u scope cfg cfg') (t : Turn)
    (present : cfg'.turn = some t) : ∀ r ∈ t.results, ∃ m ∈ t.claimed, r ∈ m.signature.results := by
  cases step with
  | leave outside => exact accounted.results t present
  | revisit inside registered visited => exact accounted.results t present
  | visit inside registered fresh => exact accounted.results t present
  | expand known => exact accounted.results t present
  | raise error =>
    cases present
    intro r later
    exact accounted.results _ rfl r (List.mem_cons_of_mem _ later)
  | take value =>
    cases present
    intro r later
    exact accounted.results _ rfl r (List.mem_cons_of_mem _ later)
  | start queued found offered =>
    cases present
    intro r later
    exact List.mem_flatMap.mp later
  | finish => cases present
  | skip queued missing => cases present

theorem step (accounted : Accounted u scope cfg) (sound : Sound u cfg)
    (explored : Explored u scope cfg) (step : Step u scope cfg cfg') : Accounted u scope cfg' where
  results := accounted.results_step step
  answered := by
    intro e' member m listed r result
    rcases ledger_origin sound explored step member with ⟨idle,_⟩ | ⟨e,before,same,_,origin⟩
    · rw [idle] at listed
      cases listed
    · have key : e.key = e'.key := congrArg Descriptor.key same
      rcases origin m listed with old | granted
      · rcases accounted.answered e before m old r result with owes | answered
        · rcases owes_step sound step before owes with owes | answered
          · rw [← key]
            exact .inl owes
          · exact .inr ((Catalog.grows_refl _).answered answered same)
        · exact .inr ((grows_step sound step).answered answered same)
      · exact .inl (granted r result)
  caused := by
    intro e' member wrapped
    rcases ledger_origin sound explored step member with ⟨_,blank⟩ | ⟨e,before,same,kept,_⟩
    · exact absurd blank wrapped
    · have key : e.key = e'.key := congrArg Descriptor.key same
      rw [← key] at wrapped ⊢
      rw [← same]
      rcases status_step sound step e.key with equal | ⟨t,present,here,status,r,later,error⟩
      · rw [equal] at wrapped ⊢
        obtain ⟨reason,m,listed,cause⟩ := accounted.caused e before wrapped
        exact ⟨reason,m,kept m listed,cause⟩
      · obtain ⟨claimed,methods,known,reason⟩ := turn_entry sound present before here
        obtain ⟨m,granted,result⟩ := accounted.results t present r later
        exact ⟨⟨methods,known,status.trans reason⟩,m,kept m (claimed m granted),r,result,error⟩

end Accounted
end Walk
end ProxyGen
