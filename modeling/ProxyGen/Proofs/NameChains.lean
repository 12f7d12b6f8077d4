import Mathlib.Data.List.Perm.Subperm
import Mathlib.Logic.Relation
import ProxyGen.Universe.Underlying

/-! What the underlying type of a name comes to. Declarations lead from a name to at most one other, so the way
from it is a chain: it stops at a type that is no name, stops at a name that is not declared, or goes round for ever.
The search for the underlying type sees no name twice, and has another answer for each of the three. -/
namespace ProxyGen.Universe

/-- A name is declared with this declaration. -/
def DeclaresType (u : Universe) (n : NamedType) (d : TypeDecl) : Prop :=
  ∃ p, u.package? n.path = some p ∧ p.type? n.name = some d

/-- The declaration of the first name gives the second one as its underlying type. -/
def Follows (u : Universe) (n next : NamedType) : Prop := ∃ d, u.DeclaresType n d ∧ d.underlying = .named next

/-- The second name stands on the chain of the first, which it may be itself. -/
abbrev Leads (u : Universe) : NamedType → NamedType → Prop := Relation.ReflTransGen u.Follows

/-- The chain of the name comes back to it. -/
abbrev Circular (u : Universe) (n : NamedType) : Prop := Relation.TransGen u.Follows n n

/-- What is answered about the last name of a chain: the type it is declared with, or why it is not declared. -/
inductive Stops (u : Universe) (n : NamedType) : Except Error TypeExpr → Prop
  | type (d) (declares : u.DeclaresType n d) (nameless : d.underlying.asNamed? = none) : Stops u n (.ok d.underlying)
  | undeclared (e) (failed : u.declaration n = .error e) : Stops u n (.error e)

/-- A search under way: the names it has seen, latest first, and the name it has come to. -/
structure Search where
  seen : List NamedType
  name : NamedType

inductive Search.Turn (u : Universe) : Search → Search → Prop
  | follow {seen n next} (fresh : n ∉ seen) (follows : u.Follows n next) : Turn u ⟨seen,n⟩ ⟨n :: seen,next⟩

section Chains
variable {u : Universe} {n m stop : NamedType} {d d' : TypeDecl} {answer answer' : Except Error TypeExpr}

theorem declaration_eq_ok_iff : u.declaration n = .ok d ↔ u.DeclaresType n d := by
  rw [declaration_eq_ok]
  unfold find DeclaresType
  cases u.package? n.path with
  | none => simp
  | some p => cases declared : p.type? n.name <;> simp [declared]

/-- What is not declared is told apart by its package. -/
theorem declaration_eq_error_iff {e : Error} : u.declaration n = .error e ↔
    (u.package? n.path = none ∧ e = .unknownPackage n.path) ∨
      ∃ p, u.package? n.path = some p ∧ p.type? n.name = none ∧ e = .unknownType n := by
  unfold declaration find
  cases u.package? n.path with
  | none => simp [eq_comm]
  | some p => cases declared : p.type? n.name <;> simp [declared,eq_comm]

theorem DeclaresType.unique (declares : u.DeclaresType n d) (declares' : u.DeclaresType n d') : d = d' := by
  rw [← declaration_eq_ok_iff] at declares declares'
  exact Except.ok.inj (declares.symm.trans declares')

theorem DeclaresType.mem (declares : u.DeclaresType n d) : n ∈ u.declared.map Prod.fst :=
  List.mem_map_of_mem (f := Prod.fst)
    (find_eq_some (declaration_eq_ok.mp (declaration_eq_ok_iff.mpr declares)))

theorem follows_unique : Relator.RightUnique u.Follows := by
  intro n m m' follows follows'
  obtain ⟨d,declares,name⟩ := follows
  obtain ⟨d',declares',name'⟩ := follows'
  obtain rfl := declares.unique declares'
  exact TypeExpr.named.inj (name.symm.trans name')

/-- A chain that goes round comes back to each of its names. -/
theorem circular_of_leads (circular : u.Circular n) (leads : u.Leads n m) : u.Circular m := by
  induction leads with
  | refl => exact circular
  | tail _ last ih =>
    obtain ⟨next,first,rest⟩ := Relation.TransGen.head'_iff.mp ih
    obtain rfl := follows_unique first last
    exact .tail' rest last

theorem Stops.not_follows (stops : u.Stops n answer) (next : NamedType) : ¬ u.Follows n next := by
  rintro ⟨d,declares,name⟩
  cases stops with
  | type d' declares' nameless =>
    obtain rfl := declares.unique declares'
    rw [name] at nameless
    cases nameless
  | undeclared e failed => cases failed.symm.trans (declaration_eq_ok_iff.mpr declares)

theorem Stops.unique (stops : u.Stops n answer) (stops' : u.Stops n answer') : answer = answer' := by
  cases stops with
  | type d declares =>
    cases stops' with
    | type d' declares' => rw [declares.unique declares']
    | undeclared e failed => cases failed.symm.trans (declaration_eq_ok_iff.mpr declares)
  | undeclared e failed =>
    cases stops' with
    | type d declares => cases failed.symm.trans (declaration_eq_ok_iff.mpr declares)
    | undeclared e' failed' => rw [Except.error.inj (failed.symm.trans failed')]

/-- Every name of a chain leads to the one where it stops, so no part of it goes round. -/
theorem leads_stop (leads : u.Leads n stop) (stops : u.Stops stop answer) (leads' : u.Leads n m) :
    u.Leads m stop ∧ ¬ u.Circular m := by
  have onward : u.Leads m stop := by
    rcases Relation.ReflTransGen.total_of_right_unique follows_unique leads' leads with onward | back
    · exact onward
    · rcases back.cases_head with rfl | ⟨next,first,_⟩
      · exact .refl
      · exact absurd first (stops.not_follows next)
  refine ⟨onward,fun circular => ?_⟩
  obtain ⟨next,first,_⟩ := Relation.TransGen.head'_iff.mp (circular_of_leads circular onward)
  exact stops.not_follows next first

end Chains

namespace Search

/-- The search follows the chain of the name it has started from. The names it has seen are declared and different,
and lead to where it is. -/
structure Under (u : Universe) (n : NamedType) (s : Search) : Prop where
  leads : u.Leads n s.name
  seen : ∀ m ∈ s.seen, Relation.TransGen u.Follows m s.name
  distinct : s.seen.Nodup
  declared : s.seen ⊆ u.declared.map Prod.fst

section Turns
variable {u : Universe} {n : NamedType} {s s' : Search}

theorem under_start (u : Universe) (n : NamedType) : Under u n ⟨[],n⟩ where
  leads := .refl
  seen := fun _ member => by cases member
  distinct := List.nodup_nil
  declared := List.nil_subset _

theorem Under.turn (under : Under u n s) (turn : Turn u s s') : Under u n s' := by
  cases turn with
  | @follow seen m next fresh follows =>
    obtain ⟨d,declares,_⟩ := id follows
    refine ⟨under.leads.tail follows,?_,List.nodup_cons.mpr ⟨fresh,under.distinct⟩,
      List.cons_subset.mpr ⟨declares.mem,under.declared⟩⟩
    intro x member
    rcases List.mem_cons.mp member with rfl | member
    · exact .single follows
    · exact (under.seen x member).tail follows

theorem Under.turns (under : Under u n s) (turns : Relation.ReflTransGen (Turn u) s s') : Under u n s' := by
  induction turns with
  | refl => exact under
  | tail _ last ih => exact ih.turn last

theorem Under.length_le (under : Under u n s) : s.seen.length ≤ u.declared.length := by
  simpa using (under.distinct.subperm under.declared).length_le

/-- Turn by turn the search comes to where it answers: at a name that it has seen, or at the last of the chain. -/
theorem exists_turns (u : Universe) (origin n : NamedType) (seen : List NamedType) : ∃ s,
    Relation.ReflTransGen (Turn u) ⟨seen,n⟩ s ∧
      (s.name ∈ s.seen ∧ u.underlyingFrom origin n seen = .error (.cyclicUnderlying origin) ∨
        u.Stops s.name (u.underlyingFrom origin n seen)) := by
  fun_induction underlyingFrom u origin n seen with
  | case1 n seen again => exact ⟨⟨seen,n⟩,.refl,.inl ⟨again,rfl⟩⟩
  | case2 n seen _ e failed => exact ⟨⟨seen,n⟩,.refl,.inr (.undeclared e failed)⟩
  | case3 n seen fresh d declared next name ih =>
    obtain ⟨s,turns,answered⟩ := ih
    exact ⟨s,.head (.follow fresh ⟨d,declaration_eq_ok_iff.mp declared,name⟩) turns,answered⟩
  | case4 n seen _ d declared other =>
    refine ⟨⟨seen,n⟩,.refl,.inr (.type d (declaration_eq_ok_iff.mp declared) ?_)⟩
    cases type : d.underlying with
    | named next => exact absurd type (other next)
    | _ => rfl

end Turns

end Search

section Answers
variable {u : Universe} {n m : NamedType} {answer : Except Error TypeExpr}

theorem underlying_cases (u : Universe) (n : NamedType) : (∃ m, u.Leads n m ∧ u.Stops m (u.underlying n)) ∨
    u.underlying n = .error (.cyclicUnderlying n) ∧ ∃ m, u.Leads n m ∧ u.Circular m := by
  obtain ⟨s,turns,answered⟩ := Search.exists_turns u n n []
  have under := (Search.under_start u n).turns turns
  rcases answered with ⟨again,answered⟩ | stops
  · exact .inr ⟨answered,s.name,under.leads,under.seen s.name again⟩
  · exact .inl ⟨s.name,under.leads,stops⟩

theorem underlying_nameless {t : TypeExpr} (stands : u.underlying n = .ok t) : t.asNamed? = none := by
  rcases underlying_cases u n with ⟨m,_,stops⟩ | ⟨failed,_⟩
  · rw [stands] at stops
    cases stops with
    | type d _ nameless => exact nameless
  · cases stands.symm.trans failed

theorem underlying_of_stop (leads : u.Leads n m) (stops : u.Stops m answer) : u.underlying n = answer := by
  rcases underlying_cases u n with ⟨m',leads',stops'⟩ | ⟨_,m',leads',circular⟩
  · rcases (leads_stop leads stops leads').1.cases_head with rfl | ⟨next,first,_⟩
    · exact stops'.unique stops
    · exact absurd first (stops'.not_follows next)
  · exact absurd circular (leads_stop leads stops leads').2

theorem underlying_of_circle (leads : u.Leads n m) (circular : u.Circular m) :
    u.underlying n = .error (.cyclicUnderlying n) := by
  rcases underlying_cases u n with ⟨stop,leads',stops⟩ | ⟨answered,_⟩
  · exact absurd circular (leads_stop leads' stops leads).2
  · exact answered

/-- The underlying type of a name is the first type on its chain that is no name. Where the chain goes round this is
said of the name itself, and where it leads to a name that is not declared, that its package is not known or lacks
it. The search takes no more turns than there are declared types. -/
theorem underlying_answers (u : Universe) (n : NamedType) :
    (∀ t, u.underlying n = .ok t ↔
      t.asNamed? = none ∧ ∃ m d, u.Leads n m ∧ u.DeclaresType m d ∧ d.underlying = t) ∧
    (∀ e, u.underlying n = .error e ↔
      (e = .cyclicUnderlying n ∧ ∃ m, u.Leads n m ∧ u.Circular m) ∨
      ∃ m, u.Leads n m ∧
        ((u.package? m.path = none ∧ e = .unknownPackage m.path) ∨
          ∃ p, u.package? m.path = some p ∧ p.type? m.name = none ∧ e = .unknownType m)) ∧
    ∃ s : Search, Relation.ReflTransGen (Search.Turn u) ⟨[],n⟩ s ∧ s.seen.length ≤ u.declared.length ∧
      (s.name ∈ s.seen ∨ u.Stops s.name (u.underlying n)) := by
  refine ⟨fun t => ⟨?_,?_⟩,fun e => ⟨?_,?_⟩,?_⟩
  · intro answered
    rcases underlying_cases u n with ⟨m,leads,stops⟩ | ⟨failed,_⟩
    · rw [answered] at stops
      cases stops with
      | type d declares nameless => exact ⟨nameless,m,d,leads,declares,rfl⟩
    · cases answered.symm.trans failed
  · rintro ⟨nameless,m,d,leads,declares,rfl⟩
    exact underlying_of_stop leads (.type d declares nameless)
  · intro answered
    rcases underlying_cases u n with ⟨m,leads,stops⟩ | ⟨failed,circle⟩
    · rw [answered] at stops
      cases stops with
      | undeclared _ failed => exact .inr ⟨m,leads,declaration_eq_error_iff.mp failed⟩
    · cases answered.symm.trans failed
      exact .inl ⟨rfl,circle⟩
  · rintro (⟨rfl,m,leads,circular⟩ | ⟨m,leads,undeclared⟩)
    · exact underlying_of_circle leads circular
    · exact underlying_of_stop leads (.undeclared e (declaration_eq_error_iff.mpr undeclared))
  · obtain ⟨s,turns,answered⟩ := Search.exists_turns u n n []
    exact ⟨s,turns,((Search.under_start u n).turns turns).length_le,answered.imp_left And.left⟩

-- The circle of B and C is met on the way from A, and the answer is about A.
example : underlying
    ⟨[⟨"p","p",[⟨"A",.other,.named ⟨"p","B"⟩,[],[]⟩,⟨"B",.other,.named ⟨"p","C"⟩,[],[]⟩,
      ⟨"C",.other,.named ⟨"p","B"⟩,[],[]⟩]⟩]⟩ ⟨"p","A"⟩ = .error (.cyclicUnderlying ⟨"p","A"⟩) := by cbv

end Answers
end ProxyGen.Universe
