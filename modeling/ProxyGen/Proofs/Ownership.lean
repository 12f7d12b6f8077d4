import Mathlib.Data.List.Infix
import ProxyGen.Proofs.Claims

/-! Who lists a method. The variants of a root take their turns in the order in which they were found, and a
variant lists what it offers unless an earlier one bars it: one that has the name without a
reference, or one that has it through a reference while the later has it so too. -/
namespace ProxyGen

namespace Entry

/-- An exported method of the entry's type. -/
def Offers (u : Universe) (e : Entry) (m : Selection) : Prop :=
  ∃ methods, u.methodSet e.descriptor.type = .ok methods ∧ m ∈ methods ∧ m.exported = true

/-- A variant among those before `e` offers the name of the method, and need not give it up. -/
def Barred (u : Universe) (before : List Entry) (e : Entry) (m : Selection) : Prop :=
  ∃ v ∈ before, v.root = e.root ∧
    ∃ m', v.Offers u m' ∧ m'.name = m.name ∧ (m'.indirect = true → m.indirect = true)

theorem barred_map {f : Entry → Entry}
    (keeps : ∀ e, (f e).descriptor = e.descriptor ∧ (f e).root = e.root) (u : Universe)
    (before : List Entry) (e : Entry) (m : Selection) :
    (f e).Barred u (before.map f) m ↔ e.Barred u before m := by
  simp [Barred,Offers,keeps]

end Entry

namespace Walk

/-- The claims and the lists of methods after the types that wait no more have had their turns. -/
structure Settled (u : Universe) (claims : String → String → Option Claim) (ledger : List Entry)
    (waiting : List String) : Prop where
  distinct : (ledger.map Entry.key).Nodup
  order : waiting <:+ ledger.map Entry.key
  known : ∀ e ∈ ledger, e.key ∉ waiting → ∃ methods, u.methodSet e.descriptor.type = .ok methods
  listed : ∀ before e after, ledger = before ++ e :: after → ∀ m,
    m ∈ e.methods ↔ e.key ∉ waiting ∧ e.Offers u m ∧ ¬ e.Barred u before m
  offered : ∀ e ∈ ledger, e.key ∉ waiting → ∀ m, e.Offers u m →
    ∃ c, claims e.root m.name = some c ∧ (m.indirect = false → c.direct = true)
  held : ∀ root name c, claims root name = some c →
    ∃ e ∈ ledger, e.root = root ∧ e.key = c.owner ∧
      ∃ m ∈ e.methods, m.name = name ∧ c.direct = !m.indirect

theorem settled_empty (u : Universe) : Settled u (fun _ _ => none) [] [] where
  distinct := List.nodup_nil
  order := List.suffix_rfl
  known _ member := absurd member List.not_mem_nil
  listed before e after equal := by simp at equal
  offered _ member := absurd member List.not_mem_nil
  held _ _ _ present := by cases present

namespace Settled
variable {u : Universe} {claims claims' : String → String → Option Claim} {ledger : List Entry}
  {waiting rest : List String}

theorem offers_of_listed (settled : Settled u claims ledger waiting) {e : Entry} (member : e ∈ ledger)
    {m : Selection} (listed : m ∈ e.methods) : e.key ∉ waiting ∧ e.Offers u m := by
  obtain ⟨before,after,split⟩ := List.append_of_mem member
  obtain ⟨done,offers,_⟩ := (settled.listed before e after split m).mp listed
  exact ⟨done,offers⟩

theorem append (settled : Settled u claims ledger waiting) {new : Entry}
    (fresh : new.key ∉ ledger.map Entry.key) (idle : new.methods = []) :
    Settled u claims (ledger ++ [new]) (waiting ++ [new.key]) where
  distinct := by
    rw [List.map_append]
    apply List.nodup_append.mpr
    refine ⟨settled.distinct,by simp,?_⟩
    intro key present other isNew equal
    have : other = new.key := by simpa using isNew
    rw [equal,this] at present
    exact fresh present
  order := by
    obtain ⟨done,equal⟩ := settled.order
    exact ⟨done,by rw [List.map_append,← equal,List.append_assoc]; rfl⟩
  known := by
    intro e member done
    rcases List.mem_append.mp member with old | isNew
    · exact settled.known e old fun later => done (List.mem_append_left _ later)
    · rw [List.mem_singleton.mp isNew] at done
      exact absurd (by simp) done
  listed := by
    intro before e after equal m
    rcases List.eq_nil_or_concat after with rfl | ⟨front,last,rfl⟩
    · obtain ⟨_,same⟩ := List.append_inj' equal rfl
      cases same
      simp [idle]
    · have shifted : ledger ++ [new] = (before ++ e :: front) ++ [last] := by simpa using equal
      obtain ⟨split,_⟩ := List.append_inj' shifted rfl
      have other : e.key ≠ new.key := by
        intro same
        apply fresh
        rw [split,← same]
        simp
      rw [settled.listed before e front split m]
      simp [other]
  offered := by
    intro e member done m offers
    rcases List.mem_append.mp member with old | isNew
    · exact settled.offered e old (fun later => done (List.mem_append_left _ later)) m offers
    · rw [List.mem_singleton.mp isNew] at done
      exact absurd (by simp) done
  held := by
    intro root name c present
    obtain ⟨e,member,facts⟩ := settled.held root name c present
    exact ⟨e,List.mem_append_left _ member,facts⟩

/-- At the head of those that wait is the first type that has not had its turn. -/
theorem after_head {key : String} (settled : Settled u claims ledger (key :: rest))
    {before after : List Entry} {e : Entry} (split : ledger = before ++ e :: after)
    (head : e.key = key) : after.map Entry.key = rest ∧ ∀ v ∈ before, v.key ∉ key :: rest := by
  have distinct := settled.distinct
  obtain ⟨done,equal⟩ := settled.order
  rw [split,List.map_append,List.map_cons,head] at equal distinct
  obtain ⟨_,inner,apart⟩ := List.nodup_append.mp distinct
  have notBefore : key ∉ before.map Entry.key := fun present =>
    apart key present key List.mem_cons_self rfl
  have notAfter : key ∉ after.map Entry.key := (List.nodup_cons.mp inner).1
  obtain ⟨_,_,same⟩ := (List.append_cons_inj_of_notMem notBefore notAfter).mp equal.symm
  refine ⟨same,?_⟩
  intro v member later
  rw [← same] at later
  exact apart v.key (List.mem_map_of_mem member) v.key later rfl

/-- At its turn a type can have a name exactly when no earlier variant bars it. -/
theorem open_iff_not_barred {key : String} (settled : Settled u claims ledger (key :: rest))
    {before after : List Entry} {e : Entry} (split : ledger = before ++ e :: after)
    (head : e.key = key) (m : Selection) :
    Claim.Open (claims e.root m.name) (!m.indirect) ↔ ¬ e.Barred u before m := by
  obtain ⟨rests,done⟩ := settled.after_head split head
  constructor
  · rintro isOpen ⟨v,earlier,sameRoot,m',offers,name,firm⟩
    obtain ⟨c,present,direct⟩ := settled.offered v (by simp [split,earlier]) (done v earlier) m' offers
    rw [sameRoot,name] at present
    obtain ⟨yielding,asked⟩ := isOpen c present
    have notIndirect : m.indirect = false := by simpa using asked
    cases through : m'.indirect with
    | true => simp [firm through] at notIndirect
    | false => simp [direct through] at yielding
  · intro free c present
    obtain ⟨v,member,sameRoot,_,m',listed,name,direct⟩ := settled.held _ _ c present
    obtain ⟨notWaiting,offers⟩ := settled.offers_of_listed member listed
    have earlier : v ∈ before := by
      rw [split] at member
      rcases List.mem_append.mp member with inside | inside
      · exact inside
      · exfalso
        apply notWaiting
        rw [← rests,← head]
        exact List.mem_map_of_mem (f := Entry.key) inside
    have gives : ¬ (m'.indirect = true → m.indirect = true) := fun firm =>
      free ⟨v,earlier,sameRoot,m',offers,name,firm⟩
    rw [Classical.not_imp] at gives
    simp [direct,gives]

/-- Lists methods with the entry of a key. -/
def listing (key : String) (granted : List Selection) (e : Entry) : Entry :=
  if e.key = key then { e with methods := e.methods ++ granted } else e

theorem listing_keeps (key : String) (granted : List Selection) (e : Entry) :
    (listing key granted e).descriptor = e.descriptor ∧ (listing key granted e).root = e.root := by
  unfold listing
  split <;> exact ⟨rfl,rfl⟩

theorem listing_key (key : String) (granted : List Selection) (e : Entry) :
    (listing key granted e).key = e.key :=
  congrArg Descriptor.key (listing_keeps key granted e).1

theorem listing_self (granted : List Selection) (e : Entry) :
    (listing e.key granted e).methods = e.methods ++ granted := by
  simp [listing]

theorem listing_other {key : String} {e : Entry} (other : e.key ≠ key) (granted : List Selection) :
    listing key granted e = e := by
  simp [listing,other]

section Turn
variable {c c' : Catalog} {e x : Entry} {methods granted : List Selection}
  (settled : Settled u c.claim? ledger (e.key :: rest)) (member : x ∈ ledger)
  (same : x.descriptor = e.descriptor ∧ x.root = e.root)
include settled member same

theorem head_unique {v : Entry} (present : v ∈ ledger) (head : v.key = e.key) : v = x := by
  have key : x.key = e.key := congrArg Descriptor.key same.1
  exact List.inj_on_of_nodup_map settled.distinct present member (head.trans key.symm)

theorem listed_turn (known : u.methodSet e.descriptor.type = .ok methods)
    (grants : Grants c e methods c' granted) {before after : List Entry} {v : Entry}
    (split : ledger.map (listing e.key granted) = before ++ v :: after) (m : Selection) :
    m ∈ v.methods ↔ v.key ∉ rest ∧ v.Offers u m ∧ ¬ v.Barred u before m := by
  obtain ⟨front,tail,rfl,rfl,mapped⟩ := List.map_eq_append_iff.mp split
  obtain ⟨y,back,rfl,rfl,_⟩ := List.map_eq_cons_iff.mp mapped
  have keeps := listing_keeps e.key granted
  rw [Entry.barred_map keeps,listing_key]
  have offers : (listing e.key granted y).Offers u m ↔ y.Offers u m := by
    simp [Entry.Offers,keeps]
  rw [offers]
  have before := settled.listed front y back rfl m
  by_cases head : y.key = e.key
  · -- The type whose turn it is: it listed nothing so far and lists what was granted.
    obtain rfl := settled.head_unique member same (v := y) (by simp) head
    have done : y.key ∉ rest := by
      rw [head]
      exact (List.nodup_cons.mp (settled.distinct.sublist settled.order.sublist)).1
    have none : m ∉ y.methods := by
      rw [before,head]
      rintro ⟨notWaiting,_⟩
      exact notWaiting List.mem_cons_self
    have free := settled.open_iff_not_barred rfl head m
    have listed : m ∈ (listing e.key granted y).methods ↔ m ∈ granted := by
      rw [← head,listing_self,List.mem_append]
      simp [none]
    rw [listed,grants.open_iff,← same.2,free]
    unfold Entry.Offers
    rw [same.1,known]
    simp [done,and_assoc]
  · rw [listing_other head,before,List.mem_cons]
    simp [head]

theorem offered_turn (known : u.methodSet e.descriptor.type = .ok methods)
    (grants : Grants c e methods c' granted) {v : Entry} (present : v ∈ ledger) (done : v.key ∉ rest)
    {m : Selection} (offers : v.Offers u m) :
    ∃ held, c'.claim? v.root m.name = some held ∧ (m.indirect = false → held.direct = true) := by
  rcases grants.claim_cases v.root m.name with ⟨inRoot,m',inside,name,taken⟩ | ⟨free,kept⟩
  · refine ⟨⟨e.key,!m'.indirect⟩,taken,?_⟩
    intro direct
    obtain ⟨offered,exported,isOpen⟩ := (grants.open_iff m').mp inside
    by_cases head : v.key = e.key
    · -- Within one method set the name decides the method.
      obtain rfl := settled.head_unique member same present head
      obtain ⟨ms,known',member',_⟩ := offers
      rw [same.1,known] at known'
      cases known'
      have equal : m' = m := List.inj_on_of_nodup_map (Universe.methodSet_nodup known) offered member' name
      simp [equal,direct]
    · obtain ⟨held,before,firm⟩ := settled.offered v present (by simp [head,done]) m offers
      rw [inRoot,← name] at before
      have yielding := (isOpen held before).1
      rw [firm direct] at yielding
      cases yielding
  · rw [kept]
    by_cases head : v.key = e.key
    · obtain rfl := settled.head_unique member same present head
      obtain ⟨ms,known',member',exported⟩ := offers
      rw [same.1,known] at known'
      cases known'
      have refused : ¬ Claim.Open (c.claim? e.root m.name) (!m.indirect) := by
        intro isOpen
        exact free same.2 m ((grants.open_iff m).mpr ⟨member',exported,isOpen⟩) rfl
      rw [same.2]
      unfold Claim.Open at refused
      push Not at refused
      obtain ⟨held,before,firm⟩ := refused
      refine ⟨held,before,?_⟩
      intro direct
      by_contra indirect
      exact firm (by simpa using indirect) (by simp [direct])
    · exact settled.offered v present (by simp [head,done]) m offers

theorem held_turn (grants : Grants c e methods c' granted) {root name : String} {held : Claim}
    (present : c'.claim? root name = some held) :
    ∃ v ∈ ledger.map (listing e.key granted), v.root = root ∧ v.key = held.owner ∧
      ∃ m ∈ v.methods, m.name = name ∧ held.direct = !m.indirect := by
  have keeps := listing_keeps e.key granted
  rcases grants.claim_cases root name with ⟨rfl,m,inside,rfl,taken⟩ | ⟨_,kept⟩
  · rw [taken] at present
    cases present
    have key : x.key = e.key := congrArg Descriptor.key same.1
    refine ⟨_,List.mem_map_of_mem member,(keeps x).2.trans same.2,(listing_key _ _ x).trans key,m,?_,
      rfl,rfl⟩
    rw [← key,listing_self]
    exact List.mem_append_right _ inside
  · rw [kept] at present
    obtain ⟨v,before,inRoot,owner,m,listed,facts⟩ := settled.held root name held present
    have other : v.key ≠ e.key := by
      intro head
      apply (settled.offers_of_listed before listed).1
      rw [head]
      exact List.mem_cons_self
    have image := List.mem_map_of_mem (f := listing e.key granted) before
    rw [listing_other other] at image
    exact ⟨v,image,inRoot,owner,m,listed,facts⟩

theorem turn (known : u.methodSet e.descriptor.type = .ok methods)
    (grants : Grants c e methods c' granted) :
    Settled u c'.claim? (ledger.map (listing e.key granted)) rest := by
  have keys : (ledger.map (listing e.key granted)).map Entry.key = ledger.map Entry.key := by
    rw [List.map_map]
    exact List.map_congr_left fun v _ => listing_key e.key granted v
  constructor
  · rw [keys]
    exact settled.distinct
  · rw [keys]
    exact (List.suffix_cons e.key rest).trans settled.order
  · intro v' member' done
    obtain ⟨v,present,rfl⟩ := List.mem_map.mp member'
    rw [listing_key] at done
    rw [(listing_keeps e.key granted v).1]
    by_cases head : v.key = e.key
    · obtain rfl := settled.head_unique member same present head
      rw [same.1]
      exact ⟨methods,known⟩
    · exact settled.known v present (by simp [head,done])
  · intro before v after split m
    exact settled.listed_turn member same known grants split m
  · intro v' member' done m offers
    obtain ⟨v,present,rfl⟩ := List.mem_map.mp member'
    rw [listing_key] at done
    rw [(listing_keeps e.key granted v).2]
    unfold Entry.Offers at offers
    rw [(listing_keeps e.key granted v).1] at offers
    exact settled.offered_turn member same known grants present done offers
  · intro root name held present
    exact settled.held_turn member same grants present

end Turn

end Settled
end Walk
end ProxyGen
