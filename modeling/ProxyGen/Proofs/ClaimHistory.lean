import Mathlib.Data.List.Induction
import ProxyGen.Proofs.Claims

/-! Who holds a method name after any number of calls for the methods of a group. A name goes to the first call for
it, and a holder who has it through a reference gives it up once, to the first call that asks for it directly. -/
namespace ProxyGen

/-- A call for a method name. -/
structure Bid where
  method : String
  owner : String
  direct : Bool
  deriving DecidableEq

def Bid.claim (b : Bid) : Claim := ⟨b.owner,b.direct⟩

namespace Claim

/-- Of the claims on a name in the order in which they are made the first direct one counts, or else the first. -/
def deciding (claims : List Claim) : Option Claim := (claims.find? direct).or claims.head?

section Deciding
variable {claims : List Claim} {c : Claim} {direct : Bool}

theorem find?_direct_eq_none_iff : claims.find? Claim.direct = none ↔ ∀ c ∈ claims, c.direct = false := by
  simp

theorem deciding_of_direct (found : claims.find? Claim.direct = some c) : deciding claims = some c := by
  rw [deciding,found,Option.some_or]

theorem deciding_of_indirect (indirect : ∀ c ∈ claims, c.direct = false) : deciding claims = claims.head? := by
  rw [deciding,find?_direct_eq_none_iff.mpr indirect,Option.none_or]

theorem deciding_singleton (c : Claim) : deciding [c] = some c := by
  rw [deciding,List.find?_singleton]
  split <;> rfl

/-- A name can be had that nobody has asked for, and directly if nobody has asked for it directly. -/
theorem open_deciding_iff : Open (deciding claims) direct ↔
    claims = [] ∨ direct = true ∧ ∀ c ∈ claims, c.direct = false := by
  cases found : claims.find? Claim.direct with
  | none =>
    have indirect := find?_direct_eq_none_iff.mp found
    rw [deciding_of_indirect indirect]
    cases claims with
    | nil => simp [Open]
    | cons first rest =>
      constructor
      · intro isOpen
        exact .inr ⟨(isOpen first List.head?_cons).2,indirect⟩
      · rintro (none | ⟨isDirect,_⟩) c held
        · cases none
        · obtain rfl : first = c := Option.some.inj held
          exact ⟨indirect first List.mem_cons_self,isDirect⟩
  | some k =>
    rw [deciding_of_direct found]
    have isDirect : k.direct = true := List.find?_some found
    have taken : ¬ k.direct = false := by
      rw [isDirect]
      exact Bool.false_ne_true.symm
    constructor
    · intro isOpen
      exact absurd (isOpen k rfl).1 taken
    · rintro (rfl | ⟨_,indirect⟩)
      · cases found
      · exact absurd (indirect k (List.mem_of_find?_eq_some found)) taken

theorem deciding_concat_open (isOpen : Open (deciding claims) c.direct) : deciding (claims ++ [c]) = some c := by
  rcases open_deciding_iff.mp isOpen with rfl | ⟨isDirect,indirect⟩
  · exact deciding_singleton c
  · apply deciding_of_direct
    rw [List.find?_append,find?_direct_eq_none_iff.mpr indirect,Option.none_or,List.find?_singleton,if_pos isDirect]

theorem deciding_concat_held (held : ¬ Open (deciding claims) c.direct) :
    deciding (claims ++ [c]) = deciding claims := by
  cases found : claims.find? Claim.direct with
  | some k =>
    rw [deciding_of_direct found]
    apply deciding_of_direct
    rw [List.find?_append,found,Option.some_or]
  | none =>
    have indirect := find?_direct_eq_none_iff.mp found
    rw [open_deciding_iff,not_or] at held
    obtain ⟨asked,refused⟩ := held
    have last : c.direct = false := by
      rw [← Bool.not_eq_true]
      exact fun isDirect => refused ⟨isDirect,indirect⟩
    have all : ∀ k ∈ claims ++ [c], k.direct = false :=
      List.forall_mem_append.mpr ⟨indirect,List.forall_mem_singleton.mpr last⟩
    rw [deciding_of_indirect all,deciding_of_indirect indirect,List.head?_append_of_ne_nil _ asked]

end Deciding

/-- How often a name can still change hands. -/
def room : Option Claim → Nat
  | none => 2
  | some ⟨_,false⟩ => 1
  | some ⟨_,true⟩ => 0

theorem room_le_two (held : Option Claim) : room held ≤ 2 := by
  unfold room
  split <;> decide

theorem room_taken {held : Option Claim} {c : Claim} (isOpen : Open held c.direct) : room (some c) < room held := by
  obtain ⟨owner,direct⟩ := c
  cases held with
  | none => cases direct <;> simp [room]
  | some k =>
    obtain ⟨holder,before⟩ := k
    obtain ⟨rfl,rfl⟩ : before = false ∧ direct = true := isOpen ⟨holder,before⟩ rfl
    simp [room]

end Claim

namespace Group

/-- The group after calls for method names, one after the other. -/
def run (g : Group) (bids : List Bid) : Group := bids.foldl (fun g b => g.claim b.method b.owner b.direct) g

/-- The calls that are granted among those that are made one after the other. -/
def granted : Group → List Bid → List Bid
  | _, [] => []
  | g, b :: rest =>
    let later := granted (g.claim b.method b.owner b.direct) rest
    if g.yields b.method b.direct then b :: later else later

/-- The claims on a name, in their order: what is held to begin with, and the calls for it. -/
def claimsOn (g : Group) (bids : List Bid) (name : String) : List Claim :=
  (g.claim? name).toList ++ (bids.filter (·.method == name)).map Bid.claim

section Histories
variable {g : Group} {bids : List Bid} {b : Bid} {name : String}

theorem claim_of_refused {method owner : String} {direct : Bool} (refused : ¬ g.yields method direct = true) :
    g.claim method owner direct = g := if_neg refused

theorem run_concat (g : Group) (bids : List Bid) (b : Bid) :
    g.run (bids ++ [b]) = (g.run bids).claim b.method b.owner b.direct := by
  rw [run,List.foldl_append]
  rfl

theorem claimsOn_concat_self (g : Group) (bids : List Bid) (b : Bid) :
    g.claimsOn (bids ++ [b]) b.method = g.claimsOn bids b.method ++ [b.claim] := by
  simp [claimsOn]

theorem claimsOn_concat_other (other : name ≠ b.method) : g.claimsOn (bids ++ [b]) name = g.claimsOn bids name := by
  simp [claimsOn,Ne.symm other]

/-- A call leaves the name to the claim that now decides. -/
theorem claim?_run (g : Group) (bids : List Bid) (name : String) :
    (g.run bids).claim? name = Claim.deciding (g.claimsOn bids name) := by
  induction bids using List.reverseRecOn with
  | nil =>
    change g.claim? name = Claim.deciding (g.claimsOn [] name)
    rw [claimsOn,List.filter_nil,List.map_nil,List.append_nil]
    cases g.claim? name with
    | none => rfl
    | some c => exact (Claim.deciding_singleton c).symm
  | append_singleton bids b ih =>
    rw [run_concat]
    by_cases same : name = b.method
    · subst same
      rw [claimsOn_concat_self]
      by_cases isOpen : Claim.Open (Claim.deciding (g.claimsOn bids b.method)) b.direct
      · rw [Claim.deciding_concat_open isOpen]
        rw [← ih] at isOpen
        exact claim?_claim_self (yields_iff.mpr isOpen)
      · rw [Claim.deciding_concat_held isOpen,← ih]
        rw [← ih,← yields_iff] at isOpen
        rw [claim_of_refused isOpen]
    · rw [claimsOn_concat_other same,claim?_claim_other _ _ _ same,ih]

/-- A call is granted that is the first one for its name, or the first direct one after others. -/
theorem yields_run_iff (g : Group) (bids : List Bid) (b : Bid) :
    (g.run bids).yields b.method b.direct = true ↔
      g.claimsOn bids b.method = [] ∨ b.direct = true ∧ ∀ c ∈ g.claimsOn bids b.method, c.direct = false := by
  rw [yields_iff,claim?_run,Claim.open_deciding_iff]

/-- Every call that is granted uses up one of the times that its name can change hands. -/
theorem countP_granted_le_room (g : Group) (bids : List Bid) (name : String) :
    (g.granted bids).countP (·.method == name) ≤ Claim.room (g.claim? name) := by
  induction bids generalizing g with
  | nil => exact Nat.zero_le _
  | cons b rest ih =>
    have later := ih (g.claim b.method b.owner b.direct)
    simp only [granted]
    split
    next yields =>
      rw [List.countP_cons]
      by_cases same : b.method = name
      · subst same
        rw [claim?_claim_self yields] at later
        rw [beq_self_eq_true,if_pos rfl]
        exact Nat.lt_of_le_of_lt later (Claim.room_taken (yields_iff.mp yields))
      · rw [claim?_claim_other g b.owner b.direct (Ne.symm same)] at later
        rw [beq_eq_false_iff_ne.mpr same,if_neg Bool.false_ne_true]
        exact later
    next refused =>
      rw [claim_of_refused refused] at later ⊢
      exact later

/-- After any calls a name is held by the first direct claim on it, or else by the first one, where what is held to
begin with comes before the calls. A further call is granted if its claim is the first one on its name, or the first
direct one after others, so that a name changes hands at most twice. -/
theorem claims_settled (g : Group) (bids : List Bid) (name : String) :
    (g.run bids).claim? name = Claim.deciding (g.claimsOn bids name) ∧
    (∀ b : Bid, (g.run bids).yields b.method b.direct = true ↔
      g.claimsOn bids b.method = [] ∨ b.direct = true ∧ ∀ c ∈ g.claimsOn bids b.method, c.direct = false) ∧
    (g.granted bids).countP (·.method == name) ≤ 2 :=
  ⟨claim?_run g bids name,yields_run_iff g bids,
    Nat.le_trans (countP_granted_le_room g bids name) (Claim.room_le_two _)⟩

end Histories

end Group
end ProxyGen
