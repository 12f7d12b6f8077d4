import ProxyGen.Universe.Basic

/-!
The declared types that a search has not seen yet. Searches through declarations end because this number
falls with every declaration they look up for the first time.
-/
namespace ProxyGen

theorem countP_lt_countP {α : Type} {p q : α → Bool} {l : List α} {a : α}
    (weaker : ∀ x, p x = true → q x = true) (member : a ∈ l) (holds : q a = true) (fails : p a = false) :
    l.countP p < l.countP q := by
  obtain ⟨before,after,rfl⟩ := List.append_of_mem member
  have front : before.countP p ≤ before.countP q := List.countP_mono_left fun x _ => weaker x
  have back : after.countP p ≤ after.countP q := List.countP_mono_left fun x _ => weaker x
  simp only [List.countP_append,List.countP_cons,holds,fails,Bool.false_eq_true,if_true,if_false]
  omega

namespace Universe

/-- How many declared types are not among `seen`. -/
def unseen (u : Universe) (seen : List NamedType) : Nat :=
  u.declared.countP fun entry => !seen.contains entry.1

theorem unseen_cons_le (u : Universe) (n : NamedType) (seen : List NamedType) :
    u.unseen (n :: seen) ≤ u.unseen seen :=
  List.countP_mono_left fun _ _ unseen => by simp_all

theorem unseen_cons_lt {u : Universe} {n : NamedType} {d : TypeDecl} {seen : List NamedType}
    (declared : u.find n = .ok (some d)) (new : n ∉ seen) : u.unseen (n :: seen) < u.unseen seen :=
  countP_lt_countP (fun _ unseen => by simp_all) (find_eq_some declared) (by simpa using new) (by simp)

end Universe
end ProxyGen
