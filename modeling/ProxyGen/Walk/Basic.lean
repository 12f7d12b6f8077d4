import ProxyGen.Catalog.Basic
import ProxyGen.Universe.Closure

/-!
A walk enters types into a catalog. A type that is queued brings along what it is made of and, where it is
a name, what it stands for; each type is queued once. Types without a part in one of the scope's packages
are left alone.
-/
namespace ProxyGen

/-- The catalog so far, the types to be classified, and all types queued since the walk began. -/
structure Walk where
  catalog : Catalog
  queue : List String
  visited : List String

/-- A walk that ended early, with what it had entered by then. -/
structure Walk.Halt where
  error : Error
  walk : Walk

namespace Walk

def start (c : Catalog) : Walk := ⟨c,[],[]⟩

/-- Some part of the type is a name of one of the packages. -/
def inScope (scope : List String) : TypeExpr → Bool
  | .named n => scope.contains n.path
  | .pointer t | .slice t | .array _ t | .chan _ t => inScope scope t
  | .map k v => inScope scope k || inScope scope v
  | _ => false

/-- What a type brings along: its parts, or what a name stands for unless that is a plain struct or
interface. -/
def elements (u : Universe) (t : TypeExpr) : Except Error (List TypeExpr) :=
  match t with
  | .named n =>
    match u.underlying n with
    | .error e => .error e
    | .ok t =>
      match u.shape t with
      | .error e => .error e
      | .ok s => .ok (if s.kind = .other || s.depth > 0 then [t] else [])
  | t => .ok t.children

/-- How many declared types have not been queued. -/
def undiscovered (u : Universe) (visited : List String) : Nat :=
  u.declared.countP fun entry => !visited.contains entry.1.key

def totalSize (types : List TypeExpr) : Nat := (types.flatMap TypeExpr.subexprs).length

theorem undiscovered_cons_le (u : Universe) (key : String) (visited : List String) :
    undiscovered u (key :: visited) ≤ undiscovered u visited :=
  List.countP_mono_left fun _ _ new => by simp_all

section Falls
variable {u : Universe} {t : TypeExpr} {ts : List TypeExpr}

theorem undiscovered_cons_lt {n : NamedType} {d : TypeDecl} {visited : List String}
    (declared : u.find n = .ok (some d)) (new : n.key ∉ visited) :
    undiscovered u (n.key :: visited) < undiscovered u visited :=
  countP_lt_countP (fun _ new => by simp_all) (Universe.find_eq_some declared) (by simpa using new) (by simp)

/-- The elements of a type are smaller than it, or it is a declared name. -/
theorem elements_size (known : elements u t = .ok ts) :
    totalSize ts < t.size ∨ ∃ n d, t = .named n ∧ u.find n = .ok (some d) := by
  unfold elements at known
  split at known
  next n =>
    split at known
    next => cases known
    next t stands =>
      obtain ⟨d,declared⟩ := Universe.declared_of_underlying stands
      exact .inr ⟨n,d,rfl,declared⟩
  next =>
    cases known
    exact .inl (TypeExpr.size_children t)

theorem totalSize_rest (t : TypeExpr) (rest : List TypeExpr) : totalSize rest < totalSize (t :: rest) := by
  rw [totalSize,totalSize,List.flatMap_cons,List.length_append]
  exact Nat.lt_add_of_pos_left t.size_pos

/-- A type that is queued leaves less to discover, or gives way to smaller ones. -/
theorem expansion_falls (known : elements u t = .ok ts) {visited : List String} (new : t.key ∉ visited)
    (rest : List TypeExpr) :
    Prod.Lex (· < ·) (· < ·) (undiscovered u (t.key :: visited),totalSize (ts ++ rest))
      (undiscovered u visited,totalSize (t :: rest)) := by
  rcases elements_size known with smaller | ⟨n,d,rfl,declared⟩
  · refine .right' _ (undiscovered_cons_le u _ _) ?_
    rw [totalSize,totalSize,List.flatMap_append,List.flatMap_cons,List.length_append,List.length_append]
    exact Nat.add_lt_add_right smaller _
  · exact .left _ _ (undiscovered_cons_lt declared new)

theorem elements_mem_exprs (known : elements u t = .ok ts) (among : t ∈ u.exprs) : ∀ x ∈ ts, x ∈ u.exprs := by
  unfold elements at known
  split at known
  next n =>
    split at known
    next => cases known
    next t stands =>
      split at known
      next => cases known
      next s _ =>
        cases known
        intro x member
        split at member
        · cases List.mem_singleton.mp member
          exact Universe.underlying_mem_exprs stands
        · cases member
  next =>
    cases known
    exact fun x member => Universe.subexprs_exprs among
      (TypeExpr.subexprs_of_mem_children member x (TypeExpr.mem_subexprs_self x))

end Falls

/-- Queues the types of a stack, each followed by what it brings along. All of them are mentioned by
`dependent`. -/
def queueAll (u : Universe) (scope : List String) (dependent : Option String)
    (stack : List TypeExpr) (w : Walk) : Except Halt Walk :=
  match stack with
  | [] => .ok w
  | t :: rest =>
    if inScope scope t then
      match w.catalog.register u t dependent with
      | .error e => .error ⟨e,w⟩
      | .ok c =>
        if _ : t.key ∈ w.visited then queueAll u scope dependent rest { w with catalog := c }
        else
          let w := ⟨c,w.queue ++ [t.key],t.key :: w.visited⟩
          match _ : elements u t with
          | .error e => .error ⟨e,w⟩
          | .ok ts => queueAll u scope dependent (ts ++ rest) w
    else queueAll u scope dependent rest w
termination_by (undiscovered u w.visited,totalSize stack)
decreasing_by
  · exact .right _ (totalSize_rest t rest)
  · exact expansion_falls ‹_› ‹_› rest
  · exact .right _ (totalSize_rest t rest)

def enqueue (u : Universe) (scope : List String) (t : TypeExpr) (dependent : Option String)
    (w : Walk) : Except Halt Walk := w.queueAll u scope dependent [t]

/-- The type to begin with: a name that stands for neither a reference nor an interface is
referenced, so that both forms are found. -/
def seedType (u : Universe) (root : TypeExpr) : Except Error TypeExpr :=
  match root with
  | .named n =>
    match u.shape (.named n) with
    | .error e => .error e
    | .ok s => .ok (if s.kind ≠ .interface ∧ s.depth = 0 then .pointer (.named n) else .named n)
  | t => .ok t

def seed (u : Universe) (scope : List String) (root : TypeExpr) (w : Walk) : Except Halt Walk :=
  match seedType u root with
  | .error e => .error ⟨e,w⟩
  | .ok t => w.enqueue u scope t none

/-- What bounds the rest of a walk: the types that can still be come upon, and the queue. -/
def potential (u : Universe) (w : Walk) : Nat :=
  (u.exprs.countP fun t => !w.visited.contains t.key) + w.queue.length

theorem potential_visit {u : Universe} {t : TypeExpr} {w : Walk} (among : t ∈ u.exprs) (new : t.key ∉ w.visited)
    (c : Catalog) : potential u ⟨c,w.queue ++ [t.key],t.key :: w.visited⟩ ≤ w.potential u := by
  have fewer : (u.exprs.countP fun x => !(t.key :: w.visited).contains x.key) <
      u.exprs.countP fun x => !w.visited.contains x.key :=
    countP_lt_countP (fun _ new => by simp_all) among (by simpa using new) (by simp)
  simp only [potential,List.length_append,List.length_singleton]
  omega

theorem potential_queueAll {u : Universe} {scope : List String} {dependent : Option String}
    {stack : List TypeExpr} {w w' : Walk} (queued : w.queueAll u scope dependent stack = .ok w')
    (among : ∀ t ∈ stack, t ∈ u.exprs) : w'.potential u ≤ w.potential u := by
  fun_induction queueAll u scope dependent stack w with
  | case1 =>
    cases queued
    exact Nat.le_refl _
  | case2 => cases queued
  | case3 _ _ _ _ _ _ _ ih => exact ih queued fun x member => among x (List.mem_cons_of_mem _ member)
  | case4 => cases queued
  | case5 w t rest _ c _ new w₁ ts known ih =>
    have top : t ∈ u.exprs := among t List.mem_cons_self
    refine Nat.le_trans (ih queued fun x member => ?_) (potential_visit top new c)
    rcases List.mem_append.mp member with part | below
    · exact elements_mem_exprs known top x part
    · exact among x (List.mem_cons_of_mem _ below)
  | case6 _ _ _ _ ih => exact ih queued fun x member => among x (List.mem_cons_of_mem _ member)

end Walk
end ProxyGen
