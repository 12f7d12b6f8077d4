import ProxyGen.Catalog.Basic

/-!
Spreading statuses along the edges of a catalog. Starting from every entry in the order of keys, a type
that needs a proxy raises the types that mention it, and these raise others in turn, the latest raised
first.
-/
namespace ProxyGen.Catalog

/-- How far the statuses of a catalog can still be raised. -/
def headroom (c : Catalog) : Nat :=
  c.entries.countP (·.status < .soft) + c.entries.countP (·.status < .hard)

/-- Raises the given types to what a type of status `s` passes on to them, those that are below `s`.
Also gives the raised ones, latest first, before those of `raised`. -/
def raiseAll (s : Status) : List String → Catalog → List String → Catalog × List String
  | [], c, raised => (c,raised)
  | d :: rest, c, raised =>
    match c.entry? d with
    | none => raiseAll s rest c raised
    | some e =>
      if e.status < s then
        raiseAll s rest (c.raise d (s.passedTo e.descriptor.kind)) (d :: raised)
      else raiseAll s rest c raised

section Raise
variable {c : Catalog} {key : String} {e : Entry} {s : Status}

theorem countP_raise (c : Catalog) (key : String) (s bound : Status) :
    (c.raise key s).entries.countP (·.status < bound) =
      c.entries.countP fun e => (if e.key == key then e.raise s else e).status < bound :=
  List.countP_map

theorem countP_raise_le (c : Catalog) (key : String) (s bound : Status) :
    (c.raise key s).entries.countP (·.status < bound) ≤ c.entries.countP (·.status < bound) := by
  rw [countP_raise]
  refine List.countP_mono_left fun e _ below => decide_eq_true ?_
  have below := of_decide_eq_true below
  split at below
  · exact Nat.lt_of_le_of_lt (e.le_raise s) below
  · exact below

theorem countP_raise_lt (found : c.entry? key = some e) (lower : e.status < s) :
    (c.raise key s).entries.countP (·.status < s) < c.entries.countP (·.status < s) := by
  have same : (e.key == key) = true := by simpa using List.find?_some found
  rw [countP_raise]
  refine countP_lt_countP (fun x below => decide_eq_true ?_) (List.mem_of_find?_eq_some found)
    (decide_eq_true lower) ?_
  · have below := of_decide_eq_true below
    split at below
    · exact Nat.lt_of_le_of_lt (x.le_raise s) below
    · exact below
  · rw [if_pos same,Entry.status_raise lower]
    exact decide_eq_false (Nat.lt_irrefl _)

theorem headroom_raise_lt (found : c.entry? key = some e) (lower : e.status < s) :
    (c.raise key s).headroom < c.headroom := by
  have falls := countP_raise_lt found lower
  cases s with
  | none => exact absurd lower (Nat.not_lt_zero _)
  | soft => exact Nat.add_lt_add_of_lt_of_le falls (countP_raise_le c key _ _)
  | hard => exact Nat.add_lt_add_of_le_of_lt (countP_raise_le c key _ _) falls

end Raise

theorem headroom_raiseAll (s : Status) (types : List String) (c : Catalog) (raised : List String) :
    raiseAll s types c raised = (c,raised) ∨ (raiseAll s types c raised).1.headroom < c.headroom := by
  induction types generalizing c raised with
  | nil => exact .inl rfl
  | cons d rest ih =>
    rw [raiseAll]
    split
    next => exact ih c raised
    next e found =>
      split
      next lower =>
        have lower : e.status < s.passedTo e.descriptor.kind := Nat.lt_of_lt_of_le lower (s.le_passedTo _)
        have falls := headroom_raise_lt found lower
        rcases ih (c.raise d (s.passedTo e.descriptor.kind)) (d :: raised) with same | further
        · rw [same]
          exact .inr falls
        · exact .inr (Nat.lt_trans further falls)
      next => exact ih c raised

/-- Works off a stack of types; `count` upgrades have been made before. -/
def spread (c : Catalog) (stack : List String) (count : Nat) : Catalog × Nat :=
  match stack with
  | [] => (c,count)
  | source :: rest =>
    match c.entry? source with
    | none => spread c rest count
    | some e =>
      if e.status = .none then spread c rest count
      else
        let step := raiseAll e.status (c.dependents source) c []
        spread step.1 (step.2 ++ rest) (count + step.2.length)
termination_by (c.headroom,stack.length)
decreasing_by
  · exact .right _ (by simp)
  · exact .right _ (by simp)
  · rcases headroom_raiseAll e.status (c.dependents source) c [] with same | falls
    · rw [same]
      exact .right _ (by simp)
    · exact .left _ _ falls

/-- Spreads from every entry. Also gives the number of upgrades. -/
def resolve (c : Catalog) : Catalog × Nat :=
  (c.sorted.map (·.key)).foldl (fun (c,count) source => spread c [source] count) (c,0)

end ProxyGen.Catalog
