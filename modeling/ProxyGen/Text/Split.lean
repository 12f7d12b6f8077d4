/-!
Cutting lists of characters: at a known start, at every separator, at the last one, and into lines.
-/
namespace ProxyGen.Text

/-- What follows `start` in a text that begins with it. -/
def strip? : List Char → List Char → Option (List Char)
  | [], s => some s
  | _ :: _, [] => none
  | c :: start, d :: s => if c = d then strip? start s else none

def splitAll (separator : Char) : List Char → List (List Char)
  | [] => [[]]
  | c :: s =>
    match splitAll separator s with
    | [] => [[c]]
    | part :: parts => if c = separator then [] :: part :: parts else (c :: part) :: parts

/-- The lines of a text. A line ends with a line feed, before which one carriage return belongs to the
end; the last line may lack its end. -/
def lines (s : List Char) : List (List Char) :=
  let parts := splitAll '\n' s
  let ended := parts.dropLast.map fun line =>
    if line.getLast? = some '\r' then line.dropLast else line
  ended ++ (parts.getLast?.toList.filter fun line => !line.isEmpty)

def splitLast? (separator : Char) : List Char → Option (List Char × List Char)
  | [] => none
  | c :: s =>
    match splitLast? separator s with
    | some (before,after) => some (c :: before,after)
    | none => if c = separator then some ([],s) else none

/-- The part after the last `separator`, or everything where there is none. -/
def afterLast (separator : Char) (s : List Char) : List Char :=
  match splitLast? separator s with
  | some (_,after) => after
  | none => s

theorem strip?_eq_some {start s rest : List Char} :
    strip? start s = some rest ↔ s = start ++ rest := by
  induction start generalizing s with
  | nil => simp [strip?]
  | cons c start ih => cases s with
    | nil => simp [strip?]
    | cons d s => by_cases same : c = d <;> simp [strip?,same,ih,eq_comm]

theorem splitLast?_eq_none_iff {separator : Char} {s : List Char} :
    splitLast? separator s = none ↔ separator ∉ s := by
  induction s with
  | nil => simp [splitLast?]
  | cons c s ih =>
    rw [List.mem_cons,not_or,← ih,splitLast?,eq_comm (a := separator)]
    cases splitLast? separator s <;> simp

theorem splitLast?_eq_some {separator : Char} {s before after : List Char}
    (found : splitLast? separator s = some (before,after)) :
    s = before ++ separator :: after ∧ separator ∉ after := by
  induction s generalizing before after with
  | nil => cases found
  | cons c s ih =>
    unfold splitLast? at found
    split at found
    next later =>
      cases found
      obtain ⟨rfl,last⟩ := ih later
      exact ⟨rfl,last⟩
    next none =>
      split at found
      next here =>
        cases found
        exact ⟨here ▸ rfl,splitLast?_eq_none_iff.mp none⟩
      next => cases found

theorem splitLast?_last {separator : Char} (before : List Char) {after : List Char}
    (last : separator ∉ after) :
    splitLast? separator (before ++ separator :: after) = some (before,after) := by
  induction before with
  | nil => simp [splitLast?,splitLast?_eq_none_iff.mpr last]
  | cons c before ih => simp [splitLast?,ih]

end ProxyGen.Text
