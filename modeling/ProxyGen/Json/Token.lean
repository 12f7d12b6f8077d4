import ProxyGen.Json.Basic
import ProxyGen.Text.Split

/-!
The tokens of JSON text.
-/
namespace ProxyGen.Json

inductive Token
  | openBrace
  | closeBrace
  | openBracket
  | closeBracket
  | comma
  | colon
  /-- A string; none when it names half of a surrogate pair. -/
  | text (content : Option String)
  /-- A number, a truth value or null. -/
  | atom (value : Json)

def isSpace (c : Char) : Bool := c == ' ' || c == '\t' || c == '\n' || c == '\r'

def hexDigit? (c : Char) : Option Nat :=
  if c.isDigit then some (c.toNat - '0'.toNat)
  else if 'a' ≤ c && c ≤ 'f' then some (c.toNat - 'a'.toNat + 10)
  else if 'A' ≤ c && c ≤ 'F' then some (c.toNat - 'A'.toNat + 10)
  else none

/-- A code unit in four hexadecimal digits, and what follows. -/
def codeUnit? : List Char → Option (Nat × List Char)
  | a :: b :: c :: d :: rest => do
    let a ← hexDigit? a
    let b ← hexDigit? b
    let c ← hexDigit? c
    let d ← hexDigit? d
    some (((a * 16 + b) * 16 + c) * 16 + d,rest)
  | _ => none

theorem codeUnit?_length {s rest : List Char} {n : Nat} (read : codeUnit? s = some (n,rest)) :
    rest.length < s.length := by
  unfold codeUnit? at read
  split at read
  next =>
    simp only [Option.bind_eq_bind,Option.bind_eq_some_iff] at read
    obtain ⟨_,_,_,_,_,_,_,_,digits⟩ := read
    cases digits
    simp only [List.length_cons]
    omega
  next => cases read

def escapeLetter? : Char → Option Char
  | '"' => some '"'
  | '\\' => some '\\'
  | '/' => some '/'
  | 'b' => some '\x08'
  | 'f' => some '\x0c'
  | 'n' => some '\n'
  | 'r' => some '\r'
  | 't' => some '\t'
  | _ => none

/-- An escape after its backslash: the character, or none for half of a surrogate pair, and what
follows. -/
def escape? : List Char → Option (Option Char × List Char)
  | 'u' :: s => do
    let (n,rest) ← codeUnit? s
    if 0xD800 ≤ n && n < 0xDC00 then
      match rest with
      | '\\' :: 'u' :: low =>
        let (m,rest') ← codeUnit? low
        if 0xDC00 ≤ m && m < 0xE000 then
          some (some (Char.ofNat (0x10000 + (n - 0xD800) * 0x400 + (m - 0xDC00))),rest')
        else some (none,rest)
      | _ => some (none,rest)
    else if 0xDC00 ≤ n && n < 0xE000 then some (none,rest)
    else some (some (Char.ofNat n),rest)
  | c :: s => (escapeLetter? c).map fun c => (some c,s)
  | [] => none

theorem escape?_length {s rest : List Char} {c : Option Char} (read : escape? s = some (c,rest)) :
    rest.length < s.length := by
  unfold escape? at read
  split at read
  next =>
    obtain ⟨⟨n,afterUnit⟩,first,read⟩ := Option.bind_eq_some_iff.mp read
    have shorter := codeUnit?_length first
    simp only at read
    split at read
    · split at read
      -- The first half of a pair, with or without the second behind it.
      next low =>
        obtain ⟨⟨m,afterLow⟩,second,read⟩ := Option.bind_eq_some_iff.mp read
        have further := codeUnit?_length second
        simp only [List.length_cons] at shorter
        simp only at read
        split at read <;> cases read <;> simp only [List.length_cons] <;> omega
      next =>
        cases read
        exact Nat.lt_succ_of_lt shorter
    · split at read <;> cases read <;> exact Nat.lt_succ_of_lt shorter
  next =>
    obtain ⟨_,_,same⟩ := Option.map_eq_some_iff.mp read
    cases same
    exact Nat.lt_succ_self _
  next => cases read

/-- The rest of a string after its opening quote; `done` holds the characters so far, latest first,
or nothing once the string is known to be unreadable. -/
def scanText (done : Option (List Char)) (s : List Char) : Option (Option String × List Char) :=
  match s with
  | [] => none
  | '"' :: rest => some (done.map fun cs => String.ofList cs.reverse, rest)
  | '\\' :: rest =>
    match _ : escape? rest with
    | none => none
    | some (c,rest') => scanText (do (← c) :: (← done)) rest'
  | c :: rest => if c.toNat < 0x20 then none else scanText (done.map (c :: ·)) rest
termination_by s.length
decreasing_by
  · exact Nat.lt_succ_of_lt (escape?_length ‹_›)
  · exact Nat.lt_succ_self _

theorem scanText_length {done : Option (List Char)} {s rest : List Char} {t : Option String}
    (read : scanText done s = some (t,rest)) : rest.length < s.length := by
  fun_induction scanText done s with
  | case1 => cases read
  | case2 =>
    cases read
    exact Nat.lt_succ_self _
  | case3 => cases read
  | case4 _ _ _ _ escaped ih =>
    exact Nat.lt_succ_of_lt (Nat.lt_trans (ih read) (escape?_length escaped))
  | case5 => cases read
  | case6 _ _ _ _ _ _ ih => exact Nat.lt_succ_of_lt (ih read)

def afterDigits? (s : List Char) : Option (List Char) :=
  if s.head?.any Char.isDigit then some (s.dropWhile Char.isDigit) else none

/-- What follows the digits before the point; a leading zero stands alone. -/
def afterWhole? : List Char → Option (List Char)
  | '0' :: rest => some rest
  | s => afterDigits? s

def afterFraction? : List Char → Option (List Char)
  | '.' :: rest => afterDigits? rest
  | s => some s

def afterExponent? : List Char → Option (List Char)
  | c :: rest =>
    if c == 'e' || c == 'E' then
      match rest with
      | '+' :: rest | '-' :: rest => afterDigits? rest
      | rest => afterDigits? rest
    else some (c :: rest)
  | [] => some []

/-- A number has a whole part and may have a sign, a fraction and an exponent. -/
def isNumber (s : List Char) : Bool :=
  let unsigned := match s with
    | '-' :: rest => rest
    | s => s
  match (do afterExponent? (← afterFraction? (← afterWhole? unsigned))) with
  | some [] => true
  | _ => false

def inNumber (c : Char) : Bool :=
  c.isDigit || c == '-' || c == '+' || c == '.' || c == 'e' || c == 'E'

def scanToken (c : Char) (s : List Char) : Option (Token × List Char) :=
  match c with
  | '\x7b' => some (.openBrace,s)
  | '\x7d' => some (.closeBrace,s)
  | '[' => some (.openBracket,s)
  | ']' => some (.closeBracket,s)
  | ',' => some (.comma,s)
  | ':' => some (.colon,s)
  | '"' => (scanText (some []) s).map fun (t,rest) => (.text t,rest)
  | 't' => (Text.strip? ['r','u','e'] s).map fun rest => (.atom (.bool true),rest)
  | 'f' => (Text.strip? ['a','l','s','e'] s).map fun rest => (.atom (.bool false),rest)
  | 'n' => (Text.strip? ['u','l','l'] s).map fun rest => (.atom .null,rest)
  | c =>
    let literal := c :: s.takeWhile inNumber
    if isNumber literal then
      some (.atom (.number (String.ofList literal)),s.dropWhile inNumber)
    else none

theorem strip?_length {start s rest : List Char} {t v : Token}
    (read : (Text.strip? start s).map (fun rest => (v,rest)) = some (t,rest)) : rest.length ≤ s.length := by
  obtain ⟨_,found,same⟩ := Option.map_eq_some_iff.mp read
  cases same
  rw [Text.strip?_eq_some.mp found,List.length_append]
  exact Nat.le_add_left _ _

theorem scanToken_length {c : Char} {s rest : List Char} {t : Token}
    (read : scanToken c s = some (t,rest)) : rest.length ≤ s.length := by
  unfold scanToken at read
  split at read
  -- A text, the three words, a number; all others are marks of one character.
  case h_7 =>
    obtain ⟨_,found,same⟩ := Option.map_eq_some_iff.mp read
    cases same
    exact Nat.le_of_lt (scanText_length found)
  case h_8 | h_9 | h_10 => exact strip?_length read
  case h_11 =>
    simp only at read
    split at read <;> cases read
    exact (List.dropWhile_sublist _).length_le
  all_goals
    cases read
    exact Nat.le_refl _

/-- The tokens of `s` after those of `done`, which stand latest first. -/
def scanTokens (done : List Token) (s : List Char) : Option (List Token) :=
  match s with
  | [] => some done.reverse
  | c :: s =>
    if isSpace c then scanTokens done s
    else match _ : scanToken c s with
      | none => none
      | some (token,rest) => scanTokens (token :: done) rest
termination_by s.length
decreasing_by
  · exact Nat.lt_succ_self _
  · exact Nat.lt_succ_of_le (scanToken_length ‹_›)

def tokens? (text : String) : Option (List Token) := scanTokens [] text.toList

end ProxyGen.Json
