import ProxyGen.Text.Blank
import ProxyGen.Text.Split
import ProxyGen.Text.Uppercase
import ProxyGen.TypeExpr.Basic

/-!
Reading type expressions. A text is a sequence of heads, each of which announces one constructor, up
to the leaves of the expression. Blanks may stand around heads; a name that starts with an
upper-case letter and has no package belongs to the package in which the text was written.
-/
namespace ProxyGen.TypeExpr

inductive Fault
  | unterminatedLength
  | badLength (text : String)
  | unclosedKey
  | literalWithMembers
  | missingType
  | badQualifiedName (token : String)
  | unqualified (name : String)
  | trailing (text : String)
  deriving DecidableEq

def Fault.message : Fault → String
  | unterminatedLength => "unterminated array length"
  | badLength text => "bad array length `" ++ text ++ "`"
  | unclosedKey => "expected `]` after map key"
  | literalWithMembers => "only empty struct and interface literals are supported"
  | missingType => "expected a type"
  | badQualifiedName token => "bad qualified name `" ++ token ++ "`"
  | unqualified name => "unqualified type `" ++ name ++ "`"
  | trailing text => "unexpected trailing `" ++ text ++ "`"

/-- One constructor of an expression: a whole type, or what announces its element types. -/
inductive Head
  | leaf (type : TypeExpr)
  | pointer
  | slice
  | array (length : Nat)
  | map
  | chan (dir : ChanDir)

/-- What follows `token`, without leading blanks. -/
def eat? (token s : List Char) : Option (List Char) := (Text.strip? token s).map Text.trimStart

/-- The bound that array lengths stay below. -/
def lengthBound : Nat := Nat.pow 2 64

def digits? : List Char → Nat → Option Nat
  | [], n => some n
  | c :: s, n => if c.isDigit then digits? s (n * 10 + (c.toNat - '0'.toNat)) else none

/-- A decimal number below the bound; a plus sign may stand before it. -/
def readLength? (s : List Char) : Option Nat :=
  let s := match s with
    | '+' :: rest => rest
    | s => s
  if s.isEmpty then none
  else match digits? s 0 with
    | some n => if n < lengthBound then some n else none
    | none => none

def arrayHead (s : List Char) : Except Fault (Head × List Char) :=
  match s.dropWhile (· != ']') with
  | [] => .error .unterminatedLength
  | _ :: rest =>
    let text := s.takeWhile (· != ']')
    match readLength? (Text.trim text) with
    | some n => .ok (.array n,Text.trimStart rest)
    | none => .error (.badLength (String.ofList text))

/-- A name ends at a closing bracket, a comma or a blank. -/
def endsName (c : Char) : Bool := c == ']' || c == ',' || Text.isBlank c

def ofName (home : Option String) (token : List Char) : Except Fault TypeExpr :=
  match Text.splitLast? '.' token with
  | some (path,name) =>
    if path.isEmpty || name.isEmpty then .error (.badQualifiedName (String.ofList token))
    else .ok (.named ⟨String.ofList path,String.ofList name⟩)
  | none =>
    match token with
    | ['e','r','r','o','r'] => .ok .error
    | ['a','n','y'] => .ok .interface
    | token =>
      if token.head?.any Text.isUppercase then
        match home with
        | some path => .ok (.named ⟨path,String.ofList token⟩)
        | none => .error (.unqualified (String.ofList token))
      else .ok (.basic (String.ofList token))

def nameHead (home : Option String) (s : List Char) : Except Fault (Head × List Char) :=
  match s.takeWhile fun c => !endsName c with
  | [] => .error .missingType
  | token =>
    match ofName home token with
    | .ok t => .ok (.leaf t,s.dropWhile fun c => !endsName c)
    | .error f => .error f

def structToken : List Char := ['s','t','r','u','c','t']

def interfaceToken : List Char := ['i','n','t','e','r','f','a','c','e']

def readHead (home : Option String) (s : List Char) : Except Fault (Head × List Char) :=
  if let some rest := eat? ['*'] s then .ok (.pointer,rest)
  else if let some rest := eat? ['[',']'] s then .ok (.slice,rest)
  else if let some rest := eat? ['['] s then arrayHead rest
  else if let some rest := eat? ['m','a','p','['] s then .ok (.map,rest)
  else if let some rest := eat? ['<','-','c','h','a','n'] s then .ok (.chan .recv,rest)
  else if let some rest := eat? ['c','h','a','n','<','-'] s then .ok (.chan .send,rest)
  else if let some rest := eat? ['c','h','a','n',' '] s then .ok (.chan .both,rest)
  else if let some rest := eat? ['c','h','a','n','\t'] s then .ok (.chan .both,rest)
  else if let some rest := eat? (structToken ++ ['\x7b','\x7d']) s then .ok (.leaf .struct,rest)
  else if let some rest := eat? (interfaceToken ++ ['\x7b','\x7d']) s then
    .ok (.leaf .interface,rest)
  else if (Text.strip? structToken s).isSome || (Text.strip? interfaceToken s).isSome then
    .error .literalWithMembers
  else nameHead home s

theorem eat?_length {token s rest : List Char} (eaten : eat? token s = some rest) :
    rest.length + token.length ≤ s.length := by
  obtain ⟨behind,found,rfl⟩ := Option.map_eq_some_iff.mp eaten
  have shorter := Text.trimStart_length_le behind
  rw [Text.strip?_eq_some.mp found,List.length_append]
  omega

theorem arrayHead_length {s rest : List Char} {head : Head}
    (read : arrayHead s = .ok (head,rest)) : rest.length ≤ s.length := by
  simp only [arrayHead] at read
  split at read
  next => cases read
  next c behind closed =>
    split at read <;> cases read
    have shorter := Text.trimStart_length_le behind
    have dropped := (List.dropWhile_sublist (l := s) (· != ']')).length_le
    rw [closed,List.length_cons] at dropped
    omega

theorem nameHead_length {home : Option String} {s rest : List Char} {head : Head}
    (read : nameHead home s = .ok (head,rest)) : rest.length < s.length := by
  simp only [nameHead] at read
  split at read
  next => cases read
  next named =>
    split at read <;> cases read
    have whole := congrArg List.length (List.takeWhile_append_dropWhile (l := s)
      (p := fun c => !endsName c))
    have some : 0 < (s.takeWhile fun c => !endsName c).length := List.length_pos_iff.mpr named
    rw [List.length_append] at whole
    omega

theorem length_lt_of_eat? {token s rest : List Char} (eaten : eat? token s = some rest) (some : token ≠ []) :
    rest.length < s.length := by
  have shorter := eat?_length eaten
  have positive := List.length_pos_iff.mpr some
  omega

theorem readHead_length {home : Option String} {s rest : List Char} {head : Head}
    (read : readHead home s = .ok (head,rest)) : rest.length < s.length := by
  unfold readHead at read
  repeat' split at read
  all_goals first
    | exact nameHead_length read
    | exact Nat.lt_of_le_of_lt (arrayHead_length read) (length_lt_of_eat? ‹_› (List.cons_ne_nil _ _))
    | (cases read
       exact length_lt_of_eat? ‹_› (List.cons_ne_nil _ _))
    | cases read

/-- A type read from the front of `s`, and what follows it. -/
abbrev Front (s : List Char) := TypeExpr × { rest : List Char // rest.length < s.length }

def readFront (home : Option String) (s : List Char) : Except Fault (Front s) :=
  match read : readHead home s with
  | .error f => .error f
  | .ok (.leaf t,rest) => .ok (t,⟨rest,readHead_length read⟩)
  | .ok (.pointer,rest) => below (readHead_length read) TypeExpr.pointer (readFront home rest)
  | .ok (.slice,rest) => below (readHead_length read) TypeExpr.slice (readFront home rest)
  | .ok (.array n,rest) => below (readHead_length read) (TypeExpr.array n) (readFront home rest)
  | .ok (.chan d,rest) => below (readHead_length read) (TypeExpr.chan d) (readFront home rest)
  | .ok (.map,rest) =>
    match readFront home rest with
    | .error f => .error f
    | .ok (key,⟨afterKey,shorter⟩) =>
      match closed : eat? [']'] afterKey with
      | none => .error .unclosedKey
      | some afterBracket =>
        have remains : afterBracket.length < s.length :=
          Nat.lt_trans (length_lt_of_eat? closed (List.cons_ne_nil _ _)) (Nat.lt_trans shorter (readHead_length read))
        below remains (TypeExpr.map key) (readFront home afterBracket)
termination_by s.length
decreasing_by
  all_goals first
    | exact readHead_length read
    | exact remains
where
  below {s rest : List Char} (shorter : rest.length < s.length) (wrap : TypeExpr → TypeExpr) :
      Except Fault (Front rest) → Except Fault (Front s)
    | .error f => .error f
    | .ok (t,⟨behind,further⟩) => .ok (wrap t,⟨behind,Nat.lt_trans further shorter⟩)

/-- Reads a text that was written in the package `home`; nothing but blanks may follow the type. -/
def parse (home : Option String) (text : String) : Except Fault TypeExpr :=
  match readFront home (Text.trim text.toList) with
  | .error f => .error f
  | .ok (t,rest) =>
    match Text.trim rest.val with
    | [] => .ok t
    | left => .error (.trailing (String.ofList left))

end ProxyGen.TypeExpr
