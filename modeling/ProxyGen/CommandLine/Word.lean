import ProxyGen.Text.Split

/-!
The forms of a single argument.
-/
namespace ProxyGen.CommandLine

inductive Word
  /-- Two dashes alone: no switch follows. -/
  | separator
  /-- A long name, and what follows the first equals sign. -/
  | long (name : String) (value : Option String)
  | short (letters : List Char)
  | plain (text : String)
  deriving DecidableEq

def splitAssignment (s : List Char) : Word :=
  match s.dropWhile (· != '=') with
  | [] => .long (String.ofList s) none
  | _ :: value => .long (String.ofList (s.takeWhile (· != '='))) (some (String.ofList value))

def Word.of (argument : String) : Word :=
  match argument.toList with
  | ['-','-'] => .separator
  | '-' :: '-' :: rest => splitAssignment rest
  | '-' :: c :: rest => .short (c :: rest)
  | _ => .plain argument

end ProxyGen.CommandLine
