import ProxyGen.CommandLine.Basic
import ProxyGen.CommandLine.Word

/-!
Reading command lines. The first problem from the left is reported, and missing options last. An option
without a value of its own takes the next argument if that has no dash, and what it got is looked at
when the next known switch is met or at the end; an unknown argument comes before that.
-/
namespace ProxyGen.CommandLine

structure Progress where
  values : List (Opt × String)
  flags : List Flag
  /-- The latest option, until it is looked at, with the value it got. -/
  pending : Option (Opt × Option String)
  deriving DecidableEq

namespace Progress

def start : Progress := ⟨[],[],none⟩

def assign (p : Progress) (o : Opt) : Option String → Except Stop Progress
  | none => .error (.missingValue o)
  | some value =>
    if (p.values.lookup o).isSome then .error (.repeated (.opt o))
    else if o.isPath && value.isEmpty then .error (.emptyValue o)
    else .ok { p with values := p.values ++ [(o,value)] }

def settle (p : Progress) : Except Stop Progress :=
  match p.pending with
  | none => .ok p
  | some (o,value) => { p with pending := none }.assign o value

def take (p : Progress) (s : Switch) : Except Stop Progress := do
  let p ← p.settle
  match s with
  | .opt o => return { p with pending := some (o,none) }
  | .flag f =>
    if f ∈ p.flags then throw (.repeated s)
    return { p with flags := p.flags ++ [f] }
  | .help => throw .help
  | .version => throw .version

def takeLong (p : Progress) (name : String) (value : Option String) : Except Stop Progress :=
  match names.lookup name, value with
  | none, _ => .error (.unknownArgument ("--" ++ name))
  | some s, none => p.take s
  | some (.opt o), some value => do (← p.settle).assign o (some value)
  | some s, some value => .error (.unexpectedValue s value)

def takeShort (p : Progress) : List Char → Except Stop Progress
  | [] => .ok p
  | c :: rest =>
    match letters.lookup c with
    | none => .error (.unknownArgument (String.ofList ['-',c]))
    | some s => do takeShort (← p.take s) rest

/-- Takes an argument without a dash, which only an option can have a use for. -/
def takePlain (p : Progress) (text : String) : Except Stop Progress :=
  match p.pending with
  | some (o,none) => .ok { p with pending := some (o,some text) }
  | _ => .error (.unknownArgument text)

def takeAll (p : Progress) : List String → Except Stop Progress
  | [] => p.settle
  | argument :: rest =>
    match Word.of argument, rest with
    | .separator, [] => p.settle
    | .separator, next :: _ => .error (.unknownArgument next)
    | .long name value, rest => do takeAll (← p.takeLong name value) rest
    | .short cs, rest => do takeAll (← p.takeShort cs) rest
    | .plain text, rest => do takeAll (← p.takePlain text) rest

def value? (p : Progress) (o : Opt) : Option String := p.values.lookup o

def finish (p : Progress) : Except Stop Invocation :=
  match p.value? .universe, p.value? .input, p.value? .type, p.value? .output with
  | some file, some input, some type, some output =>
    .ok {
      settings := {
        universeFile := file
        inputPackage := input
        typeName := type
        additionalPackages := Settings.packageList ((p.value? .additionalPackages).getD "")
        outputDir := output
        package := p.value? .package
        transformerPackage :=
          (p.value? .transformerPackage).getD Settings.defaultTransformerPackage
        transformerType := (p.value? .transformerType).getD Settings.defaultTransformerType
        dryRun := p.flags.contains .dryRun }
      json := p.flags.contains .json
      verbose := p.flags.contains .verbose }
  | _, _, _, _ => .error (.missing (Opt.required.filter fun o => (p.value? o).isNone))

end Progress

/-- Reads the arguments after the name of the program. -/
def parse (arguments : List String) : Except Stop Invocation := do
  (← Progress.start.takeAll arguments).finish

end ProxyGen.CommandLine
