import ProxyGen.Settings

/-!
The options and flags of the command line. An option takes a value, a flag takes none.
-/
namespace ProxyGen.CommandLine

inductive Opt
  | universe
  | input
  | type
  | additionalPackages
  | output
  | package
  | transformerPackage
  | transformerType
  deriving DecidableEq

inductive Flag
  | dryRun
  | json
  | verbose
  deriving DecidableEq

inductive Switch
  | opt (o : Opt)
  | flag (f : Flag)
  | help
  | version
  deriving DecidableEq

def names : List (String × Switch) :=
  [("universe",.opt .universe),("input",.opt .input),("type",.opt .type),
    ("additional-pkgs",.opt .additionalPackages),("output",.opt .output),
    ("pkg",.opt .package),("transformer-pkg",.opt .transformerPackage),
    ("transformer-type",.opt .transformerType),("dry-run",.flag .dryRun),
    ("json",.flag .json),("verbose",.flag .verbose),("help",.help),("version",.version)]

def letters : List (Char × Switch) := [('v',.flag .verbose),('h',.help),('V',.version)]

def Switch.name (s : Switch) : String := ((names.find? (·.2 == s)).map (·.1)).getD ""

def Opt.name (o : Opt) : String := (Switch.opt o).name

def Opt.required : List Opt := [.universe,.input,.type,.output]

/-- Paths may not be empty. -/
def Opt.isPath (o : Opt) : Bool := o == .universe || o == .output

inductive Stop
  | help
  | version
  | unknownArgument (argument : String)
  | missingValue (o : Opt)
  | emptyValue (o : Opt)
  | repeated (s : Switch)
  | unexpectedValue (s : Switch) (value : String)
  | missing (options : List Opt)
  deriving DecidableEq

def Stop.message : Stop → String
  | help =>
    "Options: " ++ String.intercalate " " (names.map fun n => "--" ++ n.1)
  | version => "ProxyGen 1.0"
  | unknownArgument argument => "unexpected argument " ++ Text.quote argument
  | missingValue o => "a value is required for --" ++ o.name
  | emptyValue o => "the value for --" ++ o.name ++ " may not be empty"
  | repeated s => "--" ++ s.name ++ " cannot be used multiple times"
  | unexpectedValue s value => "unexpected value " ++ Text.quote value ++ " for --" ++ s.name
  | missing options =>
    "missing required options: " ++ String.intercalate ", " (options.map fun o => "--" ++ o.name)

/-- Help and version are what was asked for, all else is a fault. -/
def Stop.isAnswer (s : Stop) : Bool := s == help || s == version

structure Invocation where
  settings : Settings
  json : Bool
  verbose : Bool
  deriving DecidableEq

end ProxyGen.CommandLine
