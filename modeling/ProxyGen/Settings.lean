import ProxyGen.Error
import ProxyGen.Json.Record
import ProxyGen.Path
import ProxyGen.Text.Alphabetic
import ProxyGen.Text.Blank

/-!
Everything one run needs to know, and the checks before it starts.
-/
namespace ProxyGen

structure Settings where
  universeFile : String
  /-- The path or the name of the package with the root type. -/
  inputPackage : String
  typeName : String
  additionalPackages : List String
  outputDir : String
  /-- The package of the generated code, unless the output directory names it. -/
  package : Option String
  transformerPackage : String
  transformerType : String
  dryRun : Bool
  deriving DecidableEq

namespace Settings

def defaultTransformerPackage : String := "github.com/CannibalVox/errproxy"

def defaultTransformerType : String := "ErrorTransformer"

def ofJson? (j : Json) : Option Settings :=
  match Json.record?
    ["universe","input_package","type_name","additional_packages","output_dir","package",
      "transformer_package","transformer_type","dry_run"] j with
  | some [file,input,type,additional,output,package,transformerPackage,transformerType,
      dryRun] => do
    let file ← Json.required Json.string? file
    let input ← Json.required Json.string? input
    let type ← Json.required Json.string? type
    let additional ← Json.orElse [] (Json.list? Json.string?) additional
    let output ← Json.required Json.string? output
    let package ← Json.orElse none (Json.nullable? Json.string?) package
    let transformerPackage ← Json.orElse defaultTransformerPackage Json.string? transformerPackage
    let transformerType ← Json.orElse defaultTransformerType Json.string? transformerType
    let dryRun ← Json.orElse false Json.bool? dryRun
    some ⟨file,input,type,additional,output,package,transformerPackage,transformerType,
      dryRun⟩
  | _ => none

/-- The items of a list that is separated by commas, without blanks around them and without empty
ones. -/
def packageList (list : String) : List String :=
  (((Text.splitAll ',' list.toList).map Text.trim).filter fun item => !item.isEmpty).map String.ofList

/-- The package of the generated code: the one that is given, or the name of the output directory. A relative output
directory lies in the working directory `here`, if that is known. -/
def packageName (s : Settings) (here : Option String := some "/") : Except Error String :=
  match s.package.filter (· != "") with
  | some package => .ok package
  | none =>
    match Path.lastNameIn? here s.outputDir with
    | some name => .ok name
    | none => .error (.settings (.noPackageName s.outputDir))

def isBlankText (s : String) : Bool := s.toList.all Text.isBlank

def validate (s : Settings) (here : Option String := some "/") : Except Error Unit := do
  if isBlankText s.inputPackage then
    throw (.settings .noInputPackage)
  if isBlankText s.typeName then
    throw (.settings .noTypeName)
  if s.outputDir.isEmpty then
    throw (.settings .noOutputDir)
  if !Text.isIdentifier s.transformerType then
    throw (.settings (.transformerNotIdentifier s.transformerType))
  let package ← s.packageName here
  if !Text.isIdentifier package then
    throw (.settings (.packageNotIdentifier package))

end Settings
end ProxyGen
