import ProxyGen.Text.Quoted
import ProxyGen.TypeExpr.Parser

/-!
What can go wrong between a description and the generated code. Every error ends a run.
-/
namespace ProxyGen

inductive SettingsFault
  | noInputPackage
  | noTypeName
  | noOutputDir
  | transformerNotIdentifier (type : String)
  | noPackageName (outputDir : String)
  | packageNotIdentifier (package : String)
  /-- A reason that a caller gives. -/
  | other (reason : String)
  deriving DecidableEq

def SettingsFault.message : SettingsFault → String
  | noInputPackage => "input package is required"
  | noTypeName => "type name is required"
  | noOutputDir => "output directory is required"
  | transformerNotIdentifier type => "transformer type `" ++ type ++ "` is not an identifier"
  | noPackageName dir => "cannot derive a package name from " ++ dir
  | packageNotIdentifier package =>
    "package name `" ++ package ++ "` is not an identifier; pass one explicitly"
  | other reason => reason

inductive Error
  | unknownPackage (name : String)
  | ambiguousPackage (name : String) (candidates : List String)
  | duplicatePackage (path : String)
  | duplicateType (type : NamedType)
  | missingUnderlying (type : NamedType)
  | variadicWithoutParams (path method : String)
  | unknownType (type : NamedType)
  /-- The declared underlying types lead from a name back to it. -/
  | cyclicUnderlying (type : NamedType)
  /-- References and names alone lead from a name back to it, so that no depth can be told. The generator reports
  no such error: it would look through the names without end, and this value stands for that. -/
  | endlessReference (type : NamedType)
  | malformedType (text : String) (fault : TypeExpr.Fault)
  /-- The last parameter of a variadic method is no slice. -/
  | notForwardable (owner method param : String) (type : TypeExpr)
  | nameCollision (name first second : String)
  | settings (fault : SettingsFault)
  | foreignFile (path : String)
  deriving DecidableEq

namespace Error

def quotedList (texts : List String) : String :=
  "[" ++ String.intercalate ", " (texts.map Text.quote) ++ "]"

def message : Error → String
  | unknownPackage name => "package `" ++ name ++ "` is not part of the loaded universe"
  | ambiguousPackage name candidates =>
    "package name `" ++ name ++ "` is ambiguous: " ++ quotedList candidates
  | duplicatePackage path => "invalid universe: package `" ++ path ++ "` declared twice"
  | duplicateType type => "invalid universe: type `" ++ type.key ++ "` declared twice"
  | missingUnderlying type =>
    "invalid universe: type `" ++ type.key ++ "` of kind other has no underlying type"
  | variadicWithoutParams path method =>
    "invalid universe: variadic method `" ++ path ++ "." ++ method ++ "` has no parameters"
  | unknownType type => "type `" ++ type.key ++ "` is not declared in the loaded universe"
  | cyclicUnderlying type => "named type `" ++ type.key ++ "` resolves to itself"
  | endlessReference type => "named type `" ++ type.key ++ "` refers to itself without end"
  | malformedType text fault => "invalid type expression `" ++ text ++ "`: " ++ fault.message
  | notForwardable owner method param type =>
    "cannot forward `" ++ owner ++ "." ++ method ++ "`: variadic parameter `" ++ param ++
      "` has non-slice type `" ++ type.key ++ "`"
  | nameCollision name first second =>
    "`" ++ first ++ "` and `" ++ second ++ "` both generate `" ++ name ++ "`"
  | settings fault => "invalid configuration: " ++ fault.message
  | foreignFile path => "refusing to overwrite non-generated file " ++ path

end Error
end ProxyGen
