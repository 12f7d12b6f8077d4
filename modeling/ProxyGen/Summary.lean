import ProxyGen.Json.Record

/-!
The summary of a run: what was found and what was written, as text and in JSON.
-/
namespace ProxyGen

structure UnitSummary where
  fileName : String
  proxy : String
  variants : List String
  deriving DecidableEq

structure Summary where
  root : String
  packages : List String
  discoveredTypes : Nat
  dependencyEdges : Nat
  statusUpgrades : Nat
  wrappedTypes : Nat
  outputDir : String
  dryRun : Bool
  units : List UnitSummary
  deriving DecidableEq

def UnitSummary.text (unit : UnitSummary) : String :=
  "  " ++ unit.fileName ++ " (" ++ unit.proxy ++ ": " ++ String.intercalate ", " unit.variants ++ ")"

def UnitSummary.ofJson? (j : Json) : Option UnitSummary :=
  match Json.record? ["file_name","proxy","variants"] j with
  | some [fileName,proxy,variants] => do
    let fileName ← Json.required Json.string? fileName
    let proxy ← Json.required Json.string? proxy
    let variants ← Json.required (Json.list? Json.string?) variants
    some ⟨fileName,proxy,variants⟩
  | _ => none

def UnitSummary.toJson (unit : UnitSummary) : Json :=
  .object
    [("file_name",.string unit.fileName),("proxy",.string unit.proxy),
      ("variants",.array (unit.variants.map .string))]

namespace Summary

def text (s : Summary) : String :=
  let found := "Discovered " ++ toString s.discoveredTypes ++ " types (" ++
    toString s.dependencyEdges ++ " dependency edges), " ++ toString s.wrappedTypes ++ " wrapped"
  let written := (if s.dryRun then "Would write " else "Wrote ") ++ toString s.units.length ++
    " units to " ++ s.outputDir
  String.intercalate "\n"
    (("Root type: " ++ s.root) :: found :: written :: s.units.map UnitSummary.text)

/-- Reads a summary, of which nothing may be missing. -/
def ofJson? (j : Json) : Option Summary :=
  match Json.record?
    ["root","packages","discovered_types","dependency_edges","status_upgrades",
      "wrapped_types","output_dir","dry_run","units"] j with
  | some [root,packages,types,edges,upgrades,wrapped,output,dryRun,units] => do
    let root ← Json.required Json.string? root
    let packages ← Json.required (Json.list? Json.string?) packages
    let types ← Json.required Json.count? types
    let edges ← Json.required Json.count? edges
    let upgrades ← Json.required Json.count? upgrades
    let wrapped ← Json.required Json.count? wrapped
    let output ← Json.required Json.string? output
    let dryRun ← Json.required Json.bool? dryRun
    let units ← Json.required (Json.list? UnitSummary.ofJson?) units
    some ⟨root,packages,types,edges,upgrades,wrapped,output,dryRun,units⟩
  | _ => none

def toJson (s : Summary) : Json :=
  .object
    [("root",.string s.root),("packages",.array (s.packages.map .string)),
      ("discovered_types",.ofNat s.discoveredTypes),
      ("dependency_edges",.ofNat s.dependencyEdges),
      ("status_upgrades",.ofNat s.statusUpgrades),("wrapped_types",.ofNat s.wrappedTypes),
      ("output_dir",.string s.outputDir),("dry_run",.bool s.dryRun),
      ("units",.array (s.units.map UnitSummary.toJson))]

end Summary
end ProxyGen
