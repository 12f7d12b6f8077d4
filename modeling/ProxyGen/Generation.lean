import ProxyGen.Analysis
import ProxyGen.Failure
import ProxyGen.Proxy.Unit
import ProxyGen.Settings
import ProxyGen.Summary

/-!
Generation: from settings and a universe to generated files and a summary. Nothing is read or written.
-/
namespace ProxyGen

def Settings.check (s : Settings) (here : Option String := some "/") : Except Failure Unit :=
  Task.checkSettings.check (s.validate here)

def Settings.target (s : Settings) (here : Option String := some "/") : Except Error Target := do
  return ⟨← s.packageName here,s.transformerPackage,s.transformerType⟩

structure Generation where
  units : List OutputUnit
  summary : Summary

namespace Generation

/-- Resolves the additional packages; those that are among `packages` already are not repeated. -/
def addPackages (u : Universe) : List String → List String → Except Failure (List String)
  | packages, [] => .ok packages
  | packages, name :: rest => do
    let path ← (Task.resolveAdditional name).check (u.resolvePackage name)
    addPackages u (if path ∈ packages then packages else packages ++ [path]) rest

def summarize (s : Settings) (root : TypeExpr) (packages : List String) (a : Analysis)
    (units : List OutputUnit) : Summary where
  root := root.key
  packages := packages
  discoveredTypes := a.catalog.entries.length
  dependencyEdges := a.catalog.edges.length
  statusUpgrades := a.upgrades
  wrappedTypes := a.catalog.wrapped.length
  outputDir := s.outputDir
  dryRun := s.dryRun
  units := units.map fun unit => ⟨unit.fileName,unit.proxyName,unit.variants⟩

def run (s : Settings) (u : Universe) (here : Option String := some "/") : Except Failure Generation := do
  let input ← Task.resolveInput.check (u.resolvePackage s.inputPackage)
  let root ← Task.locateRoot.check (u.lookupType input s.typeName)
  let packages ← addPackages u [input] s.additionalPackages
  let a ← Task.analyze.check (Analysis.run u root packages)
  let target ← (s.target here).mapError fun e => ⟨[],.error e⟩
  let units ← Task.synthesize.check (Plan.units ⟨a.catalog,u,target⟩)
  return ⟨units,summarize s root packages a units⟩

end Generation
end ProxyGen
