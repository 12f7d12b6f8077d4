import ProxyGen.Failure
import ProxyGen.Proxy.Unit

/-!
Where generated files go.
-/
namespace ProxyGen

structure Sink (m : Type → Type) where
  /-- Is given all files once, before any of them is written. -/
  prepare : List OutputUnit → ExceptT Failure m Unit
  write : OutputUnit → ExceptT Failure m Unit

def Sink.store {m : Type → Type} [Monad m] (s : Sink m) (units : List OutputUnit) :
    ExceptT Failure m Unit := do
  Task.prepareOutput.within (s.prepare units)
  units.forM fun unit => (Task.writeUnit unit.fileName).within (s.write unit)

end ProxyGen
