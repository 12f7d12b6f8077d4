import ProxyGen.Proofs.Analyses
import ProxyGen.Proofs.Evaluation

/-! What an analysis leaves out: nothing. The catalog of a finished analysis is closed under all that the
walk follows, its statuses are as high as its edges and its error results call for, and every method
that a type offers is claimed by a variant that lists it. -/
namespace ProxyGen
namespace Analysis

def WithinScope (scope : List String) (c : Catalog) : Prop :=
  ∀ e ∈ c.entries, Walk.inScope scope e.descriptor.type = true

/-- What types are made of, and what names stand for unless that is a plain struct or interface. -/
structure PartsEntered (u : Universe) (scope : List String) (c : Catalog) : Prop where
  children : ∀ e ∈ c.entries, ∀ t ∈ e.descriptor.type.children,
    Walk.inScope scope t = true → t.key ∈ c.keys
  underlying : ∀ e ∈ c.entries, ∀ n, e.descriptor.type = .named n →
    ∃ t s, u.underlying n = .ok t ∧ u.shape t = .ok s ∧
      (¬ (s.depth = 0 ∧ (s.kind = .struct ∨ s.kind = .interface)) →
        Walk.inScope scope t = true → t.key ∈ c.keys)

/-- What listed methods return is entered and linked, and the status of a type is as high as the status of
what it returns and as its error results call for. -/
structure ResultsMet (u : Universe) (scope : List String) (c : Catalog) : Prop where
  values : ∀ e ∈ c.entries, ∀ m ∈ e.methods, ∀ r ∈ m.signature.results, r.type.isError = false →
    Walk.inScope scope r.type = true → ∃ source ∈ c.entries, source.key = r.type.key ∧
      (source.key,e.key) ∈ c.edges ∧ source.status.effective e.descriptor.kind ≤ e.status
  errors : ∀ e ∈ c.entries, ∀ m ∈ e.methods, ∀ r ∈ m.signature.results, r.type.isError = true →
    ∃ methods, u.methodSet e.descriptor.type = .ok methods ∧
      (e.status = .hard ∨ e.descriptor.kind = .interface ∧ .soft ≤ e.status ∧
        ∀ m' ∈ methods, m'.exported = true)

/-- Every name that a type offers is claimed in its group, by a member that lists it. -/
def Claimed (u : Universe) (c : Catalog) : Prop :=
  ∀ e ∈ c.entries, ∃ methods, u.methodSet e.descriptor.type = .ok methods ∧
    ∀ m ∈ methods, m.exported = true → ∃ g ∈ c.groups, g.key = e.root ∧
      ∃ claim, g.claim? m.name = some claim ∧ claim.owner ∈ g.members ∧
        ∃ owner ∈ c.entries, owner.key = claim.owner ∧ owner.root = g.key ∧
          ∃ m' ∈ owner.methods, m'.name = m.name

/-- An analysis that has left nothing out. -/
structure Complete (u : Universe) (scope : List String) (a : Analysis) : Prop where
  within : WithinScope scope a.catalog
  visited : a.visited = a.catalog.entries.length
  parts : PartsEntered u scope a.catalog
  results : ResultsMet u scope a.catalog
  claims : Claimed u a.catalog

namespace Finished
variable {u : Universe} {scope : List String} {a : Analysis} {w : Walk}

theorem length (finished : Finished u scope a w) : a.visited = a.catalog.entries.length := by
  have counted := congrArg List.length finished.orderly.explored.visited
  rw [List.length_reverse] at counted
  rw [finished.visited]
  calc w.visited.length = w.catalog.keys.length := counted.symm
    _ = a.catalog.keys.length := by rw [finished.keys]
    _ = a.catalog.entries.length := List.length_map _

theorem withinScope (finished : Finished u scope a w) : WithinScope scope a.catalog := by
  intro e member
  obtain ⟨e₀,present,same,_⟩ := finished.origin member
  rw [← same]
  exact finished.orderly.explored.inside e₀ present

theorem brought (finished : Finished u scope a w) {e : Entry} (member : e ∈ a.catalog.entries) :
    ∃ ts, Walk.elements u e.descriptor.type = .ok ts ∧
      ∀ t ∈ ts, Walk.inScope scope t = true → t.key ∈ a.catalog.keys := by
  obtain ⟨e₀,present,same,_⟩ := finished.origin member
  rw [← same,finished.keys]
  rcases finished.orderly.explored.parts e₀ present with later | ⟨ts,known,covered⟩
  · cases later
  · refine ⟨ts,known,?_⟩
    intro t part inside
    rcases covered t part inside with entered | onStack
    · exact entered
    · cases onStack

theorem partsEntered (finished : Finished u scope a w) : PartsEntered u scope a.catalog where
  children := by
    intro e member t child inside
    obtain ⟨ts,known,covered⟩ := finished.brought member
    cases type : e.descriptor.type with
    | named n =>
      rw [type] at child
      cases child
    | _ =>
      rw [type] at known child
      cases known
      exact covered t child inside
  underlying := by
    intro e member n type
    obtain ⟨ts,known,covered⟩ := finished.brought member
    rw [type] at known
    unfold Walk.elements at known
    cases stands : u.underlying n with
    | error err => simp [stands] at known
    | ok t =>
      cases shaped : u.shape t with
      | error err => simp [stands,shaped] at known
      | ok s =>
        refine ⟨t,s,rfl,shaped,?_⟩
        intro followed inside
        simp only [stands,shaped,Except.ok.injEq] at known
        have brings : (decide (s.kind = .other) || decide (s.depth > 0)) = true := by
          cases kind : s.kind <;> simp_all [Nat.pos_iff_ne_zero]
        rw [if_pos brings] at known
        subst known
        exact covered t List.mem_cons_self inside

theorem answered (finished : Finished u scope a w) {e : Entry} (member : e ∈ a.catalog.entries)
    {m : Selection} (listed : m ∈ e.methods) {r : Param} (result : r ∈ m.signature.results) :
    a.catalog.Answered u scope e r := by
  obtain ⟨e₀,present,same,_,methods⟩ := finished.origin member
  have inLedger := Catalog.mem_ledger present
  rw [← Catalog.ledger_of_idle w [] none] at inLedger
  have grows : w.catalog.Grows a.catalog := by
    refine ⟨?_,?_,finished.least.1.1⟩
    · intro key known
      rw [finished.keys]
      exact known
    · intro edge known
      rw [finished.edges]
      exact known
  rcases finished.orderly.accounted.answered _ inLedger m (methods ▸ listed) r result with
    owes | answered
  · rcases owes with ⟨t,turn,_⟩ | ⟨_,_,onStack⟩
    · cases turn
    · cases onStack
  · exact grows.answered answered same

theorem resultsMet (finished : Finished u scope a w) : ResultsMet u scope a.catalog where
  values := by
    intro e member m listed r result value inside
    have answered := finished.answered member listed result
    unfold Catalog.Answered at answered
    rw [value,if_neg Bool.false_ne_true] at answered
    obtain ⟨entered,edge⟩ := answered inside
    obtain ⟨source,present,key⟩ := List.mem_map.mp entered
    rw [← key] at edge
    exact ⟨source,present,key,edge,finished.met present member edge⟩
  errors := by
    intro e member m listed r result error
    have answered := finished.answered member listed result
    unfold Catalog.Answered at answered
    rw [if_pos error] at answered
    obtain ⟨methods,known,reached⟩ := answered
    rw [Catalog.statusOf_of_mem finished.distinct member] at reached
    refine ⟨methods,known,?_⟩
    unfold Walk.errorStatus at reached
    split at reached
    next hidden =>
      right
      refine ⟨hidden.1,reached,?_⟩
      intro m' offered
      exact List.all_eq_true.mp hidden.2 m' offered
    next =>
      exact .inl (Status.eq_hard reached)

theorem claimed (finished : Finished u scope a w) : Claimed u a.catalog := by
  intro e member
  obtain ⟨e₀,present,same,root,_⟩ := finished.origin member
  have inLedger := Catalog.mem_ledger present
  obtain ⟨methods,known⟩ := finished.settled.known _ inLedger List.not_mem_nil
  rw [← same]
  refine ⟨methods,known,?_⟩
  intro m offered exported
  obtain ⟨claim,held,_⟩ := finished.settled.offered _ inLedger List.not_mem_nil m
    ⟨methods,known,offered,exported⟩
  have byRoot : w.catalog.claim? e.root m.name = some claim := by
    rw [← root]
    exact held
  obtain ⟨g,found,holds⟩ := Option.bind_eq_some_iff.mp byRoot
  rw [← finished.group?] at found
  obtain ⟨group,key⟩ := Catalog.group?_some found
  obtain ⟨owner,among,ownerKey,ownerRoot,inGroup,listed⟩ := finished.owner_of_claim group holds
  exact ⟨g,group,key,claim,holds,inGroup,owner,among,ownerKey,ownerRoot,listed⟩

end Finished

/-- Whatever the universe, the root and the packages, an analysis that finishes is complete. -/
theorem run_complete {u : Universe} {root : TypeExpr} {packages : List String} {a : Analysis}
    (ok : run u root packages = .ok a) : Complete u (scopeOf root packages) a := by
  obtain ⟨w,finished⟩ := finished_of_run ok
  constructor
  · exact finished.withinScope
  · exact finished.length
  · exact finished.partsEntered
  · exact finished.resultsMet
  · exact finished.claimed

end Analysis

namespace Sample

def returning (results : List TypeExpr) : Signature := ⟨[],results.map fun t => ⟨none,t⟩,false⟩

def server : NamedType := ⟨"p","S"⟩

def conn : NamedType := ⟨"p","C"⟩

def dial : Signature := returning [.named conn,.pointer (.named conn)]

def label : Signature := returning [.basic "string"]

def close : Signature := returning [.error]

/-- Two structs. The server's `Dial` goes through references and returns the other struct, first by value and
then by reference; its `Name` does neither. -/
def types : Universe := ⟨[⟨"p","p",[
  ⟨"S",.struct,.struct,[],[⟨"Dial",true,none,dial⟩,⟨"Name",false,none,label⟩]⟩,
  ⟨"C",.struct,.struct,[],[⟨"Close",false,none,close⟩]⟩]⟩]⟩

def serverEntry (s : Status) : Entry := ⟨⟨"p.S",.struct,0,.named server⟩,"p.S",s,
  [⟨"Name",none,label,false⟩]⟩

def serverRefEntry (s : Status) : Entry := ⟨⟨"*p.S",.struct,1,.pointer (.named server)⟩,"p.S",s,
  [⟨"Dial",none,dial,true⟩,⟨"Name",none,label,true⟩]⟩

def connEntry (s : Status) : Entry := ⟨⟨"p.C",.struct,0,.named conn⟩,"p.C",s,
  [⟨"Close",none,close,false⟩]⟩

def connRefEntry (s : Status) : Entry := ⟨⟨"*p.C",.struct,1,.pointer (.named conn)⟩,"p.C",s,[]⟩

def serverGroup : Group := ⟨⟨"p.S",.struct,0,.named server⟩,
  [("Name",⟨"p.S",true⟩),("Dial",⟨"*p.S",false⟩)],["*p.S","p.S"]⟩

def connGroup : Group := ⟨⟨"p.C",.struct,0,.named conn⟩,[("Close",⟨"p.C",true⟩)],
  ["p.C","*p.C"]⟩

/-- What is found. The connection comes by value first, so its value form takes `Close` and nothing is left
for the reference form; the server's value form takes `Name` from the reference form. -/
def catalog (s : Status) : Catalog where
  entries := [serverRefEntry s,serverEntry .none,connEntry .hard,connRefEntry .none]
  groups := [serverGroup,connGroup]
  edges := [("*p.C","*p.S"),("p.C","*p.S")]

theorem keys : server.key = "p.S" ∧ conn.key = "p.C" := by decide +kernel

theorem underlyings : types.underlying server = .ok .struct ∧ types.underlying conn = .ok .struct := by
  constructor <;> cbv

theorem methods_server : types.methodSet (.named server) = .ok [⟨"Name",none,label,false⟩] := by cbv

theorem methods_serverRef : types.methodSet (.pointer (.named server)) =
    .ok [⟨"Dial",none,dial,true⟩,⟨"Name",none,label,true⟩] := by cbv

theorem methods_conn : types.methodSet (.named conn) = .ok [⟨"Close",none,close,false⟩] := by cbv

theorem methods_connRef :
    types.methodSet (.pointer (.named conn)) = .ok [⟨"Close",none,close,true⟩] := by cbv

theorem exported : isExported "Dial" = true ∧ isExported "Name" = true ∧ isExported "Close" = true := by
  cbv

open Evaluation in
theorem walk_types : Analysis.walk types (.named server) [] =
    .ok ⟨catalog .none,[],["*p.C","p.C","p.S","*p.S"]⟩ := by
  have paths : server.path = "p" ∧ conn.path = "p" := ⟨rfl,rfl⟩
  simp [paths,keys,underlyings,methods_server,methods_serverRef,methods_conn,methods_connRef,exported,dial,label,
    close,returning]
  rfl

theorem run_types :
    Analysis.run types (.named server) [] = .ok ⟨catalog .hard,4,1⟩ := by
  apply Analysis.run_of_walk walk_types
  cbv

end Sample

namespace Analysis

theorem sample_complete :
    run Sample.types (.named Sample.server) [] = .ok ⟨Sample.catalog .hard,4,1⟩ ∧
      Complete Sample.types ["p"] ⟨Sample.catalog .hard,4,1⟩ :=
  ⟨Sample.run_types,run_complete Sample.run_types⟩

end Analysis
end ProxyGen
