import ProxyGen.Proofs.Wrapping

/-! Which proxies are soft. What hardens a type is an error that a sealed type lists, or a type other than an
interface on the way from an error to it. Whether the types in between are sealed is not asked, so a
sealed interface whose own methods return no error can have a soft proxy. -/
namespace ProxyGen

/-- A method that is not exported keeps other types from standing in for the type. -/
def Entry.Sealed (u : Universe) (e : Entry) : Prop :=
  ∃ methods, u.methodSet e.descriptor.type = .ok methods ∧ ∃ m ∈ methods, m.exported = false

namespace Catalog

/-- The type has to be hard: it is so at the start, or it needs a proxy and is no interface. -/
def HardAt (c : Catalog) (after : String → Status) (key : String) : Prop :=
  c.statusOf key = .hard ∨
    after key ≠ .none ∧ ∃ e, c.entry? key = some e ∧ e.descriptor.kind ≠ .interface

/-- Statuses do not fall along edges, so all that edges lead to from a hard type is hard. -/
theorem hard_of_reaches {c : Catalog} {after : String → Status}
    (joined : ∀ source dependent, (source,dependent) ∈ c.edges → dependent ∈ c.keys)
    (closed : c.Closed after) {first key : String} (isHard : after first = .hard)
    (path : c.Reaches first key) : after key = .hard := by
  induction path with
  | refl => exact isHard
  | @tail middle last _ edge ih =>
    cases found : c.entry? last with
    | none => exact absurd (joined middle last edge) (entry?_none.mp found)
    | some e =>
      have reached := closed middle last edge e found
      rw [ih] at reached
      exact Status.eq_hard reached

/-- What is hard in the end is so because of a type that has to be. -/
theorem hardAt_of_hard {c : Catalog} {after : String → Status}
    (least : IsLeast {status | c.statusOf ≤ status ∧ c.Closed status} after) {key : String}
    (isHard : after key = .hard) : ∃ first, c.HardAt after first ∧ c.Reaches first key := by
  have order : Status.soft ≤ .hard ∧ ¬ Status.hard ≤ .soft := by decide
  obtain ⟨⟨above,closed⟩,below⟩ := least
  by_contra apart
  classical
  let hardened (k : String) : Prop := ∃ first, c.HardAt after first ∧ c.Reaches first k
  -- Lowering to soft what has no such type behind it leaves every edge met.
  let lowered (k : String) : Prop := after k = .hard ∧ ¬ hardened k
  let bound (k : String) : Status := if lowered k then .soft else after k
  have under : bound ≤ after := by
    intro k
    by_cases low : lowered k
    · rw [show bound k = .soft from if_pos low,low.1]
      exact order.1
    · exact le_of_eq (if_neg low)
  have start : c.statusOf ≤ bound := by
    intro k
    by_cases low : lowered k
    · rw [show bound k = .soft from if_pos low]
      exact Status.le_soft fun first => low.2 ⟨k,.inl first,.refl⟩
    · rw [show bound k = after k from if_neg low]
      exact above k
  have met : c.Closed bound := by
    intro source dependent edge e found
    by_cases low : lowered dependent
    · have outside : ¬ hardened source := by
        rintro ⟨first,hardAt,path⟩
        exact low.2 ⟨first,hardAt,path.tail edge⟩
      have interface : e.descriptor.kind = .interface := by
        by_contra other
        exact low.2 ⟨dependent,.inr ⟨by simp [low.1],e,found,other⟩,.refl⟩
      have below : bound source ≤ .soft := by
        by_cases isHard : after source = .hard
        · exact le_of_eq (if_pos ⟨isHard,outside⟩)
        · rw [show bound source = after source from if_neg fun low => isHard low.1]
          exact Status.le_soft isHard
      rw [show bound dependent = .soft from if_pos low,interface]
      exact Status.effective_mono below .interface
    · rw [show bound dependent = after dependent from if_neg low]
      exact le_trans (Status.effective_mono (under source) _) (closed source dependent edge e found)
  have limit := below ⟨start,met⟩ key
  rw [isHard,show bound key = .soft from if_pos ⟨isHard,apart⟩] at limit
  exact order.2 limit

/-- The first type lists an error, and it is sealed or something other than an interface stands between it
and the second. -/
def Hardens (u : Universe) (c : Catalog) (source e : Entry) : Prop :=
  c.ErrsAt u source ∧ c.Reaches source.key e.key ∧ (source.Sealed u ∨
    ∃ via ∈ c.entries, via.descriptor.kind ≠ .interface ∧ c.Reaches source.key via.key ∧
      c.Reaches via.key e.key)

end Catalog

namespace Analysis

theorem errorStatus_eq_hard_iff {kind : Kind} {methods : List Selection} :
    Walk.errorStatus kind methods = .hard ↔
      kind ≠ .interface ∨ ∃ m ∈ methods, m.exported = false := by
  unfold Walk.errorStatus
  by_cases interface : kind = .interface <;> simp [interface]

namespace Finished
variable {u : Universe} {scope : List String} {a : Analysis} {w : Walk}

/-- Before statuses are spread, a type is hard exactly when it lists an error and is sealed or no interface. -/
theorem start_eq_hard_iff (finished : Finished u scope a w) {e : Entry}
    (member : e ∈ a.catalog.entries) : w.catalog.statusOf e.key = .hard ↔
      a.catalog.ErrsAt u e ∧ (e.descriptor.kind ≠ .interface ∨ e.Sealed u) := by
  have value (wrapped : w.catalog.statusOf e.key ≠ .none) : ∃ methods,
      u.methodSet e.descriptor.type = .ok methods ∧
        w.catalog.statusOf e.key = Walk.errorStatus e.descriptor.kind methods := by
    obtain ⟨e₀,present,same,_⟩ := finished.origin member
    have key : e₀.key = e.key := congrArg Descriptor.key same
    have inLedger := Catalog.mem_ledger present
    rw [← Catalog.ledger_of_idle w [] none] at inLedger
    rw [← key] at wrapped ⊢
    rw [← same]
    exact (finished.orderly.accounted.caused _ inLedger wrapped).1
  constructor
  · intro isHard
    have wrapped : w.catalog.statusOf e.key ≠ .none := by simp [isHard]
    obtain ⟨methods,known,equal⟩ := value wrapped
    refine ⟨(finished.errsAt_iff member).mpr ((finished.status_ne_none_iff member).mp wrapped),?_⟩
    rw [isHard] at equal
    exact (errorStatus_eq_hard_iff.mp equal.symm).imp_right fun hidden => ⟨methods,known,hidden⟩
  · rintro ⟨errs,cause⟩
    have wrapped := (finished.status_ne_none_iff member).mpr ((finished.errsAt_iff member).mp errs)
    obtain ⟨methods,known,equal⟩ := value wrapped
    rw [equal,errorStatus_eq_hard_iff]
    refine cause.imp_right ?_
    rintro ⟨methods',known',hidden⟩
    rw [known] at known'
    cases known'
    exact hidden

theorem entry_of_found (finished : Finished u scope a w) {key : String} {e₀ : Entry}
    (found : w.catalog.entry? key = some e₀) :
    ∃ e ∈ a.catalog.entries, e.key = key ∧ e.descriptor = e₀.descriptor := by
  obtain ⟨present,rfl⟩ := Catalog.entry?_some found
  rw [finished.catalog]
  exact ⟨_,List.mem_map_of_mem present,rfl,rfl⟩

/-- A type has to be hard exactly when it lists an error and is sealed, or needs a proxy and is no interface. -/
theorem hardAt_iff (finished : Finished u scope a w) (key : String) :
    w.catalog.HardAt a.catalog.statusOf key ↔ ∃ e ∈ a.catalog.entries, e.key = key ∧
      (a.catalog.ErrsAt u e ∧ e.Sealed u ∨ e.status ≠ .none ∧ e.descriptor.kind ≠ .interface) := by
  constructor
  · rintro (isHard | ⟨wrapped,e₀,found,other⟩)
    · have present : key ∈ a.catalog.keys := by
        rw [finished.keys]
        by_contra absent
        rw [Catalog.statusOf_of_not_mem absent] at isHard
        cases isHard
      obtain ⟨e,inside,rfl⟩ := List.mem_map.mp present
      obtain ⟨errs,other | hidden⟩ := (finished.start_eq_hard_iff inside).mp isHard
      · have wrapped : e.status ≠ .none := (finished.wrapped_iff inside).mpr
          ⟨e,inside,(finished.errsAt_iff inside).mp errs,.refl⟩
        exact ⟨e,inside,rfl,.inr ⟨wrapped,other⟩⟩
      · exact ⟨e,inside,rfl,.inl ⟨errs,hidden⟩⟩
    · obtain ⟨e,inside,rfl,same⟩ := finished.entry_of_found found
      rw [Catalog.statusOf_of_mem finished.distinct inside] at wrapped
      exact ⟨e,inside,rfl,.inr ⟨wrapped,same ▸ other⟩⟩
  · rintro ⟨e,inside,rfl,⟨errs,hidden⟩ | ⟨wrapped,other⟩⟩
    · exact .inl ((finished.start_eq_hard_iff inside).mpr ⟨errs,.inr hidden⟩)
    · obtain ⟨e₀,present,same,_⟩ := finished.origin inside
      have key : e₀.key = e.key := congrArg Descriptor.key same
      have found := Catalog.entry?_of_mem finished.orderly.sound.good.distinct present
      rw [key] at found
      rw [← Catalog.statusOf_of_mem finished.distinct inside] at wrapped
      exact .inr ⟨wrapped,e₀,found,same ▸ other⟩

theorem hard_of_hardAt (finished : Finished u scope a w) {key : String}
    (hardAt : w.catalog.HardAt a.catalog.statusOf key) : a.catalog.statusOf key = .hard := by
  rcases hardAt with isHard | ⟨wrapped,e₀,found,other⟩
  · have reached := finished.least.1.1 key
    rw [isHard] at reached
    exact Status.eq_hard reached
  · obtain ⟨e,inside,rfl,same⟩ := finished.entry_of_found found
    rw [Catalog.statusOf_of_mem finished.distinct inside] at wrapped ⊢
    cases status : e.status with
    | none => exact absurd status wrapped
    | soft => exact absurd (finished.soft e inside status) (same ▸ other)
    | hard => rfl

theorem hard_iff (finished : Finished u scope a w) {e : Entry} (member : e ∈ a.catalog.entries) :
    e.status = .hard ↔ ∃ source ∈ a.catalog.entries, a.catalog.Hardens u source e := by
  have joined := finished.orderly.sound.good.joined
  constructor
  · intro isHard
    rw [← Catalog.statusOf_of_mem finished.distinct member] at isHard
    obtain ⟨_,hardAt,path⟩ := Catalog.hardAt_of_hard finished.least isHard
    rw [finished.reaches] at path
    obtain ⟨x,inside,rfl,⟨errs,hidden⟩ | ⟨wrapped,other⟩⟩ := (finished.hardAt_iff _).mp hardAt
    · exact ⟨x,inside,errs,path,.inl hidden⟩
    · obtain ⟨source,present,error,before⟩ := (finished.wrapped_iff inside).mp wrapped
      exact ⟨source,present,(finished.errsAt_iff present).mpr error,before.trans path,
        .inr ⟨x,inside,other,before,path⟩⟩
  · rintro ⟨source,present,errs,path,cause⟩
    have hardAt : ∃ first, w.catalog.HardAt a.catalog.statusOf first ∧
        a.catalog.Reaches first e.key := by
      rcases cause with hidden | ⟨via,inside,other,before,later⟩
      · exact ⟨_,(finished.hardAt_iff _).mpr ⟨source,present,rfl,.inl ⟨errs,hidden⟩⟩,path⟩
      · have wrapped : via.status ≠ .none := (finished.wrapped_iff inside).mpr
          ⟨source,present,(finished.errsAt_iff present).mp errs,before⟩
        exact ⟨_,(finished.hardAt_iff _).mpr ⟨via,inside,rfl,.inr ⟨wrapped,other⟩⟩,later⟩
    obtain ⟨first,hardAt,path⟩ := hardAt
    rw [← finished.reaches] at path
    rw [← Catalog.statusOf_of_mem finished.distinct member]
    exact Catalog.hard_of_reaches (fun s d edge => (joined s d edge).2) finished.least.1.2
      (finished.hard_of_hardAt hardAt) path

end Finished

/-- A sealed type that lists an error is hard. One that needs a proxy for what it returns alone is soft unless
something hardens it. -/
theorem sealed_soft_iff {u : Universe} {root : TypeExpr} {packages : List String} {a : Analysis}
    (ok : run u root packages = .ok a) {e : Entry} (member : e ∈ a.catalog.entries)
    (hidden : e.Sealed u) :
    (a.catalog.ErrsAt u e → e.status = .hard) ∧
      (e.status = .soft ↔ (∃ source ∈ a.catalog.entries, a.catalog.ErrsAt u source ∧
        a.catalog.Reaches source.key e.key) ∧
          ∀ source ∈ a.catalog.entries, ¬ a.catalog.Hardens u source e) := by
  obtain ⟨w,finished⟩ := finished_of_run ok
  have hard := finished.hard_iff member
  have wrapped : e.status ≠ .none ↔ ∃ source ∈ a.catalog.entries, a.catalog.ErrsAt u source ∧
      a.catalog.Reaches source.key e.key := by
    rw [finished.wrapped_iff member]
    refine exists_congr fun source => and_congr_right fun present => ?_
    rw [finished.errsAt_iff present]
  constructor
  · intro errs
    exact hard.mpr ⟨e,member,errs,.refl,.inl hidden⟩
  · have neither : (∀ source ∈ a.catalog.entries, ¬ a.catalog.Hardens u source e) ↔
        e.status ≠ .hard := by
      rw [ne_eq,hard]
      simp only [not_exists,not_and]
    rw [← wrapped,neither]
    cases e.status <;> simp

end Analysis

namespace Hub
open Sample (returning close)

def hub : NamedType := ⟨"p","Hub"⟩

def item : NamedType := ⟨"p","Item"⟩

def gate : NamedType := ⟨"p","Gate"⟩

def shelf : NamedType := ⟨"p","Shelf"⟩

def port : NamedType := ⟨"p","Port"⟩

abbrev items : TypeExpr := .slice (.named item)

def send : Signature := ⟨[⟨none,.named item⟩],[⟨none,.error⟩],false⟩

/-- Four interfaces and a struct. The hub and the shelf both return items, the hub first; the gate has a
method that is not exported and returns the port, whose `Send` takes an item and returns an error. -/
def types : Universe := ⟨[⟨"p","p",[
  ⟨"Hub",.interface,.interface,[],[⟨"All",false,none,returning [items]⟩,
    ⟨"Gate",false,none,returning [.named gate]⟩,⟨"Shelf",false,none,returning [.named shelf]⟩]⟩,
  ⟨"Item",.struct,.struct,[],[⟨"Close",false,none,close⟩]⟩,
  ⟨"Gate",.interface,.interface,[],[⟨"Pass",false,none,returning [.named port]⟩,
    ⟨"seal",false,none,returning []⟩]⟩,
  ⟨"Shelf",.interface,.interface,[],[⟨"List",false,none,returning [items]⟩]⟩,
  ⟨"Port",.interface,.interface,[],[⟨"Send",false,none,send⟩]⟩]⟩]⟩

def hubEntry (s : Status) : Entry := ⟨⟨"p.Hub",.interface,0,.named hub⟩,"p.Hub",s,
  [⟨"All",none,returning [items],false⟩,⟨"Gate",none,returning [.named gate],false⟩,
    ⟨"Shelf",none,returning [.named shelf],false⟩]⟩

def itemsEntry : Entry := ⟨⟨"[]p.Item",.other,0,items⟩,"[]p.Item",.none,[]⟩

def itemEntry : Entry := ⟨⟨"p.Item",.struct,0,.named item⟩,"p.Item",.hard,
  [⟨"Close",none,close,false⟩]⟩

def gateEntry (s : Status) : Entry := ⟨⟨"p.Gate",.interface,0,.named gate⟩,"p.Gate",s,
  [⟨"Pass",none,returning [.named port],false⟩]⟩

def shelfEntry : Entry := ⟨⟨"p.Shelf",.interface,0,.named shelf⟩,"p.Shelf",.none,
  [⟨"List",none,returning [items],false⟩]⟩

def portEntry : Entry := ⟨⟨"p.Port",.interface,0,.named port⟩,"p.Port",.soft,
  [⟨"Send",none,send,false⟩]⟩

def hubGroup : Group := ⟨⟨"p.Hub",.interface,0,.named hub⟩,
  [("Shelf",⟨"p.Hub",true⟩),("Gate",⟨"p.Hub",true⟩),("All",⟨"p.Hub",true⟩)],["p.Hub"]⟩

def itemsGroup : Group := ⟨⟨"[]p.Item",.other,0,items⟩,[],["[]p.Item"]⟩

def itemGroup : Group := ⟨⟨"p.Item",.struct,0,.named item⟩,[("Close",⟨"p.Item",true⟩)],["p.Item"]⟩

def gateGroup : Group := ⟨⟨"p.Gate",.interface,0,.named gate⟩,[("Pass",⟨"p.Gate",true⟩)],["p.Gate"]⟩

def shelfGroup : Group :=
  ⟨⟨"p.Shelf",.interface,0,.named shelf⟩,[("List",⟨"p.Shelf",true⟩)],["p.Shelf"]⟩

def portGroup : Group := ⟨⟨"p.Port",.interface,0,.named port⟩,[("Send",⟨"p.Port",true⟩)],["p.Port"]⟩

/-- What is found. The items are followed to the item when the hub mentions them, and not again when the
shelf does. -/
def catalog (hub gate : Status) : Catalog where
  entries := [hubEntry hub,itemsEntry,itemEntry,gateEntry gate,shelfEntry,portEntry]
  groups := [hubGroup,itemsGroup,itemGroup,gateGroup,shelfGroup,portGroup]
  edges := [("[]p.Item","p.Shelf"),("p.Port","p.Gate"),("p.Shelf","p.Hub"),("p.Gate","p.Hub"),
    ("p.Item","p.Hub"),("[]p.Item","p.Hub")]

theorem keys : hub.key = "p.Hub" ∧ item.key = "p.Item" ∧ gate.key = "p.Gate" ∧
    shelf.key = "p.Shelf" ∧ port.key = "p.Port" := by decide +kernel

theorem underlyings : types.underlying hub = .ok .interface ∧ types.underlying item = .ok .struct ∧
    types.underlying gate = .ok .interface ∧ types.underlying shelf = .ok .interface ∧
    types.underlying port = .ok .interface := by
  refine ⟨?_,?_,?_,?_,?_⟩ <;> cbv

theorem methods_gate : types.methodSet (.named gate) =
    .ok ((gateEntry .none).methods ++ [⟨"seal",none,returning [],false⟩]) := by cbv

theorem methods_others : types.methodSet (.named hub) = .ok (hubEntry .none).methods ∧
    types.methodSet (.named item) = .ok itemEntry.methods ∧
    types.methodSet (.named shelf) = .ok shelfEntry.methods ∧
    types.methodSet (.named port) = .ok portEntry.methods ∧ types.methodSet items = .ok [] := by
  refine ⟨?_,?_,?_,?_,?_⟩ <;> cbv

theorem exported : isExported "All" = true ∧ isExported "Gate" = true ∧ isExported "Shelf" = true ∧
    isExported "Close" = true ∧ isExported "Pass" = true ∧ isExported "List" = true ∧
    isExported "Send" = true := by decide +kernel

theorem sealed : isExported "seal" = false := by decide +kernel

open Evaluation in
theorem walk_types : Analysis.walk types (.named hub) [] =
    .ok ⟨catalog .none .none,[],["p.Port","p.Shelf","p.Gate","p.Item","[]p.Item","p.Hub"]⟩ := by
  have paths : hub.path = "p" ∧ item.path = "p" ∧ gate.path = "p" ∧ shelf.path = "p" ∧
    port.path = "p" := ⟨rfl,rfl,rfl,rfl,rfl⟩
  simp [paths,keys,underlyings,methods_gate,methods_others,exported,sealed,hubEntry,itemEntry,gateEntry,shelfEntry,
    portEntry,returning,close,send]
  rfl

theorem sorted_catalog : (catalog .none .none).sorted =
    [itemsEntry,gateEntry .none,hubEntry .none,itemEntry,portEntry,shelfEntry] := by
  apply Text.sortBy_eq
  · decide
  · decide

theorem resolve_catalog : (catalog .none .none).resolve = (catalog .hard .soft,2) := by
  have passed : Status.soft.passedTo .interface = .soft ∧ Status.hard.passedTo .interface = .hard := by
    decide
  have lower : Status.none < Status.hard ∧ Status.none < Status.soft ∧ ¬Status.hard < Status.soft := by
    decide
  rw [Catalog.resolve,sorted_catalog]
  simp [Catalog.spread_cons,Catalog.spread_nil,catalog,Catalog.entry?,Catalog.dependents,Catalog.raiseAll,
    Catalog.raise,Catalog.modifyEntry,Entry.raise,Entry.key,hubEntry,itemsEntry,itemEntry,gateEntry,shelfEntry,
    portEntry,passed,lower]

theorem run_types : Analysis.run types (.named hub) [] = .ok ⟨catalog .hard .soft,6,2⟩ :=
  Analysis.run_of_walk walk_types resolve_catalog

theorem sealed_gate (s : Status) : (gateEntry s).Sealed types :=
  ⟨_,methods_gate,⟨"seal",none,returning [],false⟩,by simp,sealed⟩

end Hub

namespace Analysis

theorem hub_sealed :
    run Hub.types (.named Hub.hub) [] = .ok ⟨Hub.catalog .hard .soft,6,2⟩ ∧
      Hub.gateEntry .soft ∈ (Hub.catalog .hard .soft).entries ∧
      (Hub.gateEntry .soft).Sealed Hub.types ∧
      (∃ source ∈ (Hub.catalog .hard .soft).entries, (Hub.catalog .hard .soft).ErrsAt Hub.types source ∧
        (Hub.catalog .hard .soft).Reaches source.key (Hub.gateEntry .soft).key) ∧
      ∀ source ∈ (Hub.catalog .hard .soft).entries,
        ¬ (Hub.catalog .hard .soft).Hardens Hub.types source (Hub.gateEntry .soft) := by
  have member : Hub.gateEntry .soft ∈ (Hub.catalog .hard .soft).entries := by simp [Hub.catalog]
  have hidden : (Hub.gateEntry .soft).Sealed Hub.types := Hub.sealed_gate .soft
  exact ⟨Hub.run_types,member,hidden,(sealed_soft_iff Hub.run_types member hidden).2.mp rfl⟩

/-- The gate has the method `seal`, which is not exported, and is soft, as the port that it returns is. -/
theorem hub_sealed_soft :
    run Hub.types (.named Hub.hub) [] = .ok ⟨Hub.catalog .hard .soft,6,2⟩ ∧
      Hub.gateEntry .soft ∈ (Hub.catalog .hard .soft).entries ∧
      (Hub.gateEntry .soft).Sealed Hub.types ∧ (Hub.gateEntry .soft).status = .soft :=
  ⟨Hub.run_types,by simp [Hub.catalog],Hub.sealed_gate .soft,rfl⟩

end Analysis
end ProxyGen
