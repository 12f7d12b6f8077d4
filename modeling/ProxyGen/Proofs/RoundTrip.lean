import Mathlib.Data.List.Nodup
import ProxyGen.Description.Encoding
import ProxyGen.Lookup
import ProxyGen.Universe.Building

/-! Descriptions written as JSON values and read again. Each part of a description has a reader and a writer; the
readers of records look their fields up by name, and a written record has each of its names once. -/
namespace ProxyGen

namespace Json

/-- All that is written is read as what it was written for. -/
def Reads {α : Type} (read : Json → Option α) (write : α → Json) : Prop := ∀ a, read (write a) = some a

section Reads
variable {α : Type} {read : Json → Option α} {write : α → Json}

theorem Reads.list (reads : Reads read write) : Reads (list? read) fun items => .array (items.map write) := by
  intro items
  induction items with
  | nil => rfl
  | cons a rest ih =>
    simp only [list?] at ih
    simp only [list?,List.map_cons,List.mapM_cons,reads a,ih,Option.bind_eq_bind,Option.bind_some]
    rfl

theorem reads_strings : Reads (list? string?) fun texts => .array (texts.map .string) :=
  Reads.list fun _ => rfl

/-- Every field of an object is found under its name where no name stands twice. -/
theorem keyed?_of_names {names : List String} {fields : List (String × Json)}
    (named : fields.map Prod.fst = names) (distinct : names.Nodup) :
    keyed? names fields = some (fields.map fun field => some field.2) := by
  subst named
  have once : ((fields.map Prod.fst).all fun name => fields.countP (·.1 == name) ≤ 1) = true := by
    rw [List.all_eq_true]
    intro name _
    have counted : (fields.map Prod.fst).count name = fields.countP (·.1 == name) := List.countP_map
    rw [decide_eq_true_iff,← counted]
    exact List.nodup_iff_count_le_one.mp distinct name
  rw [keyed?,if_pos once,List.map_map]
  congr 1
  apply List.map_congr_left
  intro field member
  exact lookup_of_mem distinct member

end Reads

end Json

namespace Description

open Json (Reads)

theorem reads_nullOr : Reads (Json.nullable? Json.string?) nullOr := by
  intro text
  cases text <;> rfl

theorem reads_receiver : Reads receiver? fun r => .string r.name := by
  intro r
  cases r <;> rfl

theorem reads_kind : Reads kind? fun k => .string k.name := by
  intro k
  cases k <;> rfl

/-- A type alone is written as a string and every other parameter as an object, so neither is read as the other. -/
theorem reads_param : Reads Param.ofJson? Param.toJson := by
  intro p
  cases p with
  | bare type => rfl
  | full name type =>
    have held : Json.bounded paramDepth (.object [("name",nullOr name),("type",.string type)]) = true := by
      cases name <;> rfl
    have fields : Json.keyed? ["name","type"] [("name",nullOr name),("type",.string type)] =
        some [some (nullOr name),some (.string type)] := Json.keyed?_of_names rfl (by decide)
    simp only [Param.toJson,Param.ofJson?,held,if_true,fields,Json.orElse,Json.required,Json.string?,
      reads_nullOr name,Option.bind_eq_bind,Option.bind_some]

theorem reads_method : Reads Method.ofJson? Method.toJson := by
  intro m
  have fields : Json.record? ["name","receiver","receiver_name","params","results","variadic"] m.toJson =
      some [some (.string m.name),some (.string m.receiver.name),some (nullOr m.receiverName),
        some (.array (m.params.map Param.toJson)),some (.array (m.results.map Param.toJson)),
        some (.bool m.variadic)] := Json.keyed?_of_names rfl (by decide)
  simp only [Method.ofJson?,fields,Json.orElse,Json.required,Json.string?,Json.bool?,reads_receiver m.receiver,
    reads_nullOr m.receiverName,reads_param.list m.params,reads_param.list m.results,Option.bind_eq_bind,
    Option.bind_some]

theorem reads_typeSpec : Reads TypeSpec.ofJson? TypeSpec.toJson := by
  intro t
  have fields : Json.record? ["name","kind","underlying","embeds","methods"] t.toJson =
      some [some (.string t.name),some (.string t.kind.name),some (nullOr t.underlying),
        some (.array (t.embeds.map .string)),some (.array (t.methods.map Method.toJson))] :=
    Json.keyed?_of_names rfl (by decide)
  simp only [TypeSpec.ofJson?,fields,Json.orElse,Json.required,Json.string?,reads_kind t.kind,
    reads_nullOr t.underlying,Json.reads_strings t.embeds,reads_method.list t.methods,Option.bind_eq_bind,
    Option.bind_some]

theorem reads_package : Reads Package.ofJson? Package.toJson := by
  intro p
  have fields : Json.record? ["path","name","types"] p.toJson =
      some [some (.string p.path),some (nullOr p.name),some (.array (p.types.map TypeSpec.toJson))] :=
    Json.keyed?_of_names rfl (by decide)
  simp only [Package.ofJson?,fields,Json.orElse,Json.required,Json.string?,reads_nullOr p.name,
    reads_typeSpec.list p.types,Option.bind_eq_bind,Option.bind_some]

theorem reads_description : Reads ofJson? toJson := by
  intro d
  have fields : Json.record? ["packages"] d.toJson = some [some (.array (d.packages.map Package.toJson))] :=
    Json.keyed?_of_names rfl (by decide)
  simp only [ofJson?,fields,Json.orElse,reads_package.list d.packages,Option.bind_eq_bind,Option.bind_some]

/-- A description that is written as a JSON value is read back as the same, and so has the same universe or the same
fault. -/
theorem ofJson?_toJson (d : Description) : ofJson? d.toJson = some d ∧
    (ofJson? d.toJson).map Universe.ofDescription = some (Universe.ofDescription d) := by
  have same := reads_description d
  exact ⟨same,by rw [same]; rfl⟩

end Description
end ProxyGen
