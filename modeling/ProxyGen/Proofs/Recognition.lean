import ProxyGen.OutputDir
import ProxyGen.Proofs.Forwarding
import ProxyGen.Proofs.Places

/-! Generated files are recognised as such: their text starts with the header, and their name has the
extension by which an output directory is cleared. -/
namespace ProxyGen

namespace Text

/-- Lower case goes through a text from its start, and knows what came before. -/
theorem lowerAfter_append (before a s : List Char) : ∃ image,
    lowerAfter before (a ++ s) = image ++ lowerAfter (a.reverse ++ before) s ∧
      ∀ c ∈ a, c.toNat < 128 → c.toLower ∈ image := by
  induction a generalizing before with
  | nil => exact ⟨[],rfl,fun c member => by cases member⟩
  | cons d a ih =>
    obtain ⟨image,later,members⟩ := ih (d :: before)
    rw [List.cons_append,lowerAfter,later,← List.append_assoc,List.reverse_cons,List.append_assoc a.reverse]
    refine ⟨_,rfl,?_⟩
    intro c member plain
    rcases List.mem_cons.mp member with rfl | member
    · have other : (c == 'Σ') = false := by
        rw [beq_eq_false_iff_ne]
        rintro rfl
        exact absurd plain (by decide)
      simp [other,lowerChar,plain]
    · exact List.mem_append_right _ (members c member plain)

theorem lower_append_go {a : String} (some : '_' ∈ a.toList) :
    ∃ image, image ≠ "" ∧ lower (a ++ ".go") = image ++ ".go" := by
  obtain ⟨image,lowered,members⟩ := lowerAfter_append [] a.toList ".go".toList
  have kept : lowerAfter (a.toList.reverse ++ []) ".go".toList = ".go".toList := rfl
  refine ⟨String.ofList image,?_,String.toList_injective ?_⟩
  · rintro none
    have inside : '_' ∈ image := members '_' some (by decide)
    rw [String.ofList_eq_empty_iff.mp none] at inside
    cases inside
  · simp only [lower,String.toList_append,String.toList_ofList,lowered,kept]

end Text

namespace Path

theorem extension?_append_go {front : String} (some : front ≠ "") :
    extension? (front ++ ".go") = Option.some "go" := by
  cases first : front.toList with
  | nil => exact absurd (String.toList_eq_nil_iff.mp first) some
  | cons c rest =>
    have last : '.' ∉ ['g','o'] := by decide
    have split : Text.splitLast? '.' (c :: rest ++ ".go".toList) = Option.some (c :: rest,['g','o']) :=
      Text.splitLast?_last _ last
    rw [extension?,String.toList_append,first,split]

/-- A name with an extension is no way to stay or to go up. -/
theorem plain_of_extension {name : String} (single : '/' ∉ name.toList)
    (extension : extension? name = some "go") : Plain name := by
  refine ⟨?_,?_,?_,single⟩ <;> rintro rfl <;> exact absurd extension (by decide)

end Path

theorem Naming.extension_fileName (u : Universe) (t : TypeExpr) :
    Path.extension? (fileName u t) = some "go" := by
  unfold fileName
  split
  next n _ =>
    have joined : '_' ∈ (u.packageName n.path ++ "_" ++ n.name).toList := by simp
    obtain ⟨image,some,lowered⟩ := Text.lower_append_go joined
    rw [lowered]
    exact Path.extension?_append_go some
  next =>
    refine Path.extension?_append_go fun none => ?_
    have start := congrArg String.toList none
    simp at start

/-- What an output directory needs to know of a file in order to take it for a generated one. -/
structure OutputUnit.Recognised (unit : OutputUnit) : Prop where
  single : '/' ∉ unit.fileName.toList
  extension : Path.extension? unit.fileName = some "go"
  generated : OutputDir.hasHeader unit.text = true

theorem OutputUnit.Recognised.plain {unit : OutputUnit} (known : unit.Recognised) :
    Path.Plain unit.fileName :=
  Path.plain_of_extension known.single known.extension

namespace Plan
variable {p : Plan} {g : Group} {unit : OutputUnit} {units : List OutputUnit}

theorem commentText_generated : Code.commentText (some generatedComment) = OutputDir.header ++ "\n" := by
  decide +kernel

theorem hasHeader_unit (ok : p.unit g = .ok unit) : OutputDir.hasHeader unit.text = true := by
  obtain ⟨decls,_,ok⟩ := bind_ok ok
  cases ok
  rw [OutputDir.hasHeader,List.isPrefixOf_iff_prefix,OutputUnit.text,Code.File.text]
  simp only [Code.File.ofDecls,commentText_generated,String.toList_append,List.append_assoc]
  exact List.prefix_append _ _

theorem recognised_of_units (ok : p.units = .ok units)
    (single : ∀ unit ∈ units, '/' ∉ unit.fileName.toList) : ∀ unit ∈ units, unit.Recognised := by
  intro unit member
  obtain ⟨g,_,made⟩ := ((mem_units ok).2 unit).mp member
  refine ⟨single unit member,?_,hasHeader_unit made⟩
  rw [(unit_head made).1]
  exact Naming.extension_fileName _ _

end Plan
end ProxyGen
