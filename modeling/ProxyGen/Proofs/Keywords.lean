import ProxyGen.Proofs.Legibility
import ProxyGen.Text.Alphabetic

/-! Which types cannot be read from their keys. A text is compared with the words of struct and interface literals
before a name is cut off from it, so a package whose path begins with one of these words has no type that can be named;
all other types with names as they are commonly chosen are read from their keys. -/
namespace ProxyGen

namespace Text

theorem Runs.mem_of_contains {runs : Runs} {n : Nat} (inside : runs.contains n = true) :
    ∃ run ∈ runs, run.1 ≤ n ∧ n ≤ run.2.1 := by
  induction runs with
  | nil => cases inside
  | cons run rest ih =>
    obtain ⟨first,last,step⟩ := run
    rw [contains] at inside
    split at inside
    next => cases inside
    next reached =>
      split at inside
      next within => exact ⟨_,List.mem_cons_self,Nat.not_lt.mp reached,within⟩
      next =>
        obtain ⟨run,member,bounds⟩ := ih inside
        exact ⟨run,List.mem_cons_of_mem _ member,bounds⟩

/-- No letter or number is blank. -/
theorem isBlank_of_isAlphanumeric {c : Char} (alphanumeric : isAlphanumeric c = true) : isBlank c = false := by
  have apart : ∀ run ∈ blank, ∀ k ≤ run.2.1 - run.1,
      (alphabetic.contains (run.1 + k) || numeric.contains (run.1 + k)) = false := by decide +kernel
  rw [← Bool.not_eq_true]
  intro white
  obtain ⟨run,member,least,most⟩ := Runs.mem_of_contains white
  have other := apart run member (c.toNat - run.1) (by omega)
  rw [Nat.add_sub_cancel' least] at other
  exact absurd (alphanumeric.symm.trans other) (by decide)

theorem chars_of_isIdentifier {name : String} (identifier : isIdentifier name = true) :
    name.toList ≠ [] ∧ ∀ c ∈ name.toList, c = '_' ∨ isAlphanumeric c = true := by
  unfold isIdentifier at identifier
  split at identifier
  next => cases identifier
  next c rest text =>
    simp only [Bool.and_eq_true,Bool.or_eq_true,beq_iff_eq,List.all_eq_true] at identifier
    rw [text]
    refine ⟨List.cons_ne_nil c rest,List.forall_mem_cons.mpr ⟨?_,identifier.2⟩⟩
    exact identifier.1.imp_right fun letter => by rw [isAlphanumeric,letter,Bool.true_or]

end Text

namespace TypeExpr

/-- What paths of packages are written with: letters, numbers and four marks. -/
def isPathChar (c : Char) : Bool := Text.isAlphanumeric c || ['_','.','/','-'].contains c

/-- The path begins with the word of a struct or an interface literal. -/
def Captured (path : String) : Prop := structToken <+: path.toList ∨ interfaceToken <+: path.toList

/-- Types with names as they are commonly chosen. The names of basic types are not in upper case and are none of the
words that stand for something else; those of declared types follow any path. -/
inductive Conventional : TypeExpr → Prop
  | error : Conventional .error
  | struct : Conventional .struct
  | interface : Conventional .interface
  | basic {name : String} (identifier : Text.isIdentifier name = true)
      (lower : ¬ name.toList.head?.any Text.isUppercase = true) (notError : name ≠ "error") (notAny : name ≠ "any")
      (bare : ¬ Captured name) : Conventional (.basic name)
  | named {n : NamedType} (written : n.path ≠ "") (path : ∀ c ∈ n.path.toList, isPathChar c = true)
      (name : Text.isIdentifier n.name = true) : Conventional (.named n)
  | wrap {head : Head} {wrap : TypeExpr → TypeExpr} {t : TypeExpr} (wraps : Wraps head wrap)
      (fits : ∀ n, head = .array n → n < lengthBound) (inner : Conventional t) : Conventional (wrap t)
  | map {k v : TypeExpr} (key : Conventional k) (value : Conventional v) : Conventional (.map k v)

section Words
variable {token opener s : List Char} {name : String}

/-- The marks of the grammar stand in no path. -/
theorem ne_of_isPathChar {c mark : Char} (plain : isPathChar c = true)
    (inGrammar : mark ∈ ['*','[',']','<',',','\x7b']) : c ≠ mark := by
  have marks : ['*','[',']','<',',','\x7b'].any isPathChar = false := by decide
  intro same
  exact List.any_eq_false.mp marks mark inGrammar (same ▸ plain)

theorem endsName_of_isPathChar {c : Char} (plain : isPathChar c = true) : endsName c = false := by
  have visible : Text.isBlank c = false := by
    rw [isPathChar,Bool.or_eq_true] at plain
    rcases plain with alphanumeric | mark
    · exact Text.isBlank_of_isAlphanumeric alphanumeric
    · have marks : ['_','.','/','-'].any Text.isBlank = false := by decide
      exact Bool.eq_false_iff.mpr (List.any_eq_false.mp marks c (List.contains_iff_mem.mp mark))
  rw [endsName,visible,beq_false_of_ne (ne_of_isPathChar plain (by decide)),
    beq_false_of_ne (ne_of_isPathChar plain (by decide))]
  rfl

theorem isPathChar_of_isIdentifier (identifier : Text.isIdentifier name = true) :
    ∀ c ∈ name.toList, isPathChar c = true := by
  intro c member
  rcases (Text.chars_of_isIdentifier identifier).2 c member with rfl | alphanumeric
  · decide
  · rw [isPathChar,alphanumeric,Bool.true_or]

theorem not_mem_of_isIdentifier (identifier : Text.isIdentifier name = true) : '.' ∉ name.toList := by
  intro member
  rcases (Text.chars_of_isIdentifier identifier).2 '.' member with same | alphanumeric
  · exact absurd same (by decide)
  · exact absurd alphanumeric (by decide)

/-- What is written as paths are is read in one piece, unless it begins as a literal does. -/
theorem word_of_isPathChar (nonempty : token ≠ []) (plain : ∀ c ∈ token, isPathChar c = true)
    (bare : ¬ (structToken <+: token ∨ interfaceToken <+: token)) : Word token := by
  refine ⟨nonempty,fun c member => endsName_of_isPathChar (plain c member),?_⟩
  have marked {opener : List Char} (mark : Char) (inside : mark ∈ opener)
      (inGrammar : mark ∈ ['*','[',']','<',',','\x7b']) : ¬ opener <+: token := fun start =>
    ne_of_isPathChar (plain mark (start.subset inside)) inGrammar rfl
  simp only [openers,List.forall_mem_cons]
  exact ⟨marked '*' (by decide) (by decide),marked '[' (by decide) (by decide),marked '[' (by decide) (by decide),
    marked '<' (by decide) (by decide),marked '<' (by decide) (by decide),fun start => bare (.inl start),
    fun start => bare (.inr start),by simp⟩

end Words

section Reading
variable {home : Option String} {s after rest : List Char} {k t : TypeExpr} {n : NamedType} {f : Fault}

theorem toList_namedKey (n : NamedType) :
    (TypeExpr.named n).key.toList = n.path.toList ++ '.' :: n.name.toList := by
  simp [TypeExpr.key,NamedType.key]

theorem isPathChar_namedKey (path : ∀ c ∈ n.path.toList, isPathChar c = true)
    (name : Text.isIdentifier n.name = true) : ∀ c ∈ (TypeExpr.named n).key.toList, isPathChar c = true := by
  rw [toList_namedKey]
  exact List.forall_mem_append.mpr
    ⟨path,List.forall_mem_cons.mpr ⟨by decide,isPathChar_of_isIdentifier name⟩⟩

/-- A name begins as a literal does only with the path of its package. -/
theorem captured_of_namedKey (start : structToken <+: (TypeExpr.named n).key.toList ∨
    interfaceToken <+: (TypeExpr.named n).key.toList) : Captured n.path := by
  rw [toList_namedKey] at start
  exact start.imp (prefix_of_stop (by decide)) (prefix_of_stop (by decide))

theorem solid_of_isPathChar {s : List Char} (nonempty : s ≠ []) (plain : ∀ c ∈ s, isPathChar c = true) :
    Text.Solid s := by
  refine .of_forall nonempty fun c member => ?_
  have unbroken := endsName_of_isPathChar (plain c member)
  simp only [endsName,Bool.or_eq_false_iff] at unbroken
  exact unbroken.2

theorem Conventional.solid (conventional : Conventional t) : Text.Solid t.key.toList := by
  induction conventional with
  | error => exact solid_of_isPathChar (by decide) (List.all_eq_true.mp (by decide))
  | struct => exact solid_literal (.inl rfl)
  | interface => exact solid_literal (.inr rfl)
  | basic identifier =>
    exact solid_of_isPathChar (Text.chars_of_isIdentifier identifier).1 (isPathChar_of_isIdentifier identifier)
  | named _ path name =>
    refine solid_of_isPathChar ?_ (isPathChar_namedKey path name)
    rw [toList_namedKey]
    simp
  | wrap wraps _ _ ih => exact wraps.solid ih
  | map _ _ _ ih => exact solid_map _ ih

theorem Wraps.mem_subexprs {head : Head} {wrap : TypeExpr → TypeExpr} (wraps : Wraps head wrap) :
    .named n ∈ (wrap t).subexprs ↔ .named n ∈ t.subexprs := by
  cases wraps <;> simp [subexprs]

/-- Where no path is taken for a literal, a type with conventional names can be read from its key. -/
theorem Conventional.legible (conventional : Conventional t)
    (free : ∀ n, .named n ∈ t.subexprs → ¬ Captured n.path) : Legible t := by
  induction conventional with
  | error =>
    exact .name (word_of_isPathChar (by decide) (List.all_eq_true.mp (by decide)) (by decide)) (.error rfl)
  | struct => exact .struct
  | interface => exact .interface
  | @basic name identifier lower notError notAny bare =>
    refine .name (word_of_isPathChar (Text.chars_of_isIdentifier identifier).1
      (isPathChar_of_isIdentifier identifier) bare) ?_
    have names : Names none name.toList (.basic (String.ofList name.toList)) :=
      .basic (not_mem_of_isIdentifier identifier) (fun same => notError (String.toList_inj.mp same))
        (fun same => notAny (String.toList_inj.mp same)) lower
    rwa [String.ofList_toList] at names
  | @named n written path name =>
    have bare := free n (mem_subexprs_self _)
    refine .name (word_of_isPathChar ?_ (isPathChar_namedKey path name) fun start => bare (captured_of_namedKey start)) ?_
    · rw [toList_namedKey]
      simp
    · have names : Names none (TypeExpr.named n).key.toList
          (.named ⟨String.ofList n.path.toList,String.ofList n.name.toList⟩) :=
        .qualified (toList_namedKey n) (not_mem_of_isIdentifier name)
          (fun empty => written (String.toList_inj.mp empty)) (Text.chars_of_isIdentifier name).1
      rwa [String.ofList_toList,String.ofList_toList] at names
  | wrap wraps fits _ ih => exact .wrap wraps fits (ih fun n member => free n (wraps.mem_subexprs.mpr member))
  | map _ _ ihk ihv =>
    refine .map (ihk fun n member => free n ?_) (ihv fun n member => free n ?_)
    · exact List.mem_cons_of_mem _ (List.mem_append_left _ member)
    · exact List.mem_cons_of_mem _ (List.mem_append_right _ member)

/-- Reading the front of the text ends with a fault. -/
def Refuses (home : Option String) (s : List Char) (f : Fault) : Prop := readFront home s = .error f

theorem Refuses.leaf (read : readHead home s = .error f) : Refuses home s f := by
  rw [Refuses,readFront]
  split <;> rename_i found <;> cases read.symm.trans found
  rfl

theorem Refuses.wrap {head : Head} {wrap : TypeExpr → TypeExpr} (wraps : Wraps head wrap)
    (read : readHead home s = .ok (head,after)) (inner : Refuses home after f) : Refuses home s f := by
  rw [Refuses,readFront]
  cases wraps <;> split <;> rename_i found <;> cases read.symm.trans found <;> rw [inner] <;> rfl

theorem Refuses.key (read : readHead home s = .ok (.map,after)) (key : Refuses home after f) : Refuses home s f := by
  rw [Refuses,readFront]
  split <;> rename_i found <;> cases read.symm.trans found
  simp only [show readFront home after = .error f from key]

theorem Refuses.value {afterKey afterBracket : List Char} (read : readHead home s = .ok (.map,after))
    (key : Reads home after k afterKey) (closes : eat? [']'] afterKey = some afterBracket)
    (value : Refuses home afterBracket f) : Refuses home s f := by
  obtain ⟨shorter,key⟩ := key
  rw [Refuses,readFront]
  split <;> rename_i found <;> cases read.symm.trans found
  simp only [key]
  split <;> rename_i bracket <;> cases closes.symm.trans bracket
  rw [value]
  rfl

/-- The word of a literal counts whatever follows it but for a brace. -/
theorem readHead_keyword (home : Option String) {keyword : List Char}
    (literal : keyword = structToken ∨ keyword = interfaceToken) {c : Char} (other : c ≠ '\x7b') (s : List Char) :
    readHead home (keyword ++ c :: s) = .error .literalWithMembers := by
  rcases literal with rfl | rfl <;>
    simp [readHead,eat?,Text.strip?,structToken,interfaceToken,Ne.symm other]

theorem readHead_captured (path : ∀ c ∈ n.path.toList, isPathChar c = true) (captured : Captured n.path)
    (home : Option String) (rest : List Char) :
    readHead home ((TypeExpr.named n).key.toList ++ rest) = .error .literalWithMembers := by
  obtain ⟨keyword,literal,more,split⟩ : ∃ keyword, (keyword = structToken ∨ keyword = interfaceToken) ∧
      ∃ more, keyword ++ more = n.path.toList := by
    rcases captured with start | start
    · exact ⟨_,.inl rfl,start⟩
    · exact ⟨_,.inr rfl,start⟩
  rw [toList_namedKey,← split,List.append_assoc,List.append_assoc]
  cases more with
  | nil => exact readHead_keyword home literal (by decide) _
  | cons c more =>
    have plain := path c (split ▸ List.mem_append_right _ List.mem_cons_self)
    exact readHead_keyword home literal (ne_of_isPathChar plain (by decide)) _

/-- A path that is taken for a literal ends the reading, wherever in the type it stands. -/
theorem Conventional.refuses (conventional : Conventional t) (home : Option String)
    (taken : ∃ n, .named n ∈ t.subexprs ∧ Captured n.path) (rest : List Char) :
    Refuses home (t.key.toList ++ rest) .literalWithMembers := by
  induction conventional generalizing rest with
  | error | struct | interface | basic =>
    obtain ⟨n,member,_⟩ := taken
    simp [subexprs] at member
  | @named n _ path _ =>
    obtain ⟨n',member,captured⟩ := taken
    obtain rfl : n' = n := by simpa [subexprs] using member
    exact .leaf (readHead_captured path captured home rest)
  | wrap wraps fits inner ih =>
    obtain ⟨n,member,captured⟩ := taken
    exact .wrap wraps (wraps.readHead fits inner.solid home rest) (ih ⟨n,wraps.mem_subexprs.mp member,captured⟩ rest)
  | @map k v key value ihk ihv =>
    have opened := readHead_mapKey key.solid home v rest
    by_cases inKey : ∃ n, .named n ∈ k.subexprs ∧ Captured n.path
    · exact .key opened (ihk inKey _)
    · have legible : Legible k := key.legible fun n member captured => inKey ⟨n,member,captured⟩
      refine .value opened (legible.reads home (.inr ⟨_,rfl⟩)) (eat?_bracket value.solid rest) (ihv ?_ rest)
      obtain ⟨n,member,captured⟩ := taken
      simp only [subexprs,List.mem_cons,reduceCtorEq,false_or,List.mem_append] at member
      rcases member with member | member
      · exact absurd ⟨n,member,captured⟩ inKey
      · exact ⟨n,member,captured⟩

theorem parse_of_refuses {text : String} (refuses : Refuses home (Text.trim text.toList) f) :
    parse home text = .error f := by
  rw [parse,refuses]

/-- A type with conventional names is read from its key exactly where no path of a package in it begins as a literal
does; if one does, the key is refused for being a literal with members. -/
theorem reads_key_iff (conventional : Conventional t) (home : Option String) :
    (parse home t.key = .ok t ↔ ∀ n, .named n ∈ t.subexprs → ¬ Captured n.path) ∧
      (parse home t.key = .ok t ∨ parse home t.key = .error .literalWithMembers) := by
  by_cases taken : ∃ n, .named n ∈ t.subexprs ∧ Captured n.path
  · have refused := conventional.refuses home taken []
    rw [List.append_nil,← conventional.solid.trim] at refused
    rw [parse_of_refuses refused]
    obtain ⟨n,member,captured⟩ := taken
    exact ⟨iff_of_false (by simp) fun free => free n member captured,.inr rfl⟩
  · have free : ∀ n, .named n ∈ t.subexprs → ¬ Captured n.path := fun n member captured => taken ⟨n,member,captured⟩
    have read := (conventional.legible free).parse home
    exact ⟨iff_of_true read free,.inl read⟩

end Reading

namespace Shelf

def reader : TypeExpr := .map (.basic "string") (.pointer (.named ⟨"lib/structs","Reader"⟩))

def layout : TypeExpr := .array 4 (.named ⟨"structs","Layout"⟩)

theorem conventional_reader : Conventional reader := by
  have name : Conventional (.basic "string") :=
    .basic (by decide) (by decide) (by decide) (by decide) (by unfold Captured; decide)
  have type : Conventional (.named ⟨"lib/structs","Reader"⟩) :=
    .named (by decide) (List.all_eq_true.mp (by decide)) (by decide)
  have pointer : Conventional (.pointer (.named ⟨"lib/structs","Reader"⟩)) := by
    refine .wrap .pointer ?_ type
    intro n same
    cases same
  exact .map name pointer

theorem conventional_layout : Conventional layout := by
  have type : Conventional (.named ⟨"structs","Layout"⟩) :=
    .named (by decide) (List.all_eq_true.mp (by decide)) (by decide)
  refine .wrap (.array 4) ?_ type
  intro n same
  cases same
  decide

/-- The words of literals do no harm where they stand inside a path. -/
theorem reader_read : Conventional reader ∧ parse (some "p") "map[string]*lib/structs.Reader" = .ok reader := by
  have key : reader.key = "map[string]*lib/structs.Reader" := by decide
  refine ⟨conventional_reader,?_⟩
  rw [← key,(reads_key_iff conventional_reader (some "p")).1]
  intro n member captured
  obtain rfl : n = ⟨"lib/structs","Reader"⟩ := by simpa [reader,subexprs] using member
  unfold Captured at captured
  revert captured
  decide

/-- A path that begins with the word of a literal hides the types of its package. -/
theorem layout_refused : Conventional layout ∧ layout.key = "[4]structs.Layout" ∧
    parse none layout.key = .error .literalWithMembers := by
  refine ⟨conventional_layout,by decide,?_⟩
  have key : layout.key = "[4]structs.Layout" := by decide
  rw [key]
  decide +kernel

end Shelf

end TypeExpr
end ProxyGen
