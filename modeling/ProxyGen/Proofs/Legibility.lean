import Mathlib.Data.List.Basic
import Mathlib.Data.List.TakeWhile
import ProxyGen.TypeExpr.Parser

/-! Keys are read as what they are keys of. A key has no blanks but those behind the heads of channels, and each
of its names ends with the text or at the bracket that closes the key of a map; so whatever was read once is read
again from its own key, and different types that were read have different keys. -/
namespace ProxyGen

namespace Text

theorem strip?_isSome_iff {start s : List Char} : (strip? start s).isSome ↔ start <+: s := by
  rw [Option.isSome_iff_exists]
  simp only [strip?_eq_some]
  exact exists_congr fun _ => eq_comm

theorem trimStart_of_solid {s : List Char} (first : ∀ c ∈ s.head?, isBlank c = false) : trimStart s = s := by
  cases s with
  | nil => rfl
  | cons c s => exact List.dropWhile_cons_of_neg (by simp [first c rfl])

/-- Neither end of the text is blank. -/
structure Solid (s : List Char) : Prop where
  nonempty : s ≠ []
  first : ∀ c ∈ s.head?, isBlank c = false
  last : ∀ c ∈ s.getLast?, isBlank c = false

namespace Solid
variable {s : List Char}

theorem trim (solid : Solid s) : trim s = s := by
  have last : ∀ c ∈ s.reverse.head?, isBlank c = false := by
    rw [List.head?_reverse]
    exact solid.last
  rw [Text.trim,trimStart_of_solid solid.first,trimStart_of_solid last,List.reverse_reverse]

theorem trimStart_append (solid : Solid s) (rest : List Char) : trimStart (s ++ rest) = s ++ rest := by
  apply trimStart_of_solid
  rw [List.head?_append_of_ne_nil s solid.nonempty]
  exact solid.first

theorem of_forall (nonempty : s ≠ []) (visible : ∀ c ∈ s, isBlank c = false) : Solid s :=
  ⟨nonempty,fun c first => visible c (List.mem_of_mem_head? first),
    fun c last => visible c (List.mem_of_mem_getLast? last)⟩

theorem after {c : Char} (visible : isBlank c = false) (before : List Char) (solid : Solid s) :
    Solid (c :: (before ++ s)) where
  nonempty := List.cons_ne_nil _ _
  first := by
    rintro _ ⟨⟩
    exact visible
  last := by
    rw [← List.cons_append,List.getLast?_append_of_ne_nil _ solid.nonempty]
    exact solid.last

end Solid

theorem isBlank_of_isDigit {c : Char} (digit : c.isDigit = true) : isBlank c = false := by
  have bounds : 48 ≤ c.toNat ∧ c.toNat ≤ 57 := by
    simpa [Char.isDigit,UInt32.le_iff_toNat_le] using digit
  have outside (first last step : Nat) (other : c.toNat < first ∨ last < c.toNat) (rest : Runs) :
      Runs.contains ((first,last,step) :: rest) c.toNat =
        if c.toNat < first then false else Runs.contains rest c.toNat := by
    rw [Runs.contains]
    split
    · rfl
    · rw [if_neg (by omega)]
  rw [isBlank,blank,outside _ _ _ (by omega),outside _ _ _ (by omega),outside _ _ _ (by omega),if_neg (by omega),
    if_neg (by omega),if_pos (by omega)]

end Text

namespace TypeExpr

/-- What a word stands for in a text that was written in the package. -/
inductive Names (home : Option String) (token : List Char) : TypeExpr → Prop
  | qualified {path name : List Char} (whole : token = path ++ '.' :: name) (last : '.' ∉ name)
      (package : path ≠ []) (type : name ≠ []) : Names home token (.named ⟨String.ofList path,String.ofList name⟩)
  | error (same : token = ['e','r','r','o','r']) : Names home token .error
  | any (same : token = ['a','n','y']) : Names home token .interface
  | unqualified {path : String} (simple : '.' ∉ token) (upper : token.head?.any Text.isUppercase = true)
      (known : home = some path) : Names home token (.named ⟨path,String.ofList token⟩)
  | basic (simple : '.' ∉ token) (notError : token ≠ ['e','r','r','o','r']) (notAny : token ≠ ['a','n','y'])
      (lower : ¬ token.head?.any Text.isUppercase = true) : Names home token (.basic (String.ofList token))

section Words
variable {home : Option String} {token : List Char} {t : TypeExpr}

theorem names_of_ofName (ok : ofName home token = .ok t) : Names home token t := by
  unfold ofName at ok
  split at ok
  next path name parts =>
    obtain ⟨whole,last⟩ := Text.splitLast?_eq_some parts
    split at ok
    next => cases ok
    next written =>
      cases ok
      simp only [Bool.or_eq_true,List.isEmpty_iff,not_or] at written
      exact .qualified whole last written.1 written.2
  next parts =>
    have simple := Text.splitLast?_eq_none_iff.mp parts
    split at ok
    next =>
      cases ok
      exact .error rfl
    next =>
      cases ok
      exact .any rfl
    next notError notAny =>
      split at ok
      next upper =>
        split at ok
        next =>
          cases ok
          exact .unqualified simple upper rfl
        next => cases ok
      next lower =>
        cases ok
        exact .basic simple notError notAny lower

theorem Names.ofName (names : Names home token t) : ofName home token = .ok t := by
  unfold TypeExpr.ofName
  cases names with
  | qualified whole last package type =>
    rw [whole,Text.splitLast?_last _ last]
    simp [package,type]
  | error same => subst same; rfl
  | any same => subst same; rfl
  | unqualified simple upper known =>
    rw [Text.splitLast?_eq_none_iff.mpr simple]
    simp only
    split
    next => cases upper
    next => cases upper
    next => rw [if_pos upper,known]
  | basic simple notError notAny lower =>
    rw [Text.splitLast?_eq_none_iff.mpr simple]
    simp only
    exact if_neg lower

/-- A name that can be read outside of every package is read in the same way within one. -/
theorem Names.anywhere (names : Names none token t) (home : Option String) : Names home token t := by
  cases names with
  | qualified whole last package type => exact .qualified whole last package type
  | error same => exact .error same
  | any same => exact .any same
  | unqualified _ _ known => cases known
  | basic simple notError notAny lower => exact .basic simple notError notAny lower

end Words

/-- The texts with which all begins that is not a name. -/
def openers : List (List Char) :=
  [['*'],['['],['m','a','p','['],['<','-','c','h','a','n'],['c','h','a','n','<','-'],structToken,interfaceToken]

/-- A text that is read in one piece. -/
structure Word (token : List Char) : Prop where
  nonempty : token ≠ []
  unbroken : ∀ c ∈ token, endsName c = false
  bare : ∀ opener ∈ openers, ¬ opener <+: token

/-- The text is over, or the key of a map is. -/
def Ends (rest : List Char) : Prop := rest = [] ∨ ∃ s, rest = ']' :: s

section Heads
variable {home : Option String} {s rest token : List Char} {t : TypeExpr}

theorem eat?_eq_none {opener : List Char} (other : ¬ opener <+: s) : eat? opener s = none := by
  rw [eat?,Option.map_eq_none_iff]
  exact Option.not_isSome_iff_eq_none.mp (Text.strip?_isSome_iff.not.mpr other)

theorem not_prefix_of_eat? {opener : List Char} (other : ∀ rest, eat? opener s = some rest → False) :
    ¬ opener <+: s := by
  rintro ⟨rest,rfl⟩
  refine other (Text.trimStart rest) ?_
  rw [eat?,Text.strip?_eq_some.mpr rfl]
  rfl

/-- A text without some character starts no later than it. -/
theorem prefix_of_stop {opener : List Char} {stop : Char} (inside : stop ∉ opener)
    (start : opener <+: token ++ stop :: s) : opener <+: token := by
  induction token generalizing opener with
  | nil =>
    cases opener with
    | nil => exact List.nil_prefix
    | cons c opener =>
      rw [List.nil_append,List.cons_prefix_cons] at start
      exact absurd (start.1 ▸ List.mem_cons_self) inside
  | cons d token ih =>
    cases opener with
    | nil => exact List.nil_prefix
    | cons c opener =>
      rw [List.cons_append,List.cons_prefix_cons] at start
      obtain ⟨rfl,start⟩ := start
      exact List.cons_prefix_cons.mpr ⟨rfl,ih (fun inner => inside (List.mem_cons_of_mem _ inner)) start⟩

theorem prefix_of_ends {opener : List Char} (ends : Ends rest) (inside : ']' ∉ opener)
    (start : opener <+: token ++ rest) : opener <+: token := by
  rcases ends with rfl | ⟨s,rfl⟩
  · rwa [List.append_nil] at start
  · exact prefix_of_stop inside start

theorem Ends.takeWhile (ends : Ends rest) : rest.takeWhile (fun c => !endsName c) = [] := by
  rcases ends with rfl | ⟨s,rfl⟩
  · rfl
  · exact List.takeWhile_cons_of_neg (by decide)

theorem Ends.dropWhile (ends : Ends rest) : rest.dropWhile (fun c => !endsName c) = rest := by
  rcases ends with rfl | ⟨s,rfl⟩
  · rfl
  · exact List.dropWhile_cons_of_neg (by decide)

theorem nameHead_word (word : Word token) (ends : Ends rest) (names : Names home token t) :
    nameHead home (token ++ rest) = .ok (.leaf t,rest) := by
  have unbroken : ∀ c ∈ token, (!endsName c) = true := fun c member => by rw [word.unbroken c member]; rfl
  rw [nameHead,List.takeWhile_append_of_pos unbroken,List.dropWhile_append_of_pos unbroken,ends.takeWhile,
    ends.dropWhile,List.append_nil]
  obtain ⟨c,rest',rfl⟩ := List.exists_cons_of_ne_nil word.nonempty
  simp only [names.ofName]

/-- Before the end of the text or of the key of a map a word is read as the name that it is. -/
theorem readHead_word (word : Word token) (ends : Ends rest) (names : Names home token t) :
    readHead home (token ++ rest) = .ok (.leaf t,rest) := by
  have none (opener : List Char) (inside : ']' ∉ opener) (other : ¬ opener <+: token) :
      ¬ opener <+: token ++ rest := fun start => other (prefix_of_ends ends inside start)
  have bare : ∀ opener ∈ openers, ¬ opener <+: token ++ rest := fun opener member =>
    none opener (by revert opener; decide) (word.bare opener member)
  have blank (c : Char) (blank : endsName c = true) (other : c ≠ ']') :
      ¬ ['c','h','a','n',c] <+: token ++ rest := by
    refine none _ (by simp [Ne.symm other]) fun start => ?_
    have inner := word.unbroken c (start.subset (by simp))
    rw [inner] at blank
    cases blank
  have slice : ¬ ['[',']'] <+: token ++ rest := fun start =>
    bare ['['] (by decide) ((List.prefix_append ['['] [']']).trans start)
  have struct := bare structToken (by decide)
  have interface := bare interfaceToken (by decide)
  have literal (opener more : List Char) (other : ¬ opener <+: token ++ rest) :
      ¬ opener ++ more <+: token ++ rest := fun start => other ((List.prefix_append opener more).trans start)
  simp only [readHead,eat?_eq_none (bare ['*'] (by decide)),eat?_eq_none slice,
    eat?_eq_none (bare ['['] (by decide)),eat?_eq_none (bare ['m','a','p','['] (by decide)),
    eat?_eq_none (bare ['<','-','c','h','a','n'] (by decide)),
    eat?_eq_none (bare ['c','h','a','n','<','-'] (by decide)),eat?_eq_none (blank ' ' (by decide) (by decide)),
    eat?_eq_none (blank '\t' (by decide) (by decide)),eat?_eq_none (literal structToken _ struct),
    eat?_eq_none (literal interfaceToken _ interface),Text.strip?_isSome_iff,Bool.or_eq_true,struct,interface,
    or_self,if_false]
  exact nameHead_word word ends names

theorem readHead_pointer (home : Option String) (s : List Char) :
    readHead home ('*' :: s) = .ok (.pointer,Text.trimStart s) := by
  simp [readHead,eat?,Text.strip?]

theorem readHead_slice (home : Option String) (s : List Char) :
    readHead home ('[' :: ']' :: s) = .ok (.slice,Text.trimStart s) := by
  simp [readHead,eat?,Text.strip?]

theorem readHead_map (home : Option String) (s : List Char) :
    readHead home ("map[".toList ++ s) = .ok (.map,Text.trimStart s) := by
  simp [readHead,eat?,Text.strip?]

theorem readHead_chan (home : Option String) (d : ChanDir) (s : List Char) :
    readHead home (d.text.toList ++ s) = .ok (.chan d,Text.trimStart s) := by
  have blank : Text.trimStart (' ' :: s) = Text.trimStart s := List.dropWhile_cons_of_pos (by decide)
  cases d <;> simp [readHead,eat?,Text.strip?,ChanDir.text,blank]

theorem readHead_literal (home : Option String) (literal : t = .struct ∨ t = .interface) (s : List Char) :
    readHead home (t.key.toList ++ s) = .ok (.leaf t,Text.trimStart s) := by
  rcases literal with rfl | rfl <;> simp [readHead,eat?,Text.strip?,key,structToken,interfaceToken]

end Heads

section Lengths

theorem digits?_eq {digits : List Char} (all : ∀ c ∈ digits, c.isDigit = true) (n : Nat) :
    digits? digits n = some (Nat.ofDigitChars 10 digits n) := by
  induction digits generalizing n with
  | nil => rfl
  | cons c digits ih =>
    obtain ⟨first,others⟩ := List.forall_mem_cons.mp all
    rw [digits?,if_pos first,ih others,Nat.ofDigitChars_cons,Nat.mul_comm]

/-- A length is read from its own digits. -/
theorem readLength?_toDigits {n : Nat} (below : n < lengthBound) : readLength? (Nat.toDigits 10 n) = some n := by
  have digits : ∀ c ∈ Nat.toDigits 10 n, c.isDigit = true := fun c =>
    Nat.isDigit_of_mem_toDigits (by decide) (by decide)
  have value := digits?_eq digits 0
  rw [Nat.ofDigitChars_ten_toDigits] at value
  cases text : Nat.toDigits 10 n with
  | nil => exact absurd text Nat.toDigits_ne_nil
  | cons c rest =>
    have first : c ≠ '+' := by
      rintro rfl
      exact absurd (digits '+' (text ▸ List.mem_cons_self)) (by decide)
    rw [text] at value
    unfold readLength?
    split
    next same => cases same; exact absurd rfl first
    next => simp [value,below]

theorem readHead_array (home : Option String) {n : Nat} (below : n < lengthBound) (s : List Char) :
    readHead home ('[' :: (Nat.toDigits 10 n ++ ']' :: s)) = .ok (.array n,Text.trimStart s) := by
  have digits : ∀ c ∈ Nat.toDigits 10 n, c.isDigit = true := fun c =>
    Nat.isDigit_of_mem_toDigits (by decide) (by decide)
  have unclosed : ∀ c ∈ Nat.toDigits 10 n, (c != ']') = true := by
    intro c member
    rw [bne_iff_ne]
    rintro rfl
    exact absurd (digits ']' member) (by decide)
  have solid : Text.Solid (Nat.toDigits 10 n) :=
    .of_forall Nat.toDigits_ne_nil fun c member => Text.isBlank_of_isDigit (digits c member)
  have read : arrayHead (Nat.toDigits 10 n ++ ']' :: s) = .ok (.array n,Text.trimStart s) := by
    rw [arrayHead,List.dropWhile_append_of_pos unclosed,List.takeWhile_append_of_pos unclosed]
    simp [solid.trim,readLength?_toDigits below]
  cases text : Nat.toDigits 10 n with
  | nil => exact absurd text Nat.toDigits_ne_nil
  | cons c rest =>
    have start := solid.trimStart_append (']' :: s)
    rw [text] at read unclosed start
    have other : ']' ≠ c := Ne.symm (bne_iff_ne.mp (unclosed c List.mem_cons_self))
    rw [← read]
    simp only [List.cons_append] at start
    simp [readHead,eat?,Text.strip?,other,start]

end Lengths

/-- The head announces a type built around one other type. -/
inductive Wraps : Head → (TypeExpr → TypeExpr) → Prop
  | pointer : Wraps .pointer .pointer
  | slice : Wraps .slice .slice
  | array (n : Nat) : Wraps (.array n) (.array n)
  | chan (d : ChanDir) : Wraps (.chan d) (.chan d)

/-- The type stands at the front of the text, and this is what follows it. -/
def Reads (home : Option String) (s : List Char) (t : TypeExpr) (rest : List Char) : Prop :=
  ∃ shorter, readFront home s = .ok (t,⟨rest,shorter⟩)

section Reading
variable {home : Option String} {s after rest : List Char} {t k v : TypeExpr}

theorem Reads.leaf (read : readHead home s = .ok (.leaf t,rest)) : Reads home s t rest := by
  refine ⟨readHead_length read,?_⟩
  rw [readFront]
  split <;> rename_i found <;> cases read.symm.trans found
  rfl

theorem Reads.wrap {head : Head} {wrap : TypeExpr → TypeExpr} (wraps : Wraps head wrap)
    (read : readHead home s = .ok (head,after)) (inner : Reads home after t rest) :
    Reads home s (wrap t) rest := by
  obtain ⟨shorter,inner⟩ := inner
  refine ⟨Nat.lt_trans shorter (readHead_length read),?_⟩
  rw [readFront]
  cases wraps <;> split <;> rename_i found <;> cases read.symm.trans found <;> rw [inner] <;> rfl

theorem Reads.map {afterKey afterBracket : List Char} (read : readHead home s = .ok (.map,after))
    (key : Reads home after k afterKey) (closes : eat? [']'] afterKey = some afterBracket)
    (value : Reads home afterBracket v rest) : Reads home s (.map k v) rest := by
  obtain ⟨shorter,key⟩ := key
  obtain ⟨shorter',value⟩ := value
  have shortest : rest.length < s.length := by
    have closed := eat?_length closes
    have opened := readHead_length read
    rw [List.length_singleton] at closed
    omega
  refine ⟨shortest,?_⟩
  rw [readFront]
  split <;> rename_i found <;> cases read.symm.trans found
  simp only [key]
  split <;> rename_i bracket <;> cases closes.symm.trans bracket
  rw [value]
  rfl

theorem below_eq_ok {wrap : TypeExpr → TypeExpr} {h : after.length < s.length}
    {inner : Except Fault (Front after)} {front : Front s} (ok : readFront.below h wrap inner = .ok front) :
    ∃ t rest, inner = .ok (t,rest) ∧ front.1 = wrap t := by
  unfold readFront.below at ok
  split at ok
  · cases ok
  · cases ok
    exact ⟨_,_,rfl,rfl⟩

end Reading

/-- A type whose key can be read: each name in it is a word that stands for its type, and lengths fit. -/
inductive Legible : TypeExpr → Prop
  | name {t : TypeExpr} (word : Word t.key.toList) (names : Names none t.key.toList t) : Legible t
  | struct : Legible .struct
  | interface : Legible .interface
  | wrap {head : Head} {wrap : TypeExpr → TypeExpr} {t : TypeExpr} (wraps : Wraps head wrap)
      (fits : ∀ n, head = .array n → n < lengthBound) (inner : Legible t) : Legible (wrap t)
  | map {k v : TypeExpr} (key : Legible k) (value : Legible v) : Legible (.map k v)

section Keys
variable {home : Option String} {head : Head} {wrap : TypeExpr → TypeExpr} {token rest : List Char} {t : TypeExpr}

theorem Word.solid (word : Word token) : Text.Solid token := by
  refine .of_forall word.nonempty fun c member => ?_
  have unbroken := word.unbroken c member
  simp only [endsName,Bool.or_eq_false_iff] at unbroken
  exact unbroken.2

theorem Ends.trimStart (ends : Ends rest) : Text.trimStart rest = rest := by
  rcases ends with rfl | ⟨s,rfl⟩
  · rfl
  · exact Text.trimStart_of_solid (by rintro _ ⟨⟩; decide)

theorem Wraps.key (wraps : Wraps head wrap) (t : TypeExpr) :
    ∃ c before, Text.isBlank c = false ∧ (wrap t).key.toList = c :: (before ++ t.key.toList) := by
  cases wraps with
  | pointer => exact ⟨'*',[],by decide,by simp [TypeExpr.key]⟩
  | slice => exact ⟨'[',[']'],by decide,by simp [TypeExpr.key]⟩
  | array n => exact ⟨'[',Nat.toDigits 10 n ++ [']'],by decide,by simp [TypeExpr.key]⟩
  | chan d => cases d with
    | both => exact ⟨'c',['h','a','n',' '],by decide,by simp [TypeExpr.key,ChanDir.text]⟩
    | send => exact ⟨'c',['h','a','n','<','-',' '],by decide,by simp [TypeExpr.key,ChanDir.text]⟩
    | recv => exact ⟨'<',['-','c','h','a','n',' '],by decide,by simp [TypeExpr.key,ChanDir.text]⟩

theorem Wraps.readHead (wraps : Wraps head wrap) (fits : ∀ n, head = .array n → n < lengthBound)
    (solid : Text.Solid t.key.toList) (home : Option String) (rest : List Char) :
    readHead home ((wrap t).key.toList ++ rest) = .ok (head,t.key.toList ++ rest) := by
  rw [← solid.trimStart_append rest]
  cases wraps with
  | pointer => simp [TypeExpr.key,readHead_pointer]
  | slice => simp [TypeExpr.key,readHead_slice]
  | array n =>
    rw [← readHead_array home (fits n rfl)]
    simp [TypeExpr.key]
  | chan d =>
    rw [← readHead_chan home d]
    simp [TypeExpr.key]

theorem Wraps.solid (wraps : Wraps head wrap) (solid : Text.Solid t.key.toList) :
    Text.Solid (wrap t).key.toList := by
  obtain ⟨c,before,visible,key⟩ := wraps.key t
  rw [key]
  exact .after visible before solid

theorem solid_map (k : TypeExpr) {v : TypeExpr} (solid : Text.Solid v.key.toList) :
    Text.Solid (TypeExpr.map k v).key.toList := by
  have key : (TypeExpr.map k v).key.toList = 'm' :: (['a','p','['] ++ k.key.toList ++ [']'] ++ v.key.toList) := by
    simp [TypeExpr.key]
  rw [key]
  exact .after (by decide) _ solid

theorem solid_literal (literal : t = .struct ∨ t = .interface) : Text.Solid t.key.toList := by
  rcases literal with rfl | rfl <;> exact ⟨by decide,by rintro _ ⟨⟩; rfl,by rintro _ ⟨⟩; rfl⟩

theorem Legible.solid (legible : Legible t) : Text.Solid t.key.toList := by
  induction legible with
  | name word _ => exact word.solid
  | struct => exact solid_literal (.inl rfl)
  | interface => exact solid_literal (.inr rfl)
  | wrap wraps _ _ ih => exact wraps.solid ih
  | map _ _ _ ih => exact solid_map _ ih

/-- The key of a map begins with what announces the map. -/
theorem readHead_mapKey {k : TypeExpr} (solid : Text.Solid k.key.toList) (home : Option String) (v : TypeExpr)
    (rest : List Char) : readHead home ((TypeExpr.map k v).key.toList ++ rest) =
      .ok (.map,k.key.toList ++ ']' :: (v.key.toList ++ rest)) := by
  have text : (TypeExpr.map k v).key.toList ++ rest =
      "map[".toList ++ (k.key.toList ++ ']' :: (v.key.toList ++ rest)) := by
    simp [TypeExpr.key]
  rw [text,readHead_map,solid.trimStart_append]

theorem eat?_bracket (solid : Text.Solid t.key.toList) (rest : List Char) :
    eat? [']'] (']' :: (t.key.toList ++ rest)) = some (t.key.toList ++ rest) := by
  simp [eat?,Text.strip?,solid.trimStart_append]

/-- The key of a legible type is read as the type, before the end of the text or of the key of a map. -/
theorem Legible.reads (legible : Legible t) (home : Option String) (ends : Ends rest) :
    Reads home (t.key.toList ++ rest) t rest := by
  induction legible generalizing rest with
  | name word names => exact .leaf (readHead_word word ends (names.anywhere home))
  | struct =>
    refine .leaf ((readHead_literal home (.inl rfl) rest).trans ?_)
    rw [ends.trimStart]
  | interface =>
    refine .leaf ((readHead_literal home (.inr rfl) rest).trans ?_)
    rw [ends.trimStart]
  | wrap wraps fits inner ih => exact .wrap wraps (wraps.readHead fits inner.solid home rest) (ih ends)
  | @map k v key value ihk ihv =>
    exact .map (readHead_mapKey key.solid home v rest) (ihk (.inr ⟨_,rfl⟩)) (eat?_bracket value.solid rest) (ihv ends)

theorem parse_of_reads {text : String} (reads : Reads home (Text.trim text.toList) t []) :
    parse home text = .ok t := by
  obtain ⟨_,read⟩ := reads
  rw [parse,read]
  rfl

theorem Legible.parse (legible : Legible t) (home : Option String) : parse home t.key = .ok t := by
  apply parse_of_reads
  rw [legible.solid.trim]
  simpa using legible.reads home (.inl rfl : Ends [])

end Keys

/-- What a head of a text that was written in the package announces. -/
inductive Announces (home : Option String) : Head → Prop
  | name {token : List Char} {t : TypeExpr} (word : Word token) (names : Names home token t) :
      Announces home (.leaf t)
  | struct : Announces home (.leaf .struct)
  | interface : Announces home (.leaf .interface)
  | wraps {head : Head} {wrap : TypeExpr → TypeExpr} (wraps : Wraps head wrap)
      (fits : ∀ n, head = .array n → n < lengthBound) : Announces home head
  | map : Announces home .map

theorem Announces.below {home : Option String} {n : Nat} (announces : Announces home (.array n)) :
    n < lengthBound := by
  cases announces with
  | wraps _ fits => exact fits n rfl

section Texts
variable {home : Option String} {s rest token : List Char} {head : Head} {t : TypeExpr}

theorem readLength?_below {n : Nat} (read : readLength? s = some n) : n < lengthBound := by
  simp only [readLength?,Option.ite_none_left_eq_some] at read
  obtain ⟨_,read⟩ := read
  generalize digits? _ 0 = value at read
  cases value with
  | none => cases read
  | some m =>
    obtain ⟨below,⟨⟩⟩ := Option.ite_none_right_eq_some.mp read
    exact below

theorem announces_of_arrayHead (ok : arrayHead s = .ok (head,rest)) : Announces home head := by
  simp only [arrayHead] at ok
  split at ok
  · cases ok
  · split at ok
    next n read =>
      cases ok
      refine .wraps (.array n) ?_
      rintro _ ⟨⟩
      exact readLength?_below read
    next => cases ok

theorem announces_of_nameHead (bare : ∀ opener ∈ openers, ¬ opener <+: s)
    (ok : nameHead home s = .ok (head,rest)) : Announces home head := by
  unfold nameHead at ok
  have start : (s.takeWhile fun c => !endsName c) <+: s := List.takeWhile_prefix _
  have unbroken : ∀ c ∈ s.takeWhile fun c => !endsName c, endsName c = false := fun c member => by
    simpa using List.mem_takeWhile_imp member
  split at ok
  next => cases ok
  next nonempty =>
    split at ok
    next t stands =>
      cases ok
      exact .name ⟨nonempty,unbroken,fun opener member more => bare opener member (more.trans start)⟩
        (names_of_ofName stands)
    next => cases ok

theorem announces_of_readHead (ok : readHead home s = .ok (head,rest)) : Announces home head := by
  unfold readHead at ok
  split at ok
  next => cases ok; exact .wraps .pointer (by rintro _ ⟨⟩)
  next pointer =>
  split at ok
  next => cases ok; exact .wraps .slice (by rintro _ ⟨⟩)
  next =>
  split at ok
  next => exact announces_of_arrayHead ok
  next array =>
  split at ok
  next => cases ok; exact .map
  next map =>
  split at ok
  next => cases ok; exact .wraps (.chan .recv) (by rintro _ ⟨⟩)
  next recv =>
  split at ok
  next => cases ok; exact .wraps (.chan .send) (by rintro _ ⟨⟩)
  next send =>
  split at ok
  next => cases ok; exact .wraps (.chan .both) (by rintro _ ⟨⟩)
  next =>
  split at ok
  next => cases ok; exact .wraps (.chan .both) (by rintro _ ⟨⟩)
  next =>
  split at ok
  next => cases ok; exact .struct
  next =>
  split at ok
  next => cases ok; exact .interface
  next =>
  split at ok
  next => cases ok
  next literal =>
    refine announces_of_nameHead ?_ ok
    rw [Bool.or_eq_true,not_or,Text.strip?_isSome_iff,Text.strip?_isSome_iff] at literal
    simp only [openers,List.forall_mem_cons]
    exact ⟨not_prefix_of_eat? pointer,not_prefix_of_eat? array,not_prefix_of_eat? map,not_prefix_of_eat? recv,
      not_prefix_of_eat? send,literal.1,literal.2,by simp⟩

theorem Legible.named {n : NamedType} (legible : Legible (.named n)) :
    Word n.key.toList ∧ Names none n.key.toList (.named n) := by
  generalize same : TypeExpr.named n = t at legible
  cases legible with
  | name word names =>
    subst same
    exact ⟨word,names⟩
  | struct | interface | map => cases same
  | wrap wraps => cases wraps <;> cases same

/-- Where one type of a package can be named, any other one can. -/
theorem Legible.sibling {path : String} (legible : Legible (.named ⟨path,"T"⟩)) (word : Word token)
    (simple : '.' ∉ token) : Legible (.named ⟨path,String.ofList token⟩) := by
  obtain ⟨word',names⟩ := legible.named
  have first : (NamedType.key ⟨path,"T"⟩).toList = path.toList ++ '.' :: ['T'] := by simp [NamedType.key]
  have key : (TypeExpr.named ⟨path,String.ofList token⟩).key.toList = path.toList ++ '.' :: token := by
    simp [TypeExpr.key,NamedType.key]
  rw [first] at word' names
  refine .name ?_ ?_ <;> rw [key]
  · refine ⟨by simp,?_,?_⟩
    · intro c member
      rcases List.mem_append.mp member with before | member
      · exact word'.unbroken c (List.mem_append_left _ before)
      · rcases List.mem_cons.mp member with rfl | member
        · decide
        · exact word.unbroken c member
    · have dotless : ∀ opener ∈ openers, '.' ∉ opener := by decide
      intro opener member start
      exact word'.bare opener member ((prefix_of_stop (dotless opener member) start).trans (List.prefix_append _ _))
  · have written : path.toList ≠ [] := by
      intro empty
      have unnamed := names.ofName
      rw [empty] at unnamed
      cases unnamed
    have qualified : Names none (path.toList ++ '.' :: token)
        (.named ⟨String.ofList path.toList,String.ofList token⟩) := .qualified rfl simple written word.nonempty
    rwa [String.ofList_toList] at qualified

theorem legible_of_names (known : ∀ path, home = some path → Legible (.named ⟨path,"T"⟩)) (word : Word token)
    (names : Names home token t) : Legible t := by
  cases names with
  | @qualified path name whole last package type =>
    have key : (TypeExpr.named ⟨String.ofList path,String.ofList name⟩).key.toList = token := by
      simp [TypeExpr.key,NamedType.key,whole]
    refine .name ?_ ?_ <;> rw [key]
    · exact word
    · exact .qualified whole last package type
  | error same =>
    subst same
    exact .name word (.error rfl)
  | any => exact .interface
  | unqualified simple _ here => exact (known _ here).sibling word simple
  | basic simple notError notAny lower =>
    have key : (TypeExpr.basic (String.ofList token)).key.toList = token := String.toList_ofList
    refine .name ?_ ?_ <;> rw [key]
    · exact word
    · exact .basic simple notError notAny lower

/-- Whatever is read has a key that can be read. -/
theorem legible_of_readFront (known : ∀ path, home = some path → Legible (.named ⟨path,"T"⟩))
    {front : Front s} (ok : readFront home s = .ok front) : Legible front.1 := by
  have wrapped {head : Head} {wrap : TypeExpr → TypeExpr} {s after : List Char} {front : Front s}
      {shorter : after.length < s.length} (read : readHead home s = .ok (head,after)) (wraps : Wraps head wrap)
      (ih : ∀ {inner : Front after}, readFront home after = .ok inner → Legible inner.1)
      (ok : readFront.below shorter wrap (readFront home after) = .ok front) : Legible front.1 := by
    obtain ⟨t,rest,inner,same⟩ := below_eq_ok ok
    rw [same]
    refine .wrap wraps ?_ (ih inner)
    rintro n rfl
    exact (announces_of_readHead read).below
  fun_induction readFront home s with
  | case1 | case7 | case8 => cases ok
  | case2 s t rest read =>
    cases ok
    cases announces_of_readHead read with
    | name word names => exact legible_of_names known word names
    | struct => exact .struct
    | interface => exact .interface
    | wraps wraps => cases wraps
  | case3 s after read ih => exact wrapped read .pointer ih ok
  | case4 s after read ih => exact wrapped read .slice ih ok
  | case5 s n after read ih => exact wrapped read (.array n) ih ok
  | case6 s d after read ih => exact wrapped read (.chan d) ih ok
  | case9 s after read k afterKey shorter key afterBracket bracket _ ihk ihv =>
    obtain ⟨v,rest,value,same⟩ := below_eq_ok ok
    rw [same]
    exact .map (ihk key) (ihv value)

theorem legible_of_parse {text : String} (known : ∀ path, home = some path → Legible (.named ⟨path,"T"⟩))
    (ok : parse home text = .ok t) : Legible t := by
  unfold parse at ok
  split at ok
  next => cases ok
  next read =>
    have legible := legible_of_readFront known read
    split at ok
    next =>
      cases ok
      exact legible
    next => cases ok

theorem Legible.key_injective {t t' : TypeExpr} (legible : Legible t) (legible' : Legible t')
    (same : t.key = t'.key) : t = t' := by
  have read := legible.parse none
  rw [same,legible'.parse none] at read
  exact (Except.ok.inj read).symm

/-- Texts are written in no package, or in one whose path can stand before the names of its types. -/
def IsHome (home : Option String) : Prop :=
  ∀ path, home = some path → parse none (path ++ ".T") = .ok (.named ⟨path,"T"⟩)

theorem IsHome.known (isHome : IsHome home) (path : String) (here : home = some path) :
    Legible (.named ⟨path,"T"⟩) :=
  legible_of_parse (fun _ nowhere => by cases nowhere) (isHome path here)

/-- What was read in any package is read again from its key, in whichever package; and no other type that was read
has this key. -/
theorem reads_own_key {text : String} (isHome : IsHome home) (ok : parse home text = .ok t) :
    (∀ home', parse home' t.key = .ok t) ∧
      ∀ home' text' t', IsHome home' → parse home' text' = .ok t' → t.key = t'.key → t = t' := by
  have legible := legible_of_parse isHome.known ok
  refine ⟨legible.parse,?_⟩
  intro home' text' t' isHome' ok' same
  exact legible.key_injective (legible_of_parse isHome'.known ok') same

end Texts

namespace Port

def text : String := " map[[+007]chan<-T]<-chan  foo[3"

def type : TypeExpr := .map (.array 7 (.chan .send (.named ⟨"a/b","T"⟩))) (.chan .recv (.basic "foo[3"))

theorem type_key : type.key = "map[[7]chan<- a/b.T]<-chan foo[3" := by decide +kernel

theorem isHome : IsHome (some "a/b") := by
  rintro _ ⟨⟩
  decide +kernel

theorem parse_text : parse (some "a/b") text = .ok type := by decide +kernel

/-- A map whose keys are arrays of channels, written with blanks, a sign and zeros that its key does not have. -/
theorem type_read_again :
    IsHome (some "a/b") ∧ parse (some "a/b") text = .ok type ∧
      parse none "map[[7]chan<- a/b.T]<-chan foo[3" = .ok type := by
  refine ⟨isHome,parse_text,?_⟩
  rw [← type_key]
  exact (reads_own_key isHome parse_text).1 none

end Port
end TypeExpr
end ProxyGen
