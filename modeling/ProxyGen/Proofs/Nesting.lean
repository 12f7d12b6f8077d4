import ProxyGen.Code.Printer
import ProxyGen.Text.Alphabetic

/-! The text of an expression tells how it is nested. One pass over the characters, with a stack of what is not
complete, reads an expression of names, selectors, calls, indices, `&` and `*` back from its text; so two of them with
one text are the same. Binary expressions are left out: as operands of each other they stand without parentheses. -/
namespace ProxyGen.Code

def isNameChar (c : Char) : Bool := c == '_' || Text.isAlphanumeric c

/-- Letters, digits and underscores, at least one of them. -/
structure IsName (name : String) : Prop where
  nonempty : name ≠ ""
  chars : ∀ c ∈ name.toList, isNameChar c = true

instance (name : String) : Decidable (IsName name) :=
  decidable_of_iff (name ≠ "" ∧ name.toList.all isNameChar = true)
    ⟨fun ⟨nonempty,all⟩ => ⟨nonempty,List.all_eq_true.mp all⟩,
      fun written => ⟨written.nonempty,List.all_eq_true.mpr written.chars⟩⟩

namespace Expr

/-- Expressions that are built from names by selectors, calls, indices, `&` and `*`. -/
inductive Plain : Expr → Prop
  | ident {name : String} (written : IsName name) : Plain (.ident name)
  | selector {e : Expr} {field : String} (base : Plain e) (written : IsName field) : Plain (.selector e field)
  | call {f : Expr} {args : List Expr} (spread : Bool) (callee : Plain f) (each : ∀ a ∈ args, Plain a) :
      Plain (.call f args spread)
  | addrOf {e : Expr} (operand : Plain e) : Plain (.addrOf e)
  | deref {e : Expr} (operand : Plain e) : Plain (.deref e)
  | index {e i : Expr} (base : Plain e) (position : Plain i) : Plain (.index e i)

/-- Binary operators may be nested in different ways in one text, and a name without characters is not seen. -/
example (q : Qualifier) : (binary "-" (binary "-" (ident "a") (ident "b")) (ident "c")).text q 0 =
      (binary "-" (ident "a") (binary "-" (ident "b") (ident "c"))).text q 0 ∧
    (call (ident "f") [ident ""] false).text q 0 = (call (ident "f") [] false).text q 0 := by
  cbv

theorem Plain.notBinary {e : Expr} (plain : e.Plain) : e.isBinary = false := by
  cases plain <;> rfl

theorem texts_eq_map (q : Qualifier) (depth : Nat) (es : List Expr) : texts q depth es = es.map (text q depth) := by
  induction es with
  | nil => rfl
  | cons e rest ih => rw [texts,ih,List.map_cons]

/-- No type and no line break is written in a plain expression. -/
theorem Plain.text_eq {e : Expr} (plain : e.Plain) (q q' : Qualifier) (depth depth' : Nat) :
    e.text q depth = e.text q' depth' := by
  induction plain with
  | ident => simp only [text]
  | selector _ _ ih | addrOf _ ih | deref _ ih => simp only [text,ih]
  | call spread _ _ ih each => simp only [text,ih,texts_eq_map,List.map_congr_left each]
  | index _ _ ih inner => simp only [text,ih,inner]

end Expr

/-- What has begun in front of the operand that is being read. -/
inductive Frame
  | addrOf
  | deref
  | group
  | call (func : Expr) (args : List Expr)
  /-- A call with dots behind its arguments. -/
  | spread (func : Expr) (args : List Expr)
  | index (base : Expr)

inductive Focus
  | awaited
  | operand (e : Expr)
  /-- A dot stands behind the operand. -/
  | dotted (e : Expr)

structure Reading where
  opened : List Frame
  focus : Focus

/-- An operand with the unary operators in front of it, and what these stand in. -/
def settle : List Frame → Expr → List Frame × Expr
  | .addrOf :: opened, e => settle opened (.addrOf e)
  | .deref :: opened, e => settle opened (.deref e)
  | opened, e => (opened,e)

namespace Reading

def start (opened : List Frame) (c : Char) : Option Reading :=
  if isNameChar c then some ⟨opened,.operand (.ident (String.singleton c))⟩
  else match c, opened with
    | '&', _ => some ⟨.addrOf :: opened,.awaited⟩
    | '*', _ => some ⟨.deref :: opened,.awaited⟩
    | '(', _ => some ⟨.group :: opened,.awaited⟩
    | ' ', _ => some ⟨opened,.awaited⟩
    | ')', .call f [] :: rest => some ⟨rest,.operand (.call f [] false)⟩
    | ')', .spread f args :: rest => some ⟨rest,.operand (.call f args true)⟩
    | '.', .call f [] :: rest => some ⟨.spread f [] :: rest,.awaited⟩
    | '.', .spread _ _ :: _ => some ⟨opened,.awaited⟩
    | _, _ => none

/-- A mark that ends an expression inside of what it stands in. -/
def conclude : List Frame × Expr → Char → Option Reading
  | (.group :: opened,e), ')' => some ⟨opened,.operand e⟩
  | (.call f args :: opened,e), ')' => some ⟨opened,.operand (.call f (args ++ [e]) false)⟩
  | (.call f args :: opened,e), ',' => some ⟨.call f (args ++ [e]) :: opened,.awaited⟩
  | (.call f args :: opened,e), '.' => some ⟨.spread f (args ++ [e]) :: opened,.awaited⟩
  | (.index b :: opened,e), ']' => some ⟨opened,.operand (.index b e)⟩
  | _, _ => none

/-- The name at the end of an operand goes on. -/
def grow (c : Char) : Expr → Option Expr
  | .ident name => some (.ident (name.push c))
  | .selector e field => some (.selector e (field.push c))
  | _ => none

def proceed (opened : List Frame) (e : Expr) (c : Char) : Option Reading :=
  if isNameChar c then (grow c e).map (⟨opened,.operand ·⟩)
  else match c with
    | '.' => some ⟨opened,.dotted e⟩
    | '(' => some ⟨.call e [] :: opened,.awaited⟩
    | '[' => some ⟨.index e :: opened,.awaited⟩
    | _ => conclude (settle opened e) c

def behindDot (opened : List Frame) (e : Expr) (c : Char) : Option Reading :=
  if isNameChar c then some ⟨opened,.operand (.selector e (String.singleton c))⟩
  else conclude (settle opened e) c

def step : Reading → Char → Option Reading
  | ⟨opened,.awaited⟩, c => start opened c
  | ⟨opened,.operand e⟩, c => proceed opened e c
  | ⟨opened,.dotted e⟩, c => behindDot opened e c

end Reading

/-- The expression that a text was printed for. Other texts are not all refused. -/
def Expr.read? (text : String) : Option Expr :=
  match text.toList.foldlM Reading.step ⟨[],.awaited⟩ with
  | some ⟨opened,.operand e⟩ =>
    match settle opened e with
    | ([],e) => some e
    | _ => none
  | _ => none

namespace Reading

/-- The text leads from one reading to the other. -/
def Reads (r : Reading) (text : String) (r' : Reading) : Prop := text.toList.foldlM step r = some r'

/-- Where an expression has been read. Its unary operators are still open, as their operand might go on. -/
def behind (opened : List Frame) : Expr → Reading
  | .addrOf e => behind (.addrOf :: opened) e
  | .deref e => behind (.deref :: opened) e
  | e => ⟨opened,.operand e⟩

variable {r r' r'' : Reading} {opened : List Frame} {e f : Expr} {q : Qualifier} {depth : Nat}

theorem Reads.append {a b : String} (first : Reads r a r') (second : Reads r' b r'') : Reads r (a ++ b) r'' := by
  rw [Reads,String.toList_append,List.foldlM_append,first]
  exact second

theorem reads_mark {mark : String} {c : Char} (written : mark.toList = [c]) (taken : step r c = some r') :
    Reads r mark r' := by
  rw [Reads,written,List.foldlM_cons,taken]
  rfl

section Letters
variable {c : Char} (letter : isNameChar c = true)
include letter

theorem step_awaited : step ⟨opened,.awaited⟩ c = some ⟨opened,.operand (.ident (String.singleton c))⟩ :=
  if_pos letter

theorem step_dotted : step ⟨opened,.dotted e⟩ c = some ⟨opened,.operand (.selector e (String.singleton c))⟩ :=
  if_pos letter

theorem step_operand : step ⟨opened,.operand e⟩ c = (grow c e).map (⟨opened,.operand ·⟩) := if_pos letter

end Letters

theorem reads_letters (wrap : String → Expr) (grows : ∀ name c, grow c (wrap name) = some (wrap (name.push c)))
    {letters : List Char} (chars : ∀ c ∈ letters, isNameChar c = true) (name : String) :
    letters.foldlM step ⟨opened,.operand (wrap name)⟩ =
      some ⟨opened,.operand (wrap (name ++ String.ofList letters))⟩ := by
  induction letters generalizing name with
  | nil => simp
  | cons c letters ih =>
    obtain ⟨letter,others⟩ := List.forall_mem_cons.mp chars
    have grown : step ⟨opened,.operand (wrap name)⟩ c = some ⟨opened,.operand (wrap (name.push c))⟩ := by
      rw [step_operand letter,grows]
      rfl
    have longer : name.push c ++ String.ofList letters = name ++ String.ofList (c :: letters) :=
      String.toList_injective (by simp)
    rw [List.foldlM_cons,grown,← longer]
    exact ih others (name.push c)

/-- A name is read as a whole where its first character can stand. -/
theorem reads_name (wrap : String → Expr) (grows : ∀ name c, grow c (wrap name) = some (wrap (name.push c)))
    (begins : ∀ c, isNameChar c = true → step r c = some ⟨opened,.operand (wrap (String.singleton c))⟩)
    {name : String} (written : IsName name) : Reads r name ⟨opened,.operand (wrap name)⟩ := by
  obtain ⟨c,letters,split⟩ := List.exists_cons_of_ne_nil (mt String.toList_eq_nil_iff.mp written.nonempty)
  obtain ⟨letter,others⟩ := List.forall_mem_cons.mp (split ▸ written.chars)
  have whole : String.singleton c ++ String.ofList letters = name := String.toList_injective (by simp [split])
  rw [Reads,split,List.foldlM_cons,begins c letter,← whole]
  exact reads_letters wrap grows others (String.singleton c)

theorem behind_of_not_isUnary (bare : e.isUnary = false) (opened : List Frame) :
    behind opened e = ⟨opened,.operand e⟩ := by
  cases e <;> first | rfl | cases bare

theorem behind_eq (opened : List Frame) : ∀ e : Expr, ∃ opened' e',
    behind opened e = ⟨opened',.operand e'⟩ ∧ settle opened' e' = settle opened e
  | .addrOf e => behind_eq (.addrOf :: opened) e
  | .deref e => behind_eq (.deref :: opened) e
  | .ident _ | .nil | .selector _ _ | .call _ _ _ | .composite _ _ | .binary _ _ _ | .index _ _ | .typeAssert _ _
  | .make _ _ => ⟨_,_,rfl,rfl⟩

/-- A closing bracket or a comma behind an expression ends it, with all of its unary operators. -/
theorem step_behind {c : Char} (mark : c = ')' ∨ c = ',' ∨ c = ']') :
    step (behind opened e) c = conclude (settle opened e) c := by
  obtain ⟨opened',e',reached,settled⟩ := behind_eq opened e
  rw [reached,← settled]
  rcases mark with rfl | rfl | rfl <;> rfl

theorem reads_dots {before : List Expr} : Reads (behind (.call f before :: opened) e) "..."
    ⟨.spread f (before ++ [e]) :: opened,.awaited⟩ := by
  obtain ⟨opened',e',reached,settled⟩ := behind_eq (.call f before :: opened) e
  -- The first dot might lead to a field, so the argument ends at the second one.
  have dotted : Reads ⟨opened',.operand e'⟩ "." ⟨opened',.dotted e'⟩ := rfl
  have ended : Reads ⟨opened',.dotted e'⟩ "." ⟨.spread f (before ++ [e]) :: opened,.awaited⟩ := by
    have concluded : step ⟨opened',.dotted e'⟩ '.' = conclude (settle opened' e') '.' := rfl
    rw [settled] at concluded
    exact reads_mark rfl concluded
  have more : Reads ⟨.spread f (before ++ [e]) :: opened,.awaited⟩ "."
    ⟨.spread f (before ++ [e]) :: opened,.awaited⟩ := rfl
  rw [reached]
  exact (dotted.append ended).append more

/-- The text is read as the expression that it was printed for. -/
def Readable (q : Qualifier) (depth : Nat) (e : Expr) : Prop :=
  ∀ opened, Reads ⟨opened,.awaited⟩ (e.text q depth) (behind opened e)

/-- What is selected from, called or indexed is complete as soon as it has been read. -/
theorem Readable.base (readable : Readable q depth e) (notBinary : e.isBinary = false) (opened : List Frame) :
    Reads ⟨opened,.awaited⟩ (Expr.parenthesize (e.isBinary || e.isUnary) (e.text q depth)) ⟨opened,.operand e⟩ := by
  rw [notBinary,Bool.false_or]
  cases unary : e.isUnary with
  | false =>
    rw [← behind_of_not_isUnary unary opened]
    exact readable opened
  | true =>
    have begun : Reads ⟨opened,.awaited⟩ "(" ⟨.group :: opened,.awaited⟩ := rfl
    have closed : Reads (behind (.group :: opened) e) ")" ⟨opened,.operand e⟩ :=
      reads_mark rfl (step_behind (.inl rfl))
    exact (begun.append (readable _)).append closed

theorem reads_comma (before : List Expr) : Reads (behind (.call f before :: opened) e) ", "
    ⟨.call f (before ++ [e]) :: opened,.awaited⟩ := by
  have comma : Reads (behind (.call f before :: opened) e) "," ⟨.call f (before ++ [e]) :: opened,.awaited⟩ :=
    reads_mark rfl (step_behind (.inr (.inl rfl)))
  have space : Reads ⟨.call f (before ++ [e]) :: opened,.awaited⟩ " "
    ⟨.call f (before ++ [e]) :: opened,.awaited⟩ := rfl
  exact comma.append space

/-- What stands behind the arguments of a call. -/
def ending (spread : Bool) : String := (if spread then "..." else "") ++ ")"

theorem reads_ending (spread : Bool) (before : List Expr) : Reads (behind (.call f before :: opened) e) (ending spread)
    ⟨opened,.operand (.call f (before ++ [e]) spread)⟩ := by
  cases spread with
  | false => exact reads_mark rfl (step_behind (.inl rfl))
  | true =>
    have closed : Reads ⟨.spread f (before ++ [e]) :: opened,.awaited⟩ ")"
      ⟨opened,.operand (.call f (before ++ [e]) true)⟩ := rfl
    exact reads_dots.append closed

theorem reads_arguments {args : List Expr} (readable : ∀ a ∈ args, Readable q depth a) (nonempty : args ≠ [])
    (spread : Bool) (before : List Expr) : Reads ⟨.call f before :: opened,.awaited⟩
      (commaSeparated (Expr.texts q depth args) ++ ending spread)
      ⟨opened,.operand (.call f (before ++ args) spread)⟩ := by
  induction args generalizing before with
  | nil => cases nonempty rfl
  | cons a rest ih =>
    obtain ⟨first,others⟩ := List.forall_mem_cons.mp readable
    cases rest with
    | nil => exact (first _).append (reads_ending spread before)
    | cons b rest =>
      have further := ih others (List.cons_ne_nil b rest) (before ++ [a])
      rw [List.append_assoc] at further
      have separated : commaSeparated (Expr.texts q depth (a :: b :: rest)) =
          a.text q depth ++ ", " ++ commaSeparated (Expr.texts q depth (b :: rest)) :=
        String.intercalate_cons_of_ne_nil (List.cons_ne_nil _ _)
      rw [separated,String.append_assoc]
      exact ((first _).append (reads_comma before)).append further

/-- The arguments of a call are read up to the bracket that closes it. -/
theorem reads_call {args : List Expr} (readable : ∀ a ∈ args, Readable q depth a) (spread : Bool) :
    Reads ⟨.call f [] :: opened,.awaited⟩ (commaSeparated (Expr.texts q depth args) ++ ending spread)
      ⟨opened,.operand (.call f args spread)⟩ := by
  cases args with
  | nil =>
    have closed : Reads ⟨.call f [] :: opened,.awaited⟩ ")" ⟨opened,.operand (.call f [] false)⟩ := rfl
    have spreads : Reads ⟨.call f [] :: opened,.awaited⟩ "...)" ⟨opened,.operand (.call f [] true)⟩ := rfl
    cases spread with
    | false => exact closed
    | true => exact spreads
  | cons a rest => exact reads_arguments readable (List.cons_ne_nil a rest) spread []

/-- The stack is arbitrary, as operands and arguments are read inside of what is opened in front of them. -/
theorem readable_of_plain (plain : e.Plain) : Readable q depth e := by
  induction plain with
  | ident written =>
    intro opened
    exact reads_name .ident (fun _ _ => rfl) (fun _ => step_awaited) written
  | @selector e field base written ih =>
    intro opened
    have dotted : Reads ⟨opened,.operand e⟩ "." ⟨opened,.dotted e⟩ := rfl
    have named : Reads ⟨opened,.dotted e⟩ field ⟨opened,.operand (.selector e field)⟩ :=
      reads_name (.selector e) (fun _ _ => rfl) (fun _ => step_dotted) written
    exact ((ih.base base.notBinary opened).append dotted).append named
  | @call f args spread callee each ih all =>
    intro opened
    have begun : Reads ⟨opened,.operand f⟩ "(" ⟨.call f [] :: opened,.awaited⟩ := rfl
    have whole := ((ih.base callee.notBinary opened).append begun).append (reads_call all spread)
    rw [ending,← String.append_assoc,← String.append_assoc] at whole
    exact whole
  | addrOf operand ih | deref operand ih =>
    intro opened
    -- The operator is put on the stack and stays there, as its operand is read like any other expression.
    rw [Expr.text,operand.notBinary]
    exact Reads.append rfl (ih _)
  | @index e i base position ih inner =>
    intro opened
    have begun : Reads ⟨opened,.operand e⟩ "[" ⟨.index e :: opened,.awaited⟩ := rfl
    have ended : Reads (behind (.index e :: opened) i) "]" ⟨opened,.operand (.index e i)⟩ :=
      reads_mark rfl (step_behind (.inr (.inr rfl)))
    exact (((ih.base base.notBinary opened).append begun).append (inner _)).append ended

end Reading

namespace Expr
open Reading

theorem Plain.read?_text {e : Expr} (plain : e.Plain) (q : Qualifier) (depth : Nat) :
    read? (e.text q depth) = some e := by
  have read : (e.text q depth).toList.foldlM step ⟨[],.awaited⟩ = some (behind [] e) := readable_of_plain plain []
  obtain ⟨opened,e',reached,settled⟩ := behind_eq [] e
  have complete : settle [] e = ([],e) := rfl
  rw [read?,read,reached]
  simp only [settled,complete]

/-- Plain expressions are the same if and only if their texts are, wherever these are written. -/
theorem text_inj {e e' : Expr} (plain : e.Plain) (plain' : e'.Plain) (q q' : Qualifier) (depth depth' : Nat) :
    e.text q depth = e'.text q' depth' ↔ e = e' := by
  constructor
  · intro same
    have read := plain.read?_text q depth
    rw [same,plain'.read?_text q' depth'] at read
    exact (Option.some.inj read).symm
  · rintro rfl
    exact plain.text_eq q q' depth depth'

namespace Calls

def arguments : List Expr := [.addrOf (.index (.ident "xs") (.ident "0")),.deref (.deref (.ident "inner"))]

/-- A method of what is pointed to. -/
def method : Expr := .call (.selector (.deref (.ident "p")) "Do") arguments true

/-- What the result of a method points to. -/
def result : Expr := .deref (.call (.selector (.ident "p") "Do") arguments true)

theorem plain_arguments : ∀ a ∈ arguments, a.Plain :=
  List.forall_mem_cons.mpr ⟨.addrOf (.index (.ident (by decide)) (.ident (by decide))),
    List.forall_mem_singleton.mpr (.deref (.deref (.ident (by decide))))⟩

theorem plain_method : method.Plain :=
  .call true (.selector (.deref (.ident (by decide))) (by decide)) plain_arguments

theorem plain_result : result.Plain :=
  .deref (.call true (.selector (.ident (by decide)) (by decide)) plain_arguments)

end Calls

/-- The two calls differ in their texts by a pair of parentheses. -/
theorem calls_apart : Calls.method.Plain ∧ Calls.result.Plain ∧
    (Calls.method.text (fun _ package => package) 0 = Calls.result.text (fun _ package => package) 1 ↔
      Calls.method = Calls.result) ∧
    Calls.method.text (fun _ package => package) 0 = "(*p).Do(&xs[0], **inner...)" ∧
    Calls.result.text (fun _ package => package) 1 = "*p.Do(&xs[0], **inner...)" :=
  ⟨Calls.plain_method,Calls.plain_result,text_inj Calls.plain_method Calls.plain_result _ _ 0 1,by cbv,by cbv⟩

end Expr
end ProxyGen.Code
