import Mathlib.Data.List.Perm.Basic
import ProxyGen.Proofs.Agreement
import ProxyGen.Proofs.MethodNames

/-!
Universes in another order. Packages, types and methods are looked up by their names, which are distinct, and
whatever is gathered from several declarations is put in the order of names in the end; so the order in which
they stand is never seen.
-/
namespace ProxyGen

/-- The elements of one list stand for those of the other, in some order. -/
def Rearranged {α β : Type} (R : α → β → Prop) : List α → List β → Prop :=
  Relation.Comp (List.Forall₂ R) List.Perm

section Lists
variable {α β : Type} {R : α → β → Prop} {l : List α} {l' : List β}

theorem Rearranged.symm {R' : β → α → Prop} (related : Rearranged R l l') (flip : ∀ a b, R a b → R' b a) :
    Rearranged R' l' l := by
  obtain ⟨mid,each,perm⟩ := related
  exact List.perm_comp_forall₂ perm.symm (each.flip.imp fun b a => flip a b)

theorem Rearranged.map {γ : Type} {f : α → γ} {g : β → γ} (related : Rearranged R l l')
    (same : ∀ a b, R a b → f a = g b) : (l.map f).Perm (l'.map g) := by
  obtain ⟨mid,each,perm⟩ := related
  have equal : l.map f = mid.map g := by
    rw [← List.forall₂_eq_eq_eq,List.forall₂_map_left_iff,List.forall₂_map_right_iff]
    exact each.imp same
  rw [equal]
  exact perm.map g

theorem find?_perm {key : α → String} {l l' : List α} (perm : l.Perm l') (distinct : (l.map key).Nodup)
    (k : String) : l.find? (key · == k) = l'.find? (key · == k) := by
  induction perm with
  | nil => rfl
  | cons x _ ih => rw [List.find?_cons,List.find?_cons,ih distinct.of_cons]
  | swap x y l =>
    have apart : key y ≠ key x := by
      have different := (List.nodup_cons.mp distinct).1
      simp only [List.map_cons,List.mem_cons,not_or] at different
      exact different.1
    simp only [List.find?_cons]
    cases first : key x == k with
    | false => rfl
    | true =>
      have second : (key y == k) = false := beq_false_of_ne fun equal => apart (equal.trans (beq_iff_eq.mp first).symm)
      rw [second]
  | trans first _ ih ih' => exact (ih distinct).trans (ih' ((first.map key).nodup_iff.mp distinct))

theorem find?_forall₂ {key : α → String} {key' : β → String} (each : List.Forall₂ R l l')
    (same : ∀ a b, R a b → key a = key' b) (k : String) :
    Option.Rel R (l.find? (key · == k)) (l'.find? (key' · == k)) := by
  induction each with
  | nil => exact .none
  | @cons a b _ _ first _ ih =>
    rw [List.find?_cons,List.find?_cons,same a b first]
    cases key' b == k with
    | true => exact .some first
    | false => exact ih

theorem Rearranged.find? {key : α → String} {key' : β → String} (related : Rearranged R l l')
    (same : ∀ a b, R a b → key a = key' b) (distinct : (l.map key).Nodup) (k : String) :
    Option.Rel R (l.find? (key · == k)) (l'.find? (key' · == k)) := by
  have distinct' : (l'.map key').Nodup := (related.map same).nodup_iff.mp distinct
  obtain ⟨mid,each,perm⟩ := related
  rw [← find?_perm perm ((perm.map key').nodup_iff.mpr distinct')]
  exact find?_forall₂ each same k

end Lists

/-- The same fault, or values that stand for each other. -/
inductive Corresponds {α β : Type} (R : α → β → Prop) : Except Error α → Except Error β → Prop
  | error (e : Error) : Corresponds R (.error e) (.error e)
  | ok {a : α} {b : β} (related : R a b) : Corresponds R (.ok a) (.ok b)

namespace Corresponds
variable {α β : Type} {R : α → β → Prop} {x : Except Error α} {y : Except Error β}

theorem of_error (same : Corresponds R x y) {e : Error} (failed : x = .error e) : y = .error e := by
  subst failed
  cases same
  rfl

theorem of_ok (same : Corresponds R x y) {a : α} (ok : x = .ok a) : ∃ b, y = .ok b ∧ R a b := by
  subst ok
  cases same with
  | ok related => exact ⟨_,rfl,related⟩

end Corresponds

structure TypeDecl.Reorders (d d' : TypeDecl) : Prop where
  name : d.name = d'.name
  kind : d.kind = d'.kind
  underlying : d.underlying = d'.underlying
  embeds : d.embeds = d'.embeds
  methods : d.methods.Perm d'.methods
  distinct : (d.methods.map MethodDecl.name).Nodup

structure Package.Reorders (p p' : Package) : Prop where
  path : p.path = p'.path
  name : p.name = p'.name
  types : Rearranged TypeDecl.Reorders p.types p'.types
  distinct : (p.types.map TypeDecl.name).Nodup

/-- The packages of a universe, their types and the methods of these stand in another order; all of them have
names of their own. -/
structure Universe.Reorders (u u' : Universe) : Prop where
  packages : Rearranged Package.Reorders u.packages u'.packages
  distinct : (u.packages.map Package.path).Nodup

namespace Universe.Reorders
variable {u u' : Universe} (reorders : u.Reorders u')
include reorders

theorem package? (path : String) : Option.Rel Package.Reorders (u.package? path) (u'.package? path) :=
  reorders.packages.find? (fun _ _ related => related.path) reorders.distinct path

theorem find (n : NamedType) : Corresponds (Option.Rel TypeDecl.Reorders) (u.find n) (u'.find n) := by
  have package := reorders.package? n.path
  unfold Universe.find
  generalize u.package? n.path = found, u'.package? n.path = found' at package
  cases package with
  | none => exact .ok .none
  | @some p p' same =>
    have type : Option.Rel TypeDecl.Reorders (p.type? n.name) (p'.type? n.name) :=
      same.types.find? (fun _ _ related => related.name) same.distinct n.name
    dsimp only
    generalize p.type? n.name = found, p'.type? n.name = found' at type
    cases type with
    | none => exact .error _
    | some related => exact .ok (.some related)

theorem find_outside {n : NamedType} (outside : u.find n = .ok none) : u'.find n = .ok none := by
  obtain ⟨_,outside',⟨⟩⟩ := (reorders.find n).of_ok outside
  exact outside'

theorem find_declared {n : NamedType} {d : TypeDecl} (declared : u.find n = .ok (some d)) :
    ∃ d', u'.find n = .ok (some d') ∧ d.Reorders d' := by
  obtain ⟨_,declared',⟨related⟩⟩ := (reorders.find n).of_ok declared
  exact ⟨_,declared',related⟩

theorem declaration (n : NamedType) : Corresponds TypeDecl.Reorders (u.declaration n) (u'.declaration n) := by
  have found := reorders.find n
  unfold Universe.declaration
  generalize u.find n = found₁, u'.find n = found₂ at found
  rcases found with e | related | none
  · exact .error e
  · exact .ok related
  · exact .error _

theorem lookupType (path name : String) : u.lookupType path name = u'.lookupType path name := by
  have known := reorders.declaration ⟨path,name⟩
  unfold Universe.lookupType
  generalize u.declaration ⟨path,name⟩ = found, u'.declaration ⟨path,name⟩ = found' at known
  cases known <;> rfl

theorem packageName (path : String) : u.packageName path = u'.packageName path := by
  have package := reorders.package? path
  unfold Universe.packageName
  generalize u.package? path = found, u'.package? path = found' at package
  cases package with
  | none => rfl
  | some related => exact related.name

theorem resolvePackage (name : String) : u.resolvePackage name = u'.resolvePackage name := by
  have package := reorders.package? name
  have named (u : Universe) : (u.packages.filter (·.name == name)).map Package.path =
      ((u.packages.map fun p => (p.path,p.name)).filter (·.2 == name)).map Prod.fst := by
    simp [List.filter_map,Function.comp_def]
  have pairs := reorders.packages.map (f := fun p => (p.path,p.name)) (g := fun p => (p.path,p.name))
    fun _ _ related => by rw [related.path,related.name]
  have candidates : ((u.packages.filter (·.name == name)).map Package.path).Perm
      ((u'.packages.filter (·.name == name)).map Package.path) := by
    rw [named,named]
    exact (pairs.filter _).map _
  have distinct : ((u.packages.filter (·.name == name)).map Package.path).Nodup :=
    reorders.distinct.sublist (List.filter_sublist.map _)
  have sorted : Text.sortBy id ((u.packages.filter (·.name == name)).map Package.path) =
      Text.sortBy id ((u'.packages.filter (·.name == name)).map Package.path) :=
    Text.sortBy_congr candidates (by simpa using distinct)
  unfold Universe.resolvePackage
  rw [sorted]
  generalize u.package? name = found, u'.package? name = found' at package
  cases package <;> rfl

theorem underlyingFrom (origin n : NamedType) (seen : List NamedType) :
    u.underlyingFrom origin n seen = u'.underlyingFrom origin n seen := by
  fun_induction Universe.underlyingFrom u origin n seen with
  | case1 n seen repeated =>
    rw [underlyingFrom_eq,if_pos repeated]
  | case2 n seen new e refused =>
    rw [underlyingFrom_eq,if_neg new,(reorders.declaration n).of_error refused]
  | case3 n seen new d declared next named ih =>
    obtain ⟨d',declared',same⟩ := (reorders.declaration n).of_ok declared
    rw [ih,underlyingFrom_eq u' origin n,if_neg new,declared']
    simp only [← same.underlying,named]
  | case4 n seen new d declared unnamed =>
    obtain ⟨d',declared',same⟩ := (reorders.declaration n).of_ok declared
    rw [underlyingFrom_eq,if_neg new,declared']
    simp only [← same.underlying]

end Universe.Reorders

namespace Universe

/-- Of methods with distinct names those are added that have a new one. -/
theorem foldl_addNew {methods : List MethodDecl} (distinct : (methods.map MethodDecl.name).Nodup)
    (found : List Selection) : methods.foldl addNew found =
      found ++ (methods.filter fun m => !found.any (·.name == m.name)).map (·.select false) := by
  induction methods generalizing found with
  | nil => simp
  | cons m rest ih =>
    obtain ⟨absent,others⟩ := List.nodup_cons.mp distinct
    rw [List.foldl_cons,ih others,List.filter_cons]
    cases known : found.any (·.name == m.name) with
    | true => simp [addNew,known]
    | false =>
      have later : rest.filter (fun m' => !(found ++ [m.select false]).any (·.name == m'.name)) =
          rest.filter fun m' => !found.any (·.name == m'.name) := by
        apply List.filter_congr
        intro m' member
        have apart : ((m.select false).name == m'.name) = false := beq_false_of_ne fun equal =>
          absent (List.mem_map.mpr ⟨m',member,equal.symm⟩)
        rw [List.any_append]
        simp [apart]
      rw [addNew,if_neg (by simp [known]),later]
      simp

theorem foldl_addNew_perm {found found' : List Selection} {methods methods' : List MethodDecl}
    (same : found.Perm found') (perm : methods.Perm methods')
    (distinct : (methods.map MethodDecl.name).Nodup) :
    (methods.foldl addNew found).Perm (methods'.foldl addNew found') := by
  have distinct' : (methods'.map MethodDecl.name).Nodup := (perm.map _).nodup_iff.mp distinct
  have known (name : String) : found.any (·.name == name) = found'.any (·.name == name) := by
    rw [Bool.eq_iff_iff,List.any_eq_true,List.any_eq_true]
    simp only [same.mem_iff]
  rw [foldl_addNew distinct,foldl_addNew distinct']
  simp only [known]
  exact same.append ((perm.filter _).map _)

theorem selected_perm {decided decided' : List String} {offered offered' : List Selection}
    (same : decided.Perm decided') (perm : offered.Perm offered') :
    (selected decided offered).Perm (selected decided' offered') := by
  have keeps : (fun m : Selection => !decided.contains m.name && offered.countP (·.name == m.name) == 1) =
      fun m => !decided'.contains m.name && offered'.countP (·.name == m.name) == 1 := by
    funext m
    rw [perm.countP_eq,List.contains_eq_mem,List.contains_eq_mem]
    simp only [same.mem_iff]
  unfold selected
  rw [keeps]
  exact perm.filter _

/-- The levels differ in the order of what they offer. -/
structure Level.Reorders (s s' : Level) : Prop where
  seen : s.seen = s'.seen
  offered : s.offered.Perm s'.offered
  next : s.next = s'.next

namespace Reorders
variable {u u' : Universe} (reorders : u.Reorders u')
include reorders

-- What is embedded stands in one order on both sides, so both searches come upon the same names in step.
theorem flatten {found found' : List Selection} (same : found.Perm found') (seen pending : List NamedType) :
    Corresponds List.Perm (u.flatten found seen pending) (u'.flatten found' seen pending) := by
  fun_induction Universe.flatten u found seen pending generalizing found' with
  | case1 found seen =>
    rw [Universe.flatten]
    exact .ok same
  | case2 found seen n rest known ih =>
    rw [flatten_cons,if_pos known]
    exact ih same
  | case3 found seen n rest new e refused =>
    rw [flatten_cons,if_neg new,(reorders.find n).of_error refused]
    exact .error e
  | case4 found seen n rest new outside ih =>
    rw [flatten_cons,if_neg new,reorders.find_outside outside]
    exact ih same
  | case5 found seen n rest new d declared ih =>
    obtain ⟨d',declared',related⟩ := reorders.find_declared declared
    rw [flatten_cons,if_neg new,declared']
    have names : d.embeddedNames = d'.embeddedNames := congrArg (List.filterMap TypeExpr.asNamed?) related.embeds
    rw [names] at ih ⊢
    exact ih (foldl_addNew_perm same related.methods related.distinct)

theorem interfaceMethods (n : NamedType) : u.interfaceMethods n = u'.interfaceMethods n := by
  have same := reorders.flatten (List.Perm.refl []) [] [n]
  unfold Universe.interfaceMethods
  cases flat : u.flatten [] [] [n] with
  | error e => rw [same.of_error flat]
  | ok methods =>
    obtain ⟨methods',flat',perm⟩ := same.of_ok flat
    have distinct := flatten_nodup flat (by simp [names])
    rw [flat']
    exact congrArg Except.ok (Text.sortBy_congr perm distinct)

theorem offers (n : NamedType) {d d' : TypeDecl} (related : d.Reorders d') (viaReference : Bool) :
    Corresponds List.Perm (u.offers n d viaReference) (u'.offers n d' viaReference) := by
  unfold Universe.offers
  rw [← related.kind,reorders.interfaceMethods]
  split
  · cases u'.interfaceMethods n with
    | error e => exact .error e
    | ok methods => exact .ok (List.Perm.refl _)
  · exact .ok ((related.methods.filter _).map _)

theorem visit (types : List (NamedType × Bool)) {s s' : Level} (same : s.Reorders s') :
    Corresponds Level.Reorders (u.visit types s) (u'.visit types s') := by
  fun_induction Universe.visit u types s generalizing s' with
  | case1 s => exact .ok same
  | case2 n viaReference rest s known ih =>
    rw [same.seen] at known
    rw [Universe.visit,if_pos known]
    exact ih same
  | case3 n viaReference rest s new e refused =>
    rw [same.seen] at new
    rw [Universe.visit,if_neg new,(reorders.find n).of_error refused]
    exact .error e
  | case4 n viaReference rest s new outside ih =>
    rw [same.seen] at new
    rw [Universe.visit,if_neg new,reorders.find_outside outside]
    exact ih ⟨congrArg (n :: ·) same.seen,same.offered,same.next⟩
  | case5 n viaReference rest s new d declared e refused =>
    obtain ⟨d',declared',related⟩ := reorders.find_declared declared
    rw [same.seen] at new
    rw [Universe.visit,if_neg new,declared']
    have failed := (reorders.offers n related viaReference).of_error refused
    simp only [failed]
    exact .error e
  | case6 n viaReference rest s new d declared methods offered ih =>
    obtain ⟨d',declared',related⟩ := reorders.find_declared declared
    rw [same.seen] at new
    rw [Universe.visit,if_neg new,declared']
    obtain ⟨methods',offered',perm⟩ := (reorders.offers n related viaReference).of_ok offered
    simp only [offered']
    refine ih ⟨congrArg (n :: ·) same.seen,same.offered.append perm,?_⟩
    have fields : d.embeddedFields viaReference = d'.embeddedFields viaReference := by
      unfold TypeDecl.embeddedFields
      rw [related.kind,related.embeds]
    rw [same.next,fields]

theorem promote {found found' : List Selection} {decided decided' : List String} (same : found.Perm found')
    (settled : decided.Perm decided') (seen : List NamedType) (level : List (NamedType × Bool)) :
    Corresponds List.Perm (u.promote found decided seen level) (u'.promote found' decided' seen level) := by
  fun_induction Universe.promote u found decided seen level generalizing found' decided' with
  | case1 found decided seen =>
    rw [Universe.promote]
    exact .ok same
  | case2 found decided seen n rest e refused =>
    rw [promote_cons,(reorders.visit _ ⟨rfl,List.Perm.refl [],rfl⟩).of_error refused]
    exact .error e
  | case3 found decided seen n rest s visited ih =>
    obtain ⟨s',visited',related⟩ := (reorders.visit _ ⟨rfl,List.Perm.refl [],rfl⟩).of_ok visited
    rw [promote_cons,visited']
    simp only [← related.seen,← related.next]
    exact ih (same.append (selected_perm settled related.offered)) (settled.append (related.offered.map _))

theorem promotedMethods (n : NamedType) (viaReference : Bool) :
    u.promotedMethods n viaReference = u'.promotedMethods n viaReference := by
  have same := reorders.promote (List.Perm.refl []) (List.Perm.refl []) [] [(n,viaReference)]
  unfold Universe.promotedMethods
  cases promoted : u.promote [] [] [] [(n,viaReference)] with
  | error e => rw [same.of_error promoted]
  | ok methods =>
    obtain ⟨methods',promoted',perm⟩ := same.of_ok promoted
    have distinct := promote_nodup promoted (by simp [names]) (by simp)
    rw [promoted']
    exact congrArg Except.ok (Text.sortBy_congr perm distinct)

theorem namedMethods (n : NamedType) (viaReference : Bool) :
    u.namedMethods n viaReference = u'.namedMethods n viaReference := by
  have found := reorders.find n
  unfold Universe.namedMethods
  rw [reorders.interfaceMethods,reorders.promotedMethods]
  generalize u.find n = found₁, u'.find n = found₂ at found
  rcases found with e | related | none
  · rfl
  · simp only [related.kind]
  · rfl

theorem agrees : u.Agrees u' where
  resolvePackage := reorders.resolvePackage
  lookupType := reorders.lookupType
  packageName := reorders.packageName
  underlying n := reorders.underlyingFrom n n []
  methodSet t := by
    unfold methodSet
    split
    · exact reorders.namedMethods _ false
    · exact reorders.namedMethods _ true
    · rfl

end Reorders
end Universe
end ProxyGen
