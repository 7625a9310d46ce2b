import JsEmitter.Proofs.Subjects
import JsEmitter.Proofs.Variables

/-!
# Written names and imported names

The variables of generated code are names that the program writes, names of definitions, and local
names of imported modules. Only the last ones start with a dollar and a `j`, apart from what the
program writes; and generation refers to a module by them only where it names a class of this module
or uses the bootstrap library.
-/
namespace JsEmitter

open Js (Tree)
open Lowering (Context Scope)

namespace Expr

mutual

/-- The local variables that an expression reads or assigns. -/
def locals : Expr → List String
  | skip | literal _ | this | globalRef _ | loadModule _ | loadJsConstructor _ | selectStatic _ _ =>
    []
  | localVar name => [name]
  | block statements => localsOfAll statements
  | varDef _ value | ret value | raise value | unary _ value => locals value
  | select qualifier _ | jsSelect qualifier _ => locals qualifier
  | assign target value => locals target ++ locals value
  | branch cond thenBranch elseBranch? =>
    locals cond ++ locals thenBranch ++ localsOfOption elseBranch?
  | apply receiver _ args => locals receiver ++ localsOfAll args
  | applySuper _ args | applyStatic _ _ args | applyConstructor _ _ args | new _ _ args =>
    localsOfAll args
  | jsCall function args => locals function ++ localsOfAll args
  | binary _ left right => locals left ++ locals right
  | isInstanceOf value _ | asInstanceOf value _ => locals value

/-- The local variables that a list of expressions reads or assigns. -/
def localsOfAll : List Expr → List String
  | [] => []
  | head :: rest => locals head ++ localsOfAll rest

/-- The local variables that an expression reads or assigns, if there is one. -/
def localsOfOption : Option Expr → List String
  | none => []
  | some expr => locals expr

end

end Expr

namespace Naming

/-- Whether a name looks like the local name of an imported module of the program. -/
def looksImported (name : String) : Prop := name.toList.take 2 = ['$', 'j']

instance (name : String) : Decidable (looksImported name) :=
  inferInstanceAs (Decidable (name.toList.take 2 = ['$', 'j']))

/-- Text at the end of a name that is long enough does not matter for its looking imported. -/
theorem looksImported_append {left : String} (right : String) (long : 2 ≤ left.toList.length) :
    looksImported (left ++ right) ↔ looksImported left := by
  rw [looksImported, looksImported, String.toList_append, List.take_append_of_le_length long]

variable (naming : Naming)

/-- A name looks imported whether or not a number is added to avoid a clash. -/
theorem avoidClash_looksImported {name : String} (long : 2 ≤ name.toList.length) :
    looksImported (naming.avoidClash name) ↔ looksImported name := by
  rcases naming.avoidClash_eq name with same | ⟨number, same⟩
  · rw [same]
  · rw [same, numbered, looksImported_append _ (by simp; omega), looksImported_append _ long]

/-- A name with a mark looks imported if the mark does. -/
theorem plainName_looksImported {mark : String} (text : String) (long : 2 ≤ mark.toList.length) :
    looksImported (naming.avoidClash (plainName mark text)) ↔ looksImported mark := by
  rw [avoidClash_looksImported _ (by simp [plainName]; omega), plainName,
    looksImported_append _ long]

/-- A name of a member with a mark looks imported if the mark does. -/
theorem memberName_looksImported {mark : String} (owner : ClassName) (member : String)
    (long : 2 ≤ mark.toList.length) :
    looksImported (naming.avoidClash (memberName mark owner member)) ↔ looksImported mark := by
  rw [avoidClash_looksImported _ (by simp [memberName]; omega), memberName]
  rw [looksImported_append _ (by simp; omega), looksImported_append _ (by simp; omega),
    looksImported_append _ long]

/-- A name of the bootstrap library looks imported as it would without a number. -/
theorem bootstrap_looksImported {name : String} (long : 1 ≤ name.toList.length) :
    looksImported (naming.bootstrap name) ↔ looksImported ("$" ++ name) := by
  refine naming.avoidClash_looksImported ?_
  rw [String.toList_append, List.length_append]
  exact Nat.add_le_add (by decide) long

end Naming

/-- The variables that generation adds to code by itself: the parameters of the functions that it
writes. -/
def Lowering.ownVariables : List String :=
  [receiverParam, "args", "x", "instance", "classFullName", "name", "isInterface", "ancestors",
    "zero"]

/-- Whether the names of definitions of classes and of external imports are among some names. -/
structure Naming.Defines (naming : Naming) (names : String → Prop) : Prop where
  single : ∀ (sort : NameSort) (text : String), sort ≠ .internalImport →
    names (naming.avoidClash (plainName sort.mark text))
  member : ∀ (sort : MemberSort) (owner : ClassName) (text : String),
    names (naming.avoidClash (memberName sort.mark owner text))

/-- Whether the variables that generation adds to code by itself are among some names, and the names
of definitions and of external imports. -/
structure Naming.Provides (naming : Naming) (names : String → Prop) : Prop
    extends naming.Defines names where
  own : ∀ name ∈ Lowering.ownVariables, names name
  castFailure : names (naming.bootstrap "throwClassCastException")
  typeDataClass : names (naming.bootstrap "TypeData")

/-- The name of a free function is among them. -/
theorem Naming.Defines.freeFunction {naming : Naming} {names : String → Prop}
    (defines : naming.Defines names) (home : MemberNamespace) (owner : ClassName)
    (method : MethodName) : names (naming.freeFunction home owner method) :=
  defines.member (.method home) owner method.text

namespace Lowering.Context

/-- Names that generated code may use apart from what the program writes: all that do not look
imported, and the local name of the root module. -/
structure Allows (context : Context) (names : String → Prop) : Prop where
  other : ∀ name, ¬Naming.looksImported name → names name
  root : ∀ id, context.index.rootModule? = some id → id ≠ context.home →
    names (context.naming.internalImport id)

/-- Whether what generation adds to bodies by itself is among some names: the names of definitions,
and the local name of the root module. -/
structure Lends (context : Context) (names : String → Prop) : Prop
    extends context.naming.Defines names where
  root : ∀ id, context.index.rootModule? = some id → id ≠ context.home →
    names (context.naming.internalImport id)

/-- Whether what generation adds to code by itself is among some names: its own variables, the names
of definitions, and the local name of the root module. -/
structure Supplies (context : Context) (names : String → Prop) : Prop
    extends context.naming.Provides names where
  root : ∀ id, context.index.rootModule? = some id → id ≠ context.home →
    names (context.naming.internalImport id)

/-- Whether generated code may refer to the module of a class, if the class has one. -/
def Reaches (context : Context) (names : String → Prop) (owner : ClassName) : Prop :=
  ∀ id, context.index.owner? owner = some id → id ≠ context.home →
    names (context.naming.internalImport id)

/-- The names of variables that an expression writes: of the host, and of local variables. -/
def writtenNames (context : Context) (expr : Expr) : List String :=
  HostNames.ofExpr context.config context.index expr ++ expr.locals

variable {context : Context} {names : String → Prop}

/-- What supplies all that generation adds also lends what it adds to bodies. -/
theorem Supplies.lends (supplies : context.Supplies names) : context.Lends names :=
  ⟨supplies.toDefines, supplies.root⟩

/-- The names that generated code may use include all that generation adds by itself. -/
theorem Allows.supplies (allows : context.Allows names) : context.Supplies names where
  own := by
    have apart : ∀ name ∈ ownVariables, ¬Naming.looksImported name := by decide
    exact fun name found => allows.other name (apart name found)
  single sort text other := by
    refine allows.other _ (mt (context.naming.plainName_looksImported text ?_).1 ?_) <;>
      cases sort <;> first | decide | exact absurd rfl other
  member sort owner text := by
    refine allows.other _ (mt (context.naming.memberName_looksImported owner text ?_).1 ?_) <;>
      rcases sort with home | _ <;> first | decide | cases home <;> decide
  castFailure := allows.other _ (mt (context.naming.bootstrap_looksImported (by decide)).1
    (by decide))
  typeDataClass := allows.other _ (mt (context.naming.bootstrap_looksImported (by decide)).1
    (by decide))
  root := allows.root

/-- A reference to a definition of a module that may be used. -/
theorem qualify_within {owner? : Option ModuleId} {name : String} (allowed : names name)
    (reached : ∀ id, owner? = some id → id ≠ context.home →
      names (context.naming.internalImport id)) :
    (context.qualify owner? name).Within names := by
  unfold qualify
  cases owner? with
  | none => simpa using allowed
  | some owner =>
    dsimp only
    split
    · next foreign => simpa using reached owner rfl foreign.1
    · simpa using allowed

/-- A selected property keeps to the names of its qualifier. -/
theorem propSelect_within {qualifier : Tree} (within : qualifier.Within names)
    (property : String) : (context.propSelect qualifier property).Within names := by
  unfold propSelect
  split <;> simpa using within

section Facts

variable (lends : context.Lends names) {owner : ClassName}
  (reached : context.Reaches names owner)

include lends

/-- A reference to the root module uses a name that may be used. -/
theorem rootModuleRef_within {name : String} (allowed : names name) :
    (context.rootModuleRef name).Within names :=
  qualify_within allowed lends.root

include reached

/-- A reference to a class keeps to names that may be used. -/
theorem classRef_within : (context.classRef owner).Within names :=
  qualify_within (lends.single .constructor owner.text (by decide)) reached

/-- A reference to the helper of a class keeps to names that may be used. -/
theorem helperRef_within : (context.helperRef owner).Within names :=
  qualify_within (lends.single .helper owner.text (by decide)) reached

/-- A reference to a free function keeps to names that may be used. -/
theorem functionRef_within (home : MemberNamespace) (method : MethodName) :
    (context.functionRef home owner method).Within names :=
  qualify_within (lends.freeFunction home owner method) reached

/-- A native class is found by a name that the program writes, or from an import. -/
theorem loadNative_within
    (written : ∀ name ∈ HostNames.ofNative context.config context.index owner, names name) :
    (context.loadNative owner).value.Within names := by
  have select (path : List String) (start : Tree) (within : start.Within names) :
      (path.foldl context.propSelect start).Within names :=
    List.foldlRecOn (motive := fun tree : Tree => tree.Within names) path _ within
      (fun _ found head _ => propSelect_within found head)
  have whole : (∀ name ∈ HostNames.ofPath [], names name) →
      (context.hostRef "globalThis").value.Within names :=
    fun allowed => by simpa [hostRef, HostNames.ofPath] using allowed
  have global : ∀ first rest, (∀ name ∈ HostNames.ofPath (first :: rest), names name) →
      ((context.hostRef first).map (rest.foldl context.propSelect)).value.Within names :=
    fun first rest allowed => select rest _ (by simpa [hostRef, HostNames.ofPath] using allowed)
  unfold HostNames.ofNative at written
  unfold loadNative
  cases found : context.index.nativeLoadSpec? owner with
  | none => exact classRef_within lends reached
  | some spec =>
    rw [found] at written
    cases spec with
    | fromGlobal path =>
      cases path with
      | nil => exact whole written
      | cons first rest => exact global first rest written
    | fromModule source path =>
      dsimp only at written ⊢
      split
      · next script =>
        rw [if_pos script] at written
        cases path with
        | nil => exact whole written
        | cons first rest => exact global first rest written
      · refine select path _ ?_
        exact Tree.within_varRef.2 (lends.single .externalImport source (by decide))

/-- The code that loads a native class uses names that may be used and those read off the class. -/
theorem loadJsConstructor_within
    (written : ∀ name ∈ HostNames.ofClass context.config context.index owner, names name) :
    (context.loadJsConstructor owner).value.Within names := by
  unfold HostNames.ofClass at written
  unfold loadJsConstructor
  split
  · next native => exact loadNative_within lends reached (by simpa [native] using written)
  · exact classRef_within lends reached

/-- Creating an instance uses names that may be used, those of the arguments and those of the
class. -/
theorem newInstance_within
    (written : ∀ name ∈ HostNames.ofClass context.config context.index owner, names name)
    (ctor : MethodName) {args : List Tree} (within : ∀ arg ∈ args, arg.Within names) :
    (context.newInstance owner ctor args).value.Within names := by
  have direct : (Tree.new (context.classRef owner) args).Within names := by
    simpa [classRef_within lends reached] using within
  have initialized : (Tree.apply (context.functionRef .constructor owner ctor)
      (.new (context.classRef owner) [] :: args)).Within names := by
    simpa [classRef_within lends reached, functionRef_within lends reached] using within
  unfold HostNames.ofClass at written
  unfold newInstance
  cases kind : context.index.kind? owner with
  | none => dsimp only; split <;> assumption
  | some found =>
    cases found with
    | jsClass | jsModuleClass => exact direct
    | nativeJsClass =>
      have loaded := loadNative_within lends reached (by simpa [kind] using written)
      simpa using ⟨loaded, within⟩
    | _ => dsimp only; split <;> assumption

/-- A reference to a type test keeps to names that may be used. -/
theorem typeTestRef_within {name : String} (allowed : names name) :
    (context.typeTestRef owner name).Within names := by
  unfold typeTestRef
  split
  · exact rootModuleRef_within lends allowed
  · exact qualify_within allowed reached

/-- An instance test keeps to the names of the value that it tests. -/
theorem instanceTest_within {value : Tree} (within : value.Within names) :
    (context.instanceTest owner value).Within names := by
  have test : (context.typeTestRef owner (context.naming.instanceTest owner)).Within names :=
    typeTestRef_within lends reached (lends.single .test owner.text (by decide))
  unfold instanceTest
  cases owner.primitiveType? <;> simp [within, test]

end Facts

/-- Whether what bodies refer to without naming it only uses some names. -/
structure ScopeWithin (context : Context) (names : String → Prop) (scope : Scope) : Prop where
  receiver : scope.receiver.Within names
  parent : ∀ parent ∈ scope.parent?, parent.Within names
  root : context.Reaches names .root

section Bodies

open HostNames

variable {scope : Scope}

/-- A super call keeps to the names of its scope and of its arguments. -/
theorem superCall_within (lends : context.Lends names)
    (inside : context.ScopeWithin names scope) (method : MethodName) {args : List Tree}
    (within : ∀ arg ∈ args, arg.Within names) :
    (context.superCall scope method args).Within names := by
  have parent : (scope.parent?.getD (context.classRef .root)).Within names := by
    cases found : scope.parent? with
    | none => exact classRef_within lends inside.root
    | some parent => exact inside.parent parent found
  unfold superCall
  split
  · simpa using within
  · simp only [Tree.within_apply, Tree.within_dotSelect, List.forall_mem_cons]
    exact ⟨parent, inside.receiver, within⟩

mutual

/-- A lowered expression uses names that may be used and those that the program writes in it. -/
theorem lower_within (lends : context.Lends names)
    (inside : context.ScopeWithin names scope) : (expr : Expr) →
    (∀ owner ∈ expr.classes, context.Reaches names owner) →
    (∀ name ∈ ofExpr context.config context.index expr, names name) →
    (∀ name ∈ expr.locals, names name) → (context.lower scope expr).value.Within names
  | .skip, _, _, _ => Tree.within_skip
  | .literal value, _, _, _ => by cases value <;> simp [lower, literal]
  | .this, _, _, _ => inside.receiver
  | .localVar name, _, _, locals => Tree.within_varRef.2 (locals name List.mem_cons_self)
  | .globalRef name, _, hosts, _ => Tree.within_varRef.2 (hosts name List.mem_cons_self)
  | .loadModule owner, reached, _, _ => by
    have accessor : (context.classMemberRef owner
        (context.naming.moduleAccessor owner)).Within names :=
      qualify_within (lends.single .accessor owner.text (by decide))
        (reached owner List.mem_cons_self)
    simpa [lower] using accessor
  | .selectStatic owner field, reached, _, _ =>
    qualify_within (lends.member .staticField owner field.text)
      (reached owner List.mem_cons_self)
  | .loadJsConstructor owner, reached, hosts, _ =>
    loadJsConstructor_within lends (reached owner List.mem_cons_self) hosts
  | .block statements, reached, hosts, locals => by
    simpa [lower] using lowerAll_within lends inside statements reached hosts locals
  | .varDef _ value, reached, hosts, locals | .ret value, reached, hosts, locals
  | .raise value, reached, hosts, locals | .unary _ value, reached, hosts, locals
  | .select value _, reached, hosts, locals => by
    simpa [lower] using lower_within lends inside value reached hosts locals
  | .jsSelect value property, reached, hosts, locals =>
    propSelect_within (lower_within lends inside value reached hosts locals) property
  | .assign target value, reached, hosts, locals
  | .binary _ target value, reached, hosts, locals => by
    simp only [Expr.classes, ofExpr, Expr.locals, List.forall_mem_append] at reached hosts locals
    simpa [lower] using ⟨lower_within lends inside target reached.1 hosts.1 locals.1,
      lower_within lends inside value reached.2 hosts.2 locals.2⟩
  | .branch cond thenBranch elseBranch?, reached, hosts, locals => by
    simp only [Expr.classes, ofExpr, Expr.locals, List.forall_mem_append] at reached hosts locals
    simpa [lower] using ⟨lower_within lends inside cond reached.1.1 hosts.1.1 locals.1.1,
      lower_within lends inside thenBranch reached.1.2 hosts.1.2 locals.1.2,
      lowerElse_within lends inside elseBranch? reached.2 hosts.2 locals.2⟩
  | .apply receiver _ args, reached, hosts, locals
  | .jsCall receiver args, reached, hosts, locals => by
    simp only [Expr.classes, ofExpr, Expr.locals, List.forall_mem_append] at reached hosts locals
    simpa [lower] using ⟨lower_within lends inside receiver reached.1 hosts.1 locals.1,
      lowerAll_within lends inside args reached.2 hosts.2 locals.2⟩
  | .applySuper method args, reached, hosts, locals =>
    superCall_within lends inside method
      (lowerAll_within lends inside args reached hosts locals)
  | .applyStatic owner method args, reached, hosts, locals => by
    simp only [Expr.classes, List.forall_mem_cons] at reached
    simpa [lower] using ⟨functionRef_within lends reached.1 .staticPublic method,
      lowerAll_within lends inside args reached.2 hosts locals⟩
  | .applyConstructor owner ctor args, reached, hosts, locals => by
    simp only [Expr.classes, List.forall_mem_cons] at reached
    simpa [lower] using ⟨functionRef_within lends reached.1 .constructor ctor, inside.receiver,
      lowerAll_within lends inside args reached.2 hosts locals⟩
  | .new owner ctor args, reached, hosts, locals => by
    simp only [Expr.classes, List.forall_mem_cons] at reached
    simp only [ofExpr, List.forall_mem_append] at hosts
    exact newInstance_within lends reached.1 hosts.2 ctor
      (lowerAll_within lends inside args reached.2 hosts.1 locals)
  | .isInstanceOf value owner, reached, hosts, locals => by
    simp only [Expr.classes, List.forall_mem_cons] at reached
    exact instanceTest_within lends reached.1
      (lower_within lends inside value reached.2 hosts locals)
  | .asInstanceOf value owner, reached, hosts, locals => by
    simp only [Expr.classes, List.forall_mem_cons] at reached
    have cast : (context.typeTestRef owner (context.naming.instanceCast owner)).Within names :=
      typeTestRef_within lends reached.1 (lends.single .cast owner.text (by decide))
    simpa [lower] using ⟨cast, lower_within lends inside value reached.2 hosts locals⟩

/-- Lowered expressions use names that may be used and those that the program writes in them. -/
theorem lowerAll_within (lends : context.Lends names)
    (inside : context.ScopeWithin names scope) : (exprs : List Expr) →
    (∀ owner ∈ Expr.classesOfAll exprs, context.Reaches names owner) →
    (∀ name ∈ ofExprs context.config context.index exprs, names name) →
    (∀ name ∈ Expr.localsOfAll exprs, names name) →
    ∀ tree ∈ (context.lowerAll scope exprs).value, tree.Within names
  | [], _, _, _ => by simp [lowerAll]
  | head :: rest, reached, hosts, locals => by
    simp only [Expr.classesOfAll, ofExprs, Expr.localsOfAll, List.forall_mem_append]
      at reached hosts locals
    simpa [lowerAll] using ⟨lower_within lends inside head reached.1 hosts.1 locals.1,
      lowerAll_within lends inside rest reached.2 hosts.2 locals.2⟩

/-- A lowered alternative uses names that may be used and those that the program writes in it. -/
theorem lowerElse_within (lends : context.Lends names)
    (inside : context.ScopeWithin names scope) : (expr? : Option Expr) →
    (∀ owner ∈ Expr.classesOfOption expr?, context.Reaches names owner) →
    (∀ name ∈ ofElse context.config context.index expr?, names name) →
    (∀ name ∈ Expr.localsOfOption expr?, names name) →
    (context.lowerElse scope expr?).value.Within names
  | none, _, _, _ => Tree.within_skip
  | some expr, reached, hosts, locals => lower_within lends inside expr reached hosts locals

end

end Bodies

end Lowering.Context

end JsEmitter
