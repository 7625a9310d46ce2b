import JsEmitter.Proofs.EmittedBodies
import JsEmitter.Proofs.NodeRules

/-!
# Blocks and assignments of generated code

The generators put bodies together with code of their own. This code has blocks only by flattening
statements, and it assigns to variables, to properties of receivers and prototypes, and to
properties of definitions of the module, but never to a property of something imported. So a rule
that allows these holds of the whole output of a module if it holds of the bodies that the pieces of
the module are lowered from.
-/
namespace JsEmitter

open Js (Tree NodeRule)
open Js.Tree (visited visitedAll visitedOption visitedProperties statements ofStatements)
open Lowering (Context Scope ConstructorParts Bootstrap receiverParam)

namespace Js

namespace Tree

/-- The name of the variable that a tree is, if it is one. -/
def varName? : Tree → Option String
  | varRef name => some name
  | _ => none

/-- The variable that a tree selects a property of, if it does. -/
def selectedFrom? : Tree → Option String
  | dotSelect qualifier _ | bracketSelect qualifier _ => qualifier.varName?
  | _ => none

end Tree

/-- Whether generation keeps a rule if bodies do: flattening statements keeps it, and it allows
assignments to all but properties of variables that look imported. -/
structure NodeRule.Kept (rule : NodeRule) : Prop where
  flatten : ∀ trees, (∀ tree ∈ trees, rule.Holds tree.visited) →
    rule.Holds (ofStatements trees).visited
  assign : ∀ target value, (∀ name ∈ target.selectedFrom?, ¬Naming.looksImported name) →
    rule.assign target value

namespace NodeRule.Kept

variable {rule : NodeRule} (kept : rule.Kept)

include kept

/-- Such a rule allows assignments to variables. -/
theorem assign_varRef (name : String) (value : Tree) : rule.assign (.varRef name) value :=
  kept.assign _ value (fun _ found => by cases found)

/-- Such a rule allows assignments to properties of the receiver. -/
theorem assign_this (property : String) (value : Tree) :
    rule.assign (.dotSelect .this property) value :=
  kept.assign _ value (fun _ found => by cases found)

/-- Properties of properties may be assigned to. -/
theorem assign_inner (qualifier : Tree) (inner property : String) (value : Tree) :
    rule.assign (.dotSelect (.dotSelect qualifier inner) property) value :=
  kept.assign _ value (fun _ found => by cases found)

/-- Properties of a definition of the module may be assigned to. -/
theorem assign_own {name : String} (own : ¬Naming.looksImported name) (property : String)
    (value : Tree) : rule.assign (.dotSelect (.varRef name) property) value :=
  kept.assign _ value (fun _ found => Option.some.inj found ▸ own)

end NodeRule.Kept

end Js

namespace Lowering.Context

variable {context : Context} {rule : NodeRule}

/-- A selected property is selected from the variable that the qualifier is. -/
theorem propSelect_selectedFrom? (qualifier : Tree) (property : String) :
    (context.propSelect qualifier property).selectedFrom? = qualifier.varName? := by
  unfold propSelect
  split <;> rfl

/-- A reference to a class that is a variable has the name of the class constructor. -/
theorem classRef_varName? {owner : ClassName} {name : String}
    (found : name ∈ (context.classRef owner).varName?) :
    name = context.naming.classConstructor owner := by
  unfold classRef classMemberRef qualify at found
  split at found
  · split at found
    · cases found
    · exact (Option.some.inj found).symm
  · exact (Option.some.inj found).symm

/-- The name of a class constructor does not look like that of an import. -/
theorem not_looksImported_constructor (naming : Naming) (owner : ClassName) :
    ¬Naming.looksImported (naming.classConstructor owner) :=
  @Subject.not_looksImported naming (.single .constructor owner.text) rfl rfl

/-- The name of a helper function does not look like that of an import. -/
theorem not_looksImported_helper (naming : Naming) (owner : ClassName) :
    ¬Naming.looksImported (naming.classHelper owner) :=
  @Subject.not_looksImported naming (.single .helper owner.text) rfl rfl

/-- What members are assigned to is as the rule allows. -/
@[simp] theorem memberTarget_holds (linked : LinkedClass) (isStatic : Bool) :
    rule.Holds (context.memberTarget linked isStatic).visited := by
  cases isStatic <;> simp [memberTarget, visited]

/-- What members are assigned to is a property of a class or of its prototype. -/
theorem assign_memberTarget (kept : rule.Kept) (linked : LinkedClass) (isStatic : Bool)
    (property : String) (value : Tree) :
    rule.assign (context.propSelect (context.memberTarget linked isStatic) property) value := by
  refine kept.assign _ value (fun name found => ?_)
  rw [propSelect_selectedFrom?] at found
  cases isStatic with
  | true =>
    rw [classRef_varName? found]
    exact not_looksImported_constructor context.naming linked.name
  | false => cases found

/-- Whether the parts of a constructor are as a rule allows. -/
structure ConstructorHolds (rule : NodeRule) (parts : ConstructorParts) : Prop where
  parent : ∀ parent ∈ parts.parent?, rule.Holds parent.visited
  before : ∀ tree ∈ parts.beforeSuper, rule.Holds tree.visited
  args : ∀ args ∈ parts.superArgs?, ∀ tree ∈ args, rule.Holds tree.visited
  after : ∀ tree ∈ parts.afterSuper, rule.Holds tree.visited

/-- Zero values are as every rule allows. -/
@[simp] theorem zeroValue_holds (type : FieldType) :
    rule.Holds (zeroValue type).visited := by
  cases type <;> simp [zeroValue, visited]

/-- Initializations of fields are as the rule allows. -/
theorem fieldInits_hold (kept : rule.Kept) (linked : LinkedClass) :
    ∀ tree ∈ fieldInits linked, rule.Holds tree.visited := by
  simp [fieldInits, visited, kept.assign_this]

/-- Whether the tree of a body is as a rule allows, wherever the body is lowered: its receiver is
`this` or the parameter for it, and the parent is as the rule allows. -/
def BodyHolds (context : Context) (rule : NodeRule) (body : Expr) : Prop :=
  ∀ scope : Scope, scope.receiver = .this ∨ scope.receiver = .varRef receiverParam →
    (∀ parent ∈ scope.parent?, rule.Holds parent.visited) →
      rule.Holds (context.lower scope body).value.visited

/-- A body that is as the rule allows is so outside of a class too. -/
theorem BodyHolds.plain {body : Expr} (holds : context.BodyHolds rule body) :
    rule.Holds (context.lower .plain body).value.visited :=
  holds .plain (.inl rfl) (by simp [Scope.plain])

section Classes

variable {linked : LinkedClass}
  (extended : ∀ body ∈ linked.jsSuperClass?, context.BodyHolds rule body)

include extended

/-- The parent of a class is as the rule allows. -/
theorem memberParent_holds :
    ∀ parent ∈ (context.parentRef linked).value, rule.Holds parent.visited :=
  parentRef_holds (fun body found => (extended body found).plain)

/-- The body of a member is as a rule allows in the scope of its class. -/
theorem memberScope_holds {body : Expr} (holds : context.BodyHolds rule body) :
    rule.Holds (context.lower (context.memberScope linked).value body).value.visited :=
  holds _ (.inl rfl) (memberParent_holds extended)

/-- Bodies lowered in the scope of members are as the rule allows. -/
theorem memberBodies_hold {bodies : List Expr}
    (hold : ∀ body ∈ bodies, context.BodyHolds rule body) :
    ∀ tree ∈ (context.lowerAll (context.memberScope linked).value bodies).value,
      rule.Holds tree.visited := by
  rw [lowerAll_value]
  exact List.forall_mem_map.2 (fun body found => memberScope_holds extended (hold body found))

/-- A free function is as the rule allows if its body is. -/
theorem freeFunction_holds (kept : rule.Kept) {method : MethodDef}
    (holds : context.BodyHolds rule method.body) :
    rule.Holds (context.freeFunction linked method).value.visited := by
  have body : rule.Holds (context.lower (context.functionScope linked method.home)
      method.body).value.visited := by
    refine holds _ ?_ (memberParent_holds extended)
    unfold functionScope
    cases method.home.isStatic
    · exact .inr rfl
    · exact .inl rfl
  have whole := kept.flatten
    ((context.lower (context.functionScope linked method.home) method.body).value ::
      if method.home = .constructor then [.ret (.varRef receiverParam)] else [])
    (List.forall_mem_cons.2 ⟨body, by split <;> simp [visited]⟩)
  exact (rule.holds_cons).2 ⟨trivial, whole⟩

/-- A member method is as the rule allows if its body is. -/
theorem memberMethod_holds (kept : rule.Kept) {method : MethodDef}
    (holds : context.BodyHolds rule method.body) :
    rule.Holds (context.memberMethod linked method).value.visited := by
  have body := memberScope_holds extended holds
  simp only [memberMethod, Tracked.bind_value, Tracked.pure_value]
  split
  · simp [visited, Tree.visitedName, body]
  · simp [visited, memberTarget, body, kept.assign_inner]

/-- An exported member is as the rule allows if its bodies are. -/
theorem exportedMember_holds (kept : rule.Kept) {member : ExportedMember}
    (hold : ∀ body ∈ member.bodies, context.BodyHolds rule body) :
    ∀ tree ∈ (context.exportedMember linked member).value, rule.Holds tree.visited := by
  have body : ∀ body ∈ member.bodies, rule.Holds (context.lower
      (context.memberScope linked).value body).value.visited :=
    fun body found => memberScope_holds extended (hold body found)
  cases member with
  | method name isStatic params inner =>
    have tree := body inner (List.mem_singleton_self inner)
    simp only [exportedMember, Tracked.bind_value, Tracked.pure_value, exportedMethod]
    split
    · have computed : Tree.visitedName (context.propName name) = [] := by
        unfold propName
        split <;> rfl
      simp [visited, computed, tree]
    · simp [visited, tree, memberTarget_holds, assign_memberTarget kept]
  | property name isStatic getter? setter? =>
    have getter : ∀ inner ∈ getter?, rule.Holds (context.lower
        (context.memberScope linked).value inner).value.visited :=
      fun inner found => body inner (List.mem_append_left _ (Option.mem_toList.2 found))
    have setter : ∀ pair ∈ setter?, rule.Holds (context.lower
        (context.memberScope linked).value pair.2).value.visited :=
      fun pair found => body pair.2 (List.mem_append_right _
        (Option.mem_toList.2 (Option.mem_map_of_mem Prod.snd found)))
    simp only [exportedMember, Tracked.bind_value]
    split <;> cases getter? <;> cases setter? <;>
      simp_all [visited, visitedAll, visitedProperties, lowerGetter, lowerSetter,
        exportedAccessors, definedProperty, propertyDescriptor, memberTarget_holds]

/-- The constructor of a foreign class is as the rule allows if its expressions are. -/
theorem jsConstructorParts_holds (kept : rule.Kept) {ctor : JsConstructorDef}
    (hold : ∀ body ∈ ctor.beforeSuper ++ ctor.superArgs ++ ctor.afterSuper,
      context.BodyHolds rule body) :
    ConstructorHolds rule (context.jsConstructorParts linked ctor).value where
  parent := memberParent_holds extended
  before := memberBodies_hold extended (fun body found => hold body (by simp [found]))
  args := by
    intro args found
    simp only [jsConstructorParts, Tracked.bind_value, Tracked.pure_value, superArgs] at found
    split at found
    · obtain rfl := Option.some.inj found
      exact memberBodies_hold extended (fun body found => hold body (by simp [found]))
    · cases found
  after := by
    have body := @memberBodies_hold context rule linked extended ctor.afterSuper
      (fun body found => hold body (by simp [found]))
    exact List.forall_mem_append.2 ⟨fieldInits_hold kept linked, body⟩

/-- The constructor of an ordinary class is as the rule allows if the inlined body is. -/
theorem plainConstructorParts_holds (kept : rule.Kept)
    (hold : ∀ body ∈ HostNames.inlinedBody? context.index linked, context.BodyHolds rule body) :
    ConstructorHolds rule (context.plainConstructorParts linked).value := by
  have parent := memberParent_holds extended
  have args (parent? : Option Tree) : ∀ args ∈ parent?.map (fun _ => ([] : List Tree)),
      ∀ tree ∈ args, rule.Holds tree.visited := by
    intro args found
    obtain ⟨parent, -, rfl⟩ := Option.map_eq_some_iff.1 found
    exact List.forall_mem_nil _
  have inits := fieldInits_hold kept linked
  rw [inlinedBody?_eq] at hold
  unfold plainConstructorParts
  cases there : context.inlinedConstructor? linked with
  | none => exact ⟨parent, List.forall_mem_nil _, args _, by simpa using inits⟩
  | some ctor =>
    have body := memberScope_holds extended (hold ctor.value.body (by rw [there]; rfl))
    exact ⟨parent, List.forall_mem_nil _, args _,
      List.forall_mem_append.2 ⟨inits, List.forall_mem_singleton.2 body⟩⟩

end Classes

/-- A bridge is as every such rule allows. -/
theorem bridge_holds (method : MethodName) :
    rule.Holds (context.bridge method).value.visited := by
  simp [bridge, visited, visitedAll, Tree.visitedName]

section Definitions

variable {linked : LinkedClass} (kept : rule.Kept)

include kept

/-- The link of a prototype to its parent is as the rule allows. -/
theorem prototypeLink_holds {parent? : Option Tree}
    (parents : ∀ parent ∈ parent?, rule.Holds parent.visited) :
    ∀ tree ∈ (context.prototypeLink linked (context.naming.classConstructor linked.name)
      parent?).value, rule.Holds tree.visited := by
  cases parent? with
  | none => exact List.forall_mem_nil _
  | some parent =>
    have inherited := parents parent rfl
    have value : rule.Holds (context.prototypeValue linked parent).value.visited := by
      unfold prototypeValue
      split
      · simp [visited, visitedAll, hostRef, inherited]
      · cases linked.superClass? <;> simp [visited, visitedAll, helperRef, inherited]
    have own := not_looksImported_constructor context.naming linked.name
    simp [prototypeLink, visited, value, kept.assign_inner, kept.assign_own own]

/-- A helper function is as the rule allows. -/
theorem helperDefinition_holds :
    ∀ tree ∈ context.helperDefinition linked (context.naming.classConstructor linked.name),
      rule.Holds tree.visited := by
  have own := not_looksImported_helper context.naming linked.name
  unfold helperDefinition
  split <;> simp [visited, kept.assign_own own]

/-- A class definition is as a rule allows if its constructor and its members are. -/
theorem fullClass_holds {ctor : ConstructorParts} {members : List Tree}
    {exported : List (List Tree)} (parts : ConstructorHolds rule ctor)
    (inside : ∀ tree ∈ members, rule.Holds tree.visited)
    (outside : ∀ trees ∈ exported, ∀ tree ∈ trees, rule.Holds tree.visited) :
    ∀ tree ∈ (context.fullClass linked ctor members exported).value,
      rule.Holds tree.visited := by
  have all : ∀ tree ∈ members ++ exported.flatten, rule.Holds tree.visited :=
    List.forall_mem_append.2 ⟨inside, List.forall_mem_flatten.2 outside⟩
  have body {superCall : List Tree} (call : ∀ tree ∈ superCall, rule.Holds tree.visited) :=
    kept.flatten (ctor.beforeSuper ++ superCall ++ ctor.afterSuper)
      (List.forall_mem_append.2 ⟨List.forall_mem_append.2 ⟨parts.before, call⟩, parts.after⟩)
  unfold fullClass
  split
  · have superCall : ∀ tree ∈ (ctor.superArgs?.map (fun args =>
        Tree.apply .super args)).toList, rule.Holds tree.visited := by
      cases args? : ctor.superArgs? with
      | none => exact List.forall_mem_nil _
      | some args =>
        have given := parts.args args args?
        simpa [visited, rule.holds_visitedAll] using given
    have whole := body superCall
    have parent : rule.Holds (visitedOption ctor.parent?) := by
      cases parent? : ctor.parent? with
      | none => exact rule.holds_nil
      | some parent => exact parts.parent parent parent?
    refine List.forall_mem_singleton.2 ?_
    simp only [classSyntaxDefinition, visited, visitedAll, Tree.visitedName, rule.holds_cons,
      rule.holds_append, rule.holds_nil, NodeRule.Allows, rule.holds_visitedAll, true_and]
    exact ⟨parent, whole, all⟩
  · have superCall : ∀ tree ∈ ctor.superCall, rule.Holds tree.visited := by
      unfold ConstructorParts.superCall
      cases parent? : ctor.parent? with
      | none => exact List.forall_mem_nil _
      | some parent =>
        cases args? : ctor.superArgs? with
        | none => exact List.forall_mem_nil _
        | some args =>
          have inherited := parts.parent parent parent?
          have given := parts.args args args?
          simpa [visited, visitedAll, rule.holds_visitedAll, inherited] using given
    refine List.forall_mem_append.2 ⟨List.forall_mem_append.2 ⟨List.forall_mem_cons.2 ⟨?_,
      prototypeLink_holds kept parts.parent⟩, helperDefinition_holds kept⟩, all⟩
    exact rule.holds_cons.2 ⟨trivial, body superCall⟩

omit kept in
/-- The type data of a class are as the rule allows. -/
theorem classTypeData_holds {constructor : Tree} (holds : rule.Holds constructor.visited)
    (owner : ClassName) (isInterface : Bool) (ancestors : List ClassName) :
    rule.Holds (classTypeData constructor owner isInterface ancestors).visited := by
  have properties : rule.Holds (visitedProperties
      (ancestors.map (fun ancestor => .mk (.ident ancestor.encoded) (.int 1)))) := by
    induction ancestors with
    | nil => exact rule.holds_nil
    | cons head rest ih => simpa [visitedProperties, visited] using ih
  simp [classTypeData, visited, visitedAll, holds, properties]

/-- What stands around a class definition is as a rule allows, whatever the class is. -/
theorem shellTrees_holds (linked : LinkedClass) (part : ShellPart) :
    ∀ tree ∈ (shellTrees context linked part).value, rule.Holds tree.visited := by
  cases part with
  | moduleAccessor =>
    have first := kept.flatten
      [.branch (.unary "!" (.varRef (context.naming.moduleInstance linked.name)))
        (.assign (.varRef (context.naming.moduleInstance linked.name))
          (context.newInstance linked.name (accessorConstructor linked) []).value) .skip,
        .ret (.varRef (context.naming.moduleInstance linked.name))]
      (by simp [visited, kept.assign_varRef])
    simp [shellTrees, moduleAccessor, visited, visitedOption, first]
  | instanceTests =>
    have accepted : rule.Holds (isInstanceExpr linked.name (.varRef "x")).visited := by
      unfold isInstanceExpr
      split <;> simp [visited]
    simp [shellTrees, Tracked.untracked, instanceTests, visited, visitedAll, accepted]
  | typeData =>
    have value := classTypeData_holds (context.bootstrapRef_holds rule "TypeData") linked.name
      (linked.kind = .interface) linked.ancestors
    simp only [shellTrees, Tracked.untracked, typeData]
    split <;> simp [visited, visitedOption, value, memberTarget, kept.assign_inner]
  | staticFields => simp [shellTrees, Tracked.untracked, staticFields, visited, visitedOption]
  | staticInitializers =>
    cases given : linked.staticInitializer? <;>
      simp [shellTrees, Tracked.untracked, staticInitializers, given, visited, visitedAll]

end Definitions

section Modules

variable (kept : rule.Kept)

include kept

/-- Setting an own property is as the rule allows if its value is. -/
theorem setOwn_holds (property : String) (value : Tree) :
    rule.Holds (Lowering.setOwn property value).visited ↔ rule.Holds value.visited := by
  simp [Lowering.setOwn, visited, kept.assign_this]

/-- The bootstrap library is as a rule allows. -/
theorem bootstrap_holds : ∀ tree ∈ context.bootstrap.value.trees, rule.Holds tree.visited := by
  have constructor : rule.Holds Lowering.typeDataConstructor.visited :=
    kept.flatten _ (by simp [setOwn_holds kept, visited])
  have methods : ∀ method ∈ Lowering.typeDataMethods, rule.Holds method.body.visited := by
    simp only [Lowering.typeDataMethods, List.forall_mem_cons]
    exact ⟨kept.flatten _ (by simp [setOwn_holds kept, visited]),
      kept.flatten _ (by simp [setOwn_holds kept, visited, visitedProperties]),
      List.forall_mem_nil _⟩
  have definition : ∀ tree ∈ context.typeDataDefinition, rule.Holds tree.visited := by
    unfold typeDataDefinition
    split
    · simpa [visited, visitedAll, visitedOption, Tree.visitedName, rule.holds_visitedAll,
        constructor] using methods
    · simpa [visited, constructor, kept.assign_inner] using methods
  have name : rule.Holds (visited (.varRef context.typeDataName)) := by simp [visited]
  have root := classTypeData_holds name .root false [.root]
  refine List.forall_mem_append.2 ⟨List.forall_mem_append.2 ⟨?_, ?_⟩, ?_⟩
  · simp [bootstrap, castFailure, hostRef, visited, visitedAll]
  · exact List.forall_mem_append.2 ⟨definition, by
      simp [rootSupport, visited, visitedOption, root]⟩
  · simp [bootstrap, Lowering.primitiveTypes, primitiveTypeData, visited, visitedAll, visitedOption]

/-- The link of the root class to its type data is as the rule allows. -/
theorem rootTypeDataLink_holds : rule.Holds context.rootTypeDataLink.visited := by
  simp [rootTypeDataLink, visited, kept.assign_inner]

omit kept in
/-- Imports are as the rule allows. -/
theorem imports_hold (unit : Module) :
    ∀ tree ∈ (context.imports unit).value, rule.Holds tree.visited := by
  unfold imports
  split
  · exact List.forall_mem_nil _
  · simp only [Tracked.mapM_value]
    refine List.forall_mem_map.2 (fun binding _ => ?_)
    unfold importStatement
    split <;> simp [visited, visitedAll, visitedOption, hostRef]

/-- Exports of modules that are loaded by the host are properties of its own object. -/
theorem assign_exports (name : String) (value : Tree) :
    rule.assign (context.propSelect (.varRef "exports") name) value := by
  refine kept.assign _ value (fun other found => ?_)
  rw [propSelect_selectedFrom?] at found
  obtain rfl := Option.some.inj found
  decide

/-- An export is as the rule allows if its body is. -/
theorem topLevelExport_holds {entry : TopLevelExport}
    (hold : ∀ body ∈ entry.kind.bodies, context.BodyHolds rule body) :
    ∀ tree ∈ (context.topLevelExport entry).value, rule.Holds tree.visited := by
  have value : (∀ tree ∈ (context.exportValue entry).value.1, rule.Holds tree.visited) ∧
      rule.Holds (context.exportValue entry).value.2.visited := by
    unfold exportValue
    cases kind : entry.kind with
    | method params body =>
      have tree := (hold body (by simp [kind, ExportKind.bodies])).plain
      simp [visited, tree]
    | _ => simp [visited, visitedAll]
  obtain ⟨before, value⟩ := value
  have exported (binding : String) : ∀ tree ∈ moduleExport binding entry.name
      (context.exportValue entry).value.2, rule.Holds tree.visited := by
    unfold moduleExport
    split <;> simp [visited, visitedOption, value]
  unfold topLevelExport
  cases context.config.moduleKind with
  | esModule => exact List.forall_mem_append.2 ⟨before, exported _⟩
  | commonJs =>
    refine List.forall_mem_append.2 ⟨before, List.forall_mem_singleton.2 ?_⟩
    simp [visited, hostRef, assign_exports kept, value]
  | script =>
    refine List.forall_mem_append.2 ⟨before, List.forall_mem_singleton.2 ?_⟩
    simp [visited, visitedOption, value]

/-- Exports are as the rule allows if their bodies are. -/
theorem topLevelExports_hold {entries : List TopLevelExport}
    (hold : ∀ body ∈ entries.flatMap (fun entry => entry.kind.bodies),
      context.BodyHolds rule body) :
    ∀ tree ∈ (context.topLevelExports entries).value, rule.Holds tree.visited := by
  simp only [topLevelExports, Tracked.map_value', Tracked.mapM_value]
  refine List.forall_mem_flatten.2 (List.forall_mem_map.2 (fun entry there => ?_))
  exact topLevelExport_holds kept
    (fun body found => hold body (List.mem_flatMap.2 ⟨entry, there, found⟩))

omit kept in
/-- Calls of initializers are as the rule allows. -/
theorem moduleInitializers_hold (calls : List Initializer) :
    ∀ tree ∈ context.moduleInitializers calls, rule.Holds tree.visited := by
  simp [moduleInitializers, visited, visitedAll]

/-- Exports of internal names are as the rule allows. -/
theorem internalExports_hold (names : List String) :
    ∀ tree ∈ (context.internalExports names).value, rule.Holds tree.visited := by
  unfold internalExports
  split
  · exact List.forall_mem_nil _
  · cases context.config.moduleKind <;> simp [visited, hostRef, assign_exports kept]

end Modules

end Lowering.Context

/-- Whether a value of a kind is as a rule allows. -/
def PieceKind.Holds (rule : NodeRule) : (kind : PieceKind) → kind.Value → Prop
  | .tree, code => rule.Holds code.visited
  | .trees, code => ∀ tree ∈ (code : List Tree), rule.Holds tree.visited
  | .ctor, parts => Context.ConstructorHolds rule parts
  | .library, parts =>
    ∀ tree ∈ Bootstrap.trees parts, rule.Holds tree.visited

/-- All that a piece is lowered from: its bodies, and what its class extends. -/
def Piece.lowered : {kind : PieceKind} → Piece kind → List Expr
  | _, .function _ linked method | _, .member _ linked method =>
    method.body :: linked.jsSuperClass?.toList
  | _, .jsConstructor _ linked ctor =>
    linked.jsSuperClass?.toList ++ (ctor.beforeSuper ++ ctor.superArgs ++ ctor.afterSuper)
  | _, .plainConstructor site linked =>
    linked.jsSuperClass?.toList ++ (HostNames.inlinedBody? site.index linked).toList
  | _, .exportedMember _ linked entry => linked.jsSuperClass?.toList ++ entry.bodies
  | _, .topLevelExports _ entries => entries.flatMap (fun entry => entry.kind.bodies)
  | _, .bridge .. | _, .shell .. | _, .imports .. | _, .initializers .. | _, .library _ => []

section Outputs

variable (setting : Setting) (naming : Naming) (rule : NodeRule)

/-- Whether all that a piece is lowered from is as a rule allows. -/
def Piece.BodiesHold {kind : PieceKind} (piece : Piece kind) : Prop :=
  ∀ body ∈ piece.lowered, (setting.context naming piece.site).BodyHolds rule body

/-- Whether all that a class definition is lowered from is as a rule allows. -/
structure Definition.BodiesHold (definition : Definition) : Prop where
  ctor : definition.ctor.BodiesHold setting naming rule
  members : ∀ piece ∈ definition.members, piece.BodiesHold setting naming rule
  exported : ∀ piece ∈ definition.exported, piece.BodiesHold setting naming rule

/-- Whether all that a class is lowered from is as a rule allows. -/
structure ClassPieces.BodiesHold (pieces : ClassPieces) : Prop where
  functions : ∀ piece ∈ pieces.functions, piece.BodiesHold setting naming rule
  definition : ∀ definition ∈ pieces.definition?, definition.BodiesHold setting naming rule
  shell : ∀ part, ∀ piece ∈ pieces.shell part, piece.BodiesHold setting naming rule

/-- Whether all that a module is lowered from is as a rule allows. -/
structure ModulePieces.BodiesHold (pieces : ModulePieces) : Prop where
  imports : pieces.imports.BodiesHold setting naming rule
  classes : ∀ classPieces ∈ pieces.classes, classPieces.BodiesHold setting naming rule
  topLevelExports : pieces.topLevelExports.BodiesHold setting naming rule
  initializers : pieces.initializers.BodiesHold setting naming rule

variable {setting naming rule} (kept : rule.Kept)

include kept

/-- The code of a piece is as a rule allows if all that it is lowered from is. -/
theorem Piece.BodiesHold.run_holds {kind : PieceKind} {piece : Piece kind}
    (hold : piece.BodiesHold setting naming rule) :
    kind.Holds rule (piece.run setting naming).value := by
  have extended {linked : LinkedClass} (among : linked.jsSuperClass?.toList ⊆ piece.lowered) :
      ∀ body ∈ linked.jsSuperClass?, (setting.context naming piece.site).BodyHolds rule body :=
    fun body found => hold body (among (Option.mem_toList.2 found))
  cases piece with
  | function site linked method =>
    exact Context.freeFunction_holds (extended (List.subset_cons_self _ _)) kept
      (hold _ List.mem_cons_self)
  | member site linked method =>
    exact Context.memberMethod_holds (extended (List.subset_cons_self _ _)) kept
      (hold _ List.mem_cons_self)
  | bridge site method => exact Context.bridge_holds method
  | jsConstructor site linked ctor =>
    exact Context.jsConstructorParts_holds (extended (List.subset_append_left _ _)) kept
      (fun body found => hold body (List.mem_append_right _ found))
  | plainConstructor site linked =>
    exact Context.plainConstructorParts_holds (extended (List.subset_append_left _ _)) kept
      (fun body found => hold body (List.mem_append_right _ (Option.mem_toList.2 found)))
  | exportedMember site linked entry =>
    exact Context.exportedMember_holds (extended (List.subset_append_left _ _)) kept
      (fun body found => hold body (List.mem_append_right _ found))
  | shell site linked part => exact Context.shellTrees_holds kept linked part
  | imports site unit => exact Context.imports_hold unit
  | topLevelExports site entries => exact Context.topLevelExports_hold kept hold
  | initializers site calls => exact Context.moduleInitializers_hold calls
  | library site => exact Context.bootstrap_holds kept

/-- A class definition is as the rule allows if its bodies are. -/
theorem Definition.BodiesHold.run_holds {definition : Definition}
    (hold : definition.BodiesHold setting naming rule) :
    ∀ tree ∈ (definition.run setting naming).value, rule.Holds tree.visited :=
  Context.fullClass_holds kept (hold.ctor.run_holds kept)
    (List.forall_mem_map.2 (fun piece found => (hold.members piece found).run_holds kept))
    (List.forall_mem_map.2 (fun piece found => (hold.exported piece found).run_holds kept))

/-- The trees of a class are as the rule allows if its bodies are. -/
theorem ClassPieces.BodiesHold.fragments_hold {pieces : ClassPieces}
    (hold : pieces.BodiesHold setting naming rule) :
    ∀ tree ∈ (pieces.fragments setting naming).value.trees, rule.Holds tree.visited := by
  have functions : ∀ tree ∈ pieces.functions.map (fun piece => (piece.run setting naming).value),
      rule.Holds tree.visited :=
    List.forall_mem_map.2 (fun piece found => (hold.functions piece found).run_holds kept)
  have definition : ∀ tree ∈ (pieces.definitionTrees setting naming).value,
      rule.Holds tree.visited := by
    unfold definitionTrees
    cases there : pieces.definition? with
    | none => exact List.forall_mem_nil _
    | some definition => exact (hold.definition definition there).run_holds kept
  have shell : ∀ part, ∀ tree ∈ (pieces.shellTrees setting naming part).value,
      rule.Holds tree.visited := by
    intro part
    unfold shellTrees
    cases there : pieces.shell part with
    | none => exact List.forall_mem_nil _
    | some piece => exact (hold.shell part piece there).run_holds kept
  refine List.forall_mem_append.2 ⟨List.forall_mem_append.2 ⟨List.forall_mem_append.2 ⟨?_,
    List.forall_mem_append.2 ⟨shell .instanceTests, shell .typeData⟩⟩, shell .staticFields⟩,
    shell .staticInitializers⟩
  refine List.forall_mem_append.2 ⟨List.forall_mem_append.2 ⟨?_, definition⟩,
    shell .moduleAccessor⟩
  simpa using functions

namespace ModulePieces.BodiesHold

variable {pieces : ModulePieces} (hold : pieces.BodiesHold setting naming rule)

include hold

/-- The statements of a module are as the rule allows if its bodies are. -/
theorem statements_hold :
    ∀ tree ∈ pieces.statements setting naming, rule.Holds tree.visited := by
  intro tree found
  rcases Emission.of_mem_classStatements found with
    ⟨library, there, here⟩ | rfl | ⟨fragments, there, here⟩
  · unfold ModulePieces.library at there
    cases given : pieces.library? with
    | none =>
      rw [given] at there
      cases there
    | some piece =>
      rw [given] at there
      cases piece with
      | library site =>
        cases there
        exact Context.bootstrap_holds kept tree here
  · exact Context.rootTypeDataLink_holds kept
  · rw [pieces.fragments_value] at there
    obtain ⟨classPieces, among, rfl⟩ := List.mem_map.1 there
    exact (hold.classes classPieces among).fragments_hold kept tree here

/-- The output of a module is as a rule allows if all that the module is lowered from is. -/
theorem output_holds : rule.Holds (visitedAll (pieces.output setting naming).trees) := by
  have internal : ∀ tree ∈ (pieces.internalExports setting naming).value,
      rule.Holds tree.visited := by
    unfold internalExports Emission.emitInternalExports
    split
    · exact Context.internalExports_hold kept _
    · exact List.forall_mem_nil _
  refine rule.holds_visitedAll.2 (List.forall_mem_append.2 ⟨hold.imports.run_holds kept, ?_⟩)
  exact List.forall_mem_append.2 ⟨List.forall_mem_append.2 ⟨List.forall_mem_append.2
    ⟨hold.statements_hold kept, internal⟩, hold.topLevelExports.run_holds kept⟩,
    hold.initializers.run_holds kept⟩

end ModulePieces.BodiesHold

end Outputs

/-- The bodies of a module: those of its classes, and those of the functions that it exports. -/
def Module.bodies (unit : Module) : List Expr :=
  unit.classes.flatMap LinkedClass.bodies ++
    unit.topLevelExports.flatMap (fun entry => entry.kind.bodies)

section FirstRuns

variable {setting : Setting} {program : Program} {unit : Module} {linked : LinkedClass}
  {naming : Naming} {rule : NodeRule}

section Classes

variable (checked : program.Checked) (placed : unit ∈ program.modules)
  (there : linked ∈ unit.classes)
  (hold : ∀ body ∈ linked.bodies,
    (setting.context naming (program.site unit)).BodyHolds rule body)

include hold

/-- What a foreign class extends is as the rule allows. -/
theorem LinkedClass.jsSuperClass_holds : ∀ body ∈ linked.jsSuperClass?.toList,
    (setting.context naming (program.site unit)).BodyHolds rule body :=
  fun body found => hold body (mem_bodies_of_jsSuperClass (Option.mem_toList.1 found))

/-- The bodies of the constructor of a class are as the rule allows. -/
theorem Site.constructor?_bodiesHold {piece : Piece .ctor}
    (made : (program.site unit).constructor? linked = .ok piece) :
    piece.BodiesHold setting naming rule := by
  have extended := LinkedClass.jsSuperClass_holds hold
  unfold constructor? at made
  split at made
  · cases ctor? : linked.jsConstructor? with
    | none =>
      rw [ctor?] at made
      cases made
    | some ctor =>
      rw [ctor?] at made
      cases made
      exact List.forall_mem_append.2 ⟨extended,
        fun body found => hold body (LinkedClass.mem_bodies_of_jsConstructor ctor? found)⟩
  · cases made
    exact List.forall_mem_append.2 ⟨extended, fun body found =>
      hold body (LinkedClass.mem_bodies_of_inlinedBody (Option.mem_toList.1 found))⟩

include checked placed there

/-- The bodies of a class definition are as the rule allows. -/
theorem Definition.MadeFor.bodiesHold {definition : Definition}
    (made : definition.MadeFor setting [program] (program.site unit) linked) :
    definition.BodiesHold setting naming rule where
  ctor := Site.constructor?_bodiesHold hold (Requested.own_ctor checked placed there made.ctor)
  members := by
    intro piece found
    rcases made.of_mem_members checked placed there found with ⟨method, own, rfl⟩ | ⟨method, rfl⟩
    · exact List.forall_mem_cons.2 ⟨hold _ (LinkedClass.mem_bodies_of_method own),
        LinkedClass.jsSuperClass_holds hold⟩
    · exact List.forall_mem_nil _
  exported := by
    intro piece found
    obtain ⟨member, own, rfl⟩ := made.of_mem_exported checked placed there found
    exact List.forall_mem_append.2 ⟨LinkedClass.jsSuperClass_holds hold,
      fun body found => hold body (LinkedClass.mem_bodies_of_exportedMember own found)⟩

/-- In a first run a class is lowered from its own bodies. -/
theorem ClassPieces.MadeFor.bodiesHold {pieces : ClassPieces}
    (made : pieces.MadeFor setting [program] (program.site unit) linked) :
    pieces.BodiesHold setting naming rule where
  functions := by
    intro piece found
    obtain ⟨method, -, served⟩ := exists_of_forall₂ made.functions found
    obtain ⟨own, requested, -, -, rfl⟩ := served.requested.own_function checked placed there
    exact List.forall_mem_cons.2 ⟨hold _ (LinkedClass.mem_bodies_of_method
      ((linked.requestedFunctions_sublist _).mem requested)), LinkedClass.jsSuperClass_holds hold⟩
  definition := by
    intro definition found
    cases defined : linked.needsDefinition with
    | false =>
      rw [made.undefined defined] at found
      cases found
    | true =>
      obtain ⟨other, same, definitionMade⟩ := made.defined defined
      obtain rfl : other = definition := Option.some.inj (same.symm.trans found)
      exact definitionMade.bodiesHold checked placed there hold
  shell := by
    intro part piece found
    rw [made.shell_eq checked placed there] at found
    split at found
    · cases found
      exact List.forall_mem_nil _
    · cases found

end Classes

/-- In a first run a module is lowered from its own bodies, so its output is as a rule allows if
they are. -/
theorem ModulePieces.MadeFor.output_holds {pieces : ModulePieces} (kept : rule.Kept)
    (checked : program.Checked) (placed : unit ∈ program.modules)
    (made : pieces.MadeFor setting [program] program unit)
    (hold : ∀ body ∈ unit.bodies,
      (setting.context naming (program.site unit)).BodyHolds rule body) :
    rule.Holds (visitedAll (pieces.output setting naming).trees) := by
  have bodies : pieces.BodiesHold setting naming rule := by
    refine ⟨?_, fun classPieces found => ?_, ?_, ?_⟩
    · rw [made.imports.requested.own_imports checked placed]
      exact List.forall_mem_nil _
    · obtain ⟨linked, ordered, classMade⟩ := exists_of_forall₂ made.classes found
      have there := Module.mem_emissionOrder.1 ordered
      exact classMade.bodiesHold checked placed there (fun body inner =>
        hold body (List.mem_append_left _ (List.mem_flatMap.2 ⟨linked, there, inner⟩)))
    · rw [made.topLevelExports.requested.own_topLevelExports checked placed]
      exact fun body found => hold body (List.mem_append_right _ found)
    · rw [made.initializers.requested.own_initializers checked placed]
      exact List.forall_mem_nil _
  exact bodies.output_holds kept

end FirstRuns

end JsEmitter
