import JsEmitter.Proofs.EmittedBodies
import JsEmitter.Proofs.ModuleAccount
import JsEmitter.Proofs.TreeFunctions

/-!
# Parameters that generation adds

Most functions of generated code have the parameters that the program gives them. Some have others
before these, under names that are constants of the generators: the receiver of a method that is a
free function, the arguments of a bridge, and the parameters of instance tests, casts and of the
bootstrap library. The naming scheme has no say in them, so it does not keep them apart from the
host names that it avoids. They are apart from these where the code in their scope takes nothing
from the host that could be meant; only the receiver has a body of the program in its scope.
-/
namespace JsEmitter

open Js (Tree FunctionNode)
open Js.Tree (visited visitedAll visitedOption visitedProperties functions functions_visitedAll)
open Lowering (Context Scope ConstructorParts Bootstrap receiverParam)

/-- A function of generated code, as it is read off the program. -/
inductive WrittenFunction where
  /-- One that has only the parameters that the program gives it. -/
  | fromProgram (params : List String)
  /-- One that has a receiver before these, with the names that its body takes from the host and the
  local variables that it reads or assigns. -/
  | withReceiver (params hosts locals : List String)
  /-- One that the program has no part in: none of its parameters is a name that its body takes from
  the host. -/
  | helper (own hosts : List String) (apart : ∀ name ∈ own, name ∉ hosts)

namespace WrittenFunction

/-- The parameters that generation adds to the function. -/
def own : WrittenFunction → List String
  | fromProgram _ => []
  | withReceiver _ _ _ => [receiverParam]
  | helper own _ _ => own

/-- The parameters that the program gives the function. -/
def params : WrittenFunction → List String
  | fromProgram params | withReceiver params _ _ => params
  | helper _ _ _ => []

/-- The names that are taken from the host in the scope of the parameters that generation adds. -/
def hosts : WrittenFunction → List String
  | fromProgram _ => []
  | withReceiver _ hosts _ | helper _ hosts _ => hosts

/-- Whether a variable in the scope of the parameters that generation adds is one of them, or taken
from the host, or a local variable of the program. -/
def Knows : WrittenFunction → String → Prop
  | fromProgram _, _ => True
  | withReceiver _ hosts locals, name => name = receiverParam ∨ name ∈ hosts ∨ name ∈ locals
  | helper own hosts _, name => name ∈ own ∨ name ∈ hosts

/-- Whether a function of generated code is as it is read off the program. It has these parameters;
its body refers to all names that are taken from the host in the scope of the added ones, and among
the names that the naming scheme avoids to no others that are not known. -/
structure Describes (naming : Naming) (written : WrittenFunction) (node : FunctionNode) : Prop where
  params : node.params = written.own ++ written.params
  hosts : ∀ name ∈ written.hosts, node.body.references name = true
  known : node.body.Within (fun name => name ∈ naming.assumed → written.Knows name)

section Describes

variable {naming : Naming} {node : FunctionNode}

/-- A function that has only parameters of the program is described by these. -/
@[simp] theorem describes_fromProgram {params : List String} :
    (fromProgram params).Describes naming node ↔ node.params = params :=
  ⟨fun same => same.params,
    fun same => ⟨same, List.forall_mem_nil _, fun _ _ _ => trivial⟩⟩

/-- A function of generation alone is described by its parameters and by the host names in its
body. -/
@[simp] theorem describes_helper {own hosts : List String} {apart : ∀ name ∈ own, name ∉ hosts} :
    (helper own hosts apart).Describes naming node ↔
      node.params = own ∧ (∀ name ∈ hosts, node.body.references name = true) ∧
        node.body.Within (fun name => name ∈ naming.assumed → name ∈ own ∨ name ∈ hosts) :=
  ⟨fun same => ⟨same.params.trans (List.append_nil own), same.hosts, same.known⟩,
    fun same => ⟨same.1.trans (List.append_nil own).symm, same.2.1, same.2.2⟩⟩

end Describes

/-- Whether a parameter that generation adds to the function has a name that is avoided and that the
body takes from the host. -/
def Captures (naming : Naming) (written : WrittenFunction) : Prop :=
  ∃ name ∈ written.own, name ∈ naming.assumed ∧ name ∈ written.hosts

/-- Whether the function has a receiver, and its body takes the name of this parameter from the
host. -/
def TakesReceiver : WrittenFunction → Prop
  | withReceiver _ hosts _ => receiverParam ∈ hosts
  | fromProgram _ | helper _ _ _ => False

/-- Only a receiver can capture a name, and it does so if its own name is avoided and taken from the
host. -/
theorem captures_iff {naming : Naming} (written : WrittenFunction) :
    written.Captures naming ↔ receiverParam ∈ naming.assumed ∧ written.TakesReceiver := by
  cases written with
  | fromProgram params => simp [Captures, TakesReceiver, own]
  | withReceiver params hosts locals => simp [Captures, TakesReceiver, own, WrittenFunction.hosts]
  | helper own hosts apart =>
    simp only [TakesReceiver, and_false, iff_false]
    rintro ⟨name, mine, -, taken⟩
    exact apart name mine taken

/-- Whether the functions that a walk meets are, in this order, as they are read off the program. -/
def Account (naming : Naming) (written : List WrittenFunction) (visits : List Tree) : Prop :=
  List.Forall₂ (Describes naming) written (functions visits)

variable {naming : Naming}

/-- Where there is no function, nothing is to be accounted for. -/
theorem Account.nil {visits : List Tree} (none : functions visits = []) :
    Account naming [] visits := by
  rw [Account, none]
  exact .nil

/-- Accounts of two lists of trees join to one of their concatenation. -/
theorem Account.append {left right : List WrittenFunction} {leftTrees rightTrees : List Tree}
    (first : Account naming left (visitedAll leftTrees))
    (second : Account naming right (visitedAll rightTrees)) :
    Account naming (left ++ right) (visitedAll (leftTrees ++ rightTrees)) := by
  rw [Account, Js.Tree.functions_visitedAll_append]
  exact List.rel_append first second

/-- Statements without a function leave the account as it is. -/
theorem Account.append_none {written : List WrittenFunction} {trees others : List Tree}
    (first : Account naming written (visitedAll trees))
    (none : functions (visitedAll others) = []) :
    Account naming written (visitedAll (trees ++ others)) := by
  simpa using first.append (.nil none)

/-- Accounts of the trees for each item join to one of the trees for all items. -/
theorem Account.flatMap {α : Type} {items : List α} {written : α → List WrittenFunction}
    {trees : α → List Tree}
    (each : ∀ item ∈ items, Account naming (written item) (visitedAll (trees item))) :
    Account naming (items.flatMap written) (visitedAll (items.flatMap trees)) := by
  induction items with
  | nil => exact .nil rfl
  | cons head rest ih =>
    exact (each head List.mem_cons_self).append
      (ih (fun item found => each item (List.mem_cons_of_mem _ found)))

/-- The account of a tree is that of the list with this tree alone. -/
theorem Account.single {written : List WrittenFunction} {tree : Tree}
    (one : Account naming written tree.visited) : Account naming written (visitedAll [tree]) := by
  simpa [Account, visitedAll] using one

end WrittenFunction

open WrittenFunction

/-- The names that the body of a method as a free function takes from the host, also where it calls
what its class extends. -/
def HostNames.inFreeFunction (config : Config) (index : ClassIndex) (linked : LinkedClass)
    (method : MethodDef) : List String :=
  ofExpr config index method.body ++
    if method.body.callsSuper then ofParent config index linked else []

/-- The local variables that the body of a method as a free function reads or assigns, also where it
calls what its class extends. -/
def MethodDef.functionLocals (method : MethodDef) (linked : LinkedClass) : List String :=
  method.body.locals ++ if method.body.callsSuper then linked.parentLocals else []

/-- The free function of a method. It has the receiver as parameter if the method has one. -/
def WrittenFunction.ofFreeFunction (config : Config) (index : ClassIndex) (linked : LinkedClass)
    (method : MethodDef) : WrittenFunction :=
  if method.home.isStatic then .fromProgram method.params
  else .withReceiver method.params (HostNames.inFreeFunction config index linked method)
    (method.functionLocals linked)

/-- The functions of an exported member. -/
def ExportedMember.writtenFunctions : ExportedMember → List WrittenFunction
  | method _ _ params _ => [.fromProgram params]
  | property _ _ getter? setter? =>
    (getter?.map (fun _ => .fromProgram [])).toList ++
      (setter?.map (fun setter => .fromProgram [setter.1])).toList

/-- The function of an export, if it is one. -/
def ExportKind.writtenFunctions : ExportKind → List WrittenFunction
  | method params _ => [.fromProgram params]
  | singleton _ | jsClass _ | field _ _ => []

/-- The functions of a piece of a class that depends on it alone. -/
def ShellPart.writtenFunctions : ShellPart → List WrittenFunction
  | moduleAccessor => [.fromProgram []]
  | instanceTests => [.helper ["x"] [] (by simp), .helper ["x"] [] (by simp)]
  | typeData | staticFields | staticInitializers => []

namespace Piece

/-- The functions of a piece that is not the bootstrap library. -/
def writtenFunctions (config : Config) : {kind : PieceKind} → Piece kind → List WrittenFunction
  | _, .function site linked method => [.ofFreeFunction config site.index linked method]
  | _, .member _ _ method => [.fromProgram method.params]
  | _, .bridge _ _ => [.helper ["args"] [] (by simp)]
  | _, .exportedMember _ _ entry => entry.writtenFunctions
  | _, .shell _ _ part => part.writtenFunctions
  | _, .topLevelExports _ entries => entries.flatMap (fun entry => entry.kind.writtenFunctions)
  | _, .jsConstructor .. | _, .plainConstructor .. | _, .imports .. | _, .initializers ..
  | _, .library _ => []

/-- The parameters of a constructor. -/
def params : Piece .ctor → List String
  | .jsConstructor _ _ ctor => ctor.params
  | .plainConstructor site linked =>
    let inlined? :=
      if site.index.inlinesConstructor linked.name then linked.constructors.head? else none
    (inlined?.map (fun ctor => ctor.value.params)).getD []

end Piece

namespace WrittenFunction

/-- The function of the bootstrap library that reports failed casts. -/
def ofCastFailure : List WrittenFunction :=
  [.helper ["instance", "classFullName"] ["TypeError"] (by decide)]

/-- The functions of type data, and the instance test and the cast of the root class. -/
def ofTypeData : List WrittenFunction :=
  .fromProgram [] ::
    Lowering.typeDataMethods.map (fun method => .helper method.params [] (by simp)) ++
    [.helper ["x"] [] (by simp), .helper ["x"] [] (by simp)]

end WrittenFunction

/-- The zero value of a type holds no function. -/
@[simp] theorem Lowering.zeroValue_functions (type : FieldType) :
    functions (zeroValue type).visited = [] := by
  cases type <;> rfl

namespace Lowering.Context

open HostNames

variable (context : Context)

/-- The names that the body of a free function takes from the host are referred to by its tree. -/
theorem functionScope_references {linked : LinkedClass} {method : MethodDef} {name : String}
    (found : name ∈ inFreeFunction context.config context.index linked method) :
    (context.lower (context.functionScope linked method.home) method.body).value.references name =
      true := by
  rcases List.mem_append.1 found with found | found
  · exact context.lower_references _ found
  · split at found
    · next calls =>
      obtain ⟨parent, given, refers⟩ := context.parentRef_references found
      exact context.lower_references_parent given rfl calls refers
    · cases found

/-- Names of definitions are not avoided, so they are among names of which only avoided ones are
restricted. -/
theorem lends_of_assumed (known : String → Prop) :
    context.Lends (fun name => name ∈ context.naming.assumed → known name) where
  single _ _ _ avoided := absurd avoided (context.naming.avoidClash_free _)
  member _ _ _ avoided := absurd avoided (context.naming.avoidClash_free _)
  root _ _ _ avoided := absurd avoided (context.naming.avoidClash_free _)

/-- The local name of a module is not among the avoided names, so code may refer to every module. -/
theorem reaches_of_assumed (known : String → Prop) (owner : ClassName) :
    context.Reaches (fun name => name ∈ context.naming.assumed → known name) owner :=
  fun _ _ _ avoided => absurd avoided (context.naming.avoidClash_free _)

/-- A body that makes no super calls is lowered alike whatever the parent is. -/
theorem lower_without_parent (scope : Scope) {body : Expr} (none : body.callsSuper = false) :
    context.lower { scope with parent? := .none } body = context.lower scope body :=
  @lower_reindex context context.index scope { scope with parent? := .none } rfl body
    (fun _ _ => ⟨⟨rfl, rfl, rfl, rfl⟩, fun _ => rfl⟩) (fun calls => absurd calls (by simp [none]))

/-- The body of a free function refers to the receiver, to names that it takes from the host and to
local variables; other variables have names that are not avoided. -/
theorem functionScope_within (linked : LinkedClass) (method : MethodDef) :
    (context.lower (context.functionScope linked method.home) method.body).value.Within
      (fun name => name ∈ context.naming.assumed → name = receiverParam ∨
        name ∈ inFreeFunction context.config context.index linked method ∨
        name ∈ method.functionLocals linked) := by
  let known (name : String) : Prop := name = receiverParam ∨
    name ∈ inFreeFunction context.config context.index linked method ∨
    name ∈ method.functionLocals linked
  have lends := context.lends_of_assumed known
  have reached := context.reaches_of_assumed known
  have receiver : (context.functionScope linked method.home).receiver.Within
      (fun name => name ∈ context.naming.assumed → known name) := by
    unfold functionScope
    cases method.home.isStatic
    · exact Tree.within_varRef.2 (fun _ => .inl rfl)
    · exact Tree.within_this
  have taken : ∀ name ∈ ofExpr context.config context.index method.body,
      name ∈ context.naming.assumed → known name :=
    fun name found _ => .inr (.inl (List.mem_append_left _ found))
  have written : ∀ name ∈ method.body.locals, name ∈ context.naming.assumed → known name :=
    fun name found _ => .inr (.inr (List.mem_append_left _ found))
  cases calls : method.body.callsSuper with
  | false =>
    have inside : context.ScopeWithin (fun name => name ∈ context.naming.assumed → known name)
        { context.functionScope linked method.home with parent? := none } :=
      ⟨receiver, by simp, reached _⟩
    rw [← context.lower_without_parent _ calls]
    exact lower_within lends inside method.body
      (fun owner _ => reached owner) taken written
  | true =>
    have parent : ∀ parent ∈ (context.parentRef linked).value,
        parent.Within (fun name => name ∈ context.naming.assumed → known name) := by
      refine parentTree_within lends (fun owner _ => reached owner) (fun name found _ => ?_)
        (fun name found _ => ?_)
      · exact .inr (.inl (List.mem_append_right _ (by simpa [calls] using found)))
      · exact .inr (.inr (List.mem_append_right _ (by simpa [calls] using found)))
    exact lower_within lends ⟨receiver, parent, reached _⟩ method.body
      (fun owner _ => reached owner) taken written

/-- What a free function refers to without naming it holds no function. -/
theorem functionScope_plain (linked : LinkedClass) (home : MemberNamespace) :
    ScopePlain (context.functionScope linked home) where
  receiver := by
    unfold functionScope
    cases home.isStatic <;> rfl
  parent := context.parentRef_functions

/-- What a member refers to without naming it holds no function. -/
theorem memberScope_plain (linked : LinkedClass) :
    ScopePlain (context.memberScope linked).value :=
  ⟨rfl, context.parentRef_functions⟩

/-- What code outside of methods refers to without naming it holds no function. -/
theorem plain_plain : ScopePlain .plain := ⟨rfl, by simp [Scope.plain]⟩

/-- A free function holds itself alone, as it is read off the method. -/
theorem freeFunction_account (linked : LinkedClass) (method : MethodDef) :
    Account context.naming [.ofFreeFunction context.config context.index linked method]
      (context.freeFunction linked method).value.visited := by
  let code := (context.lower (context.functionScope linked method.home) method.body).value
  let result : List Tree :=
    if method.home = .constructor then [.ret (.varRef receiverParam)] else []
  have shape : (context.freeFunction linked method).value =
      .functionDef (context.naming.freeFunction method.home linked.name method.name)
        (if method.home.isStatic then method.params else receiverParam :: method.params) none
        (.ofStatements (code :: result)) := rfl
  have none : functions (visitedAll (code :: result)) = [] := by
    have body : functions code.visited = [] :=
      context.lower_functions (context.functionScope_plain linked method.home) method.body
    have returned : functions (visitedAll result) = [] := by
      unfold result
      split <;> rfl
    simp [visitedAll, body, returned]
  have refers : ∀ name ∈ inFreeFunction context.config context.index linked method,
      (Tree.ofStatements (code :: result)).references name = true := by
    intro name found
    have inner := Tree.references_iff.1 (context.functionScope_references found)
    exact Tree.references_iff.2 (Tree.mem_visited_ofStatements rfl
      (Tree.mem_visitedAll.2 ⟨code, List.mem_cons_self, inner⟩))
  have known : (Tree.ofStatements (code :: result)).Within (fun name =>
      name ∈ context.naming.assumed → name = receiverParam ∨
        name ∈ inFreeFunction context.config context.index linked method ∨
        name ∈ method.functionLocals linked) := by
    refine Tree.within_ofStatements.2 (List.forall_mem_cons.2
      ⟨context.functionScope_within linked method, ?_⟩)
    unfold result
    split <;> simp
  rw [shape]
  simp only [Account, visited, Tree.functions_cons, Tree.functions_ofStatements, none,
    Tree.function?, Option.toList, List.append_nil]
  refine .cons ?_ .nil
  unfold ofFreeFunction
  split
  · exact describes_fromProgram.2 rfl
  · exact ⟨rfl, refers, known⟩

/-- A member method holds itself alone, with the parameters that the program gives it. -/
theorem memberMethod_account (linked : LinkedClass) (method : MethodDef) :
    Account context.naming [.fromProgram method.params]
      (context.memberMethod linked method).value.visited := by
  have body := context.lower_functions (context.memberScope_plain linked) method.body
  have target : functions (context.memberTarget linked false).visited = [] := by
    simp [memberTarget, visited]
  simp only [memberMethod, Tracked.bind_value, Tracked.pure_value]
  split
  · simp [Account, visited, Tree.visitedName, body]
  · simp [Account, visited, body, target]

/-- A bridge holds itself alone, with the arguments as its parameter. -/
theorem bridge_account (method : MethodName) :
    Account context.naming [.helper ["args"] [] (by simp)]
      (context.bridge method).value.visited := by
  have root := classRef_within (context.lends_of_assumed (fun name => name = "args"))
    (context.reaches_of_assumed _ .root)
  simp [Account, bridge, visited, Tree.visitedName, visitedAll, root]

/-- An exported member holds the functions that are read off it. -/
theorem exportedMember_account (linked : LinkedClass) (member : ExportedMember) :
    Account context.naming member.writtenFunctions
      (visitedAll (context.exportedMember linked member).value) := by
  have none := context.lower_functions (context.memberScope_plain linked)
  have target (isStatic : Bool) :
      functions (context.memberTarget linked isStatic).visited = [] := by
    cases isStatic <;> simp [memberTarget, visited]
  have name (text : String) : Tree.visitedName (context.propName text) = [] := by
    unfold propName
    split <;> rfl
  cases member with
  | method text isStatic params body =>
    simp only [exportedMember, Tracked.bind_value, Tracked.pure_value, exportedMethod]
    split <;> simp [Account, visited, visitedAll, ExportedMember.writtenFunctions, none,
      target, name]
  | property text isStatic getter? setter? =>
    simp only [exportedMember, Tracked.bind_value]
    split <;> cases getter? <;> cases setter? <;>
      simp [Account, visited, visitedAll, ExportedMember.writtenFunctions, none, target,
        lowerGetter, lowerSetter, exportedAccessors, definedProperty, propertyDescriptor,
        visitedProperties, hostRef]

/-- New type data holds no function, if the reference to its constructor holds none. -/
theorem classTypeData_functions {constructor : Tree} (none : functions constructor.visited = [])
    (owner : ClassName) (isInterface : Bool) (ancestors : List ClassName) :
    functions (classTypeData constructor owner isInterface ancestors).visited = [] := by
  have properties : functions (visitedProperties
      (ancestors.map (fun ancestor => .mk (.ident ancestor.encoded) (.int 1)))) = [] := by
    induction ancestors with
    | nil => rfl
    | cons head rest ih => simpa [visitedProperties, visited] using ih
  simp [classTypeData, visited, visitedAll, none, properties]

/-- A part of a shell holds the functions that are read off it. -/
theorem shellTrees_account (linked : LinkedClass) (part : ShellPart) :
    Account context.naming part.writtenFunctions
      (visitedAll (shellTrees context linked part).value) := by
  cases part with
  | moduleAccessor =>
    simp [Account, shellTrees, moduleAccessor, visited, visitedAll, visitedOption,
      ShellPart.writtenFunctions]
  | instanceTests =>
    have accepted : functions (isInstanceExpr linked.name (.varRef "x")).visited = [] := by
      unfold isInstanceExpr
      split <;> rfl
    have within : (isInstanceExpr linked.name (.varRef "x")).Within
        (fun name => name ∈ context.naming.assumed → name = "x") := by
      unfold isInstanceExpr
      split <;> simp
    have test : context.naming.instanceTest linked.name ∉ context.naming.assumed :=
      context.naming.avoidClash_free _
    have failure : (context.bootstrapRef "throwClassCastException").Within
        (fun name => name ∈ context.naming.assumed → name = "x") :=
      rootModuleRef_within (context.lends_of_assumed _)
        (fun avoided => absurd avoided (context.naming.avoidClash_free _))
    simp [Account, shellTrees, Tracked.untracked, instanceTests, visited, visitedAll,
      ShellPart.writtenFunctions, accepted, within, test, failure]
  | typeData =>
    have value := classTypeData_functions (context.bootstrapRef_functions "TypeData") linked.name
      (linked.kind = .interface) linked.ancestors
    refine .nil ?_
    simp only [shellTrees, Tracked.untracked, typeData]
    split <;> simp [visited, visitedAll, visitedOption, value, memberTarget]
  | staticFields =>
    refine .nil ?_
    simp [shellTrees, Tracked.untracked, staticFields, functions_visitedAll, visited,
      visitedOption]
  | staticInitializers =>
    refine .nil ?_
    cases given : linked.staticInitializer? <;>
      simp [shellTrees, Tracked.untracked, staticInitializers, given, visited, visitedAll]

/-- Imports hold no function. -/
theorem imports_functions (unit : Module) :
    functions (visitedAll (context.imports unit).value) = [] := by
  have one (pair : String × String) :
      functions (context.importStatement pair.1 pair.2).value.visited = [] := by
    unfold importStatement
    cases context.config.moduleKind <;> rfl
  unfold imports
  split
  · rfl
  · rw [functions_visitedAll, Tracked.mapM_value, List.flatMap_eq_nil_iff]
    exact List.forall_mem_map.2 (fun pair _ => one pair)

/-- The statement that exports a binding holds the functions of the exported value. -/
theorem moduleExport_functions (binding name : String) (value : Tree) :
    functions (visitedAll (moduleExport binding name value)) = functions value.visited := by
  unfold moduleExport
  split <;> simp [visited, visitedAll, visitedOption]

/-- An export holds the functions that are read off it. -/
theorem topLevelExport_account (entry : TopLevelExport) :
    Account context.naming entry.kind.writtenFunctions
      (visitedAll (context.topLevelExport entry).value) := by
  have body := context.lower_functions plain_plain
  unfold topLevelExport exportValue
  cases entry.kind <;> cases context.config.moduleKind <;>
    simp [Account, ExportKind.writtenFunctions, moduleExport_functions, hostRef, visited,
      visitedAll, visitedOption, body]

/-- The exports of a module hold the functions that are read off them, in their order. -/
theorem topLevelExports_account (entries : List TopLevelExport) :
    Account context.naming (entries.flatMap (fun entry => entry.kind.writtenFunctions))
      (visitedAll (context.topLevelExports entries).value) := by
  have all := Account.flatMap
    (fun entry (_ : entry ∈ entries) => context.topLevelExport_account entry)
  simpa [topLevelExports, List.flatMap_def] using all

/-- Module initializers hold no function. -/
theorem moduleInitializers_functions (calls : List Initializer) :
    functions (visitedAll (context.moduleInitializers calls)) = [] := by
  simp [moduleInitializers, functions_visitedAll, visited, visitedAll, functionRef]

/-- The export of the internal names of a module holds no function. -/
theorem internalExports_functions (names : List String) :
    functions (visitedAll (context.internalExports names).value) = [] := by
  unfold internalExports
  split
  · rfl
  · cases context.config.moduleKind <;>
      simp [functions_visitedAll, visited, visitedAll, hostRef]

/-- Whether a constructor holds no function. -/
structure ConstructorPlain (parts : ConstructorParts) : Prop where
  parent : ∀ parent ∈ parts.parent?, functions parent.visited = []
  before : functions (visitedAll parts.beforeSuper) = []
  args : ∀ args ∈ parts.superArgs?, functions (visitedAll args) = []
  after : functions (visitedAll parts.afterSuper) = []

/-- Field initialisations hold no function. -/
theorem fieldInits_functions (linked : LinkedClass) :
    functions (visitedAll (fieldInits linked)) = [] := by
  simp [fieldInits, functions_visitedAll, visited]

/-- The constructor of a native class holds no function. -/
theorem jsConstructorParts_plain (linked : LinkedClass) (ctor : JsConstructorDef) :
    ConstructorPlain (context.jsConstructorParts linked ctor).value where
  parent := context.parentRef_functions
  before := context.lowerAll_functions (context.memberScope_plain linked) _
  args := by
    intro args found
    simp only [jsConstructorParts, Tracked.bind_value, Tracked.pure_value, superArgs] at found
    split at found
    · obtain rfl := Option.some.inj found
      exact context.lowerAll_functions (context.memberScope_plain linked) _
    · cases found
  after := by
    have body := context.lowerAll_functions (context.memberScope_plain linked) ctor.afterSuper
    simp [jsConstructorParts, fieldInits_functions, body]

/-- The constructor of an ordinary class holds no function. -/
theorem plainConstructorParts_plain (linked : LinkedClass) :
    ConstructorPlain (context.plainConstructorParts linked).value := by
  have body := context.lower_functions (context.memberScope_plain linked)
  have args (parent? : Option Tree) : ∀ args ∈ parent?.map (fun _ => ([] : List Tree)),
      functions (visitedAll args) = [] := by
    intro args found
    obtain ⟨parent, -, rfl⟩ := Option.map_eq_some_iff.1 found
    rfl
  unfold plainConstructorParts
  cases context.inlinedConstructor? linked with
  | none =>
    exact ⟨context.parentRef_functions, rfl, args _, by simp [fieldInits_functions]⟩
  | some ctor =>
    exact ⟨context.parentRef_functions, rfl, args _, by
      simp [fieldInits_functions, visitedAll, body]⟩

/-- A plain constructor has the parameters of the constructor that is part of it. -/
theorem plainConstructorParts_params (linked : LinkedClass) :
    (context.plainConstructorParts linked).value.params =
      ((context.inlinedConstructor? linked).map (fun ctor => ctor.value.params)).getD [] := by
  unfold plainConstructorParts
  cases context.inlinedConstructor? linked <;> rfl

/-- The body of a constructor holds no function, if the constructor and the call of its parent do
not. -/
theorem constructorBody_functions {parts : ConstructorParts} (plain : ConstructorPlain parts)
    {superCall : List Tree} (none : functions (visitedAll superCall) = []) :
    functions (Tree.ofStatements (parts.beforeSuper ++ superCall ++ parts.afterSuper)).visited =
      [] := by
  simp [plain.before, none, plain.after]

/-- The link to the prototype of the parent holds no function. -/
theorem prototypeLink_functions (linked : LinkedClass) (name : String) {parent? : Option Tree}
    (plain : ∀ parent ∈ parent?, functions parent.visited = []) :
    functions (visitedAll (context.prototypeLink linked name parent?).value) = [] := by
  cases parent? with
  | none => rfl
  | some parent =>
    have none := plain parent rfl
    have value : functions (context.prototypeValue linked parent).value.visited = [] := by
      unfold prototypeValue
      split
      · simp [hostRef, visited, visitedAll, none]
      · cases linked.superClass? <;> simp [visited, visitedAll, none, helperRef]
    simp [prototypeLink, visited, visitedAll, value]

/-- A class definition has the function of its constructor and those of its members. Without class
syntax an ordinary class also has the function that its subclasses inherit from. -/
theorem fullClass_account {linked : LinkedClass} {parts : ConstructorParts}
    (plain : ConstructorPlain parts) {written : List WrittenFunction} {members : List Tree}
    {exported : List (List Tree)}
    (all : Account context.naming written (visitedAll (members ++ exported.flatten))) :
    Account context.naming (.fromProgram parts.params ::
        (if context.config.classSyntax || linked.kind.isJsClass then [] else [.fromProgram []]) ++
          written)
      (visitedAll (context.fullClass linked parts members exported).value) := by
  unfold fullClass
  cases modern : context.config.classSyntax with
  | true =>
    have superCall : functions (visitedAll (parts.superArgs?.map (fun args =>
        Tree.apply .super args)).toList) = [] := by
      cases args? : parts.superArgs? with
      | none => rfl
      | some args => simpa [visited, visitedAll] using plain.args args args?
    have parent : functions (visitedOption parts.parent?) = [] := by
      cases parent? : parts.parent? with
      | none => rfl
      | some parent => exact plain.parent parent parent?
    have body := constructorBody_functions plain superCall
    simp only [List.append_assoc] at body
    rw [Account] at all ⊢
    simpa [classSyntaxDefinition, visited, visitedAll, Tree.visitedName, parent, body]
      using all
  | false =>
    have superCall : functions (visitedAll parts.superCall) = [] := by
      unfold ConstructorParts.superCall
      cases parent? : parts.parent? with
      | none => rfl
      | some parent =>
        cases args? : parts.superArgs? with
        | none => rfl
        | some args =>
          simp [visited, visitedAll, plain.parent parent parent?, plain.args args args?]
    have body := constructorBody_functions plain superCall
    have link := context.prototypeLink_functions linked
      (context.naming.classConstructor linked.name) plain.parent
    let name := context.naming.classConstructor linked.name
    have function : Account context.naming [.fromProgram parts.params]
        (visitedAll (.functionDef name parts.params none
            (.ofStatements (parts.beforeSuper ++ parts.superCall ++ parts.afterSuper)) ::
          (context.prototypeLink linked name parts.parent?).value)) := by
      simp only [List.append_assoc] at body
      simp [Account, visited, visitedAll, body, link, name]
    have helper : Account context.naming (if linked.kind.isJsClass then [] else [.fromProgram []])
        (visitedAll (context.helperDefinition linked name)) := by
      unfold helperDefinition
      cases linked.kind.isJsClass <;> simp [Account, visited, visitedAll]
    exact (function.append helper).append all

/-- The first part of the bootstrap library holds the function that reports a failed cast. -/
theorem castFailure_account :
    Account context.naming ofCastFailure (visitedAll context.bootstrap.value.beforeRoot) := by
  simp [Account, ofCastFailure, bootstrap, castFailure, hostRef, visited,
    visitedAll, Tree.references_iff]

/-- The constructor of type data assigns its parameters and holds no function. -/
theorem typeDataConstructor_functions : functions Lowering.typeDataConstructor.visited = [] := by
  simp [Lowering.typeDataConstructor, Lowering.setOwn, visited, visitedAll]

/-- The type data has the same functions with class syntax as without. -/
theorem typeData_account :
    Account context.naming ofTypeData (visitedAll context.bootstrap.value.afterRoot) := by
  have constructor := typeDataConstructor_functions
  have definition : Account context.naming
      (.fromProgram [] ::
        Lowering.typeDataMethods.map (fun method => .helper method.params [] (by simp)))
      (visitedAll context.typeDataDefinition) := by
    unfold typeDataDefinition
    split <;>
      simp [Account, Lowering.typeDataMethods, Lowering.setOwn, visited, visitedAll, visitedOption,
        visitedProperties, Tree.visitedName, constructor]
  have support : Account context.naming [.helper ["x"] [] (by simp), .helper ["x"] [] (by simp)]
      (visitedAll context.rootSupport) := by
    have value : functions (classTypeData (.varRef context.typeDataName) .root false
        [.root]).visited = [] := classTypeData_functions rfl _ _ _
    simp [Account, rootSupport, visited, visitedAll, visitedOption, value]
  exact definition.append support

/-- The type data of the primitive types hold no function. -/
theorem primitiveTypeData_functions :
    functions (visitedAll context.bootstrap.value.afterClasses) = [] := by
  simp [bootstrap, Lowering.primitiveTypes, primitiveTypeData, visited, visitedAll, visitedOption]

end Lowering.Context

end JsEmitter
