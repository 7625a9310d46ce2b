import JsEmitter.Proofs.HostNames

/-!
# Members in both layouts of a class

With class syntax the members of a class stand in its definition. Otherwise statements assign them
to its constructor function or to its prototype, or define them there. What either layout defines is
read off the trees, and it is the same for every method and every exported member, except for an
exported property that has neither a getter nor a setter: class syntax has nothing to write for it,
and the other layout defines it all the same.
-/
namespace JsEmitter

open Js (Tree PropName)
open Lowering (Context ConstructorParts)

/-- What a class defines under a name. -/
structure DefinedMember where
  isStatic : Bool
  name : String
  /-- The parameters of a method. What is read and written has none. -/
  params? : Option (List String)
deriving DecidableEq

/-- The text of the name of a property, unless it is computed. -/
def Js.PropName.text? : PropName → Option String
  | .ident name => some name
  | .str text => some text
  | .computed _ => none

namespace Js.Tree

/-- What a member of a class body defines. -/
def classMember? : Tree → Option DefinedMember
  | methodDef isStatic name params rest? _ =>
    name.text?.map (fun text => ⟨isStatic, text, some (params ++ rest?.toList)⟩)
  | getterDef isStatic name _ | setterDef isStatic name _ _ =>
    name.text?.map (fun text => ⟨isStatic, text, none⟩)
  | _ => none

/-- What a selection selects from, and the name that it selects. -/
def selection? : Tree → Option (Tree × String)
  | dotSelect qualifier item => some (qualifier, item)
  | bracketSelect qualifier (str item) => some (qualifier, item)
  | _ => none

/-- Whether properties of an expression are static members of the class with some constructor
function, if they are members of it: those of the function are, those of its prototype are not. -/
def holdsStatic? (own : String) : Tree → Option Bool
  | varRef name => if name = own then some true else none
  | dotSelect (varRef name) item => if name = own ∧ item = "prototype" then some false else none
  | _ => none

/-- What a statement defines for the class with some constructor function: the function that it
assigns to a property, or the property that it defines. The links between prototypes assign no
functions. -/
def statementMember? (own : String) : Tree → Option DefinedMember
  | assign target (function params _) =>
    target.selection?.bind (fun selected =>
      (selected.1.holdsStatic? own).map (fun isStatic => ⟨isStatic, selected.2, some params⟩))
  | apply (dotSelect (varRef object) operation) [target, str name, _] =>
    if object = "Object" ∧ operation = "defineProperty" then
      (target.holdsStatic? own).map (fun isStatic => ⟨isStatic, name, none⟩)
    else none
  | _ => none

end Js.Tree

/-- What a public method defines. -/
def MethodDef.definedMember (method : MethodDef) : DefinedMember :=
  ⟨false, Naming.methodProperty method.name, some method.params⟩

namespace ExportedMember

/-- What an exported member defines in a class that may be foreign, with class syntax. -/
def definedMembers (foreign : Bool) : ExportedMember → List DefinedMember
  | method name isStatic params _ => [⟨isStatic && foreign, name, some params⟩]
  | property name isStatic getter? setter? =>
    if getter?.isSome || setter?.isSome then [⟨isStatic && foreign, name, none⟩] else []

/-- What an exported property with neither a getter nor a setter defines without class syntax. -/
def bareMembers (foreign : Bool) : ExportedMember → List DefinedMember
  | property name isStatic none none => [⟨isStatic && foreign, name, none⟩]
  | _ => []

end ExportedMember

/-- The exported properties of a class that have neither a getter nor a setter. -/
def LinkedClass.bareMembers (linked : LinkedClass) : List DefinedMember :=
  linked.exportedMembers.flatMap (fun member => member.value.bareMembers linked.kind.isJsClass)

/-- Whether trees are one class definition, and statements define the same members for the class
with some constructor function as this definition does, and besides only some bare ones. The
constructor that starts the definition is apart. -/
def SameMembers (own : String) (bare : List DefinedMember) (trees statements : List Tree) : Prop :=
  ∃ name parent? params body members,
    trees = [.classDef name parent?
      (.methodDef false (.ident "constructor") params none body :: members)] ∧
    ∀ member, member ∈ statements.filterMap (Tree.statementMember? own) ↔
      member ∈ members.filterMap Tree.classMember? ∨ member ∈ bare

namespace Lowering.Context

variable {context : Context} {linked : LinkedClass} {own : String}

/-- The name of a property, written either way, has the text of the property. -/
@[simp] theorem propName_text? (name : String) : (context.propName name).text? = some name := by
  unfold propName
  split <;> rfl

/-- A selected property, written either way, is a selection of it. -/
@[simp] theorem propSelect_selection? (qualifier : Tree) (name : String) :
    (context.propSelect qualifier name).selection? = some (qualifier, name) := by
  unfold propSelect
  split <;> rfl

/-- Static members are assigned to the class, others to its prototype. -/
theorem memberTarget_holdsStatic? (here : context.classRef linked.name = .varRef own)
    (isStatic : Bool) :
    (context.memberTarget linked isStatic).holdsStatic? own = some isStatic := by
  cases isStatic <;> simp [memberTarget, here, Tree.holdsStatic?]

section ClassSyntax

variable (modern : context.config.classSyntax = true)

include modern

/-- In class syntax, a member method defines its member. -/
theorem memberMethod_classMember? (method : MethodDef) :
    (context.memberMethod linked method).value.classMember? = some method.definedMember := by
  simp [memberMethod, modern, Tree.classMember?, PropName.text?, MethodDef.definedMember]

/-- With class syntax an exported member defines what it has code for. -/
theorem exportedMember_classMembers (member : ExportedMember) {defined : DefinedMember} :
    defined ∈ (context.exportedMember linked member).value.filterMap Tree.classMember? ↔
      defined ∈ member.definedMembers linked.kind.isJsClass := by
  cases member with
  | method name isStatic params body =>
    simp [exportedMember, exportedMethod, modern, Tree.classMember?,
      ExportedMember.definedMembers]
  | property name isStatic getter? setter? =>
    cases getter? <;> cases setter? <;>
      simp [exportedMember, exportedAccessors, modern, lowerGetter, lowerSetter,
        Tree.classMember?, ExportedMember.definedMembers]

/-- With class syntax a class is one definition, with the constructor as its first member. -/
theorem fullClass_classSyntax (ctor : ConstructorParts) (members : List Tree)
    (exported : List (List Tree)) :
    ∃ params body, (context.fullClass linked ctor members exported).value =
      [.classDef (context.naming.classConstructor linked.name) ctor.parent?
        (.methodDef false (.ident "constructor") params none body ::
          (members ++ exported.flatten))] := by
  simp only [fullClass, modern, if_true]
  exact ⟨_, _, rfl⟩

end ClassSyntax

section Statements

variable (classic : context.config.classSyntax = false)

include classic

/-- Without class syntax, only the members of a class definition define members. -/
theorem fullClass_statementMembers (ctor : ConstructorParts) (members : List Tree)
    (exported : List (List Tree)) :
    (context.fullClass linked ctor members exported).value.filterMap
        (Tree.statementMember? own) =
      (members ++ exported.flatten).filterMap (Tree.statementMember? own) := by
  have link : ∀ name parent?, (context.prototypeLink linked name parent?).value.filterMap
      (Tree.statementMember? own) = [] := by
    intro name parent?
    cases parent? with
    | none => rfl
    | some parent =>
      simp only [prototypeLink, prototypeValue]
      cases linked.kind.isJsClass with
      | true => simp [hostRef, Tree.statementMember?]
      | false => cases linked.superClass? <;> simp [Tree.statementMember?]
  have helper : ∀ name, (context.helperDefinition linked name).filterMap
      (Tree.statementMember? own) = [] := by
    intro name
    unfold helperDefinition
    split <;> simp [Tree.statementMember?]
  simp only [fullClass, classic, Bool.false_eq_true, if_false, prototypeDefinition,
    Tracked.map_value']
  rw [List.cons_append, List.cons_append, List.filterMap_cons_none rfl, List.append_assoc,
    List.filterMap_append, List.filterMap_append, link, helper, List.nil_append, List.nil_append]

variable (here : context.classRef linked.name = .varRef own)

include here

/-- Without class syntax, a member method defines its member. -/
theorem memberMethod_statementMember? (method : MethodDef) :
    (context.memberMethod linked method).value.statementMember? own =
      some method.definedMember := by
  simp [memberMethod, classic, Tree.statementMember?, Tree.selection?,
    memberTarget_holdsStatic? here, MethodDef.definedMember]

/-- Without class syntax an exported member defines the same, and a property also if it has no
code. -/
theorem exportedMember_statementMembers (member : ExportedMember) {defined : DefinedMember} :
    defined ∈ (context.exportedMember linked member).value.filterMap
        (Tree.statementMember? own) ↔
      defined ∈ member.definedMembers linked.kind.isJsClass ∨
        defined ∈ member.bareMembers linked.kind.isJsClass := by
  cases member with
  | method name isStatic params body =>
    simp [exportedMember, exportedMethod, classic, Tree.statementMember?,
      memberTarget_holdsStatic? here, ExportedMember.definedMembers, ExportedMember.bareMembers]
  | property name isStatic getter? setter? =>
    have value : (context.exportedMember linked (.property name isStatic getter? setter?)
        ).value.filterMap (Tree.statementMember? own) =
          [⟨isStatic && linked.kind.isJsClass, name, none⟩] := by
      simp [exportedMember, definedProperty, classic, hostRef, Tree.statementMember?,
        memberTarget_holdsStatic? here, List.filterMap]
    rw [value]
    cases getter? <;> cases setter? <;>
      simp [ExportedMember.definedMembers, ExportedMember.bareMembers]

end Statements

/-- Both layouts of a class define the same members, apart from properties without code. -/
theorem fullClass_sameMembers {modern classic : Context}
    (classSyntax : modern.config.classSyntax = true)
    (statements : classic.config.classSyntax = false)
    (here : classic.classRef linked.name = .varRef own) (ctor another : ConstructorParts)
    (methods : List (Versioned MethodDef)) :
    SameMembers own linked.bareMembers
      (modern.fullClass linked ctor
        (methods.map (fun method => (modern.memberMethod linked method.value).value))
        (linked.exportedMembers.map (fun member =>
          (modern.exportedMember linked member.value).value))).value
      (classic.fullClass linked another
        (methods.map (fun method => (classic.memberMethod linked method.value).value))
        (linked.exportedMembers.map (fun member =>
          (classic.exportedMember linked member.value).value))).value := by
  obtain ⟨params, body, definition⟩ := modern.fullClass_classSyntax classSyntax ctor
    (methods.map (fun method => (modern.memberMethod linked method.value).value))
    (linked.exportedMembers.map (fun member => (modern.exportedMember linked member.value).value))
  refine ⟨_, _, params, body, _, definition, fun member => ?_⟩
  -- the methods and the exported members that either layout defines
  have listed : ∀ {context : Context} {read : Tree → Option DefinedMember},
      (∀ method : MethodDef, read (context.memberMethod linked method).value =
        some method.definedMember) →
      (member ∈ (methods.map (fun method => (context.memberMethod linked method.value).value) ++
        (linked.exportedMembers.map (fun member =>
          (context.exportedMember linked member.value).value)).flatten).filterMap read ↔
        (∃ method ∈ methods, method.value.definedMember = member) ∨
        ∃ exported ∈ linked.exportedMembers,
          member ∈ (context.exportedMember linked exported.value).value.filterMap read) := by
    intro context read reads
    have own : (methods.map (fun method => (context.memberMethod linked method.value).value)
        ).filterMap read = methods.map (fun method => method.value.definedMember) := by
      have each : (read ∘ fun method : Versioned MethodDef =>
          (context.memberMethod linked method.value).value) =
          some ∘ fun method => method.value.definedMember :=
        funext (fun method => reads method.value)
      rw [List.filterMap_map, each, List.filterMap_eq_map]
    rw [List.filterMap_append, List.mem_append, own, List.filterMap_flatten, List.map_map,
      ← List.flatMap_def, List.mem_flatMap, List.mem_map]
    rfl
  rw [fullClass_statementMembers statements,
    listed (memberMethod_statementMember? statements here),
    listed (memberMethod_classMember? classSyntax)]
  simp only [exportedMember_statementMembers statements here,
    exportedMember_classMembers classSyntax, LinkedClass.bareMembers, List.mem_flatMap,
    and_or_left, exists_or, or_assoc]

end Lowering.Context

end JsEmitter
