import JsEmitter.Linked.Program

/-!
# Class index

Code for one class depends on facts about others: which module owns them, what kind they are,
whether their constructor has become part of the class definition, and where the host keeps
them. The index answers for the last class of a name. `linkageVersion` is the version of the
owners, kinds and constructors of some classes, together with the root module.
-/
namespace JsEmitter

/-- What code for other classes needs to know about a class. -/
structure ClassInfo where
  kind : ClassKind
  owner : ModuleId
  superClass? : Option ClassName
  /-- Whether the only constructor is part of the class definition. -/
  inlinesConstructor : Bool
  nativeLoadSpec? : Option NativeLoadSpec
  hasInstances : Bool
deriving DecidableEq

/-- Facts about the classes of a program. -/
structure ClassIndex where
  /-- The classes with their names, the last one first. -/
  entries : List (ClassName × ClassInfo)
  rootModule? : Option ModuleId
  /-- The public methods of the root class. -/
  rootMethods : SortedSet MethodName

instance : Inhabited ClassIndex := ⟨⟨[], none, ∅⟩⟩

namespace ClassIndex

/-- The superclasses of the classes of a program. -/
def parents (program : Program) : List ClassName :=
  program.classes.filterMap (fun owned => owned.2.superClass?)

/-- Whether the only constructor of a class can be part of its definition. A subclass would have
to call it by itself, so the class must have none. -/
def canInline (parents : List ClassName) (linked : LinkedClass) : Bool :=
  linked.kind.isClass && linked.constructors.length = 1 && !parents.contains linked.name

/-- The entry of a class. -/
def entry (parents : List ClassName) (unit : Module) (linked : LinkedClass) :
    ClassName × ClassInfo :=
  (linked.name, {
    kind := linked.kind
    owner := unit.id
    superClass? := linked.superClass?
    inlinesConstructor := canInline parents linked
    nativeLoadSpec? := linked.nativeLoadSpec?
    hasInstances := linked.hasInstances })

/-- The names of the public methods of a class. -/
def publicMethods (linked : LinkedClass) : SortedSet MethodName :=
  .ofList ((linked.methodsIn .instancePublic).map (fun method => method.value.name))

/-- The index of a program. -/
def ofProgram (program : Program) : ClassIndex where
  entries := (program.classes.map (fun owned => entry (parents program) owned.1 owned.2)).reverse
  rootModule? := program.rootModule?.map Module.id
  rootMethods :=
    match program.classes.reverse.find? (fun owned => owned.2.name.isRoot) with
    | some owned => publicMethods owned.2
    | none => ∅

/-- The facts about a class. -/
def get? (index : ClassIndex) (name : ClassName) : Option ClassInfo := index.entries.lookup name

/-- The module that owns a class. -/
def owner? (index : ClassIndex) (name : ClassName) : Option ModuleId :=
  (index.get? name).map ClassInfo.owner

/-- The kind of a class. -/
def kind? (index : ClassIndex) (name : ClassName) : Option ClassKind :=
  (index.get? name).map ClassInfo.kind

/-- Whether the only constructor of a class is part of its definition. -/
def inlinesConstructor (index : ClassIndex) (name : ClassName) : Bool :=
  (index.get? name).any ClassInfo.inlinesConstructor

/-- Where the host keeps a class. -/
def nativeLoadSpec? (index : ClassIndex) (name : ClassName) : Option NativeLoadSpec :=
  (index.get? name).bind ClassInfo.nativeLoadSpec?

/-- Whether the root class has instances. -/
def rootHasInstances (index : ClassIndex) : Bool :=
  (index.get? ClassName.root).any ClassInfo.hasInstances

/-- Number of class names. -/
def size (index : ClassIndex) : Nat := (SortedSet.ofList (index.entries.map Prod.fst)).size

/-- The id of the root module, empty if there is none. -/
def rootText (index : ClassIndex) : String := (index.rootModule?.map Name.text).getD ""

/-- The facts about a class that linkage depends on, as text. -/
def linkageText (index : ClassIndex) (name : ClassName) : String :=
  match index.get? name with
  | some info =>
    name.text ++ "@" ++ info.owner.text ++ ":" ++ info.kind.label ++ ":" ++
      (if info.inlinesConstructor then "true" else "false")
  | none => name.text ++ "@"

/-- The version of the facts about some classes, and of the root module. -/
def linkageVersion (index : ClassIndex) (names : List ClassName) : Version :=
  .fingerprintParts (("root:" ++ index.rootText) :: names.map index.linkageText)

end ClassIndex

end JsEmitter
