import JsEmitter.Lowering.ClassParts
import JsEmitter.Linked.Program

/-!
# Versions of generated pieces

A piece is reused while its version stays the same, so the version covers everything that its
generated code reads: the part of the program that it is made from, and the owners, kinds and
constructors of the classes that it can refer to.
-/
namespace JsEmitter.Lowering.Context

/-- The classes that one method can refer to: the ancestors of its class, which super calls go
through, and the classes that its body names. -/
def methodClasses (linked : LinkedClass) (method : MethodDef) : SortedSet ClassName :=
  .ofList (linked.ancestors ++ method.body.classes)

/-- The version of a method. -/
def methodVersion (context : Context) (linked : LinkedClass) (method : Versioned MethodDef) :
    Version :=
  .combine [method.version,
    context.index.linkageVersion (methodClasses linked method.value).toList]

/-- The version of the facts about all classes that the pieces of a class can refer to. -/
def classLinkage (context : Context) (linked : LinkedClass) : Version :=
  context.index.linkageVersion (linked.referencedClasses.insert .root).toList

/-- The version of the pieces that depend on a class as a whole. -/
def classVersion (context : Context) (linked : LinkedClass) : Version :=
  .combine [linked.version, context.classLinkage linked]

/-- The version of bridges. -/
def bridgeVersion (context : Context) : Version :=
  .combine [.ofToken "bridge", context.index.linkageVersion [.root]]

/-- The version of an inlined constructor: that of the first constructor with its name. -/
def inlinedVersion (linked : LinkedClass) (name : MethodName) : Version :=
  ((linked.constructors.find? (fun ctor => ctor.value.name = name)).map
    Versioned.version).getD .unversioned

/-- The version of the constructor of a class. -/
def constructorVersion (context : Context) (linked : LinkedClass) : Version :=
  match linked.jsConstructor?.filter (fun _ => linked.kind.isJsClass),
      context.inlinedConstructor? linked with
  | some ctor, _ => .combine [context.classVersion linked, ctor.version]
  | none, some ctor =>
    .combine [context.classVersion linked, inlinedVersion linked ctor.value.name]
  | none, none => context.classVersion linked

/-- The version of an exported member. Members of foreign classes are lowered in another way,
so their versions differ. -/
def exportedMemberVersion (context : Context) (linked : LinkedClass)
    (member : Versioned ExportedMember) : Version :=
  .combine [.ofInt (if linked.kind.isJsClass then 1 else 0), member.version,
    context.classLinkage linked]

/-- The version of the imports of a module: its dependencies and the root module. -/
def importsVersion (context : Context) (unit : Module) : Version :=
  .fingerprintParts (("root:" ++ context.index.rootText) ::
    unit.internalDependencies.toList.map (fun id => "int:" ++ id.text) ++
    unit.externalDependencies.toList.map (fun source => "ext:" ++ source))

/-- The version of the owners of some classes. -/
def ownersVersion (context : Context) (owners : List ClassName) : Version :=
  .fingerprintParts (owners.map (fun owner =>
    owner.text ++ "@" ++ ((context.index.owner? owner).map Name.text).getD ""))

/-- The version of the exports of a module. -/
def topLevelExportsVersion (context : Context) (unit : Module) : Version :=
  .combine (unit.topLevelExports.map TopLevelExport.version ++ [
    .fingerprintParts (unit.topLevelExports.map TopLevelExport.name),
    context.ownersVersion
      (unit.topLevelExports.filterMap (fun entry => entry.kind.referencedClass?))])

/-- The version of the calls of a module at load time. -/
def initializersVersion (context : Context) (unit : Module) : Version :=
  .combine [unit.initializersVersion,
    context.ownersVersion (unit.initializers.map Initializer.owner)]

end JsEmitter.Lowering.Context
