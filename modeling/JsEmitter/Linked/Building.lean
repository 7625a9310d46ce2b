import JsEmitter.Linked.Program

/-!
# Building programs by hand

A class starts with itself as its only ancestor, and a module starts empty; each function adds
one part. Parts that take no version of their own get the first version number.
-/
namespace JsEmitter

/-- The version of parts that are built without one. -/
def firstVersion : Version := .ofInt 1

namespace LinkedClass

/-- A class with nothing but a name and a kind. -/
def start (name : ClassName) (kind : ClassKind) : LinkedClass where
  name := name
  kind := kind
  version := firstVersion
  ancestors := [name]
  superClass? := none
  jsSuperClass? := none
  nativeLoadSpec? := none
  fields := []
  methods := []
  jsConstructor? := none
  exportedMembers := []
  hasInstances := false
  hasInstanceTests := false
  hasTypeData := false
  hasModuleAccessor := kind.isModuleLike

/-- Add an ancestor unless it is one. -/
def addAncestor (linked : LinkedClass) (ancestor : ClassName) : LinkedClass :=
  if linked.ancestors.contains ancestor then linked
  else { linked with ancestors := linked.ancestors ++ [ancestor] }

/-- Set the superclass, which becomes an ancestor. -/
def extend (linked : LinkedClass) (parent : ClassName) : LinkedClass :=
  { linked.addAncestor parent with superClass? := some parent }

/-- Add a field. -/
def addField (linked : LinkedClass) (name : FieldName) (type : FieldType) (isStatic : Bool) :
    LinkedClass :=
  { linked with fields := linked.fields ++ [⟨name, type, isStatic⟩] }

/-- Add a method. -/
def addMethod (linked : LinkedClass) (method : MethodDef) (version : Version) : LinkedClass :=
  { linked with methods := linked.methods ++ [⟨method, version⟩] }

/-- Add a public method without parameters. -/
def addPublicMethod (linked : LinkedClass) (name : MethodName) (body : Expr) : LinkedClass :=
  linked.addMethod ⟨name, .instancePublic, [], body⟩ firstVersion

/-- Add a constructor. -/
def addConstructor (linked : LinkedClass) (name : MethodName) (params : List String)
    (body : Expr) : LinkedClass :=
  linked.addMethod ⟨name, .constructor, params, body⟩ firstVersion

/-- Add an exported member. -/
def addExportedMember (linked : LinkedClass) (member : ExportedMember) (version : Version) :
    LinkedClass :=
  { linked with exportedMembers := linked.exportedMembers ++ [⟨member, version⟩] }

end LinkedClass

namespace Module

/-- A module with nothing but an id. -/
def start (id : ModuleId) : Module where
  id := id
  classes := []
  externalDependencies := ∅
  internalDependencies := ∅
  topLevelExports := []
  initializers := []
  initializersVersion := firstVersion
  isRoot := false

/-- Add a class. -/
def addClass (unit : Module) (linked : LinkedClass) : Module :=
  { unit with classes := unit.classes ++ [linked] }

/-- Add a module of the program that this one depends on. -/
def dependOn (unit : Module) (id : ModuleId) : Module :=
  { unit with internalDependencies := unit.internalDependencies.insert id }

/-- Add an external module that this one depends on. -/
def dependOnExternal (unit : Module) (source : String) : Module :=
  { unit with externalDependencies := unit.externalDependencies.insert source }

/-- Add an export. -/
def addExport (unit : Module) (entry : TopLevelExport) : Module :=
  { unit with topLevelExports := unit.topLevelExports ++ [entry] }

/-- Add a call at load time. -/
def addInitializer (unit : Module) (call : Initializer) : Module :=
  { unit with initializers := unit.initializers ++ [call] }

end Module

end JsEmitter
