import JsEmitter.Linked.Expr
import JsEmitter.SortedSet
import JsEmitter.Version

/-!
# Linked classes

A class after linking: its kind, its ancestors with itself in front, its methods in their
namespaces, its fields, and for foreign classes a constructor, exported members and the place
where the host keeps it. Methods, constructors and exported members carry versions of their
own.
-/
namespace JsEmitter

/-- What kind of class a linked class is. -/
inductive ClassKind where
  /-- Ordinary class. -/
  | plain
  /-- Singleton with an instance made on first use. -/
  | moduleClass
  | interface
  /-- Primitive wrapper whose instances are host primitives. -/
  | hijackedClass
  /-- Foreign class defined by this program. -/
  | jsClass
  /-- Foreign singleton defined by this program. -/
  | jsModuleClass
  /-- Foreign class that the host provides. -/
  | nativeJsClass
deriving DecidableEq, Repr, Inhabited

namespace ClassKind

/-- Whether instances have the ordinary object layout. -/
def isClass : ClassKind → Bool
  | plain | moduleClass => true
  | _ => false

/-- Whether the class is foreign and defined by this program. -/
def isJsClass : ClassKind → Bool
  | jsClass | jsModuleClass => true
  | _ => false

/-- Whether the class is a singleton. -/
def isModuleLike : ClassKind → Bool
  | moduleClass | jsModuleClass => true
  | _ => false

/-- Whether the class gets a generated constructor when it has instances. -/
def hasDefinition (kind : ClassKind) : Bool := kind.isClass || kind.isJsClass

/-- Whether the public methods become free functions. -/
def isStaticLike : ClassKind → Bool
  | interface | hijackedClass => true
  | _ => false

/-- The name of the kind inside versions. -/
def label : ClassKind → String
  | plain => "Class"
  | moduleClass => "ModuleClass"
  | interface => "Interface"
  | hijackedClass => "HijackedClass"
  | jsClass => "JsClass"
  | jsModuleClass => "JsModuleClass"
  | nativeJsClass => "NativeJsClass"

end ClassKind

/-- Where a method lives in its class. -/
inductive MemberNamespace where
  | instancePublic
  | instancePrivate
  | staticPublic
  | staticPrivate
  | constructor
  | staticConstructor
deriving DecidableEq, Repr, Inhabited

namespace MemberNamespace

/-- The namespaces in their fixed order. -/
def all : List MemberNamespace :=
  [instancePublic, instancePrivate, staticPublic, staticPrivate, constructor, staticConstructor]

/-- Whether methods have no receiver. -/
def isStatic : MemberNamespace → Bool
  | staticPublic | staticPrivate | staticConstructor => true
  | _ => false

end MemberNamespace

/-- A value with its version. -/
structure Versioned (α : Type) where
  value : α
  version : Version
deriving Inhabited

/-- A method. -/
structure MethodDef where
  name : MethodName
  home : MemberNamespace
  params : List String
  body : Expr
deriving Inhabited

/-- The type of a field, as far as its zero value depends on it. -/
inductive FieldType where
  | int
  | double
  | boolean
  | ref
deriving DecidableEq, Repr, Inhabited

/-- A field. -/
structure FieldDef where
  name : FieldName
  type : FieldType
  isStatic : Bool
deriving DecidableEq, Inhabited

/-- The constructor of a foreign class, around its call of the parent constructor. -/
structure JsConstructorDef where
  params : List String
  beforeSuper : List Expr
  superArgs : List Expr
  afterSuper : List Expr
deriving Inhabited

/-- A member exported under a name that the host sees. -/
inductive ExportedMember where
  | method (name : String) (isStatic : Bool) (params : List String) (body : Expr)
  /-- A property with what reads it and what writes it; a setter names its parameter. -/
  | property (name : String) (isStatic : Bool) (getter? : Option Expr)
    (setter? : Option (String × Expr))
deriving Inhabited

namespace ExportedMember

/-- The name that the host sees. -/
def name : ExportedMember → String
  | method name .. => name
  | property name .. => name

/-- The bodies of the member. -/
def bodies : ExportedMember → List Expr
  | method _ _ _ body => [body]
  | property _ _ getter? setter? => getter?.toList ++ (setter?.map Prod.snd).toList

end ExportedMember

/-- Where the host keeps a native class. -/
inductive NativeLoadSpec where
  /-- A path from the global scope. -/
  | fromGlobal (path : List String)
  /-- A path inside an external module. -/
  | fromModule (source : String) (path : List String)
deriving DecidableEq, Repr

/-- A class after linking. -/
structure LinkedClass where
  name : ClassName
  kind : ClassKind
  version : Version
  /-- The class itself, then its superclasses and interfaces. -/
  ancestors : List ClassName
  superClass? : Option ClassName
  /-- What a foreign class extends, when that is not a class of the program. -/
  jsSuperClass? : Option Expr
  nativeLoadSpec? : Option NativeLoadSpec
  fields : List FieldDef
  methods : List (Versioned MethodDef)
  jsConstructor? : Option (Versioned JsConstructorDef)
  exportedMembers : List (Versioned ExportedMember)
  hasInstances : Bool
  hasInstanceTests : Bool
  hasTypeData : Bool
  hasModuleAccessor : Bool
deriving Inhabited

namespace LinkedClass

/-- The methods of one namespace. -/
def methodsIn (linked : LinkedClass) (home : MemberNamespace) : List (Versioned MethodDef) :=
  linked.methods.filter (fun method => method.value.home = home)

/-- The constructors. -/
def constructors (linked : LinkedClass) : List (Versioned MethodDef) :=
  linked.methodsIn .constructor

/-- The method that runs when the class is initialized, if there is one. -/
def staticInitializer? (linked : LinkedClass) : Option (Versioned MethodDef) :=
  (linked.methodsIn .staticConstructor).head?

/-- The fields that every instance has. -/
def instanceFields (linked : LinkedClass) : List FieldDef :=
  linked.fields.filter (fun field => !field.isStatic)

/-- The fields that the class has. -/
def staticFields (linked : LinkedClass) : List FieldDef :=
  linked.fields.filter (fun field => field.isStatic)

/-- Whether the class has a public method of its own with a name. -/
def definesPublicMethod (linked : LinkedClass) (name : MethodName) : Bool :=
  (linked.methodsIn .instancePublic).any (fun method => method.value.name = name)

/-- Every body in the class. -/
def bodies (linked : LinkedClass) : List Expr :=
  linked.jsSuperClass?.toList ++
  linked.methods.map (fun method => method.value.body) ++
  (match linked.jsConstructor? with
    | some ctor => ctor.value.beforeSuper ++ ctor.value.superArgs ++ ctor.value.afterSuper
    | none => []) ++
  linked.exportedMembers.flatMap (fun member => member.value.bodies)

/-- The classes that the generated code of the class can refer to: its ancestors, its superclass
and every class that its bodies name. -/
def referencedClasses (linked : LinkedClass) : SortedSet ClassName :=
  .ofList (linked.ancestors ++ linked.superClass?.toList ++ linked.bodies.flatMap Expr.classes)

end LinkedClass

end JsEmitter
