import JsEmitter.Proofs.SameCode

/-!
# Parts under another index

The parts of a class that its version covers, and the parts of a module, are the same under another
index if the classes or modules agree in their outline and the indexes in the facts that the parts
read.
-/
namespace JsEmitter

open Js (Tree)
open Lowering (Context Scope ConstructorParts Bootstrap)

namespace LinkedClass

variable {linked other : LinkedClass}

/-- What a version of a class covers: everything but the definitions of its members. -/
structure SameOutline (linked other : LinkedClass) : Prop where
  kind : other.kind = linked.kind
  superClass : other.superClass? = linked.superClass?
  jsSuperClass : other.jsSuperClass? = linked.jsSuperClass?
  fields : other.fields = linked.fields
  hasInstances : other.hasInstances = linked.hasInstances
  hasInstanceTests : other.hasInstanceTests = linked.hasInstanceTests
  hasTypeData : other.hasTypeData = linked.hasTypeData
  hasModuleAccessor : other.hasModuleAccessor = linked.hasModuleAccessor
  methods : other.methods.map (fun method => (method.value.home, method.value.name)) =
    linked.methods.map (fun method => (method.value.home, method.value.name))

/-- The names of the methods of a namespace are part of the outline. -/
theorem SameOutline.methodNames (outline : SameOutline linked other) (home : MemberNamespace) :
    (other.methodsIn home).map (fun method => method.value.name) =
      (linked.methodsIn home).map (fun method => method.value.name) := by
  have names : ∀ methods : List (Versioned MethodDef),
      (methods.filter (fun method => method.value.home = home)).map
          (fun method => method.value.name) =
        ((methods.map (fun method => (method.value.home, method.value.name))).filter
          (fun entry => entry.1 = home)).map Prod.snd := by
    intro methods
    simp only [List.filter_map, List.map_map]
    rfl
  unfold methodsIn
  rw [names, names, outline.methods]

/-- The name of the first method of a namespace is part of the outline. -/
theorem SameOutline.firstName (outline : SameOutline linked other) (home : MemberNamespace) :
    (other.methodsIn home).head?.map (fun method => method.value.name) =
      (linked.methodsIn home).head?.map (fun method => method.value.name) := by
  rw [← List.head?_map, ← List.head?_map, outline.methodNames]

/-- A class refers to its superclass. -/
theorem mem_referencedClasses_of_superClass {parent : ClassName}
    (extended : linked.superClass? = some parent) : parent ∈ linked.referencedClasses := by
  simp [referencedClasses, extended]

/-- A class refers to its ancestors. -/
theorem mem_referencedClasses_of_ancestor {ancestor : ClassName}
    (found : ancestor ∈ linked.ancestors) : ancestor ∈ linked.referencedClasses := by
  simp [referencedClasses, found]

/-- A class refers to the classes that its bodies name. -/
theorem mem_referencedClasses_of_body {body : Expr} (found : body ∈ linked.bodies)
    {owner : ClassName} (named : owner ∈ body.classes) : owner ∈ linked.referencedClasses := by
  simp only [referencedClasses, SortedSet.mem_ofList, List.mem_append, List.mem_flatMap]
  exact .inr ⟨body, found, named⟩

/-- What a foreign class extends is one of its bodies. -/
theorem mem_bodies_of_jsSuperClass {expr : Expr} (extended : linked.jsSuperClass? = some expr) :
    expr ∈ linked.bodies := by
  simp [bodies, extended]

/-- The body of a method is one of the class. -/
theorem mem_bodies_of_method {method : Versioned MethodDef} (found : method ∈ linked.methods) :
    method.value.body ∈ linked.bodies := by
  simp only [bodies, List.mem_append, List.mem_map]
  exact .inl (.inl (.inr ⟨method, found, rfl⟩))

/-- The expressions of the constructor of a foreign class are bodies of the class. -/
theorem mem_bodies_of_jsConstructor {ctor : Versioned JsConstructorDef}
    (found : linked.jsConstructor? = some ctor) {body : Expr}
    (there : body ∈ ctor.value.beforeSuper ++ ctor.value.superArgs ++ ctor.value.afterSuper) :
    body ∈ linked.bodies := by
  simp only [bodies, found, List.mem_append] at there ⊢
  exact .inl (.inr there)

/-- The bodies of an exported member are bodies of the class. -/
theorem mem_bodies_of_exportedMember {member : Versioned ExportedMember}
    (found : member ∈ linked.exportedMembers) {body : Expr} (there : body ∈ member.value.bodies) :
    body ∈ linked.bodies := by
  simp only [bodies, List.mem_append, List.mem_flatMap]
  exact .inr ⟨member, found, there⟩

end LinkedClass

/-- The classes whose facts the function of an export reads, if it exports one. -/
def TopLevelExport.reads (entry : TopLevelExport) : List ClassName :=
  match entry.kind with
  | .method _ body => body.reads
  | _ => []

namespace Lowering.Context

open LinkedClass

variable {context : Context} {index : ClassIndex}

/-- Whether two classes have the same outline, and two indexes agree in the facts about the classes
that the first one refers to. -/
structure SameClass (context : Context) (index : ClassIndex) (linked other : LinkedClass) :
    Prop where
  name : other.name = linked.name
  ancestors : other.ancestors = linked.ancestors
  outline : linked.SameOutline other
  root : context.index.rootModule? = index.rootModule?
  self : context.index.SameFacts index linked.name
  facts : ∀ owner ∈ linked.referencedClasses.insert .root, context.index.SameFacts index owner

section Classes

variable {linked other : LinkedClass} (same : context.SameClass index linked other)

include same

/-- The indexes agree in the facts about the classes that a body of the class names. -/
theorem SameClass.bodyFacts {body : Expr} (found : body ∈ linked.bodies) :
    ∀ owner ∈ body.classes, context.index.SameFacts index owner :=
  fun owner named => same.facts owner
    (SortedSet.mem_insert.2 (.inr (mem_referencedClasses_of_body found named)))

/-- The indexes agree in the facts about the superclass. -/
theorem SameClass.parentFacts {parent : ClassName} (extended : linked.superClass? = some parent) :
    context.index.SameFacts index parent :=
  same.facts parent (SortedSet.mem_insert.2 (.inr (mem_referencedClasses_of_superClass extended)))

/-- A scope has the same target of super calls under the other index. -/
theorem SameClass.superTarget (scope : Scope) :
    (context.reindex index).superTarget scope = context.superTarget scope := by
  unfold Context.superTarget
  rw [classRef_reindex (same.facts .root (SortedSet.mem_insert.2 (.inl rfl)))]

/-- A body of the class has the same code under both indexes. -/
theorem SameClass.lower (scope : Scope) {body : Expr} (found : body ∈ linked.bodies) :
    (context.reindex index).lower scope body = context.lower scope body :=
  lower_reindex rfl body (fun owner named => .of_root (same.bodyFacts found owner named) same.root)
    (fun _ => same.superTarget scope)

/-- Bodies of the class have the same code under both indexes. -/
theorem SameClass.lowerAll (scope : Scope) {exprs : List Expr}
    (found : ∀ body ∈ exprs, body ∈ linked.bodies) :
    (context.reindex index).lowerAll scope exprs = context.lowerAll scope exprs := by
  refine lowerAll_reindex rfl exprs (fun owner named => .of_root ?_ same.root)
    (fun _ => same.superTarget scope)
  rw [Expr.classesOfAll_eq_flatMap] at named
  obtain ⟨body, there, inside⟩ := List.mem_flatMap.1 named
  exact same.bodyFacts (found body there) owner inside

/-- The class has the same reference to its parent under both indexes. -/
theorem parentRef_reindex :
    (context.reindex index).parentRef other = context.parentRef linked := by
  have host : (context.reindex index).extendsHostError other = context.extendsHostError linked := by
    simp only [extendsHostError, same.name, same.outline.kind]
    rfl
  unfold parentRef
  rw [host, same.outline.kind, same.outline.superClass, same.outline.jsSuperClass]
  split
  · rfl
  · split
    · cases extended : linked.jsSuperClass? with
      | some expr => simp only [same.lower .plain (mem_bodies_of_jsSuperClass extended)]
      | none =>
        cases parent : linked.superClass? with
        | some owner => simp only [loadJsConstructor_reindex (same.parentFacts parent)]
        | none => rfl
    · cases parent : linked.superClass? with
      | some owner => simp only [Option.map_some, classRef_reindex (same.parentFacts parent)]
      | none => rfl

/-- The members of the class have the same scope under both indexes. -/
theorem memberScope_reindex :
    (context.reindex index).memberScope other = context.memberScope linked := by
  unfold memberScope usesSuper
  rw [parentRef_reindex same, same.outline.kind]
  rfl

/-- Classes with the same fields initialize them in the same way. -/
theorem fieldInits_eq : fieldInits other = fieldInits linked := by
  unfold fieldInits instanceFields
  rw [same.outline.fields]

/-- The constructor of a foreign class has the same code under both indexes. -/
theorem jsConstructorParts_reindex {ctor : Versioned JsConstructorDef}
    (found : linked.jsConstructor? = some ctor) :
    (context.reindex index).jsConstructorParts other ctor.value =
      context.jsConstructorParts linked ctor.value := by
  have lowers := fun {scope : Scope} {exprs : List Expr}
      (inside : ∀ body ∈ exprs, body ∈ ctor.value.beforeSuper ++ ctor.value.superArgs ++
        ctor.value.afterSuper) =>
    same.lowerAll scope (fun body there => mem_bodies_of_jsConstructor found (inside body there))
  have before := fun {scope : Scope} => @lowers scope ctor.value.beforeSuper (by simp +contextual)
  have args := fun {scope : Scope} => @lowers scope ctor.value.superArgs (by simp +contextual)
  have after := fun {scope : Scope} => @lowers scope ctor.value.afterSuper (by simp +contextual)
  unfold jsConstructorParts superArgs
  simp only [memberScope_reindex same, fieldInits_eq same, before, args, after]

/-- Both indexes know whether the constructor of the class is inlined. -/
theorem inlinesConstructor_reindex :
    index.inlinesConstructor other.name = context.index.inlinesConstructor linked.name := by
  rw [same.name, same.self.inlines]

/-- The constructor of an ordinary class has the same code under both indexes. -/
theorem plainConstructorParts_reindex
    (inlined : ((context.reindex index).inlinedConstructor? other).map Versioned.value =
      (context.inlinedConstructor? linked).map Versioned.value) :
    (context.reindex index).plainConstructorParts other =
      context.plainConstructorParts linked := by
  unfold plainConstructorParts
  rw [memberScope_reindex same, fieldInits_eq same]
  cases here : context.inlinedConstructor? linked with
  | none =>
    rw [here] at inlined
    rw [Option.map_eq_none_iff.1 inlined]
  | some ctor =>
    rw [here] at inlined
    obtain ⟨another, there, values⟩ := Option.map_eq_some_iff.1 inlined
    have found : ctor ∈ linked.methods := by
      unfold inlinedConstructor? constructors at here
      split at here
      · exact List.mem_of_mem_filter (List.mem_of_mem_head? here)
      · cases here
    have body := fun {scope : Scope} => same.lower scope (mem_bodies_of_method found)
    rw [there]
    simp only [values, body, Option.map_some]

/-- A part of the class shell has the same code under both indexes. -/
theorem shellTrees_reindex (part : ShellPart) :
    shellTrees (context.reindex index) other part = shellTrees context linked part := by
  have bootstrap : ∀ name,
      (context.reindex index).bootstrapRef name = context.bootstrapRef name := by
    intro name
    unfold bootstrapRef rootModuleRef
    rw [same.root]
    rfl
  cases part with
  | moduleAccessor =>
    have constructor : accessorConstructor other = accessorConstructor linked := by
      simp only [accessorConstructor, constructors, same.outline.firstName .constructor]
    simp only [shellTrees, moduleAccessor, constructor, same.name, newInstance_reindex same.self]
    rfl
  | instanceTests =>
    simp only [shellTrees, instanceTests, bootstrap, same.name]
    rfl
  | typeData =>
    simp only [shellTrees, typeData, bootstrap, memberTarget_reindex same.name same.self,
      same.name, same.ancestors, same.outline.kind, same.outline.hasInstances]
    rfl
  | staticFields =>
    simp only [shellTrees, staticFields, LinkedClass.staticFields, same.name, same.outline.fields]
    rfl
  | staticInitializers =>
    have first := same.outline.firstName .staticConstructor
    have calls : ∀ (initializer? : Option (Versioned MethodDef)) (name : MethodName → Tree),
        initializer?.map (fun method => name method.value.name) =
          (initializer?.map (fun method => method.value.name)).map name := by
      intro initializer? name
      cases initializer? <;> rfl
    simp only [shellTrees, staticInitializers, staticInitializer?, same.name]
    rw [calls _ (fun name => .apply (.varRef ((context.reindex index).naming.freeFunction
      .staticConstructor linked.name name)) []), first, ← calls]
    rfl

/-- A class definition that is put together from the same parts. -/
theorem fullClass_reindex (ctor : ConstructorParts) (members : List Tree)
    (exported : List (List Tree)) :
    (context.reindex index).fullClass other ctor members exported =
      context.fullClass linked ctor members exported := by
  have value : ∀ parent, (context.reindex index).prototypeValue other parent =
      context.prototypeValue linked parent := by
    intro parent
    unfold prototypeValue
    rw [same.outline.kind, same.outline.superClass]
    cases extended : linked.superClass? with
    | none => rfl
    | some owner =>
      simp only [helperRef, classMemberRef_reindex (same.parentFacts extended).owner]
      rfl
  have link : ∀ name parent?, (context.reindex index).prototypeLink other name parent? =
      context.prototypeLink linked name parent? := by
    intro name parent?
    cases parent? with
    | none => rfl
    | some parent => simp only [prototypeLink, value]
  unfold fullClass prototypeDefinition helperDefinition
  simp only [link, same.name, same.outline.kind]
  rfl

end Classes

/-- A bridge has the same code under indexes that agree in the facts about the root class. -/
theorem bridge_reindex (facts : context.index.SameFacts index .root) (method : MethodName) :
    (context.reindex index).bridge method = context.bridge method := by
  unfold bridge
  rw [classRef_reindex facts]

/-- Imports have the same code under indexes that agree in the root module. -/
theorem imports_reindex {unit other : Module} (id : other.id = unit.id)
    (root : context.index.rootModule? = index.rootModule?)
    (internal : other.internalDependencies = unit.internalDependencies)
    (external : other.externalDependencies = unit.externalDependencies) :
    (context.reindex index).imports other = context.imports unit := by
  unfold imports importBindings importedModules
  rw [id, internal, external, root]
  rfl

/-- Calls of initializers have the same code under indexes that agree in their owners. -/
theorem moduleInitializers_reindex {calls : List Initializer}
    (owners : ∀ call ∈ calls, context.index.owner? call.owner = index.owner? call.owner) :
    (context.reindex index).moduleInitializers calls = context.moduleInitializers calls := by
  unfold moduleInitializers
  refine List.map_congr_left (fun call found => ?_)
  unfold functionRef
  rw [classMemberRef_reindex (owners call found)]
  rfl

/-- The code of an exported function. -/
def exportedFunction (context : Context) (entry : TopLevelExport) : Tracked (Option Tree) :=
  match entry.kind with
  | .method _ body => (context.lower .plain body).map some
  | _ => pure none

/-- An export has the same code under indexes that agree in the owner of its class. -/
theorem topLevelExport_reindex {entry other : TopLevelExport} (name : other.name = entry.name)
    (kind : other.kind = entry.kind)
    (owners : ∀ owner ∈ entry.kind.referencedClass?,
      context.index.owner? owner = index.owner? owner)
    (function : ((context.reindex index).exportedFunction other).value =
      (context.exportedFunction entry).value) :
    ((context.reindex index).topLevelExport other).value =
      (context.topLevelExport entry).value := by
  have value : ((context.reindex index).exportValue other).value =
      (context.exportValue entry).value := by
    unfold exportedFunction at function
    unfold exportValue
    rw [name]
    rw [kind] at function ⊢
    cases found : entry.kind with
    | method params body =>
      simp only [found] at function
      have tree : ((context.reindex index).lower .plain body).value =
          (context.lower .plain body).value := Option.some.inj function
      simp only [Tracked.map_value', tree]
      rfl
    | singleton owner | jsClass owner | field owner _ =>
      simp only [classRef, classMemberRef_reindex (owners owner (by rw [found]; rfl))]
      rfl
  have form : (context.reindex index).config.moduleKind = context.config.moduleKind := rfl
  unfold topLevelExport
  rw [name]
  cases modules : context.config.moduleKind <;>
    simp only [form, modules, Tracked.bind_value, Tracked.pure_value, value] <;> rfl

/-- An export has the same statements under an index that agrees in what its code reads. -/
theorem topLevelExport_eq_of_reads {entry : TopLevelExport}
    (owners : ∀ owner ∈ entry.kind.referencedClass?,
      context.index.owner? owner = index.owner? owner)
    (reads : ∀ owner ∈ entry.reads, context.SameReads index owner) :
    (context.reindex index).topLevelExport entry = context.topLevelExport entry := by
  have value : (context.reindex index).exportValue entry = context.exportValue entry := by
    unfold TopLevelExport.reads at reads
    unfold exportValue
    cases kind : entry.kind with
    | method params body =>
      rw [kind] at reads
      simp only [lower_plain_reindex reads]
      rfl
    | singleton owner | jsClass owner | field owner _ =>
      simp only [classRef, classMemberRef_reindex (owners owner (by rw [kind]; rfl))]
      rfl
  unfold topLevelExport
  rw [value]
  rfl

/-- Exports have the same statements under an index that agrees in what their code reads. -/
theorem topLevelExports_eq_of_reads {entries : List TopLevelExport}
    (owners : ∀ entry ∈ entries, ∀ owner ∈ entry.kind.referencedClass?,
      context.index.owner? owner = index.owner? owner)
    (reads : ∀ entry ∈ entries, ∀ owner ∈ entry.reads, context.SameReads index owner) :
    (context.reindex index).topLevelExports entries = context.topLevelExports entries := by
  have each : entries.mapM (context.reindex index).topLevelExport =
      entries.mapM context.topLevelExport := by
    induction entries with
    | nil => rfl
    | cons head rest ih =>
      rw [List.forall_mem_cons] at owners reads
      rw [List.mapM_cons, List.mapM_cons, topLevelExport_eq_of_reads owners.1 reads.1,
        ih owners.2 reads.2]
  rw [topLevelExports, topLevelExports, each]

end Lowering.Context

end JsEmitter
