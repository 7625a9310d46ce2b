import JsEmitter.Proofs.LinkedModules
import JsEmitter.Proofs.Subterms

/-!
# Emitted bodies

The bodies of a module are those that its pieces are lowered from. Every subterm of such a body is
reached by a walk through the output of the module: a piece holds the trees of its bodies, a
definition holds its constructor and its members, and the module holds all of its pieces.
-/
namespace JsEmitter

open Js (Tree)
open Js.Tree (visited visitedAll visitedOption mem_visitedAll)
open Lowering (Context Scope ConstructorParts)

/-- Whether the trees of a body, lowered in a scope, are reached by a walk through some trees. -/
def Lowering.Context.EmitsIn (context : Context) (scope : Scope) (body : Expr)
    (trees : List Tree) : Prop :=
  ∀ tree : Tree, tree.isOwn = true → tree ∈ visited (context.lower scope body).value →
    tree ∈ visitedAll trees

/-- Whether the trees of a body are reached by a walk through some trees, all in one scope. -/
def Lowering.Context.Emits (context : Context) (body : Expr) (trees : List Tree) : Prop :=
  ∃ scope, ∀ tree : Tree, tree.isOwn = true → tree ∈ visited (context.lower scope body).value →
    tree ∈ visitedAll trees

namespace Lowering.Context

variable {context : Context} {body : Expr} {trees others : List Tree}

/-- A walk through a body in a scope reaches the trees of all subterms in this scope. -/
theorem EmitsIn.subterm {scope : Scope} {sub : Expr} (emits : context.EmitsIn scope body trees)
    (inside : sub.Inside body) (own : (context.lower scope sub).value.isOwn = true) :
    (context.lower scope sub).value ∈ visitedAll trees :=
  emits _ own (context.mem_visited_lower scope inside own)

/-- A walk through a body reaches the trees of all subterms. -/
theorem Emits.subterm (emits : context.Emits body trees) : ∃ scope, ∀ sub : Expr,
    sub.Inside body → (context.lower scope sub).value.isOwn = true →
      (context.lower scope sub).value ∈ visitedAll trees := by
  obtain ⟨scope, reached⟩ := emits
  exact ⟨scope, fun sub inside own => EmitsIn.subterm reached inside own⟩

/-- What is reached stays so in trees that hold these. -/
theorem Emits.mono (emits : context.Emits body trees)
    (more : ∀ tree : Tree, tree.isOwn = true → tree ∈ visitedAll trees → tree ∈ visitedAll others) :
    context.Emits body others := by
  obtain ⟨scope, reached⟩ := emits
  exact ⟨scope, fun tree own found => more tree own (reached tree own found)⟩

/-- What is reached from a part of a list is reached from the list. -/
theorem Emits.subset (emits : context.Emits body trees) (subset : trees ⊆ others) :
    context.Emits body others :=
  emits.mono (fun _ _ found => by
    obtain ⟨outer, among, found⟩ := mem_visitedAll.1 found
    exact mem_visitedAll.2 ⟨outer, subset among, found⟩)

/-- What is reached from one tree of a list is reached from the list. -/
theorem Emits.of_mem {tree : Tree} (emits : context.Emits body [tree]) (among : tree ∈ others) :
    context.Emits body others :=
  emits.subset (fun _ found => List.mem_singleton.1 found ▸ among)

/-- A list of bodies is reached through their trees. -/
theorem emits_lowerAll {exprs : List Expr} (among : body ∈ exprs) (scope : Scope) :
    context.Emits body (context.lowerAll scope exprs).value :=
  ⟨scope, fun _ _ found => context.mem_visitedAll_lowerAll scope among found⟩

end Lowering.Context

/-- The trees of a constructor. -/
def Lowering.ConstructorParts.trees (parts : ConstructorParts) : List Tree :=
  parts.parent?.toList ++ parts.beforeSuper ++ parts.superArgs?.getD [] ++ parts.afterSuper

/-- The bodies of an export. -/
def ExportKind.bodies : ExportKind → List Expr
  | .method _ body => [body]
  | .singleton _ | .jsClass _ | .field _ _ => []

namespace Piece

/-- The bodies that a piece is lowered from. A foreign class also lowers what it extends. -/
def bodies (config : Config) : {kind : PieceKind} → Piece kind → List Expr
  | _, .function _ _ method | _, .member _ _ method => [method.body]
  | _, .jsConstructor _ linked ctor =>
    (if linked.kind.isJsClass then linked.jsSuperClass?.toList else []) ++ ctor.beforeSuper ++
      (if HostNames.hasParent config linked then ctor.superArgs else []) ++ ctor.afterSuper
  | _, .plainConstructor site linked => (HostNames.inlinedBody? site.index linked).toList
  | _, .exportedMember _ _ entry => entry.bodies
  | _, .topLevelExports _ entries => entries.flatMap (fun entry => entry.kind.bodies)
  | _, .bridge .. | _, .shell .. | _, .imports .. | _, .initializers .. | _, .library _ => []

end Piece

namespace Lowering.Context

variable {context : Context} {body : Expr}

/-- The scope of a method as a free function. -/
def functionScope (context : Context) (linked : LinkedClass) (home : MemberNamespace) : Scope :=
  ⟨if home.isStatic then .this else .varRef receiverParam, (context.parentRef linked).value, false⟩

/-- The code of a free function has the trees of its body, lowered in the scope of the function. -/
theorem freeFunction_emitsIn (linked : LinkedClass) (method : MethodDef) :
    context.EmitsIn (context.functionScope linked method.home) method.body
      [(context.freeFunction linked method).value] := by
  intro tree own found
  have inner : tree ∈ visited (.ofStatements
      ((context.lower (context.functionScope linked method.home) method.body).value ::
        (if method.home = .constructor then [.ret (.varRef receiverParam)] else []))) :=
    Tree.mem_visited_ofStatements own (mem_visitedAll.2 ⟨_, List.mem_cons_self, found⟩)
  exact mem_visitedAll.2 ⟨_, List.mem_singleton_self _, List.mem_cons_of_mem _ inner⟩

/-- The code of a free function has the trees of its body. -/
theorem freeFunction_emits (linked : LinkedClass) (method : MethodDef) :
    context.Emits method.body [(context.freeFunction linked method).value] :=
  ⟨_, freeFunction_emitsIn linked method⟩

/-- The code of a member method has the trees of its body, lowered in the scope of members. -/
theorem memberMethod_emitsIn (linked : LinkedClass) (method : MethodDef) :
    context.EmitsIn (context.memberScope linked).value method.body
      [(context.memberMethod linked method).value] := by
  intro tree _ found
  refine mem_visitedAll.2 ⟨_, List.mem_singleton_self _, ?_⟩
  unfold memberMethod
  cases modern : context.config.classSyntax <;> simp [visited, Tree.visitedName, found]

/-- The code of a member method has the trees of its body. -/
theorem memberMethod_emits (linked : LinkedClass) (method : MethodDef) :
    context.Emits method.body [(context.memberMethod linked method).value] :=
  ⟨_, memberMethod_emitsIn linked method⟩

variable {linked : LinkedClass}

/-- The constructor of a foreign class has the trees of all its expressions. -/
theorem jsConstructorParts_emits (ctor : JsConstructorDef)
    (among : body ∈ (if linked.kind.isJsClass then linked.jsSuperClass?.toList else []) ++
      ctor.beforeSuper ++
      (if HostNames.hasParent context.config linked then ctor.superArgs else []) ++
      ctor.afterSuper) :
    context.Emits body (context.jsConstructorParts linked ctor).value.trees := by
  let scope := (context.memberScope linked).value
  have parent : scope.parent?.isSome = HostNames.hasParent context.config linked :=
    context.parentRef_isSome linked
  simp only [List.mem_append] at among
  rcases among with ((extended | before) | args) | after
  · cases foreign : linked.kind.isJsClass with
    | false => simp [foreign] at extended
    | true =>
      have given : linked.jsSuperClass? = some body := by simpa [foreign] using extended
      have ordinary : context.extendsHostError linked = false := by
        cases kind : linked.kind <;> simp_all [extendsHostError, ClassKind.isJsClass]
      have lowered : (context.parentRef linked).value =
          some (context.lower .plain body).value := by
        simp [parentRef, ordinary, foreign, given]
      refine ⟨.plain, fun tree _ found => mem_visitedAll.2 ⟨_, ?_, found⟩⟩
      refine List.mem_append_left _ (List.mem_append_left _ (List.mem_append_left _ ?_))
      exact Option.mem_toList.2 lowered
  · refine (emits_lowerAll before scope).subset (fun tree found => ?_)
    exact List.mem_append_left _ (List.mem_append_left _ (List.mem_append_right _ found))
  · have there : HostNames.hasParent context.config linked = true := by
      by_contra none
      simp [none] at args
    rw [if_pos there] at args
    obtain ⟨ref, found⟩ := Option.isSome_iff_exists.1 (parent.trans there)
    refine (emits_lowerAll args scope).subset (fun tree among => ?_)
    refine List.mem_append_left _ (List.mem_append_right _ ?_)
    change tree ∈ (context.superArgs scope ctor.superArgs).value.getD []
    rw [superArgs, found]
    exact among
  · refine (emits_lowerAll after scope).subset (fun tree found => ?_)
    exact List.mem_append_right _ (List.mem_append_right _ found)

/-- An ordinary constructor has the trees of the inlined one, lowered in the scope of members. -/
theorem plainConstructorParts_emitsIn {ctor : Versioned MethodDef}
    (inlined : context.inlinedConstructor? linked = some ctor) :
    context.EmitsIn (context.memberScope linked).value ctor.value.body
      (context.plainConstructorParts linked).value.trees := by
  intro tree _ found
  refine mem_visitedAll.2 ⟨_, List.mem_append_right _ ?_, found⟩
  unfold plainConstructorParts
  rw [inlined]
  exact List.mem_append_right _ (List.mem_singleton_self _)

/-- An ordinary constructor has the trees of the inlined one. -/
theorem plainConstructorParts_emits
    (among : body ∈ HostNames.inlinedBody? context.index linked) :
    context.Emits body (context.plainConstructorParts linked).value.trees := by
  rw [inlinedBody?_eq] at among
  obtain ⟨ctor, inlined, rfl⟩ := Option.map_eq_some_iff.1 among
  exact ⟨_, plainConstructorParts_emitsIn inlined⟩

/-- The code of an exported member has the trees of its bodies, lowered in the scope of members. -/
theorem exportedMember_emitsIn (linked : LinkedClass) (member : ExportedMember)
    (among : body ∈ member.bodies) :
    context.EmitsIn (context.memberScope linked).value body
      (context.exportedMember linked member).value := by
  intro tree _ found
  cases member with
  | method name isStatic params inner =>
    obtain rfl := List.mem_singleton.1 among
    simp only [exportedMember, exportedMethod]
    cases modern : context.config.classSyntax <;> simp [visited, visitedAll, found]
  | property name isStatic getter? setter? =>
    simp only [exportedMember]
    rcases List.mem_append.1 among with given | given
    · obtain rfl := Option.mem_toList.1 given
      cases modern : context.config.classSyntax <;>
        simp [exportedAccessors, definedProperty, propertyDescriptor, lowerGetter, visited,
          visitedAll, Tree.visitedProperties, found]
    · obtain ⟨⟨param, inner⟩, rfl, rfl⟩ := Option.map_eq_some_iff.1 (Option.mem_toList.1 given)
      cases modern : context.config.classSyntax <;> cases getter? <;>
        simp [exportedAccessors, definedProperty, propertyDescriptor, lowerGetter, lowerSetter,
          visited, visitedAll, Tree.visitedProperties, found]

/-- The code of an exported member has the trees of its bodies. -/
theorem exportedMember_emits (linked : LinkedClass) (member : ExportedMember)
    (among : body ∈ member.bodies) :
    context.Emits body (context.exportedMember linked member).value :=
  ⟨_, exportedMember_emitsIn linked member among⟩

/-- The constructor of an ordinary class has arguments for its parent if it has a parent. -/
theorem plainConstructorParts_both (context : Context) (linked : LinkedClass) :
    (context.plainConstructorParts linked).value.parent?.isSome =
      (context.plainConstructorParts linked).value.superArgs?.isSome := by
  unfold plainConstructorParts
  cases context.inlinedConstructor? linked <;> simp

/-- A constructor has arguments for its parent if it has a parent. -/
theorem constructorParts_both (site : Site) (setting : Setting) (naming : Naming)
    {piece : Piece .ctor} (made : site.constructor? linked = .ok piece) :
    (piece.run setting naming).value.parent?.isSome =
      (piece.run setting naming).value.superArgs?.isSome := by
  unfold Site.constructor? at made
  split at made
  · split at made
    · obtain rfl := Except.ok.inj made
      simp only [Piece.run, jsConstructorParts]
      change Option.isSome ((setting.context naming site).memberScope linked).value.parent? =
        (superArgs _ _ _).value.isSome
      unfold superArgs
      split <;> simp_all
    · cases made
  · obtain rfl := Except.ok.inj made
    exact plainConstructorParts_both _ linked

/-- The code of exports has the trees of the exported functions. -/
theorem topLevelExports_emits (entries : List TopLevelExport)
    (among : body ∈ entries.flatMap (fun entry => entry.kind.bodies)) :
    context.Emits body (context.topLevelExports entries).value := by
  obtain ⟨entry, there, owned⟩ := List.mem_flatMap.1 among
  have own : context.Emits body (context.topLevelExport entry).value := by
    refine ⟨.plain, fun tree _ found => ?_⟩
    cases kind : entry.kind with
    | method params inner =>
      rw [kind] at owned
      obtain rfl := List.mem_singleton.1 owned
      unfold topLevelExport exportValue
      rw [kind]
      cases context.config.moduleKind <;> simp [visited, visitedAll, found]
    | _ =>
      rw [kind] at owned
      cases owned
  refine own.subset (fun tree found => ?_)
  unfold topLevelExports
  simp only [Tracked.map_value', Tracked.mapM_value, List.mem_flatten, List.mem_map]
  exact ⟨_, ⟨entry, there, rfl⟩, found⟩

/-- The trees of a constructor are reached through its parent or through its body, in which the
statements are flattened and the arguments for the parent stand in a call. -/
theorem mem_visited_constructorBody {ctor : ConstructorParts} (superCall : List Tree) {tree : Tree}
    (own : tree.isOwn = true)
    (args : ∀ given, ctor.superArgs? = some given → tree ∈ visitedAll given →
      tree ∈ visitedAll superCall) (found : tree ∈ visitedAll ctor.trees) :
    tree ∈ visitedOption ctor.parent? ∨
      tree ∈ visited (.ofStatements (ctor.beforeSuper ++ superCall ++ ctor.afterSuper)) := by
  obtain ⟨outer, among, found⟩ := mem_visitedAll.1 found
  rw [ConstructorParts.trees] at among
  simp only [List.mem_append, Option.mem_toList] at among
  rcases among with ((parent | before) | arg) | after
  · exact .inl (by rw [Option.mem_def.1 parent]; exact found)
  · exact .inr (Tree.mem_visited_ofStatements own
      (mem_visitedAll.2 ⟨outer, by simp [before], found⟩))
  · cases given : ctor.superArgs? with
    | none => simp [given] at arg
    | some trees =>
      obtain ⟨call, there, inside⟩ := mem_visitedAll.1
        (args trees given (mem_visitedAll.2 ⟨outer, by simpa [given] using arg, found⟩))
      exact .inr (Tree.mem_visited_ofStatements own
        (mem_visitedAll.2 ⟨call, by simp [there], inside⟩))
  · exact .inr (Tree.mem_visited_ofStatements own
      (mem_visitedAll.2 ⟨outer, by simp [after], found⟩))

/-- A definition in class syntax has the trees of its constructor and its members. -/
theorem mem_visited_classSyntaxDefinition {ctor : ConstructorParts} {members : List Tree}
    {tree : Tree} (own : tree.isOwn = true) (name : String)
    (found : tree ∈ visitedAll ctor.trees ∨ tree ∈ visitedAll members) :
    tree ∈ visited (classSyntaxDefinition name ctor members) := by
  simp only [classSyntaxDefinition, visited, visitedAll, List.mem_cons, List.mem_append]
  rcases found with inCtor | member
  · have inBody := mem_visited_constructorBody
      (ctor.superArgs?.map (fun args => Tree.apply .super args)).toList own
      (fun args given inside => by simp [given, visited, visitedAll, inside]) inCtor
    rcases inBody with parent | inside
    · exact .inr (.inl parent)
    · exact .inr (.inr (.inl (.inr (.inr inside))))
  · exact .inr (.inr (.inr member))

/-- A definition with a prototype has the trees of its constructor and its members. -/
theorem mem_visitedAll_prototypeDefinition {ctor : ConstructorParts}
    (both : ctor.parent?.isSome = ctor.superArgs?.isSome) {members : List Tree}
    {tree : Tree} (own : tree.isOwn = true)
    (found : tree ∈ visitedAll ctor.trees ∨ tree ∈ visitedAll members) :
    tree ∈ visitedAll (context.prototypeDefinition linked ctor members).value := by
  rcases found with inCtor | member
  · have function : tree ∈ visited (.ofStatements (ctor.beforeSuper ++ ctor.superCall ++
        ctor.afterSuper)) → tree ∈ visitedAll
          (context.prototypeDefinition linked ctor members).value := fun inside =>
      mem_visitedAll.2 ⟨_, List.mem_append_left _ (List.mem_append_left _ List.mem_cons_self),
        List.mem_cons_of_mem _ inside⟩
    have inCall : tree ∈ visitedAll ctor.superCall → tree ∈ visited (.ofStatements
        (ctor.beforeSuper ++ ctor.superCall ++ ctor.afterSuper)) := by
      intro inside
      obtain ⟨call, there, inside⟩ := mem_visitedAll.1 inside
      exact Tree.mem_visited_ofStatements own (mem_visitedAll.2 ⟨call, by simp [there], inside⟩)
    have inBody := mem_visited_constructorBody ctor.superCall own
      (fun args given inside => by
        obtain ⟨parent, there⟩ := Option.isSome_iff_exists.1 (both.trans (by rw [given]; rfl))
        simp [ConstructorParts.superCall, there, given, visited, visitedAll, inside]) inCtor
    refine function (inBody.elim (fun inParent => inCall ?_) id)
    -- Without class syntax the parent is in the call of its constructor.
    cases there : ctor.parent? with
    | none => simp [there, visitedOption] at inParent
    | some parent =>
      obtain ⟨args, given⟩ := Option.isSome_iff_exists.1 (both.symm.trans (by rw [there]; rfl))
      rw [there] at inParent
      simp only [visitedOption] at inParent
      simp [ConstructorParts.superCall, there, given, visited, visitedAll, inParent]
  · obtain ⟨outer, among, found⟩ := mem_visitedAll.1 member
    exact mem_visitedAll.2 ⟨outer, List.mem_append_right _ among, found⟩

/-- A class definition holds its constructor, its members and its exported members. -/
theorem mem_visitedAll_fullClass {ctor : ConstructorParts}
    (both : ctor.parent?.isSome = ctor.superArgs?.isSome) {members : List Tree}
    {exported : List (List Tree)} {tree : Tree} (own : tree.isOwn = true)
    (found : tree ∈ visitedAll (ctor.trees ++ members ++ exported.flatten)) :
    tree ∈ visitedAll (context.fullClass linked ctor members exported).value := by
  rw [List.append_assoc, Tree.visitedAll_eq_flatMap, List.flatMap_append,
    ← Tree.visitedAll_eq_flatMap, ← Tree.visitedAll_eq_flatMap, List.mem_append] at found
  unfold fullClass
  split
  · exact mem_visitedAll.2
      ⟨_, List.mem_singleton_self _, mem_visited_classSyntaxDefinition own _ found⟩
  · exact mem_visitedAll_prototypeDefinition both own found

end Lowering.Context

/-- The bodies of a definition. -/
def Definition.bodies (config : Config) (definition : Definition) : List Expr :=
  definition.ctor.bodies config ++ definition.members.flatMap (Piece.bodies config) ++
    definition.exported.flatMap (Piece.bodies config)

/-- The bodies of a class. -/
def ClassPieces.bodies (config : Config) (pieces : ClassPieces) : List Expr :=
  pieces.functions.flatMap (Piece.bodies config) ++
    (pieces.definition?.map (Definition.bodies config)).getD []

/-- The bodies that are emitted in a module. -/
def ModulePieces.bodies (config : Config) (pieces : ModulePieces) : List Expr :=
  pieces.classes.flatMap (ClassPieces.bodies config) ++ pieces.topLevelExports.bodies config

section FirstRuns

variable {setting : Setting} {program : Program} {unit : Module} {linked : LinkedClass}
  {body : Expr} (naming : Naming) (checked : program.Checked) (placed : unit ∈ program.modules)

include checked placed

section Classes

variable (there : linked ∈ unit.classes)

include there

/-- In a first run the constructor of a definition is that of its class. -/
theorem Definition.MadeFor.ctor_emits {definition : Definition}
    (made : definition.MadeFor setting [program] (program.site unit) linked)
    (found : body ∈ definition.ctor.bodies setting.config) :
    (setting.context naming (program.site unit)).Emits body
      (definition.ctor.run setting naming).value.trees := by
  have own := Requested.own_ctor checked placed there made.ctor
  unfold Site.constructor? at own
  split at own
  · split at own
    · next ctor _ =>
      rw [← Except.ok.inj own] at found ⊢
      exact Context.jsConstructorParts_emits ctor.value found
    · cases own
  · rw [← Except.ok.inj own] at found ⊢
    exact Context.plainConstructorParts_emits (Option.mem_toList.1 found)

/-- A definition holds the trees of its bodies. -/
theorem Definition.MadeFor.emits {definition : Definition}
    (made : definition.MadeFor setting [program] (program.site unit) linked)
    (found : body ∈ definition.bodies setting.config) :
    (setting.context naming (program.site unit)).Emits body
      (definition.run setting naming).value := by
  have inner : (setting.context naming (program.site unit)).Emits body
      ((definition.ctor.run setting naming).value.trees ++
        definition.members.map (fun piece => (piece.run setting naming).value) ++
        (definition.exported.map (fun piece => (piece.run setting naming).value)).flatten) := by
    rcases List.mem_append.1 found with found | found
    · rcases List.mem_append.1 found with found | found
      · refine (made.ctor_emits naming checked placed there found).subset (fun tree among => ?_)
        exact List.mem_append_left _ (List.mem_append_left _ among)
      · obtain ⟨piece, among, found⟩ := List.mem_flatMap.1 found
        rcases made.of_mem_members checked placed there among with ⟨method, -, rfl⟩ | ⟨_, rfl⟩
        · obtain rfl := List.mem_singleton.1 found
          refine (Context.memberMethod_emits linked method.value).of_mem ?_
          exact List.mem_append_left _ (List.mem_append_right _ (List.mem_map_of_mem among))
        · cases found
    · obtain ⟨piece, among, found⟩ := List.mem_flatMap.1 found
      obtain ⟨member, -, rfl⟩ := made.of_mem_exported checked placed there among
      refine (Context.exportedMember_emits linked member.value found).subset (fun tree inside => ?_)
      exact List.mem_append_right _ (List.mem_flatten.2 ⟨_, List.mem_map_of_mem among, inside⟩)
  obtain ⟨site, same⟩ := Requested.own_definition checked placed there made.whole
  have both := Context.constructorParts_both _ setting naming
    (Requested.own_ctor checked placed there made.ctor)
  unfold Definition.run
  rw [site, same]
  exact inner.mono (fun tree own => Context.mem_visitedAll_fullClass both own)

/-- A class holds the trees of its bodies. -/
theorem ClassPieces.MadeFor.emits {pieces : ClassPieces}
    (made : pieces.MadeFor setting [program] (program.site unit) linked)
    (found : body ∈ pieces.bodies setting.config) :
    (setting.context naming (program.site unit)).Emits body
      (pieces.fragments setting naming).value.main := by
  rcases List.mem_append.1 found with found | found
  · obtain ⟨piece, among, found⟩ := List.mem_flatMap.1 found
    obtain ⟨method, -, served⟩ := exists_of_forall₂ made.functions among
    obtain ⟨own, -, -, -, rfl⟩ := served.requested.own_function checked placed there
    obtain rfl := List.mem_singleton.1 found
    refine (Context.freeFunction_emits linked own.value).of_mem ?_
    refine List.mem_append_left _ (List.mem_append_left _ ?_)
    rw [Tracked.list_value, List.map_map]
    exact List.mem_map_of_mem among
  · cases defined : linked.needsDefinition with
    | false => simp [made.undefined defined] at found
    | true =>
      obtain ⟨definition, given, definitionMade⟩ := made.defined defined
      rw [given] at found
      refine (definitionMade.emits naming checked placed there found).subset (fun tree among => ?_)
      refine List.mem_append_left _ (List.mem_append_right _ ?_)
      unfold ClassPieces.definitionTrees
      rw [given]
      exact among

end Classes

omit checked placed in
/-- The functions and the definition of a class are in the body of its module. -/
theorem ModulePieces.mem_body_of_main {pieces : ModulePieces} {classPieces : ClassPieces}
    (among : classPieces ∈ pieces.classes) {tree : Tree}
    (main : tree ∈ (classPieces.fragments setting naming).value.main) :
    tree ∈ (pieces.output setting naming).body := by
  have fragments : (classPieces.fragments setting naming).value ∈
      (pieces.fragments setting naming).value := by
    rw [pieces.fragments_value]
    exact List.mem_map_of_mem among
  exact List.mem_append_left _ (List.mem_append_left _ (List.mem_append_left _
    (Emission.mem_classStatements_of_main fragments main)))

/-- In a first run a module holds the trees of its bodies. -/
theorem ModulePieces.MadeFor.emits {pieces : ModulePieces}
    (made : pieces.MadeFor setting [program] program unit)
    (found : body ∈ pieces.bodies setting.config) :
    (setting.context naming (program.site unit)).Emits body
      (pieces.output setting naming).trees := by
  rcases List.mem_append.1 found with found | found
  · obtain ⟨classPieces, among, found⟩ := List.mem_flatMap.1 found
    obtain ⟨linked, ordered, classMade⟩ := exists_of_forall₂ made.classes among
    have there := Module.mem_emissionOrder.1 ordered
    refine (classMade.emits naming checked placed there found).subset (fun tree main => ?_)
    exact List.mem_append_right _ (ModulePieces.mem_body_of_main naming among main)
  · have own := made.topLevelExports.requested.own_topLevelExports checked placed
    rw [own] at found
    refine (Context.topLevelExports_emits unit.topLevelExports found).subset (fun tree main => ?_)
    refine List.mem_append_right _ (List.mem_append_left _ (List.mem_append_right _ ?_))
    rw [own]
    exact main

end FirstRuns

end JsEmitter
