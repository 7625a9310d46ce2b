import JsEmitter.Proofs.EmittedBodies
import JsEmitter.Proofs.UniqueDefinitions

/-!
# Construction of instances

Whether the only constructor of a class is part of its definition is decided from the index, in
every place anew: where instances are created, where the class is defined, where free functions are
selected, and where a constructor calls that of the parent. All places decide alike, so an instance
is created in the way that its class is defined, and a constructor that is called is there. Only a
native class is left to the host, which does not have the functions of its constructors.
-/
namespace JsEmitter

open Js (Tree)
open Js.Tree (visitedAll)
open Lowering (Context Scope ConstructorParts receiverParam)

/-- Whether a statement defines the constructor of a class with some parameters and statements. -/
def Js.Tree.IsClassConstructor (modern : Bool) (name : String) (params : List String)
    (statements : List Tree) (tree : Tree) : Prop :=
  if modern then ∃ parent? members, tree = .classDef name parent?
    (.methodDef false (.ident "constructor") params none (.ofStatements statements) :: members)
  else tree = .functionDef name params none (.ofStatements statements)

/-- An ordinary class is no foreign class. -/
theorem ClassKind.isJsClass_of_isClass {kind : ClassKind} (plain : kind.isClass = true) :
    kind.isJsClass = false := by
  cases kind <;> first | rfl | cases plain

namespace Lowering.Context

variable {context : Context} {linked : LinkedClass}

/-- The call of the constructor of the parent without arguments, if there is a parent. -/
def parentCall (context : Context) (linked : LinkedClass) : List Tree :=
  ((context.parentRef linked).value.map (fun parent =>
    if context.config.classSyntax then Tree.apply .super []
    else .apply (.dotSelect parent "call") [.this])).toList

/-- Whether a statement defines the constructor of a class with some parameters: it calls that of
the parent, gives each instance field its first value, which is zero, false or null, and then runs
some statements. -/
def DefinesConstructor (context : Context) (linked : LinkedClass) (params : List String)
    (statements : List Tree) (tree : Tree) : Prop :=
  tree.IsClassConstructor context.config.classSyntax (context.naming.classConstructor linked.name)
    params (context.parentCall linked ++
      (linked.instanceFields.map (fun field =>
        .assign (.dotSelect .this (Naming.fieldProperty field.name)) (match field.type with
          | .int => .int 0
          | .double => .double .zero
          | .boolean => .bool false
          | .ref => .null)) ++ statements))

/-- The free function of a constructor: it runs the body on its first parameter, and returns it. -/
def constructorFunction (context : Context) (linked : LinkedClass) (ctor : MethodDef) : Tree :=
  let scope : Scope := ⟨.varRef receiverParam, (context.parentRef linked).value, false⟩
  .functionDef (context.naming.freeFunction .constructor linked.name ctor.name)
    (receiverParam :: ctor.params) none
    (.ofStatements [(context.lower scope ctor.body).value, .ret (.varRef receiverParam)])

/-- A constructor that is no part of a definition is the free function that runs it. -/
theorem freeFunction_constructor {ctor : MethodDef} (home : ctor.home = .constructor) :
    (context.freeFunction linked ctor).value = context.constructorFunction linked ctor := by
  simp [freeFunction, constructorFunction, home, MemberNamespace.isStatic]

/-- The constructor in the definition of an ordinary class defines it: after the fields are
initialized, it runs the constructor that is part of the definition, if there is one. -/
theorem fullClass_constructor {parts : ConstructorParts} {statements : List Tree}
    (parent : parts.parent? = (context.parentRef linked).value) (before : parts.beforeSuper = [])
    (args : parts.superArgs? = parts.parent?.map (fun _ => []))
    (after : parts.afterSuper = fieldInits linked ++ statements) (members : List Tree)
    (exported : List (List Tree)) :
    ∃ tree ∈ (context.fullClass linked parts members exported).value,
      context.DefinesConstructor linked parts.params statements tree := by
  have inits : fieldInits linked = linked.instanceFields.map (fun field =>
      .assign (.dotSelect .this (Naming.fieldProperty field.name)) (match field.type with
        | .int => .int 0
        | .double => .double .zero
        | .boolean => .bool false
        | .ref => .null)) := by
    refine List.map_congr_left (fun field _ => ?_)
    cases field.type <;> rfl
  unfold fullClass DefinesConstructor Js.Tree.IsClassConstructor parentCall
  rw [← inits, ← parent, ← after]
  cases modern : context.config.classSyntax with
  | true =>
    refine ⟨_, List.mem_singleton_self _, parts.parent?, members ++ exported.flatten, ?_⟩
    unfold classSyntaxDefinition
    rw [before, args]
    cases parts.parent? <;> rfl
  | false =>
    refine ⟨_, List.mem_append_left _ (List.mem_append_left _ List.mem_cons_self), ?_⟩
    rw [before, args]
    cases parts.parent? <;> rfl

end Lowering.Context

section Functions

variable {context : Context} {home : MemberNamespace} {owner : ClassName} {text : String}

/-- The shell of a class defines no method. -/
theorem LinkedClass.method_not_mem_shellSubjects (linked : LinkedClass) (part : ShellPart) :
    .member (.method home) owner text ∉ linked.shellSubjects part := by
  intro found
  unfold shellSubjects at found
  split at found
  · cases part <;> simp at found
  · cases found

/-- The definition of a class defines no function of a method. -/
theorem LinkedClass.method_not_mem_definitionSubjects (linked : LinkedClass) (config : Config) :
    .member (.method home) owner text ∉ linked.definitionSubjects config := by
  intro found
  unfold definitionSubjects at found
  split at found
  · split at found <;> simp at found
  · cases found

/-- An export defines no function of a method. -/
theorem TopLevelExport.method_not_mem_subjects (entry : TopLevelExport) :
    .member (.method home) owner text ∉ entry.subjects context := by
  unfold subjects
  cases entry.kind <;> cases context.config.moduleKind <;> simp

/-- A free function that a class defines is one of those that it requests. -/
theorem LinkedClass.of_method_mem_mainSubjects {linked : LinkedClass}
    (found : .member (.method home) owner text ∈ linked.mainSubjects context) :
    linked.name = owner ∧ ∃ method ∈ linked.requestedFunctions context,
      method.value.home = home ∧ method.value.name.text = text := by
  simp only [mainSubjects, List.mem_append] at found
  rcases found with (function | definition) | accessor
  · obtain ⟨method, requested, same⟩ := List.mem_map.1 function
    simp only [Subject.member.injEq, MemberSort.method.injEq] at same
    exact ⟨same.2.1, method, requested, same.1, same.2.2⟩
  · exact absurd definition (linked.method_not_mem_definitionSubjects _)
  · exact absurd accessor (linked.method_not_mem_shellSubjects _)

/-- A free function of a module is one of a class of the module. -/
theorem Module.of_method_mem_subjects {unit : Module}
    (found : .member (.method home) owner text ∈ unit.subjects context) :
    ∃ linked ∈ unit.classes, linked.name = owner ∧
      ∃ method ∈ linked.requestedFunctions context, method.value.home = home ∧
        method.value.name.text = text := by
  have library : ∀ subjects, .member (.method home) owner text ∉ subjects →
      .member (.method home) owner text ∉ unit.librarySubjects subjects := by
    intro subjects absent found
    unfold librarySubjects at found
    split at found
    · exact absent found
    · cases found
  have imports : .member (.method home) owner text ∉ unit.importSubjects context := by
    unfold importSubjects
    split <;> simp
  simp only [subjects, LinkedClass.typeSupportSubjects, List.mem_append, List.mem_flatMap,
    List.mem_filter, imports, TopLevelExport.method_not_mem_subjects,
    LinkedClass.method_not_mem_shellSubjects, library _ (show _ ∉ [.castFailure] by simp),
    library _ (show _ ∉ afterRootSubjects by simp [afterRootSubjects]),
    library _ (show _ ∉ primitiveSubjects by simp [primitiveSubjects]), and_false, exists_const,
    or_false, false_or] at found
  rcases found with ⟨linked, ⟨ordered, -⟩, own⟩ | ⟨linked, ⟨ordered, -⟩, own⟩
  · exact ⟨linked, Module.mem_emissionOrder.1 ordered, LinkedClass.of_method_mem_mainSubjects own⟩
  · exact ⟨linked, Module.mem_emissionOrder.1 ordered, LinkedClass.of_method_mem_mainSubjects own⟩

end Functions

section Emissions

variable (setting : Setting) (naming : Naming) (program : Program) (parts : Module → ModulePieces)
  (owner : Module) (linked : LinkedClass) (ctor : MethodDef)

/-- Whether some expressions become trees of a form wherever they are lowered, and these trees are
emitted for all of them that stand in emitted bodies. Each body is lowered in one scope. -/
structure Program.EmitsSites (site : List Expr → Expr)
    (form : Context → Scope → List Tree → Tree) : Prop where
  lowered : ∀ unit scope args, let context := setting.context naming (program.site unit)
    (context.lower scope (site args)).value =
      form context scope (context.lowerAll scope args).value
  emitted : ∀ unit ∈ program.modules, ∀ body ∈ (parts unit).bodies setting.config, ∃ scope,
    ∀ args, (site args).Inside body →
      ((setting.context naming (program.site unit)).lower scope (site args)).value ∈
        visitedAll ((parts unit).output setting naming).trees

/-- Whether a constructor is part of the definition of its class: instances are created by the class
constructor, which takes its parameters and runs its body after the fields are initialized, and no
free function is defined for it. -/
structure Program.EmitsInlined : Prop where
  sites : program.EmitsSites setting naming parts (.new linked.name ctor.name)
    (fun context _ args => .new (context.qualify (some owner.id)
      (naming.classConstructor linked.name)) args)
  definition : ∃ tree ∈ ((parts owner).output setting naming).body,
    let context := setting.context naming (program.site owner)
    let scope : Scope := ⟨.this, (context.parentRef linked).value, false⟩
    context.DefinesConstructor linked ctor.params [(context.lower scope ctor.body).value] tree
  undefined : ∀ unit ∈ program.modules,
    ((parts unit).output setting naming).definedNames =
      (unit.subjects (unit.context setting program)).map (Subject.name naming) ∧
    .member (.method .constructor) linked.name ctor.name.text ∉
      unit.subjects (unit.context setting program)

/-- Whether a free function of the module of its class runs a constructor: it is called with a new
instance and the arguments, and the class constructor takes no parameters. -/
structure Program.EmitsSeparate : Prop where
  sites : program.EmitsSites setting naming parts (.new linked.name ctor.name)
    (fun context _ args => .apply (context.qualify (some owner.id)
      (naming.freeFunction .constructor linked.name ctor.name))
      (.new (context.qualify (some owner.id) (naming.classConstructor linked.name)) [] :: args))
  function : (setting.context naming (program.site owner)).constructorFunction linked ctor ∈
    ((parts owner).output setting naming).body
  definition : ∃ tree ∈ ((parts owner).output setting naming).body,
    (setting.context naming (program.site owner)).DefinesConstructor linked [] [] tree

/-- Whether a constructor that is called on an instance is defined in the module of its class. -/
structure Program.EmitsCalls : Prop where
  sites : program.EmitsSites setting naming parts (.applyConstructor linked.name ctor.name)
    (fun context scope args => .apply (context.qualify (some owner.id)
      (naming.freeFunction .constructor linked.name ctor.name)) (scope.receiver :: args))
  function : ∃ params body, .functionDef
    (naming.freeFunction .constructor linked.name ctor.name) params none body ∈
      ((parts owner).output setting naming).body

end Emissions

section Emitted

variable {setting : Setting} {naming : Naming} {program : Program} {parts : Module → ModulePieces}
  {owner : Module} {linked : LinkedClass} {ctor : Versioned MethodDef}
  (checked : program.Checked)
  (made : ∀ unit ∈ program.modules, (parts unit).MadeFor setting [program] program unit)

include checked made

/-- Sites are emitted as they are lowered, if the trees are no statement lists. -/
theorem Program.emitsSites_of_lower {site : List Expr → Expr}
    {form : Context → Scope → List Tree → Tree}
    (lowered : ∀ unit scope args, let context := setting.context naming (program.site unit)
      (context.lower scope (site args)).value =
        form context scope (context.lowerAll scope args).value)
    (own : ∀ context scope args, (form context scope args).isOwn = true) :
    program.EmitsSites setting naming parts site form := by
  refine ⟨lowered, fun unit placed body found => ?_⟩
  obtain ⟨scope, reached⟩ := ((made unit placed).emits naming checked placed found).subterm
  refine ⟨scope, fun args inside => reached _ inside ?_⟩
  rw [lowered]
  exact own _ _ _

variable (placed : owner ∈ program.modules) (there : linked ∈ owner.classes)

include placed there

/-- A method that is no part of a definition is a free function of its module. -/
theorem Program.exists_function (naming : Naming) {method : Versioned MethodDef}
    (requested : method ∈ linked.requestedFunctions (owner.context setting program)) :
    ∃ own ∈ linked.requestedFunctions (owner.context setting program),
      own.value.home = method.value.home ∧ own.value.name = method.value.name ∧
      ((setting.context naming (program.site owner)).freeFunction linked own.value).value ∈
        ((parts owner).output setting naming).body := by
  obtain ⟨classPieces, among, classMade⟩ :=
    exists_of_forall₂ (made owner placed).classes.flip (Module.mem_emissionOrder.2 there)
  obtain ⟨piece, kept, served⟩ := exists_of_forall₂ classMade.functions.flip requested
  obtain ⟨own, found, home, name, rfl⟩ := served.requested.own_function checked placed there
  refine ⟨own, found, home, name, ModulePieces.mem_body_of_main naming among ?_⟩
  refine List.mem_append_left _ (List.mem_append_left _ ?_)
  rw [Tracked.list_value, List.map_map]
  exact List.mem_map_of_mem kept

/-- A class with instances has its constructor in the body of its module. -/
theorem Program.exists_classConstructor (plain : linked.kind.isClass = true)
    (instances : linked.hasInstances = true) {params : List String} {statements : List Tree}
    (parts_eq : let parts := ((setting.context naming (program.site owner)).plainConstructorParts
        linked).value
      parts.params = params ∧ parts.afterSuper = Context.fieldInits linked ++ statements) :
    ∃ tree ∈ ((parts owner).output setting naming).body,
      (setting.context naming (program.site owner)).DefinesConstructor linked params statements
        tree := by
  have foreign := ClassKind.isJsClass_of_isClass plain
  have defined : linked.needsDefinition = true := by
    simp [LinkedClass.needsDefinition, ClassKind.hasDefinition, plain, instances]
  obtain ⟨classPieces, among, classMade⟩ :=
    exists_of_forall₂ (made owner placed).classes.flip (Module.mem_emissionOrder.2 there)
  obtain ⟨definition, given, definitionMade⟩ := classMade.defined defined
  obtain ⟨site, same⟩ := Requested.own_definition checked placed there definitionMade.whole
  have ctor : definition.ctor = .plainConstructor (program.site owner) linked := by
    have own := Requested.own_ctor checked placed there definitionMade.ctor
    rw [Site.constructor?, foreign] at own
    exact (Except.ok.inj own).symm
  let context := setting.context naming (program.site owner)
  have shape : (context.plainConstructorParts linked).value.parent? =
        (context.parentRef linked).value ∧
      (context.plainConstructorParts linked).value.beforeSuper = [] ∧
      (context.plainConstructorParts linked).value.superArgs? =
        (context.plainConstructorParts linked).value.parent?.map (fun _ => []) := by
    unfold Context.plainConstructorParts
    cases context.inlinedConstructor? linked <;> exact ⟨rfl, rfl, rfl⟩
  obtain ⟨tree, found, defines⟩ := Context.fullClass_constructor shape.1 shape.2.1 shape.2.2
    parts_eq.2 (definition.members.map (fun piece => (piece.run setting naming).value))
    (definition.exported.map (fun piece => (piece.run setting naming).value))
  rw [parts_eq.1] at defines
  refine ⟨tree, ModulePieces.mem_body_of_main naming among ?_, defines⟩
  refine List.mem_append_left _ (List.mem_append_right _ ?_)
  unfold ClassPieces.definitionTrees
  rw [given]
  change tree ∈ (definition.run setting naming).value
  unfold Definition.run
  rw [site, same, ctor]
  exact found

omit made in
/-- References to a class of a program go to its module. -/
theorem Program.classMemberRef_eq (setting : Setting) (naming : Naming) (unit : Module)
    (name : String) :
    (setting.context naming (program.site unit)).classMemberRef linked.name name =
      (setting.context naming (program.site unit)).qualify (some owner.id) name := by
  change Context.qualify _ ((ClassIndex.ofProgram program).owner? linked.name) name = _
  rw [ClassIndex.owner?, ClassIndex.get?_of_valid checked.valid placed there]
  rfl

omit made in
/-- Every place knows whether the constructor of a class is part of its definition. -/
theorem Program.inlinedConstructor?_eq (setting : Setting) (naming : Naming) (unit : Module) :
    (setting.context naming (program.site unit)).inlinedConstructor? linked =
      if ClassIndex.canInline (ClassIndex.parents program) linked then linked.constructors.head?
      else none := by
  change (if (ClassIndex.ofProgram program).inlinesConstructor linked.name = true then _ else _) = _
  rw [ClassIndex.inlinesConstructor_of_valid checked.valid placed there]

/-- A constructor that is no part of a definition is a free function of its module. -/
theorem Program.exists_constructorFunction (naming : Naming) (own : linked.kind ≠ .nativeJsClass)
    (separate : ClassIndex.canInline (ClassIndex.parents program) linked = false)
    (among : ctor ∈ linked.constructors) :
    ∃ method ∈ linked.constructors, method.value.name = ctor.value.name ∧
      (setting.context naming (program.site owner)).constructorFunction linked method.value ∈
        ((parts owner).output setting naming).body := by
  obtain ⟨listed, constructs⟩ := List.mem_filter.1 among
  have home : ctor.value.home = .constructor := of_decide_eq_true constructs
  have none : (owner.context setting program).inlinedConstructor? linked = none := by
    have same := Program.inlinedConstructor?_eq checked placed there setting default owner
    rw [separate] at same
    exact same
  have requested : ctor ∈ linked.requestedFunctions (owner.context setting program) := by
    rw [LinkedClass.requestedFunctions, if_neg own]
    refine List.mem_filter.2 ⟨listed, ?_⟩
    simp [Context.isInlined, none, LinkedClass.isFreeFunction, home]
  obtain ⟨method, found, sameHome, name, tree⟩ :=
    Program.exists_function checked made placed there naming requested
  have methodHome : method.value.home = .constructor := sameHome.trans home
  rw [Context.freeFunction_constructor methodHome] at tree
  exact ⟨method, List.mem_filter.2 ⟨(linked.requestedFunctions_sublist _).subset found,
    by simp [methodHome]⟩, name, tree⟩

/-- No module defines a function for a constructor of a native class, if the texts of the program
can be read back from its names. -/
theorem Program.constructor_not_mem_definedNames (naming : Naming)
    (native : linked.kind = .nativeJsClass) (distinguishable : program.Distinguishable)
    {unit : Module} (inside : unit ∈ program.modules)
    (plain : ∀ entry ∈ unit.topLevelExports, ¬ Naming.looksGenerated entry.name)
    {name : MethodName} (decodable : Decodable name.text) :
    naming.freeFunction .constructor linked.name name ∉
      ((parts unit).output setting naming).definedNames := by
  let context := unit.context setting program
  have about : (parts unit).definers setting.config = _ := (made unit inside).about checked inside
  have readable := unit.subjects_readable context checked inside distinguishable plain rfl
  have own := distinguishable.classes owner placed linked there
  rw [(parts unit).output_definedNames, about, List.map_map]
  intro defined
  obtain ⟨subject, found, same⟩ := List.mem_map.1 defined
  obtain rfl : subject = .member (.method .constructor) linked.name name.text :=
    Subject.name_injective naming (readable subject found) ⟨own.name, own.delimited, decodable⟩ same
  obtain ⟨other, owned, named, method, requested, -⟩ := Module.of_method_mem_subjects found
  obtain ⟨-, rfl⟩ := checked.class_eq placed inside there owned named.symm
  rw [LinkedClass.requestedFunctions, if_pos native] at requested
  cases requested

omit made in
/-- An instance of an ordinary class is created as its constructor is emitted. -/
theorem Program.lower_new (plain : linked.kind.isClass = true) (setting : Setting)
    (naming : Naming) (unit : Module) (scope : Scope) (name : MethodName) (args : List Expr) :
    let context := setting.context naming (program.site unit)
    let direct := context.qualify (some owner.id) (naming.classConstructor linked.name)
    let function := context.qualify (some owner.id)
      (naming.freeFunction .constructor linked.name name)
    (context.lower scope (.new linked.name name args)).value =
      if ClassIndex.canInline (ClassIndex.parents program) linked then
        .new direct (context.lowerAll scope args).value
      else .apply function (.new direct [] :: (context.lowerAll scope args).value) := by
  intro context direct function
  have kind : context.index.kind? linked.name = some linked.kind := by
    change ((ClassIndex.ofProgram program).get? linked.name).map ClassInfo.kind = _
    rw [ClassIndex.get?_of_valid checked.valid placed there]
    rfl
  have inlines : context.index.inlinesConstructor linked.name =
      ClassIndex.canInline (ClassIndex.parents program) linked :=
    ClassIndex.inlinesConstructor_of_valid checked.valid placed there
  have ref := Program.classMemberRef_eq checked placed there setting naming unit
  simp only [Context.lower, Tracked.bind_value, Context.newInstance, kind, inlines,
    Context.classRef, Context.functionRef, context, ref]
  cases shape : linked.kind with
  | plain | moduleClass =>
    cases ClassIndex.canInline (ClassIndex.parents program) linked <;> rfl
  | _ =>
    rw [shape] at plain
    cases plain

/-- A constructor that is part of the definition of its class is emitted there. -/
theorem Program.emitsInlined (plain : linked.kind.isClass = true)
    (instances : linked.hasInstances = true)
    (inlines : ClassIndex.canInline (ClassIndex.parents program) linked = true)
    (among : ctor ∈ linked.constructors) :
    program.EmitsInlined setting naming parts owner linked ctor.value := by
  obtain ⟨only, one⟩ := ClassIndex.exists_constructors_eq inlines
  obtain rfl : ctor = only := by simpa [one] using among
  have inlined := Program.inlinedConstructor?_eq checked placed there setting
  simp only [inlines, one, if_true, List.head?_cons] at inlined
  refine ⟨Program.emitsSites_of_lower checked made (fun unit scope args => ?_)
    (fun _ _ _ => rfl), ?_, fun unit inside => ⟨?_, fun found => ?_⟩⟩
  · have lowered := Program.lower_new checked placed there plain setting naming unit scope
      ctor.value.name args
    simpa only [inlines, if_true] using lowered
  · let context := setting.context naming (program.site owner)
    let scope : Scope := ⟨.this, (context.parentRef linked).value, false⟩
    have members : (context.memberScope linked).value = scope := by
      have own : context.usesSuper linked = false := by
        rw [Context.usesSuper, ClassKind.isJsClass_of_isClass plain, Bool.false_and]
      unfold Context.memberScope
      rw [own]
      rfl
    have shape : (context.plainConstructorParts linked).value.params = ctor.value.params ∧
        (context.plainConstructorParts linked).value.afterSuper = Context.fieldInits linked ++
          [(context.lower scope ctor.value.body).value] := by
      rw [← members]
      unfold Context.plainConstructorParts
      rw [inlined]
      exact ⟨rfl, rfl⟩
    exact Program.exists_classConstructor checked made placed there plain instances shape
  · have about : (parts unit).definers setting.config = _ :=
      (made unit inside).about checked inside
    rw [(parts unit).output_definedNames, about, List.map_map]
    rfl
  · obtain ⟨other, owned, same, method, requested, home, name⟩ :=
      Module.of_method_mem_subjects found
    obtain ⟨rfl, rfl⟩ := checked.class_eq placed inside there owned same.symm
    rw [LinkedClass.requestedFunctions] at requested
    split at requested
    · cases requested
    · have inlinedHere : (owner.context setting program).inlinedConstructor? linked =
        some ctor := inlined default owner
      have kept := (List.mem_filter.1 requested).2
      have sameName : method.value.name = ctor.value.name := Name.text_injective name
      simp [Context.isInlined, inlinedHere, home, sameName] at kept

/-- A constructor that is no part of the definition of its class is emitted as a free function. -/
theorem Program.emitsSeparate (plain : linked.kind.isClass = true)
    (instances : linked.hasInstances = true)
    (distinct : (linked.constructors.map (fun ctor => ctor.value.name)).Nodup)
    (separate : ClassIndex.canInline (ClassIndex.parents program) linked = false)
    (among : ctor ∈ linked.constructors) :
    program.EmitsSeparate setting naming parts owner linked ctor.value := by
  refine ⟨Program.emitsSites_of_lower checked made (fun unit scope args => ?_)
    (fun _ _ _ => rfl), ?_, ?_⟩
  · have lowered := Program.lower_new checked placed there plain setting naming unit scope
      ctor.value.name args
    simpa only [separate, Bool.false_eq_true, if_false] using lowered
  · have ordinary : linked.kind ≠ .nativeJsClass := by
      intro native
      rw [native] at plain
      cases plain
    obtain ⟨method, constructs, name, tree⟩ :=
      Program.exists_constructorFunction checked made placed there naming ordinary separate among
    obtain rfl := List.inj_on_of_nodup_map distinct constructs among name
    exact tree
  · refine Program.exists_classConstructor checked made placed there plain instances ?_
    have none := Program.inlinedConstructor?_eq checked placed there setting naming owner
    simp only [separate, Bool.false_eq_true, if_false] at none
    unfold Context.plainConstructorParts
    rw [none]
    exact ⟨rfl, rfl⟩

/-- The constructors of a class that another class extends are called as free functions. -/
theorem Program.emitsCalls (own : linked.kind ≠ .nativeJsClass)
    (parent : linked.name ∈ ClassIndex.parents program) (among : ctor ∈ linked.constructors) :
    program.EmitsCalls setting naming parts owner linked ctor.value := by
  have separate : ClassIndex.canInline (ClassIndex.parents program) linked = false := by
    simp [ClassIndex.canInline, parent]
  refine ⟨Program.emitsSites_of_lower checked made (fun unit scope args => ?_)
    (fun _ _ _ => rfl), ?_⟩
  · simp only [Context.lower, Tracked.bind_value, Context.functionRef]
    rw [Program.classMemberRef_eq checked placed there]
    rfl
  · obtain ⟨method, -, name, tree⟩ :=
      Program.exists_constructorFunction checked made placed there naming own separate among
    rw [Context.constructorFunction, name] at tree
    exact ⟨_, _, tree⟩

end Emitted

namespace Emitter

variable {setting : Setting} {program : Program}

/-- In an emission of modules by a new emitter, the creation of instances fits the definitions of
constructors: the constructor is part of the definition of its class, or a free function of the
module of the class. Constructors of superclasses, which their subclasses call, are free
functions. -/
theorem emit_constructions {supply : TokenSupply} {given : EmitResult} {reached : Emitter}
    (done : emit program (fresh setting supply) = .ok given reached) :
    ∃ parts : Module → ModulePieces,
      given.modules.Perm (program.modules.map
        (fun unit => (parts unit).output setting reached.session.naming)) ∧
      (∀ unit ∈ program.modules, (parts unit).MadeFor setting [program] program unit) ∧
      (∀ owner ∈ program.modules, ∀ linked ∈ owner.classes, linked.kind.isClass = true →
        linked.hasInstances = true →
        (linked.constructors.map (fun ctor => ctor.value.name)).Nodup →
        ∀ ctor ∈ linked.constructors,
          program.EmitsInlined setting reached.session.naming parts owner linked ctor.value ∨
          program.EmitsSeparate setting reached.session.naming parts owner linked ctor.value) ∧
      ∀ owner ∈ program.modules, ∀ linked ∈ owner.classes, linked.kind ≠ .nativeJsClass →
        linked.name ∈ ClassIndex.parents program → ∀ ctor ∈ linked.constructors,
          program.EmitsCalls setting reached.session.naming parts owner linked ctor.value := by
  obtain ⟨checked, parts, modules, made⟩ := emit_fresh_parts done
  refine ⟨parts, modules, made, fun owner placed linked there plain instances distinct ctor among =>
    ?_, fun owner placed linked there own parent ctor among => ?_⟩
  · cases inlines : ClassIndex.canInline (ClassIndex.parents program) linked with
    | true =>
      exact .inl (Program.emitsInlined checked made placed there plain instances inlines among)
    | false =>
      exact .inr (Program.emitsSeparate checked made placed there plain instances distinct inlines
        among)
  · exact Program.emitsCalls checked made placed there own parent among

end Emitter

/-- A class whose constructor has a parameter, for a module that other modules import. -/
def baseClass : LinkedClass :=
  { ((LinkedClass.start ⟨"lib.B"⟩ .plain).extend .root).addConstructor ⟨"<init>"⟩ ["y"]
      (.globalRef "y") with
    hasInstances := true, hasTypeData := true }

/-- A class with a field, whose constructor calls that of its superclass. A method creates instances
of both. -/
def derivedClass : LinkedClass :=
  { ((((LinkedClass.start ⟨"app.A"⟩ .plain).extend baseClass.name).addField ⟨"size"⟩ .int
      false).addConstructor ⟨"<init>"⟩ ["x"]
      (.applyConstructor baseClass.name ⟨"<init>"⟩ [.localVar "x"])).addPublicMethod ⟨"run"⟩
      (.new ⟨"app.A"⟩ ⟨"<init>"⟩ [.new baseClass.name ⟨"<init>"⟩ [.this]]) with
    hasInstances := true, hasTypeData := true }

/-- The module of a class that no class extends. -/
def derivedModule : Module := ((Module.start ⟨"main"⟩).dependOn ⟨"lib"⟩).addClass derivedClass

/-- The module of its superclass and of the root class. -/
def baseModule : Module :=
  { Module.start ⟨"lib"⟩ with
    isRoot := true
    classes := [baseClass, { LinkedClass.start .root .plain with
      hasInstances := true, hasTypeData := true }] }

/-- The constructor of the superclass is emitted as a free function, that of the subclass as a part
of the definition. -/
theorem Emitter.emit_constructions_derived :
    let setting : Setting := ⟨{ Config.standard with moduleKind := .esModule }, .standard⟩
    let program : Program := ⟨[derivedModule, baseModule]⟩
    let base : MethodDef := ⟨⟨"<init>"⟩, .constructor, ["y"], .globalRef "y"⟩
    ∃ given reached, Emitter.emit program (.fresh setting default) = .ok given reached ∧
      ∃ parts : Module → ModulePieces,
        program.EmitsInlined setting reached.session.naming parts derivedModule derivedClass
          ⟨⟨"<init>"⟩, .constructor, ["x"],
            .applyConstructor baseClass.name ⟨"<init>"⟩ [.localVar "x"]⟩ ∧
        program.EmitsSeparate setting reached.session.naming parts baseModule baseClass base ∧
        program.EmitsCalls setting reached.session.naming parts baseModule baseClass base := by
  intro setting program base
  have accepted : (Emitter.fresh setting default).check program = .ok () := by decide +kernel
  have checked := Program.validate_eq_ok_iff.1 (Emitter.validate_of_check accepted)
  have derived : derivedModule ∈ program.modules := List.mem_cons_self
  have based : baseModule ∈ program.modules := by simp [program]
  have ownDerived : derivedClass ∈ derivedModule.classes := List.mem_singleton_self _
  have ownBase : baseClass ∈ baseModule.classes := List.mem_cons_self
  obtain ⟨given, reached, done⟩ := Emitter.emit_fresh_ok _ default accepted (by decide)
  obtain ⟨parts, -, -, created, called⟩ := Emitter.emit_constructions done
  have inlined := created derivedModule derived derivedClass ownDerived rfl rfl (by decide)
    ⟨_, firstVersion⟩ (List.mem_singleton_self _)
  have separate := created baseModule based baseClass ownBase rfl rfl (by decide)
    ⟨base, firstVersion⟩ (List.mem_singleton_self _)
  refine ⟨given, reached, done, parts, inlined.resolve_right (fun other => ?_),
    separate.resolve_left (fun other => ?_), called baseModule based baseClass ownBase (by decide)
      (by decide) ⟨base, firstVersion⟩ (List.mem_singleton_self _)⟩
  · have lowered := Program.lower_new checked derived ownDerived rfl setting
      reached.session.naming baseModule .plain ⟨"<init>"⟩ []
    simp only [show ClassIndex.canInline (ClassIndex.parents program) derivedClass = true by decide,
      if_true] at lowered
    exact nomatch lowered.symm.trans (other.sites.lowered baseModule .plain [])
  · have lowered := Program.lower_new checked based ownBase rfl setting
      reached.session.naming baseModule .plain ⟨"<init>"⟩ []
    simp only [show ClassIndex.canInline (ClassIndex.parents program) baseClass = false by decide,
      Bool.false_eq_true, if_false] at lowered
    exact nomatch lowered.symm.trans (other.sites.lowered baseModule .plain [])

/-- A native class that lists a constructor. -/
def nativeParent : LinkedClass :=
  { (LinkedClass.start ⟨"lib.N"⟩ .nativeJsClass).addConstructor ⟨"<init>"⟩ [] .skip with
    nativeLoadSpec? := some (.fromGlobal ["N"]) }

/-- A foreign class below the native class, whose constructor calls that of the latter. -/
def nativeChild : LinkedClass :=
  { ((LinkedClass.start ⟨"app.J"⟩ .jsClass).extend nativeParent.name).addConstructor ⟨"<init>"⟩ []
      (.applyConstructor nativeParent.name ⟨"<init>"⟩ []) with
    jsConstructor? := some ⟨⟨[], [], [], []⟩, firstVersion⟩
    hasInstances := true }

/-- The module of both and of the root class. -/
def nativeModule : Module :=
  { Module.start ⟨"main"⟩ with
    isRoot := true
    classes := [.start .root .plain, nativeParent, nativeChild] }

/-- Nothing is emitted for a native class, so the function is not defined that a class below it
calls for its constructor. -/
theorem Emitter.emit_constructions_native :
    let setting : Setting := ⟨.standard, .standard⟩
    let program : Program := ⟨[nativeModule]⟩
    let ctor : MethodDef := ⟨⟨"<init>"⟩, .constructor, [], .skip⟩
    nativeParent ∈ nativeModule.classes ∧ nativeParent.name ∈ ClassIndex.parents program ∧
    ⟨ctor, firstVersion⟩ ∈ nativeParent.constructors ∧
    ∃ given reached, Emitter.emit program (.fresh setting default) = .ok given reached ∧
      ∃ parts : Module → ModulePieces,
        let output := (parts nativeModule).output setting reached.session.naming
        let function := reached.session.naming.freeFunction .constructor nativeParent.name ctor.name
        given.modules.Perm [output] ∧
        .apply (.varRef function) [.varRef receiverParam] ∈ visitedAll output.trees ∧
        function ∉ output.definedNames ∧
        ¬ program.EmitsCalls setting reached.session.naming parts nativeModule nativeParent
          ctor := by
  intro setting program ctor
  have accepted : (Emitter.fresh setting default).check program = .ok () := by decide +kernel
  have placed : nativeModule ∈ program.modules := List.mem_singleton_self _
  have ownParent : nativeParent ∈ nativeModule.classes := by simp [nativeModule]
  have ownChild : nativeChild ∈ nativeModule.classes := by simp [nativeModule]
  obtain ⟨given, reached, done⟩ := Emitter.emit_fresh_ok setting default accepted (by decide)
  obtain ⟨checked, parts, modules, made⟩ := Emitter.emit_fresh_parts done
  let naming := reached.session.naming
  have distinguishable : program.Distinguishable :=
    ⟨by decide +kernel, by decide +kernel, by decide +kernel, by decide +kernel, by decide +kernel⟩
  have undefined : naming.freeFunction .constructor nativeParent.name ctor.name ∉
      ((parts nativeModule).output setting naming).definedNames :=
    Program.constructor_not_mem_definedNames checked made placed ownParent naming rfl
      distinguishable placed (by rintro _ ⟨⟩) (by decide)
  refine ⟨ownParent, by decide, List.mem_singleton_self _, given, reached, done, parts, modules, ?_,
    undefined, fun calls => ?_⟩
  · obtain ⟨method, among, -, tree⟩ := Program.exists_constructorFunction checked made placed
      ownChild naming (by decide) (by decide) (List.mem_singleton_self _)
    obtain rfl := List.mem_singleton.1 among
    let context := setting.context naming (program.site nativeModule)
    let scope : Scope := ⟨.varRef receiverParam, (context.parentRef nativeChild).value, false⟩
    have lowered : (context.lower scope (.applyConstructor nativeParent.name ⟨"<init>"⟩ [])).value =
        .apply (.varRef (naming.freeFunction .constructor nativeParent.name ctor.name))
          [.varRef receiverParam] := by
      simp only [Context.lower, Context.lowerAll, Tracked.bind_value, Context.functionRef]
      rw [Program.classMemberRef_eq checked placed ownParent]
      rfl
    refine Tree.mem_visitedAll.2 ⟨_, List.mem_append_right _ tree, List.mem_cons_of_mem _ ?_⟩
    rw [← lowered]
    refine Tree.mem_visited_ofStatements (by rw [lowered]; rfl) ?_
    exact Tree.mem_visitedAll.2 ⟨_, List.mem_cons_self, Tree.mem_visited_self _⟩
  · obtain ⟨params, body, found⟩ := calls.function
    exact undefined (List.mem_filterMap.2 ⟨_, List.mem_append_right _ found, rfl⟩)

end JsEmitter
