import JsEmitter.Proofs.ExportedMembers
import JsEmitter.Proofs.MemberLayouts

/-!
# The root throwable

With class syntax the root throwable extends the error type of the host, so it inherits nothing from
the root class. Its definition answers all public methods of the root class nevertheless: after its
own methods it has a bridge for each of the others, and no other one, whatever was emitted before:
`Emitter.emit_throwable`. The bridges are not part of what the versions of the class cover; they are
listed anew in each run. What follows them are its exported members, as far as their cache tells
them apart.
-/
namespace JsEmitter

open Js (Tree)
open Lowering (Context)

variable {setting : Setting} {naming : Naming} {history : List Program}

/-- A method that passes its receiver and all its arguments on to the method of the same name in the
prototype of a class. -/
def forwarder (target : Tree) (method : MethodName) : Tree :=
  let property := Naming.methodProperty method
  .methodDef false (.ident property) [] (some "args")
    (.ret (.apply (.dotSelect (.dotSelect (.dotSelect target "prototype") property) "call")
      [.this, .spread (.varRef "args")]))

/-- A bridge is a method that forwards to that of the root class. -/
theorem Lowering.Context.bridge_value (context : Context) (method : MethodName) :
    (context.bridge method).value = forwarder (context.classRef .root) method := rfl

/-- Whether the root class of a program has a public method of a name. -/
def Program.RootDefines (program : Program) (name : MethodName) : Prop :=
  ∃ unit ∈ program.modules, ∃ linked ∈ unit.classes,
    linked.name = .root ∧ linked.definesPublicMethod name = true

/-- The public methods of a class are those that it defines. -/
theorem ClassIndex.mem_publicMethods {linked : LinkedClass} {name : MethodName} :
    name ∈ publicMethods linked ↔ linked.definesPublicMethod name = true := by
  simp [publicMethods, SortedSet.mem_ofList, LinkedClass.definesPublicMethod]

/-- The index of a checked program has the public methods of its root class. -/
theorem ClassIndex.mem_rootMethods {program : Program} (checked : program.Checked)
    {name : MethodName} :
    name ∈ (ofProgram program).rootMethods ↔ program.RootDefines name := by
  simp only [ofProgram]
  split
  · rename_i owned found
    obtain ⟨unit, placed, among⟩ :=
      List.mem_flatMap.1 (List.mem_reverse.1 (List.mem_of_find?_eq_some found))
    obtain ⟨linked, there, rfl⟩ := List.mem_map.1 among
    have root : linked.name = .root := of_decide_eq_true
      (List.find?_some (p := fun owned : Module × LinkedClass => owned.2.name.isRoot) found)
    rw [mem_publicMethods]
    constructor
    · exact fun defines => ⟨unit, placed, linked, there, root, defines⟩
    · rintro ⟨other, lies, another, exist, named, defines⟩
      obtain ⟨-, rfl⟩ := checked.class_eq placed lies there exist (root.trans named.symm)
      exact defines
  · rename_i absent
    constructor
    · exact fun found => (SortedSet.not_mem_empty found).elim
    · rintro ⟨unit, placed, linked, there, root, -⟩
      have among : (unit, linked) ∈ program.classes.reverse :=
        List.mem_reverse.2 (Program.mem_classes.2 ⟨placed, there⟩)
      exact absurd (decide_eq_true root) (List.find?_eq_none.1 absent _ among)

namespace Lowering.Context

variable {context : Context} {linked : LinkedClass}

/-- The methods in the definition of an ordinary class are its public ones. -/
theorem memberMethods_eq (plain : linked.kind = .plain) :
    memberMethods linked = linked.methodsIn .instancePublic := by
  simp [memberMethods, LinkedClass.methodsIn, LinkedClass.isFreeFunction, plain,
    ClassKind.isStaticLike]

/-- The methods that a class needs bridges for are listed by name. -/
theorem bridgedMethods_increasing (context : Context) (linked : LinkedClass) :
    (context.bridgedMethods linked).Pairwise
      (fun earlier later => compare earlier later = .lt) := by
  unfold bridgedMethods
  split
  · exact context.index.rootMethods.increasing.filter _
  · exact .nil

/-- The root throwable bridges the public methods of the root class that it does not define
itself. -/
theorem mem_bridgedMethods (rewired : context.extendsHostError linked = true)
    {name : MethodName} : name ∈ context.bridgedMethods linked ↔
      name ∈ context.index.rootMethods ∧ linked.definesPublicMethod name = false := by
  simp [bridgedMethods, rewired, List.mem_filter, SortedSet.mem_toList]

end Lowering.Context

/-! ## What the members of the definition are -/

/-- The members of the definition of the root throwable after its constructor: its methods, the
names and the code of its bridges, and its exported members. -/
structure ThrowableMembers where
  methods : List Tree
  bridged : List MethodName
  bridges : List Tree
  exported : List (List Tree)

/-- All members in their order. -/
def ThrowableMembers.trees (members : ThrowableMembers) : List Tree :=
  members.methods ++ members.bridges ++ members.exported.flatten

/-- Whether some members are those that the root throwable has to have in a program, made from what
is served for them. -/
structure ClassIn.HasMembers (setting : Setting) (naming : Naming) (here : ClassIn history)
    (members : ThrowableMembers) : Prop where
  /-- Its own public methods, in their order. -/
  methods : List.Forall₂ (fun method tree =>
      (∃ params body,
        tree = .methodDef false (.ident (Naming.methodProperty method.value.name)) params none
          body) ∧
      ∃ piece, tree = (piece.run setting naming).value ∧
        Served setting history (.member (here.key, method.value.name))
          ((setting.neutral here.site).methodVersion here.linked method)
          (.member here.site here.linked method.value) piece)
    (here.linked.methodsIn .instancePublic) members.methods
  /-- Each bridge has another name, and they are ordered by name. -/
  increasing : members.bridged.Pairwise (fun earlier later => compare earlier later = .lt)
  /-- There is a bridge for every public method of the root class that it does not define. -/
  bridged : ∀ name, name ∈ members.bridged ↔
    here.program.RootDefines name ∧ here.linked.definesPublicMethod name = false
  /-- The bridges forward to the root class, as the throwable of some program refers to it. -/
  bridges : List.Forall₂ (fun name tree => ∃ former : ClassIn history, former.key = here.key ∧
      (setting.neutral former.site).bridgeVersion = (setting.neutral here.site).bridgeVersion ∧
      tree = forwarder ((setting.context naming former.site).classRef .root) name)
    members.bridged members.bridges
  /-- They forward to the root class of this program if its digests tell where it is. -/
  forwarding : (∀ former : ClassIn history, former.key = here.key →
      Version.Distinguished (here.index.linkageParts [.root])
        (former.index.linkageParts [.root])) →
    members.bridges =
      members.bridged.map (forwarder ((setting.context naming here.site).classRef .root))
  /-- The exported members, in their order, as they are served by their positions. -/
  exported : List.Forall₂ (fun entry trees => ∃ piece, trees = (piece.run setting naming).value ∧
      Served setting history (.exportedMember (here.key, entry.2))
        ((setting.neutral here.site).exportedMemberVersion here.linked entry.1)
        (.exportedMember here.site here.linked entry.1.value) piece)
    here.linked.exportedMembers.zipIdx members.exported
  /-- They are the exported members of this program if their versions tell them apart. -/
  current : (∀ former : ClassIn history, former.key = here.key →
        here.linked.KeepsExports former.linked) →
      (∀ former : ClassIn history, former.key = here.key → here.TellsExports setting former) →
    members.exported = here.linked.exportedMembers.map (fun member =>
      ((setting.context naming here.site).exportedMember here.linked member.value).value)

section Served

variable {here : ClassIn history}

/-- With class syntax, what is served for a public method is a method of its name. -/
theorem Served.member_methodDef (syntaxed : setting.config.classSyntax = true)
    {method : Versioned MethodDef} {piece : Piece .tree}
    (served : Served setting history (.member (here.key, method.value.name))
      ((setting.neutral here.site).methodVersion here.linked method)
      (.member here.site here.linked method.value) piece) :
    ∃ params body, (piece.run setting naming).value =
      .methodDef false (.ident (Naming.methodProperty method.value.name)) params none body := by
  obtain ⟨former, other, -, -, name, -, rfl⟩ := served.requested.member
  have withSyntax : (setting.context naming former.site).config.classSyntax = true := syntaxed
  simp only [Piece.run, Context.memberMethod, withSyntax, if_true, name]
  exact ⟨_, _, rfl⟩

/-- What is served for a bridge forwards to the root class that some program refers to. -/
theorem Served.bridge_forwards {name : MethodName} {piece : Piece .tree}
    (served : Served setting history (.bridge (here.key, name))
      (setting.neutral here.site).bridgeVersion (.bridge here.site name) piece) :
    ∃ former : ClassIn history, former.key = here.key ∧
      (setting.neutral former.site).bridgeVersion = (setting.neutral here.site).bridgeVersion ∧
      (piece.run setting naming).value =
        forwarder ((setting.context naming former.site).classRef .root) name := by
  obtain ⟨former, key, version, rfl⟩ := served.requested.bridge
  exact ⟨former, key.symm, version.symm, Context.bridge_value _ name⟩

/-- Bridges of one version refer to the root class in the same way if the digest tells where it
is. -/
theorem ClassIn.classRef_root_eq {former : ClassIn history} (key : former.key = here.key)
    (version : (setting.neutral former.site).bridgeVersion =
      (setting.neutral here.site).bridgeVersion)
    (apart : Version.Distinguished (here.index.linkageParts [.root])
      (former.index.linkageParts [.root])) :
    (setting.context naming former.site).classRef .root =
      (setting.context naming here.site).classRef .root := by
  have same : (here.index.linkageVersion [.root]).isSame (former.index.linkageVersion [.root]) =
      true := by
    cases Version.isSame_of_combine (Version.isSame_of_eq version.symm rfl) with
    | cons mark rest =>
      cases rest with
      | cons linkage => exact linkage
  obtain ⟨-, texts⟩ := List.cons.inj (apart.parts_eq same)
  have owner := ClassIndex.owner?_of_linkageText (List.cons.inj texts).1
  rw [here.context_eq former.toModuleIn (congrArg ClassKey.home key.symm)]
  exact Context.classMemberRef_reindex owner _

end Served

/-- The pieces of a definition that is made for the root throwable are the members that it has to
have. -/
theorem Definition.MadeFor.hasMembers {definition : Definition} {here : ClassIn history}
    (made : definition.MadeFor setting history here.site here.linked)
    (valid : ∀ program ∈ history, program.Valid) (checked : here.program.Checked)
    (syntaxed : setting.config.classSyntax = true) (throwable : here.linked.name = .throwable)
    (plain : here.linked.kind = .plain) (naming : Naming) :
    ∃ members : ThrowableMembers, here.HasMembers setting naming members ∧
      definition.members.map (fun piece => (piece.run setting naming).value) =
        members.methods ++ members.bridges ∧
      definition.exported.map (fun piece => (piece.run setting naming).value) =
        members.exported := by
  have rewired : (setting.neutral here.site).extendsHostError here.linked = true := by
    simp [Context.extendsHostError, throwable, plain, ClassName.isThrowable, Setting.neutral,
      Setting.context, syntaxed]
  obtain ⟨methods, bridges, parts, methodsMade, bridgesMade⟩ := made.members
  rw [Context.memberMethods_eq plain] at methodsMade
  let run := fun piece : Piece .tree => (piece.run setting naming).value
  refine ⟨⟨methods.map run, (setting.neutral here.site).bridgedMethods here.linked,
    bridges.map run, definition.exported.map fun piece => (piece.run setting naming).value⟩,
    ?_, by rw [parts, List.map_append], rfl⟩
  exact {
    methods := List.forall₂_map_right_iff.2 (methodsMade.imp (fun method piece served =>
      ⟨Served.member_methodDef syntaxed served, piece, rfl, served⟩))
    increasing := Context.bridgedMethods_increasing _ _
    bridged := fun name => by
      rw [Context.mem_bridgedMethods rewired, ← ClassIndex.mem_rootMethods checked]
      rfl
    bridges := List.forall₂_map_right_iff.2 (bridgesMade.imp (fun name piece served =>
      Served.bridge_forwards served))
    forwarding := fun apart => by
      refine (map_eq_map_iff.2 (bridgesMade.imp (fun name piece served => ?_))).symm
      obtain ⟨former, key, version, code⟩ := Served.bridge_forwards served
      rw [← ClassIn.classRef_root_eq key version (apart former key)]
      exact code.symm
    exported := List.forall₂_map_right_iff.2 (made.exported.imp (fun entry piece served =>
      ⟨piece, rfl, served⟩))
    current := fun kept told => here.exported_eq valid kept told made }

namespace Emitter

/-- A successful run of a sound emitter defines the root throwable with the members that it has to
have. -/
theorem Sound.defines_throwable {emitter : Emitter} (sound : Sound setting history emitter)
    (valid : ∀ program ∈ history, program.Valid) (here : ClassIn history) {given : EmitResult}
    {reached : Emitter} (done : Emitter.emit here.program emitter = .ok given reached)
    (syntaxed : setting.config.classSyntax = true) (throwable : here.linked.name = .throwable)
    (plain : here.linked.kind = .plain) (instances : here.linked.hasInstances = true) :
    ∃ output ∈ given.modules, output.id = here.unit.id ∧
      ∃ parent? params body members,
        here.HasMembers setting reached.session.naming members ∧
        .classDef (reached.session.naming.classConstructor .throwable) parent?
          (.methodDef false (.ident "constructor") params none body :: members.trees) ∈
            output.body := by
  obtain ⟨checked, parts, modules, made⟩ := sound.emit_parts here.emitted done
  have madeHere := made here.unit here.placed
  obtain ⟨classPieces, among, classMade⟩ :=
    exists_of_forall₂ madeHere.classes.flip (Module.mem_emissionOrder.2 here.there)
  have needs : here.linked.needsDefinition = true := by
    simp [LinkedClass.needsDefinition, plain, instances, ClassKind.hasDefinition, ClassKind.isClass]
  obtain ⟨definition, defines, definitionMade⟩ := classMade.defined needs
  obtain ⟨members, has, own, exported⟩ :=
    definitionMade.hasMembers valid checked syntaxed throwable plain reached.session.naming
  obtain ⟨former, key, -, site, linked⟩ := definitionMade.whole.exists
  have name : definition.linked.name = .throwable := by
    rw [linked, ← throwable]
    exact ClassIn.name_eq valid key
  have body : (definition.run setting reached.session.naming).value <:+:
      (parts here.unit).body setting reached.session.naming :=
    ModulePieces.definition_infix_body among defines
  rw [Definition.run, own, exported] at body
  have withSyntax : (setting.context reached.session.naming definition.site).config.classSyntax =
      true := syntaxed
  obtain ⟨params, code, whole⟩ := Context.fullClass_classSyntax withSyntax
    (definition.ctor.run setting reached.session.naming).value
    (members.methods ++ members.bridges) members.exported
  rw [whole, name] at body
  exact ⟨(parts here.unit).output setting reached.session.naming,
    modules.mem_iff.2 (List.mem_map_of_mem here.placed), madeHere.id, _, params, code, members, has,
    body.subset (List.mem_singleton_self _)⟩

/-- In every successful run of an emitter with class syntax, whatever it has emitted before, the
definition of the root throwable has its constructor, then its public methods, then a bridge for
every public method that the root class has then and that it does not define, in the order of their
names, and then its exported members. -/
theorem emit_throwable (setting : Setting) (supply : TokenSupply) (earlier : List Program)
    (program : Program) {given : EmitResult} {reached : Emitter}
    (done : emit program ((fresh setting supply).afterAll earlier) = .ok given reached)
    (here : ClassIn (setting.accepted (earlier ++ [program]))) (emitted : here.program = program)
    (syntaxed : setting.config.classSyntax = true) (throwable : here.linked.name = .throwable)
    (plain : here.linked.kind = .plain) (instances : here.linked.hasInstances = true) :
    ∃ output ∈ given.modules, output.id = here.unit.id ∧
      ∃ parent? params body members,
        here.HasMembers setting reached.session.naming members ∧
        .classDef (reached.session.naming.classConstructor .throwable) parent?
          (.methodDef false (.ident "constructor") params none body :: members.trees) ∈
            output.body := by
  rw [← emitted] at done
  exact (fresh_sound_accepted setting supply earlier [program]).defines_throwable
    (fun _ => Setting.valid_of_accepted) here done syntaxed throwable plain instances

end Emitter

/-- The root throwable with a public method and an exported method. -/
def reportingThrowable : LinkedClass :=
  { ((LinkedClass.start .throwable .plain).extend .root).addPublicMethod ⟨"message"⟩ .skip with
    exportedMembers := [⟨.method "report" false [] .skip, .unversioned⟩]
    hasInstances := true }

/-- The root class with some public methods. -/
def answeringRoot (methods : List MethodName) : LinkedClass :=
  { LinkedClass.start .root .plain with
    methods := methods.map (fun name => ⟨⟨name, .instancePublic, [], .skip⟩, firstVersion⟩)
    hasInstances := true }

/-- A program of the root class with some public methods, and of the root throwable. -/
def throwingProgram (methods : List MethodName) : Program :=
  ⟨[{ Module.start ⟨"main"⟩ with
    isRoot := true
    classes := [answeringRoot methods, reportingThrowable] }]⟩

/-- The root class of the example defines the listed methods. -/
theorem throwingProgram_rootDefines (methods : List MethodName) (name : MethodName) :
    (throwingProgram methods).RootDefines name ↔ name ∈ methods := by
  have defines : (answeringRoot methods).definesPublicMethod name = true ↔ name ∈ methods := by
    simp [LinkedClass.definesPublicMethod, LinkedClass.methodsIn, answeringRoot]
  have root : (answeringRoot methods).name = .root := rfl
  have other : reportingThrowable.name ≠ .root := by decide
  simp [Program.RootDefines, throwingProgram, defines, root, other]

/-- The public methods of the root class change between two runs, and nothing of the throwable does.
The second run gives it the bridges for those that the root class has then. -/
theorem Emitter.emit_throwable_extended :
    let setting : Setting := ⟨.standard, fun _ => false⟩
    let former := throwingProgram [⟨"copy"⟩, ⟨"message"⟩]
    let later := throwingProgram [⟨"hash"⟩, ⟨"message"⟩, ⟨"equals"⟩]
    ∃ given reached, Emitter.emit later ((Emitter.fresh setting default).afterAll [former]) =
        .ok given reached ∧
      let root : Tree := .varRef (reached.session.naming.classConstructor .root)
      ∃ output ∈ given.modules, output.id = ⟨"main"⟩ ∧ ∃ parent? ctor params inputs body report,
        .classDef (reached.session.naming.classConstructor .throwable) parent?
          [.methodDef false (.ident "constructor") params none ctor,
            .methodDef false (.ident "message") inputs none body,
            forwarder root ⟨"equals"⟩, forwarder root ⟨"hash"⟩,
            .methodDef false (.ident "report") [] none report] ∈ output.body := by
  intro setting former later
  let programs := [former] ++ [later]
  have accepted : ∀ program ∈ programs,
      (Emitter.fresh setting default).check program = .ok () := by decide +kernel
  have listed : ∀ program ∈ programs, program ∈ setting.accepted programs :=
    fun program found => Setting.mem_accepted.2 ⟨found, accepted program found⟩
  have last : later ∈ programs := by simp [programs]
  obtain ⟨given, reached, done⟩ :=
    (Emitter.fresh_sound_accepted setting default [former] [later]).emit_ok_of_safe
      (listed _ last) (fun _ => rfl) (accepted _ last) (by decide)
  let here : ClassIn (setting.accepted programs) :=
    ⟨⟨later, _, listed _ last, List.mem_singleton_self _⟩, reportingThrowable,
      List.mem_cons_of_mem _ (List.mem_singleton_self _)⟩
  obtain ⟨output, among, id, parent?, params, ctor, members, has, there⟩ :=
    Emitter.emit_throwable setting default [former] later done here rfl rfl rfl rfl rfl
  refine ⟨given, reached, done, output, among, id, parent?, ctor, params, ?_⟩
  have linkage : ∀ program ∈ programs,
      (ClassIndex.ofProgram program).linkageParts [.root] =
        (ClassIndex.ofProgram later).linkageParts [.root] ∧
      ∀ part ∈ (ClassIndex.ofProgram later).linkageParts [.root],
        part.utf8ByteSize < UInt64.size := by
    decide +kernel
  have names : members.bridged = [⟨"equals"⟩, ⟨"hash"⟩] := by
    let bridged : SortedSet MethodName := ⟨members.bridged, has.increasing⟩
    have same : bridged = ⟨[⟨"equals"⟩, ⟨"hash"⟩], by decide⟩ := by
      refine SortedSet.ext (fun name => (has.bridged name).trans ?_)
      rw [throwingProgram_rootDefines]
      change _ ↔ name ∈ [(⟨"equals"⟩ : MethodName), ⟨"hash"⟩]
      have defines : here.linked.definesPublicMethod name = false ↔ ⟨"message"⟩ ≠ name := by
        change (decide (⟨"message"⟩ = name) || false) = false ↔ _
        simp
      rw [defines]
      simp only [List.mem_cons, List.not_mem_nil, or_false]
      constructor
      · rintro ⟨rfl | rfl | rfl, differ⟩
        · exact .inr rfl
        · exact absurd rfl differ
        · exact .inl rfl
      · rintro (rfl | rfl)
        · exact ⟨.inr (.inr rfl), by decide⟩
        · exact ⟨.inl rfl, by decide⟩
    exact congrArg SortedSet.toList same
  have bridges : members.bridges =
      [⟨"equals"⟩, ⟨"hash"⟩].map
        (forwarder (.varRef (reached.session.naming.classConstructor .root))) := by
    rw [← names]
    refine has.forwarding (fun other _ => ?_)
    obtain ⟨same, fits⟩ := linkage other.program (Setting.mem_accepted.1 other.emitted).1
    rw [ModuleIn.index, ModuleIn.index, same]
    exact .of_eq fits
  have exported : members.exported = [[.methodDef false (.ident "report") [] none .skip]] := by
    have versions : ∀ member ∈ here.linked.exportedMembers, ∀ version : Version,
        ¬member.version.isSame version = true := by
      intro member found version same
      rw [List.mem_singleton.1 found] at same
      obtain ⟨token, absent, -⟩ := Version.isSame_iff.1 same
      cases absent
    refine has.current (fun other _ member found former _ _ same => ?_)
      (fun other _ member former position found _ same => ?_)
    · exact absurd same (versions member found former.version)
    · cases Version.isSame_of_combine same with
      | cons kinds rest =>
        cases rest with
        | cons own linkage =>
          exact absurd own (versions member (List.fst_mem_of_mem_zipIdx found) former.version)
  have methods : ∃ params body, members.methods =
      [.methodDef false (.ident "message") params none body] := by
    obtain ⟨tree, rest, ⟨⟨params, body, code⟩, -⟩, none, whole⟩ :=
      List.forall₂_cons_left_iff.1 has.methods
    rw [List.forall₂_nil_left_iff.1 none, code] at whole
    exact ⟨params, body, whole⟩
  obtain ⟨inputs, body, methods⟩ := methods
  refine ⟨inputs, body, .skip, ?_⟩
  rw [ThrowableMembers.trees, methods, bridges, exported] at there
  exact there

end JsEmitter
