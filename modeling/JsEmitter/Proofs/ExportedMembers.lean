import JsEmitter.Proofs.ClassLayouts
import JsEmitter.Proofs.CoveredCode
import JsEmitter.Proofs.LinkedModules
import JsEmitter.Proofs.MethodLinkage

/-!
# Exported members

The cache knows an exported member by its position in its class, and the version that it is asked
for under does not tell its name. So when the list of exported members changes, a member is served
the code of the one that was at its position before, unless their versions differ. Where they do,
or the members are the same, a class definition has the code of its own exported members, in their
order: `Emitter.emit_exportedMembers`.
-/
namespace JsEmitter

open Js (Tree)
open Lowering (Context)

variable {setting : Setting} {naming : Naming} {history : List Program}

/-- Whether a class keeps the exported members of another one: those of the same name are the same
as long as their versions are. -/
def LinkedClass.KeepsExports (linked former : LinkedClass) : Prop :=
  ∀ member ∈ linked.exportedMembers, ∀ other ∈ former.exportedMembers,
    other.value.name = member.value.name → member.version.isSame other.version = true →
      other.value = member.value

/-- Whether an exported member can stand for the one that was at its position, for all that their
versions do not tell. -/
structure ClassIn.CanReuse (setting : Setting) (here former : ClassIn history)
    (member other : ExportedMember) : Prop where
  name : other.name = member.name
  /-- Super calls go to the same parent, if they are not written with `super`. -/
  parent : Expr.anyCallsSuper member.bodies = true → ∀ naming,
    (setting.context naming former.site).superTarget
        ((setting.context naming former.site).memberScope former.linked).value =
      (setting.context naming here.site).superTarget
        ((setting.context naming here.site).memberScope here.linked).value
  /-- The host keeps native classes in the same places. -/
  natives : ∀ name, here.index.nativeLoadSpec? name = former.index.nativeLoadSpec? name
  plain : here.index.Unmarked
  clear : former.index.Unmarked
  digests : Version.Distinguished
    (here.index.linkageParts (here.linked.referencedClasses.insert .root).toList)
    (former.index.linkageParts (former.linked.referencedClasses.insert .root).toList)

/-- Whether the versions of the exported members of a class tell them from those of another one:
members that are asked for under the same version at the same position can stand for each other. -/
def ClassIn.TellsExports (setting : Setting) (here former : ClassIn history) : Prop :=
  ∀ member other position, (member, position) ∈ here.linked.exportedMembers.zipIdx →
    (other, position) ∈ former.linked.exportedMembers.zipIdx →
      ((setting.neutral here.site).exportedMemberVersion here.linked member).isSame
          ((setting.neutral former.site).exportedMemberVersion former.linked other) = true →
        here.CanReuse setting former member.value other.value

section Served

variable (valid : ∀ program ∈ history, program.Valid) {here : ClassIn history}

include valid

/-- Two exported members that can stand for each other have the same code if they are the same
member, and the linkage of their classes is the same. -/
theorem ClassIn.CanReuse.code_eq {former : ClassIn history} {member : Versioned ExportedMember}
    {other : ExportedMember} (reuse : here.CanReuse setting former member.value other)
    (key : former.key = here.key) (found : member ∈ here.linked.exportedMembers)
    (same : other = member.value)
    (foreign : former.linked.kind.isJsClass = here.linked.kind.isJsClass)
    (linkage : ((setting.neutral here.site).classLinkage here.linked).isSame
      ((setting.neutral former.site).classLinkage former.linked) = true) :
    ((setting.context naming former.site).exportedMember former.linked other).value =
      ((setting.context naming here.site).exportedMember here.linked member.value).value := by
  have natives := ClassIndex.SameNatives.of_forall reuse.natives
  obtain ⟨roots, facts⟩ := ClassIndex.sameFacts_of_linkageParts reuse.plain reuse.clear natives
    (reuse.digests.parts_eq linkage)
  have root := here.rootModule?_eq valid former.toModuleIn roots
  have covered : ∀ owner ∈ here.linked.referencedClasses,
      here.index.SameFacts former.index owner :=
    fun owner named => facts owner (SortedSet.mem_toList.2 (SortedSet.mem_insert.2 (.inr named)))
  have ancestor : here.linked.name ∈ here.linked.ancestors :=
    List.mem_of_mem_head? (here.head?_ancestors valid)
  have self := covered _ (LinkedClass.mem_referencedClasses_of_ancestor ancestor)
  have context : setting.context naming former.site =
      (setting.context naming here.site).reindex former.index :=
    here.context_eq former.toModuleIn (congrArg ClassKey.home key.symm)
  have parent := fun calls => reuse.parent calls naming
  rw [context] at parent
  rw [same, context]
  refine Context.exportedMember_value_reindex (ClassIn.name_eq valid key.symm) foreign self ?_
    parent
  intro body inside owner named
  have within : owner ∈ here.linked.referencedClasses :=
    LinkedClass.mem_referencedClasses_of_body
      (LinkedClass.mem_bodies_of_exportedMember found inside) named
  exact .of_root (covered owner within) root

variable (kept : ∀ former : ClassIn history, former.key = here.key →
    here.linked.KeepsExports former.linked)
  (told : ∀ former : ClassIn history, former.key = here.key → here.TellsExports setting former)

include kept told

/-- What a class is served for an exported member has the code of this member. -/
theorem ClassIn.exportedMember_served {member : Versioned ExportedMember} {position : Nat}
    (found : (member, position) ∈ here.linked.exportedMembers.zipIdx) {piece : Piece .trees}
    (served : Served setting history (.exportedMember (here.key, position))
      ((setting.neutral here.site).exportedMemberVersion here.linked member)
      (.exportedMember here.site here.linked member.value) piece) :
    (piece.run setting naming).value =
      ((setting.context naming here.site).exportedMember here.linked member.value).value := by
  cases versioned : ((setting.neutral here.site).exportedMemberVersion here.linked
      member).isVersioned with
  | false =>
    rw [served.unversioned versioned]
    rfl
  | true =>
    obtain ⟨former, other, exist, keys, versions, rfl⟩ := served.requested.exportedMember
    have version := Version.isSame_of_eq versions versioned
    have reuse := told former keys.symm member other position found exist version
    cases Version.isSame_of_combine version with
    | cons kinds rest =>
      cases rest with
      | cons own rest =>
        cases rest with
        | cons linkage =>
          have among := List.fst_mem_of_mem_zipIdx found
          have same := kept former keys.symm member among other (List.fst_mem_of_mem_zipIdx exist)
            reuse.name own
          exact reuse.code_eq valid keys.symm among same (Context.isJsClass_eq kinds).symm linkage

/-- The exported members of a definition that is made for a class have the code of those of the
class, in their order. -/
theorem ClassIn.exported_eq {definition : Definition}
    (made : definition.MadeFor setting history here.site here.linked) :
    definition.exported.map (fun piece => (piece.run setting naming).value) =
      here.linked.exportedMembers.map (fun member =>
        ((setting.context naming here.site).exportedMember here.linked member.value).value) := by
  have positions : here.linked.exportedMembers.zipIdx.map Prod.fst = here.linked.exportedMembers :=
    List.zipIdx_map_fst 0 _
  refine Eq.trans ?_ (congrArg (List.map _) positions)
  rw [List.map_map]
  refine (map_eq_map_iff.2 ?_).symm
  refine List.forall₂_iff_zip.2 ⟨made.exported.length_eq, fun {entry piece} found => ?_⟩
  have served := List.forall₂_zip made.exported found
  exact (here.exportedMember_served valid kept told (List.of_mem_zip found).1 served).symm

end Served

/-- A class that a module defines is defined in one piece in its body. -/
theorem ModulePieces.definition_infix_body {pieces : ModulePieces} {classPieces : ClassPieces}
    {definition : Definition} (among : classPieces ∈ pieces.classes)
    (defines : classPieces.definition? = some definition) :
    (definition.run setting naming).value <:+: pieces.body setting naming := by
  have trees : (definition.run setting naming).value <:+:
      (classPieces.fragments setting naming).value.main := by
    have given : (classPieces.definitionTrees setting naming).value =
        (definition.run setting naming).value := by
      rw [ClassPieces.definitionTrees, defines]
      rfl
    rw [← given]
    exact ⟨_, _, rfl⟩
  have fragments : (classPieces.fragments setting naming).value ∈
      (pieces.fragments setting naming).value := by
    rw [pieces.fragments_value]
    exact List.mem_map_of_mem among
  have statements : (definition.run setting naming).value <:+:
      Emission.classStatements (setting.context naming pieces.site)
        (pieces.library setting naming).value (pieces.fragments setting naming).value :=
    trees.trans (Emission.main_infix_classStatements fragments)
  exact statements.trans (((List.prefix_append _ _).trans (List.prefix_append _ _)).trans
    (List.prefix_append _ _)).isInfix

namespace Emitter

/-- A successful run of a sound emitter defines its classes with the exported members that they have
then. -/
theorem Sound.emit_exported {emitter : Emitter} (sound : Sound setting history emitter)
    (valid : ∀ program ∈ history, program.Valid) (here : ClassIn history) {given : EmitResult}
    {reached : Emitter} (done : Emitter.emit here.program emitter = .ok given reached)
    (defined : here.linked.needsDefinition = true)
    (kept : ∀ former : ClassIn history, former.key = here.key →
      here.linked.KeepsExports former.linked)
    (told : ∀ former : ClassIn history, former.key = here.key → here.TellsExports setting former) :
    ∃ output ∈ given.modules, output.id = here.unit.id ∧
      ∃ site linked ctor members, ClassKey.ofClass site.home linked = here.key ∧
        members.length = (Context.memberMethods here.linked).length +
          ((setting.neutral here.site).bridgedMethods here.linked).length ∧
        ((setting.context reached.session.naming site).fullClass linked ctor members
          (here.linked.exportedMembers.map (fun member =>
            ((setting.context reached.session.naming here.site).exportedMember here.linked
              member.value).value))).value <:+: output.body ∧
        ((∀ former : ClassIn history, former.key = here.key →
            here.linked.version.isSame former.linked.version = true →
              former.program = here.program) →
          site = here.site ∧ linked = here.linked) := by
  obtain ⟨checked, parts, modules, made⟩ := sound.emit_parts here.emitted done
  have madeHere := made here.unit here.placed
  obtain ⟨classPieces, among, classMade⟩ :=
    exists_of_forall₂ madeHere.classes.flip (Module.mem_emissionOrder.2 here.there)
  obtain ⟨definition, defines, definitionMade⟩ := classMade.defined defined
  obtain ⟨former, key, versions, site, linked⟩ := definitionMade.whole.exists
  have among : classPieces ∈ (parts here.unit).classes := among
  have body : (definition.run setting reached.session.naming).value <:+:
      (parts here.unit).body setting reached.session.naming :=
    ModulePieces.definition_infix_body among defines
  rw [Definition.run, here.exported_eq valid kept told definitionMade] at body
  refine ⟨(parts here.unit).output setting reached.session.naming, ?_, madeHere.id,
    definition.site, definition.linked, _, _, ?_, ?_, body, fun fresh => ?_⟩
  · exact modules.mem_iff.2 (List.mem_map_of_mem here.placed)
  · rw [site, linked]
    exact key.symm
  · obtain ⟨methods, bridges, members, methodsMade, bridgesMade⟩ := definitionMade.members
    rw [members, List.length_map, List.length_append, ← methodsMade.length_eq,
      ← bridgesMade.length_eq]
    rfl
  · cases versioned : ((setting.neutral here.site).classVersion here.linked).isVersioned with
    | false => exact definitionMade.ownWhole versioned
    | true =>
      have parts := Version.isSame_of_combine (Version.isSame_of_eq versions versioned)
      cases parts with
      | cons own rest =>
        have program := fresh former key.symm own
        have ancestors : here.linked.ancestors = former.linked.ancestors :=
          congrArg ClassKey.ancestors key
        have there : former.unit ∈ here.program.modules := program ▸ former.placed
        obtain ⟨unit, same⟩ := checked.class_eq_of_key here.placed there here.there former.there
          ancestors
        have sites : former.site = here.site := by
          unfold ModuleIn.site
          rw [program, unit]
        exact ⟨site.trans sites, linked.trans same.symm⟩

/-- In every successful run of an emitter, the definition of a class has the code of the exported
members that the class has then, in their order: if members that keep their name and version stay
the same, and the versions tell them from those that were at their positions before. It is the
definition of the class itself if no other program had a class of its key and version. -/
theorem emit_exportedMembers (setting : Setting) (supply : TokenSupply) (earlier : List Program)
    (program : Program) {given : EmitResult} {reached : Emitter}
    (done : emit program ((fresh setting supply).afterAll earlier) = .ok given reached)
    (here : ClassIn (setting.accepted (earlier ++ [program]))) (emitted : here.program = program)
    (defined : here.linked.needsDefinition = true)
    (kept : ∀ former : ClassIn (setting.accepted (earlier ++ [program])),
      former.key = here.key → here.linked.KeepsExports former.linked)
    (told : ∀ former : ClassIn (setting.accepted (earlier ++ [program])),
      former.key = here.key → here.TellsExports setting former) :
    ∃ output ∈ given.modules, output.id = here.unit.id ∧
      ∃ site linked ctor members, ClassKey.ofClass site.home linked = here.key ∧
        members.length = (Context.memberMethods here.linked).length +
          ((setting.neutral here.site).bridgedMethods here.linked).length ∧
        ((setting.context reached.session.naming site).fullClass linked ctor members
          (here.linked.exportedMembers.map (fun member =>
            ((setting.context reached.session.naming here.site).exportedMember here.linked
              member.value).value))).value <:+: output.body ∧
        ((∀ former : ClassIn (setting.accepted (earlier ++ [program])), former.key = here.key →
            here.linked.version.isSame former.linked.version = true →
              former.program = here.program) →
          site = here.site ∧ linked = here.linked) := by
  have sound : Sound setting (setting.accepted (earlier ++ [program]))
      ((fresh setting supply).afterAll earlier) :=
    (fresh_sound setting _ supply).afterAll (fun before found checked =>
      Setting.mem_accepted.2 ⟨List.mem_append_left _ found, checked⟩)
  have valid : ∀ before ∈ setting.accepted (earlier ++ [program]), before.Valid :=
    fun _ found => valid_of_check (Setting.mem_accepted.1 found).2
  rw [← emitted] at done
  exact sound.emit_exported valid here done defined kept told

end Emitter

/-- A class that exports some methods without statements, each with a name and a version. -/
def facadeClass (version : Version) (exported : List (String × Version)) : LinkedClass :=
  { (LinkedClass.start ⟨"app.A"⟩ .plain).extend .root with
    version := version
    exportedMembers := exported.map (fun entry => ⟨.method entry.1 false [] .skip, entry.2⟩)
    hasInstances := true }

/-- The module of a class that exports some methods, and of the root class. -/
def facadeModule (linked : LinkedClass) : Module :=
  { Module.start ⟨"main"⟩ with
    isRoot := true
    classes := [{ LinkedClass.start .root .plain with hasInstances := true }, linked] }

/-- A class that exports two methods. -/
def formerFacade : LinkedClass :=
  facadeClass firstVersion [("open", .ofInt 1), ("close", .ofInt 2)]

/-- The class after a method has been inserted between its two. -/
def laterFacade : LinkedClass :=
  facadeClass (.ofInt 2) [("open", .ofInt 1), ("flush", .ofInt 3), ("close", .ofInt 2)]

/-- A program of a class that exports methods. -/
def facadeProgram (linked : LinkedClass) : Program := ⟨[facadeModule linked]⟩

/-- The facade class keeps its exports, whatever its versions are. -/
theorem facadeClass_keepsExports (version another : Version)
    (exported others : List (String × Version)) :
    (facadeClass version exported).KeepsExports (facadeClass another others) := by
  intro member found other there name _
  obtain ⟨entry, -, rfl⟩ := List.mem_map.1 found
  obtain ⟨former, -, rfl⟩ := List.mem_map.1 there
  exact congrArg (fun name => ExportedMember.method name false [] .skip) name

/-- The version tells the later facade from the former one. -/
theorem facade_of_version : ∀ facade ∈ [formerFacade, laterFacade],
    laterFacade.version.isSame facade.version = true → facade = laterFacade := by
  intro facade listed same
  rcases List.mem_cons.1 listed with rfl | own
  · exact absurd same (by decide +kernel)
  · exact List.mem_singleton.1 own

/-- In programs of facades, a class with the key of the later one is the facade of its program. -/
theorem ClassIn.facade_eq {history : List Program} {here : ClassIn history}
    (key : here.key = .ofClass ⟨"main"⟩ laterFacade)
    (facades : here.program ∈ [formerFacade, laterFacade].map facadeProgram) :
    ∃ facade ∈ [formerFacade, laterFacade],
      here.program = facadeProgram facade ∧ here.linked = facade := by
  obtain ⟨facade, listed, program⟩ := List.mem_map.1 facades
  refine ⟨facade, listed, program.symm, ?_⟩
  have ancestors : here.linked.ancestors = laterFacade.ancestors := congrArg ClassKey.ancestors key
  have placed := here.placed
  have there := here.there
  rw [← program] at placed
  rw [List.mem_singleton.1 placed] at there
  rcases List.mem_cons.1 there with root | own
  · rw [root] at ancestors
    exact absurd ancestors (by decide)
  · exact List.mem_singleton.1 own

/-- No facade has native classes or names with a mark, and both have the same linkage. -/
theorem facade_facts : ∀ facade ∈ [formerFacade, laterFacade],
    let index := ClassIndex.ofProgram (facadeProgram facade)
    let parts := index.linkageParts (facade.referencedClasses.insert .root).toList
    (∀ entry ∈ index.entries, entry.2.nativeLoadSpec? = none) ∧
      (∀ unit ∈ (facadeProgram facade).modules, ∀ linked ∈ unit.classes,
        '@' ∉ linked.name.text.toList) ∧
      parts = (ClassIndex.ofProgram (facadeProgram laterFacade)).linkageParts
        (laterFacade.referencedClasses.insert .root).toList ∧
      ∀ part ∈ parts, part.utf8ByteSize < UInt64.size := by
  decide +kernel

/-- Members of the later facade have the name of those with their version at their position. -/
theorem facade_names : ∀ facade ∈ [formerFacade, laterFacade],
    ∀ entry ∈ laterFacade.exportedMembers.zipIdx, ∀ other ∈ facade.exportedMembers.zipIdx,
      entry.2 = other.2 → entry.1.version.isSame other.1.version = true →
        other.1.value.name = entry.1.value.name := by
  decide +kernel

/-- The versions of the later facade tell its members from those of both facades. -/
theorem ClassIn.TellsExports.facade {history : List Program} {here former : ClassIn history}
    {facade : LinkedClass} (later : here.program = facadeProgram laterFacade)
    (own : here.linked = laterFacade) (listed : facade ∈ [formerFacade, laterFacade])
    (program : former.program = facadeProgram facade) (linked : former.linked = facade) :
    here.TellsExports setting former := by
  intro member other position found exist version
  obtain ⟨natives, plain, -, fits⟩ := facade_facts laterFacade (by simp)
  obtain ⟨hosts, clear, parts, -⟩ := facade_facts facade listed
  have index : here.index = .ofProgram (facadeProgram laterFacade) := by
    rw [ModuleIn.index, later]
  have formerIndex : former.index = .ofProgram (facadeProgram facade) := by
    rw [ModuleIn.index, program]
  rw [own] at found
  rw [linked] at exist
  have same : member.version.isSame other.version = true := by
    cases Version.isSame_of_combine version with
    | cons kinds rest =>
      cases rest with
      | cons same linkage => exact same
  exact {
    name := facade_names facade listed _ found _ exist rfl same
    parent := by
      obtain ⟨entry, -, rfl⟩ := List.mem_map.1 (List.fst_mem_of_mem_zipIdx found)
      intro calls
      cases calls
    natives := by
      rw [index, formerIndex]
      exact ClassIndex.natives_eq natives hosts
    plain := index ▸ .ofProgram plain
    clear := formerIndex ▸ .ofProgram clear
    digests := by
      rw [index, formerIndex, own, linked, parts]
      exact .of_eq fits }

/-- A member is inserted between two others, which keep their names and versions. The second run
puts the new one between them. -/
theorem Emitter.emit_exportedMembers_inserted :
    let setting : Setting := ⟨.standard, fun _ => false⟩
    ∃ given reached, Emitter.emit (facadeProgram laterFacade)
        ((Emitter.fresh setting default).afterAll [facadeProgram formerFacade]) =
          .ok given reached ∧
      ∃ output ∈ given.modules, output.id = ⟨"main"⟩ ∧ ∃ ctor,
        let context := setting.context reached.session.naming
          ((facadeProgram laterFacade).site (facadeModule laterFacade))
        (context.fullClass laterFacade ctor []
          (laterFacade.exportedMembers.map (fun member =>
            (context.exportedMember laterFacade member.value).value))).value <:+: output.body := by
  intro setting
  let programs := [formerFacade, laterFacade].map facadeProgram
  have accepted : ∀ program ∈ programs,
      (Emitter.fresh setting default).check program = .ok () := by decide +kernel
  have listed : ∀ program ∈ programs, program ∈ setting.accepted programs :=
    fun program found => Setting.mem_accepted.2 ⟨found, accepted program found⟩
  have last : facadeProgram laterFacade ∈ programs := by simp [programs]
  let here : ClassIn (setting.accepted programs) :=
    ⟨⟨facadeProgram laterFacade, facadeModule laterFacade, listed _ last,
      List.mem_singleton_self _⟩, laterFacade, by simp [facadeModule]⟩
  have sound : Sound setting (setting.accepted programs)
      ((Emitter.fresh setting default).afterAll [facadeProgram formerFacade]) :=
    (Emitter.fresh_sound setting _ default).afterAll (fun before found checked =>
      Setting.mem_accepted.2 ⟨List.mem_append_left _ found, checked⟩)
  obtain ⟨given, reached, done⟩ :=
    sound.emit_ok_of_safe (listed _ last) (fun _ => rfl) (accepted _ last) (by decide)
  have one : ∀ former : ClassIn (setting.accepted programs), former.key = here.key →
      ∃ facade ∈ [formerFacade, laterFacade],
        former.program = facadeProgram facade ∧ former.linked = facade :=
    fun former key => former.facade_eq key (Setting.mem_accepted.1 former.emitted).1
  have kept : ∀ former : ClassIn (setting.accepted programs), former.key = here.key →
      here.linked.KeepsExports former.linked := by
    intro former key
    obtain ⟨facade, among, -, same⟩ := one former key
    rw [same]
    rcases List.mem_cons.1 among with rfl | later
    · exact facadeClass_keepsExports _ _ _ _
    · rw [List.mem_singleton.1 later]
      exact facadeClass_keepsExports _ _ _ _
  have told : ∀ former : ClassIn (setting.accepted programs), former.key = here.key →
      here.TellsExports setting former := by
    intro former key
    obtain ⟨facade, among, program, linked⟩ := one former key
    exact .facade rfl rfl among program linked
  obtain ⟨output, among, id, site, linked, ctor, members, -, count, body, own⟩ :=
    Emitter.emit_exportedMembers setting default [facadeProgram formerFacade]
      (facadeProgram laterFacade) done here rfl rfl kept told
  obtain ⟨rfl, rfl⟩ := own (fun former key same => by
    obtain ⟨facade, among, program, linked⟩ := one former key
    rw [linked] at same
    rw [program, facade_of_version facade among same])
  have bare : (Context.memberMethods laterFacade).length +
      ((setting.neutral
        ((facadeProgram laterFacade).site (facadeModule laterFacade))).bridgedMethods
          laterFacade).length = 0 := by
    decide +kernel
  rw [List.length_eq_zero_iff.1 (count.trans bare)] at body
  exact ⟨given, reached, done, output, among, id, ctor, body⟩

end JsEmitter
