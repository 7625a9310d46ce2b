import JsEmitter.Proofs.Requests

/-!
# Same versions

What follows for classes and modules of a readable history that have the same version: the parts of
them that the version is made from are the same, and so are the facts about other classes that it
digests.
-/
namespace JsEmitter

open Lowering (Context)

variable {setting : Setting} {naming : Naming} {history : List Program}

namespace LinkedClass

/-- Member methods are public methods of instances. -/
theorem home_of_mem_memberMethods {linked : LinkedClass} {method : Versioned MethodDef}
    (found : method ∈ Context.memberMethods linked) : method.value.home = .instancePublic := by
  have member := (List.mem_filter.1 found).2
  simp only [isFreeFunction, ne_eq, Bool.not_or, Bool.and_eq_true, Bool.not_eq_eq_eq_not,
    Bool.not_true, decide_eq_false_iff_not, Decidable.not_not] at member
  exact member.2

end LinkedClass

namespace Lowering.Context

/-- The version of an inlined constructor is its own version. -/
theorem inlinedVersion_eq {context : Context} {linked : LinkedClass} {ctor : Versioned MethodDef}
    (inlined : context.inlinedConstructor? linked = some ctor) :
    inlinedVersion linked ctor.value.name = ctor.version := by
  unfold inlinedConstructor? at inlined
  split at inlined
  · unfold inlinedVersion
    cases all : linked.constructors with
    | nil =>
      rw [all] at inlined
      cases inlined
    | cons head rest =>
      rw [all] at inlined
      cases inlined
      simp
  · cases inlined

/-- Exported members of foreign classes have other versions than those of ordinary classes. -/
theorem isJsClass_eq {first second : ClassKind}
    (same : (Version.ofInt (if first.isJsClass then 1 else 0)).isSame
      (.ofInt (if second.isJsClass then 1 else 0)) = true) :
    first.isJsClass = second.isJsClass := by
  cases one : first.isJsClass <;> cases two : second.isJsClass <;> first | rfl | skip
  all_goals
    rw [one, two] at same
    exact absurd same (by decide)

/-- The version of the constructor itself that a class definition has, if it has one. -/
def ownVersion? (context : Context) (linked : LinkedClass) : Option Version :=
  if linked.kind.isJsClass then linked.jsConstructor?.map Versioned.version
  else (context.inlinedConstructor? linked).map Versioned.version

/-- The version of the constructor of a class that has one. -/
theorem constructorVersion_eq {site : Site} {linked : LinkedClass} {piece : Piece .ctor}
    (made : site.constructor? linked = .ok piece) :
    (setting.neutral site).constructorVersion linked =
      match (setting.neutral site).ownVersion? linked with
      | some own => .combine [(setting.neutral site).classVersion linked, own]
      | none => (setting.neutral site).classVersion linked := by
  unfold Site.constructor? at made
  unfold constructorVersion ownVersion?
  cases foreign : linked.kind.isJsClass with
  | true =>
    cases found : linked.jsConstructor? with
    | some ctor => rfl
    | none =>
      simp only [foreign, found, if_true] at made
      cases made
  | false =>
    have none : linked.jsConstructor?.filter (fun _ => false) = none := by simp
    simp only [none, Bool.false_eq_true, if_false]
    cases inlined : (setting.neutral site).inlinedConstructor? linked with
    | none => rfl
    | some ctor =>
      simp only [Option.map_some]
      rw [inlinedVersion_eq inlined]

end Lowering.Context

namespace Readable

variable (readable : Readable history)

include readable

section Classes

variable (first second : ClassIn history) (key : first.key = second.key)

include key

/-- Two classes with one key have the same name. -/
theorem name_eq : second.linked.name = first.linked.name :=
  ClassIn.name_eq readable.valid key

omit key in
/-- A class is one of its own ancestors. -/
theorem name_mem_ancestors : first.linked.name ∈ first.linked.ancestors :=
  List.mem_of_mem_head? (first.head?_ancestors readable.valid)

omit key in
/-- A class refers to itself. -/
theorem name_mem_referencedClasses : first.linked.name ∈ first.linked.referencedClasses :=
  LinkedClass.mem_referencedClasses_of_ancestor (readable.name_mem_ancestors first)

/-- Methods that are asked for under the same version are the same, and so are the facts about the
classes that they name. -/
theorem methodVersion_eq {method other : Versioned MethodDef}
    (found : method ∈ first.linked.methods)
    (there : other ∈ second.linked.methods) (homes : method.value.home = other.value.home)
    (names : method.value.name = other.value.name)
    (versions : (setting.neutral first.site).methodVersion first.linked method =
      (setting.neutral second.site).methodVersion second.linked other)
    (versioned : ((setting.neutral first.site).methodVersion first.linked method).isVersioned =
      true) :
    other.value = method.value ∧ first.index.rootModule? = second.index.rootModule? ∧
      ∀ owner ∈ first.linked.ancestors ++ method.value.body.classes,
        first.index.SameFacts second.index owner := by
  have parts := Version.isSame_of_combine (Version.isSame_of_eq versions versioned)
  cases parts with
  | cons own rest =>
    cases rest with
    | cons linkage =>
      have values := readable.faithful.methods first second key method found other there homes
        names own
      obtain ⟨root, facts⟩ := readable.sameFacts first.toModuleIn second.toModuleIn
        (first.method_digested found) (second.method_digested there) linkage
      refine ⟨values, root, fun owner named => facts owner ?_⟩
      rw [SortedSet.mem_toList, Context.methodClasses, SortedSet.mem_ofList]
      exact named

omit key in
/-- Classes with the same linkage agree in the facts about all classes that they refer to. -/
theorem classLinkage_eq
    (same : ((setting.neutral first.site).classLinkage first.linked).isSame
      ((setting.neutral second.site).classLinkage second.linked) = true) :
    first.index.rootModule? = second.index.rootModule? ∧
      ∀ owner ∈ first.linked.referencedClasses.insert .root,
        first.index.SameFacts second.index owner :=
  readable.sameFacts first.toModuleIn second.toModuleIn first.linkage_digested
    second.linkage_digested same

/-- Classes with the same version have the same outline, and the facts about all classes that they
refer to are the same. -/
theorem classVersion_eq
    (same : ((setting.neutral first.site).classVersion first.linked).isSame
      ((setting.neutral second.site).classVersion second.linked) = true) :
    (setting.context naming first.site).SameClass second.index first.linked second.linked := by
  have parts := Version.isSame_of_combine same
  cases parts with
  | cons own rest =>
    cases rest with
    | cons linkage =>
      obtain ⟨root, facts⟩ := readable.classLinkage_eq first second linkage
      have self := readable.name_mem_referencedClasses first
      exact {
        name := readable.name_eq first second key
        ancestors := (congrArg ClassKey.ancestors key).symm
        outline := readable.faithful.outline first second key own
        root := root
        self := facts _ (SortedSet.mem_insert.2 (.inr self))
        facts := facts }

omit key in
/-- The facts about the class itself are covered by the versions of its exported members. -/
theorem exportedMemberVersion_self {member other : Versioned ExportedMember}
    (same : ((setting.neutral first.site).exportedMemberVersion first.linked member).isSame
      ((setting.neutral second.site).exportedMemberVersion second.linked other) = true) :
    first.index.SameFacts second.index first.linked.name := by
  cases Version.isSame_of_combine same with
  | cons kinds rest =>
    cases rest with
    | cons own rest =>
      cases rest with
      | cons linkage =>
        exact (readable.classLinkage_eq first second linkage).2 _
          (SortedSet.mem_insert.2 (.inr (readable.name_mem_referencedClasses first)))

/-- Exported members that are asked for under the same version are the same, and so are the facts
about the classes that they name. -/
theorem exportedMemberVersion_eq {member other : Versioned ExportedMember} {position : Nat}
    (found : (member, position) ∈ first.linked.exportedMembers.zipIdx)
    (there : (other, position) ∈ second.linked.exportedMembers.zipIdx)
    (same : ((setting.neutral first.site).exportedMemberVersion first.linked member).isSame
      ((setting.neutral second.site).exportedMemberVersion second.linked other) = true) :
    second.linked.kind.isJsClass = first.linked.kind.isJsClass ∧ other.value = member.value ∧
      first.index.rootModule? = second.index.rootModule? ∧
      ∀ body ∈ member.value.bodies, ∀ owner ∈ body.classes,
        first.index.SameFacts second.index owner := by
  cases Version.isSame_of_combine same with
  | cons kinds rest =>
    cases rest with
    | cons own rest =>
      cases rest with
      | cons linkage =>
        have values := readable.faithful.exportedMembers first second key member other position
          found there own
        obtain ⟨root, facts⟩ := readable.classLinkage_eq first second linkage
        refine ⟨(Context.isJsClass_eq kinds).symm, values, root, fun body lies owner named => ?_⟩
        exact facts owner (SortedSet.mem_insert.2 (.inr (LinkedClass.mem_referencedClasses_of_body
          (LinkedClass.mem_bodies_of_exportedMember (List.fst_mem_of_mem_zipIdx found) lies)
          named)))

end Classes

/-- The inlined constructors of classes with the same version are the same if their own versions
are. -/
theorem inlinedConstructor_eq (first second : ClassIn history) (key : first.key = second.key)
    (same : (setting.context naming first.site).SameClass second.index first.linked second.linked)
    (owns : ∀ one ∈ ((setting.neutral first.site).inlinedConstructor? first.linked).map
        Versioned.version,
      ∀ two ∈ ((setting.neutral second.site).inlinedConstructor? second.linked).map
        Versioned.version, one.isSame two = true) :
    (((setting.context naming first.site).reindex second.index).inlinedConstructor?
        second.linked).map Versioned.value =
      ((setting.context naming first.site).inlinedConstructor? first.linked).map
        Versioned.value := by
  have inlines : second.index.inlinesConstructor second.linked.name =
      first.index.inlinesConstructor first.linked.name :=
    Context.inlinesConstructor_reindex same
  have names : second.linked.constructors.head?.map (fun ctor => ctor.value.name) =
      first.linked.constructors.head?.map (fun ctor => ctor.value.name) :=
    same.outline.firstName .constructor
  change (if second.index.inlinesConstructor second.linked.name = true then
    second.linked.constructors.head? else none).map _ =
    (if first.index.inlinesConstructor first.linked.name = true then
      first.linked.constructors.head? else none).map _
  change ∀ one ∈ (if first.index.inlinesConstructor first.linked.name = true then
    first.linked.constructors.head? else none).map _, ∀ two ∈
    (if second.index.inlinesConstructor second.linked.name = true then
      second.linked.constructors.head? else none).map _, _ at owns
  rw [inlines] at owns ⊢
  split
  · next inlined =>
    simp only [inlined, if_true] at owns
    have inside : ∀ {linked : LinkedClass} {ctor : Versioned MethodDef},
        linked.constructors.head? = some ctor →
          ctor ∈ linked.methods ∧ ctor.value.home = .constructor := by
      intro linked ctor head
      have found := List.mem_filter.1 (List.mem_of_mem_head? head)
      exact ⟨found.1, of_decide_eq_true found.2⟩
    cases one : first.linked.constructors.head? with
    | none =>
      rw [one] at names
      rw [Option.map_eq_none_iff.1 names]
    | some ctor =>
      rw [one] at names owns
      obtain ⟨another, two, name⟩ := Option.map_eq_some_iff.1 names
      rw [two] at owns ⊢
      have values := readable.faithful.methods first second key ctor (inside one).1 another
        (inside two).1 ((inside one).2.trans (inside two).2.symm) name.symm (owns _ rfl _ rfl)
      simp only [Option.map_some, values]
  · rfl

/-- The version of a class does not look like the version of its pieces. -/
theorem version_ne_classVersion (here : ClassIn history) (context : Context)
    (linked : LinkedClass) :
    (context.classVersion linked).isSame here.linked.version ≠ true := by
  intro same
  obtain ⟨token, first, second⟩ := Version.isSame_iff.1 same
  obtain ⟨tokens, -, rfl⟩ := Option.map_eq_some_iff.1 first
  exact readable.legible.tokens here tokens second

/-- Constructors with the same version are constructors of classes with the same version, and have
the same version of their own. -/
theorem constructorVersion_same (first second : ClassIn history) {piece other : Piece .ctor}
    (made : first.site.constructor? first.linked = .ok piece)
    (alike : second.site.constructor? second.linked = .ok other)
    (same : ((setting.neutral first.site).constructorVersion first.linked).isSame
      ((setting.neutral second.site).constructorVersion second.linked) = true) :
    ((setting.neutral first.site).classVersion first.linked).isSame
        ((setting.neutral second.site).classVersion second.linked) = true ∧
      ∀ one ∈ (setting.neutral first.site).ownVersion? first.linked,
      ∀ two ∈ (setting.neutral second.site).ownVersion? second.linked,
        one.isSame two = true := by
  rw [Context.constructorVersion_eq made, Context.constructorVersion_eq alike] at same
  cases one : (setting.neutral first.site).ownVersion? first.linked with
  | some own =>
    cases two : (setting.neutral second.site).ownVersion? second.linked with
    | some another =>
      rw [one, two] at same
      cases Version.isSame_of_combine same with
      | cons classes rest =>
        cases rest with
        | cons owns =>
          refine ⟨classes, ?_⟩
          rintro _ ⟨⟩ _ ⟨⟩
          exact owns
    | none =>
      rw [one, two] at same
      cases Version.isSame_of_combine same with
      | cons classes => exact (readable.version_ne_classVersion second _ _ classes).elim
  | none =>
    cases two : (setting.neutral second.site).ownVersion? second.linked with
    | some another =>
      rw [one, two] at same
      cases Version.isSame_of_combine (Version.isSame_symm same) with
      | cons classes => exact (readable.version_ne_classVersion first _ _ classes).elim
    | none =>
      rw [one, two] at same
      exact ⟨same, by rintro _ ⟨⟩⟩

section Modules

variable (first second : ModuleIn history) (id : first.unit.id = second.unit.id)

omit readable in
/-- Texts of two kinds, one kind after the other, are told apart by their marks. -/
theorem dependencies_inj {internal others : List ModuleId} {external sources : List String}
    (same : internal.map (fun id => "int:" ++ id.text) ++
        external.map (fun source => "ext:" ++ source) =
      others.map (fun id => "int:" ++ id.text) ++ sources.map (fun source => "ext:" ++ source)) :
    internal = others ∧ external = sources := by
  have apart : ∀ id source : String, "int:" ++ id ≠ "ext:" ++ source := by
    intro id source texts
    have chars := congrArg (fun text => text.toList.head?) texts
    simp at chars
  induction internal generalizing others with
  | nil =>
    cases others with
    | nil =>
      refine ⟨rfl, List.map_injective_iff.2 (fun left right texts => ?_) same⟩
      exact (String.append_right_inj _).1 texts
    | cons head rest =>
      cases external with
      | nil => cases same
      | cons source sources => exact (apart _ _ (List.cons.inj same).1.symm).elim
  | cons head rest ih =>
    cases others with
    | nil =>
      cases sources with
      | nil => cases same
      | cons source sources => exact (apart _ _ (List.cons.inj same).1).elim
    | cons other others =>
      obtain ⟨texts, rests⟩ := List.cons.inj same
      obtain ⟨rfl, externals⟩ := ih rests
      have heads : head = other := Name.text_injective ((String.append_right_inj _).1 texts)
      exact ⟨congrArg (· :: _) heads, externals⟩

/-- Modules with the same version of their imports have the same dependencies and root module. -/
theorem importsVersion_eq
    (same : ((setting.neutral first.site).importsVersion first.unit).isSame
      ((setting.neutral second.site).importsVersion second.unit) = true) :
    first.index.rootModule? = second.index.rootModule? ∧
      second.unit.internalDependencies = first.unit.internalDependencies ∧
      second.unit.externalDependencies = first.unit.externalDependencies := by
  have parts : first.index.importParts first.unit = second.index.importParts second.unit :=
    readable.parts_eq first second (first.mem_digested (by simp)) (second.mem_digested (by simp))
      same
  obtain ⟨roots, rest⟩ := List.cons.inj parts
  obtain ⟨internal, external⟩ := dependencies_inj rest
  exact ⟨readable.root_eq first second ((String.append_right_inj _).1 roots),
    SortedSet.ext (fun member => by simp only [← SortedSet.mem_toList, internal]),
    SortedSet.ext (fun member => by simp only [← SortedSet.mem_toList, external])⟩

include id

/-- Exports with the same version are the same entries, and the texts of the owners of their classes
are the same. -/
theorem topLevelExportsVersion_eq
    (same : ((setting.neutral first.site).topLevelExportsVersion first.unit).isSame
      ((setting.neutral second.site).topLevelExportsVersion second.unit) = true) :
    List.Forall₂ (fun entry other => other.name = entry.name ∧ other.kind = entry.kind)
        first.unit.topLevelExports second.unit.topLevelExports ∧
      first.index.ownerParts first.unit.exportedClasses =
        second.index.ownerParts second.unit.exportedClasses := by
  have parts := List.forall₂_reverse_iff.2 (Version.isSame_of_combine same)
  simp only [List.reverse_append, List.reverse_cons, List.reverse_nil, List.nil_append,
    List.cons_append] at parts
  cases parts with
  | cons owners rest =>
    cases rest with
    | cons names versions =>
      have texts := readable.parts_eq first second (first.mem_digested (by simp))
        (second.mem_digested (by simp)) names
      rw [List.forall₂_reverse_iff, List.forall₂_map_left_iff, List.forall₂_map_right_iff]
        at versions
      refine ⟨?_, readable.parts_eq first second (first.mem_digested (by simp))
        (second.mem_digested (by simp)) owners⟩
      rw [map_eq_map_iff] at texts
      refine List.forall₂_iff_zip.2 ⟨versions.length_eq, fun {entry other} found => ?_⟩
      obtain ⟨here, there⟩ := List.of_mem_zip found
      have name := List.forall₂_zip texts found
      exact ⟨name.symm, readable.faithful.topLevelExports first second id entry here other there
        name (List.forall₂_zip versions found)⟩

/-- Load-time calls with the same version are the same, and so are the texts of the owners of their
classes. -/
theorem initializersVersion_eq
    (same : ((setting.neutral first.site).initializersVersion first.unit).isSame
      ((setting.neutral second.site).initializersVersion second.unit) = true) :
    second.unit.initializers = first.unit.initializers ∧
      first.index.ownerParts (first.unit.initializers.map Initializer.owner) =
        second.index.ownerParts (second.unit.initializers.map Initializer.owner) := by
  cases Version.isSame_of_combine same with
  | cons own rest =>
    cases rest with
    | cons owners =>
      exact ⟨readable.faithful.initializers first second id own,
        readable.parts_eq first second (first.mem_digested (by simp))
          (second.mem_digested (by simp)) owners⟩

end Modules

section Requests

variable {version : Version} (versioned : version.isVersioned = true)

include versioned

/-- Functions that are asked for at the same place under the same version are functions of the same
method, and the facts about the classes that it names are the same. -/
theorem function_requests {key : FunctionKey} {piece other : Piece .tree}
    (first : Requested setting history (.function key) version piece)
    (second : Requested setting history (.function key) version other) :
    ∃ (here there : ClassIn history) (method : MethodDef), here.key = there.key ∧
      piece = .function here.site here.linked method ∧
      other = .function there.site there.linked method ∧
      here.index.rootModule? = there.index.rootModule? ∧
      ∀ owner ∈ here.linked.ancestors ++ method.body.classes,
        here.index.SameFacts there.index owner := by
  obtain ⟨key, home, name⟩ := key
  obtain ⟨here, method, found, rfl, rfl, rfl, rfl, rfl⟩ := first.function
  obtain ⟨there, another, exist, keys, homes, names, versions, rfl⟩ := second.function
  obtain ⟨values, root, facts⟩ := readable.methodVersion_eq here there keys
    ((LinkedClass.requestedFunctions_sublist _ _).mem found)
    ((LinkedClass.requestedFunctions_sublist _ _).mem exist) homes names versions versioned
  exact ⟨here, there, method.value, keys, rfl, by rw [values], root, facts⟩

/-- Members that are asked for at the same place under the same version are members for the same
method, and the facts about the classes that it names are the same. -/
theorem member_requests {key : MemberKey} {piece other : Piece .tree}
    (first : Requested setting history (.member key) version piece)
    (second : Requested setting history (.member key) version other) :
    ∃ (here there : ClassIn history) (method : MethodDef), here.key = there.key ∧
      piece = .member here.site here.linked method ∧
      other = .member there.site there.linked method ∧
      here.index.rootModule? = there.index.rootModule? ∧
      ∀ owner ∈ here.linked.ancestors ++ method.body.classes,
        here.index.SameFacts there.index owner := by
  obtain ⟨key, name⟩ := key
  obtain ⟨here, method, found, rfl, rfl, rfl, rfl⟩ := first.member
  obtain ⟨there, another, exist, keys, names, versions, rfl⟩ := second.member
  have homes : method.value.home = another.value.home :=
    (LinkedClass.home_of_mem_memberMethods found).trans
      (LinkedClass.home_of_mem_memberMethods exist).symm
  obtain ⟨values, root, facts⟩ := readable.methodVersion_eq here there keys
    (List.mem_of_mem_filter found) (List.mem_of_mem_filter exist) homes names versions versioned
  exact ⟨here, there, method.value, keys, rfl, by rw [values], root, facts⟩

/-- Exported members that are asked for at the same place under the same version are the same, of
classes that are foreign or not alike, and the facts about the classes that they name are the
same. -/
theorem exportedMember_requests {key : ClassKey × Nat} {piece other : Piece .trees}
    (first : Requested setting history (.exportedMember key) version piece)
    (second : Requested setting history (.exportedMember key) version other) :
    ∃ (here there : ClassIn history) (member : ExportedMember), here.key = there.key ∧
      piece = .exportedMember here.site here.linked member ∧
      other = .exportedMember there.site there.linked member ∧
      there.linked.kind.isJsClass = here.linked.kind.isJsClass ∧
      here.index.rootModule? = there.index.rootModule? ∧
      here.index.SameFacts there.index here.linked.name ∧
      ∀ body ∈ member.bodies, ∀ owner ∈ body.classes,
        here.index.SameFacts there.index owner := by
  obtain ⟨key, position⟩ := key
  obtain ⟨here, member, found, rfl, rfl, rfl⟩ := first.exportedMember
  obtain ⟨there, another, exist, keys, versions, rfl⟩ := second.exportedMember
  have same := Version.isSame_of_eq versions versioned
  obtain ⟨foreign, values, root, facts⟩ :=
    readable.exportedMemberVersion_eq here there keys found exist same
  have self := readable.exportedMemberVersion_self here there same
  exact ⟨here, there, member.value, keys, rfl, by rw [values], foreign, root, self, facts⟩

end Requests

end Readable

end JsEmitter
