import JsEmitter.Proofs.ExprForm

/-!
# The form of classes

Classes and all of their parts are written and read without loss. Each record is read member by
member from what is written for it, and only its bodies can hold doubles.
-/
namespace JsEmitter

open Json (Lossless listOf? string? name?)

/-- Strings are written and read without loss. -/
theorem Json.lossless_str : Lossless Json.str string? .plain (fun _ => []) :=
  .of_reads (fun _ => rfl) (fun _ => rfl)

/-- Names are written and read without loss. -/
theorem Json.lossless_ofName (kind : NameKind) :
    Lossless (ofName : Name kind → Json) name? .plain (fun _ => []) :=
  .of_reads (fun _ => rfl) (fun _ => rfl)

/-- Versions are written and read without loss; `null` is no version. -/
theorem Version.lossless : Lossless Version.toJson Version.ofJson? .plain (fun _ => []) := by
  have token := Json.lossless_str.option (by simp)
  refine .of_reads (fun version => ?_) (fun version => ?_)
  · rw [toJson, ofJson?, token.reads version.token?]
    rfl
  · exact token.inRange version.token? (by simp)

/-- Kinds of classes are read back as they were written. -/
theorem ClassKind.lossless : Lossless ClassKind.toJson ClassKind.ofJson? .plain (fun _ => []) :=
  .of_reads (fun kind => by cases kind <;> rfl) (fun kind => by cases kind <;> rfl)

/-- Namespaces of members are read back as they were written. -/
theorem MemberNamespace.lossless :
    Lossless MemberNamespace.toJson MemberNamespace.ofJson? .plain (fun _ => []) :=
  .of_reads (fun home => by cases home <;> rfl) (fun home => by cases home <;> rfl)

/-- Types of fields are read back as they were written. -/
theorem FieldType.lossless : Lossless FieldType.toJson FieldType.ofJson? .plain (fun _ => []) :=
  .of_reads (fun type => by cases type <;> rfl) (fun type => by cases type <;> rfl)

namespace Versioned

variable {α : Type} {write : α → Json} {read : Json → Option α} {layout : Layout}
  {doubles : α → List Double}

/-- A value is written and read without loss if it is so without its version. -/
theorem lossless (lossless : Lossless write read layout doubles) :
    Lossless (toJson write) (ofJson? read) (.versioned layout)
      (fun versioned => doubles versioned.value) where
  reads versioned := by
    simp [toJson, ofJson?, Version.member?, lossless.reads, Version.lossless.reads]
  named versioned := by simp [toJson, Layout.versioned, List.lookup_cons, lossless.named]
  inRange versioned finite := by
    simp [toJson, lossless.inRange _ finite, Version.lossless.inRange]
  finite bound json versioned _ inRange found := by
    simp only [ofJson?, Option.bind_eq_bind, Option.bind_eq_some_iff, Option.pure_def,
      Option.some.injEq] at found
    obtain ⟨value, there, version, -, rfl⟩ := found
    exact (lossless.finite _).required inRange there

/-- A versioned value is never written as null. -/
theorem toJson_ne_null (versioned : Versioned α) : toJson write versioned ≠ .null := nofun

end Versioned

/-- Methods are read back as they were written. -/
theorem MethodDef.lossless :
    Lossless MethodDef.toJson MethodDef.ofJson? .method (fun method => method.body.doubles) where
  reads method := by
    simp [toJson, ofJson?, MemberNamespace.lossless.reads, Json.ofStrings,
      Json.lossless_str.list.reads, Expr.lossless.reads]
  named method := by simp [toJson, Layout.method, List.lookup_cons, Expr.lossless.named]
  inRange method finite := by
    simp [toJson, Json.ofName, Json.ofStrings, MemberNamespace.lossless.inRange,
      Json.lossless_str.list.inRange, Expr.lossless.inRange _ finite]
  finite bound json method _ inRange found := by
    simp only [ofJson?, Option.bind_eq_bind, Option.bind_eq_some_iff, Option.pure_def,
      Option.some.injEq] at found
    obtain ⟨name, -, home, -, params, -, body, there, rfl⟩ := found
    exact (Expr.lossless.finite _).required inRange there

/-- Fields are read back as they were written. -/
theorem FieldDef.lossless : Lossless FieldDef.toJson FieldDef.ofJson? .field (fun _ => []) where
  reads field := by simp [toJson, ofJson?, FieldType.lossless.reads]
  named field := by simp [toJson, Layout.field, List.lookup_cons]
  inRange field _ := by simp [toJson, Json.ofName, FieldType.lossless.inRange]
  finite _ := .none

namespace JsConstructorDef

/-- The doubles in the bodies of a foreign constructor. -/
def doubles (ctor : JsConstructorDef) : List Double :=
  (ctor.beforeSuper ++ ctor.superArgs ++ ctor.afterSuper).flatMap Expr.doubles

/-- Constructors of foreign classes are read back as they were written. -/
theorem lossless : Lossless toJson ofJson? .jsConstructor doubles where
  reads ctor := by
    simp [toJson, ofJson?, Json.ofStrings, Json.lossless_str.list.reads, Expr.lossless.list.reads]
  named ctor := by simp [toJson, Layout.jsConstructor, List.lookup_cons, Expr.lossless.list.named]
  inRange ctor finite := by
    simp only [doubles, List.flatMap_append, List.forall_mem_append] at finite
    have statements := Expr.lossless.list.inRange
    simp [toJson, Json.ofStrings, Json.lossless_str.list.inRange, statements _ finite.1.1,
      statements _ finite.1.2, statements _ finite.2]
  finite bound json ctor _ inRange found := by
    simp only [ofJson?, Option.bind_eq_bind, Option.bind_eq_some_iff, Option.pure_def,
      Option.some.injEq] at found
    obtain ⟨params, -, before, first, args, second, after, third, rfl⟩ := found
    have finite := Expr.lossless.finite (sizeOf json)
    simp only [doubles, List.flatMap_append, List.forall_mem_append]
    exact ⟨⟨finite.listMember inRange first, finite.listMember inRange second⟩,
      finite.listMember inRange third⟩

end JsConstructorDef

namespace ExportedMember

/-- The doubles in the bodies of an exported member. -/
def doubles (member : ExportedMember) : List Double := member.bodies.flatMap Expr.doubles

/-- The numbers of a setter are those of its body. -/
theorem flatMap_setter (setter? : Option (String × Expr)) :
    (setter?.map Prod.snd).toList.flatMap Expr.doubles =
      setter?.toList.flatMap (fun setter => setter.2.doubles) := by
  cases setter? <;> rfl

/-- A setter is a pair of its parameter and its body. -/
theorem lossless_setter : Lossless setterToJson setterOfJson? (.tuple [.plain, .body])
    (fun setter => setter.2.doubles) where
  reads setter := by simp [setterToJson, setterOfJson?, Expr.lossless.reads]
  named setter := by
    simp [setterToJson, Layout.namedParts, Expr.lossless.named]
  inRange setter finite := by simp [setterToJson, Expr.lossless.inRange _ finite]
  finite bound json setter small inRange found := by
    unfold setterOfJson? at found
    split at found
    · next param body =>
      simp only [Option.bind_eq_bind, Option.bind_eq_some_iff, Option.pure_def,
        Option.some.injEq] at found
      obtain ⟨name, -, inner, there, rfl⟩ := found
      simp only [Json.inRange_arr, List.forall_mem_cons] at inRange
      exact Expr.lossless.finite _ body inner (Nat.lt_succ_self _) inRange.2.1 there
    · cases found

/-- Exported members are read back as they were written. -/
theorem lossless : Lossless toJson ofJson? .exportedMember doubles where
  reads member := by
    have getter := Expr.lossless.option Expr.toJson_ne_null
    have setter := lossless_setter.option nofun
    cases member with
    | method name isStatic params body =>
      simp [toJson, ofJson?, Json.ofStrings, Json.lossless_str.list.reads, Expr.lossless.reads]
    | property name isStatic getter? setter? =>
      simp [toJson, ofJson?, getter.reads, setter.reads]
  named member := by
    have getter := Expr.lossless.option Expr.toJson_ne_null
    have setter := lossless_setter.option nofun
    cases member with
    | method name isStatic params body =>
      simp [toJson, Layout.exportedMember, List.lookup_cons, Expr.lossless.named]
    | property name isStatic getter? setter? =>
      simp [toJson, Layout.exportedMember, List.lookup_cons, getter.named, setter.named]
  inRange member finite := by
    have getter := Expr.lossless.option Expr.toJson_ne_null
    have setter := lossless_setter.option nofun
    cases member with
    | method name isStatic params body =>
      simp only [doubles, bodies, List.flatMap_singleton] at finite
      have inner := Expr.lossless.inRange body finite
      simp [toJson, Json.ofStrings, Json.lossless_str.list.inRange, inner]
    | property name isStatic getter? setter? =>
      simp only [doubles, bodies, List.flatMap_append, flatMap_setter, List.forall_mem_append]
        at finite
      simp [toJson, getter.inRange _ finite.1, setter.inRange _ finite.2]
  finite bound json member _ inRange found := by
    unfold ofJson? at found
    split at found
    · next body _ =>
      simp only [Option.bind_eq_bind, Option.bind_eq_some_iff, Option.pure_def,
        Option.some.injEq] at found
      obtain ⟨name, -, isStatic, -, params, -, inner, there, rfl⟩ := found
      have content : body.inRange = true := by simpa using inRange
      simpa [doubles, bodies] using (Expr.lossless.finite _).required content there
    · next body _ =>
      simp only [Option.bind_eq_bind, Option.bind_eq_some_iff, Option.pure_def,
        Option.some.injEq] at found
      obtain ⟨name, -, isStatic, -, getter?, first, setter?, second, rfl⟩ := found
      have content : body.inRange = true := by simpa using inRange
      simp only [doubles, bodies, List.flatMap_append, flatMap_setter, List.forall_mem_append]
      exact ⟨(Expr.lossless.finite _).optional content first,
        (lossless_setter.finite _).optional content second⟩
    · cases found

end ExportedMember

/-- Places of native classes are read back as they were written. -/
theorem NativeLoadSpec.lossless :
    Lossless NativeLoadSpec.toJson NativeLoadSpec.ofJson? .nativeLoadSpec (fun _ => []) where
  reads spec := by
    cases spec <;>
      simp [toJson, ofJson?, Json.strings?, Json.ofStrings, Json.lossless_str.list.reads]
  named spec := by cases spec <;> simp [toJson, Layout.nativeLoadSpec, List.lookup_cons]
  inRange spec _ := by
    cases spec <;> simp [toJson, Json.ofStrings, Json.lossless_str.list.inRange]
  finite _ := .none

/-- The place of a native class is never written as null. -/
theorem NativeLoadSpec.toJson_ne_null (spec : NativeLoadSpec) : spec.toJson ≠ .null := by
  cases spec <;> simp [toJson]

namespace LinkedClass

/-- The doubles in the bodies of a class. -/
def doubles (linked : LinkedClass) : List Double := linked.bodies.flatMap Expr.doubles

/-- The doubles of a class are those of its parts. -/
theorem forall_mem_doubles {linked : LinkedClass} {good : Double → Prop} :
    (∀ double ∈ linked.doubles, good double) ↔
      (∀ double ∈ linked.jsSuperClass?.toList.flatMap Expr.doubles, good double) ∧
      (∀ double ∈ linked.methods.flatMap (fun method => method.value.body.doubles), good double) ∧
      (∀ double ∈ linked.jsConstructor?.toList.flatMap (fun ctor => ctor.value.doubles),
        good double) ∧
      (∀ double ∈ linked.exportedMembers.flatMap (fun member => member.value.doubles),
        good double) := by
  have members : (linked.exportedMembers.flatMap (fun member => member.value.bodies)).flatMap
      Expr.doubles = linked.exportedMembers.flatMap (fun member => member.value.doubles) :=
    List.flatMap_assoc
  simp only [doubles, bodies, List.flatMap_append, List.forall_mem_append, members,
    List.flatMap_map, and_assoc]
  cases linked.jsConstructor? <;> simp [JsConstructorDef.doubles]

/-- Classes are written and read without loss. -/
theorem lossless : Lossless toJson ofJson? .linkedClass doubles := by
  have ancestors := (Json.lossless_ofName .classes).list
  have superClass := (Json.lossless_ofName .classes).option nofun
  have jsSuperClass := Expr.lossless.option Expr.toJson_ne_null
  have nativeLoadSpec := NativeLoadSpec.lossless.option NativeLoadSpec.toJson_ne_null
  have fields := FieldDef.lossless.list
  have methods := (Versioned.lossless MethodDef.lossless).list
  have ctor := (Versioned.lossless JsConstructorDef.lossless).option Versioned.toJson_ne_null
  have members := (Versioned.lossless ExportedMember.lossless).list
  refine ⟨fun linked => ?_, fun linked => ?_, fun linked finite => ?_,
    fun bound json linked _ inRange found => ?_⟩
  · simp [toJson, ofJson?, ClassKind.lossless.reads, Version.member?, Version.lossless.reads,
      ancestors.reads, superClass.reads, jsSuperClass.reads, nativeLoadSpec.reads, fields.reads,
      methods.reads, ctor.reads, members.reads]
  · simp [toJson, Layout.linkedClass, List.lookup_cons, jsSuperClass.named, nativeLoadSpec.named,
      fields.named, methods.named, ctor.named, members.named]
  · obtain ⟨first, second, third, fourth⟩ := forall_mem_doubles.1 finite
    simp [toJson, Json.ofName, ClassKind.lossless.inRange, Version.lossless.inRange,
      ancestors.inRange, superClass.inRange, jsSuperClass.inRange _ first, nativeLoadSpec.inRange,
      fields.inRange, methods.inRange _ second, ctor.inRange _ third, members.inRange _ fourth]
  · -- The members without bodies are passed over.
    iterate 5 obtain ⟨_, -, found⟩ := Option.bind_eq_some_iff.1 found
    obtain ⟨_, first, found⟩ := Option.bind_eq_some_iff.1 found
    iterate 2 obtain ⟨_, -, found⟩ := Option.bind_eq_some_iff.1 found
    obtain ⟨_, second, found⟩ := Option.bind_eq_some_iff.1 found
    obtain ⟨_, third, found⟩ := Option.bind_eq_some_iff.1 found
    obtain ⟨_, fourth, found⟩ := Option.bind_eq_some_iff.1 found
    iterate 4 obtain ⟨_, -, found⟩ := Option.bind_eq_some_iff.1 found
    cases found
    exact forall_mem_doubles.2 ⟨(Expr.lossless.finite _).optional inRange first,
      ((Versioned.lossless MethodDef.lossless).finite _).listMember inRange second,
      ((Versioned.lossless JsConstructorDef.lossless).finite _).optional inRange third,
      ((Versioned.lossless ExportedMember.lossless).finite _).listMember inRange fourth⟩

end LinkedClass

end JsEmitter
