import JsEmitter.Linked.Building
import JsEmitter.Proofs.ClassForm
import JsEmitter.Proofs.TextRanges

/-!
# Reading programs back

Programs are written and read without loss: what is written for a program with finite doubles is
read as that program. No other program is ever read, so what is read from a value is written, read
and written again in the same way. Only the first reading drops members that it does not know, fills
in those that are missing, and sorts dependencies.
-/
namespace JsEmitter

open Json (Lossless)

/-- A set is the set of the list of its members. -/
theorem SortedSet.ofList_toList {α : Type} [Ord α] [Std.TransOrd α] [Std.LawfulEqOrd α]
    (set : SortedSet α) : ofList set.toList = set := by
  ext member
  rw [mem_ofList, mem_toList]

namespace ExportKind

/-- The doubles in the body of an export. -/
def doubles : ExportKind → List Double
  | method _ body => body.doubles
  | singleton _ | jsClass _ | field _ _ => []

/-- Kinds of exports are read back as they were written. -/
theorem lossless : Lossless toJson ofJson? .exportKind doubles where
  reads kind := by
    cases kind <;> simp [toJson, ofJson?, Json.ofStrings, Json.lossless_str.list.reads,
      Expr.lossless.reads]
  named kind := by
    cases kind <;> simp [toJson, Layout.exportKind, List.lookup_cons, Expr.lossless.named]
  inRange kind finite := by
    cases kind with
    | method params body =>
      simp [toJson, Json.ofStrings, Json.lossless_str.list.inRange,
        Expr.lossless.inRange body finite]
    | _ => simp [toJson, Json.ofName]
  finite bound json kind _ inRange found := by
    unfold ofJson? at found
    split at found
    · next body _ =>
      simp only [Option.bind_eq_bind, Option.bind_eq_some_iff, Option.pure_def,
        Option.some.injEq] at found
      obtain ⟨params, -, inner, there, rfl⟩ := found
      have content : body.inRange = true := by simpa using inRange
      exact (Expr.lossless.finite _).required content there
    · obtain ⟨owner, -, same⟩ := Option.bind_eq_some_iff.1 found
      cases same
      nofun
    · obtain ⟨owner, -, same⟩ := Option.bind_eq_some_iff.1 found
      cases same
      nofun
    · simp only [Option.bind_eq_bind, Option.bind_eq_some_iff, Option.pure_def,
        Option.some.injEq] at found
      obtain ⟨owner, -, name, -, rfl⟩ := found
      nofun
    · cases found

end ExportKind

/-- Exports are read back as they were written. -/
theorem TopLevelExport.lossless : Lossless TopLevelExport.toJson TopLevelExport.ofJson?
    .topLevelExport (fun entry => entry.kind.doubles) where
  reads entry := by
    simp [toJson, ofJson?, ExportKind.lossless.reads, Version.member?, Version.lossless.reads]
  named entry := by
    simp [toJson, Layout.topLevelExport, List.lookup_cons, ExportKind.lossless.named]
  inRange entry finite := by
    simp [toJson, ExportKind.lossless.inRange _ finite, Version.lossless.inRange]
  finite bound json entry _ inRange found := by
    simp only [ofJson?, Option.bind_eq_bind, Option.bind_eq_some_iff, Option.pure_def,
      Option.some.injEq] at found
    obtain ⟨name, -, kind, there, version, -, rfl⟩ := found
    exact (ExportKind.lossless.finite _).required inRange there

/-- Calls of initializers are read back as they were written. -/
theorem Initializer.lossless : Lossless Initializer.toJson Initializer.ofJson?
    (.record [("class", .plain), ("method", .plain)]) (fun _ => []) where
  reads call := by simp [toJson, ofJson?]
  named call := by simp [toJson, List.lookup_cons]
  inRange call _ := by simp [toJson, Json.ofName]
  finite _ := .none

namespace Module

/-- The doubles in the bodies of a module. -/
def doubles (unit : Module) : List Double :=
  unit.classes.flatMap LinkedClass.doubles ++
    unit.topLevelExports.flatMap (fun entry => entry.kind.doubles)

/-- Modules are written and read without loss. -/
theorem lossless : Lossless toJson ofJson? .module doubles := by
  have classes := LinkedClass.lossless.list
  have texts := Json.lossless_str.list
  have ids := (Json.lossless_ofName .modules).list
  have exports := TopLevelExport.lossless.list
  have calls := Initializer.lossless.list
  refine ⟨fun unit => ?_, fun unit => ?_, fun unit finite => ?_,
    fun bound json unit _ inRange found => ?_⟩
  · simp [toJson, ofJson?, classes.reads, Json.ofStrings, texts.reads, ids.reads, exports.reads,
      calls.reads, Version.member?, Version.lossless.reads, SortedSet.ofList_toList]
  · simp [toJson, Layout.module, List.lookup_cons, classes.named, exports.named, calls.named]
  · simp only [doubles, List.forall_mem_append] at finite
    simp [toJson, Json.ofName, classes.inRange _ finite.1, Json.ofStrings, texts.inRange,
      ids.inRange, exports.inRange _ finite.2, calls.inRange, Version.lossless.inRange]
  · simp only [ofJson?, Option.bind_eq_bind, Option.bind_eq_some_iff, Option.pure_def,
      Option.some.injEq] at found
    obtain ⟨id, -, classes, first, texts, -, ids, -, exports, second, calls, -, version, -,
      isRoot, -, rfl⟩ := found
    exact List.forall_mem_append.2 ⟨(LinkedClass.lossless.finite _).listMember inRange first,
      (TopLevelExport.lossless.finite _).listMember inRange second⟩

end Module

namespace Program

/-- The doubles in the bodies of a program. -/
def doubles (program : Program) : List Double := program.modules.flatMap Module.doubles

/-- Programs are written and read without loss. -/
theorem lossless : Lossless toJson ofJson? .program doubles where
  reads program := by simp [toJson, ofJson?, Module.lossless.list.reads]
  named program := by simp [toJson, Layout.program, List.lookup_cons, Module.lossless.list.named]
  inRange program finite := by simp [toJson, Module.lossless.list.inRange _ finite]
  finite bound json program _ inRange found := by
    simp only [ofJson?, Option.bind_eq_bind, Option.bind_eq_some_iff, Option.pure_def,
      Option.some.injEq] at found
    obtain ⟨modules, there, rfl⟩ := found
    exact (Module.lossless.list.finite _).required inRange there

/-- A program from a JSON value, in which records may be given as lists of their fields. -/
def ofValue? (json : Json) : Option Program := ofJson? (Layout.program.named json)

/-- The JSON value that is written for a program. -/
def written (program : Program) : Json := program.toJson.spelled

/-- Programs with finite doubles are read back. -/
theorem ofValue?_written {program : Program}
    (finite : ∀ double ∈ program.doubles, double.isFinite = true) :
    ofValue? program.written = some program := by
  rw [ofValue?, written, Json.spelled_eq _ (lossless.inRange program finite), lossless.named,
    lossless.reads]

/-- Programs that are read have finite doubles. -/
theorem finite_of_ofValue? {json : Json} {program : Program} (inRange : json.inRange = true)
    (found : ofValue? json = some program) : ∀ double ∈ program.doubles, double.isFinite = true :=
  lossless.finite _ _ program (Nat.lt_succ_self _) (Layout.inRange_named _ json inRange) found

/-- Programs that are read from a text are read back. -/
theorem ofValue?_written_of_read? {text : String} {program : Program}
    (found : read? text = some program) : ofValue? program.written = some program := by
  obtain ⟨json, parsed, accepted⟩ := Option.bind_eq_some_iff.1 found
  exact ofValue?_written (finite_of_ofValue? (Json.inRange_of_read? parsed) accepted)

/-- Reading undoes writing, and writing what was read, in whatever form, is stable under reading. -/
theorem reading_undoes_writing :
    (∀ program : Program, (∀ double ∈ program.doubles, double.isFinite = true) →
      ofValue? program.written = some program) ∧
    ∀ (json : Json) (program : Program), json.inRange = true → ofValue? json = some program →
      ∃ again, ofValue? program.written = some again ∧ again.written = program.written := by
  refine ⟨fun program finite => ofValue?_written finite, fun json program inRange found => ?_⟩
  exact ⟨program, ofValue?_written (finite_of_ofValue? inRange found), rfl⟩

/-- A program with parts of many shapes: options that are there and options that are not, a setter,
versions, shapes that are strings, and a negative zero. -/
def variedProgram : Program :=
  ⟨[{ Module.start ⟨"main"⟩ with
      externalDependencies := .ofList ["fs", "child"]
      classes := [
        { LinkedClass.start ⟨"app.Window"⟩ .jsClass with
          version := .unversioned
          superClass? := some .root
          jsSuperClass? := some (.jsSelect (.globalRef "host") "Base")
          nativeLoadSpec? := some (.fromModule "dom" [])
          fields := [⟨⟨"size"⟩, .double, true⟩]
          methods := [⟨⟨⟨"open"⟩, .instancePrivate, ["x"], .block [
            .branch (.unary "!" .this) .skip none,
            .branch (.localVar "x") (.ret (.literal .null)) (some (.literal .undefined)),
            .varDef "zero" (.literal (.double ⟨0x8000000000000000⟩)),
            .apply .this ⟨"close"⟩ [.literal (.int (-1)), .new ⟨"app.Window"⟩ ⟨"<init>"⟩ []]]⟩,
            .ofToken "null"⟩]
          jsConstructor? := some ⟨⟨["x"], [], [.localVar "x"], [.skip]⟩, firstVersion⟩
          exportedMembers := [
            ⟨.property "title" false none (some ("value", .localVar "value")), .unversioned⟩] }]
      topLevelExports := [⟨"title", .field ⟨"app.Window"⟩ ⟨"size"⟩, .unversioned⟩]
      initializers := [⟨⟨"app.Window"⟩, ⟨"main"⟩⟩] }]⟩

/-- A value with a member that is not known, without most of the others, with a dependency given
twice, with a method given as a list of its fields, and with a whole number in place of a double. -/
def sparseValue : Json :=
  .obj [("modules", .arr [.obj [("id", .str "main"), ("future", .double .zero),
    ("external_dependencies", .arr [.str "fs", .str "child", .str "fs"]),
    ("classes", .arr [.obj [("name", .str "app.A"), ("kind", .str "class"),
      ("ancestors", .arr [.str "app.A"]),
      ("methods", .arr [.arr [.arr [.str "run", .str "public", .arr [],
        .obj [("return", .obj [("literal", .obj [("double", .int 3)])])]], .null]])]])]])]

/-- What the sparse value is read as. -/
def sparseProgram : Program :=
  ⟨[{ Module.start ⟨"main"⟩ with
      externalDependencies := .ofList ["child", "fs"]
      initializersVersion := .unversioned
      classes := [
        { (LinkedClass.start ⟨"app.A"⟩ .plain).addMethod
            ⟨⟨"run"⟩, .instancePublic, [], .ret (.literal (.double (.ofInt 3)))⟩ .unversioned with
          version := .unversioned }] }]⟩

/-- A value with defaults left out is read as the program with these defaults. -/
theorem ofValue?_sparseValue : ofValue? sparseValue = some sparseProgram := by
  have body : Expr.ofJson? (.obj [("return", .obj [("literal", .obj [("double", .int 3)])])]) =
      some (.ret (.literal (.double (.ofInt 3)))) := by
    simp [Expr.ofJson?_tagged, Expr.ofShape?, Literal.ofJson?, Json.double?]
  simp [ofValue?, sparseValue, Layout.program, Layout.module, Layout.linkedClass,
    Layout.versioned, Layout.method, List.lookup_cons, Layout.namedElements, Layout.namedFields,
    Layout.exprVariants, ofJson?, Module.ofJson?, LinkedClass.ofJson?, Versioned.ofJson?,
    MethodDef.ofJson?, Version.member?, Version.ofJson?, Json.nullable?, Json.listOf?, Json.name?,
    body]
  rfl

/-- A varied program is read back, and so is what a sparse value is read as. -/
theorem reading_undoes_writing_varied :
    ((∀ double ∈ variedProgram.doubles, double.isFinite = true) ∧
      ofValue? variedProgram.written = some variedProgram) ∧
    sparseValue.inRange = true ∧ ofValue? sparseValue = some sparseProgram ∧
      ∃ again, ofValue? sparseProgram.written = some again ∧
        again.written = sparseProgram.written := by
  have finite : ∀ double ∈ variedProgram.doubles, double.isFinite = true := by decide +kernel
  have inRange : sparseValue.inRange = true := by decide +kernel
  exact ⟨⟨finite, reading_undoes_writing.1 variedProgram finite⟩, inRange, ofValue?_sparseValue,
    reading_undoes_writing.2 sparseValue sparseProgram inRange ofValue?_sparseValue⟩

end Program

end JsEmitter
