import JsEmitter.Linked.Building
import JsEmitter.Proofs.AcceptedPrograms
import JsEmitter.Proofs.Coverage

/-!
# Classes without parents

Where no class has a parent, no method calls one, and no module exports a function, the versions of
a readable history cover all that pieces take from a program.
-/
namespace JsEmitter

open Lowering (Context)

variable {setting : Setting} {history : List Program}

/-- A class without a parent and without super calls takes nothing from a parent. -/
theorem Lowering.Context.parentUse_of_base {context : Context} {linked : LinkedClass}
    (base : HostNames.hasParent context.config linked = false) (usesSuper : Bool) :
    context.parentUse linked usesSuper false = pure [] := by
  have hosts : HostNames.ofParent context.config context.index linked = [] := by
    unfold HostNames.hasParent at base
    simp only [Bool.or_eq_false_iff, Bool.and_eq_false_iff] at base
    obtain ⟨⟨host, foreign⟩, parent⟩ := base
    unfold HostNames.ofParent
    simp only [host, Bool.false_eq_true, if_false]
    split
    · next isForeign =>
      have expr := foreign.resolve_left (by simp [isForeign])
      rw [Option.isSome_eq_false_iff, Option.isNone_iff_eq_none] at expr parent
      simp only [expr, parent]
    · rfl
  refine Tracked.ext' rfl ?_
  change (context.parentRef linked).refs = ∅
  rw [context.parentRef_refs, hosts, recorded_nil]

/-- Exports that are no functions take nothing from other classes. -/
theorem Lowering.Context.exportedFunctions_of_plain (context : Context)
    {entries : List TopLevelExport}
    (plain : ∀ entry ∈ entries, ∀ params body, entry.kind ≠ .method params body) :
    entries.mapM context.exportedFunction = pure (entries.map (fun _ => none)) := by
  induction entries with
  | nil => rfl
  | cons head rest ih =>
    have first : context.exportedFunction head = pure none := by
      unfold exportedFunction
      cases kind : head.kind with
      | method params body => exact (plain head List.mem_cons_self params body kind).elim
      | _ => rfl
    rw [List.mapM_cons, first, ih (fun entry found => plain entry (List.mem_cons_of_mem _ found))]
    rfl

/-- Whether a place is the one for the exports of a module. -/
def Place.isTopLevelExports : {kind : PieceKind} → Place kind → Bool
  | _, .modulePart _ .topLevelExports => true
  | _, _ => false

section Base

variable (parents : ∀ here : ClassIn history,
    HostNames.hasParent setting.config here.linked = false)
  (calls : ∀ here : ClassIn history, ∀ body ∈ here.linked.bodies, body.callsSuper = false)

include parents calls

/-- Where no class has a parent and no method calls one, only exports take something without
cover. -/
theorem Requested.uncovered_of_base {naming : Naming} {kind : PieceKind} {place : Place kind}
    {version : Version} {piece : Piece kind}
    (requested : Requested setting history place version piece)
    (other : place.isTopLevelExports = false) : piece.uncovered setting naming = pure [] := by
  obtain ⟨program, emitted, unit, placed, request⟩ := requested
  have classIn : ∀ {linked : LinkedClass}, linked ∈ unit.classes →
      ∃ here : ClassIn history, here.linked = linked :=
    fun there => ⟨⟨⟨program, unit, emitted, placed⟩, _, there⟩, rfl⟩
  have base : ∀ {linked : LinkedClass}, linked ∈ unit.classes →
      ∀ usesSuper {makes : Bool}, makes = false →
        (setting.context naming (program.site unit)).parentUse linked usesSuper makes =
          pure [] := by
    rintro linked there usesSuper _ rfl
    obtain ⟨here, rfl⟩ := classIn there
    exact Context.parentUse_of_base (parents here) usesSuper
  have quiet : ∀ {linked : LinkedClass}, linked ∈ unit.classes → ∀ body ∈ linked.bodies,
      body.callsSuper = false := by
    intro linked there
    obtain ⟨here, rfl⟩ := classIn there
    exact calls here
  cases request with
  | function there found =>
    exact base there _ (quiet there _ (LinkedClass.mem_bodies_of_method
      ((LinkedClass.requestedFunctions_sublist _ _).mem found)))
  | member there _ found =>
    exact base there _ (quiet there _ (LinkedClass.mem_bodies_of_method
      (List.mem_of_mem_filter found)))
  | exportedMember there _ found =>
    refine base there _ (Bool.eq_false_iff.2 (fun makes => ?_))
    obtain ⟨body, inside, makes⟩ := Expr.anyCallsSuper_iff.1 makes
    rw [quiet there body (LinkedClass.mem_bodies_of_exportedMember
      (List.fst_mem_of_mem_zipIdx found) inside)] at makes
    cases makes
  | @ctor _ piece => cases piece <;> rfl
  | topLevelExports => cases other
  | bridge | shell | imports | initializers => rfl

/-- Where no class has a parent, no method calls one, and no module exports a function, versions
cover all that pieces take. -/
theorem CodeKept.of_base (readable : Readable history)
    (exports : ∀ here : ModuleIn history, ∀ entry ∈ here.unit.topLevelExports,
      ∀ params body, entry.kind ≠ .method params body) :
    CodeKept setting history := by
  intro kind place version piece other versioned first second naming
  cases exporting : place.isTopLevelExports with
  | false =>
    rw [first.uncovered_of_base parents calls exporting,
      second.uncovered_of_base parents calls exporting]
  | true =>
    cases place with
    | modulePart id part =>
      cases part with
      | topLevelExports =>
        obtain ⟨here, rfl, rfl, rfl⟩ := first.topLevelExports
        obtain ⟨there, ids, versions, rfl⟩ := second.topLevelExports
        obtain ⟨entries, -⟩ := readable.topLevelExportsVersion_eq here there ids
          (Version.isSame_of_eq versions versioned)
        simp only [Piece.uncovered, Context.exportedFunctions_of_plain _ (exports here),
          Context.exportedFunctions_of_plain _ (exports there)]
        exact congrArg pure (map_eq_map_iff.2 (entries.flip.imp (fun _ _ _ => rfl)))
      | imports | initializers => cases exporting
    | _ => cases exporting

end Base

/-- The only class of a program, with a method that has a body under a version. -/
def LinkedClass.ofBody (body : Expr) (version : Version) : LinkedClass :=
  (start .root .plain).addMethod ⟨⟨"run"⟩, .staticPublic, [], body⟩ version

/-- The only module of a program with one class. -/
def Module.ofBody (body : Expr) (version : Version) : Module :=
  { start ⟨"main"⟩ with isRoot := true, classes := [.ofBody body version] }

/-- A program of one class, whose method has a body under a version. -/
def Program.ofEdit (edit : Expr × Version) : Program := ⟨[.ofBody edit.1 edit.2]⟩

/-- Programs of one class, whose method is edited from program to program. -/
def Program.ofEdits (edits : List (Expr × Version)) : List Program := edits.map ofEdit

section Edits

variable {edits : List (Expr × Version)}

/-- A module of an edited program is the body of one of the edits. -/
theorem ModuleIn.exists_edit (here : ModuleIn (Program.ofEdits edits)) :
    ∃ edit ∈ edits, here.unit = .ofBody edit.1 edit.2 := by
  obtain ⟨program, unit, emitted, placed⟩ := here
  obtain ⟨edit, found, rfl⟩ := List.mem_map.1 emitted
  exact ⟨edit, found, List.mem_singleton.1 placed⟩

/-- A class of an edited program is the class of one of the edits. -/
theorem ClassIn.exists_edit (here : ClassIn (Program.ofEdits edits)) :
    ∃ edit ∈ edits, here.linked = .ofBody edit.1 edit.2 := by
  obtain ⟨unit, linked, there⟩ := here
  obtain ⟨edit, found, same⟩ := unit.exists_edit
  rw [same] at there
  exact ⟨edit, found, List.mem_singleton.1 there⟩

/-- Edits are faithful if versions tell the bodies. -/
theorem Faithful.ofEdits (tell : ∀ edit ∈ edits, ∀ other ∈ edits,
    edit.2.isSame other.2 = true → other.1 = edit.1) : Faithful (Program.ofEdits edits) where
  outline first second _ _ := by
    obtain ⟨edit, -, one⟩ := first.exists_edit
    obtain ⟨other, -, two⟩ := second.exists_edit
    rw [one, two]
    constructor <;> rfl
  methods first second _ method found other there _ _ same := by
    obtain ⟨edit, here, one⟩ := first.exists_edit
    obtain ⟨another, exist, two⟩ := second.exists_edit
    rw [one] at found
    rw [two] at there
    obtain rfl := List.mem_singleton.1 found
    obtain rfl := List.mem_singleton.1 there
    exact congrArg (MethodDef.mk _ _ _) (tell edit here another exist same)
  jsConstructor first second _ ctor found := by
    obtain ⟨edit, -, one⟩ := first.exists_edit
    rw [one] at found
    cases found
  exportedMembers first second _ member other position found := by
    obtain ⟨edit, -, one⟩ := first.exists_edit
    rw [one] at found
    cases found
  natives first second _ _ := by
    obtain ⟨edit, -, one⟩ := first.exists_edit
    obtain ⟨other, -, two⟩ := second.exists_edit
    rw [one, two]
    rfl
  topLevelExports first second _ entry found := by
    obtain ⟨edit, -, one⟩ := first.exists_edit
    rw [one] at found
    cases found
  initializers first second _ _ := by
    obtain ⟨edit, -, one⟩ := first.exists_edit
    obtain ⟨other, -, two⟩ := second.exists_edit
    rw [one, two]
    rfl

/-- Edits are legible if the texts that their versions digest can be told apart. -/
theorem Legible.ofEdits {digested : List (List String)}
    (known : ∀ texts ∈ (Program.ofEdits edits).flatMap Program.digested, texts ∈ digested)
    (apart : ∀ first ∈ digested, ∀ second ∈ digested,
      Version.fingerprintParts first = Version.fingerprintParts second → first = second) :
    Legible (Program.ofEdits edits) where
  tokens here tokens combined := by
    obtain ⟨edit, -, one⟩ := here.exists_edit
    rw [one] at combined
    have chars := congrArg (fun token => token.toList.head?) (Option.some.inj combined)
    simp [Version.combinedToken] at chars
  names here := by
    obtain ⟨edit, -, one⟩ := here.exists_edit
    have root : '@' ∉ ClassName.root.text.toList := by decide
    rw [one]
    exact root
  digests first found second there := apart first (known first found) second (known second there)

/-- Edits of methods that call no parent are covered by their versions. -/
theorem CodeKept.ofEdits (setting : Setting) (readable : Readable (Program.ofEdits edits))
    (calls : ∀ edit ∈ edits, edit.1.callsSuper = false) :
    CodeKept setting (Program.ofEdits edits) := by
  refine CodeKept.of_base (fun here => ?_) (fun here body found => ?_) readable
    (fun here entry found => ?_)
  · obtain ⟨edit, -, one⟩ := here.exists_edit
    rw [one]
    rfl
  · obtain ⟨edit, there, one⟩ := here.exists_edit
    rw [one] at found
    obtain rfl : body = edit.1 := List.mem_singleton.1 found
    exact calls edit there
  · obtain ⟨edit, -, one⟩ := here.exists_edit
    rw [one] at found
    cases found

end Edits

/-- A program with a method in its first version. -/
def originalProgram : Program := .ofEdit (.literal .null, firstVersion)

/-- The program with an edited method. -/
def editedProgram : Program := .ofEdit (.literal (.boolean true), .ofInt 2)

/-- A program and its edit are accepted. -/
theorem accepted_edited : Setting.accepted ⟨.standard, .standard⟩ [originalProgram, editedProgram] =
    [originalProgram, editedProgram] := by
  refine List.filter_eq_self.2 ?_
  decide +kernel

/-- The versions of a program and its edit are faithful and legible. -/
theorem readable_edited : Readable [originalProgram, editedProgram] := by
  have faithful : Faithful [originalProgram, editedProgram] := by
    refine @Faithful.ofEdits [_, _] (fun edit found other there same => ?_)
    simp only [List.mem_cons, List.not_mem_nil, or_false] at found there
    rcases found with rfl | rfl <;> rcases there with rfl | rfl <;> first
      | rfl
      | exact absurd same (by decide +kernel)
  have legible : Legible [originalProgram, editedProgram] := by
    refine @Legible.ofEdits [_, _]
      [["root:main", "lang.Object@main:Class:false"], ["root:main"], []] ?_ ?_
    · decide +kernel
    · decide +kernel
  rw [← accepted_edited] at faithful legible ⊢
  exact .accepted faithful legible

/-- No module of the original and the edited program has an empty id. -/
theorem named_edited : NamedModules [originalProgram, editedProgram] := by
  intro here
  obtain ⟨edit, -, same⟩ := @ModuleIn.exists_edit [_, _] here
  have main : (⟨"main"⟩ : ModuleId).text ≠ "" := by decide
  rw [same]
  exact main

/-- The versions of a program and its edit cover all that pieces take. -/
theorem codeKept_edited (setting : Setting) :
    CodeKept setting [originalProgram, editedProgram] := by
  refine @CodeKept.ofEdits [_, _] setting readable_edited (fun edit found => ?_)
  simp only [List.mem_cons, List.not_mem_nil, or_false] at found
  rcases found with rfl | rfl <;> rfl

end JsEmitter
