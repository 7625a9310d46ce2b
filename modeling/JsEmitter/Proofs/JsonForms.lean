import JsEmitter.Proofs.NumberRanges

/-!
# JSON forms

Values of a type are written as JSON and read from it. Nothing is lost if what is written is read
back, needs no names for its records, and has no number out of range but the doubles of the value,
and if only finite doubles are read from numbers in range. Lists, optional values and the members
of objects keep this.
-/
namespace JsEmitter

namespace Json

variable {α : Type}

/-- Reading a required member is looking it up and then reading it. -/
theorem member?_bind (json : Json) (key : String) (read : Json → Option α) :
    ((json.member? key).bind fun inner => read inner.1) = json.required? key read := by
  unfold member? required?
  split <;> rename_i found
  · simp [found]
  · split
    · rename_i value same
      exact (found value same).elim
    · rfl

/-- Reading an optional member is looking it up and then reading it, if it is there. -/
theorem optionalMember?_bind (json : Json) (key : String) (read : Json → Option α) :
    ((json.optionalMember? key).bind fun inner? =>
      match inner? with
      | none => some none
      | some inner => (read inner.1).map some) = json.optional? key read := by
  unfold optionalMember? optional? defaulted?
  split <;> rename_i found <;> simp [found, nullable?]

/-- Reading a list is reading its elements in turn. -/
theorem elements?_mapM (json : Json) (read : Json → Option α) :
    (json.elements?.bind fun elements => elements.mapM fun element => read element.1) =
      json.listOf? read := by
  cases json with
  | arr elements =>
    simp only [elements?, listOf?, Option.bind_some]
    have each (list : List { value : Json // sizeOf value < sizeOf (arr elements) }) :
        (list.mapM fun element => read element.1) = (list.map Subtype.val).mapM read := by
      induction list with
      | nil => rfl
      | cons head rest ih => simp only [List.mapM_cons, List.map_cons, ih]
    rw [each]
    simp [Function.comp_def]
  | _ => rfl

-- The members of an object that is written out are found by simplification.
attribute [simp] lookup membersNamed required? defaulted? optional? listMember? flag?

/-- What is not null is read as it is. -/
theorem nullable?_of_ne_null {json : Json} (proper : json ≠ null) (read : Json → Option α) :
    json.nullable? read = (read json).map some := by
  cases json <;> first | rfl | exact absurd rfl proper

/-- The text of a string is read back. -/
@[simp] theorem string?_str (text : String) : (str text).string? = some text := rfl

/-- A truth value is read back. -/
@[simp] theorem bool?_bool (value : Bool) : (bool value).bool? = some value := rfl

/-- A name is read back. -/
@[simp] theorem name?_ofName {kind : NameKind} (name : Name kind) :
    (ofName name).name? = some name := rfl

/-- What is read as a shape without parts is one of these shapes. -/
theorem exists_mem_of_unitVariant? {variants : List (String × α)} {json : Json} {value : α}
    (found : json.unitVariant? variants = some value) : ∃ name, (name, value) ∈ variants := by
  have named (name : String) (there : variants.lookup name = some value) :
      (name, value) ∈ variants := by
    obtain ⟨before, after, rfl, -⟩ := List.lookup_eq_some_iff.1 there
    simp
  unfold unitVariant? at found
  split at found
  · exact ⟨_, named _ found⟩
  · exact ⟨_, named _ found⟩
  · cases found

/-- The double of a number in range is finite. -/
theorem isFinite_of_double? {json : Json} {value : Double} (inRange : json.inRange = true)
    (found : json.double? = some value) : value.isFinite = true := by
  cases json with
  | int number =>
    cases found
    obtain ⟨low, high⟩ := inRange_int.1 inRange
    exact Double.isFinite_ofInt (by simp only [UInt64.size]; omega)
  | double number =>
    cases found
    rwa [inRange_double] at inRange
  | _ => cases found

/-- Whether only finite doubles are read from values in range that are smaller than a bound. -/
def ReadsFinite (read : Json → Option α) (doubles : α → List Double) (bound : Nat) : Prop :=
  ∀ json value, sizeOf json < bound → json.inRange = true → read json = some value →
    ∀ double ∈ doubles value, double.isFinite = true

/-- Whether values are written and read without loss: what is written is read back, and doubles are
the only numbers that may be out of range. -/
structure Lossless (write : α → Json) (read : Json → Option α) (layout : Layout)
    (doubles : α → List Double) : Prop where
  reads : ∀ value, read (write value) = some value
  named : ∀ value, layout.named (write value) = write value
  inRange : ∀ value, (∀ double ∈ doubles value, double.isFinite = true) →
    (write value).inRange = true
  finite : ∀ bound, ReadsFinite read doubles bound

namespace ReadsFinite

variable {read : Json → Option α} {doubles : α → List Double} {bound : Nat}

/-- Values without doubles. -/
theorem none : ReadsFinite read (fun _ => []) bound := by
  intro json value _ _ _ double among
  cases among

/-- A list of values. -/
theorem list (finite : ReadsFinite read doubles bound) :
    ReadsFinite (listOf? read) (fun values => values.flatMap doubles) bound := by
  intro json values small inRange found
  cases json with
  | arr elements =>
    have parts : ∀ element ∈ elements, sizeOf element < bound ∧ element.inRange = true := by
      intro element among
      have smaller := List.sizeOf_lt_of_mem among
      simp only [arr.sizeOf_spec] at small
      exact ⟨by omega, inRange_arr.1 inRange element among⟩
    simp only [listOf?] at found
    clear small inRange
    induction elements generalizing values with
    | nil =>
      cases found
      simp
    | cons head rest ih =>
      simp only [List.mapM_cons, Option.bind_eq_bind, Option.bind_eq_some_iff, Option.pure_def,
        Option.some.injEq] at found
      obtain ⟨first, here, others, there, rfl⟩ := found
      obtain ⟨small, inRange⟩ := parts head List.mem_cons_self
      have later := ih others there (fun element among =>
        parts element (List.mem_cons_of_mem _ among))
      intro double among
      rcases List.mem_append.1 among with own | other
      · exact finite head first small inRange here double own
      · exact later double other
  | _ => cases found

/-- A value that may be `null`. -/
theorem option (finite : ReadsFinite read doubles bound) :
    ReadsFinite (nullable? read) (fun value? => value?.toList.flatMap doubles) bound := by
  intro json value? small inRange found
  unfold nullable? at found
  split at found
  · cases found
    simp
  · obtain ⟨value, here, rfl⟩ := Option.map_eq_some_iff.1 found
    simpa using finite json value small inRange here

section Members

variable {json : Json} {key : String} {value : α} (finite : ReadsFinite read doubles (sizeOf json))
  (inRange : json.inRange = true)

include finite inRange

/-- A member that must be there. -/
theorem required (found : json.required? key read = some value) :
    ∀ double ∈ doubles value, double.isFinite = true := by
  unfold required? at found
  split at found
  · next inner there =>
    exact finite inner value (sizeOf_lt_of_lookup there) (inRange_of_lookup inRange there) found
  · cases found

/-- A member with a default. -/
theorem defaulted {fallback : α} (given : ∀ double ∈ doubles fallback, double.isFinite = true)
    (found : json.defaulted? key fallback read = some value) :
    ∀ double ∈ doubles value, double.isFinite = true := by
  unfold defaulted? at found
  split at found
  · cases found
    exact given
  · next inner there =>
    exact finite inner value (sizeOf_lt_of_lookup there) (inRange_of_lookup inRange there) found
  · cases found

/-- A member that may be missing or `null`. -/
theorem optional {value? : Option α} (found : json.optional? key read = some value?) :
    ∀ double ∈ value?.toList.flatMap doubles, double.isFinite = true :=
  finite.option.defaulted inRange (by simp) found

/-- A list that may be missing. -/
theorem listMember {values : List α} (found : json.listMember? key read = some values) :
    ∀ double ∈ values.flatMap doubles, double.isFinite = true :=
  finite.list.defaulted inRange (by simp) found

end Members

end ReadsFinite

end Json

-- So are their names.
attribute [simp] Layout.named Layout.unfolded Layout.namedMembers Layout.recordOf

/-- A plain layout changes nothing. -/
@[simp] theorem Layout.named_plain (json : Json) : Layout.plain.named json = json := by
  cases json <;> simp

namespace Json.Lossless

variable {α : Type} {write : α → Json} {read : Json → Option α} {layout : Layout}
  {doubles : α → List Double}

/-- Values without records and doubles lose nothing if they are read back. -/
theorem of_reads (reads : ∀ value, read (write value) = some value)
    (inRange : ∀ value, (write value).inRange = true) :
    Lossless write read .plain (fun _ => []) where
  reads := reads
  named _ := Layout.named_plain _
  inRange value _ := inRange value
  finite _ := .none

/-- A list of values. -/
theorem list (lossless : Lossless write read layout doubles) :
    Lossless (ofList write) (listOf? read) (.list layout) (fun values => values.flatMap doubles)
    where
  reads values := by
    simp only [ofList, listOf?]
    induction values with
    | nil => rfl
    | cons head rest ih => simp [lossless.reads head, ih]
  named values := by
    have each : Layout.namedElements layout (values.map write) = values.map write := by
      induction values with
      | nil => rfl
      | cons head rest ih =>
        simp only [List.map_cons, Layout.namedElements, lossless.named head, ih]
    simp only [ofList, Layout.named, Layout.unfolded, each]
  inRange values finite := by
    simp only [ofList, inRange_arr, List.forall_mem_map]
    intro value among
    exact lossless.inRange value (fun double found =>
      finite double (List.mem_flatMap.2 ⟨value, among, found⟩))
  finite bound := (lossless.finite bound).list

/-- A value that may be `null`, if no value is. -/
theorem option (lossless : Lossless write read layout doubles)
    (proper : ∀ value, write value ≠ null) :
    Lossless (ofOption write) (nullable? read) layout
      (fun value? => value?.toList.flatMap doubles) where
  reads value? := by
    cases value? with
    | none => rfl
    | some value =>
      rw [ofOption, nullable?_of_ne_null (proper value), lossless.reads]
      rfl
  named value? := by
    cases value? with
    | none => rfl
    | some value => exact lossless.named value
  inRange value? finite := by
    cases value? with
    | none => rfl
    | some value => exact lossless.inRange value (by simpa using finite)
  finite bound := (lossless.finite bound).option

end Json.Lossless

end JsEmitter
