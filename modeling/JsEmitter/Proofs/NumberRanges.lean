import JsEmitter.Json.Writing
import JsEmitter.Linked.ProgramJson
import Mathlib.Data.Nat.Log

/-!
# Ranges of numbers

A JSON value holds whole numbers of sixty-four bits and finite doubles. So do the parts of such a
value, the value with its records as objects, and every value that is read from a text. A double
that is not finite can only be written as `null`.
-/
namespace JsEmitter

namespace Double

/-- A double is finite if its magnitude is below the infinite one. -/
theorem isFinite_ofSignAndMagnitude {negative : Bool} {magnitude : Nat}
    (small : magnitude < infiniteMagnitude) :
    (ofSignAndMagnitude negative magnitude).isFinite = true := by
  have bound : magnitude < 2047 * 2 ^ 52 := by
    simpa [infiniteMagnitude, Nat.shiftLeft_eq] using small
  have bits : (ofSignAndMagnitude negative magnitude).bits.toNat =
      magnitude + if negative then 2 ^ 63 else 0 := by
    simp only [ofSignAndMagnitude, Nat.shiftLeft_eq, UInt64.toNat_ofNat']
    split <;> omega
  simp only [isFinite, biasedExponent, bits, Nat.shiftRight_eq_div_pow]
  split <;> simp <;> omega

/-- Rounding a quotient adds at most one to the truncated one. -/
theorem roundQuotient_le (numerator denominator : Nat) :
    roundQuotient numerator denominator ≤ numerator / denominator + 1 := by
  simp only [roundQuotient]
  split <;> omega

/-- The last bit that a double keeps of a positive whole number. -/
theorem lastBit_one {value : Nat} (positive : value ≠ 0) :
    lastBit value 1 = (value.log2 : Int) - 52 := by
  have reached : 2 ^ value.log2 ≤ value := Nat.log2_self_le positive
  have one : Nat.log2 1 = 0 := by decide
  simp only [lastBit, quotientLog2, one, Nat.shiftLeft_eq]
  simp [reached]
  omega

/-- A whole number of at most sixty-four bits is a finite double. -/
theorem isFinite_ofInt {number : Int} (small : number.natAbs < UInt64.size) :
    (ofInt number).isFinite = true := by
  refine isFinite_ofSignAndMagnitude ?_
  unfold nearestMagnitude
  split
  · decide
  rename_i positive
  generalize number.natAbs = value at *
  simp only [lastBit_one positive]
  have few : value.log2 < 64 := (Nat.log2_lt positive).2 small
  generalize raised : (-((value.log2 : Int) - 52)).toNat = up
  generalize lowered : ((value.log2 : Int) - 52).toNat = down
  have scaled : value <<< up / 1 <<< down < 2 ^ 53 := by
    refine Nat.div_lt_of_lt_mul ?_
    have same : 1 <<< down * 2 ^ 53 = 2 ^ (value.log2 + 1) * 2 ^ up := by
      rw [Nat.one_shiftLeft, ← Nat.pow_add, ← Nat.pow_add]
      congr 1
      omega
    rw [same, Nat.shiftLeft_eq]
    exact Nat.mul_lt_mul_of_pos_right Nat.lt_log2_self (Nat.two_pow_pos up)
  have rounded := roundQuotient_le (value <<< up) (1 <<< down)
  refine Nat.lt_of_le_of_lt (Nat.min_le_right ..) ?_
  simp only [infiniteMagnitude, Nat.shiftLeft_eq _ 52]
  omega

/-- A decimal that is in range is a finite double. -/
theorem isFinite_of_ofDecimal? {negative : Bool} {significand : Nat} {power : Int}
    {double : Double} (found : ofDecimal? negative significand power = some double) :
    double.isFinite = true := by
  simp only [ofDecimal?] at found
  split at found
  · cases found
    exact isFinite_ofSignAndMagnitude (by decide)
  · split at found
    · cases found
    · simp only [finite?] at found
      split at found
      · next finite =>
        cases found
        exact finite
      · cases found

end Double

namespace Json

mutual

/-- Whether all numbers of a value are in range. -/
def inRange : Json → Bool
  | unreadable | null | bool _ | str _ => true
  | int value => Int64.minValue.toInt ≤ value && value ≤ maxWord
  | double value => value.isFinite
  | arr elements => elementsInRange elements
  | obj members => membersInRange members

/-- Whether all numbers of the elements of an array are in range. -/
def elementsInRange : List Json → Bool
  | [] => true
  | element :: rest => inRange element && elementsInRange rest

/-- Whether all numbers of the members of an object are in range. -/
def membersInRange : List (String × Json) → Bool
  | [] => true
  | (_, value) :: rest => inRange value && membersInRange rest

end

mutual

/-- A value as its text spells it: with `null` for the doubles that are not finite. -/
def spelled : Json → Json
  | double value => if value.isFinite then double value else null
  | arr elements => arr (spelledElements elements)
  | obj members => obj (spelledMembers members)
  | json => json

/-- The elements of an array as its text spells them. -/
def spelledElements : List Json → List Json
  | [] => []
  | element :: rest => spelled element :: spelledElements rest

/-- The members of an object as its text spells them. -/
def spelledMembers : List (String × Json) → List (String × Json)
  | [] => []
  | (key, value) :: rest => (key, spelled value) :: spelledMembers rest

end

/-- The null value has no number out of range. -/
@[simp] theorem inRange_null : null.inRange = true := rfl

/-- A truth value has no number out of range. -/
@[simp] theorem inRange_bool {value : Bool} : (bool value).inRange = true := rfl

/-- A string has no number out of range. -/
@[simp] theorem inRange_str {value : String} : (str value).inRange = true := rfl

/-- An integer is in range if it fits in a signed or an unsigned word. -/
@[simp] theorem inRange_int {value : Int} : (int value).inRange = true ↔
    -9223372036854775808 ≤ value ∧ value ≤ 18446744073709551615 := by
  have low : Int64.minValue.toInt = -9223372036854775808 := by decide
  have high : (maxWord : Int) = 18446744073709551615 := by decide
  rw [inRange, low, high, Bool.and_eq_true, decide_eq_true_eq, decide_eq_true_eq]

/-- A fraction is in range if it is finite. -/
@[simp] theorem inRange_double {value : Double} : (double value).inRange = value.isFinite := by
  rw [inRange]

/-- The empty list has no number out of range. -/
@[simp] theorem inRange_arr_nil : (arr []).inRange = true := rfl

/-- A list is in range if its first element and the others are. -/
@[simp] theorem inRange_arr_cons {element : Json} {rest : List Json} :
    (arr (element :: rest)).inRange = (element.inRange && (arr rest).inRange) := rfl

/-- The empty object has no number out of range. -/
@[simp] theorem inRange_obj_nil : (obj []).inRange = true := rfl

/-- An object is in range if its first member and the others are. -/
@[simp] theorem inRange_obj_cons {key : String} {value : Json} {rest : List (String × Json)} :
    (obj ((key, value) :: rest)).inRange = (value.inRange && (obj rest).inRange) := rfl

/-- A list is in range if its elements are. -/
theorem inRange_arr {elements : List Json} :
    (arr elements).inRange = true ↔ ∀ element ∈ elements, element.inRange = true := by
  induction elements with
  | nil => simp
  | cons head rest ih => simp [ih]

/-- An object is in range if the values of its members are. -/
theorem inRange_obj {members : List (String × Json)} :
    (obj members).inRange = true ↔ ∀ member ∈ members, member.2.inRange = true := by
  induction members with
  | nil => simp
  | cons head rest ih =>
    obtain ⟨key, value⟩ := head
    rw [inRange_obj_cons, Bool.and_eq_true, ih, List.forall_mem_cons]

mutual

/-- What is spelled is written in the same way. -/
theorem write_spelled : (json : Json) → json.spelled.write = json.write
  | double value => by
    cases finite : value.isFinite <;> simp [spelled, finite, write, writeDouble]
  | arr elements => by simp only [spelled, write, writeElements_spelledElements elements]
  | obj members => by simp only [spelled, write, writeMembers_spelledMembers members]
  | unreadable | null | bool _ | int _ | str _ => rfl

/-- Elements that are spelled again are written as before. -/
theorem writeElements_spelledElements : (elements : List Json) →
    writeElements (spelledElements elements) = writeElements elements
  | [] => rfl
  | [element] => write_spelled element
  | element :: next :: rest => by
    have others := writeElements_spelledElements (next :: rest)
    simp only [spelledElements, writeElements, write_spelled element] at others ⊢
    rw [others]

/-- Members that are spelled again are written as before. -/
theorem writeMembers_spelledMembers : (members : List (String × Json)) →
    writeMembers (spelledMembers members) = writeMembers members
  | [] => rfl
  | [(key, value)] => by simp only [spelledMembers, writeMembers, write_spelled value]
  | (key, value) :: (next, inner) :: rest => by
    have others := writeMembers_spelledMembers ((next, inner) :: rest)
    simp only [spelledMembers, writeMembers, write_spelled value] at others ⊢
    rw [others]

end

mutual

/-- A value in range is spelled as it is. -/
theorem spelled_eq : (json : Json) → json.inRange = true → json.spelled = json
  | double value, finite => by
    rw [inRange] at finite
    rw [spelled, if_pos finite]
  | arr elements, inRange => by rw [spelled, spelledElements_eq elements inRange]
  | obj members, inRange => by rw [spelled, spelledMembers_eq members inRange]
  | unreadable, _ | null, _ | bool _, _ | int _, _ | str _, _ => rfl

/-- Spelling elements in range again changes nothing. -/
theorem spelledElements_eq : (elements : List Json) → elementsInRange elements = true →
    spelledElements elements = elements
  | [], _ => rfl
  | element :: rest, inRange => by
    simp only [elementsInRange, Bool.and_eq_true] at inRange
    rw [spelledElements, spelled_eq element inRange.1, spelledElements_eq rest inRange.2]

/-- Spelling members in range again changes nothing. -/
theorem spelledMembers_eq : (members : List (String × Json)) → membersInRange members = true →
    spelledMembers members = members
  | [], _ => rfl
  | (key, value) :: rest, inRange => by
    simp only [membersInRange, Bool.and_eq_true] at inRange
    rw [spelledMembers, spelled_eq value inRange.1, spelledMembers_eq rest inRange.2]

end

/-- What is found in an object is in range with it. -/
theorem inRange_of_lookup {json value : Json} {key : String} (inRange : json.inRange = true)
    (found : json.lookup key = .found value) : value.inRange = true := by
  unfold lookup at found
  split at found
  · rename_i members
    split at found
    · cases found
    · rename_i name inner same
      cases found
      have member : (name, value) ∈ membersNamed key members := by simp [same]
      exact inRange_obj.1 inRange _ (List.mem_filter.1 member).1
    · cases found
  · cases found

end Json

namespace Layout

open Json (inRange elementsInRange membersInRange)

mutual

/-- Records get their names without a number that was not there. -/
theorem inRange_named : (layout : Layout) → (json : Json) → json.inRange = true →
    (layout.named json).inRange = true
  | layout, .arr elements, numbers => by
    rw [inRange] at numbers
    unfold named
    split
    · exact elementsInRange_namedElements _ elements numbers
    · exact elementsInRange_namedParts _ elements numbers
    · split
      · exact membersInRange_namedFields _ elements numbers
      · rfl
    · exact numbers
  | layout, .obj members, numbers => by
    rw [inRange] at numbers
    unfold named
    split
    · exact membersInRange_namedMembers _ members numbers
    · exact membersInRange_namedMembers _ members numbers
    · exact numbers
  | _, .unreadable, numbers | _, .null, numbers | _, .bool _, numbers | _, .int _, numbers
  | _, .double _, numbers | _, .str _, numbers => numbers

/-- Elements in range stay so with their records as objects. -/
theorem elementsInRange_namedElements : (layout : Layout) → (elements : List Json) →
    elementsInRange elements = true → elementsInRange (namedElements layout elements) = true
  | _, [], _ => rfl
  | layout, element :: rest, numbers => by
    simp only [elementsInRange, namedElements, Bool.and_eq_true] at numbers ⊢
    exact ⟨inRange_named layout element numbers.1,
      elementsInRange_namedElements layout rest numbers.2⟩

/-- Parts of a tuple in range stay so with their records as objects. -/
theorem elementsInRange_namedParts : (layouts : List Layout) → (parts : List Json) →
    elementsInRange parts = true → elementsInRange (namedParts layouts parts) = true
  | _, [], _ => rfl
  | layouts, part :: rest, numbers => by
    simp only [elementsInRange, namedParts, Bool.and_eq_true] at numbers ⊢
    exact ⟨inRange_named _ part numbers.1, elementsInRange_namedParts _ rest numbers.2⟩

/-- The fields of a record in range stay so as members of an object. -/
theorem membersInRange_namedFields : (fields : List (String × Layout)) → (values : List Json) →
    elementsInRange values = true → membersInRange (namedFields fields values) = true
  | _, [], _ => rfl
  | fields, value :: rest, numbers => by
    simp only [elementsInRange, namedFields, membersInRange, Bool.and_eq_true] at numbers ⊢
    exact ⟨inRange_named _ value numbers.1, membersInRange_namedFields _ rest numbers.2⟩

/-- Members in range stay so with their records as objects. -/
theorem membersInRange_namedMembers : (parts : List (String × Layout)) →
    (members : List (String × Json)) → membersInRange members = true →
    membersInRange (namedMembers parts members) = true
  | _, [], _ => rfl
  | parts, (key, value) :: rest, numbers => by
    simp only [namedMembers, membersInRange, Bool.and_eq_true] at numbers ⊢
    exact ⟨inRange_named _ value numbers.1, membersInRange_namedMembers parts rest numbers.2⟩

end

end Layout

end JsEmitter
