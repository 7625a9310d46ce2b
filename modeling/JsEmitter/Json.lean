import JsEmitter.Double

/-!
# JSON values

A JSON value keeps the members of an object in the order in which they stand, repeated keys
included. Whole numbers and doubles are told apart by how they were written. What is well formed
but cannot be held is a value too, which may stand wherever nobody asks for it. A record is read
member by member: a member may be required, may have a default, or may be absent. Reading
returns a smaller value, which is what makes recursive readers end.
-/
namespace JsEmitter

/-- A JSON value. -/
inductive Json where
  /-- A number out of range, a text with half of a surrogate pair, or a value nested too
  deeply. -/
  | unreadable
  | null
  | bool (value : Bool)
  | int (value : Int)
  | double (value : Double)
  | str (value : String)
  | arr (elements : List Json)
  | obj (members : List (String × Json))
deriving Inhabited

namespace Json

/-- What the members of an object say about one key. -/
inductive Lookup where
  /-- No member has the key. -/
  | missing
  /-- Exactly one member has the key. -/
  | found (value : Json)
  /-- Several members have the key, or the value is no object. -/
  | ambiguous

/-- The members of an object that have a given key. -/
def membersNamed (key : String) (members : List (String × Json)) : List (String × Json) :=
  members.filter (fun member => member.1 = key)

/-- Look up one key in an object. -/
def lookup (json : Json) (key : String) : Lookup :=
  match json with
  | obj members =>
    match membersNamed key members with
    | [] => .missing
    | [(_, value)] => .found value
    | _ => .ambiguous
  | _ => .ambiguous

/-- The value of a member is smaller than its object, so readers can recurse into members. -/
theorem sizeOf_lt_of_mem_members {key : String} {value : Json} {members : List (String × Json)}
    (found : (key, value) ∈ members) : sizeOf value < sizeOf (obj members) := by
  have smaller := List.sizeOf_lt_of_mem found
  have pair : sizeOf value < sizeOf (key, value) := by
    simp only [Prod.mk.sizeOf_spec]
    omega
  simp only [obj.sizeOf_spec]
  omega

/-- A value found in an object is smaller than the object. -/
theorem sizeOf_lt_of_lookup {json value : Json} {key : String}
    (found : json.lookup key = .found value) : sizeOf value < sizeOf json := by
  unfold lookup at found
  split at found
  · rename_i members
    split at found
    · cases found
    · rename_i name inner same
      cases found
      have member : (name, value) ∈ membersNamed key members := by simp [same]
      exact sizeOf_lt_of_mem_members (List.mem_filter.1 member).1
    · cases found
  · cases found

/-- The value of a member that must be there, with the fact that it is smaller. -/
def member? (json : Json) (key : String) : Option { value : Json // sizeOf value < sizeOf json } :=
  match found : json.lookup key with
  | .found value => some ⟨value, sizeOf_lt_of_lookup found⟩
  | _ => none

/-- The value of a member that may be missing or `null`, with the fact that it is smaller. -/
def optionalMember? (json : Json) (key : String) :
    Option (Option { value : Json // sizeOf value < sizeOf json }) :=
  match found : json.lookup key with
  | .missing => some none
  | .found null => some none
  | .found value => some (some ⟨value, sizeOf_lt_of_lookup found⟩)
  | .ambiguous => none

/-- The elements of an array, each smaller than the array. -/
def elements? (json : Json) : Option (List { value : Json // sizeOf value < sizeOf json }) :=
  match json with
  | arr elements => some (elements.attach.map (fun element =>
      ⟨element.1, by
        have smaller := List.sizeOf_lt_of_mem element.2
        simp only [arr.sizeOf_spec]
        omega⟩))
  | _ => none

/-- The two elements of an array of two, each smaller than the array. -/
def pair? (json : Json) :
    Option ({ value : Json // sizeOf value < sizeOf json } ×
      { value : Json // sizeOf value < sizeOf json }) :=
  match json with
  | arr [first, second] => some
      (⟨first, by simp only [arr.sizeOf_spec, List.cons.sizeOf_spec]; omega⟩,
        ⟨second, by simp only [arr.sizeOf_spec, List.cons.sizeOf_spec]; omega⟩)
  | _ => none

/-- The tag and the content of an object with one member; the content is smaller. -/
def tagged? (json : Json) : Option (String × { value : Json // sizeOf value < sizeOf json }) :=
  match json with
  | obj [(tag, content)] => some (tag, ⟨content, by
      simp only [obj.sizeOf_spec, List.cons.sizeOf_spec, Prod.mk.sizeOf_spec]
      omega⟩)
  | _ => none

/-- Whether the value is an object. -/
def isObject : Json → Bool
  | obj _ => true
  | _ => false

/-- The text of a string. -/
def string? : Json → Option String
  | str value => some value
  | _ => none

/-- The truth value of a boolean. -/
def bool? : Json → Option Bool
  | bool value => some value
  | _ => none

/-- The whole number of a number written as one. -/
def int? : Json → Option Int
  | int value => some value
  | _ => none

/-- The nearest double of any number. -/
def double? : Json → Option Double
  | int value => some (.ofInt value)
  | double value => some value
  | _ => none

/-- Read every element of an array. -/
def listOf? {α : Type} (read : Json → Option α) : Json → Option (List α)
  | arr elements => elements.mapM read
  | _ => none

/-- A value that may be `null`. -/
def nullable? {α : Type} (read : Json → Option α) : Json → Option (Option α)
  | null => some none
  | json => (read json).map some

/-- Read a member that must be there. -/
def required? {α : Type} (json : Json) (key : String) (read : Json → Option α) : Option α :=
  match json.lookup key with
  | .found value => read value
  | _ => none

/-- Read a member that has a value when it is missing. -/
def defaulted? {α : Type} (json : Json) (key : String) (fallback : α) (read : Json → Option α) :
    Option α :=
  match json.lookup key with
  | .missing => some fallback
  | .found value => read value
  | .ambiguous => none

/-- Read a member that may be missing or `null`. -/
def optional? {α : Type} (json : Json) (key : String) (read : Json → Option α) :
    Option (Option α) :=
  json.defaulted? key none (nullable? read)

/-- The variant that a string names, or an object with one member that is `null`. -/
def unitVariant? {α : Type} (variants : List (String × α)) : Json → Option α
  | str name => variants.lookup name
  | obj [(name, null)] => variants.lookup name
  | _ => none

/-- The written value, or `null` for none. -/
def ofOption {α : Type} (write : α → Json) : Option α → Json
  | some value => write value
  | none => null

/-- An array of written elements. -/
def ofList {α : Type} (write : α → Json) (values : List α) : Json := arr (values.map write)

end Json

end JsEmitter
