import JsEmitter.Json.Token

/-!
# JSON values of a text

The tokens of a text are read one by one. The arrays and objects that are open are a stack of
frames, innermost first, and each token changes the stack; so reading needs no recursion on
nested values, and the depth of nesting is the height of the stack. Arrays and objects below the
greatest depth are read as values that cannot be held, and so are objects with such a key.
-/
namespace JsEmitter.Json

/-- An array or object of which the end has not been read. Parts are in reverse. -/
inductive Frame where
  /-- An array with its elements so far. -/
  | array (reversed : List Json)
  /-- An object with its members so far; keys that cannot be held are missing. -/
  | object (reversed : List (Option String × Json))
  /-- An object with its members so far and the key of the next. -/
  | keyed (reversed : List (Option String × Json)) (key? : Option String)

/-- What may come next. -/
inductive Expected where
  | value
  | valueOrClose
  | key
  | keyOrClose
  | colon
  | commaOrClose
  | nothing (result : Json)

/-- The open frames and what may come next. -/
structure ReadState where
  frames : List Frame
  expected : Expected

/-- The state after a complete value. -/
def ReadState.complete (frames : List Frame) (value : Json) : Option ReadState :=
  match frames with
  | [] => some ⟨[], .nothing value⟩
  | .array reversed :: rest => some ⟨.array (value :: reversed) :: rest, .commaOrClose⟩
  | .keyed reversed key? :: rest =>
    some ⟨.object ((key?, value) :: reversed) :: rest, .commaOrClose⟩
  | .object _ :: _ => none

/-- The state after the start of a value. -/
def ReadState.startValue (frames : List Frame) (token : Token) : Option ReadState :=
  match token with
  | .scalar value => complete frames value
  | .text content? => complete frames ((content?.map str).getD unreadable)
  | .openArray => some ⟨.array [] :: frames, .valueOrClose⟩
  | .openObject => some ⟨.object [] :: frames, .keyOrClose⟩
  | _ => none

/-- The object with some members, given in reverse. -/
def ofReversed (reversed : List (Option String × Json)) : Json :=
  match reversed.mapM (fun (key?, value) => key?.map (·, value)) with
  | some members => obj members.reverse
  | none => unreadable

/-- The state after an array or object, the one at this depth of the frames around it. -/
def ReadState.leave (limit : Nat) (frames : List Frame) (value : Json) : Option ReadState :=
  complete frames (if frames.length < limit then value else unreadable)

/-- The state after a closing bracket. -/
def ReadState.close (limit : Nat) (frames : List Frame) (token : Token) : Option ReadState :=
  match token, frames with
  | .closeArray, .array reversed :: rest => leave limit rest (.arr reversed.reverse)
  | .closeObject, .object reversed :: rest => leave limit rest (ofReversed reversed)
  | _, _ => none

/-- The state after a key. -/
def ReadState.takeKey (frames : List Frame) (token : Token) : Option ReadState :=
  match token, frames with
  | .text key?, .object reversed :: rest => some ⟨.keyed reversed key? :: rest, .colon⟩
  | _, _ => none

/-- The state after one more token. At most `limit` arrays and objects can be held inside each
other. -/
def ReadState.step (limit : Nat) (state : ReadState) (token : Token) : Option ReadState :=
  match state.expected with
  | .value => startValue state.frames token
  | .valueOrClose =>
    match token with
    | .closeArray => close limit state.frames token
    | _ => startValue state.frames token
  | .key => takeKey state.frames token
  | .keyOrClose =>
    match token with
    | .closeObject => close limit state.frames token
    | _ => takeKey state.frames token
  | .colon =>
    match token with
    | .colon => some { state with expected := .value }
    | _ => none
  | .commaOrClose =>
    match token, state.frames with
    | .comma, .array _ :: _ => some { state with expected := .value }
    | .comma, .object _ :: _ => some { state with expected := .key }
    | _, _ => close limit state.frames token
  | .nothing _ => none

/-- The value of a list of tokens; `none` if they are not one value. -/
def ofTokens? (limit : Nat) (tokens : List Token) : Option Json := do
  let last ← tokens.foldlM (ReadState.step limit) ⟨[], .value⟩
  match last.expected with
  | .nothing result => some result
  | _ => none

/-- The value of a text; `none` if it is not well formed. -/
def read? (limit : Nat) (text : String) : Option Json := do
  let tokens ← tokens? text
  ofTokens? limit tokens

end JsEmitter.Json
