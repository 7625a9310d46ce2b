import JsEmitter.Digest.Sha256

/-!
# Versions

Every input whose generated code is kept carries a version: a token chosen by whoever produced
the input. Two inputs count as unchanged when both are versioned and their tokens are equal; an
input without a version counts as changed, even against itself. Tokens combine by writing each
one after its length, so the parts can be told apart whatever characters they contain.
-/
namespace JsEmitter

/-- The token that tells whether an input has changed. -/
structure Version where
  /-- The token, if the input is versioned. -/
  token? : Option String
deriving DecidableEq, Repr, Inhabited

namespace Version

/-- The version that is the same as no version. -/
def unversioned : Version := ⟨none⟩

/-- The version with a given token. -/
def ofToken (token : String) : Version := ⟨some token⟩

/-- The version numbered by a counter. -/
def ofInt (number : Int) : Version := ofToken ("#" ++ toString number)

/-- Whether there is a token. -/
def isVersioned (version : Version) : Bool := version.token?.isSome

/-- Whether both versions have the same token. -/
def isSame (left right : Version) : Bool :=
  match left.token?, right.token? with
  | some first, some second => first = second
  | _, _ => false

/-- A token after its length in bytes. -/
def marked (token : String) : String := toString token.utf8ByteSize ++ ":" ++ token

/-- The token of a list of tokens. -/
def combinedToken (tokens : List String) : String :=
  "c(" ++ String.join (tokens.map marked) ++ ")"

/-- One version for a list of versions, unversioned if any of them is. -/
def combine (versions : List Version) : Version := ⟨(versions.mapM token?).map combinedToken⟩

/-- The version of the content of a byte list. -/
def fingerprint (content : List UInt8) : Version := ofToken (Sha256.hexadecimalDigest content)

/-- A number as eight bytes, lowest byte first, modulo two to the sixty-fourth power. -/
def lengthBytes (number : Nat) : List UInt8 :=
  (List.range 8).map (fun position => UInt8.ofNat (number >>> (8 * position)))

/-- Every list of bytes after its length. -/
def framed (parts : List (List UInt8)) : List UInt8 :=
  parts.flatMap (fun part => lengthBytes part.length ++ part)

/-- The version of the contents of a list of byte lists, which depends on their order and on their
borders. -/
def fingerprintFrames (parts : List (List UInt8)) : Version := fingerprint (framed parts)

/-- The bytes of every text after their number. -/
def partBytes (parts : List String) : List UInt8 :=
  framed (parts.map (fun part => part.toUTF8.toList))

/-- The version of the contents of a list of texts, which depends on their order and borders. -/
def fingerprintParts (parts : List String) : Version :=
  fingerprintFrames (parts.map (fun part => part.toUTF8.toList))

/-- At most twelve characters of the token. -/
def short (version : Version) : String :=
  match version.token? with
  | some token => String.ofList (token.toList.take 12)
  | none => "unversioned"

/-- The token, or a mark in its place. -/
def text (version : Version) : String := version.token?.getD "<unversioned>"

/-- Two versions are the same exactly when they share a token. -/
theorem isSame_iff {left right : Version} :
    left.isSame right = true ↔ ∃ token, left.token? = some token ∧ right.token? = some token := by
  unfold isSame
  split
  · rename_i first second found other
    simp [found, other, eq_comm]
  · rename_i differ
    simp only [Bool.false_eq_true, false_iff, not_exists, not_and]
    intro token found other
    exact differ token token found other

/-- A version is the same as itself exactly when it is versioned. -/
theorem isSame_self (version : Version) : version.isSame version = version.isVersioned := by
  cases version with
  | mk token? => cases token? <;> simp [isSame, isVersioned]

end Version

end JsEmitter
