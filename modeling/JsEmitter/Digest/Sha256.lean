/-!
# SHA-256

The digest of a byte list, by the definition of the standard: the message is padded to whole
blocks of sixty-four bytes, and each block is compressed into a state of eight words by
sixty-four rounds. `Sha256.digest_length` says that a digest has thirty-two bytes.
-/
namespace JsEmitter.Sha256

/-- The eight words between two blocks. -/
structure State where
  a : UInt32
  b : UInt32
  c : UInt32
  d : UInt32
  e : UInt32
  f : UInt32
  g : UInt32
  h : UInt32

/-- The state before the first block. -/
def State.start : State :=
  ⟨0x6a09e667, 0xbb67ae85, 0x3c6ef372, 0xa54ff53a, 0x510e527f, 0x9b05688c, 0x1f83d9ab, 0x5be0cd19⟩

/-- The constant added in each of the sixty-four rounds. -/
def roundConstants : List UInt32 := [
  0x428a2f98, 0x71374491, 0xb5c0fbcf, 0xe9b5dba5, 0x3956c25b, 0x59f111f1, 0x923f82a4, 0xab1c5ed5,
  0xd807aa98, 0x12835b01, 0x243185be, 0x550c7dc3, 0x72be5d74, 0x80deb1fe, 0x9bdc06a7, 0xc19bf174,
  0xe49b69c1, 0xefbe4786, 0x0fc19dc6, 0x240ca1cc, 0x2de92c6f, 0x4a7484aa, 0x5cb0a9dc, 0x76f988da,
  0x983e5152, 0xa831c66d, 0xb00327c8, 0xbf597fc7, 0xc6e00bf3, 0xd5a79147, 0x06ca6351, 0x14292967,
  0x27b70a85, 0x2e1b2138, 0x4d2c6dfc, 0x53380d13, 0x650a7354, 0x766a0abb, 0x81c2c92e, 0x92722c85,
  0xa2bfe8a1, 0xa81a664b, 0xc24b8b70, 0xc76c51a3, 0xd192e819, 0xd6990624, 0xf40e3585, 0x106aa070,
  0x19a4c116, 0x1e376c08, 0x2748774c, 0x34b0bcb5, 0x391c0cb3, 0x4ed8aa4a, 0x5b9cca4f, 0x682e6ff3,
  0x748f82ee, 0x78a5636f, 0x84c87814, 0x8cc70208, 0x90befffa, 0xa4506ceb, 0xbef9a3f7, 0xc67178f2]

/-- Rotate a word to the right. -/
def rotate (word : UInt32) (count : UInt32) : UInt32 :=
  (word >>> count) ||| (word <<< (32 - count))

/-- The word that four bytes spell, highest byte first. -/
def word (first second third fourth : UInt8) : UInt32 :=
  (first.toUInt32 <<< 24) ||| (second.toUInt32 <<< 16) ||| (third.toUInt32 <<< 8) |||
    fourth.toUInt32

/-- The words that a byte list spells; an incomplete last word is dropped. -/
def words : List UInt8 → List UInt32
  | first :: second :: third :: fourth :: rest => word first second third fourth :: words rest
  | _ => []

/-- The four bytes of a word, highest byte first. -/
def bytes (word : UInt32) : List UInt8 :=
  [(word >>> 24).toUInt8, (word >>> 16).toUInt8, (word >>> 8).toUInt8, word.toUInt8]

/-- A number as eight bytes, highest byte first, modulo two to the sixty-fourth power. -/
def lengthBytes (number : Nat) : List UInt8 :=
  bytes (UInt32.ofNat (number >>> 32)) ++ bytes (UInt32.ofNat number)

/-- The message followed by a marker bit, zeros, and its length in bits. -/
def pad (message : List UInt8) : List UInt8 :=
  let zeros := (119 - message.length % 64) % 64
  message ++ [0x80] ++ List.replicate zeros 0 ++ lengthBytes (message.length * 8)

/-- The word that enters a round sixteen rounds after the first of sixteen words. -/
def nextWord (window : Array UInt32) : UInt32 :=
  let early := window.getD 1 0
  let late := window.getD 14 0
  let first := rotate early 7 ^^^ rotate early 18 ^^^ (early >>> 3)
  let second := rotate late 17 ^^^ rotate late 19 ^^^ (late >>> 10)
  window.getD 0 0 + first + window.getD 9 0 + second

/-- One round on the state with one word of the schedule. -/
def round (state : State) (constant word : UInt32) : State :=
  let mix := rotate state.e 6 ^^^ rotate state.e 11 ^^^ rotate state.e 25
  let choice := (state.e &&& state.f) ^^^ ((~~~state.e) &&& state.g)
  let first := state.h + mix + choice + constant + word
  let blend := rotate state.a 2 ^^^ rotate state.a 13 ^^^ rotate state.a 22
  let majority := (state.a &&& state.b) ^^^ (state.a &&& state.c) ^^^ (state.b &&& state.c)
  ⟨first + (blend + majority), state.a, state.b, state.c, state.d + first, state.e, state.f,
    state.g⟩

/-- The rounds of one block. The window holds the next sixteen words of the schedule. -/
def rounds : List UInt32 → Array UInt32 → State → State
  | [], _, state => state
  | constant :: rest, window, state =>
    rounds rest ((window.extract 1 16).push (nextWord window))
      (round state constant (window.getD 0 0))

/-- Word by word sum of two states. -/
def State.add (left right : State) : State :=
  ⟨left.a + right.a, left.b + right.b, left.c + right.c, left.d + right.d, left.e + right.e,
    left.f + right.f, left.g + right.g, left.h + right.h⟩

/-- Compress one block of sixteen words into the state. -/
def compress (state : State) (block : List UInt32) : State :=
  state.add (rounds roundConstants block.toArray state)

/-- Compress the words of a message, sixteen at a time; an incomplete last block is dropped. -/
def compressAll : List UInt32 → State → State
  | w0 :: w1 :: w2 :: w3 :: w4 :: w5 :: w6 :: w7 :: w8 :: w9 :: w10 :: w11 :: w12 :: w13 :: w14 ::
      w15 :: rest, state =>
    compressAll rest
      (compress state [w0, w1, w2, w3, w4, w5, w6, w7, w8, w9, w10, w11, w12, w13, w14, w15])
  | _, state => state

/-- The bytes of a state. -/
def State.bytes (state : State) : List UInt8 :=
  [state.a, state.b, state.c, state.d, state.e, state.f, state.g, state.h].flatMap Sha256.bytes

/-- The SHA-256 digest of a message. -/
def digest (message : List UInt8) : List UInt8 :=
  (compressAll (words (pad message)) State.start).bytes

/-- A digest has thirty-two bytes. -/
theorem digest_length (message : List UInt8) : (digest message).length = 32 := rfl

/-- The two hexadecimal digits of a byte, in lower case. -/
def hexadecimalByte (byte : UInt8) : List Char :=
  [Nat.digitChar (byte.toNat / 16), Nat.digitChar (byte.toNat % 16)]

/-- The digest as sixty-four lower-case hexadecimal digits. -/
def hexadecimalDigest (message : List UInt8) : String :=
  String.ofList ((digest message).flatMap hexadecimalByte)

end JsEmitter.Sha256
