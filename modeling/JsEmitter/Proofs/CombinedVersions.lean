import JsEmitter.Proofs.Encoding
import JsEmitter.Proofs.Fingerprints

/-!
# Versions of several parts

Nothing is lost when versions are combined into one, or when lists of bytes are digested together:
the result tells the parts, their number and their order, whatever they contain.
`Version.combined_lossless` is the main statement.
-/
namespace JsEmitter

namespace Sha256

/-- The two digits of a byte tell it. -/
theorem hexadecimalByte_injective : Function.Injective hexadecimalByte := by
  intro byte other same
  simp only [hexadecimalByte, List.cons.injEq, and_true] at same
  have digit : ∀ {number another}, number < 16 → another < 16 →
      Nat.digitChar number = Nat.digitChar another → number = another := by
    intro number another small little equal
    rw [← digitValue_digitChar number small, equal, digitValue_digitChar another little]
  have high : byte.toNat / 16 = other.toNat / 16 :=
    digit (by have := byte.toNat_lt; omega) (by have := other.toNat_lt; omega) same.1
  have low : byte.toNat % 16 = other.toNat % 16 :=
    digit (Nat.mod_lt _ (by decide)) (Nat.mod_lt _ (by decide)) same.2
  exact UInt8.toNat_inj.1 (by omega)

/-- The digits of some bytes tell them. -/
theorem flatMap_hexadecimalByte_injective :
    Function.Injective (fun content : List UInt8 => content.flatMap hexadecimalByte) := by
  intro first second same
  induction first generalizing second with
  | nil =>
    cases second with
    | nil => rfl
    | cons other others => cases same
  | cons byte rest ih =>
    cases second with
    | nil => cases same
    | cons other others =>
      obtain ⟨heads, tails⟩ := List.append_inj same rfl
      rw [hexadecimalByte_injective heads, ih tails]

/-- The digest as text tells the digest. -/
theorem hexadecimalDigest_eq_iff {first second : List UInt8} :
    hexadecimalDigest first = hexadecimalDigest second ↔ digest first = digest second := by
  rw [hexadecimalDigest, hexadecimalDigest, String.ofList_inj]
  exact flatMap_hexadecimalByte_injective.eq_iff

end Sha256

namespace Version

/-- There is no list of tokens exactly if some version has no token. -/
theorem mapM_token_eq_none_iff {versions : List Version} :
    versions.mapM token? = none ↔ ∃ version ∈ versions, version.token? = none := by
  induction versions with
  | nil => simp
  | cons head rest ih =>
    rw [List.mapM_cons]
    cases here : head.token? with
    | none => simp [here]
    | some token =>
      cases there : rest.mapM token? with
      | none => simpa [here, there] using ih
      | some tokens => simpa [here, there] using ih

/-- A combination lacks a token exactly if one of its parts does. -/
theorem isVersioned_combine_eq_false_iff {versions : List Version} :
    (combine versions).isVersioned = false ↔
      ∃ version ∈ versions, version.isVersioned = false := by
  simp [isVersioned, combine, mapM_token_eq_none_iff]

/-- Versions with the same tokens combine to the same version. -/
theorem isSame_combine {versions others : List Version}
    (same : List.Forall₂ (fun left right => left.isSame right = true) versions others) :
    (combine versions).isSame (combine others) = true := by
  have tokens : ∃ tokens, versions.mapM token? = some tokens ∧
      others.mapM token? = some tokens := by
    induction same with
    | nil => exact ⟨[], rfl, rfl⟩
    | cons here _ ih =>
      obtain ⟨token, left, right⟩ := isSame_iff.1 here
      obtain ⟨tokens, first, second⟩ := ih
      exact ⟨token :: tokens, by simp [left, first], by simp [right, second]⟩
  obtain ⟨tokens, first, second⟩ := tokens
  exact isSame_iff.2 ⟨combinedToken tokens, by simp [combine, first], by simp [combine, second]⟩

/-- Versions of lists of bytes are the same only for the same lists, if the digest tells the two
messages apart. -/
theorem isSame_fingerprintFrames_iff {parts pieces : List (List UInt8)}
    (fits : ∀ part ∈ parts ++ pieces, part.length < UInt64.size)
    (apart : Sha256.digest (framed parts) = Sha256.digest (framed pieces) →
      framed parts = framed pieces) :
    (fingerprintFrames parts).isSame (fingerprintFrames pieces) = true ↔ parts = pieces := by
  obtain ⟨fitting, short⟩ := List.forall_mem_append.1 fits
  constructor
  · intro same
    have texts : Sha256.hexadecimalDigest (framed parts) =
        Sha256.hexadecimalDigest (framed pieces) :=
      Option.some.inj (congrArg token? (eq_of_isSame same))
    exact framed_inj fitting short (apart (Sha256.hexadecimalDigest_eq_iff.1 texts))
  · rintro rfl
    rw [isSame_self]
    rfl

/-- A combination has a token exactly if all of its parts have one, and it is the same as another
one exactly if the parts are, one by one. Digested lists of bytes have the same version exactly if
they are the same, as long as each length fits in eight bytes and the two messages do not collide
under SHA-256. -/
theorem combined_lossless (versions others : List Version) (parts pieces : List (List UInt8)) :
    ((combine versions).isVersioned = false ↔
      ∃ version ∈ versions, version.isVersioned = false) ∧
    ((combine versions).isSame (combine others) = true ↔
      List.Forall₂ (fun left right => left.isSame right = true) versions others) ∧
    ((∀ part ∈ parts ++ pieces, part.length < UInt64.size) →
      (Sha256.digest (framed parts) = Sha256.digest (framed pieces) →
        framed parts = framed pieces) →
      ((fingerprintFrames parts).isSame (fingerprintFrames pieces) = true ↔ parts = pieces)) :=
  ⟨isVersioned_combine_eq_false_iff, ⟨isSame_of_combine, isSame_combine⟩,
    isSame_fingerprintFrames_iff⟩

/-- Tokens with colons, digits and parentheses, and parts whose borders differ. The digests of the
two messages are different, so they do not collide. -/
theorem combined_lossless_nested :
    let nested := combine [ofToken "1:a", ofToken ")"]
    let first : List (List UInt8) := [[97, 98], [99]]
    let second : List (List UInt8) := [[97], [98, 99]]
    (∀ part ∈ first ++ second, part.length < UInt64.size) ∧
    Sha256.digest (framed first) ≠ Sha256.digest (framed second) ∧
    (combine [nested, ofToken "b"]).isSame (combine [nested, ofToken "c"]) = false ∧
    (fingerprintFrames first).isSame (fingerprintFrames second) = false := by
  intro nested first second
  have fits : ∀ part ∈ first ++ second, part.length < UInt64.size := by decide
  have digests : Sha256.digest (framed first) ≠ Sha256.digest (framed second) := by
    decide +kernel
  obtain ⟨-, combined, frames⟩ := combined_lossless [nested, ofToken "b"] [nested, ofToken "c"]
    first second
  refine ⟨fits, digests, ?_, ?_⟩
  · rw [Bool.eq_false_iff]
    intro same
    have pairs := combined.1 same
    simp [ofToken, isSame] at pairs
  · rw [Bool.eq_false_iff]
    intro same
    exact absurd ((frames fits (fun same => (digests same).elim)).1 same) (by decide)

end Version

end JsEmitter
