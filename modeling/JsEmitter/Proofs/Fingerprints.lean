import JsEmitter.Proofs.VersionParts

/-!
# Fingerprints

The version of a list of texts, or of lists of bytes, digests every one of them after its length in
bytes, so the message tells them apart. Versions of two lists are then the same only for the same
texts or bytes, if the digest tells the two messages apart.
-/
namespace JsEmitter.Version

/-- A number that fits in eight bytes is found again in them. -/
theorem lengthBytes_inj {first second : Nat} (fits : first < UInt64.size)
    (small : second < UInt64.size) (same : lengthBytes first = lengthBytes second) :
    first = second := by
  have bytes : ∀ position < 8,
      (first >>> (8 * position)) % 2 ^ 8 = (second >>> (8 * position)) % 2 ^ 8 := by
    intro position inside
    have byte := List.map_inj_left.1 same position (List.mem_range.2 inside)
    exact ((UInt8.ofNat_eq_iff_mod_eq_toNat _ _).1 byte).trans UInt8.toNat_ofNat'
  refine Nat.eq_of_testBit_eq (fun bit => ?_)
  by_cases inside : bit < 64
  · have byte := congrArg (fun number => number.testBit (bit % 8)) (bytes (bit / 8) (by omega))
    simp only [Nat.testBit_mod_two_pow, Nat.testBit_shiftRight, Nat.div_add_mod,
      Nat.mod_lt bit (by decide : 8 > 0), decide_true, Bool.true_and] at byte
    exact byte
  · have low : UInt64.size ≤ 2 ^ bit :=
      Nat.pow_le_pow_right (by decide : 0 < 2) (Nat.le_of_not_lt inside)
    rw [Nat.testBit_lt_two_pow (by omega), Nat.testBit_lt_two_pow (by omega)]

/-- The length of a text is written with eight bytes. -/
theorem length_lengthBytes (number : Nat) : (lengthBytes number).length = 8 := by
  simp [lengthBytes]

/-- The bytes of an array as a list, however the list is built. -/
theorem toList_eq_data (bytes : ByteArray) : bytes.toList = bytes.data.toList := by
  have built : ∀ position taken, ByteArray.toList.loop bytes position taken =
      taken.reverse ++ bytes.data.toList.drop position := by
    intro position taken
    fun_induction ByteArray.toList.loop bytes position taken with
    | case1 position taken inside ih =>
      rw [ih, List.drop_eq_getElem_cons (i := position) (by simpa using inside)]
      simp [ByteArray.get!, getElem!_pos bytes.data position inside]
    | case2 position taken past =>
      rw [List.drop_eq_nil_of_le (by simpa using past), List.append_nil]
  exact built 0 []

/-- A text has as many bytes as its size says. -/
theorem length_toUTF8 (text : String) : text.toUTF8.toList.length = text.utf8ByteSize := by
  rw [toList_eq_data, Array.length_toList]
  rfl

/-- Texts with the same bytes are equal. -/
theorem toUTF8_inj {first second : String} (same : first.toUTF8.toList = second.toUTF8.toList) :
    first = second := by
  rw [toList_eq_data, toList_eq_data] at same
  exact String.toByteArray_inj.1 (ByteArray.ext (Array.toList_inj.1 same))

/-- Bytes after their number are found again in front of other bytes. -/
theorem framed_append_inj {first second rest other : List UInt8}
    (fits : first.length < UInt64.size) (small : second.length < UInt64.size)
    (same : lengthBytes first.length ++ first ++ rest =
      lengthBytes second.length ++ second ++ other) :
    first = second ∧ rest = other := by
  rw [List.append_assoc, List.append_assoc] at same
  obtain ⟨lengths, bodies⟩ := List.append_inj same (by simp only [length_lengthBytes])
  exact List.append_inj bodies (lengthBytes_inj fits small lengths)

/-- The message of some lists of bytes tells them, if the length of each fits in eight bytes. -/
theorem framed_inj {first second : List (List UInt8)}
    (fits : ∀ part ∈ first, part.length < UInt64.size)
    (small : ∀ part ∈ second, part.length < UInt64.size)
    (same : framed first = framed second) : first = second := by
  have filled : ∀ (part : List UInt8) (rest : List (List UInt8)), framed (part :: rest) ≠ [] := by
    intro part rest empty
    simpa [framed, lengthBytes] using congrArg List.length empty
  induction first generalizing second with
  | nil =>
    cases second with
    | nil => rfl
    | cons other others => exact (filled other others same.symm).elim
  | cons head rest ih =>
    cases second with
    | nil => exact (filled head rest same).elim
    | cons other others =>
      obtain ⟨headFits, restFits⟩ := List.forall_mem_cons.1 fits
      obtain ⟨otherFits, othersFit⟩ := List.forall_mem_cons.1 small
      obtain ⟨rfl, rests⟩ := framed_append_inj headFits otherFits same
      rw [ih restFits othersFit rests]

/-- The message of some texts tells them, if the length of each fits in eight bytes. -/
theorem partBytes_inj {first second : List String}
    (fits : ∀ part ∈ first, part.utf8ByteSize < UInt64.size)
    (small : ∀ part ∈ second, part.utf8ByteSize < UInt64.size)
    (same : partBytes first = partBytes second) : first = second := by
  have sized : ∀ {parts : List String}, (∀ part ∈ parts, part.utf8ByteSize < UInt64.size) →
      ∀ bytes ∈ parts.map (fun part => part.toUTF8.toList), bytes.length < UInt64.size := by
    intro parts fits bytes found
    obtain ⟨part, there, rfl⟩ := List.mem_map.1 found
    rw [length_toUTF8]
    exact fits part there
  have bytes := framed_inj (sized fits) (sized small) same
  exact List.map_injective_iff.2 (fun _ _ => toUTF8_inj) bytes

/-- Whether the digest tells two lists of texts apart, none of them too long for its length to fit
in eight bytes. -/
structure Distinguished (first second : List String) : Prop where
  fits : ∀ part ∈ first ++ second, part.utf8ByteSize < UInt64.size
  digests : Sha256.hexadecimalDigest (partBytes first) =
    Sha256.hexadecimalDigest (partBytes second) → partBytes first = partBytes second

/-- Versions of lists that the digest tells apart are the same only for the same list. -/
theorem Distinguished.parts_eq {first second : List String} (apart : Distinguished first second)
    (same : (fingerprintParts first).isSame (fingerprintParts second) = true) :
    first = second := by
  have tokens : (fingerprintParts first).token? = (fingerprintParts second).token? :=
    congrArg token? (eq_of_isSame same)
  have messages := apart.digests (Option.some.inj tokens)
  exact partBytes_inj (fun part found => apart.fits part (List.mem_append_left _ found))
    (fun part found => apart.fits part (List.mem_append_right _ found)) messages

/-- Versions of lists that the digest tells apart are the same exactly for the same list. -/
theorem Distinguished.isSame_iff {first second : List String}
    (apart : Distinguished first second) :
    (fingerprintParts first).isSame (fingerprintParts second) = true ↔ first = second :=
  ⟨apart.parts_eq, fun same => isSame_of_eq (congrArg fingerprintParts same) rfl⟩

/-- The same texts have the same version. -/
theorem Distinguished.of_eq {parts : List String}
    (fits : ∀ part ∈ parts, part.utf8ByteSize < UInt64.size) : Distinguished parts parts :=
  ⟨fun part found => fits part ((List.mem_append.1 found).elim id id), fun _ => rfl⟩

end JsEmitter.Version
