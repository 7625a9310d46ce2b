import JsEmitter.Proofs.FreeNames
import JsEmitter.Proofs.VersionParts

/-!
# Encoded names

Where the escape of a character ends is known only if all escapes have the same length, which holds
for code points of at most four hexadecimal digits. `encode_faithful` says which texts are told
apart by their encodings, and `ClassName.Delimited.append_inj` that a class and its member are,
unless the class name has an end that looks like the separator between them. A number that avoids a
clash is never part of a name: `avoidClash_injective`.
-/
namespace JsEmitter

/-- The number that a hexadecimal digit stands for. -/
def digitValue (digit : Char) : Nat :=
  if digit.isDigit then digit.toNat - '0'.toNat else digit.toNat - 'a'.toNat + 10

/-- The number that hexadecimal digits write. -/
def hexadecimal (digits : List Char) : Nat :=
  digits.foldl (fun number digit => 16 * number + digitValue digit) 0

/-- A hexadecimal digit has the value that it was written for. -/
theorem digitValue_digitChar : ∀ number < 16, digitValue (Nat.digitChar number) = number := by
  decide

/-- A number is read back from its hexadecimal digits. -/
theorem hexadecimal_toDigits (number : Nat) : hexadecimal (Nat.toDigits 16 number) = number := by
  induction number using Nat.strongRecOn with
  | ind number ih =>
    by_cases small : number < 16
    · rw [Nat.toDigits_of_lt_base small]
      simp [hexadecimal, digitValue_digitChar number small]
    · have rest : number / 16 < number := Nat.div_lt_self (by omega) (by decide)
      have front := ih _ rest
      unfold hexadecimal at front
      rw [Nat.toDigits_of_base_le (by decide) (Nat.le_of_not_lt small), hexadecimal,
        List.foldl_append, front]
      simp only [List.foldl_cons, List.foldl_nil]
      rw [digitValue_digitChar _ (Nat.mod_lt _ (by decide)), Nat.div_add_mod]

/-- The digits of a code point tell the character. -/
theorem hexadecimal_codePointDigits (char : Char) :
    hexadecimal (codePointDigits char) = char.toNat := by
  have zeros : ∀ count : Nat, (List.replicate count '0').foldl
      (fun number digit => 16 * number + digitValue digit) 0 = 0 := by
    intro count
    induction count with
    | zero => rfl
    | succ count ih => simpa [List.replicate_succ, digitValue] using ih
  unfold codePointDigits hexadecimal
  rw [List.foldl_append, zeros]
  exact hexadecimal_toDigits char.toNat

/-- A code point below the limit has four digits. -/
theorem codePointDigits_length {char : Char} (short : char.toNat < 0x10000) :
    (codePointDigits char).length = 4 := by
  have few : (Nat.toDigits 16 char.toNat).length ≤ 4 :=
    (Nat.length_toDigits_le_iff (by decide) (by decide)).2 short
  simp only [codePointDigits, List.length_append, List.length_replicate]
  omega

/-- A code point has at least four digits. -/
theorem four_le_codePointDigits_length (char : Char) : 4 ≤ (codePointDigits char).length := by
  simp only [codePointDigits, List.length_append, List.length_replicate]
  omega

/-- The digits of a code point are encoded as they are. -/
theorem codePointDigits_alphanumeric (char : Char) :
    ∀ digit ∈ codePointDigits char, isAsciiAlphanumeric digit = true := by
  have small : ∀ number < 16, isAsciiAlphanumeric (Nat.digitChar number) = true := by decide
  have digits : ∀ number : Nat, ∀ digit ∈ Nat.toDigits 16 number,
      isAsciiAlphanumeric digit = true := by
    intro number
    induction number using Nat.strongRecOn with
    | ind number ih =>
      intro digit found
      by_cases single : number < 16
      · rw [Nat.toDigits_of_lt_base single] at found
        rw [List.mem_singleton.1 found]
        exact small number single
      · rw [Nat.toDigits_of_base_le (by decide) (Nat.le_of_not_lt single)] at found
        rcases List.mem_append.1 found with front | last
        · exact ih _ (Nat.div_lt_self (by omega) (by decide)) digit front
        · rw [List.mem_singleton.1 last]
          exact small _ (Nat.mod_lt _ (by decide))
  intro digit found
  rcases List.mem_append.1 found with zero | rest
  · rw [List.eq_of_mem_replicate zero]
    rfl
  · exact digits _ digit rest

/-! ## Encodings of characters -/

/-- Every character has an encoding that is not empty. -/
theorem encodeChar_ne_nil (char : Char) : encodeChar char ≠ [] := by
  unfold encodeChar
  split_ifs <;> simp

/-- Encodings consist of ASCII letters, digits, underscores and dollars. -/
theorem encodeChar_plain (char : Char) : ∀ written ∈ encodeChar char,
    isAsciiAlphanumeric written = true ∨ written = '_' ∨ written = '$' := by
  unfold encodeChar
  split_ifs with alphanumeric
  · simp [alphanumeric]
  · simp
  · simp
  · intro written found
    rcases List.mem_cons.1 found with rfl | found
    · simp
    · rcases List.mem_cons.1 found with rfl | digit
      · exact .inl rfl
      · exact .inl (codePointDigits_alphanumeric char written digit)

/-- ASCII letters and digits are encoded as they are. -/
theorem encodeChar_of_alphanumeric {char : Char} (alphanumeric : isAsciiAlphanumeric char = true) :
    encodeChar char = [char] := by
  simp only [encodeChar, alphanumeric, if_true]

/-- Only letters and digits have encodings that begin with a letter or a digit. -/
theorem eq_of_encodeChar_head {char digit : Char} {rest other : List Char}
    (alphanumeric : isAsciiAlphanumeric digit = true)
    (same : encodeChar char ++ rest = digit :: other) : char = digit ∧ rest = other := by
  unfold encodeChar at same
  split_ifs at same
  · simpa using same
  all_goals
    obtain ⟨rfl, -⟩ := List.cons.inj same
    exact absurd alphanumeric (by decide)

/-- The encoding of a character is the beginning of another one only if both are escapes, and the
longer one has more digits than those of four. -/
theorem encodeChar_eq_append {char long : Char} {digits : List Char}
    (extended : encodeChar long = encodeChar char ++ digits) :
    long = char ∧ digits = [] ∨
      0x10000 ≤ long.toNat ∧ digits ≠ [] ∧
        ∀ digit ∈ digits, isAsciiAlphanumeric digit = true := by
  by_cases alphanumeric : isAsciiAlphanumeric char = true
  · have ends : encodeChar long ++ [] = char :: digits := by
      simpa [encodeChar_of_alphanumeric alphanumeric] using extended
    obtain ⟨same, rest⟩ := eq_of_encodeChar_head alphanumeric ends
    exact .inl ⟨same, rest.symm⟩
  by_cases longPlain : isAsciiAlphanumeric long = true
  · have own := encodeChar_of_alphanumeric longPlain
    obtain ⟨same, rest⟩ := eq_of_encodeChar_head longPlain (own.symm.trans extended).symm
    exact .inl ⟨same.symm, rest⟩
  unfold encodeChar at extended
  simp only [alphanumeric, longPlain, if_false, Bool.false_eq_true] at extended
  split_ifs at extended with longDot dot line longLine dot line dot line
  all_goals simp only [List.cons_append, List.nil_append, List.cons.injEq, true_and,
    Char.reduceEq, false_and] at extended
  · exact .inl ⟨longDot.trans dot.symm, extended.symm⟩
  · exact .inl ⟨longLine.trans line.symm, extended.symm⟩
  · by_cases none : digits = []
    · rw [none, List.append_nil] at extended
      have numbers := congrArg hexadecimal extended
      rw [hexadecimal_codePointDigits, hexadecimal_codePointDigits] at numbers
      exact .inl ⟨Char.toNat_inj.1 numbers, none⟩
    · refine .inr ⟨Nat.le_of_not_lt (fun short => none ?_), none, fun digit found =>
        codePointDigits_alphanumeric long digit (by simp [extended, found])⟩
      -- the shorter escape has four digits already
      have sizes := congrArg List.length extended
      rw [codePointDigits_length short, List.length_append] at sizes
      have least := four_le_codePointDigits_length char
      exact List.length_eq_zero_iff.1 (by omega)

/-! ## Encodings of texts -/

/-- Letters and digits are encoded as they are. -/
theorem flatMap_encodeChar_eq {digits : List Char}
    (alphanumeric : ∀ digit ∈ digits, isAsciiAlphanumeric digit = true) :
    digits.flatMap encodeChar = digits := by
  rw [← List.flatMap_singleton' digits, List.flatMap_assoc]
  refine List.flatMap_congr (fun digit found => ?_)
  simpa using encodeChar_of_alphanumeric (alphanumeric digit found)

/-- A text whose encoding begins with letters and digits begins with them. -/
theorem exists_of_flatMap_encodeChar {digits more : List Char}
    (alphanumeric : ∀ digit ∈ digits, isAsciiAlphanumeric digit = true) {text : List Char}
    (same : text.flatMap encodeChar = digits ++ more) :
    ∃ rest, text = digits ++ rest ∧ rest.flatMap encodeChar = more := by
  induction digits generalizing text with
  | nil => exact ⟨text, rfl, same⟩
  | cons digit digits ih =>
    cases text with
    | nil => cases same
    | cons head tail =>
      rw [List.flatMap_cons, List.cons_append] at same
      obtain ⟨rfl, others⟩ := eq_of_encodeChar_head (alphanumeric _ List.mem_cons_self) same
      obtain ⟨rest, rfl, ends⟩ :=
        ih (fun other found => alphanumeric other (List.mem_cons_of_mem _ found)) others
      exact ⟨rest, rfl, ends⟩

/-- Whether two texts part at an escape: the second one has a character there whose escape is that
of the character in the first one, together with the digits that follow it there. -/
def PartAtEscape (first second : List Char) : Prop :=
  ∃ before char digits rest long after,
    first = before ++ char :: (digits ++ rest) ∧ second = before ++ long :: after ∧
    digits ≠ [] ∧ encodeChar long = encodeChar char ++ digits ∧
    rest.flatMap encodeChar = after.flatMap encodeChar

namespace PartAtEscape

variable {first second : List Char}

/-- Texts that part at an escape still do so behind a common character. -/
theorem cons (parted : PartAtEscape first second) (head : Char) :
    PartAtEscape (head :: first) (head :: second) := by
  obtain ⟨before, char, digits, rest, long, after, rfl, rfl, follows⟩ := parted
  exact ⟨head :: before, char, digits, rest, long, after, rfl, rfl, follows⟩

/-- The character of the longer escape has a code point of more than four digits. -/
theorem exists_long (parted : PartAtEscape first second) :
    ∃ char ∈ second, 0x10000 ≤ char.toNat := by
  obtain ⟨before, char, digits, rest, long, after, -, rfl, some, extended, -⟩ := parted
  rcases encodeChar_eq_append extended with ⟨-, none⟩ | ⟨large, -⟩
  · exact absurd none some
  · exact ⟨long, by simp, large⟩

/-- Texts that part at an escape have the same encoding. -/
theorem encode_eq (parted : PartAtEscape first second) :
    first.flatMap encodeChar = second.flatMap encodeChar := by
  obtain ⟨before, char, digits, rest, long, after, rfl, rfl, -, extended, rests⟩ := parted
  rcases encodeChar_eq_append extended with ⟨-, rfl⟩ | ⟨-, -, digits⟩
  · simp [extended, rests]
  · simp [extended, rests, flatMap_encodeChar_eq digits]

end PartAtEscape

/-- Two texts whose first characters differ have the same encoding only if they part there. -/
theorem PartAtEscape.of_append {head other : Char} {tail others middle : List Char}
    (extended : encodeChar other = encodeChar head ++ middle) (differ : other ≠ head)
    (rests : tail.flatMap encodeChar = middle ++ others.flatMap encodeChar) :
    PartAtEscape (head :: tail) (other :: others) := by
  rcases encodeChar_eq_append extended with ⟨same, -⟩ | ⟨-, some, alphanumeric⟩
  · exact absurd same differ
  · obtain ⟨rest, rfl, ends⟩ := exists_of_flatMap_encodeChar alphanumeric rests
    exact ⟨[], head, middle, rest, other, others, rfl, rfl, some, extended, ends⟩

/-- Texts with the same encoding are the same or part at an escape. -/
theorem eq_or_partAtEscape {first second : List Char}
    (same : first.flatMap encodeChar = second.flatMap encodeChar) :
    first = second ∨ PartAtEscape first second ∨ PartAtEscape second first := by
  induction first generalizing second with
  | nil =>
    cases second with
    | nil => exact .inl rfl
    | cons other others => simp [encodeChar_ne_nil] at same
  | cons head tail ih =>
    cases second with
    | nil => simp [encodeChar_ne_nil] at same
    | cons other others =>
      rw [List.flatMap_cons, List.flatMap_cons] at same
      by_cases heads : head = other
      · subst heads
        rcases ih (List.append_cancel_left same) with rfl | parted | parted
        · exact .inl rfl
        · exact .inr (.inl (parted.cons head))
        · exact .inr (.inr (parted.cons head))
      · rcases List.append_eq_append_iff.1 same with ⟨middle, extended, rests⟩ |
          ⟨middle, extended, rests⟩
        · exact .inr (.inl (.of_append extended (Ne.symm heads) rests))
        · exact .inr (.inr (.of_append extended heads rests))

/-- Whether the escape of every character of a text has four digits. -/
def Decodable (text : String) : Prop := ∀ char ∈ text.toList, char.toNat < 0x10000

instance (text : String) : Decidable (Decodable text) :=
  List.decidableBAll (fun char : Char => char.toNat < 0x10000) text.toList

/-- A text with an escape that is longer than another one is not decodable. -/
theorem PartAtEscape.not_decodable {first second : String}
    (parted : PartAtEscape first.toList second.toList) : ¬Decodable second := fun readable =>
  let ⟨char, found, large⟩ := parted.exists_long
  Nat.not_lt_of_le large (readable char found)

/-- Two texts have the same encoding exactly if they are the same or part at an escape. -/
theorem encode_eq_iff {first second : String} : encode first = encode second ↔
    first = second ∨ PartAtEscape first.toList second.toList ∨
      PartAtEscape second.toList first.toList := by
  rw [encode, encode, String.ofList_inj, ← String.toList_inj]
  constructor
  · exact eq_or_partAtEscape
  · rintro (same | parted | parted)
    · rw [same]
    · exact parted.encode_eq
    · exact parted.encode_eq.symm

/-- Texts with short escapes are told apart by their encodings. -/
theorem encode_injective {first second : String} (readable : Decodable first)
    (legible : Decodable second) (same : encode first = encode second) : first = second := by
  rcases encode_eq_iff.1 same with same | parted | parted
  · exact same
  · exact absurd legible parted.not_decodable
  · exact absurd readable parted.not_decodable

/-- Encodings consist of ASCII letters, digits, underscores and dollars. They tell two texts apart
unless an escape in one of them ends where digits follow, and goes on with these in the other; so
they tell all texts apart that have no code points above those of four digits. -/
theorem encode_faithful (first second : String) :
    (∀ char ∈ (encode first).toList,
      isAsciiAlphanumeric char = true ∨ char = '_' ∨ char = '$') ∧
    (encode first = encode second ↔ first = second ∨
      PartAtEscape first.toList second.toList ∨ PartAtEscape second.toList first.toList) ∧
    (Decodable first → Decodable second → encode first = encode second → first = second) := by
  refine ⟨fun char found => ?_, encode_eq_iff, encode_injective⟩
  rw [encode, String.toList_ofList] at found
  obtain ⟨origin, -, written⟩ := List.mem_flatMap.1 found
  exact encodeChar_plain origin char written

/-- A dot and an underscore at the same place are told apart, also after an escape. -/
theorem encode_faithful_separators :
    Decodable "<a>.b" ∧ Decodable "<a>_b" ∧ encode "<a>.b" ≠ encode "<a>_b" := by
  have readable : Decodable "<a>.b" := by decide
  have legible : Decodable "<a>_b" := by decide
  refine ⟨readable, legible, fun same => ?_⟩
  exact absurd ((encode_faithful _ _).2.2 readable legible same) (by decide)

/-- An escape of four digits before a digit reads like an escape of five. -/
theorem encode_collides_long :
    let first := String.ofList [Char.ofNat 0x1F60, '0']
    let second := String.ofList [Char.ofNat 0x1F600]
    first ≠ second ∧ encode first = "$u1f600" ∧ encode second = "$u1f600" := by
  decide +kernel

/-! ## Classes with members -/

/-- The encoding of a concatenation is that of its parts in turn. -/
theorem encode_append (first second : String) :
    encode (first ++ second) = encode first ++ encode second := by
  simp [encode]

/-- A member is named like the encoding of its class and itself with two dots between them. -/
theorem memberName_eq (mark : String) (owner : ClassName) (member : String) :
    Naming.memberName mark owner member =
      mark ++ encode (owner.text ++ (".." ++ member)) := by
  have dots : encode ".." = "__" := by decide
  rw [Naming.memberName, Name.encoded, encode_append, encode_append, dots]
  simp [String.append_assoc]

/-- Whether two dots after a class name are the first two dots in a row. -/
def ClassName.Delimited (name : ClassName) : Prop :=
  ¬ ['.', '.'] <:+: name.text.toList ++ ['.']

instance (name : ClassName) : Decidable name.Delimited :=
  inferInstanceAs (Decidable (¬ ['.', '.'] <:+: name.text.toList ++ ['.']))

/-- The class and the member around two dots are found again. -/
theorem ClassName.Delimited.append_inj {owner other : ClassName} (delimited : owner.Delimited)
    (bounded : other.Delimited) {member another : String}
    (same : owner.text ++ (".." ++ member) = other.text ++ (".." ++ another)) :
    owner = other ∧ member = another := by
  have shorter : ∀ {short long : ClassName} {middle rest tail : List Char}, long.Delimited →
      long.text.toList = short.text.toList ++ middle →
      '.' :: '.' :: rest = middle ++ ('.' :: '.' :: tail) → middle = [] := by
    intro short long middle rest tail closed text ends
    rcases middle with _ | ⟨head, _ | ⟨next, others⟩⟩
    · rfl
    · obtain rfl : '.' = head := (List.cons.inj ends).1
      exact (closed ⟨short.text.toList, [], by simp [text]⟩).elim
    · obtain rfl : '.' = head := (List.cons.inj ends).1
      obtain rfl : '.' = next := (List.cons.inj (List.cons.inj ends).2).1
      exact (closed ⟨short.text.toList, others ++ ['.'], by simp [text]⟩).elim
  have lists : owner.text.toList ++ ('.' :: '.' :: member.toList) =
      other.text.toList ++ ('.' :: '.' :: another.toList) := by
    simpa using congrArg String.toList same
  have owners : owner.text.toList = other.text.toList := by
    rcases List.append_eq_append_iff.1 lists with ⟨middle, found, ends⟩ | ⟨middle, found, ends⟩
    · rw [shorter bounded found ends] at found
      simpa using found.symm
    · rw [shorter delimited found ends] at found
      simpa using found
  rw [owners, List.append_cancel_left_eq] at lists
  obtain ⟨text⟩ := owner
  obtain ⟨text'⟩ := other
  have texts : text = text' := String.toList_inj.1 owners
  subst texts
  exact ⟨rfl, String.toList_inj.1 (by simpa using lists)⟩

/-- Whether no part of a text from a dollar on looks like the number that avoids a clash: some
character after it is not a digit. -/
def Unnumbered (text : List Char) : Prop :=
  ∀ before rest, text = before ++ '$' :: rest → ∃ char ∈ rest, char.isDigit = false

namespace Unnumbered

/-- The empty text has no number at its end. -/
theorem nil : Unnumbered [] := by
  intro before rest split
  simp at split

/-- A concatenation has no number at its end if its parts have none. -/
theorem append {left right : List Char} (first : Unnumbered left) (second : Unnumbered right) :
    Unnumbered (left ++ right) := by
  intro before rest split
  rcases List.append_eq_append_iff.1 split with ⟨middle, -, ends⟩ | ⟨middle, starts, ends⟩
  · exact second middle rest ends
  · cases middle with
    | nil => exact second [] rest ends.symm
    | cons head tail =>
      obtain ⟨rfl, rfl⟩ := List.cons.inj ends
      obtain ⟨char, found, other⟩ := first before tail starts
      exact ⟨char, List.mem_append_left _ found, other⟩

/-- A text that has its only dollar at the start and then something else than digits. -/
theorem ofMark {rest : List Char} (single : '$' ∉ rest) {char : Char} (found : char ∈ rest)
    (other : char.isDigit = false) : Unnumbered ('$' :: rest) := by
  intro before after split
  cases before with
  | nil =>
    obtain ⟨-, rfl⟩ := List.cons.inj split
    exact ⟨char, found, other⟩
  | cons head tail =>
    obtain ⟨-, rfl⟩ := List.cons.inj split
    exact (single (List.mem_append_right _ List.mem_cons_self)).elim

/-- A text without a dollar has no number at its end. -/
theorem ofNone {text : List Char} (absent : '$' ∉ text) : Unnumbered text := by
  rintro before rest rfl
  exact (absent (List.mem_append_right _ List.mem_cons_self)).elim

end Unnumbered

/-- The digits of a code point have no dollar. -/
theorem dollar_not_mem_codePointDigits (char : Char) : '$' ∉ codePointDigits char := fun found =>
  absurd (codePointDigits_alphanumeric char '$' found) (by decide)

/-- The encoding of a character has no number at its end. -/
theorem encodeChar_unnumbered (char : Char) : Unnumbered (encodeChar char) := by
  unfold encodeChar
  split_ifs with alphanumeric
  · refine .ofNone (fun found => ?_)
    rw [← List.mem_singleton.1 found] at alphanumeric
    exact absurd alphanumeric (by decide)
  · exact .ofNone (by decide)
  · exact .ofMark (by decide) List.mem_cons_self rfl
  · refine .ofMark (fun found => ?_) List.mem_cons_self rfl
    rcases List.mem_cons.1 found with equal | inDigits
    · exact absurd equal (by decide)
    · exact dollar_not_mem_codePointDigits char inDigits

/-- An encoding has no number at its end. -/
theorem encode_unnumbered (text : String) : Unnumbered (encode text).toList := by
  rw [encode, String.toList_ofList]
  induction text.toList with
  | nil => exact .nil
  | cons head rest ih => exact (encodeChar_unnumbered head).append ih

namespace Naming

/-- A numbered name is not a name without a number. -/
theorem numbered_ne {name other : String} (plain : Unnumbered name.toList) (number : Nat) :
    name ≠ numbered other number := by
  rintro rfl
  obtain ⟨char, found, other⟩ := plain _ _ (toList_numbered other number)
  rw [Nat.isDigit_of_mem_toDigits (by decide) (by decide) found] at other
  cases other

/-- Names with numbers tell the names without them. -/
theorem numbered_left_inj {name other : String} {number another : Nat}
    (same : numbered name number = numbered other another) : name = other := by
  have lists := congrArg (fun text => text.toList.reverse) same
  have digits : ∀ number : Nat, '$' ∉ (Nat.toDigits 10 number).reverse := by
    intro number found
    have digit := Nat.isDigit_of_mem_toDigits (by decide) (by decide) (List.mem_reverse.1 found)
    exact absurd digit (by decide)
  simp only [toList_numbered, List.reverse_append, List.reverse_cons, List.append_assoc,
    List.singleton_append] at lists
  obtain ⟨-, names⟩ := append_mark_inj (digits _) (digits _) lists
  exact String.toList_inj.1 (List.reverse_injective names)

/-- Names without numbers stay apart when they avoid clashes. -/
theorem avoidClash_injective (naming : Naming) {name other : String}
    (plain : Unnumbered name.toList) (bare : Unnumbered other.toList)
    (same : naming.avoidClash name = naming.avoidClash other) : name = other := by
  rcases naming.avoidClash_eq name with first | ⟨number, first⟩ <;>
    rcases naming.avoidClash_eq other with second | ⟨another, second⟩ <;>
    rw [first, second] at same
  · exact same
  · exact (numbered_ne plain another same).elim
  · exact (numbered_ne bare number same.symm).elim
  · exact numbered_left_inj same

end Naming

end JsEmitter
