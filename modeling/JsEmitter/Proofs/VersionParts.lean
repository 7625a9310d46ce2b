import JsEmitter.Proofs.Lockstep
import JsEmitter.Version

/-!
# Parts of versions

A version that combines others has the same token as another one only if its parts have the same
tokens: every part stands after its length, and a length has no colon.
-/
namespace JsEmitter

/-- The first of two texts that a mark separates is found again, if it does not hold the mark. -/
theorem append_mark_inj {mark : Char} {left right rest other : List Char} (absent : mark ∉ left)
    (missing : mark ∉ right) (same : left ++ mark :: rest = right ++ mark :: other) :
    left = right ∧ rest = other := by
  induction left generalizing right with
  | nil =>
    cases right with
    | nil => exact ⟨rfl, (List.cons.inj same).2⟩
    | cons head tail => exact (missing ((List.cons.inj same).1 ▸ List.mem_cons_self)).elim
  | cons head tail ih =>
    cases right with
    | nil => exact (absent ((List.cons.inj same).1 ▸ List.mem_cons_self)).elim
    | cons first others =>
      obtain ⟨rfl, tails⟩ := List.cons.inj same
      obtain ⟨rfl, rests⟩ := ih (fun found => absent (List.mem_cons_of_mem _ found))
        (fun found => missing (List.mem_cons_of_mem _ found)) tails
      exact ⟨rfl, rests⟩

/-- Texts of one size in front of a text are found again. -/
theorem append_sized_inj {left right : String} {rest other : List Char}
    (size : left.utf8ByteSize = right.utf8ByteSize)
    (same : left.toList ++ rest = right.toList ++ other) : left = right ∧ rest = other := by
  have longer : ∀ {short long : String} {middle : List Char},
      short.utf8ByteSize = long.utf8ByteSize → long.toList = short.toList ++ middle →
        middle = [] := by
    intro short long middle size chars
    have text : long = short ++ String.ofList middle := String.toList_inj.1 (by simp [chars])
    rw [text, String.utf8ByteSize_append] at size
    have empty : String.ofList middle = "" := String.utf8ByteSize_eq_zero_iff.1 (by omega)
    simpa using congrArg String.toList empty
  rcases List.append_eq_append_iff.1 same with ⟨middle, found, ends⟩ | ⟨middle, found, ends⟩
  · obtain rfl := longer size found
    exact ⟨String.toList_inj.1 (by simpa using found.symm), by simpa using ends⟩
  · obtain rfl := longer size.symm found
    exact ⟨String.toList_inj.1 (by simpa using found), by simpa using ends.symm⟩

namespace Version

/-- Versions with the same token are equal. -/
theorem eq_of_isSame {left right : Version} (same : left.isSame right = true) :
    left = right := by
  obtain ⟨token, first, second⟩ := isSame_iff.1 same
  exact congrArg mk (first.trans second.symm)

/-- Which of two versions comes first does not matter for their being the same. -/
theorem isSame_symm {left right : Version} (same : left.isSame right = true) :
    right.isSame left = true := by
  obtain ⟨token, first, second⟩ := isSame_iff.1 same
  exact isSame_iff.2 ⟨token, second, first⟩

/-- Equal versions are the same if there is a version at all. -/
theorem isSame_of_eq {left right : Version} (same : left = right)
    (versioned : left.isVersioned = true) : left.isSame right = true := by
  rw [← same, isSame_self, versioned]

/-- A version that has the same token as another one has a token. -/
theorem isVersioned_of_isSame {left right : Version} (same : left.isSame right = true) :
    right.isVersioned ≠ false := by
  obtain ⟨token, -, second⟩ := isSame_iff.1 same
  simp [isVersioned, second]

/-- A token after its length is found again in front of a text. -/
theorem marked_append_inj {first second : String} {rest other : List Char}
    (same : (marked first).toList ++ rest = (marked second).toList ++ other) :
    first = second ∧ rest = other := by
  have digits : ∀ number : Nat, (toString number).toList = Nat.toDigits 10 number :=
    fun number => Nat.toList_repr
  have unmarked : ∀ number : Nat, ':' ∉ Nat.toDigits 10 number := by
    intro number found
    have digit := Nat.isDigit_of_mem_toDigits (by decide) (by decide) found
    exact absurd digit (by decide)
  simp only [marked, String.toList_append, digits, List.append_assoc] at same
  obtain ⟨numbers, rests⟩ := append_mark_inj (unmarked _) (unmarked _) same
  have size : first.utf8ByteSize = second.utf8ByteSize := by
    rw [← Nat.ofDigitChars_ten_toDigits (n := first.utf8ByteSize), numbers,
      Nat.ofDigitChars_ten_toDigits]
  exact append_sized_inj size rests

/-- A marked token is never empty, since it starts with its mark. -/
theorem marked_ne_nil (token : String) : (marked token).toList ≠ [] := by
  have colon : ':' ∈ (marked token).toList := by simp [marked]
  exact List.ne_nil_of_mem colon

/-- A combined token determines the tokens it is combined from. -/
theorem combinedToken_injective : Function.Injective combinedToken := by
  have joined : ∀ first second : List String,
      first.flatMap (fun token => (marked token).toList) =
        second.flatMap (fun token => (marked token).toList) → first = second := by
    intro first
    induction first with
    | nil =>
      intro second same
      cases second with
      | nil => rfl
      | cons head rest =>
        exact (marked_ne_nil head (List.append_eq_nil_iff.1 same.symm).1).elim
    | cons head rest ih =>
      intro second same
      cases second with
      | nil =>
        exact (marked_ne_nil head (List.append_eq_nil_iff.1 same).1).elim
      | cons other others =>
        obtain ⟨rfl, rests⟩ := marked_append_inj same
        rw [ih others rests]
  intro first second same
  have chars := congrArg String.toList same
  simp only [combinedToken, String.toList_append, List.append_assoc, List.append_cancel_left_eq,
    List.append_cancel_right_eq, String.toList_join, List.flatMap_map] at chars
  exact joined first second chars

/-- The tokens of a list of versions that are all versioned. -/
theorem mapM_token {versions : List Version} {tokens : List String}
    (found : versions.mapM token? = some tokens) :
    List.Forall₂ (fun version token => version.token? = some token) versions tokens := by
  induction versions generalizing tokens with
  | nil =>
    cases found
    exact .nil
  | cons head rest ih =>
    rw [List.mapM_cons] at found
    obtain ⟨token, here, found⟩ := Option.bind_eq_some_iff.1 found
    obtain ⟨others, there, found⟩ := Option.bind_eq_some_iff.1 found
    cases found
    exact .cons here (ih there)

/-- Combined versions are the same only if their parts are. -/
theorem isSame_of_combine {first second : List Version}
    (same : (combine first).isSame (combine second) = true) :
    List.Forall₂ (fun left right => left.isSame right = true) first second := by
  obtain ⟨token, here, there⟩ := isSame_iff.1 same
  obtain ⟨tokens, found, rfl⟩ := Option.map_eq_some_iff.1 here
  obtain ⟨others, alike, joined⟩ := Option.map_eq_some_iff.1 there
  obtain rfl := combinedToken_injective joined
  exact forall₂_of_common (mapM_token found).flip (mapM_token alike).flip
    (fun token _ _ _ left right => isSame_iff.2 ⟨token, left, right⟩)

end Version

end JsEmitter
