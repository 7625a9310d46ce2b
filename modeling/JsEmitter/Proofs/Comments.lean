import Mathlib.Data.List.Infix

/-!
# Blanks and comments

What a reader of a text skips: blanks, line comments and block comments. Which characters are blank
and which ones end a line comment is up to the rules of the reader. No such part is the beginning of
another one, so a text has at most one way through them, and what is left behind the longest one is
known from its first characters: `CommentRules.longestTrivia_iff`.
-/
namespace JsEmitter.Text

/-- What a reader takes for a blank and for the end of a line comment. A slash is no blank, so
comments are told from blanks by their first character. -/
structure CommentRules where
  isBlank : Char → Bool
  endsLine : Char → Bool
  slash_solid : isBlank '/' = false

namespace CommentRules

/-- A blank, or a comment with both of its ends. A block comment ends where it can for the first
time. -/
inductive Part (rules : CommentRules) : List Char → Prop
  | blank {char : Char} (blank : rules.isBlank char = true) : Part rules [char]
  | line {text : List Char} {last : Char} (inside : ∀ char ∈ text, rules.endsLine char = false)
    (ends : rules.endsLine last = true) : Part rules ('/' :: '/' :: (text ++ [last]))
  | block {text : List Char} (inside : ¬['*', '/'] <:+: text) :
    Part rules ('/' :: '*' :: (text ++ ['*', '/']))

/-- A concatenation of blanks and comments. -/
inductive Trivia (rules : CommentRules) : List Char → Prop
  | nil : Trivia rules []
  | append {part rest : List Char} (first : rules.Part part) (others : Trivia rules rest) :
    Trivia rules (part ++ rest)

/-- Whether no blank and no comment is the beginning of a text. -/
def Stops (rules : CommentRules) (rest : List Char) : Prop :=
  ∀ part more, rules.Part part → rest ≠ part ++ more

/-- Whether a text is the longest beginning of another one that consists of blanks and comments. -/
structure LongestTrivia (rules : CommentRules) (lead chars : List Char) : Prop where
  trivia : rules.Trivia lead
  begins : lead <+: chars
  longest : ∀ other, rules.Trivia other → other <+: chars → other.length ≤ lead.length

/-- Whether a text is what is left of another one when all blanks and comments in front are
skipped. -/
def Leaves (rules : CommentRules) (chars rest : List Char) : Prop :=
  ∃ lead, lead ++ rest = chars ∧ rules.LongestTrivia lead chars

variable {rules : CommentRules} {part lead chars rest more : List Char}

/-! ## Where a comment ends -/

/-- A text without an end of line stops where another text has its first one, or before. -/
theorem begins_of_line {text other : List Char} {last : Char}
    (clear : ∀ char ∈ other, rules.endsLine char = false) (ends : rules.endsLine last = true)
    (same : text ++ last :: rest = other ++ more) : other <+: text := by
  rcases List.append_eq_append_iff.1 same with ⟨_ | ⟨head, tail⟩, rfl, between⟩ | ⟨tail, rfl, -⟩
  · simp
  · obtain ⟨rfl, -⟩ := List.cons.inj between
    rw [clear last (by simp)] at ends
    cases ends
  · exact List.prefix_append _ _

/-- A text without an end of a block comment stops where another text has its first one, or
before. -/
theorem begins_of_block {text other : List Char} (clear : ¬['*', '/'] <:+: other)
    (same : text ++ '*' :: '/' :: rest = other ++ '*' :: '/' :: more) : other <+: text := by
  rcases List.append_eq_append_iff.1 same with
    ⟨_ | ⟨first, _ | ⟨second, tail⟩⟩, rfl, between⟩ | ⟨tail, rfl, -⟩
  · simp
  · simp at between
  · simp only [List.cons_append, List.cons.injEq] at between
    obtain ⟨rfl, rfl, -⟩ := between
    exact absurd ⟨text, tail, by simp⟩ clear
  · exact List.prefix_append _ _

/-- Texts that begin with each other are equal. -/
theorem eq_of_begins {text other : List Char} (here : text <+: other) (there : other <+: text) :
    text = other :=
  here.eq_of_length_le there.length_le

/-- A blank character is no slash. -/
theorem ne_slash_of_blank {char : Char} (blank : rules.isBlank char = true) : char ≠ '/' := by
  rintro rfl
  rw [rules.slash_solid] at blank
  cases blank

/-- No part is the beginning of another one. -/
theorem Part.append_inj {other : List Char} (here : rules.Part part) (there : rules.Part other)
    (same : part ++ rest = other ++ more) : part = other ∧ rest = more := by
  suffices equal : part = other by
    subst equal
    exact ⟨rfl, List.append_cancel_left same⟩
  cases here with
  | @blank char blank =>
    cases there with
    | blank => rw [(List.cons.inj same).1]
    | line | block => exact absurd (List.cons.inj same).1 (ne_slash_of_blank blank)
  | @line text last inside ends =>
    cases there with
    | blank blank => exact absurd (List.cons.inj same).1.symm (ne_slash_of_blank blank)
    | @line another final clear closes =>
      simp only [List.cons_append, List.cons.injEq, true_and, List.append_assoc,
        List.nil_append] at same
      obtain rfl := eq_of_begins (begins_of_line inside closes same.symm)
        (begins_of_line clear ends same)
      rw [(List.cons.inj (List.append_cancel_left same)).1]
    | block => simp at same
  | @block text inside =>
    cases there with
    | blank blank => exact absurd (List.cons.inj same).1.symm (ne_slash_of_blank blank)
    | line => simp at same
    | @block another clear =>
      simp only [List.cons_append, List.cons.injEq, true_and, List.append_assoc,
        List.nil_append] at same
      rw [eq_of_begins (begins_of_block inside same.symm) (begins_of_block clear same)]

/-- A blank or a comment has a character. -/
theorem Part.ne_nil (here : rules.Part part) : part ≠ [] := by
  cases here <;> simp

/-- What begins neither with a blank nor with a slash begins with no part. -/
theorem stops_cons {char : Char} (solid : rules.isBlank char = false) (other : char ≠ '/') :
    rules.Stops (char :: rest) := by
  rintro part more here same
  cases here with
  | blank blank =>
    obtain ⟨rfl, -⟩ := List.cons.inj same
    rw [solid] at blank
    cases blank
  | line | block => exact other (List.cons.inj same).1

/-- No blank and no comment begins the empty text. -/
@[simp] theorem stops_nil : rules.Stops [] := by
  intro part more here same
  exact here.ne_nil (List.append_eq_nil_iff.1 same.symm).1

/-- A text with some end of line is cut at the first one. -/
theorem exists_lineEnd {text : List Char} (ends : ∃ char ∈ text, rules.endsLine char = true) :
    ∃ inner last more, text = inner ++ last :: more ∧
      (∀ char ∈ inner, rules.endsLine char = false) ∧ rules.endsLine last = true := by
  obtain ⟨last, found⟩ := Option.isSome_iff_exists.1 (List.find?_isSome.2 ends)
  obtain ⟨closes, inner, more, rfl, inside⟩ := List.find?_eq_some_iff_append.1 found
  exact ⟨inner, last, more, rfl, by simpa using inside, closes⟩

/-- A text with some end of a block comment is cut at the first one. -/
theorem exists_blockEnd {text : List Char} (ends : ['*', '/'] <:+: text) :
    ∃ inner more, text = inner ++ '*' :: '/' :: more ∧ ¬['*', '/'] <:+: inner := by
  induction text with
  | nil => simp at ends
  | cons char text ih =>
    by_cases here : ['*', '/'] <+: char :: text
    · obtain ⟨more, same⟩ := here
      exact ⟨[], more, same.symm, by simp⟩
    · obtain ⟨inner, more, rfl, inside⟩ := ih ((List.infix_cons_iff.1 ends).resolve_left here)
      refine ⟨char :: inner, more, rfl, fun found => ?_⟩
      rcases List.infix_cons_iff.1 found with ⟨tail, same⟩ | deeper
      · refine here ⟨tail ++ '*' :: '/' :: more, ?_⟩
        rw [← List.append_assoc, same]
        rfl
      · exact inside deeper

/-- The opening of a line comment begins a part exactly if an end of line follows. -/
theorem stops_line_iff {text : List Char} :
    rules.Stops ('/' :: '/' :: text) ↔ ∀ char ∈ text, rules.endsLine char = false := by
  constructor
  · intro stops char found
    refine Bool.eq_false_iff.2 (fun ends => ?_)
    obtain ⟨inner, last, more, rfl, inside, closes⟩ := exists_lineEnd ⟨char, found, ends⟩
    exact stops _ more (.line inside closes) (by simp)
  · rintro endless part more here same
    cases here with
    | blank blank => exact absurd (List.cons.inj same).1.symm (ne_slash_of_blank blank)
    | @line inner last inside ends =>
      simp only [List.cons_append, List.cons.injEq, true_and] at same
      rw [endless last (by simp [same])] at ends
      cases ends
    | block => simp at same

/-- The opening of a block comment begins a part exactly if an end of the comment follows. -/
theorem stops_block_iff {text : List Char} :
    rules.Stops ('/' :: '*' :: text) ↔ ¬['*', '/'] <:+: text := by
  constructor
  · intro stops ends
    obtain ⟨inner, more, rfl, inside⟩ := exists_blockEnd ends
    exact stops _ more (.block inside) (by simp)
  · rintro endless part more here same
    cases here with
    | blank blank => exact absurd (List.cons.inj same).1.symm (ne_slash_of_blank blank)
    | line => simp at same
    | @block inner inside =>
      simp only [List.cons_append, List.cons.injEq, true_and] at same
      exact endless ⟨inner, more, by simp [same]⟩

/-! ## Concatenations of parts -/

/-- A single blank or comment is trivia. -/
theorem Part.trivia (here : rules.Part part) : rules.Trivia part := by
  simpa using Trivia.append here .nil

/-- Trivia after trivia is trivia. -/
theorem Trivia.concat (first : rules.Trivia lead) (second : rules.Trivia rest) :
    rules.Trivia (lead ++ rest) := by
  induction first with
  | nil => exact second
  | append first _ ih =>
    rw [List.append_assoc]
    exact .append first ih

/-- What is left behind some blanks and comments of a text of blanks and comments is one, too. -/
theorem Trivia.of_append (first : rules.Trivia lead) (all : rules.Trivia (lead ++ rest)) :
    rules.Trivia rest := by
  induction first with
  | nil => exact all
  | @append part others here _ ih =>
    rw [List.append_assoc] at all
    generalize same : part ++ (others ++ rest) = whole at all
    cases all with
    | nil => exact absurd (List.append_eq_nil_iff.1 same).1 here.ne_nil
    | append there tail =>
      obtain ⟨-, rfl⟩ := here.append_inj there same
      exact ih tail

/-- A text of blanks and comments that begins with no part is empty. -/
theorem Trivia.eq_nil_of_stops (all : rules.Trivia rest) (stops : rules.Stops rest) :
    rest = [] := by
  cases all with
  | nil => rfl
  | append first _ => exact absurd rfl (stops _ _ first)

/-- Blanks and comments at the beginning of a text are as long as possible exactly if the text goes
on with something else. -/
theorem longestTrivia_iff (trivia : rules.Trivia lead) :
    rules.LongestTrivia lead (lead ++ rest) ↔ rules.Stops rest := by
  constructor
  · rintro ⟨-, -, longest⟩ part more here rfl
    have fits := longest (lead ++ part) (trivia.concat here.trivia) ⟨more, by simp⟩
    have filled := List.length_pos_iff.2 here.ne_nil
    simp only [List.length_append] at fits
    omega
  · intro stops
    refine ⟨trivia, List.prefix_append _ _, fun other skipped begins => ?_⟩
    rcases List.prefix_or_prefix_of_prefix begins (List.prefix_append lead rest) with
      shorter | ⟨further, rfl⟩
    · exact shorter.length_le
    · have beyond := trivia.of_append skipped
      have same := (List.prefix_append_right_inj lead).1 begins
      have none : rules.Stops further := by
        rintro part more here rfl
        obtain ⟨tail, rfl⟩ := same
        exact stops part (more ++ tail) here (by simp)
      simp [beyond.eq_nil_of_stops none]

/-- What is left of a text follows the longest trivia at its beginning. -/
theorem leaves_iff :
    rules.Leaves chars rest ↔ ∃ lead, lead ++ rest = chars ∧ rules.Trivia lead ∧
      rules.Stops rest := by
  refine exists_congr (fun lead => and_congr_right ?_)
  rintro rfl
  exact ⟨fun longest => ⟨longest.trivia, (longestTrivia_iff longest.trivia).1 longest⟩,
    fun ⟨trivia, stops⟩ => (longestTrivia_iff trivia).2 stops⟩

/-- Every text has something left, be it empty, when blanks and comments are skipped. -/
theorem exists_leaves (rules : CommentRules) (chars : List Char) :
    ∃ rest, rules.Leaves chars rest := by
  simp only [leaves_iff]
  induction size : chars.length using Nat.strongRecOn generalizing chars with
  | ind size ih =>
    by_cases stops : rules.Stops chars
    · exact ⟨chars, [], rfl, .nil, stops⟩
    · simp only [Stops, not_forall, not_not] at stops
      obtain ⟨part, more, here, rfl⟩ := stops
      have filled := List.length_pos_iff.2 here.ne_nil
      obtain ⟨rest, lead, rfl, trivia, stops⟩ :=
        ih more.length (by simp only [List.length_append] at size; omega) more rfl
      exact ⟨rest, part ++ lead, by simp, .append here trivia, stops⟩

/-- Blanks and comments in front of a text do not change what is left of it. -/
theorem leaves_append (trivia : rules.Trivia lead) :
    rules.Leaves (lead ++ chars) rest ↔ rules.Leaves chars rest := by
  simp only [leaves_iff]
  constructor
  · rintro ⟨whole, same, skipped, stops⟩
    rcases List.append_eq_append_iff.1 same with ⟨tail, rfl, rfl⟩ | ⟨tail, rfl, rfl⟩
    · have none : rules.Stops tail := by
        rintro part more here rfl
        exact stops part (more ++ chars) here (by simp)
      have empty := (skipped.of_append trivia).eq_nil_of_stops none
      subst empty
      exact ⟨[], by simp, .nil, by simpa using stops⟩
    · exact ⟨tail, rfl, trivia.of_append skipped, stops⟩
  · rintro ⟨inner, rfl, skipped, stops⟩
    exact ⟨lead ++ inner, by simp, trivia.concat skipped, stops⟩

/-- Nothing is left of a text exactly if it consists of blanks and comments. -/
theorem leaves_nil_iff : rules.Leaves chars [] ↔ rules.Trivia chars := by
  simp [leaves_iff]

end CommentRules

end JsEmitter.Text
