import JsEmitter.Proofs.CheckedHeaders

/-!
# Code in headers

A header stands in front of a JavaScript module, where white space and the ends of lines are those
of JavaScript. There a line comment ends at a carriage return and at the two separators of Unicode,
too, and the character called next line is no white space, so an accepted header may have code. It
has none exactly if next line stands in comments only and what follows the early end of a line
comment has none: `Config.header_carriesNoCode_iff`.
-/
namespace JsEmitter

open Text (CommentRules)

namespace Text.CommentRules

variable {rules : CommentRules} {lead chars rest : List Char}

/-- Whether every character of a text stands in a blank or in a comment: nothing is left of it, or
only a line comment that goes on up to the end. -/
def Covers (rules : CommentRules) (chars : List Char) : Prop :=
  ∃ rest, rules.Leaves chars rest ∧
    (rest = [] ∨ ∃ text, rest = '/' :: '/' :: text ∧ ∀ char ∈ text, rules.endsLine char = false)

/-- Blanks and comments in front of a text do not matter for the characters of the text. -/
theorem covers_append (trivia : rules.Trivia lead) :
    rules.Covers (lead ++ chars) ↔ rules.Covers chars :=
  exists_congr (fun _ => and_congr_left' (leaves_append trivia))

/-- All is left of a text that begins with no part. -/
theorem leaves_of_stops (stops : rules.Stops chars) : rules.Leaves chars rest ↔ rest = chars := by
  rw [leaves_iff]
  constructor
  · rintro ⟨lead, rfl, trivia, -⟩
    cases trivia with
    | nil => rfl
    | @append part others here _ => exact absurd (by simp) (stops part (others ++ rest) here)
  · rintro rfl
    exact ⟨[], rfl, .nil, stops⟩

/-- A text that begins with some other character has it outside of blanks and comments. -/
theorem not_covers_cons {char : Char} (solid : rules.isBlank char = false) (other : char ≠ '/') :
    ¬rules.Covers (char :: rest) := by
  rintro ⟨left, leaves, whole⟩
  obtain rfl := (leaves_of_stops (stops_cons solid other)).1 leaves
  rcases whole with none | ⟨text, same, -⟩
  · cases none
  · exact other (List.cons.inj same).1

end Text.CommentRules

namespace Js

/-- Whether a character ends a line in JavaScript. -/
def isLineTerminator (char : Char) : Bool :=
  char = '\n' || char = '\r' || char = '\u2028' || char = '\u2029'

/-- Whether a character is white space in JavaScript: tab, vertical tab, form feed, the zero width
no-break space, and the space separators of Unicode. -/
def isWhiteSpace (char : Char) : Bool :=
  let code := char.toNat
  code == 0x9 || code == 0xb || code == 0xc || code == 0xfeff || code == 0x20 || code == 0xa0 ||
    code == 0x1680 || (0x2000 ≤ code && code ≤ 0x200a) || code == 0x202f || code == 0x205f ||
    code == 0x3000

/-- The comments of JavaScript, where line terminators count as blanks. -/
def commentRules : CommentRules where
  isBlank char := isWhiteSpace char || isLineTerminator char
  endsLine := isLineTerminator
  slash_solid := by decide

/-- Whether a text in front of a program does not matter: every character of it stands in white
space, a line terminator or a comment, and the program is read from the place where it would be read
without the text. -/
structure CarriesNoCode (text : List Char) : Prop where
  covered : commentRules.Covers text
  kept : ∀ program rest,
    commentRules.Leaves (text ++ program) rest ↔ commentRules.Leaves program rest

/-- A text does not matter exactly if it is a concatenation of blanks and comments, with the ends of
all its comments. -/
theorem carriesNoCode_iff {text : List Char} :
    CarriesNoCode text ↔ commentRules.Trivia text := by
  constructor
  · intro none
    have empty := (none.kept [] []).2 (CommentRules.leaves_nil_iff.2 .nil)
    rw [List.append_nil] at empty
    exact CommentRules.leaves_nil_iff.1 empty
  · intro trivia
    exact ⟨⟨[], CommentRules.leaves_nil_iff.2 trivia, .inl rfl⟩,
      fun _ _ => CommentRules.leaves_append trivia⟩

/-- The character that ends a line in some texts, but neither ends a line nor is white space in
JavaScript. -/
def nextLine : Char := '\u0085'

/-- White space of Unicode is white space or a line terminator in JavaScript, but for one
character. -/
theorem isBlank_of_isBlank {char : Char} (blank : Text.isBlank char = true)
    (other : char ≠ nextLine) : commentRules.isBlank char = true := by
  have code (final : Char) : char = final ↔ char.toNat = final.toNat := Char.toNat_inj.symm
  have codes : '\n'.toNat = 0xa ∧ '\r'.toNat = 0xd ∧ '\u2028'.toNat = 0x2028 ∧
      '\u2029'.toNat = 0x2029 ∧ nextLine.toNat = 0x85 := by decide
  simp only [Text.isBlank, commentRules, isWhiteSpace, isLineTerminator, Bool.or_eq_true,
    Bool.and_eq_true, decide_eq_true_eq, beq_iff_eq, code, codes, ne_eq] at blank other ⊢
  omega

/-- Whether a line comment of a header goes on behind a character that ends it in JavaScript. -/
structure EndsEarly (text : List Char) (last : Char) : Prop where
  inside : ∀ char ∈ text, commentRules.endsLine char = false
  ends : commentRules.endsLine last = true
  other : last ≠ '\n'

end Js

namespace Config

open Js (commentRules nextLine EndsEarly CarriesNoCode)

/-- A blank or comment of a header is one in JavaScript, unless it is the character called next line
or a line comment that ends early. -/
theorem headerPart_cases {part : List Char} (here : headerRules.Part part) :
    commentRules.Part part ∨ part = [nextLine] ∨
      ∃ text last tail, part = '/' :: '/' :: (text ++ last :: (tail ++ ['\n'])) ∧
        EndsEarly text last ∧ '\n' ∉ tail := by
  cases here with
  | @blank char blank =>
    by_cases other : char = nextLine
    · exact .inr (.inl (by rw [other]))
    · exact .inl (.blank (Js.isBlank_of_isBlank blank other))
  | @line comment final inside ends =>
    obtain rfl : final = '\n' := of_decide_eq_true ends
    have clear : '\n' ∉ comment := fun found => by simpa [headerRules] using inside _ found
    by_cases early : ∃ char ∈ comment, commentRules.endsLine char = true
    · obtain ⟨text, last, tail, rfl, before, closes⟩ := CommentRules.exists_lineEnd early
      refine .inr (.inr ⟨text, last, tail, by simp, ⟨before, closes, ?_⟩, ?_⟩)
      · rintro rfl
        exact clear (by simp)
      · exact fun found => clear (by simp [found])
    · exact .inl (.line (fun char among => Bool.eq_false_iff.2
        (fun closes => early ⟨char, among, closes⟩)) (by decide))
  | block inside => exact .inl (.block inside)

/-- Whether an accepted header hides no code from its check: where both readings stand between
comments, next line does not follow, and a line comment that ends early is followed by none. -/
structure HidesNoCode (header : List Char) : Prop where
  nextLine : ∀ lead rest, header = lead ++ nextLine :: rest → headerRules.Trivia lead →
    ¬commentRules.Trivia lead
  earlyEnd : ∀ lead text last rest, header = lead ++ '/' :: '/' :: (text ++ last :: rest) →
    headerRules.Trivia lead → commentRules.Trivia lead → EndsEarly text last →
    commentRules.Trivia rest

/-- A line comment of JavaScript in front of a text of blanks and comments. -/
theorem trivia_earlyEnd {text rest : List Char} {last : Char} (early : EndsEarly text last) :
    commentRules.Trivia ('/' :: '/' :: (text ++ last :: rest)) ↔ commentRules.Trivia rest := by
  have part : commentRules.Trivia ('/' :: '/' :: (text ++ [last])) :=
    (CommentRules.Part.line early.inside early.ends).trivia
  have split : '/' :: '/' :: (text ++ last :: rest) = '/' :: '/' :: (text ++ [last]) ++ rest := by
    simp
  rw [split]
  exact ⟨part.of_append, part.concat⟩

/-- In JavaScript, no blank and no comment begins with the next-line character. -/
theorem stops_nextLine (rest : List Char) : commentRules.Stops (nextLine :: rest) :=
  CommentRules.stops_cons (by decide) (by decide)

/-- What follows a place where both readings stand between comments is blanks and comments in
JavaScript, if the header hides no code. -/
theorem HidesNoCode.trivia {header lead rest : List Char} (hides : HidesNoCode header)
    (same : header = lead ++ rest) (here : headerRules.Trivia lead)
    (there : commentRules.Trivia lead) (others : headerRules.Trivia rest) :
    commentRules.Trivia header := by
  induction others generalizing lead with
  | nil => simpa [same] using there
  | @append part rest first _ ih =>
    rcases headerPart_cases first with alike | rfl | ⟨text, last, tail, rfl, early, -⟩
    · exact ih (by simp [same]) (here.concat first.trivia) (there.concat alike.trivia)
    · exact absurd there (hides.nextLine lead rest same here)
    · have behind : header =
          lead ++ '/' :: '/' :: (text ++ last :: (tail ++ ['\n'] ++ rest)) := by simp [same]
      rw [behind]
      exact there.concat ((trivia_earlyEnd early).2
        (hides.earlyEnd lead text last _ behind here there early))

/-- An accepted header consists of blanks and comments of JavaScript exactly if it hides no code
from its check. -/
theorem trivia_iff_hidesNoCode {header : List Char} (accepted : headerRules.Trivia header) :
    commentRules.Trivia header ↔ HidesNoCode header := by
  constructor
  · intro trivia
    constructor
    · rintro lead rest rfl - there
      have none := (there.of_append trivia).eq_nil_of_stops (stops_nextLine rest)
      cases none
    · rintro lead text last rest rfl - there early
      exact (trivia_earlyEnd early).1 (there.of_append trivia)
  · exact fun hides => hides.trivia rfl .nil .nil accepted

/-- Whether a text ends its lines with line feeds only, each with or without a carriage return in
front, and has none of the other characters that end a line somewhere. -/
def plainLines : List Char → Bool
  | [] => true
  | char :: rest =>
    (char = '\r' && rest.head? = some '\n' ||
      char = '\n' || char ≠ nextLine && !Js.isLineTerminator char) && plainLines rest

/-- What is left of a text with plain ends of lines has plain ends of lines. -/
theorem plainLines_of_append (lead : List Char) {rest : List Char}
    (plain : plainLines (lead ++ rest) = true) : plainLines rest = true := by
  induction lead with
  | nil => exact plain
  | cons char lead ih =>
    rw [List.cons_append, plainLines, Bool.and_eq_true] at plain
    exact ih plain.2

/-- A header with plain lines that consists of blanks and comments does so in JavaScript. -/
theorem trivia_of_plainLines {header : List Char} (accepted : headerRules.Trivia header)
    (plain : plainLines header = true) : commentRules.Trivia header := by
  induction accepted with
  | nil => exact .nil
  | @append part rest first _ ih =>
    refine CommentRules.Trivia.concat ?_ (ih (plainLines_of_append part plain))
    rcases headerPart_cases first with alike | rfl | ⟨text, last, tail, rfl, early, inside⟩
    · exact alike.trivia
    · rw [List.singleton_append, plainLines] at plain
      simp [nextLine] at plain
    · -- Only a carriage return ends the comment early, and its line feed ends the comment.
      have behind : plainLines (last :: (tail ++ '\n' :: rest)) = true :=
        plainLines_of_append ('/' :: '/' :: text) (by simpa using plain)
      rw [plainLines, Bool.and_eq_true] at behind
      have ends : Js.isLineTerminator last = true := early.ends
      have next : tail = [] := by
        cases tail with
        | nil => rfl
        | cons char tail =>
          obtain ⟨-, rfl⟩ : last = '\r' ∧ char = '\n' := by
            simpa [ends, early.other] using behind.1
          exact absurd List.mem_cons_self inside
      subst next
      have feed : commentRules.Trivia ['\n'] := (CommentRules.Part.blank (by decide)).trivia
      exact (trivia_earlyEnd early).2 feed

/-- The header of a valid configuration consists of blanks and comments. -/
theorem trivia_of_validate {config : Config} (valid : config.validate = .ok ()) :
    headerRules.Trivia config.header.toList := by
  have answer := headerAnswer_checkHeader config.header
  rw [(validate_eq_ok_iff.1 valid).1] at answer
  cases answer with
  | accepted all => exact all

/-- The header of an accepted configuration carries no code exactly if it hides none from its check,
and none if its lines are plain. -/
theorem header_carriesNoCode_iff {config : Config} (valid : config.validate = .ok ()) :
    (CarriesNoCode config.header.toList ↔ HidesNoCode config.header.toList) ∧
      (plainLines config.header.toList = true → CarriesNoCode config.header.toList) := by
  have accepted := trivia_of_validate valid
  rw [Js.carriesNoCode_iff]
  exact ⟨trivia_iff_hidesNoCode accepted, trivia_of_plainLines accepted⟩

/-- Comments of both kinds and blanks in front of a module, with two sorts of line ends. -/
theorem header_carriesNoCode_iff_commented :
    let config : Config :=
      { standard with header := "// made // from parts\r\n/* a\n * b **/\t// c\n\u3000" }
    config.validate = .ok () ∧ plainLines config.header.toList = true ∧
      CarriesNoCode config.header.toList ∧ HidesNoCode config.header.toList := by
  intro config
  have valid : config.validate = .ok () := by decide +kernel
  have plain : plainLines config.header.toList = true := by decide +kernel
  obtain ⟨exactly, plainly⟩ := header_carriesNoCode_iff valid
  exact ⟨valid, plain, plainly plain, exactly.1 (plainly plain)⟩

/-- A statement behind a carriage return in a line comment, and a character that is no white space
in JavaScript: both headers are accepted. -/
theorem header_hides_statement :
    let behind : Config := { standard with header := "// a\rvar x = 1;\n" }
    let alone : Config := { standard with header := "\u0085" }
    behind.validate = .ok () ∧ ¬commentRules.Covers behind.header.toList ∧
      alone.validate = .ok () ∧ ¬commentRules.Covers alone.header.toList := by
  intro behind alone
  have statement : ¬commentRules.Covers "var x = 1;\n".toList :=
    CommentRules.not_covers_cons (by decide) (by decide)
  have comment : commentRules.Part ('/' :: '/' :: ([' ', 'a'] ++ ['\r'])) :=
    .line (by simp [commentRules, Js.isLineTerminator]) (by decide)
  have split : behind.header.toList =
      '/' :: '/' :: ([' ', 'a'] ++ ['\r']) ++ "var x = 1;\n".toList := by decide +kernel
  have single : alone.header.toList = [nextLine] := by decide +kernel
  refine ⟨by decide +kernel, ?_, by decide +kernel, ?_⟩
  · rw [split, CommentRules.covers_append comment.trivia]
    exact statement
  · rw [single]
    exact CommentRules.not_covers_cons (by decide) (by decide)

end Config

end JsEmitter
