import JsEmitter.Config
import JsEmitter.Proofs.Comments
import Mathlib.Data.List.TakeWhile

/-!
# Answers to headers

The check of a header reads it character by character and never looks back. Its answers are those of
a grammar: a header is accepted if it is a concatenation of blanks and comments, and otherwise the
error tells what stands behind the longest beginning that is one. `Config.checkHeader_answers` is
the main statement.
-/
namespace JsEmitter.Config

open Text (CommentRules)

/-- The comments of a header: every white space of Unicode is blank, and a line comment goes up to a
line feed. -/
def headerRules : CommentRules where
  isBlank := Text.isBlank
  endsLine char := char = '\n'
  slash_solid := by decide

/-- Whether a line is the first one of a text, without its ending: a line feed with or without a
carriage return before it, or the end of the text. -/
inductive FirstLine (line : List Char) : List Char → Prop
  | whole (inside : '\n' ∉ line) : FirstLine line line
  | lineFeed {rest : List Char} (inside : '\n' ∉ line) (plain : line.getLast? ≠ some '\r') :
    FirstLine line (line ++ '\n' :: rest)
  | carriageReturn {rest : List Char} (inside : '\n' ∉ line) :
    FirstLine line (line ++ '\r' :: '\n' :: rest)

/-- The answer to a header, by what is left of it behind all blanks and comments. -/
inductive HeaderAnswer (header : List Char) : Except ConfigError Unit → Prop
  | accepted (all : headerRules.Trivia header) : HeaderAnswer header (.ok ())
  | openLine {text : List Char} (left : headerRules.Leaves header ('/' :: '/' :: text))
    (endless : '\n' ∉ text) : HeaderAnswer header (.error .missingHeaderNewline)
  | openBlock {text : List Char} (left : headerRules.Leaves header ('/' :: '*' :: text))
    (endless : ¬['*', '/'] <:+: text) : HeaderAnswer header (.error .unterminatedHeaderComment)
  | other {rest line : List Char} (left : headerRules.Leaves header rest) (some : rest ≠ [])
    (noLine : ¬['/', '/'] <+: rest) (noBlock : ¬['/', '*'] <+: rest)
    (first : FirstLine line rest) :
    HeaderAnswer header (.error (.invalidHeader (String.ofList line)))

variable {text rest line : List Char}

/-! ## The first line -/

/-- Every text has a first line. -/
theorem exists_firstLine (chars : List Char) : ∃ line, FirstLine line chars := by
  by_cases ends : '\n' ∈ chars
  · obtain ⟨line, rest, rfl, inside⟩ := List.eq_append_cons_of_mem ends
    by_cases returns : line.getLast? = some '\r'
    · obtain ⟨front, rfl⟩ := List.getLast?_eq_some_iff.1 returns
      rw [List.append_assoc]
      exact ⟨front, .carriageReturn (fun found => inside (by simp [found]))⟩
    · exact ⟨line, .lineFeed inside returns⟩
  · exact ⟨chars, .whole ends⟩

/-- The characters before the first line feed are the line. -/
theorem takeWhile_line (inside : '\n' ∉ line) (rest : List Char) :
    (line ++ '\n' :: rest).takeWhile (· ≠ '\n') = line := by
  have all : ∀ char ∈ line, decide (char ≠ '\n') = true :=
    fun char found => decide_eq_true (ne_of_mem_of_not_mem found inside)
  rw [List.takeWhile_append_of_pos all]
  simp

/-- The first line that is read off a text is its first line. -/
theorem FirstLine.eq (first : FirstLine line text) : firstLine text = line := by
  cases first with
  | whole inside =>
    have cut : text.takeWhile (· ≠ '\n') = text :=
      List.takeWhile_eq_self_iff.2
        (fun char found => decide_eq_true (ne_of_mem_of_not_mem found inside))
    simp only [firstLine, cut]
    simp
  | lineFeed inside plain =>
    simp only [firstLine, takeWhile_line inside _]
    simp [plain]
  | @carriageReturn rest inside =>
    have longer : '\n' ∉ line ++ ['\r'] := by simp [inside]
    have cut : (line ++ '\r' :: '\n' :: rest).takeWhile (· ≠ '\n') = line ++ ['\r'] := by
      simpa using takeWhile_line longer rest
    simp only [firstLine, cut]
    simp

/-! ## Reading parts -/

/-- A line comment is read up to its line feed, or to the end of the header. -/
theorem checkHeaderFrom_inLine (inside : '\n' ∉ text) (rest : List Char) :
    checkHeaderFrom .inLineComment (text ++ rest) = checkHeaderFrom .inLineComment rest := by
  induction text with
  | nil => rfl
  | cons char text ih =>
    obtain ⟨other, inside⟩ := not_or.1 (List.mem_cons.not.1 inside)
    simp [checkHeaderFrom, Ne.symm other, ih inside]

/-- In a block comment, what has no end of the comment is read without leaving it. Behind an
asterisk this is so for a text that does not begin with a slash. -/
theorem checkHeaderFrom_inBlock (inside : ¬['*', '/'] <:+: text) (rest : List Char) :
    (∃ state ∈ [HeaderState.inBlockComment, .afterStar],
      checkHeaderFrom .inBlockComment (text ++ rest) = checkHeaderFrom state rest) ∧
    (text.head? ≠ some '/' → ∃ state ∈ [HeaderState.inBlockComment, .afterStar],
      checkHeaderFrom .afterStar (text ++ rest) = checkHeaderFrom state rest) := by
  induction text with
  | nil => exact ⟨⟨_, by simp, rfl⟩, fun _ => ⟨_, by simp, rfl⟩⟩
  | cons char text ih =>
    rw [List.infix_cons_iff, not_or] at inside
    obtain ⟨within, behind⟩ := ih inside.2
    have starred (star : char = '*') : text.head? ≠ some '/' := by
      rintro slash
      obtain ⟨tail, rfl⟩ := List.head?_eq_some_iff.1 slash
      exact inside.1 (by simp [star])
    simp only [List.cons_append, checkHeaderFrom, List.head?_cons, ne_eq, Option.some.injEq]
    by_cases star : char = '*'
    · simpa [star] using behind (starred star)
    · refine ⟨by simpa [star] using within, fun solid => ?_⟩
      simpa [star, solid] using within

/-- The check of a header reads over a blank or a comment. -/
theorem checkHeaderFrom_part {part : List Char} (here : headerRules.Part part) :
    checkHeaderFrom .betweenComments (part ++ rest) = checkHeaderFrom .betweenComments rest := by
  cases here with
  | @blank char blank =>
    change Text.isBlank char = true at blank
    simp [checkHeaderFrom, blank]
  | @line text last inside ends =>
    obtain rfl : last = '\n' := of_decide_eq_true ends
    have clear : '\n' ∉ text := fun found => by simpa [headerRules] using inside _ found
    change checkHeaderFrom .inLineComment ((text ++ ['\n']) ++ rest) = _
    rw [List.append_assoc, checkHeaderFrom_inLine clear]
    rfl
  | @block text inside =>
    change checkHeaderFrom .inBlockComment ((text ++ ['*', '/']) ++ rest) = _
    obtain ⟨⟨state, among, read⟩, -⟩ := checkHeaderFrom_inBlock inside ('*' :: '/' :: rest)
    rw [List.append_assoc]
    refine read.trans ?_
    simp only [List.mem_cons, List.not_mem_nil, or_false] at among
    rcases among with rfl | rfl <;> rfl

/-- The check of a header reads over blanks and comments. -/
theorem checkHeaderFrom_trivia {lead : List Char} (trivia : headerRules.Trivia lead) :
    checkHeaderFrom .betweenComments (lead ++ rest) = checkHeaderFrom .betweenComments rest := by
  induction trivia with
  | nil => rfl
  | append here _ ih => rw [List.append_assoc, checkHeaderFrom_part here, ih]

/-- The answer to a header is the answer to what is left behind all blanks and comments. -/
theorem checkHeader_leaves {header : String} (left : headerRules.Leaves header.toList rest) :
    checkHeader header = checkHeaderFrom .betweenComments rest := by
  obtain ⟨lead, same, longest⟩ := left
  rw [checkHeader, ← same, checkHeaderFrom_trivia longest.trivia]

/-- A line comment without a line feed is not read to its end. -/
theorem checkHeaderFrom_openLine (endless : '\n' ∉ text) :
    checkHeaderFrom .betweenComments ('/' :: '/' :: text) = .error .missingHeaderNewline := by
  have read := checkHeaderFrom_inLine endless []
  rw [List.append_nil] at read
  exact read

/-- A block comment without an end is not read to its end. -/
theorem checkHeaderFrom_openBlock (endless : ¬['*', '/'] <:+: text) :
    checkHeaderFrom .betweenComments ('/' :: '*' :: text) =
      .error .unterminatedHeaderComment := by
  obtain ⟨⟨state, among, read⟩, -⟩ := checkHeaderFrom_inBlock endless []
  rw [List.append_nil] at read
  refine Eq.trans read ?_
  simp only [List.mem_cons, List.not_mem_nil, or_false] at among
  rcases among with rfl | rfl <;> rfl

/-- What begins neither with a blank nor with a comment, open or not, is no header. -/
theorem checkHeaderFrom_other (stops : headerRules.Stops rest) (some : rest ≠ [])
    (noLine : ¬['/', '/'] <+: rest) (noBlock : ¬['/', '*'] <+: rest) :
    checkHeaderFrom .betweenComments rest = .error (otherText rest) := by
  match rest with
  | [] => exact absurd rfl some
  | char :: rest =>
    have solid : Text.isBlank char = false :=
      Bool.eq_false_iff.2 (fun blank => stops [char] rest (.blank blank) rfl)
    by_cases slash : char = '/'
    · subst slash
      cases rest with
      | nil => rfl
      | cons next rest =>
        have single : next ≠ '/' := by
          rintro rfl
          exact noLine (by simp)
        have plain : next ≠ '*' := by
          rintro rfl
          exact noBlock (by simp)
        simp [checkHeaderFrom, solid, single, plain]
    · simp [checkHeaderFrom, solid, slash]

/-! ## Answers -/

/-- The answer that the grammar gives is the one that the check gives. -/
theorem HeaderAnswer.eq {header : String} {answer : Except ConfigError Unit}
    (given : HeaderAnswer header.toList answer) : checkHeader header = answer := by
  cases given with
  | accepted all => exact checkHeader_leaves (CommentRules.leaves_nil_iff.2 all)
  | openLine left endless => rw [checkHeader_leaves left, checkHeaderFrom_openLine endless]
  | openBlock left endless => rw [checkHeader_leaves left, checkHeaderFrom_openBlock endless]
  | other left some noLine noBlock first =>
    obtain ⟨-, -, -, stops⟩ := CommentRules.leaves_iff.1 left
    rw [checkHeader_leaves left, checkHeaderFrom_other stops some noLine noBlock, otherText,
      first.eq]

/-- The grammar gives every header an answer. -/
theorem exists_headerAnswer (header : List Char) : ∃ answer, HeaderAnswer header answer := by
  obtain ⟨rest, left⟩ := headerRules.exists_leaves header
  obtain ⟨-, -, -, stops⟩ := CommentRules.leaves_iff.1 left
  by_cases none : rest = []
  · subst none
    exact ⟨_, .accepted (CommentRules.leaves_nil_iff.1 left)⟩
  by_cases line : ['/', '/'] <+: rest
  · obtain ⟨text, rfl⟩ := line
    have endless : '\n' ∉ text := fun found => by
      simpa [headerRules] using CommentRules.stops_line_iff.1 stops _ found
    exact ⟨_, .openLine left endless⟩
  by_cases block : ['/', '*'] <+: rest
  · obtain ⟨text, rfl⟩ := block
    exact ⟨_, .openBlock left (CommentRules.stops_block_iff.1 stops)⟩
  obtain ⟨first, here⟩ := exists_firstLine rest
  exact ⟨_, .other left none line block here⟩

/-- The check of a header gives one of the answers that its characters allow. -/
theorem headerAnswer_checkHeader (header : String) :
    HeaderAnswer header.toList (checkHeader header) := by
  obtain ⟨answer, given⟩ := exists_headerAnswer header.toList
  rw [given.eq]
  exact given

/-- A configuration is accepted exactly if its header and its path pattern are. -/
theorem validate_eq_ok_iff {config : Config} : config.validate = .ok () ↔
    checkHeader config.header = .ok () ∧ checkPattern config.modulePathPattern = .ok () := by
  unfold validate
  cases checkHeader config.header with
  | error error => simp [bind, Except.bind]
  | ok accepted => simp [bind, Except.bind]

/-- A header is accepted exactly if it is a concatenation of blanks and comments. Otherwise the
error is about what stands behind the longest beginning that is one: a line comment without a line
feed, a block comment without an end, or other text, of which the error has the first line. -/
theorem checkHeader_answers (header : String) (answer : Except ConfigError Unit) :
    checkHeader header = answer ↔ HeaderAnswer header.toList answer := by
  refine ⟨?_, HeaderAnswer.eq⟩
  rintro rfl
  exact headerAnswer_checkHeader header

/-- The slash that is part of the opening does not end a block comment. -/
example : checkHeader "// a\n/*/" = .error .unterminatedHeaderComment := by decide +kernel

end JsEmitter.Config
