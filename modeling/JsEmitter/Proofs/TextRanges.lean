import JsEmitter.Proofs.NumberRanges

/-!
# Numbers of a text

Every value that is read from a text has its numbers in range: the lexer makes no other tokens, and
what is read of the arrays and objects that are still open is in range too.
-/
namespace JsEmitter.Json

/-- The value of a number text is in range. -/
theorem NumberText.inRange_json? {number : NumberText} {json : Json}
    (found : number.json? = some json) : json.inRange = true := by
  have decimal {result : Json} (read : number.double?.map Json.double = some result) :
      result.inRange = true := by
    obtain ⟨double, here, rfl⟩ := Option.map_eq_some_iff.1 read
    rw [inRange_double]
    exact Double.isFinite_of_ofDecimal? here
  have least : Int64.minValue.toInt = -9223372036854775808 := by decide
  have most : maxWord = 18446744073709551615 := by decide
  simp only [json?, least, most] at found
  split at found
  · exact decimal found
  · split at found
    · split at found
      · next small =>
        cases found
        simp only [Bool.and_eq_true, decide_eq_true_eq] at small
        rw [inRange_int]
        omega
      · exact decimal found
    · split at found
      · cases found
        rw [inRange_int]
        omega
      · exact decimal found

/-- Whether the value of a token is in range. -/
def Token.inRange : Token → Bool
  | scalar value => value.inRange
  | _ => true

/-- Whether the values of all tokens are in range. -/
def TokensInRange (tokens : List Token) : Prop := ∀ token ∈ tokens, token.inRange = true

section Tokens

variable {state next : LexState} {char : Char} {token : Token} {tokens reversed : List Token}

/-- The token of a word is in range. -/
theorem inRange_wordToken? {letters : String} (found : wordToken? letters = some token) :
    token.inRange = true := by
  unfold wordToken? at found
  split at found <;> cases found <;> rfl

/-- The token of a number is in range. -/
theorem inRange_numberToken? {chars : List Char} (found : numberToken? chars = some token) :
    token.inRange = true := by
  obtain ⟨number, -, rfl⟩ := Option.map_eq_some_iff.1 found
  rw [Token.inRange]
  cases read : number.json? with
  | none => rfl
  | some json => exact NumberText.inRange_json? read

/-- Tokens that are read between other ones are in range. -/
theorem tokensInRange_lexBetween (found : lexBetween char = some (next, tokens)) :
    TokensInRange tokens := by
  unfold lexBetween at found
  split at found
  case h_8 =>
    split at found
    · cases found
      nofun
    · split at found
      · cases found
        nofun
      · split at found <;> cases found
        nofun
  all_goals
    cases found
    simp [TokensInRange, Token.inRange]

/-- A token and those that come with the next character. -/
theorem tokensInRange_after {first? : Option Token}
    (first : ∀ token, first? = some token → token.inRange = true)
    (found : (do
      let token ← first?
      let (next, tokens) ← lexBetween char
      some (next, token :: tokens)) = some (next, tokens)) : TokensInRange tokens := by
  simp only [Option.bind_eq_bind, Option.bind_eq_some_iff] at found
  obtain ⟨token, here, ⟨_, others⟩, rest, same⟩ := found
  cases same
  exact List.forall_mem_cons.2 ⟨first token here, tokensInRange_lexBetween rest⟩

/-- Tokens that one step of the lexer reads are in range. -/
theorem tokensInRange_lexStep (found : lexStep state char = some (next, tokens)) :
    TokensInRange tokens := by
  cases state with
  | between => exact tokensInRange_lexBetween found
  | word letters =>
    simp only [lexStep] at found
    split at found
    · cases found
      nofun
    · exact tokensInRange_after (fun _ => inRange_wordToken?) found
  | number chars =>
    simp only [lexStep] at found
    split at found
    · cases found
      nofun
    · exact tokensInRange_after (fun _ => inRange_numberToken?) found
  | string part =>
    simp only [lexStep] at found
    split at found
    · cases found
      have plain : part.token.inRange = true := by
        unfold StringPart.token
        split <;> rfl
      simpa [TokensInRange] using plain
    · split at found
      · cases found
        nofun
      · split at found <;> cases found
        nofun
  | escape part =>
    simp only [lexStep] at found
    split at found
    · cases found
      nofun
    · obtain ⟨_, _, same⟩ := Option.map_eq_some_iff.1 found
      cases same
      nofun
  | unit part value remaining =>
    simp only [lexStep, Option.bind_eq_bind, Option.bind_eq_some_iff] at found
    obtain ⟨digit, -, found⟩ := found
    split at found <;> cases found <;> nofun

/-- Tokens that the end of a text completes are in range. -/
theorem tokensInRange_lexEnd (found : lexEnd state = some tokens) : TokensInRange tokens := by
  cases state with
  | between =>
    cases found
    nofun
  | word letters =>
    obtain ⟨token, here, rfl⟩ := Option.map_eq_some_iff.1 found
    simpa [TokensInRange] using inRange_wordToken? here
  | number chars =>
    obtain ⟨token, here, rfl⟩ := Option.map_eq_some_iff.1 found
    simpa [TokensInRange] using inRange_numberToken? here
  | _ => cases found

/-- Tokens in range stay so in reverse order, before others in range. -/
theorem TokensInRange.append_reverse (first : TokensInRange tokens)
    (second : TokensInRange reversed) : TokensInRange (tokens.reverse ++ reversed) := by
  intro token among
  rcases List.mem_append.1 among with own | other
  · exact first token (List.mem_reverse.1 own)
  · exact second token other

/-- Tokens that are read from some state on are in range. -/
theorem tokensInRange_lexFrom {chars : List Char} (before : TokensInRange reversed)
    (found : lexFrom state reversed chars = some tokens) : TokensInRange tokens := by
  induction chars generalizing state reversed with
  | nil =>
    obtain ⟨last, here, rfl⟩ := Option.map_eq_some_iff.1 found
    exact (tokensInRange_lexEnd here).append_reverse before
  | cons char rest ih =>
    simp only [lexFrom] at found
    split at found
    · next next read step =>
      exact ih ((tokensInRange_lexStep step).append_reverse before) found
    · cases found

/-- The tokens of a text are in range. -/
theorem tokensInRange_tokens? {text : String} (found : tokens? text = some tokens) :
    TokensInRange tokens := by
  obtain ⟨reversed, here, rfl⟩ := Option.map_eq_some_iff.1 found
  intro token among
  exact tokensInRange_lexFrom (List.forall_mem_nil _) here token (List.mem_reverse.1 among)

end Tokens

/-- Whether what has been read of an array or object is in range. -/
def Frame.inRange : Frame → Bool
  | array reversed => reversed.all Json.inRange
  | object reversed | keyed reversed _ => reversed.all (fun member => member.2.inRange)

/-- Whether everything that has been read is in range. -/
structure ReadState.InRange (state : ReadState) : Prop where
  frames : ∀ frame ∈ state.frames, frame.inRange = true
  result : ∀ result, state.expected = .nothing result → result.inRange = true

section Reading

variable {state next : ReadState} {frames : List Frame} {value : Json} {token : Token}
  {limit : Nat}

/-- A completed value in range leaves frames in range. -/
theorem ReadState.inRange_complete (before : ∀ frame ∈ frames, frame.inRange = true)
    (inRange : value.inRange = true) (found : complete frames value = some next) :
    next.InRange := by
  unfold complete at found
  split at found
  · cases found
    refine ⟨nofun, fun result same => ?_⟩
    cases same
    exact inRange
  · cases found
    obtain ⟨first, others⟩ := List.forall_mem_cons.1 before
    rw [Frame.inRange, List.all_eq_true] at first
    exact ⟨List.forall_mem_cons.2 ⟨by simpa [Frame.inRange, inRange] using first, others⟩, nofun⟩
  · cases found
    obtain ⟨first, others⟩ := List.forall_mem_cons.1 before
    rw [Frame.inRange, List.all_eq_true] at first
    exact ⟨List.forall_mem_cons.2 ⟨by simpa [Frame.inRange, inRange] using first, others⟩, nofun⟩
  · cases found

/-- A token in range starts a value in range. -/
theorem ReadState.inRange_startValue (before : ∀ frame ∈ frames, frame.inRange = true)
    (inRange : token.inRange = true) (found : startValue frames token = some next) :
    next.InRange := by
  unfold startValue at found
  split at found
  · exact inRange_complete before inRange found
  · next content? =>
    refine inRange_complete before ?_ found
    cases content? <;> rfl
  · cases found
    exact ⟨by simpa [Frame.inRange] using before, nofun⟩
  · cases found
    exact ⟨by simpa [Frame.inRange] using before, nofun⟩
  · cases found

/-- Collected members in range give an object in range. -/
theorem inRange_ofReversed {reversed : List (Option String × Json)}
    (inRange : ∀ member ∈ reversed, member.2.inRange = true) :
    (ofReversed reversed).inRange = true := by
  unfold ofReversed
  split
  · next members found =>
    have each : ∀ member ∈ members, member.2.inRange = true := by
      induction reversed generalizing members with
      | nil =>
        cases found
        nofun
      | cons head rest ih =>
        simp only [List.mapM_cons, Option.bind_eq_bind, Option.bind_eq_some_iff, Option.pure_def,
          Option.some.injEq, Option.map_eq_some_iff] at found
        obtain ⟨_, ⟨key, -, rfl⟩, others, here, rfl⟩ := found
        obtain ⟨first, inRange⟩ := List.forall_mem_cons.1 inRange
        exact List.forall_mem_cons.2 ⟨first, ih inRange others here⟩
    exact inRange_obj.2 (fun member among => each member (List.mem_reverse.1 among))
  · rfl

/-- Closing a frame leaves frames in range. -/
theorem ReadState.inRange_close (before : ∀ frame ∈ frames, frame.inRange = true)
    (found : close limit frames token = some next) : next.InRange := by
  have leaves {rest : List Frame} {value : Json} (others : ∀ frame ∈ rest, frame.inRange = true)
      (inRange : value.inRange = true) (left : leave limit rest value = some next) :
      next.InRange := by
    refine inRange_complete others ?_ left
    split
    · exact inRange
    · rfl
  unfold close at found
  split at found
  · obtain ⟨first, others⟩ := List.forall_mem_cons.1 before
    refine leaves others (inRange_arr.2 ?_) found
    simpa [Frame.inRange] using first
  · obtain ⟨first, others⟩ := List.forall_mem_cons.1 before
    refine leaves others (inRange_ofReversed ?_) found
    simpa [Frame.inRange] using first
  · cases found

/-- Reading a key leaves frames in range. -/
theorem ReadState.inRange_takeKey (before : ∀ frame ∈ frames, frame.inRange = true)
    (found : takeKey frames token = some next) : next.InRange := by
  unfold takeKey at found
  split at found
  · cases found
    exact ⟨by simpa [Frame.inRange] using before, nofun⟩
  · cases found

/-- A step of the reader keeps its state in range. -/
theorem ReadState.InRange.step (inRange : state.InRange) (token_inRange : token.inRange = true)
    (found : state.step limit token = some next) : next.InRange := by
  have before := inRange.frames
  unfold ReadState.step at found
  split at found
  · exact inRange_startValue before token_inRange found
  · split at found
    · exact inRange_close before found
    · exact inRange_startValue before token_inRange found
  · exact inRange_takeKey before found
  · split at found
    · exact inRange_close before found
    · exact inRange_takeKey before found
  · split at found
    · cases found
      exact ⟨before, nofun⟩
    · cases found
  · split at found
    · cases found
      exact ⟨before, nofun⟩
    · cases found
      exact ⟨before, nofun⟩
    · exact inRange_close before found
  · cases found

/-- The values of all texts are in range. -/
theorem inRange_of_read? {text : String} {json : Json} (found : read? limit text = some json) :
    json.inRange = true := by
  simp only [read?, ofTokens?, Option.bind_eq_bind, Option.bind_eq_some_iff] at found
  obtain ⟨tokens, lexed, last, ran, found⟩ := found
  have run {tokens : List Token} {state : ReadState} (inRange : state.InRange)
      (good : TokensInRange tokens) (ran : tokens.foldlM (ReadState.step limit) state = some last) :
      last.InRange := by
    induction tokens generalizing state with
    | nil =>
      cases ran
      exact inRange
    | cons token rest ih =>
      simp only [List.foldlM_cons, Option.bind_eq_bind, Option.bind_eq_some_iff] at ran
      obtain ⟨next, step, ran⟩ := ran
      obtain ⟨first, good⟩ := List.forall_mem_cons.1 good
      exact ih (inRange.step first step) good ran
  split at found
  · next result same =>
    cases found
    have start : ReadState.InRange ⟨[], .value⟩ := ⟨List.forall_mem_nil _, nofun⟩
    exact (run start (tokensInRange_tokens? lexed) ran).result json same
  · cases found

end Reading

end JsEmitter.Json
