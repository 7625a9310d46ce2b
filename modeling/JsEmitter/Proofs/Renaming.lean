import JsEmitter.Proofs.Footprints

/-!
# Renaming of tokens

The same emission takes other tokens when others have been taken before. The tokens of both runs are
then related by a shift of the new ones, and every request does the same in both: a shift is
injective, so parts of definitions are the same in one run exactly when they are in the other.
-/
namespace JsEmitter

open Js (Tree)
open Lowering (Bootstrap)

variable {α β : Type}

/-- The artifact under another token. -/
def Artifact.rename (change : Token → Token) (artifact : Artifact α) : Artifact α :=
  { artifact with token := change artifact.token }

/-- The entry with renamed tokens. -/
def CacheEntry.rename (change : Token → Token) (entry : CacheEntry α) : CacheEntry α :=
  { entry with artifact? := entry.artifact?.map (Artifact.rename change) }

/-- The parts with renamed tokens. -/
def DefinitionParts.rename (change : Token → Token) (parts : DefinitionParts) : DefinitionParts :=
  ⟨parts.ctor?.map change, parts.members.map change, parts.exported.map change⟩

/-- A token that says nothing. -/
def Token.blank (_ : Token) : Token := ⟨0⟩

/-- The slot with a blank token. -/
def OneTimeSlot.erase (slot : OneTimeSlot α) : OneTimeSlot α :=
  ⟨slot.artifact?.map (Artifact.rename Token.blank)⟩

/-- The definition with renamed tokens of its parts, and a blank one of its own. -/
def FullClassEntry.rename (change : Token → Token) (entry : FullClassEntry) : FullClassEntry :=
  { entry with
    parts := entry.parts.rename change
    artifact := entry.artifact.rename Token.blank }

namespace Cell

/-- The content of a cell with renamed tokens of parts of definitions; all other tokens are
blank. -/
def rename (change : Token → Token) : (cell : Cell) → cell.Content → cell.Content
  | keyed _ _, held => held.map (CacheEntry.rename change)
  | definition _, held => held.map (FullClassEntry.rename change)
  | shell _, kept => kept
  | slot _ _, slot? => slot?.map OneTimeSlot.erase
  | modulePart _ _, entry => entry.rename Token.blank
  | library, kept => kept.erase

/-- The content of a cell without its tokens: keys, versions, values, host names and marks of
use. -/
def erase (cell : Cell) (content : cell.Content) : cell.Content := cell.rename Token.blank content

end Cell

section Laws

variable {first second : Token → Token}

/-- Renaming the token of an entry twice is renaming it once. -/
theorem CacheEntry.rename_rename (entry : CacheEntry α) :
    (entry.rename first).rename second = entry.rename (second ∘ first) := by
  simp [rename, Option.map_map]
  rfl

/-- Renaming the tokens of parts twice is renaming them once. -/
theorem DefinitionParts.rename_rename (parts : DefinitionParts) :
    (parts.rename first).rename second = parts.rename (second ∘ first) := by
  simp [rename, Option.map_map, List.map_map]

/-- Names that have been erased are the same. -/
theorem Cell.erase_rename (cell : Cell) (content : cell.Content) :
    cell.erase (cell.rename first content) = cell.erase content := by
  cases cell with
  | keyed sort key =>
    simp only [erase, rename, Option.map_map]
    exact Option.map_congr (fun entry _ => entry.rename_rename)
  | definition key =>
    simp only [erase, rename, Option.map_map]
    exact Option.map_congr (fun entry _ => by
      simp [FullClassEntry.rename, DefinitionParts.rename_rename]
      exact ⟨rfl, rfl⟩)
  | shell key => rfl
  | slot key part =>
    simp only [erase, rename, Option.map_map]
    exact Option.map_congr (fun slot _ => by
      simp [OneTimeSlot.erase, Option.map_map]
      rfl)
  | modulePart id part => exact content.rename_rename
  | library =>
    simp only [erase, rename, OneTimeSlot.erase, Option.map_map]
    rfl

/-- Changes that agree on the tokens of a cell rename it alike. -/
theorem Cell.rename_congr {cell : Cell} {content : cell.Content}
    (agree : ∀ token ∈ cell.tokens content, first token = second token) :
    cell.rename first content = cell.rename second content := by
  cases cell with
  | keyed sort key =>
    refine Option.map_congr (fun entry found => ?_)
    have same : entry.artifact?.map (Artifact.rename first) =
        entry.artifact?.map (Artifact.rename second) :=
      Option.map_congr (fun artifact there => by
        have token := agree artifact.token (by
          rw [show content = some entry from found, Cell.tokens]
          simp [show entry.artifact? = some artifact from there])
        rw [Artifact.rename, Artifact.rename, token])
    rw [CacheEntry.rename, CacheEntry.rename, same]
  | definition key =>
    refine Option.map_congr (fun entry found => ?_)
    have among : ∀ token ∈ entry.parts.tokens, first token = second token := by
      intro token there
      exact agree token (by
        rw [show content = some entry from found]
        simpa [Cell.tokens] using there)
    have parts : entry.parts.rename first = entry.parts.rename second := by
      simp only [DefinitionParts.rename, DefinitionParts.mk.injEq]
      simp only [DefinitionParts.tokens, List.mem_append] at among
      exact ⟨Option.map_congr (fun token there => among token (.inl (.inl (by simpa using there)))),
        List.map_congr_left (fun token there => among token (.inl (.inr there))),
        List.map_congr_left (fun token there => among token (.inr there))⟩
    rw [FullClassEntry.rename, FullClassEntry.rename, parts]
  | _ => rfl

end Laws

/-- The tokens from a base on are moved. -/
def Token.shift (base gap : Nat) (token : Token) : Token :=
  if token.number < base then token else ⟨token.number + gap⟩

/-- Shifted tokens differ if the tokens do. -/
theorem Token.shift_injective (base gap : Nat) : Function.Injective (shift base gap) := by
  rintro ⟨first⟩ ⟨second⟩ same
  simp only [shift] at same
  split at same <;> split at same <;> simp only [Token.mk.injEq] at same ⊢ <;> omega

/-- Parts stay the same if no token is renamed. -/
@[simp] theorem DefinitionParts.rename_id (parts : DefinitionParts) : parts.rename id = parts := by
  simp [rename]

/-- Parts with renamed tokens differ if the parts do, for an injective renaming. -/
theorem DefinitionParts.rename_injective {change : Token → Token}
    (injective : Function.Injective change) : Function.Injective (rename change) := by
  rintro ⟨ctor?, members, exported⟩ ⟨other?, others, exports⟩ same
  simp only [rename, mk.injEq] at same ⊢
  exact ⟨Option.map_injective injective same.1, List.map_injective_iff.2 injective same.2.1,
    List.map_injective_iff.2 injective same.2.2⟩

/-- Parts that match up to a renaming are the renamed parts. -/
theorem DefinitionParts.Matches.eq_rename {change : Token → Token}
    {parts others : DefinitionParts}
    (matching : parts.Matches (fun token other => other = change token) others) :
    others = parts.rename change := by
  have each : ∀ {firsts seconds : List Token},
      List.Forall₂ (fun token other => other = change token) firsts seconds →
        seconds = firsts.map change := by
    intro firsts seconds related
    induction related with
    | nil => rfl
    | cons here _ ih => rw [here, ih, List.map_cons]
  obtain ⟨ctor, members, exported⟩ := matching
  obtain ⟨ctor?, parts, pieces⟩ := parts
  obtain ⟨other?, others, exports⟩ := others
  simp only [rename, mk.injEq]
  refine ⟨?_, each members, each exported⟩
  cases ctor with
  | none => rfl
  | some here => exact congrArg some here

/-- Supplies from which tokens are taken that a shift relates. -/
structure TokenSupply.Shifted (base gap : Nat) (first second : TokenSupply) : Prop where
  fresh : base ≤ first.next
  moved : second.next = first.next + gap

namespace TokenSupply.Shifted

variable {base gap : Nat} {first second : TokenSupply}

/-- Shifted supplies stay shifted when each gives a token. -/
theorem advance (shifted : Shifted base gap first second) :
    Shifted base gap first.advance second.advance where
  fresh := Nat.le_succ_of_le shifted.fresh
  moved := by
    have moved := shifted.moved
    simp only [TokenSupply.advance]
    omega

/-- The next tokens are related by the shift. -/
theorem shift_next (shifted : Shifted base gap first second) :
    Token.shift base gap ⟨first.next⟩ = ⟨second.next⟩ := by
  simp [Token.shift, Nat.not_lt.2 shifted.fresh, shifted.moved]

end TokenSupply.Shifted

namespace Visit

variable {base gap : Nat} {supply later : TokenSupply}

/-- Requests to entries that are the same when their tokens are renamed. -/
theorem entry_rename {change other : Token → Token} {version : Version}
    (own : Except EmitError (Tracked α)) {held kept : CacheEntry α}
    (same : held.rename change = kept.rename other)
    (shifted : supply.Shifted base gap later)
    (next : change ⟨supply.next⟩ = other ⟨later.next⟩) :
    (entry version own held supply).outcome.map (Artifact.rename change) =
        (entry version own kept later).outcome.map (Artifact.rename other) ∧
      (entry version own held supply).content.rename change =
        (entry version own kept later).content.rename other ∧
      (entry version own held supply).supply.Shifted base gap
        (entry version own kept later).supply ∧
      (entry version own kept later).counted = (entry version own held supply).counted := by
  obtain ⟨current, artifact?, used⟩ := held
  obtain ⟨stored, kept?, marked⟩ := kept
  simp only [CacheEntry.rename, CacheEntry.mk.injEq] at same
  obtain ⟨rfl, artifacts, rfl⟩ := same
  have valid : ((⟨current, artifact?, used⟩ : CacheEntry α).valid? version).map
      (Artifact.rename change) =
      ((⟨current, kept?, used⟩ : CacheEntry α).valid? version).map (Artifact.rename other) := by
    unfold CacheEntry.valid?
    split
    · exact artifacts
    · rfl
  unfold entry
  cases first : (⟨current, artifact?, used⟩ : CacheEntry α).valid? version with
  | some artifact =>
    obtain ⟨found, second, alike⟩ := Option.map_eq_some_iff.1 (by rw [← valid, first]; rfl)
    simp only [second, reuse, CacheEntry.rename, artifacts]
    exact ⟨congrArg Except.ok alike.symm, trivial, shifted, trivial⟩
  | none =>
    have second : (⟨current, kept?, used⟩ : CacheEntry α).valid? version = none := by
      rw [first] at valid
      exact Option.map_eq_none_iff.1 valid.symm
    rw [second]
    cases own with
    | ok tracked =>
      have made : (supply.make tracked).rename change = (later.make tracked).rename other := by
        simp only [Artifact.rename, TokenSupply.make, next]
      simp only [compute, CacheEntry.rename, Option.map_some, made]
      exact ⟨congrArg Except.ok made, trivial, shifted.advance, trivial⟩
    | error error =>
      simp only [CacheEntry.rename, artifacts]
      exact ⟨rfl, trivial, shifted, trivial⟩

/-- Whether requests to a cell in two runs do the same but for their tokens. -/
structure Alike (base gap : Nat) (cell : Cell) (related : α → α → Prop)
    (first second : Visit cell.Content EmitError α) : Prop where
  outcome : (∃ error other, first.outcome = .error error ∧ second.outcome = .error other) ∨
    ∃ value other, first.outcome = .ok value ∧ second.outcome = .ok other ∧ related value other
  content : cell.rename (Token.shift base gap) first.content = cell.rename id second.content
  supply : first.supply.Shifted base gap second.supply
  counted : second.counted = first.counted

/-- Outcomes that are the same when something is read from them. -/
theorem outcome_of_map {change other : α → β} {first second : Except EmitError α}
    (same : first.map change = second.map other) :
    (∃ error cause, first = .error error ∧ second = .error cause) ∨
      ∃ value result, first = .ok value ∧ second = .ok result ∧ change value = other result := by
  cases first <;> cases second
  · exact .inl ⟨_, _, rfl, rfl⟩
  · cases same
  · cases same
  · exact .inr ⟨_, _, rfl, rfl, Except.ok.inj same⟩

/-- Visits to shifted entries of a keyed cache are alike. -/
theorem keyed_alike {sort : KeyedSort} {key : sort.Key} {version : Version}
    (own : Except EmitError (Tracked sort.Value)) {held kept : (Cell.keyed sort key).Content}
    (same : (Cell.keyed sort key).rename (Token.shift base gap) held =
      (Cell.keyed sort key).rename id kept) (shifted : supply.Shifted base gap later) :
    Alike base gap (.keyed sort key)
      (Artifact.Matches (fun token other => other = token.shift base gap))
      (Visit.keyed version own held supply) (Visit.keyed version own kept later) := by
  have entries : (held.getD .fresh).rename (Token.shift base gap) =
      (kept.getD .fresh).rename id := by
    cases held <;> cases kept
    · rfl
    · cases same
    · cases same
    · exact Option.some.inj same
  obtain ⟨outcome, content, supplies, counted⟩ :=
    entry_rename own entries shifted shifted.shift_next
  refine ⟨(outcome_of_map outcome).imp_right ?_, congrArg some content, supplies, counted⟩
  rintro ⟨value, other, first, second, alike⟩
  have parts := Artifact.mk.inj alike
  exact ⟨value, other, first, second, Tracked.ext' parts.2.1 parts.2.2, parts.1.symm⟩

/-- Visits to shifted parts of a module are alike. -/
theorem modulePart_alike {id : ModuleId} {part : ModulePart} {version : Version}
    (own : Except EmitError (Tracked (List Tree))) {held kept : CacheEntry (List Tree)}
    (same : held.rename Token.blank = kept.rename Token.blank)
    (shifted : supply.Shifted base gap later) :
    Alike base gap (.modulePart id part) (fun value other => value.tracked = other.tracked)
      (Visit.entry version own held supply) (Visit.entry version own kept later) := by
  obtain ⟨outcome, content, supplies, counted⟩ := entry_rename own same shifted rfl
  refine ⟨(outcome_of_map outcome).imp_right ?_, content, supplies, counted⟩
  rintro ⟨value, other, first, second, alike⟩
  have parts := Artifact.mk.inj alike
  exact ⟨value, other, first, second, Tracked.ext' parts.2.1 parts.2.2⟩

/-- Visits to slots that hold the same end alike. -/
theorem slot_alike {held kept : OneTimeSlot α} (tracked : Tracked α)
    (same : held.erase = kept.erase) (shifted : supply.Shifted base gap later) :
    (∃ value other, (slot tracked held supply : Visit _ EmitError _).outcome = .ok value ∧
      (slot tracked kept later : Visit _ EmitError _).outcome = .ok other ∧
      value.tracked = other.tracked) ∧
    (slot tracked held supply : Visit _ EmitError _).content.erase =
      (slot tracked kept later : Visit _ EmitError _).content.erase ∧
    (slot tracked held supply : Visit _ EmitError _).supply.Shifted base gap
      (slot tracked kept later : Visit _ EmitError _).supply := by
  obtain ⟨held?⟩ := held
  obtain ⟨kept?⟩ := kept
  cases held? <;> cases kept?
  · exact ⟨⟨_, _, rfl, rfl, rfl⟩, rfl, shifted.advance⟩
  · cases same
  · cases same
  · have parts := Artifact.mk.inj (Option.some.inj (OneTimeSlot.mk.inj same))
    exact ⟨⟨_, _, rfl, rfl, Tracked.ext' parts.2.1 parts.2.2⟩, same, shifted⟩

/-- Visits to shifted parts of a class shell are alike. -/
theorem shellSlot_alike {key : ClassKey} {part : ShellPart} (tracked : Tracked (List Tree))
    {held kept : (Cell.slot key part).Content}
    (same : (Cell.slot key part).rename (Token.shift base gap) held =
      (Cell.slot key part).rename id kept) (shifted : supply.Shifted base gap later) :
    Alike base gap (.slot key part) (fun value other => value.tracked = other.tracked)
      (Visit.shellSlot tracked held supply) (Visit.shellSlot tracked kept later) := by
  have slots : (held.getD .empty).erase = (kept.getD .empty).erase := by
    cases held <;> cases kept
    · rfl
    · cases same
    · cases same
    · exact Option.some.inj same
  obtain ⟨outcome, content, supplies⟩ := slot_alike tracked slots shifted
  refine ⟨.inr outcome, ?_, supplies, ?_⟩
  · cases held <;> cases kept
    · rfl
    · cases same
    · cases same
    · exact congrArg some content
  · simp [shellSlot]

/-- Visits to libraries that hold the same are alike. -/
theorem library_alike (tracked : Tracked Bootstrap) {held kept : OneTimeSlot Bootstrap}
    (same : held.erase = kept.erase) (shifted : supply.Shifted base gap later) :
    Alike base gap .library (fun value other => value.tracked = other.tracked)
      (Visit.slot tracked held supply) (Visit.slot tracked kept later) := by
  obtain ⟨outcome, content, supplies⟩ := slot_alike tracked same shifted
  exact ⟨.inr outcome, content, supplies, by simp⟩

/-- Visits to shifted class definitions are alike if the parts match. -/
theorem definition_alike {key : ClassKey} {version : Version} {parts others : DefinitionParts}
    (tracked : Tracked (List Tree)) {held kept : Option FullClassEntry}
    (matching : parts.Matches (fun token other => other = token.shift base gap) others)
    (same : (Cell.definition key).rename (Token.shift base gap) held =
      (Cell.definition key).rename id kept)
    (shifted : supply.Shifted base gap later) :
    Alike base gap (.definition key) (fun value other => value.tracked = other.tracked)
      (Visit.definition version parts tracked held supply)
      (Visit.definition version others tracked kept later) := by
  obtain rfl := matching.eq_rename
  have valid : (held.filter (fun entry => entry.isValid version parts)).map
      (FullClassEntry.rename (Token.shift base gap)) =
      (kept.filter (fun entry => entry.isValid version (parts.rename (Token.shift base gap)))).map
        (FullClassEntry.rename id) := by
    cases held <;> cases kept
    · rfl
    · cases same
    · cases same
    · next entry other =>
      have alike : entry.rename (Token.shift base gap) = other.rename id := Option.some.inj same
      have fields := FullClassEntry.mk.inj alike
      have renamed : other.parts = entry.parts.rename (Token.shift base gap) := by
        simpa using fields.2.1.symm
      have fits : other.isValid version (parts.rename (Token.shift base gap)) =
          entry.isValid version parts := by
        have current : entry.version = other.version := fields.1
        rw [FullClassEntry.isValid, FullClassEntry.isValid, renamed, current]
        simp only [(DefinitionParts.rename_injective (Token.shift_injective base gap)).eq_iff]
      simp only [Option.filter, fits]
      split
      · exact congrArg some alike
      · rfl
  unfold Visit.definition
  cases first : held.filter (fun entry => entry.isValid version parts) with
  | some entry =>
    obtain ⟨other, second, alike⟩ := Option.map_eq_some_iff.1 (by rw [← valid, first]; rfl)
    obtain ⟨current, pieces, artifact, used⟩ := FullClassEntry.mk.inj alike
    have made := Artifact.mk.inj artifact
    rw [second]
    refine ⟨.inr ⟨entry.artifact, other.artifact, rfl, rfl, ?_⟩, ?_, shifted, rfl⟩
    · exact Tracked.ext' made.2.1.symm made.2.2.symm
    · exact congrArg some (FullClassEntry.mk.injEq .. ▸
        ⟨current.symm, pieces.symm, artifact.symm, rfl⟩)
  | none =>
    have second := Option.map_eq_none_iff.1 (by rw [← valid, first]; rfl)
    rw [second]
    refine ⟨.inr ⟨_, _, rfl, rfl, rfl⟩, ?_, shifted.advance, rfl⟩
    simp only [compute, Cell.rename, Option.map_some, FullClassEntry.rename,
      DefinitionParts.rename_id]
    rfl

end Visit

end JsEmitter
