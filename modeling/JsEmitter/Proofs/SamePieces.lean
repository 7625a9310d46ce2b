import JsEmitter.Proofs.PassInStep

/-!
# Pieces for the same class

What is made twice for the same class or module has the same shape: pieces are served for the same
places, and an optional part is there both times or never. So two that are made for the same are
read alike if the parts are that were served for the same place.
-/
namespace JsEmitter

open Lowering (Context)

/-- Optional values that are there under the same condition are read alike if the values are. -/
theorem eq_of_optional {α β : Type} {post : α → Prop} (read : Option α → β) {present : Bool}
    {first second : Option α}
    (here : present = true → ∃ value, first = some value ∧ post value)
    (missing : present = false → first = none)
    (there : present = true → ∃ value, second = some value ∧ post value)
    (absent : present = false → second = none)
    (each : ∀ value other, post value → post other → read (some value) = read (some other)) :
    read first = read second := by
  cases present with
  | true =>
    obtain ⟨value, rfl, holds⟩ := here rfl
    obtain ⟨other, rfl, again⟩ := there rfl
    exact each value other holds again
  | false => rw [missing rfl, absent rfl]

variable {setting : Setting} {history : List Program} {site : Site} {linked : LinkedClass}
  {β : Type}

section Definitions

variable {definition other : Definition} (first : definition.MadeFor setting history site linked)
  (second : other.MadeFor setting history site linked)

include first second

/-- Constructors of the same class are read alike if those are that are asked for under the same
version. -/
theorem Definition.MadeFor.ctor_eq_of (read : Piece .ctor → β)
    (agree : ((setting.neutral site).constructorVersion linked).isVersioned = true →
      read definition.ctor = read other.ctor) :
    read definition.ctor = read other.ctor := by
  cases versioned : ((setting.neutral site).constructorVersion linked).isVersioned with
  | true => exact agree versioned
  | false => rw [Except.ok.inj ((first.ownCtor versioned).symm.trans (second.ownCtor versioned))]

/-- The members of the same class correspond as far as pieces do that are served for the same
one. -/
theorem Definition.MadeFor.members_forall₂ {both : Piece .tree → Piece .tree → Prop}
    (each : ∀ {place : Place .tree} {version : Version} {own piece other : Piece .tree},
      Served setting history place version own piece →
        Served setting history place version own other → both piece other) :
    List.Forall₂ both definition.members other.members := by
  obtain ⟨methods, bridges, parts, methodsMade, bridgesMade⟩ := first.members
  obtain ⟨moreMethods, moreBridges, moreParts, methodsAgain, bridgesAgain⟩ := second.members
  rw [parts, moreParts]
  exact List.rel_append (forall₂_of_common methodsMade methodsAgain (fun _ _ _ _ => each))
    (forall₂_of_common bridgesMade bridgesAgain (fun _ _ _ _ => each))

end Definitions

section Classes

variable {pieces others : ClassPieces} (first : pieces.MadeFor setting history site linked)
  (second : others.MadeFor setting history site linked)

include first second

/-- The definitions of the same class are read alike if those are that are emitted for it. -/
theorem ClassPieces.MadeFor.definition_eq_of (read : Option Definition → β)
    (each : ∀ definition other : Definition, definition.MadeFor setting history site linked →
      other.MadeFor setting history site linked → read (some definition) = read (some other)) :
    read pieces.definition? = read others.definition? :=
  eq_of_optional read first.defined first.undefined second.defined second.undefined each

/-- The pieces of the same class that depend on it alone are read alike if those are that are served
for the same one. -/
theorem ClassPieces.MadeFor.shell_eq_of (part : ShellPart) (read : Option (Piece .trees) → β)
    (each : ∀ piece other : Piece .trees,
      Served setting history (.shell (.ofClass site.home linked) part)
        ((setting.neutral site).classVersion linked) (.shell site linked part) piece →
      Served setting history (.shell (.ofClass site.home linked) part)
        ((setting.neutral site).classVersion linked) (.shell site linked part) other →
          read (some piece) = read (some other)) :
    read (pieces.shell part) = read (others.shell part) :=
  eq_of_optional read (first.present part) (first.absent part) (second.present part)
    (second.absent part) each

end Classes

/-- The bootstrap library of the same module is read alike if libraries are. -/
theorem ModulePieces.MadeFor.library_eq_of {program : Program} {unit : Module}
    {pieces others : ModulePieces} (first : pieces.MadeFor setting history program unit)
    (second : others.MadeFor setting history program unit)
    (read : Option (Piece .library) → β)
    (each : ∀ piece other : Piece .library, read (some piece) = read (some other)) :
    read pieces.library? = read others.library? := by
  have present : pieces.library?.isSome = others.library?.isSome :=
    first.library.trans second.library.symm
  cases one : pieces.library? with
  | none =>
    cases two : others.library? with
    | none => rfl
    | some other => simp [one, two] at present
  | some piece =>
    cases two : others.library? with
    | none => simp [one, two] at present
    | some other => exact each piece other

end JsEmitter
