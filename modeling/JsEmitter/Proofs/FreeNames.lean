import JsEmitter.Naming
import Mathlib.Data.List.Nodup
import Mathlib.Data.List.Perm.Subperm

/-!
# Names that are free

A name that avoids clashes is the first of the name itself and the numbered ones that is not assumed
to be a name of the host: the assumed names are finitely many and the candidates all different, so
one of them is free. Generated names start with what the name before numbering starts with.
-/
namespace JsEmitter.Naming

/-- A numbered name is the name, a dollar and the digits of the number. -/
theorem toList_numbered (name : String) (number : Nat) :
    (numbered name number).toList = name.toList ++ '$' :: Nat.toDigits 10 number := by
  simp [numbered]

/-- Names with different numbers are different. -/
theorem numbered_injective (name : String) : Function.Injective (numbered name) := by
  intro first second same
  have lists := congrArg String.toList same
  simp only [toList_numbered, List.append_cancel_left_eq, List.cons.injEq, true_and] at lists
  rw [← Nat.ofDigitChars_ten_toDigits (n := first), lists, Nat.ofDigitChars_ten_toDigits]

/-- The names that are tried in turn: the name itself, and then the numbered ones from one on. -/
def candidate (name : String) : Nat → String
  | 0 => name
  | number + 1 => numbered name (number + 1)

/-- No name is tried twice. -/
theorem candidate_injective (name : String) : Function.Injective (candidate name) := by
  have longer : ∀ number, numbered name number ≠ name := by
    intro number same
    have lengths := congrArg (fun text => text.toList.length) same
    simp only [toList_numbered, List.length_append, List.length_cons] at lengths
    omega
  intro first second same
  cases first with
  | zero =>
    cases second with
    | zero => rfl
    | succ other => exact (longer _ same.symm).elim
  | succ number =>
    cases second with
    | zero => exact (longer _ same).elim
    | succ other => exact numbered_injective name same

variable (naming : Naming)

/-- Candidates that are all assumed are not more than the assumed names. -/
theorem le_size_of_assumed {name : String} {number : Nat}
    (assumed : ∀ earlier < number, candidate name earlier ∈ naming.assumed) :
    number ≤ naming.assumed.size := by
  have distinct : ((List.range number).map (candidate name)).Nodup :=
    List.nodup_range.map (candidate_injective name)
  have inside : (List.range number).map (candidate name) ⊆ naming.assumed.toList := by
    intro tried found
    obtain ⟨earlier, below, rfl⟩ := List.mem_map.1 found
    exact assumed earlier (List.mem_range.1 below)
  have few := (List.subperm_of_subset distinct inside).length_le
  rwa [List.length_map, List.length_range] at few

/-- The search ends at a number after assumed ones, and this is assumed too only if the bound has
been met. -/
theorem firstFree_eq (name : String) (bound number : Nat) :
    ∃ offset, naming.firstFree name bound number = numbered name (number + offset) ∧
      (∀ earlier < offset, numbered name (number + earlier) ∈ naming.assumed) ∧
      (numbered name (number + offset) ∈ naming.assumed → bound ≤ offset) := by
  induction bound generalizing number with
  | zero =>
    exact ⟨0, rfl, fun earlier below => (Nat.not_lt_zero _ below).elim, fun _ => Nat.le_refl 0⟩
  | succ bound ih =>
    unfold firstFree
    split
    · rename_i taken
      obtain ⟨offset, found, before, met⟩ := ih (number + 1)
      have shift : ∀ offset, number + 1 + offset = number + (offset + 1) := by omega
      rw [shift] at found met
      refine ⟨offset + 1, found, fun earlier below => ?_, fun last => Nat.succ_le_succ (met last)⟩
      cases earlier with
      | zero => exact SortedSet.contains_iff.1 taken
      | succ earlier =>
        rw [← shift]
        exact before earlier (Nat.lt_of_succ_lt_succ below)
    · rename_i free
      exact ⟨0, rfl, fun earlier below => (Nat.not_lt_zero _ below).elim,
        fun taken => (free (SortedSet.contains_iff.2 taken)).elim⟩

/-- A name that avoids clashes is the first candidate that is not assumed, and it is found after no
more candidates than there are assumed names. -/
theorem avoidClash_first (name : String) : ∃ number ≤ naming.assumed.size,
    naming.avoidClash name = candidate name number ∧
      candidate name number ∉ naming.assumed ∧
      ∀ earlier < number, candidate name earlier ∈ naming.assumed := by
  unfold avoidClash
  split
  · rename_i taken
    obtain ⟨offset, found, before, met⟩ := naming.firstFree_eq name naming.assumed.size 1
    rw [Nat.add_comm 1 offset] at found met
    have all : ∀ earlier < offset + 1, candidate name earlier ∈ naming.assumed := by
      intro earlier below
      cases earlier with
      | zero => exact SortedSet.contains_iff.1 taken
      | succ earlier =>
        have later := before earlier (Nat.lt_of_succ_lt_succ below)
        rwa [Nat.add_comm] at later
    have few := naming.le_size_of_assumed all
    refine ⟨offset + 1, few, found, fun last => ?_, all⟩
    have bound := met last
    omega
  · rename_i free
    exact ⟨0, Nat.zero_le _, rfl, fun taken => free (SortedSet.contains_iff.2 taken),
      fun earlier below => (Nat.not_lt_zero _ below).elim⟩

example : avoidClash ⟨.ofList ["$c_A", "$c_A$1", "$c_A$3"]⟩ "$c_A" = "$c_A$2" := by decide +kernel

/-- A name that avoids clashes is not an assumed one. -/
theorem avoidClash_free (name : String) : naming.avoidClash name ∉ naming.assumed := by
  obtain ⟨number, -, found, free, -⟩ := naming.avoidClash_first name
  rwa [found]

/-- A name that avoids clashes is the name itself or a numbered one. -/
theorem avoidClash_eq (name : String) :
    naming.avoidClash name = name ∨ ∃ number, naming.avoidClash name = numbered name number := by
  obtain ⟨number, -, found, -, -⟩ := naming.avoidClash_first name
  cases number with
  | zero => exact .inl found
  | succ number => exact .inr ⟨number + 1, found⟩

/-- Whether a name starts with a dollar, as all generated names do. -/
def looksGenerated (name : String) : Prop := name.toList.head? = some '$'

instance (name : String) : Decidable (looksGenerated name) :=
  inferInstanceAs (Decidable (name.toList.head? = some '$'))

/-- What follows a name that looks generated does not matter. -/
theorem looksGenerated_append {left : String} (right : String) (looks : looksGenerated left) :
    looksGenerated (left ++ right) := by
  unfold looksGenerated at *
  rw [String.toList_append, List.head?_append, looks]
  rfl

/-- Avoiding clashes keeps the dollar at the start. -/
theorem avoidClash_looksGenerated {name : String} (looks : looksGenerated name) :
    looksGenerated (naming.avoidClash name) := by
  rcases naming.avoidClash_eq name with same | ⟨number, same⟩
  · rwa [same]
  · rw [same]
    exact looksGenerated_append _ (looksGenerated_append _ looks)

/-- A plain name looks generated if its mark does. -/
theorem plainName_looksGenerated {mark : String} (name : String) (looks : looksGenerated mark) :
    looksGenerated (plainName mark name) :=
  looksGenerated_append _ looks

/-- The name of a member looks generated if its mark does. -/
theorem memberName_looksGenerated {mark : String} (owner : ClassName) (member : String)
    (looks : looksGenerated mark) : looksGenerated (memberName mark owner member) :=
  looksGenerated_append _ (looksGenerated_append _ (looksGenerated_append _ looks))

/-- The mark of every function looks generated. -/
theorem functionMark_looksGenerated (home : MemberNamespace) :
    looksGenerated (functionMark home) := by
  cases home <;> rfl

end JsEmitter.Naming
