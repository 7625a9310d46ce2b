/-!
# Sorted sets

A finite set is kept as the strictly increasing list of its members. The list is then decided
by the members alone: `SortedSet.ext` says that two sets with the same members are equal, so
neither the order in which members arrive nor their repetition can be observed later.
-/
namespace JsEmitter

/-- A finite set, as the strictly increasing list of its members. -/
structure SortedSet (α : Type) [Ord α] where
  /-- Members in increasing order. -/
  toList : List α
  /-- Every member is below all later ones. -/
  increasing : toList.Pairwise (fun earlier later => compare earlier later = .lt)

namespace SortedSet

variable {α : Type} [Ord α]

/-- The set without members. -/
def empty : SortedSet α := ⟨[], .nil⟩

instance : EmptyCollection (SortedSet α) := ⟨empty⟩

instance : Inhabited (SortedSet α) := ⟨empty⟩

instance : Membership α (SortedSet α) := ⟨fun set member => member ∈ set.toList⟩

instance [DecidableEq α] : DecidableEq (SortedSet α) := fun left right =>
  if same : left.toList = right.toList then
    .isTrue (by cases left; cases right; cases same; rfl)
  else
    .isFalse (fun equal => same (congrArg toList equal))

/-- Put one member at its place in an increasing list, unless it is there. -/
def place (member : α) : List α → List α
  | [] => [member]
  | head :: rest =>
    match compare member head with
    | .lt => member :: head :: rest
    | .eq => head :: rest
    | .gt => head :: place member rest

/-- Whether a member is in the set. -/
def contains [DecidableEq α] (set : SortedSet α) (member : α) : Bool := set.toList.contains member

/-- Number of members. -/
def size (set : SortedSet α) : Nat := set.toList.length

/-- Whether the set has no members. -/
def isEmpty (set : SortedSet α) : Bool := set.toList.isEmpty

/-- Members that satisfy a predicate. -/
def filter (keep : α → Bool) (set : SortedSet α) : SortedSet α :=
  ⟨set.toList.filter keep, set.increasing.filter keep⟩

variable [Std.TransOrd α] [Std.LawfulEqOrd α]

omit [Std.TransOrd α] in
/-- Placing a member adds exactly that member. -/
theorem mem_place {member other : α} {list : List α} :
    other ∈ place member list ↔ other = member ∨ other ∈ list := by
  induction list with
  | nil => simp [place]
  | cons head rest ih =>
    unfold place
    split
    · simp
    · rename_i same
      have equal : member = head := Std.LawfulEqOrd.eq_of_compare same
      subst equal
      simp
    · simp only [List.mem_cons, ih]
      constructor
      · rintro (first | second | third)
        · exact .inr (.inl first)
        · exact .inl second
        · exact .inr (.inr third)
      · rintro (first | second | third)
        · exact .inr (.inl first)
        · exact .inl second
        · exact .inr (.inr third)

/-- Placing a member keeps the list increasing. -/
theorem place_increasing {member : α} {list : List α}
    (increasing : list.Pairwise (fun earlier later => compare earlier later = .lt)) :
    (place member list).Pairwise (fun earlier later => compare earlier later = .lt) := by
  induction list with
  | nil => simp [place]
  | cons head rest ih =>
    have below := List.pairwise_cons.1 increasing
    unfold place
    split
    · rename_i smaller
      refine List.pairwise_cons.2 ⟨fun later found => ?_, increasing⟩
      rcases List.mem_cons.1 found with rfl | inRest
      · exact smaller
      · exact Std.TransCmp.lt_trans smaller (below.1 later inRest)
    · exact increasing
    · rename_i greater
      refine List.pairwise_cons.2 ⟨fun later found => ?_, ih below.2⟩
      rcases mem_place.1 found with rfl | inRest
      · exact Std.OrientedCmp.lt_of_gt greater
      · exact below.1 later inRest

/-- Add one member. -/
def insert (set : SortedSet α) (member : α) : SortedSet α :=
  ⟨place member set.toList, place_increasing set.increasing⟩

/-- Add every member of a list. -/
def insertAll (set : SortedSet α) (members : List α) : SortedSet α := members.foldl insert set

/-- The set of the members of a list. -/
def ofList (members : List α) : SortedSet α := empty.insertAll members

/-- The set with one member. -/
def single (member : α) : SortedSet α := ⟨[member], by simp⟩

/-- Members of either set. -/
def union (left right : SortedSet α) : SortedSet α := left.insertAll right.toList

instance : Union (SortedSet α) := ⟨union⟩

omit [Std.TransOrd α] [Std.LawfulEqOrd α] in
/-- The members of a set are those of its list. -/
theorem mem_toList {set : SortedSet α} {member : α} : member ∈ set.toList ↔ member ∈ set := .rfl

omit [Std.TransOrd α] [Std.LawfulEqOrd α] in
/-- The empty set has no members. -/
@[simp] theorem not_mem_empty {member : α} : ¬ member ∈ (∅ : SortedSet α) := by
  rintro found
  exact nomatch (found : member ∈ ([] : List α))

/-- Inserting adds one member and keeps the others. -/
@[simp] theorem mem_insert {set : SortedSet α} {member other : α} :
    other ∈ set.insert member ↔ other = member ∨ other ∈ set := mem_place

/-- Inserting a list adds its members and keeps the others. -/
@[simp] theorem mem_insertAll {set : SortedSet α} {members : List α} {other : α} :
    other ∈ set.insertAll members ↔ other ∈ set ∨ other ∈ members := by
  induction members generalizing set with
  | nil => simp [insertAll]
  | cons head rest ih =>
    have step : set.insertAll (head :: rest) = (set.insert head).insertAll rest := rfl
    rw [step, ih, mem_insert, List.mem_cons]
    constructor
    · rintro ((first | second) | third)
      · exact .inr (.inl first)
      · exact .inl second
      · exact .inr (.inr third)
    · rintro (first | second | third)
      · exact .inl (.inr first)
      · exact .inl (.inl second)
      · exact .inr third

/-- The set of a list has the members of the list. -/
@[simp] theorem mem_ofList {members : List α} {other : α} :
    other ∈ ofList members ↔ other ∈ members := by
  have none : ¬ other ∈ (empty : SortedSet α) := not_mem_empty
  simp [ofList, none]

/-- A union has the members of both sets. -/
@[simp] theorem mem_union {left right : SortedSet α} {other : α} :
    other ∈ left ∪ right ↔ other ∈ left ∨ other ∈ right := mem_insertAll

omit [Std.TransOrd α] [Std.LawfulEqOrd α] in
/-- Filtering keeps the members that satisfy the predicate. -/
@[simp] theorem mem_filter {keep : α → Bool} {set : SortedSet α} {other : α} :
    other ∈ set.filter keep ↔ other ∈ set ∧ keep other = true := List.mem_filter

omit [Std.TransOrd α] [Std.LawfulEqOrd α] in
/-- The set of one member has no other one. -/
@[simp] theorem mem_single {member other : α} : other ∈ single member ↔ other = member := by
  show other ∈ [member] ↔ _
  simp

omit [Std.TransOrd α] [Std.LawfulEqOrd α] in
/-- The test for a member decides membership. -/
@[simp] theorem contains_iff [DecidableEq α] {set : SortedSet α} {member : α} :
    set.contains member = true ↔ member ∈ set := by
  show set.toList.contains member = true ↔ member ∈ set.toList
  simp

omit [Std.LawfulEqOrd α] in
/-- No member is listed twice. -/
theorem nodup (set : SortedSet α) : set.toList.Nodup :=
  set.increasing.imp (fun {earlier later} below equal => by
    subst equal
    simp at below)

omit [Std.LawfulEqOrd α] in
/-- A set is decided by its members. -/
@[ext] theorem ext {left right : SortedSet α} (same : ∀ member, member ∈ left ↔ member ∈ right) :
    left = right := by
  obtain ⟨leftList, leftIncreasing⟩ := left
  obtain ⟨rightList, rightIncreasing⟩ := right
  have equal : leftList = rightList := by
    refine List.Perm.eq_of_pairwise ?_ leftIncreasing rightIncreasing ?_
    · intro a b _ _ below above
      exact (Std.OrientedCmp.not_lt_of_lt below above).elim
    · exact (List.perm_ext_iff_of_nodup (nodup ⟨leftList, leftIncreasing⟩)
        (nodup ⟨rightList, rightIncreasing⟩)).2 same
  subst equal
  rfl

/-- The empty set adds nothing on the left. -/
@[simp] theorem empty_union (set : SortedSet α) : ∅ ∪ set = set := by
  ext member
  simp

/-- The empty set adds nothing on the right. -/
@[simp] theorem union_empty (set : SortedSet α) : set ∪ ∅ = set := by
  ext member
  simp

/-- Unions can be regrouped. -/
theorem union_assoc (first second third : SortedSet α) :
    first ∪ second ∪ third = first ∪ (second ∪ third) := by
  ext member
  simp [or_assoc]

/-- The sides of a union can be exchanged. -/
theorem union_comm (left right : SortedSet α) : left ∪ right = right ∪ left := by
  ext member
  simp [or_comm]

end SortedSet

end JsEmitter
