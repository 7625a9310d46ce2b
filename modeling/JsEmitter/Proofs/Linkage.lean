import JsEmitter.ClassIndex
import JsEmitter.Proofs.VersionParts

/-!
# Facts behind linkage

The linkage of some classes is a text for each of them. If names of classes have no `@`, the text
tells which class it is of, and it has all the facts about it that generated code reads, but for the
place where the host keeps it.
-/
namespace JsEmitter

/-- A name is known by its text. -/
theorem Name.text_injective {kind : NameKind} : Function.Injective (@Name.text kind) := by
  rintro ⟨first⟩ ⟨second⟩ same
  exact congrArg Name.mk same

/-- A kind of classes is known by its label. -/
theorem ClassKind.label_injective : Function.Injective ClassKind.label := by
  intro first second same
  cases first <;> cases second <;> first | rfl | exact absurd same (by decide)

namespace ClassIndex

variable {first second : ClassIndex}

/-- Whether two indexes agree in the facts about a class that generated code reads. -/
structure SameFacts (first second : ClassIndex) (name : ClassName) : Prop where
  owner : first.owner? name = second.owner? name
  kind : first.kind? name = second.kind? name
  inlines : first.inlinesConstructor name = second.inlinesConstructor name
  native : first.nativeLoadSpec? name = second.nativeLoadSpec? name

/-- Whether two indexes agree in where the host keeps the classes that both have in one module. -/
def SameNatives (first second : ClassIndex) : Prop :=
  ∀ name info other, first.get? name = some info → second.get? name = some other →
    info.owner = other.owner → info.nativeLoadSpec? = other.nativeLoadSpec?

/-- Whether the names of the classes of an index have no `@`. -/
def Unmarked (index : ClassIndex) : Prop :=
  ∀ name, (index.get? name).isSome → '@' ∉ name.text.toList

/-- The facts about a class after its name. -/
def factText (info : ClassInfo) : String :=
  info.owner.text ++ ":" ++ info.kind.label ++ ":" ++
    (if info.inlinesConstructor then "true" else "false")

/-- The linkage of a known class writes its name and its facts. -/
theorem linkageText_some {index : ClassIndex} {name : ClassName} {info : ClassInfo}
    (known : index.get? name = some info) :
    index.linkageText name = name.text ++ "@" ++ factText info := by
  simp [linkageText, known, factText, String.append_assoc]

/-- The linkage of an unknown class writes its name without facts. -/
theorem linkageText_none {index : ClassIndex} {name : ClassName}
    (unknown : index.get? name = none) : index.linkageText name = name.text ++ "@" := by
  simp [linkageText, unknown]

/-- The text of the facts about a class has these facts. -/
theorem factText_inj {info other : ClassInfo} (same : factText info = factText other) :
    info.owner = other.owner ∧ info.kind = other.kind ∧
      info.inlinesConstructor = other.inlinesConstructor := by
  have chars := congrArg (fun text => text.toList.reverse) same
  have flag : ∀ inlines : Bool, ':' ∉ (if inlines then "true" else "false").toList.reverse := by
    decide
  have label : ∀ kind : ClassKind, ':' ∉ kind.label.toList.reverse := by
    intro kind
    cases kind <;> decide
  simp only [factText, String.toList_append, List.reverse_append, List.append_assoc] at chars
  obtain ⟨flags, chars⟩ := append_mark_inj (flag _) (flag _) chars
  obtain ⟨labels, owners⟩ := append_mark_inj (label _) (label _) chars
  refine ⟨?_, ?_, ?_⟩
  · exact Name.text_injective (String.toList_inj.1 (List.reverse_injective owners))
  · exact ClassKind.label_injective (String.toList_inj.1 (List.reverse_injective labels))
  · cases one : info.inlinesConstructor <;> cases two : other.inlinesConstructor <;>
      simp [one, two] at flags ⊢

/-- The last character of linkage text tells whether the class is known. -/
theorem linkageText_getLast? (index : ClassIndex) (name : ClassName) :
    (index.linkageText name).toList.getLast? =
      some (if (index.get? name).isSome then 'e' else '@') := by
  cases known : index.get? name with
  | none => simp [linkageText_none known]
  | some info =>
    rw [linkageText_some known, factText]
    simp only [String.toList_append, List.getLast?_append]
    cases info.inlinesConstructor <;> rfl

/-- Linkage text tells the name of the class that it is of. -/
theorem linkageText_name {name other : ClassName} (plain : first.Unmarked)
    (clear : second.Unmarked) (same : first.linkageText name = second.linkageText other) :
    name = other := by
  have last := congrArg (fun text => text.toList.getLast?) same
  simp only [linkageText_getLast?] at last
  refine Name.text_injective ?_
  cases known : first.get? name with
  | none =>
    cases found : second.get? other with
    | none =>
      rw [linkageText_none known, linkageText_none found] at same
      exact (String.append_left_inj _).1 same
    | some info => simp [known, found] at last
  | some info =>
    cases found : second.get? other with
    | none => simp [known, found] at last
    | some fact =>
      rw [linkageText_some known, linkageText_some found] at same
      have chars := congrArg String.toList same
      simp only [String.toList_append, List.append_assoc] at chars
      exact String.toList_inj.1 (append_mark_inj (plain name (by simp [known]))
        (clear other (by simp [found])) chars).1

/-- Indexes with the same linkage text for a class both know it or both do not, and agree in what
the text is made from. -/
theorem infos_of_linkageText {name : ClassName}
    (same : first.linkageText name = second.linkageText name) :
    first.get? name = none ∧ second.get? name = none ∨
      ∃ info other, first.get? name = some info ∧ second.get? name = some other ∧
        info.owner = other.owner ∧ info.kind = other.kind ∧
        info.inlinesConstructor = other.inlinesConstructor := by
  have last := congrArg (fun text => text.toList.getLast?) same
  simp only [linkageText_getLast?] at last
  cases known : first.get? name with
  | none =>
    cases found : second.get? name with
    | none => exact .inl ⟨rfl, rfl⟩
    | some info => simp [known, found] at last
  | some info =>
    cases found : second.get? name with
    | none => simp [known, found] at last
    | some other =>
      rw [linkageText_some known, linkageText_some found] at same
      exact .inr ⟨info, other, rfl, rfl, factText_inj ((String.append_right_inj _).1 same)⟩

/-- Indexes with the same linkage text for a class agree in its owner. -/
theorem owner?_of_linkageText {name : ClassName}
    (same : first.linkageText name = second.linkageText name) :
    first.owner? name = second.owner? name := by
  obtain ⟨unknown, missing⟩ | ⟨info, other, known, found, owner, -⟩ := infos_of_linkageText same
  · rw [owner?, owner?, unknown, missing]
  · simp only [owner?, known, found, Option.map_some, owner]

/-- Indexes with the same linkage text for a class agree in the facts about it. -/
theorem sameFacts_of_linkageText {name : ClassName} (natives : SameNatives first second)
    (same : first.linkageText name = second.linkageText name) : SameFacts first second name := by
  obtain ⟨unknown, missing⟩ | ⟨info, other, known, found, owner, kind, inlines⟩ :=
    infos_of_linkageText same
  · constructor <;>
      simp [owner?, kind?, inlinesConstructor, nativeLoadSpec?, unknown, missing]
  · have native := natives name info other known found owner
    constructor <;>
      simp [owner?, kind?, inlinesConstructor, nativeLoadSpec?, known, found, owner, kind,
        inlines, native]

/-- The parts of the linkage of some classes. -/
def linkageParts (index : ClassIndex) (names : List ClassName) : List String :=
  ("root:" ++ index.rootText) :: names.map index.linkageText

/-- Indexes with the same linkage agree in the facts about its classes, and in the root module. -/
theorem sameFacts_of_linkageParts {names others : List ClassName} (plain : first.Unmarked)
    (clear : second.Unmarked) (natives : SameNatives first second)
    (same : first.linkageParts names = second.linkageParts others) :
    first.rootText = second.rootText ∧ ∀ name ∈ names, SameFacts first second name := by
  obtain ⟨roots, texts⟩ := List.cons.inj same
  refine ⟨(String.append_right_inj _).1 roots, fun name found => ?_⟩
  have there : first.linkageText name ∈ others.map second.linkageText :=
    texts ▸ List.mem_map_of_mem found
  obtain ⟨other, -, text⟩ := List.mem_map.1 there
  obtain rfl := linkageText_name clear plain text
  exact sameFacts_of_linkageText natives text.symm

end ClassIndex

end JsEmitter
