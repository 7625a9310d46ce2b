import JsEmitter.Linked.Building
import JsEmitter.Linked.Validation
import JsEmitter.Proofs.Fingerprints
import JsEmitter.Proofs.Linkage

/-!
# Exact linkage

The linkage of some classes tells their facts and nothing else. It stays the same exactly while the
root module does and every one of the classes is unknown, or has the same owner, kind and fate of
its constructor, whatever characters the names have: `ClassIndex.linkageVersion_isSame_iff`. The
names are the same on both sides, so they need no end mark, and the last two facts have no colon.
-/
namespace JsEmitter

namespace ClassIndex

variable {first second : ClassIndex} {name : ClassName}

/-- Whether two indexes agree in the facts about a class that linkage depends on: both do not know
it, or it has the same owner and kind in both and its constructor is inlined in both or neither. -/
inductive AgreeOn (first second : ClassIndex) (name : ClassName) : Prop
  | unknown : first.get? name = none → second.get? name = none → AgreeOn first second name
  | known {info other : ClassInfo} : first.get? name = some info → second.get? name = some other →
      info.owner = other.owner → info.kind = other.kind →
      info.inlinesConstructor = other.inlinesConstructor → AgreeOn first second name

/-- The linkage text of a class is the same exactly if the facts about the class are. -/
theorem linkageText_eq_iff :
    first.linkageText name = second.linkageText name ↔ first.AgreeOn second name := by
  constructor
  · intro same
    obtain ⟨here, there⟩ | ⟨info, other, here, there, owner, kind, inlines⟩ :=
      infos_of_linkageText same
    · exact .unknown here there
    · exact .known here there owner kind inlines
  · intro agree
    cases agree with
    | unknown here there => rw [linkageText_none here, linkageText_none there]
    | known here there owner kind inlines =>
      rw [linkageText_some here, linkageText_some there, factText, factText, owner, kind, inlines]

/-- The parts of linkage are the same exactly if the texts of the root modules are, and the facts
about all of the classes. -/
theorem linkageParts_eq_iff {names : List ClassName} :
    first.linkageParts names = second.linkageParts names ↔
      first.rootText = second.rootText ∧ ∀ name ∈ names, first.AgreeOn second name := by
  simp only [linkageParts, List.cons.injEq, String.append_right_inj, List.map_inj_left,
    linkageText_eq_iff]

/-- The linkage of some classes is the same under two indexes exactly if their root modules have the
same id, an empty one if there is none, and they agree in the facts about every one of the classes.
The digest has to tell the two messages apart. -/
theorem linkageVersion_isSame_iff (names : List ClassName)
    (apart : Version.Distinguished (first.linkageParts names) (second.linkageParts names)) :
    (first.linkageVersion names).isSame (second.linkageVersion names) = true ↔
      first.rootText = second.rootText ∧ ∀ name ∈ names, first.AgreeOn second name := by
  rw [← linkageParts_eq_iff]
  exact apart.isSame_iff

/-- A program of a root module without classes, a class whose name has a mark of linkage text, and
other classes next to it. -/
def markedProgram (owner : ModuleId) (others : List LinkedClass) : Program :=
  ⟨[{ Module.start ⟨"m"⟩ with isRoot := true },
    { Module.start owner with classes := .start ⟨"A@m"⟩ .plain :: others }]⟩

/-- A class that is not listed does not count for linkage, and an owner is told from one that ends
in what follows owners in linkage text. -/
theorem linkageVersion_isSame_iff_marked :
    let home := ofProgram (markedProgram ⟨"l"⟩ [])
    let crowded := ofProgram (markedProgram ⟨"l"⟩ [.start ⟨"B"⟩ .interface])
    let moved := ofProgram (markedProgram ⟨"l:Class:false"⟩ [])
    (∀ program ∈ [markedProgram ⟨"l"⟩ [], markedProgram ⟨"l"⟩ [.start ⟨"B"⟩ .interface],
      markedProgram ⟨"l:Class:false"⟩ []], program.validate = .ok ()) ∧
    (home.linkageVersion [⟨"A"⟩, ⟨"A@m"⟩, ⟨"A"⟩]).isSame
      (crowded.linkageVersion [⟨"A"⟩, ⟨"A@m"⟩, ⟨"A"⟩]) = true ∧
    (home.linkageVersion [⟨"A@m"⟩]).isSame (moved.linkageVersion [⟨"A@m"⟩]) = false := by
  intro home crowded moved
  have parts : home.linkageParts [⟨"A"⟩, ⟨"A@m"⟩, ⟨"A"⟩] =
      crowded.linkageParts [⟨"A"⟩, ⟨"A@m"⟩, ⟨"A"⟩] := by decide +kernel
  have digests : Sha256.hexadecimalDigest (Version.partBytes (home.linkageParts [⟨"A@m"⟩])) ≠
      Sha256.hexadecimalDigest (Version.partBytes (moved.linkageParts [⟨"A@m"⟩])) := by
    decide +kernel
  have apart : Version.Distinguished (home.linkageParts [⟨"A@m"⟩])
      (moved.linkageParts [⟨"A@m"⟩]) := ⟨by decide +kernel, fun same => (digests same).elim⟩
  refine ⟨by decide +kernel, ?_, ?_⟩
  · exact (linkageVersion_isSame_iff _ (parts ▸ .of_eq (by decide +kernel))).2
      (linkageParts_eq_iff.1 parts)
  · rw [Bool.eq_false_iff]
    intro same
    have facts := (linkageVersion_isSame_iff _ apart).1 same
    exact absurd (linkageParts_eq_iff.2 facts) (by decide +kernel)

end ClassIndex

end JsEmitter
