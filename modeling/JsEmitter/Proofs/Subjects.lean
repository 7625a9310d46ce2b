import JsEmitter.Proofs.Encoding
import JsEmitter.Proofs.ModuleAccount

/-!
# What top-level names stand for

A definition at top level is of one subject: a part of a class, a method, a static field, an export,
an import, or a fixed definition of the bootstrap library. The mark of a name tells the sort of its
subject, and the encoding after the mark tells the rest, so different subjects have different names
whatever names the session assumes: `Subject.name_injective`.
-/
namespace JsEmitter

/-- The sorts of names that are made from one text. -/
inductive NameSort where
  | constructor
  | helper
  | test
  | cast
  | typeData
  | accessor
  | singleton
  | binding
  | externalImport
  | internalImport
deriving DecidableEq, Repr

/-- The mark of a sort of names. -/
def NameSort.mark : NameSort → String
  | constructor => "$c_"
  | helper => "$h_"
  | test => "$is_"
  | cast => "$as_"
  | typeData => "$d_"
  | accessor => "$m_"
  | singleton => "$n_"
  | binding => "$e_"
  | externalImport => "$i_"
  | internalImport => "$j_"

/-- The sorts of names that are made from a class and a member of it. -/
inductive MemberSort where
  /-- The free function of a method. -/
  | method (home : MemberNamespace)
  | staticField
deriving DecidableEq, Repr

/-- The mark of a sort of names of members. -/
def MemberSort.mark : MemberSort → String
  | method home => Naming.functionMark home
  | staticField => "$t_"

/-- What is between the dollar and the underscore of a mark. -/
def markLetters (mark : String) : List Char := (mark.toList.drop 1).dropLast

/-- The mark of a name is a dollar, letters without underscore, and an underscore. -/
theorem NameSort.toList_mark (sort : NameSort) :
    sort.mark.toList = '$' :: markLetters sort.mark ++ ['_'] ∧ '_' ∉ markLetters sort.mark := by
  cases sort <;> decide

/-- The mark of the name of a member is a dollar, letters without underscore, and an underscore. -/
theorem MemberSort.toList_mark (sort : MemberSort) :
    sort.mark.toList = '$' :: markLetters sort.mark ++ ['_'] ∧ '_' ∉ markLetters sort.mark := by
  rcases sort with home | _
  · cases home <;> decide
  · decide

/-- Sorts of names have different marks. -/
theorem NameSort.markLetters_injective {sort other : NameSort}
    (same : markLetters sort.mark = markLetters other.mark) : sort = other := by
  cases sort <;> cases other <;> first | rfl | exact absurd same (by decide)

/-- Sorts of names of members have different marks. -/
theorem MemberSort.markLetters_injective {sort other : MemberSort}
    (same : markLetters sort.mark = markLetters other.mark) : sort = other := by
  rcases sort with home | _ <;> rcases other with another | _
  · cases home <;> cases another <;> first | rfl | exact absurd same (by decide)
  · cases home <;> exact absurd same (by decide)
  · cases another <;> exact absurd same (by decide)
  · rfl

/-- No sort of names has the mark of one of members. -/
theorem NameSort.markLetters_ne (sort : NameSort) (other : MemberSort) :
    markLetters sort.mark ≠ markLetters other.mark := by
  rcases other with home | _
  · cases sort <;> cases home <;> decide
  · cases sort <;> decide

/-- What a definition at top level defines. -/
inductive Subject where
  | single (sort : NameSort) (text : String)
  | member (sort : MemberSort) (owner : ClassName) (text : String)
  /-- The function of the bootstrap library that reports a failed cast. -/
  | castFailure
  /-- The constructor of type data, in the bootstrap library. -/
  | typeDataClass
  /-- The variable of an export of a script. -/
  | exported (name : String)
deriving DecidableEq

namespace Subject

/-- How the definition of a subject gets its name. -/
def definer : Subject → Definer
  | single sort text => .generated (Naming.plainName sort.mark text)
  | member sort owner text => .generated (Naming.memberName sort.mark owner text)
  | castFailure => .generated "$throwClassCastException"
  | typeDataClass => .generated "$TypeData"
  | exported name => .exported name

/-- The name of the definition of a subject. -/
def name (naming : Naming) (subject : Subject) : String := subject.definer.name naming

/-- Whether the texts of a subject can be read back from its name. -/
def Readable : Subject → Prop
  | single _ text => Decodable text
  | member _ owner text => Decodable owner.text ∧ owner.Delimited ∧ Decodable text
  | exported name => ¬ Naming.looksGenerated name
  | castFailure | typeDataClass => True

/-- A name with a mark is a dollar, the letters of the mark, an underscore and an encoding. -/
theorem toList_plainName (sort : NameSort) (text : String) :
    (Naming.plainName sort.mark text).toList =
      '$' :: markLetters sort.mark ++ '_' :: (encode text).toList := by
  rw [Naming.plainName, String.toList_append, sort.toList_mark.1]
  simp

/-- The name of a member is its mark and the encoding of the class and the member. -/
theorem toList_memberName (sort : MemberSort) (owner : ClassName) (text : String) :
    (Naming.memberName sort.mark owner text).toList =
      '$' :: markLetters sort.mark ++ '_' :: (encode (owner.text ++ (".." ++ text))).toList := by
  rw [memberName_eq, String.toList_append, sort.toList_mark.1]
  simp

/-- Marks that end at their first underscore are found again, with the encodings after them. -/
theorem marked_inj {letters others : List Char} {text another : String} (bare : '_' ∉ letters)
    (plain : '_' ∉ others)
    (same : '$' :: letters ++ '_' :: (encode text).toList =
      '$' :: others ++ '_' :: (encode another).toList) :
    letters = others ∧ encode text = encode another := by
  have tails := (List.cons.inj same).2
  obtain ⟨marks, rests⟩ := append_mark_inj bare plain tails
  exact ⟨marks, String.toList_inj.1 rests⟩

/-- The stem of a generated name tells its subject. -/
theorem definer_injective {first second : Subject} (readable : first.Readable)
    (legible : second.Readable) (same : first.definer = second.definer) : first = second := by
  have dots : Decodable ".." := by decide
  have join : ∀ {left right : String}, Decodable left → Decodable right →
      Decodable (left ++ (".." ++ right)) := by
    intro left right leftShort rightShort char found
    simp only [String.toList_append, List.mem_append] at found
    rcases found with found | found | found
    · exact leftShort char found
    · exact dots char found
    · exact rightShort char found
  have bare : ∀ {mark : String} {letters : List Char} {text : String}, '_' ∉ mark.toList →
      '$' :: letters ++ '_' :: (encode text).toList ≠ mark.toList := by
    intro mark letters text absent equal
    exact absent (equal ▸ List.mem_append_right _ List.mem_cons_self)
  cases first <;> cases second <;> simp only [definer, Definer.generated.injEq,
    Definer.exported.injEq, reduceCtorEq] at same
  case single.single sort text other another =>
    have lists := congrArg String.toList same
    rw [toList_plainName, toList_plainName] at lists
    obtain ⟨marks, texts⟩ := marked_inj sort.toList_mark.2 other.toList_mark.2 lists
    rw [NameSort.markLetters_injective marks, encode_injective readable legible texts]
  case member.member sort owner text other holder another =>
    have lists := congrArg String.toList same
    rw [toList_memberName, toList_memberName] at lists
    obtain ⟨marks, texts⟩ := marked_inj sort.toList_mark.2 other.toList_mark.2 lists
    obtain ⟨rfl, rfl⟩ := readable.2.1.append_inj legible.2.1
      (encode_injective (join readable.1 readable.2.2) (join legible.1 legible.2.2) texts)
    rw [MemberSort.markLetters_injective marks]
  case single.member sort text other holder another =>
    have lists := congrArg String.toList same
    rw [toList_plainName, toList_memberName] at lists
    exact (sort.markLetters_ne other
      (marked_inj sort.toList_mark.2 other.toList_mark.2 lists).1).elim
  case member.single sort owner text other another =>
    have lists := congrArg String.toList same
    rw [toList_plainName, toList_memberName] at lists
    exact (other.markLetters_ne sort
      (marked_inj sort.toList_mark.2 other.toList_mark.2 lists).1.symm).elim
  case single.castFailure | single.typeDataClass =>
    exact (bare (by decide) ((toList_plainName _ _).symm.trans
      (congrArg String.toList same))).elim
  case castFailure.single | typeDataClass.single =>
    exact (bare (by decide) ((toList_plainName _ _).symm.trans
      (congrArg String.toList same.symm))).elim
  case member.castFailure | member.typeDataClass =>
    exact (bare (by decide) ((toList_memberName _ _ _).symm.trans
      (congrArg String.toList same))).elim
  case castFailure.member | typeDataClass.member =>
    exact (bare (by decide) ((toList_memberName _ _ _).symm.trans
      (congrArg String.toList same.symm))).elim
  case castFailure.typeDataClass | typeDataClass.castFailure => exact absurd same (by decide)
  case castFailure.castFailure | typeDataClass.typeDataClass => rfl
  case exported.exported => rw [same]

/-- The stem of a generated name has no number at its end. -/
theorem stem_unnumbered {subject : Subject} {stem : String}
    (generated : subject.definer = .generated stem) :
    Unnumbered stem.toList ∧ Naming.looksGenerated stem := by
  cases subject with
  | single sort text =>
    cases generated
    rw [Naming.plainName, String.toList_append]
    refine ⟨.append ?_ (encode_unnumbered text), Naming.plainName_looksGenerated _ ?_⟩
    · cases sort <;> exact .ofMark (by decide) List.mem_cons_self (by decide)
    · cases sort <;> rfl
  | member sort owner text =>
    cases generated
    refine ⟨?_, Naming.memberName_looksGenerated _ _ ?_⟩
    · rw [memberName_eq, String.toList_append]
      refine .append ?_ (encode_unnumbered _)
      rcases sort with home | _
      · cases home <;> exact .ofMark (by decide) List.mem_cons_self (by decide)
      · exact .ofMark (by decide) List.mem_cons_self (by decide)
    · rcases sort with home | _
      · exact Naming.functionMark_looksGenerated home
      · rfl
  | castFailure | typeDataClass =>
    cases generated
    exact ⟨.ofMark (by decide) List.mem_cons_self (by decide), rfl⟩
  | exported => cases generated

/-- Different subjects have different names, whatever names the session assumes. -/
theorem name_injective (naming : Naming) {first second : Subject} (readable : first.Readable)
    (legible : second.Readable) (same : first.name naming = second.name naming) :
    first = second := by
  refine definer_injective readable legible ?_
  have exported : ∀ {subject : Subject} {name : String}, subject.Readable →
      subject.definer = .exported name → ¬ Naming.looksGenerated name := by
    intro subject name readable other
    cases subject <;> cases other
    exact readable
  unfold name at same
  cases one : first.definer with
  | generated stem =>
    have clear := stem_unnumbered one
    cases two : second.definer with
    | generated other =>
      rw [one, two] at same
      rw [naming.avoidClash_injective clear.1 (stem_unnumbered two).1 same]
    | exported other =>
      rw [one, two] at same
      have looks : Naming.looksGenerated (Definer.name naming (.generated stem)) :=
        naming.avoidClash_looksGenerated clear.2
      rw [same] at looks
      exact (exported legible two looks).elim
  | exported name =>
    cases two : second.definer with
    | generated other =>
      rw [one, two] at same
      have looks : Naming.looksGenerated (Definer.name naming (.generated other)) :=
        naming.avoidClash_looksGenerated (stem_unnumbered two).2
      rw [← same] at looks
      exact (exported readable one looks).elim
    | exported other =>
      rw [one, two] at same
      exact congrArg Definer.exported same

end Subject

end JsEmitter
