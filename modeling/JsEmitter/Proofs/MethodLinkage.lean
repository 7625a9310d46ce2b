import JsEmitter.Js.Walk
import JsEmitter.Linked.Building
import JsEmitter.Proofs.Fingerprints
import JsEmitter.Proofs.PieceHosts
import JsEmitter.Proofs.SameParts
import JsEmitter.Proofs.ValidPrograms

/-!
# Linkage of methods

The linkage of a method is the version of the facts about the ancestors of its class and about the
classes that its body names. Its code also reads facts about the classes that the parent of its
class is made from, and about the root class where super calls have no parent to go to. The linkage
covers the code of the method as far as these are among its classes.
-/
namespace JsEmitter

open Js (Tree)
open Lowering (Context Scope)

namespace ClassIndex

/-- The index of a validated program has a root module unless the program is empty. -/
theorem rootModule?_eq_none_iff {program : Program} (accepted : program.validate = .ok ()) :
    (ofProgram program).rootModule? = none ↔ program.modules = [] := by
  constructor
  · intro none
    by_contra filled
    have root := (Program.valid_of_validate accepted).root filled
    rw [Option.map_eq_none_iff.1 none] at root
    cases root
  · intro empty
    simp [ofProgram, Program.rootModule?, empty]

/-- Indexes have the same root module if it has the same text, and both have one or neither. -/
theorem rootModule?_eq {first second : ClassIndex}
    (exist : first.rootModule? = none ↔ second.rootModule? = none)
    (texts : first.rootText = second.rootText) : first.rootModule? = second.rootModule? := by
  unfold rootText at texts
  cases one : first.rootModule? with
  | none => rw [exist.1 one]
  | some root =>
    cases two : second.rootModule? with
    | none => rw [exist.2 two] at one; cases one
    | some other =>
      rw [one, two] at texts
      rw [Name.text_injective texts]

/-- Indexes that agree in all places of the host agree in those of classes that both have. -/
theorem SameNatives.of_forall {first second : ClassIndex}
    (natives : ∀ name, first.nativeLoadSpec? name = second.nativeLoadSpec? name) :
    first.SameNatives second := by
  intro name info other known found _
  simpa [nativeLoadSpec?, known, found] using natives name

/-- Linkage that is the same covers the facts about its classes, and the text of the root. -/
theorem sameFacts_of_linkageVersion {first second : ClassIndex} {names : List ClassName}
    (natives : first.SameNatives second)
    (apart : Version.Distinguished (first.linkageParts names) (second.linkageParts names))
    (same : (first.linkageVersion names).isSame (second.linkageVersion names) = true) :
    first.rootText = second.rootText ∧ ∀ name ∈ names, first.SameFacts second name := by
  obtain ⟨roots, texts⟩ := List.cons.inj (apart.parts_eq same)
  exact ⟨(String.append_right_inj _).1 roots,
    fun name found => sameFacts_of_linkageText natives (List.map_inj_left.1 texts name found)⟩

end ClassIndex

namespace Lowering.Context

/-- The classes whose facts the parent of a class is made from. -/
def parentReads (config : Config) (linked : LinkedClass) : List ClassName :=
  if HostNames.extendsHostError config linked then []
  else if linked.kind.isJsClass then
    match linked.jsSuperClass?, linked.superClass? with
    | some expr, _ => expr.reads
    | none, some parent => [parent]
    | none, none => []
  else linked.superClass?.toList

/-- The classes whose facts the code of a method reads: its own, those of the parent, those that the
body names, and the root class if super calls have no parent to go to. -/
def methodReads (config : Config) (linked : LinkedClass) (method : MethodDef) : List ClassName :=
  linked.name :: parentReads config linked ++ method.body.classes ++
    if method.body.callsSuper && !HostNames.hasParent config linked then [.root] else []

variable {context : Context} {index : ClassIndex} {linked : LinkedClass} {method : MethodDef}

/-- The parent of a class is the same under an index that agrees in what the parent is made from. -/
theorem parentRef_eq_of_reads
    (reads : ∀ owner ∈ parentReads context.config linked, context.SameReads index owner) :
    (context.reindex index).parentRef linked = context.parentRef linked := by
  unfold parentReads at reads
  unfold parentRef
  change (if HostNames.extendsHostError context.config linked then _ else _) =
    (if HostNames.extendsHostError context.config linked then _ else _)
  split
  · rfl
  · next plain =>
    rw [if_neg plain] at reads
    split
    · next foreign =>
      rw [if_pos foreign] at reads
      cases extended : linked.jsSuperClass? with
      | some expr =>
        simp only [extended] at reads
        simp only [lower_plain_reindex reads]
      | none =>
        cases parent : linked.superClass? with
        | some owner =>
          simp only [extended, parent] at reads
          simp only [loadJsConstructor_reindex (reads owner List.mem_cons_self).toSameFacts]
        | none => rfl
    · next ordinary =>
      rw [if_neg ordinary] at reads
      cases parent : linked.superClass? with
      | some owner =>
        have facts := (reads owner (by simp [parent])).toSameFacts
        simp only [Option.map_some, classRef_reindex facts]
      | none => rfl

section Methods

variable (reads : ∀ owner ∈ methodReads context.config linked method,
  context.SameReads index owner)

include reads

/-- A method takes the same from the parent of its class under an index that agrees in what the
code of the method reads. -/
theorem parentUse_eq_of_reads (usesSuper : Bool) :
    (context.reindex index).parentUse linked usesSuper method.body.callsSuper =
      context.parentUse linked usesSuper method.body.callsSuper := by
  have parent : (context.reindex index).parentRef linked = context.parentRef linked :=
    parentRef_eq_of_reads (fun owner found => reads owner (by simp [methodReads, found]))
  have target : method.body.callsSuper = true →
      (context.reindex index).superTarget ⟨.this, (context.parentRef linked).value, usesSuper⟩ =
        context.superTarget ⟨.this, (context.parentRef linked).value, usesSuper⟩ := by
    intro makes
    unfold superTarget
    cases found : (context.parentRef linked).value with
    | some tree => rfl
    | none =>
      have base : HostNames.hasParent context.config linked = false := by
        rw [← parentRef_isSome, found]
        rfl
      have root := reads .root (by simp [methodReads, makes, base])
      rw [classRef_reindex root.toSameFacts]
  unfold parentUse
  rw [parent]
  refine Tracked.ext' ?_ rfl
  cases makes : method.body.callsSuper with
  | true => simp only [Tracked.map_value', target makes]
  | false => rfl

/-- A method has the same code under an index that agrees in what the code reads. -/
theorem methodCode_eq_of_reads :
    (context.reindex index).freeFunction linked method = context.freeFunction linked method ∧
      (context.reindex index).memberMethod linked method = context.memberMethod linked method := by
  have self := (reads linked.name List.mem_cons_self).toSameFacts
  have named : ∀ owner ∈ method.body.classes, context.SameReads index owner :=
    fun owner found => reads owner (by simp [methodReads, found])
  exact ⟨freeFunction_reindex rfl named (parentUse_eq_of_reads reads false),
    memberMethod_reindex rfl self named (parentUse_eq_of_reads reads _)⟩

end Methods

/-- The version of the facts about other classes that a method is linked by. -/
def methodLinkage (context : Context) (linked : LinkedClass) (method : MethodDef) : Version :=
  context.index.linkageVersion (methodClasses linked method).toList

/-- The version of a method combines its own version with its linkage. -/
theorem methodVersion_eq (context : Context) (linked : LinkedClass)
    (method : Versioned MethodDef) :
    context.methodVersion linked method =
      .combine [method.version, context.methodLinkage linked method.value] := rfl

/-- Programs with the same linkage of a method have the same code for it, as free function and as
member, if they also agree in the facts that the code reads about classes outside of the linkage. -/
theorem methodCode_of_linkage (context : Context) (linked : LinkedClass) (method : MethodDef)
    {program other : Program} (accepted : program.validate = .ok ())
    (valid : other.validate = .ok ())
    (natives : ∀ name, (ClassIndex.ofProgram program).nativeLoadSpec? name =
      (ClassIndex.ofProgram other).nativeLoadSpec? name)
    (apart : Version.Distinguished
      ((ClassIndex.ofProgram program).linkageParts (methodClasses linked method).toList)
      ((ClassIndex.ofProgram other).linkageParts (methodClasses linked method).toList))
    (same : ((context.reindex (.ofProgram program)).methodLinkage linked method).isSame
      ((context.reindex (.ofProgram other)).methodLinkage linked method) = true)
    (covered : ∀ owner ∈ methodReads context.config linked method,
      owner ∉ methodClasses linked method →
        (ClassIndex.ofProgram program).linkageText owner =
          (ClassIndex.ofProgram other).linkageText owner)
    (rooted : .root ∈ methodReads context.config linked method →
      (program.modules = [] ↔ other.modules = [])) :
    (context.reindex (.ofProgram other)).freeFunction linked method =
        (context.reindex (.ofProgram program)).freeFunction linked method ∧
      (context.reindex (.ofProgram other)).memberMethod linked method =
        (context.reindex (.ofProgram program)).memberMethod linked method := by
  have agree := ClassIndex.SameNatives.of_forall natives
  obtain ⟨roots, linkage⟩ := ClassIndex.sameFacts_of_linkageVersion agree apart same
  have reads : ∀ owner ∈ methodReads (context.reindex (.ofProgram program)).config linked method,
      (context.reindex (.ofProgram program)).SameReads (.ofProgram other) owner := by
    refine fun owner found => ⟨?_, ?_⟩
    · by_cases within : owner ∈ methodClasses linked method
      · exact linkage owner within
      · exact ClassIndex.sameFacts_of_linkageText agree (covered owner found within)
    · rintro rfl
      refine ClassIndex.rootModule?_eq ?_ roots
      exact (ClassIndex.rootModule?_eq_none_iff accepted).trans
        ((rooted found).trans (ClassIndex.rootModule?_eq_none_iff valid).symm)
  exact methodCode_eq_of_reads reads

end Lowering.Context

/-- Indexes agree in the places of the host if no class has one. -/
theorem ClassIndex.natives_eq {first second : ClassIndex}
    (here : ∀ entry ∈ first.entries, entry.2.nativeLoadSpec? = none)
    (there : ∀ entry ∈ second.entries, entry.2.nativeLoadSpec? = none) (name : ClassName) :
    first.nativeLoadSpec? name = second.nativeLoadSpec? name := by
  have none : ∀ {index : ClassIndex}, (∀ entry ∈ index.entries, entry.2.nativeLoadSpec? = none) →
      index.nativeLoadSpec? name = none := by
    intro index absent
    unfold nativeLoadSpec? get?
    cases known : index.entries.lookup name with
    | none => rfl
    | some info =>
      obtain ⟨before, after, found, -⟩ := List.lookup_eq_some_iff.1 known
      exact absent (name, info) (by simp [found])
  rw [none here, none there]

/-- A foreign class whose parent is a class of another module that is no ancestor, and whose only
method calls that of the parent. -/
def guestClass : LinkedClass :=
  { ((LinkedClass.start ⟨"app.J"⟩ .jsClass).extend .root).addPublicMethod ⟨"run"⟩
      (.applySuper ⟨"run"⟩ []) with
    jsSuperClass? := some (.loadJsConstructor ⟨"app.K"⟩) }

/-- The only method of the foreign class. -/
def guestMethod : MethodDef := ⟨⟨"run"⟩, .instancePublic, [], .applySuper ⟨"run"⟩ []⟩

/-- A program of the foreign class, the module of its parent, and other classes in that module. -/
def guestProgram (home : ModuleId) (others : List LinkedClass) : Program :=
  ⟨[{ (Module.start ⟨"main"⟩).dependOn home with
      isRoot := true, classes := [.start .root .plain, guestClass] },
    { Module.start home with classes := .start ⟨"app.K"⟩ .jsClass :: others }]⟩

/-- Generation of modules with imports, for the module of the foreign class. -/
def guestContext : Context :=
  ⟨{ Config.standard with moduleKind := .esModule }, default, default, .standard, ⟨"main"⟩⟩

/-- Another class next to the parent does not change the code of the method. -/
theorem Lowering.Context.methodCode_of_linkage_guest :
    let first := guestProgram ⟨"lib"⟩ []
    let second := guestProgram ⟨"lib"⟩ [.start ⟨"app.L"⟩ .plain]
    (guestContext.reindex (.ofProgram second)).freeFunction guestClass guestMethod =
        (guestContext.reindex (.ofProgram first)).freeFunction guestClass guestMethod ∧
      (guestContext.reindex (.ofProgram second)).memberMethod guestClass guestMethod =
        (guestContext.reindex (.ofProgram first)).memberMethod guestClass guestMethod := by
  intro first second
  have parts : (ClassIndex.ofProgram first).linkageParts
        (methodClasses guestClass guestMethod).toList =
      (ClassIndex.ofProgram second).linkageParts
        (methodClasses guestClass guestMethod).toList := by decide +kernel
  have accepted : first.validate = .ok () := by decide +kernel
  have valid : second.validate = .ok () := by decide +kernel
  have facts : ∀ owner ∈ methodReads guestContext.config guestClass guestMethod,
      (ClassIndex.ofProgram first).linkageText owner =
        (ClassIndex.ofProgram second).linkageText owner := by decide +kernel
  exact methodCode_of_linkage guestContext guestClass guestMethod accepted valid
    (ClassIndex.natives_eq (by decide +kernel) (by decide +kernel))
    (parts ▸ .of_eq (by decide +kernel))
    (Version.isSame_of_eq (congrArg Version.fingerprintParts parts) rfl)
    (fun owner read _ => facts owner read) (fun _ => by decide)

/-- The method calls its parent elsewhere once the parent has moved, although the linkage of the
method stays the same. -/
theorem Lowering.Context.methodCode_moves_guest :
    let first := guestProgram ⟨"lib"⟩ []
    let second := guestProgram ⟨"host"⟩ []
    first.validate = .ok () ∧ second.validate = .ok () ∧
      (∀ name, (ClassIndex.ofProgram first).nativeLoadSpec? name =
        (ClassIndex.ofProgram second).nativeLoadSpec? name) ∧
      ((guestContext.reindex (.ofProgram first)).methodLinkage guestClass guestMethod).isSame
        ((guestContext.reindex (.ofProgram second)).methodLinkage guestClass guestMethod) = true ∧
      (guestContext.reindex (.ofProgram second)).freeFunction guestClass guestMethod ≠
        (guestContext.reindex (.ofProgram first)).freeFunction guestClass guestMethod := by
  intro first second
  have parts : (ClassIndex.ofProgram first).linkageParts
        (methodClasses guestClass guestMethod).toList =
      (ClassIndex.ofProgram second).linkageParts
        (methodClasses guestClass guestMethod).toList := by decide +kernel
  refine ⟨by decide +kernel, by decide +kernel,
    ClassIndex.natives_eq (by decide +kernel) (by decide +kernel),
    Version.isSame_of_eq (congrArg Version.fingerprintParts parts) rfl, fun same => ?_⟩
  have imports := congrArg (fun code => code.value.references "$j_host") same
  exact absurd imports (by decide +kernel)

end JsEmitter
