import JsEmitter.Proofs.Subjects

/-!
# Requests for names

Two definitions at top level have the same name only if they would have it without any assumed
names. The number that avoids a clash can be told from the name before it, because no name that the
scheme makes ends like a numbered one. `requests_apart` is the main statement.
-/
namespace JsEmitter.Naming

/-- The names of definitions of the bootstrap library, without their dollars. -/
def bootstrapNames : List String :=
  "throwClassCastException" :: "TypeData" ::
    Lowering.primitiveTypes.map (fun type => "d_" ++ type.suffix)

/-- What the naming scheme is asked for: the name of a definition at top level. -/
inductive Request where
  | classConstructor (owner : ClassName)
  | classHelper (owner : ClassName)
  | freeFunction (home : MemberNamespace) (owner : ClassName) (method : MethodName)
  | staticField (owner : ClassName) (field : FieldName)
  | instanceTest (owner : ClassName)
  | instanceCast (owner : ClassName)
  | typeData (owner : ClassName)
  | moduleAccessor (owner : ClassName)
  | moduleInstance (owner : ClassName)
  | exportBinding (name : String)
  | externalImport (source : String)
  | internalImport (id : ModuleId)
  | bootstrap (name : String) (listed : name ∈ bootstrapNames)

namespace Request

/-- The name that the scheme gives. -/
def name (naming : Naming) : Request → String
  | classConstructor owner => naming.classConstructor owner
  | classHelper owner => naming.classHelper owner
  | freeFunction home owner method => naming.freeFunction home owner method
  | staticField owner field => naming.staticField owner field
  | instanceTest owner => naming.instanceTest owner
  | instanceCast owner => naming.instanceCast owner
  | typeData owner => naming.typeData owner
  | moduleAccessor owner => naming.moduleAccessor owner
  | moduleInstance owner => naming.moduleInstance owner
  | exportBinding name => naming.exportBinding name
  | externalImport source => naming.externalImport source
  | internalImport id => naming.internalImport id
  | bootstrap name _ => naming.bootstrap name

/-- The name without a number, which the scheme gives if no name is assumed. -/
def stem (request : Request) : String := request.name ⟨∅⟩

/-- The name that is given on a request avoids the assumed names, from the stem of the request
on. -/
theorem name_eq (naming : Naming) (request : Request) :
    request.name naming = naming.avoidClash request.stem := by
  cases request <;> rfl

/-- The name that is asked for is one of a subject, so it does not end like a numbered one. -/
theorem stem_unnumbered (request : Request) : Unnumbered request.stem.toList := by
  have named : ∃ subject : Subject, subject.definer = .generated request.stem := by
    cases request with
    | classConstructor owner => exact ⟨.single .constructor owner.text, rfl⟩
    | classHelper owner => exact ⟨.single .helper owner.text, rfl⟩
    | freeFunction home owner method => exact ⟨.member (.method home) owner method.text, rfl⟩
    | staticField owner field => exact ⟨.member .staticField owner field.text, rfl⟩
    | instanceTest owner => exact ⟨.single .test owner.text, rfl⟩
    | instanceCast owner => exact ⟨.single .cast owner.text, rfl⟩
    | typeData owner => exact ⟨.single .typeData owner.text, rfl⟩
    | moduleAccessor owner => exact ⟨.single .accessor owner.text, rfl⟩
    | moduleInstance owner => exact ⟨.single .singleton owner.text, rfl⟩
    | exportBinding name => exact ⟨.single .binding name, rfl⟩
    | externalImport source => exact ⟨.single .externalImport source, rfl⟩
    | internalImport id => exact ⟨.single .internalImport id.text, rfl⟩
    | bootstrap name listed =>
      simp only [bootstrapNames, Lowering.primitiveTypes, List.map_cons, List.map_nil,
        List.mem_cons, List.not_mem_nil, or_false] at listed
      rcases listed with rfl | rfl | rfl | rfl | rfl
      · exact ⟨.castFailure, rfl⟩
      · exact ⟨.typeDataClass, rfl⟩
      · exact ⟨.single .typeData "I", rfl⟩
      · exact ⟨.single .typeData "Z", rfl⟩
      · exact ⟨.single .typeData "D", rfl⟩
  obtain ⟨subject, generated⟩ := named
  exact (Subject.stem_unnumbered generated).1

end Request

/-- A name that avoids clashes is the first one, of the name itself and the numbered ones in turn,
that is not assumed. Two requests get the same name only if they would get the same name without
any assumed names, so a name that gives way to one of the host never meets another generated one. -/
theorem requests_apart (naming : Naming) :
    (∀ name, ∃ number ≤ naming.assumed.size,
      naming.avoidClash name = candidate name number ∧
        candidate name number ∉ naming.assumed ∧
        ∀ earlier < number, candidate name earlier ∈ naming.assumed) ∧
    ∀ first second : Request,
      first.name naming = second.name naming ↔ first.stem = second.stem := by
  refine ⟨naming.avoidClash_first, fun first second => ?_⟩
  rw [first.name_eq, second.name_eq]
  constructor
  · exact naming.avoidClash_injective first.stem_unnumbered second.stem_unnumbered
  · exact congrArg naming.avoidClash

end JsEmitter.Naming
