import JsEmitter.Linked.Program

/-!
# Well-formed programs

Emission needs distinct module ids, exactly one root module unless there are no modules, only
known dependencies, ancestor lists that start with the class itself, and distinct class names.
`Program.validate` reports the first rule that is broken: first the ids, then the roots, then
the modules in order, each with its dependencies before its classes.
-/
namespace JsEmitter

/-- The rule of well-formed programs that is broken, and where. -/
inductive ProgramError where
  | duplicateModule (id : ModuleId)
  | missingRoot
  | severalRoots (ids : List ModuleId)
  | unknownDependency (unit dependency : ModuleId)
  | duplicateClass (name : ClassName) (first second : ModuleId)
  | malformedAncestors (name : ClassName)
deriving DecidableEq

/-- The text of an error. -/
def ProgramError.message : ProgramError → String
  | duplicateModule id => "Duplicate module id: " ++ id.text
  | missingRoot => "Module set has no root module"
  | severalRoots ids =>
    "Module set has several root modules: " ++ ", ".intercalate (ids.map Name.text)
  | unknownDependency unit dependency =>
    "Module '" ++ unit.text ++ "' depends on unknown module '" ++ dependency.text ++ "'"
  | duplicateClass name first second =>
    "Class '" ++ name.text ++ "' appears in both '" ++ first.text ++ "' and '" ++ second.text ++
      "'"
  | malformedAncestors name =>
    "Ancestors of class '" ++ name.text ++ "' must start with the class itself"

/-- The first element of a list that stands in it before or in a list of earlier ones. -/
def firstRepeated? {α : Type} [DecidableEq α] (earlier : List α) : List α → Option α
  | [] => none
  | head :: rest => if head ∈ earlier then some head else firstRepeated? (head :: earlier) rest

/-- No element is repeated exactly when the list has distinct elements, none of them earlier. -/
theorem firstRepeated?_eq_none_iff {α : Type} [DecidableEq α] {earlier list : List α} :
    firstRepeated? earlier list = none ↔ list.Nodup ∧ ∀ element ∈ list, element ∉ earlier := by
  induction list generalizing earlier with
  | nil => simp [firstRepeated?]
  | cons head rest ih =>
    unfold firstRepeated?
    split
    · rename_i found
      simp [found]
    · rename_i fresh
      rw [ih, List.nodup_cons]
      constructor
      · rintro ⟨distinct, apart⟩
        refine ⟨⟨fun found => ?_, distinct⟩, fun element found => ?_⟩
        · exact apart head found List.mem_cons_self
        · rcases List.mem_cons.1 found with rfl | later
          · exact fresh
          · exact fun before => apart element later (List.mem_cons_of_mem _ before)
      · rintro ⟨⟨absent, distinct⟩, apart⟩
        refine ⟨distinct, fun element found before => ?_⟩
        rcases List.mem_cons.1 before with rfl | later
        · exact absent found
        · exact apart element (List.mem_cons_of_mem _ found) later

namespace Program

/-- The ids of the modules, in order. -/
def ids (program : Program) : List ModuleId := program.modules.map Module.id

/-- The ids of the modules that are marked as root, in order. -/
def rootIds (program : Program) : List ModuleId :=
  (program.modules.filter Module.isRoot).map Module.id

/-- Check that no id is repeated. -/
def checkIds (program : Program) : Except ProgramError Unit :=
  match firstRepeated? [] program.ids with
  | some id => .error (.duplicateModule id)
  | none => .ok ()

/-- Check that there is one root, or no module. -/
def checkRoots (program : Program) : Except ProgramError Unit :=
  match program.rootIds with
  | [] => if program.modules.isEmpty then .ok () else .error .missingRoot
  | [_] => .ok ()
  | ids => .error (.severalRoots ids)

/-- Check one class of a module against the owners of earlier classes, and add its owner. -/
def checkClass (unit : ModuleId) (owners : List (ClassName × ModuleId)) (linked : LinkedClass) :
    Except ProgramError (List (ClassName × ModuleId)) :=
  if linked.ancestors.head? = some linked.name then
    match owners.lookup linked.name with
    | some first => .error (.duplicateClass linked.name first unit)
    | none => .ok ((linked.name, unit) :: owners)
  else .error (.malformedAncestors linked.name)

/-- Check the dependencies and then the classes of one module. -/
def checkModule (ids : List ModuleId) (owners : List (ClassName × ModuleId)) (unit : Module) :
    Except ProgramError (List (ClassName × ModuleId)) :=
  match unit.internalDependencies.toList.find? (fun dependency => !ids.contains dependency) with
  | some dependency => .error (.unknownDependency unit.id dependency)
  | none => unit.classes.foldlM (checkClass unit.id) owners

/-- Check the rules of well-formed programs. -/
def validate (program : Program) : Except ProgramError Unit := do
  program.checkIds
  program.checkRoots
  discard (program.modules.foldlM (checkModule program.ids) [])

end Program

end JsEmitter
