import JsEmitter.Proofs.PieceHosts

/-!
# Names that generated statements define

A statement at top level defines at most one name. Where the naming scheme has made this name, it
comes from a stem that starts with a dollar; only the variables that a script exports have the
names that the program gives them. The marks of a piece say for each of its statements which of
the two it is, if any. Marks do not depend on the naming scheme, so neither does the number of
statements.
-/
namespace JsEmitter

open Js (Tree)
open Lowering (Context Scope ConstructorParts Bootstrap)

/-- How a definition at top level gets its name. -/
inductive Definer where
  /-- From a stem, by the naming scheme. -/
  | generated (stem : String)
  /-- From the program: the variable of an export of a script. -/
  | exported (name : String)
deriving DecidableEq

/-- The name that a definition gets. -/
def Definer.name (naming : Naming) : Definer → String
  | generated stem => naming.avoidClash stem
  | exported name => name

/-- For each statement the definition that it is, if it is one. -/
abbrev Marks : Type := List (Option Definer)

/-- The definitions among the statements. -/
def Marks.definers (marks : Marks) : List Definer := marks.filterMap id

/-- Whether marks say which names the statements define. -/
def Marks.Fit (naming : Naming) (marks : Marks) (trees : List Tree) : Prop :=
  trees.map Tree.definedName? = marks.map (Option.map (Definer.name naming))

namespace Marks

variable {naming : Naming}

/-- No marks fit no statements. -/
theorem Fit.nil : Fit naming [] [] := rfl

/-- Marks of two parts fit if each part does. -/
theorem Fit.append {left right : Marks} {leftTrees rightTrees : List Tree}
    (first : left.Fit naming leftTrees) (second : right.Fit naming rightTrees) :
    Fit naming (left ++ right) (leftTrees ++ rightTrees) := by
  unfold Fit at *
  simp [first, second]

/-- A mark in front fits if it tells what the first statement defines. -/
theorem Fit.cons {mark : Option Definer} {marks : Marks} {tree : Tree} {trees : List Tree}
    (first : tree.definedName? = mark.map (Definer.name naming)) (rest : marks.Fit naming trees) :
    Fit naming (mark :: marks) (tree :: trees) := by
  unfold Fit at *
  simp [first, rest]

/-- Marks of items fit if those of each item do. -/
theorem Fit.flatMap {α : Type} {items : List α} {marks : α → Marks} {trees : α → List Tree}
    (each : ∀ item ∈ items, (marks item).Fit naming (trees item)) :
    Fit naming (items.flatMap marks) (items.flatMap trees) := by
  induction items with
  | nil => exact .nil
  | cons head rest ih =>
    exact (each head List.mem_cons_self).append
      (ih (fun item found => each item (List.mem_cons_of_mem _ found)))

/-- Statements and their marks are equally many. -/
theorem Fit.isEmpty {marks : Marks} {trees : List Tree} (fit : marks.Fit naming trees) :
    trees.isEmpty = marks.isEmpty := by
  have lengths := congrArg List.length fit
  simp only [List.length_map] at lengths
  rw [Bool.eq_iff_iff, List.isEmpty_iff_length_eq_zero, List.isEmpty_iff_length_eq_zero, lengths]

/-- The defined names are those of the marks. -/
theorem Fit.definedNames {marks : Marks} {trees : List Tree} (fit : marks.Fit naming trees) :
    Tree.definedNames trees = marks.definers.map (Definer.name naming) := by
  have names := congrArg (List.filterMap id) fit
  simp only [List.filterMap_map] at names
  rw [definers, List.map_filterMap]
  exact names

end Marks

namespace PieceMarks

variable (config : Config)

/-- The mark of a definition that the naming scheme names. -/
def ofStem (stem : String) : Option Definer := some (.generated stem)

/-- The marks of an exported member. -/
def ofExportedMember : ExportedMember → Marks
  | .method .. => [none]
  | .property _ _ getter? setter? =>
    if config.classSyntax then
      (getter?.map (fun _ => none)).toList ++ (setter?.map (fun _ => none)).toList
    else [none]

/-- The marks of a piece of a class that depends on it alone. -/
def ofShellPart (linked : LinkedClass) : ShellPart → Marks
  | .moduleAccessor =>
    [ofStem (Naming.plainName "$n_" linked.name.text),
      ofStem (Naming.plainName "$m_" linked.name.text)]
  | .instanceTests =>
    [ofStem (Naming.plainName "$is_" linked.name.text),
      ofStem (Naming.plainName "$as_" linked.name.text)]
  | .typeData =>
    ofStem (Naming.plainName "$d_" linked.name.text) ::
      (if linked.kind.isClass && linked.hasInstances then [none] else [])
  | .staticFields =>
    linked.staticFields.map (fun field =>
      ofStem (Naming.memberName "$t_" linked.name field.name.text))
  | .staticInitializers => (linked.staticInitializer?.map (fun _ => none)).toList

/-- The marks of the imports of a module. -/
def ofImports (index : ClassIndex) (unit : Module) : Marks :=
  if config.moduleKind = .script then []
  else
    let internal := match index.rootModule? with
      | some root =>
        if root = unit.id then unit.internalDependencies else unit.internalDependencies.insert root
      | none => unit.internalDependencies
    internal.toList.map (fun id => ofStem (Naming.plainName "$j_" id.text)) ++
      unit.externalDependencies.toList.map (fun source => ofStem (Naming.plainName "$i_" source))

/-- Whether a definition of a class is referred to by its plain name. -/
def isLocal (index : ClassIndex) (home : ModuleId) (owner : ClassName) : Bool :=
  match index.owner? owner with
  | some other => other = home
  | none => true

/-- Whether a module with export declarations exports a value by its name. -/
def exportsReference (index : ClassIndex) (home : ModuleId) : ExportKind → Bool
  | .method .. => true
  | .singleton _ => false
  | .jsClass owner | .field owner _ => isLocal index home owner

/-- The marks of an export. -/
def ofExport (index : ClassIndex) (home : ModuleId) (entry : TopLevelExport) : Marks :=
  let binding := ofStem (Naming.plainName "$e_" entry.name)
  (match entry.kind with
    | .method .. => [binding]
    | _ => []) ++
  match config.moduleKind with
  | .esModule => if exportsReference index home entry.kind then [none] else [binding, none]
  | .commonJs => [none]
  | .script => [some (.exported entry.name)]

/-- The marks of a class definition with the marks of its members. -/
def ofDefinition (linked : LinkedClass) (hasParent : Bool) (members : Marks) : Marks :=
  let constructor := ofStem (Naming.plainName "$c_" linked.name.text)
  let helper := ofStem (Naming.plainName "$h_" linked.name.text)
  if config.classSyntax then [constructor]
  else
    constructor :: (if hasParent then [none, none] else []) ++
      (if linked.kind.isJsClass then [] else [helper, none]) ++ members

/-- The marks of the bootstrap library before the root class. -/
def beforeRoot : Marks := [ofStem "$throwClassCastException"]

/-- The marks of the bootstrap library after the root class. -/
def afterRoot : Marks :=
  ofStem "$TypeData" ::
    (if config.classSyntax then [] else Lowering.typeDataMethods.map (fun _ => none)) ++
    [ofStem (Naming.plainName "$is_" ClassName.root.text),
      ofStem (Naming.plainName "$as_" ClassName.root.text),
      ofStem (Naming.plainName "$d_" ClassName.root.text)]

/-- The marks of the bootstrap library after all classes. -/
def afterClasses : Marks :=
  Lowering.primitiveTypes.map (fun type => ofStem ("$" ++ ("d_" ++ type.suffix)))

end PieceMarks

namespace Lowering.Context

open PieceMarks

variable (context : Context)

/-- The marks of an exported member fit its trees. -/
theorem exportedMember_marks (linked : LinkedClass) (member : ExportedMember) :
    (ofExportedMember context.config member).Fit context.naming
      (context.exportedMember linked member).value := by
  unfold Marks.Fit ofExportedMember
  cases member with
  | method name isStatic params body =>
    by_cases modern : context.config.classSyntax = true <;>
      simp [exportedMember, exportedMethod, modern, Tree.definedName?]
  | property name isStatic getter? setter? =>
    by_cases modern : context.config.classSyntax = true <;>
      cases getter? <;> cases setter? <;>
        simp [exportedMember, lowerGetter, lowerSetter, exportedAccessors, definedProperty, modern,
          Tree.definedName?]

/-- The marks of a part of a class shell fit its trees. -/
theorem shellTrees_marks (linked : LinkedClass) (part : ShellPart) :
    (ofShellPart linked part).Fit context.naming (shellTrees context linked part).value := by
  unfold Marks.Fit
  cases part with
  | moduleAccessor => rfl
  | instanceTests => rfl
  | typeData =>
    by_cases linkable : linked.kind.isClass && linked.hasInstances <;>
      simp [ofShellPart, shellTrees, Tracked.untracked, typeData, linkable, Tree.definedName?,
        ofStem, Definer.name, Naming.typeData]
  | staticFields =>
    simp [ofShellPart, shellTrees, Tracked.untracked, staticFields, Function.comp_def,
      Tree.definedName?, ofStem, Definer.name, Naming.staticField]
  | staticInitializers =>
    cases found : linked.staticInitializer? <;>
      simp [ofShellPart, shellTrees, Tracked.untracked, staticInitializers, found,
        Tree.definedName?]

/-- An import defines the variable that it binds. -/
theorem importStatement_definedName (binding path : String) :
    (context.importStatement binding path).value.definedName? = some binding := by
  unfold importStatement
  cases context.config.moduleKind <;> rfl

/-- The marks of imports fit their statements. -/
theorem imports_marks (unit : Module) :
    (ofImports context.config context.index unit).Fit context.naming
      (context.imports unit).value := by
  unfold Marks.Fit imports ofImports
  by_cases script : context.config.moduleKind = .script
  · simp [script]
  · simp only [script, if_false, Tracked.mapM_value, List.map_map, Function.comp_def,
      importStatement_definedName]
    simp only [importBindings, importedModules, List.map_append, List.map_map]
    rfl

/-- A definition of a class is referred to by its plain name, or through an import. -/
theorem moduleExport_marks (owner : ClassName) (name binding visible : String)
    (modular : context.config.moduleKind = .esModule) :
    (if isLocal context.index context.home owner then [none]
      else [ofStem binding, none] : Marks).Fit context.naming
      (moduleExport (context.naming.avoidClash binding) visible
        (context.classMemberRef owner name)) := by
  unfold classMemberRef qualify isLocal
  cases context.index.owner? owner with
  | none => rfl
  | some other =>
    by_cases same : other = context.home
    · simp only [same, ne_eq, not_true_eq_false, false_and, if_false, decide_true, if_true]
      rfl
    · simp only [same, modular, ne_eq, not_false_eq_true, reduceCtorEq, and_self, if_true,
        decide_false, Bool.false_eq_true, if_false]
      rfl

/-- The marks of an export fit its statements. -/
theorem topLevelExport_marks (entry : TopLevelExport) :
    (ofExport context.config context.index context.home entry).Fit context.naming
      (context.topLevelExport entry).value := by
  unfold topLevelExport exportValue ofExport
  cases modules : context.config.moduleKind with
  | script => cases entry.kind <;> rfl
  | commonJs => cases entry.kind <;> rfl
  | esModule =>
    cases entry.kind with
    | method params body => rfl
    | singleton owner => rfl
    | jsClass owner => exact context.moduleExport_marks owner _ _ _ modules
    | field owner name => exact context.moduleExport_marks owner _ _ _ modules

/-- The marks of exports fit their statements. -/
theorem topLevelExports_marks (entries : List TopLevelExport) :
    Marks.Fit context.naming
      (entries.flatMap (ofExport context.config context.index context.home))
      (context.topLevelExports entries).value := by
  have flat : (context.topLevelExports entries).value =
      entries.flatMap (fun entry => (context.topLevelExport entry).value) := by
    simp [topLevelExports, List.flatMap_def]
  rw [flat]
  exact Marks.Fit.flatMap (fun entry _ => context.topLevelExport_marks entry)

/-- The statements that link a prototype to its parent define nothing. -/
theorem prototypeLink_marks (linked : LinkedClass) (name : String) (parent? : Option Tree) :
    Marks.Fit context.naming (if parent?.isSome then [none, none] else [])
      (context.prototypeLink linked name parent?).value := by
  cases parent? <;> rfl

/-- The marks of a helper function fit its statements, which foreign classes lack. -/
theorem helperDefinition_marks (linked : LinkedClass) (name : String) :
    Marks.Fit context.naming
      (if linked.kind.isJsClass then []
        else [ofStem (Naming.plainName "$h_" linked.name.text), none])
      (context.helperDefinition linked name) := by
  unfold helperDefinition
  split <;> rfl

/-- The marks of a class definition fit its statements, if those of its members fit. -/
theorem fullClass_marks (linked : LinkedClass) (ctor : ConstructorParts) {members : List Tree}
    {exported : List (List Tree)} {marks : Marks}
    (fit : marks.Fit context.naming (members ++ exported.flatten)) :
    (ofDefinition context.config linked ctor.parent?.isSome marks).Fit context.naming
      (context.fullClass linked ctor members exported).value := by
  unfold fullClass ofDefinition
  by_cases modern : context.config.classSyntax = true
  · simp only [modern, if_true]
    rfl
  · simp only [modern, Bool.false_eq_true, if_false, prototypeDefinition, Tracked.map_value']
    exact ((Marks.Fit.cons rfl (context.prototypeLink_marks linked _ _)).append
      (context.helperDefinition_marks linked _)).append fit

/-- Initializers define nothing. -/
theorem moduleInitializers_marks (calls : List Initializer) :
    Marks.Fit context.naming (calls.map (fun _ => none)) (context.moduleInitializers calls) := by
  simp [Marks.Fit, moduleInitializers, Function.comp_def, Tree.definedName?]

/-- The marks of the library before the root class fit its statements. -/
theorem beforeRoot_marks :
    beforeRoot.Fit context.naming context.bootstrap.value.beforeRoot := rfl

/-- The marks of the library after the root class fit its statements. -/
theorem afterRoot_marks :
    (afterRoot context.config).Fit context.naming context.bootstrap.value.afterRoot := by
  unfold Marks.Fit afterRoot
  by_cases modern : context.config.classSyntax = true
  · simp only [bootstrap, Tracked.map_value', typeDataDefinition, modern, if_true]
    rfl
  · simp only [bootstrap, Tracked.map_value', typeDataDefinition, modern]
    rfl

/-- The marks of the library after the other classes fit its statements. -/
theorem afterClasses_marks :
    afterClasses.Fit context.naming context.bootstrap.value.afterClasses := rfl

end Lowering.Context

end JsEmitter
