import JsEmitter.Js.Walk

/-!
# Variables of trees

A tree is within some names if all variables that it refers to have one of them. For every shape of
a tree this is a question about its parts.
-/
namespace JsEmitter.Js

namespace Tree

/-- Whether all variables that a tree refers to have one of some names. -/
def Within (names : String → Prop) (tree : Tree) : Prop :=
  ∀ name, tree.references name = true → names name

/-- Whether the variables among some visited trees have one of some names. -/
def Seen (names : String → Prop) (visits : List Tree) : Prop :=
  ∀ name, varRef name ∈ visits → names name

/-- A tree refers to a variable if the walk visits a reference to it. -/
theorem references_iff {tree : Tree} {name : String} :
    tree.references name = true ↔ varRef name ∈ tree.visited := by
  rw [references, List.any_eq_true]
  constructor
  · rintro ⟨visit, found, here⟩
    cases visit with
    | varRef other =>
      obtain rfl : other = name := by simpa [isReferenceTo] using here
      exact found
    | _ => cases here
  · exact fun found => ⟨_, found, by simp [isReferenceTo]⟩

/-- A tree refers to a variable unless it is within all other names. -/
theorem references_of_not_within {tree : Tree} {name : String}
    (outside : ¬tree.Within (· ≠ name)) : tree.references name = true := by
  cases refers : tree.references name with
  | true => rfl
  | false =>
    refine absurd (fun other there same => ?_) outside
    rw [same, refers] at there
    cases there

variable {names : String → Prop}

/-- A walk over a tree sees some names alone if the tree refers to these alone. -/
theorem seen_visited {tree : Tree} : Seen names tree.visited ↔ tree.Within names := by
  simp only [Seen, Within, references_iff]

/-- Nothing is seen where no tree is visited. -/
@[simp] theorem seen_nil : Seen names [] := by simp [Seen]

/-- Two sequences of visits see some names alone if each of them does. -/
@[simp] theorem seen_append {left right : List Tree} :
    Seen names (left ++ right) ↔ Seen names left ∧ Seen names right := by
  simp only [Seen, List.mem_append, or_imp, forall_and]

/-- A walk over trees sees some names alone if each tree refers to these alone. -/
theorem seen_visitedAll {trees : List Tree} :
    Seen names (visitedAll trees) ↔ ∀ tree ∈ trees, tree.Within names := by
  induction trees with
  | nil => exact ⟨fun _ => by simp, fun _ => seen_nil⟩
  | cons head rest ih =>
    change Seen names (head.visited ++ visitedAll rest) ↔ _
    rw [seen_append, seen_visited, ih, List.forall_mem_cons]

/-- A walk over an optional tree sees some names alone if the tree, where present, does. -/
theorem seen_visitedOption {tree? : Option Tree} :
    Seen names (visitedOption tree?) ↔ ∀ tree ∈ tree?, tree.Within names := by
  cases tree? with
  | none => exact ⟨fun _ => by simp, fun _ => seen_nil⟩
  | some tree =>
    change Seen names tree.visited ↔ _
    simp [seen_visited]

/-- A walk over properties sees some names alone if their values do. -/
theorem seen_visitedProperties {properties : List Property} :
    Seen names (visitedProperties properties) ↔
      ∀ name value, .mk name value ∈ properties → value.Within names := by
  induction properties with
  | nil => exact ⟨fun _ => by simp, fun _ => seen_nil⟩
  | cons head rest ih =>
    obtain ⟨name, value⟩ := head
    change Seen names (value.visited ++ visitedProperties rest) ↔ _
    rw [seen_append, seen_visited, ih]
    constructor
    · rintro ⟨here, others⟩ other item found
      rcases List.mem_cons.1 found with same | later
      · cases same
        exact here
      · exact others other item later
    · exact fun all => ⟨all name value List.mem_cons_self,
        fun other item found => all other item (List.mem_cons_of_mem _ found)⟩

/-- A tree that is no variable is within some names if what the walk visits after it is. -/
theorem within_of_visited {tree : Tree} {rest : List Tree} (visits : tree.visited = tree :: rest)
    (other : ∀ name, tree.isReferenceTo name = false) : tree.Within names ↔ Seen names rest := by
  have apart : ∀ name, varRef name ≠ tree := by
    rintro name rfl
    simpa [isReferenceTo] using other name
  rw [← seen_visited, visits]
  simp only [Seen, List.mem_cons, apart, false_or]

section Shapes

variable {first second third : Tree} {trees : List Tree}

/-- A variable refers to its own name. -/
@[simp] theorem within_varRef {name : String} : (varRef name).Within names ↔ names name := by
  rw [← seen_visited]
  change Seen names [varRef name] ↔ _
  simp [Seen]

/-- The empty statement refers to no variable. -/
@[simp] theorem within_skip : skip.Within names := (within_of_visited rfl (fun _ => rfl)).2 seen_nil

/-- The receiver is no variable. -/
@[simp] theorem within_this : this.Within names := (within_of_visited rfl (fun _ => rfl)).2 seen_nil

/-- The parent of the receiver is no variable. -/
@[simp] theorem within_super : super.Within names :=
  (within_of_visited rfl (fun _ => rfl)).2 seen_nil

/-- The undefined value is no variable. -/
@[simp] theorem within_undefined : undefined.Within names :=
  (within_of_visited rfl (fun _ => rfl)).2 seen_nil

/-- The null value is no variable. -/
@[simp] theorem within_null : null.Within names := (within_of_visited rfl (fun _ => rfl)).2 seen_nil

/-- A boolean refers to no variable. -/
@[simp] theorem within_bool (value : Bool) : (bool value).Within names :=
  (within_of_visited rfl (fun _ => rfl)).2 seen_nil

/-- An integer refers to no variable. -/
@[simp] theorem within_int (value : Int32) : (int value).Within names :=
  (within_of_visited rfl (fun _ => rfl)).2 seen_nil

/-- A floating-point number refers to no variable. -/
@[simp] theorem within_double (value : Double) : (double value).Within names :=
  (within_of_visited rfl (fun _ => rfl)).2 seen_nil

/-- A string refers to no variable. -/
@[simp] theorem within_str (value : String) : (str value).Within names :=
  (within_of_visited rfl (fun _ => rfl)).2 seen_nil

/-- An import defines a variable and refers to none. -/
@[simp] theorem within_importNamespace (binding source : String) :
    (importNamespace binding source).Within names :=
  (within_of_visited rfl (fun _ => rfl)).2 seen_nil

/-- The names in an export statement do not count as references. -/
@[simp] theorem within_exportNames (pairs : List (String × String)) :
    (exportNames pairs).Within names :=
  (within_of_visited rfl (fun _ => rfl)).2 seen_nil

/-- A block refers to what its statements refer to. -/
@[simp] theorem within_block :
    (block trees).Within names ↔ ∀ tree ∈ trees, tree.Within names :=
  (within_of_visited rfl (fun _ => rfl)).trans seen_visitedAll

/-- A variable definition refers to what its value refers to. -/
@[simp] theorem within_varDef (kind : DeclKind) (name : String) (value? : Option Tree) :
    (varDef kind name value?).Within names ↔ ∀ value ∈ value?, value.Within names :=
  (within_of_visited rfl (fun _ => rfl)).trans seen_visitedOption

/-- A function definition refers to what its body refers to. -/
@[simp] theorem within_functionDef (name : String) (params : List String) (rest? : Option String) :
    (functionDef name params rest? first).Within names ↔ first.Within names :=
  (within_of_visited rfl (fun _ => rfl)).trans seen_visited

/-- A function refers to what its body refers to. -/
@[simp] theorem within_function (params : List String) :
    (function params first).Within names ↔ first.Within names :=
  (within_of_visited rfl (fun _ => rfl)).trans seen_visited

/-- A class refers to what its parent and its members refer to. -/
@[simp] theorem within_classDef (name : String) (parent? : Option Tree) :
    (classDef name parent? trees).Within names ↔
      (∀ parent ∈ parent?, parent.Within names) ∧ ∀ tree ∈ trees, tree.Within names := by
  rw [within_of_visited rfl (fun _ => rfl), seen_append, seen_visitedOption, seen_visitedAll]

/-- A method refers to what its body refers to. -/
@[simp] theorem within_methodDef_ident (isStatic : Bool) (name : String) (params : List String)
    (rest? : Option String) :
    (methodDef isStatic (.ident name) params rest? first).Within names ↔ first.Within names :=
  (within_of_visited rfl (fun _ => rfl)).trans seen_visited

/-- A method whose name is a string refers to what its body refers to. -/
@[simp] theorem within_methodDef_str (isStatic : Bool) (text : String) (params : List String)
    (rest? : Option String) :
    (methodDef isStatic (.str text) params rest? first).Within names ↔ first.Within names :=
  (within_of_visited rfl (fun _ => rfl)).trans seen_visited

/-- A getter counts as referring to what its body refers to, whatever its name. -/
@[simp] theorem within_getterDef (isStatic : Bool) (name : PropName) :
    (getterDef isStatic name first).Within names ↔ first.Within names :=
  (within_of_visited rfl (fun _ => rfl)).trans seen_visited

/-- A setter counts as referring to what its body refers to, whatever its name. -/
@[simp] theorem within_setterDef (isStatic : Bool) (name : PropName) (param : String) :
    (setterDef isStatic name param first).Within names ↔ first.Within names :=
  (within_of_visited rfl (fun _ => rfl)).trans seen_visited

/-- An assignment refers to what its two sides refer to. -/
@[simp] theorem within_assign :
    (assign first second).Within names ↔ first.Within names ∧ second.Within names := by
  rw [within_of_visited rfl (fun _ => rfl), seen_append, seen_visited, seen_visited]

/-- A return refers to what its value refers to. -/
@[simp] theorem within_ret : (ret first).Within names ↔ first.Within names :=
  (within_of_visited rfl (fun _ => rfl)).trans seen_visited

/-- A branch refers to what its condition and its two alternatives refer to. -/
@[simp] theorem within_branch : (branch first second third).Within names ↔
    first.Within names ∧ second.Within names ∧ third.Within names := by
  rw [within_of_visited rfl (fun _ => rfl), seen_append, seen_append, seen_visited, seen_visited,
    seen_visited, and_assoc]

/-- A throw refers to what its value refers to. -/
@[simp] theorem within_raise : (raise first).Within names ↔ first.Within names :=
  (within_of_visited rfl (fun _ => rfl)).trans seen_visited

/-- A selected member refers to what its qualifier refers to. -/
@[simp] theorem within_dotSelect (item : String) :
    (dotSelect first item).Within names ↔ first.Within names :=
  (within_of_visited rfl (fun _ => rfl)).trans seen_visited

/-- A computed selection refers to what its qualifier and its item refer to. -/
@[simp] theorem within_bracketSelect :
    (bracketSelect first second).Within names ↔ first.Within names ∧ second.Within names := by
  rw [within_of_visited rfl (fun _ => rfl), seen_append, seen_visited, seen_visited]

/-- An application refers to what its callee and its arguments refer to. -/
@[simp] theorem within_apply : (apply first trees).Within names ↔
    first.Within names ∧ ∀ tree ∈ trees, tree.Within names := by
  rw [within_of_visited rfl (fun _ => rfl), seen_append, seen_visited, seen_visitedAll]

/-- A construction refers to what its class and its arguments refer to. -/
@[simp] theorem within_new : (new first trees).Within names ↔
    first.Within names ∧ ∀ tree ∈ trees, tree.Within names := by
  rw [within_of_visited rfl (fun _ => rfl), seen_append, seen_visited, seen_visitedAll]

/-- A spread argument refers to what its value refers to. -/
@[simp] theorem within_spread : (spread first).Within names ↔ first.Within names :=
  (within_of_visited rfl (fun _ => rfl)).trans seen_visited

/-- A unary operation refers to what its operand refers to. -/
@[simp] theorem within_unary (operator : String) :
    (unary operator first).Within names ↔ first.Within names :=
  (within_of_visited rfl (fun _ => rfl)).trans seen_visited

/-- A binary operation refers to what its operands refer to. -/
@[simp] theorem within_binary (operator : String) :
    (binary operator first second).Within names ↔ first.Within names ∧ second.Within names := by
  rw [within_of_visited rfl (fun _ => rfl), seen_append, seen_visited, seen_visited]

/-- An object literal counts as referring to what its values refer to, whatever the names. -/
@[simp] theorem within_objectLiteral (properties : List Property) :
    (objectLiteral properties).Within names ↔
      ∀ name value, .mk name value ∈ properties → value.Within names :=
  (within_of_visited rfl (fun _ => rfl)).trans seen_visitedProperties

/-- The statements that a tree contributes to a block are within the same names. -/
theorem within_statements :
    (∀ tree ∈ first.statements, tree.Within names) ↔ first.Within names := by
  cases first <;> simp [statements]

/-- A block is within some names if its statements are. -/
@[simp] theorem within_ofStatements :
    (ofStatements trees).Within names ↔ ∀ tree ∈ trees, tree.Within names := by
  have each : (∀ tree ∈ trees.flatMap statements, tree.Within names) ↔
      ∀ tree ∈ trees, tree.Within names := by
    simp only [List.forall_mem_flatMap, within_statements]
  rw [← each, ofStatements]
  cases trees.flatMap statements with
  | nil => simp
  | cons head rest => cases rest <;> simp

end Shapes

end Tree

end JsEmitter.Js
