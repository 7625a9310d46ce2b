import JsEmitter.Proofs.JsonForms

/-!
# The form of expressions

Expressions of any depth are written and read without loss. Writing is followed by induction on the
expression, and reading by induction on the size of what is read; one equation says how each shape
is read from its parts.
-/
namespace JsEmitter

open Json (Lossless ReadsFinite listOf? string? name?)

namespace Literal

/-- The double of a literal. -/
def doubles : Literal → List Double
  | double value => [value]
  | undefined | null | boolean _ | int _ | string _ => []

/-- Literals are written and read without loss. -/
theorem lossless : Lossless toJson ofJson? .plain doubles where
  reads value := by
    cases value with
    | int value =>
      have low := value.le_toInt
      have high := value.toInt_lt
      simp [toJson, ofJson?, Json.int32?, Json.int?, Int32.toInt_maxValue]
      omega
    | _ => rfl
  named value := Layout.named_plain _
  inRange value finite := by
    cases value with
    | int value =>
      have low := value.le_toInt
      have high := value.toInt_lt
      simp [toJson]
      omega
    | double value => simpa [toJson, doubles] using finite
    | _ => simp [toJson]
  finite bound json value _ numbers found := by
    unfold ofJson? at found
    split at found
    · obtain ⟨flag, -, rfl⟩ := Option.map_eq_some_iff.1 found
      nofun
    · obtain ⟨number, -, rfl⟩ := Option.map_eq_some_iff.1 found
      nofun
    · next body _ =>
      obtain ⟨number, read, rfl⟩ := Option.map_eq_some_iff.1 found
      have content : body.inRange = true := by simpa using numbers
      simpa [doubles] using Json.isFinite_of_double? content read
    · obtain ⟨text, -, rfl⟩ := Option.map_eq_some_iff.1 found
      nofun
    · obtain ⟨name, among⟩ := Json.exists_mem_of_unitVariant? found
      simp only [unitVariants, List.mem_cons, Prod.mk.injEq, List.not_mem_nil, or_false] at among
      rcases among with ⟨-, rfl⟩ | ⟨-, rfl⟩ <;> nofun

end Literal

namespace Expr

mutual

/-- The doubles in an expression. -/
def doubles : Expr → List Double
  | literal value => value.doubles
  | skip | this | localVar _ | globalRef _ | loadModule _ | loadJsConstructor _
  | selectStatic _ _ => []
  | block statements => doublesOfAll statements
  | varDef _ value | ret value | raise value | unary _ value => doubles value
  | isInstanceOf value _ | asInstanceOf value _ => doubles value
  | select qualifier _ | jsSelect qualifier _ => doubles qualifier
  | assign target value => doubles target ++ doubles value
  | branch cond thenBranch elseBranch? =>
    doubles cond ++ doubles thenBranch ++ doublesOfOption elseBranch?
  | apply receiver _ args => doubles receiver ++ doublesOfAll args
  | applySuper _ args | applyStatic _ _ args | applyConstructor _ _ args | new _ _ args =>
    doublesOfAll args
  | jsCall function args => doubles function ++ doublesOfAll args
  | binary _ left right => doubles left ++ doubles right

/-- The doubles in a list of expressions. -/
def doublesOfAll : List Expr → List Double
  | [] => []
  | head :: rest => doubles head ++ doublesOfAll rest

/-- The doubles in an expression, if there is one. -/
def doublesOfOption : Option Expr → List Double
  | none => []
  | some expr => doubles expr

end

/-- The numbers of a list are those of its expressions in turn. -/
theorem doublesOfAll_eq_flatMap (exprs : List Expr) :
    doublesOfAll exprs = exprs.flatMap doubles := by
  induction exprs with
  | nil => simp [doublesOfAll]
  | cons head rest ih => simp [doublesOfAll, ih]

/-- The numbers of an optional expression are those of the expression. -/
theorem doublesOfOption_eq_flatMap (expr? : Option Expr) :
    doublesOfOption expr? = expr?.toList.flatMap doubles := by
  cases expr? <;> simp [doublesOfOption]

/-- How the shapes of expressions are read from their content. -/
def ofShape? (read : Json → Option Expr) (shape : String) (body : Json) : Option Expr :=
  let expr (key : String) : Option Expr := body.required? key read
  let args : Option (List Expr) := body.required? "args" (listOf? read)
  let text (key : String) : Option String := body.required? key string?
  let owner : Option ClassName := body.required? "class" name?
  let method (key : String) : Option MethodName := body.required? key name?
  let field : Option FieldName := body.required? "field" name?
  match shape with
  | "block" => return block (← body.listOf? read)
  | "var_def" => return varDef (← text "name") (← expr "rhs")
  | "assign" => return assign (← expr "lhs") (← expr "rhs")
  | "return" => return ret (← read body)
  | "if" => do
    let elseBranch? ← body.optional? "else_branch" read
    return branch (← expr "cond") (← expr "then_branch") elseBranch?
  | "throw" => return raise (← read body)
  | "literal" => return literal (← Literal.ofJson? body)
  | "local" => return localVar (← body.string?)
  | "global_ref" => return globalRef (← body.string?)
  | "apply" => return apply (← expr "receiver") (← method "method") (← args)
  | "apply_static" => return applyStatic (← owner) (← method "method") (← args)
  | "apply_super" => return applySuper (← method "method") (← args)
  | "apply_constructor" => return applyConstructor (← owner) (← method "ctor") (← args)
  | "new" => return new (← owner) (← method "ctor") (← args)
  | "load_module" => return loadModule (← body.name?)
  | "load_js_constructor" => return loadJsConstructor (← body.name?)
  | "select" => return select (← expr "qualifier") (← field)
  | "select_static" => return selectStatic (← owner) (← field)
  | "js_select" => return jsSelect (← expr "qualifier") (← text "property")
  | "js_call" => return jsCall (← expr "function") (← args)
  | "unary_op" => return unary (← text "op") (← expr "arg")
  | "binary_op" => return binary (← text "op") (← expr "lhs") (← expr "rhs")
  | "is_instance_of" => return isInstanceOf (← expr "expr") (← owner)
  | "as_instance_of" => return asInstanceOf (← expr "expr") (← owner)
  | _ => (Json.obj [(shape, body)]).unitVariant? unitVariants

/-- An expression with parts is read by the name of its shape. -/
theorem ofJson?_tagged (shape : String) (body : Json) :
    ofJson? (.obj [(shape, body)]) = ofShape? ofJson? shape body := by
  have expr (key : String) := body.member?_bind key ofJson?
  have args (key : String) := body.member?_bind key (listOf? ofJson?)
  have list (value : Json) := value.elements?_mapM ofJson?
  have optional := body.optionalMember?_bind "else_branch" ofJson?
  rw [ofJson?.eq_def]
  simp only [ofShape?, bind, pure, expr, list, args, ← optional]
  cases body.optionalMember? "else_branch" with
  | none => rfl
  | some inner? => cases inner? <;> rfl

/-- An expression is never written as null. -/
theorem toJson_ne_null (expr : Expr) : toJson expr ≠ .null := by
  cases expr <;> simp [toJson]

mutual

/-- An expression is read back as it was written. -/
theorem ofJson?_toJson : (expr : Expr) → ofJson? expr.toJson = some expr
  | skip | this => by rw [toJson, ofJson?.eq_def]; rfl
  | block statements => by
    simp [toJson, ofJson?_tagged, ofShape?, listOf?_toJsonAll statements]
  | varDef _ value | ret value | raise value | unary _ value | isInstanceOf value _
  | asInstanceOf value _ | select value _ | jsSelect value _ => by
    simp [toJson, ofJson?_tagged, ofShape?, ofJson?_toJson value]
  | assign left right | binary _ left right => by
    simp [toJson, ofJson?_tagged, ofShape?, ofJson?_toJson left, ofJson?_toJson right]
  | branch cond thenBranch elseBranch? => by
    simp [toJson, ofJson?_tagged, ofShape?, ofJson?_toJson cond, ofJson?_toJson thenBranch,
      nullable?_toJsonOption elseBranch?]
  | apply value _ args | jsCall value args => by
    simp [toJson, ofJson?_tagged, ofShape?, ofJson?_toJson value, listOf?_toJsonAll args]
  | applySuper _ args | applyStatic _ _ args | applyConstructor _ _ args | new _ _ args => by
    simp [toJson, ofJson?_tagged, ofShape?, listOf?_toJsonAll args]
  | literal value => by
    simp [toJson, ofJson?_tagged, ofShape?, Literal.lossless.reads value]
  | localVar _ | globalRef _ | loadModule _ | loadJsConstructor _ | selectStatic _ _ => by
    simp [toJson, ofJson?_tagged, ofShape?]

/-- A list of expressions is read back as it was written. -/
theorem listOf?_toJsonAll : (exprs : List Expr) →
    (Json.arr (toJsonAll exprs)).listOf? ofJson? = some exprs
  | [] => rfl
  | head :: rest => by
    have others := listOf?_toJsonAll rest
    rw [listOf?] at others
    simp [toJsonAll, listOf?, ofJson?_toJson head, others]

/-- An optional expression is read back as it was written. -/
theorem nullable?_toJsonOption : (expr? : Option Expr) →
    (toJsonOption expr?).nullable? ofJson? = some expr?
  | none => rfl
  | some expr => by
    rw [toJsonOption, Json.nullable?_of_ne_null (toJson_ne_null expr), ofJson?_toJson expr]
    rfl

end

mutual

/-- A written expression has its records as objects already. -/
theorem named_toJson : (expr : Expr) → Layout.body.named expr.toJson = expr.toJson
  | skip | this => by rw [toJson]; rfl
  | block statements => by
    simp [toJson, Layout.exprVariants, namedElements_toJsonAll statements]
  | varDef _ value | ret value | raise value | unary _ value | isInstanceOf value _
  | asInstanceOf value _ | select value _ | jsSelect value _ => by
    simp [toJson, Layout.exprVariants, List.lookup_cons, named_toJson value]
  | assign left right | binary _ left right => by
    simp [toJson, Layout.exprVariants, List.lookup_cons, named_toJson left,
      named_toJson right]
  | branch cond thenBranch elseBranch? => by
    simp [toJson, Layout.exprVariants, List.lookup_cons, named_toJson cond,
      named_toJson thenBranch, named_toJsonOption elseBranch?]
  | apply value _ args | jsCall value args => by
    simp [toJson, Layout.exprVariants, List.lookup_cons, Layout.call,
      named_toJson value, namedElements_toJsonAll args]
  | applySuper _ args | applyStatic _ _ args | applyConstructor _ _ args | new _ _ args => by
    simp [toJson, Layout.exprVariants, List.lookup_cons, Layout.call,
      namedElements_toJsonAll args]
  | literal _ | localVar _ | globalRef _ | loadModule _ | loadJsConstructor _
  | selectStatic _ _ => by
    simp [toJson, Layout.exprVariants, List.lookup_cons]

/-- A written list of expressions has its records as objects already. -/
theorem namedElements_toJsonAll : (exprs : List Expr) →
    Layout.namedElements .body (toJsonAll exprs) = toJsonAll exprs
  | [] => rfl
  | head :: rest => by
    rw [toJsonAll, Layout.namedElements, named_toJson head, namedElements_toJsonAll rest]

/-- A written optional expression has its records as objects already. -/
theorem named_toJsonOption : (expr? : Option Expr) →
    Layout.body.named (toJsonOption expr?) = toJsonOption expr?
  | none => rfl
  | some expr => named_toJson expr

end

mutual

/-- A written expression has numbers in range if its own numbers are finite. -/
theorem inRange_toJson : (expr : Expr) → (∀ double ∈ expr.doubles, double.isFinite = true) →
    expr.toJson.inRange = true
  | skip, _ | this, _ | localVar _, _ | globalRef _, _ | loadModule _, _ | loadJsConstructor _, _
  | selectStatic _ _, _ => by simp [toJson, Json.ofName]
  | block statements, finite => by
    simpa [toJson] using inRange_toJsonAll statements finite
  | varDef _ value, finite | ret value, finite | raise value, finite | unary _ value, finite
  | isInstanceOf value _, finite | asInstanceOf value _, finite | select value _, finite
  | jsSelect value _, finite => by
    simpa [toJson, Json.ofName] using inRange_toJson value finite
  | assign left right, finite | binary _ left right, finite => by
    simp only [doubles, List.forall_mem_append] at finite
    simpa [toJson] using ⟨inRange_toJson left finite.1, inRange_toJson right finite.2⟩
  | branch cond thenBranch elseBranch?, finite => by
    simp only [doubles, List.forall_mem_append] at finite
    simpa [toJson] using ⟨inRange_toJson cond finite.1.1, inRange_toJson thenBranch finite.1.2,
      inRange_toJsonOption elseBranch? finite.2⟩
  | apply value _ args, finite | jsCall value args, finite => by
    simp only [doubles, List.forall_mem_append] at finite
    simpa [toJson, Json.ofName] using
      ⟨inRange_toJson value finite.1, inRange_toJsonAll args finite.2⟩
  | applySuper _ args, finite | applyStatic _ _ args, finite | applyConstructor _ _ args, finite
  | new _ _ args, finite => by
    simpa [toJson, Json.ofName] using inRange_toJsonAll args finite
  | literal value, finite => by
    simpa [toJson] using Literal.lossless.inRange value finite

/-- A written list of expressions has numbers in range if its own numbers are finite. -/
theorem inRange_toJsonAll : (exprs : List Expr) →
    (∀ double ∈ doublesOfAll exprs, double.isFinite = true) →
    (Json.arr (toJsonAll exprs)).inRange = true
  | [], _ => rfl
  | head :: rest, finite => by
    simp only [doublesOfAll, List.forall_mem_append] at finite
    simpa [toJsonAll] using ⟨inRange_toJson head finite.1, inRange_toJsonAll rest finite.2⟩

/-- A written optional expression has numbers in range if its own numbers are finite. -/
theorem inRange_toJsonOption : (expr? : Option Expr) →
    (∀ double ∈ doublesOfOption expr?, double.isFinite = true) →
    (toJsonOption expr?).inRange = true
  | none, _ => rfl
  | some expr, finite => inRange_toJson expr finite

end

/-- An expression without parts has no numbers. -/
theorem doubles_of_unitVariant? {json : Json} {expr : Expr}
    (found : json.unitVariant? unitVariants = some expr) : expr.doubles = [] := by
  obtain ⟨name, among⟩ := Json.exists_mem_of_unitVariant? found
  simp only [unitVariants, List.mem_cons, Prod.mk.injEq, List.not_mem_nil, or_false] at among
  rcases among with ⟨-, rfl⟩ | ⟨-, rfl⟩ <;> rfl

/-- Only finite doubles are read from a content in range, if it is so for its parts. -/
theorem finite_ofShape? {read : Json → Option Expr} {shape : String} {body : Json} {expr : Expr}
    (finite : ReadsFinite read doubles (sizeOf body + 1)) (inRange : body.inRange = true)
    (found : ofShape? read shape body = some expr) :
    ∀ double ∈ expr.doubles, double.isFinite = true := by
  have smaller : ReadsFinite read doubles (sizeOf body) :=
    fun json value small => finite json value (Nat.lt_succ_of_lt small)
  -- Every shape is made of parts of these kinds.
  have content (value : Expr) := finite body value (Nat.lt_succ_self _) inRange
  have literal (value : Literal) :=
    Literal.lossless.finite _ body value (Nat.lt_succ_self _) inRange
  have statements (values : List Expr) := finite.list body values (Nat.lt_succ_self _) inRange
  have part (key : String) (value : Expr) (there : body.required? key read = some value) :=
    smaller.required inRange there
  have args (values : List Expr) (there : body.required? "args" (listOf? read) = some values) :=
    smaller.list.required inRange there
  have optional (value? : Option Expr) (there : body.optional? "else_branch" read = some value?) :=
    smaller.optional inRange there
  simp only [ofShape?, Option.bind_eq_bind, Option.pure_def] at found
  split at found
  case h_25 =>
    rw [doubles_of_unitVariant? found]
    nofun
  all_goals
    simp only [Option.bind_eq_some_iff, Option.some.injEq] at found
    grind [doubles, doublesOfAll_eq_flatMap, doublesOfOption_eq_flatMap]

/-- What has no shape is read as an expression without parts. -/
theorem ofJson?_untagged {json : Json} (untagged : ∀ shape body, json ≠ .obj [(shape, body)]) :
    ofJson? json = json.unitVariant? unitVariants := by
  rw [ofJson?.eq_def]
  split
  · next shape body => exact absurd rfl (untagged shape body)
  · rfl

/-- The induction is on a bound for the size of what is read. -/
theorem finite_ofJson? (bound : Nat) : ReadsFinite ofJson? doubles bound := by
  induction bound with
  | zero => exact fun json _ small => absurd small (Nat.not_lt_zero _)
  | succ bound ih =>
    intro json expr small inRange found
    by_cases tagged : ∃ shape body, json = .obj [(shape, body)]
    · obtain ⟨shape, body, rfl⟩ := tagged
      rw [ofJson?_tagged] at found
      refine finite_ofShape? (fun inner value smaller => ih inner value ?_) (by simpa using inRange)
        found
      simp only [Json.obj.sizeOf_spec, List.cons.sizeOf_spec, Prod.mk.sizeOf_spec] at small
      omega
    · rw [ofJson?_untagged (fun shape body same => tagged ⟨shape, body, same⟩)] at found
      rw [doubles_of_unitVariant? found]
      nofun

/-- Expressions are written and read without loss. -/
theorem lossless : Lossless toJson ofJson? .body doubles :=
  ⟨ofJson?_toJson, named_toJson, inRange_toJson, finite_ofJson?⟩

end Expr

end JsEmitter
