import SourceLens.PluginToolSchema

/-! What the registry's schema of a Plugin tool demands of the arguments, beside what the gateway
checks. -/

namespace SourceLens.PluginToolSchema

open List

variable {tool : FrozenTool} {schema : ToolSchema}

def within (low high : Option Int) (size : Int) : Bool :=
  low.all (fun low => decide (low ≤ size)) && high.all (fun high => decide (size ≤ high))

def isString : Json → Bool
  | .str _ => true
  | _ => false

/-- The items of an array, and how many and how often they may stand in it. -/
def itemsValid (field : FieldSchema) (items : List Json) : Bool :=
  items.all isString && within field.minItems field.maxItems items.length &&
    (!field.uniqueItems || decide items.Nodup)

def fieldValid (field : FieldSchema) (value : Json) : Bool :=
  match field.type, value with
  | .string, .str text => within field.minLength field.maxLength text.length
  | .integer, .int number => within field.minimum field.maximum number
  | .boolean, .bool _ => true
  | .array, .arr items => itemsValid field items
  | _, _ => false

structure Valid (schema : ToolSchema) (arguments : List (String × Json)) : Prop where
  required : ∀ name ∈ schema.required, name ∈ arguments.map Prod.fst
  fields : ∀ argument ∈ arguments, ∃ field,
    schema.properties.lookup argument.1 = some field ∧ fieldValid field argument.2 = true

def Enforces (tool : FrozenTool) (arguments : Json) : Prop :=
  (validateFrozenTool tool arguments).isOk = true ↔
    ∃ fields, arguments = .obj fields ∧ Valid tool.inputSchema fields

/-- Arguments with all required names and no others, in which no string and no integer is of another
type. -/
structure Passes (schema : ToolSchema) (arguments : List (String × Json)) : Prop where
  required : ∀ name ∈ schema.required, name ∈ arguments.map Prod.fst
  known : ∀ argument ∈ arguments, argument.1 ∈ schema.properties.map Prod.fst
  typed : ∀ argument ∈ arguments, mistyped (expectedType schema argument.1) argument.2 = false

/-- A value outside the limits of its field, or no boolean or list of strings where one is due. -/
def overlooked (field : FieldSchema) (value : Json) : Bool :=
  match field.type, value with
  | .string, .str text => !within field.minLength field.maxLength text.length
  | .integer, .int number => !within field.minimum field.maximum number
  | .boolean, .bool _ => false
  | .boolean, _ => true
  | .array, .arr items => !itemsValid field items
  | .array, _ => true
  | _, _ => false

def Overlooks (schema : ToolSchema) (arguments : Json) : Prop :=
  ∃ fields, arguments = .obj fields ∧ Passes schema fields ∧ ∃ argument ∈ fields, ∃ field,
    schema.properties.lookup argument.1 = some field ∧ overlooked field argument.2 = true

theorem fieldValid_iff (field : FieldSchema) (value : Json) : fieldValid field value = true ↔
    mistyped (some field.type) value = false ∧ overlooked field value = false := by
  unfold fieldValid mistyped overlooked
  cases field.type <;> cases value <;> simp

theorem lookup_of_known {name : String} (known : name ∈ schema.properties.map Prod.fst) :
    ∃ field, schema.properties.lookup name = some field := by
  cases found : schema.properties.lookup name with
  | some field => exact ⟨field, rfl⟩
  | none =>
    obtain ⟨property, member, rfl⟩ := mem_map.mp known
    have apart := lookup_eq_none_iff.mp found property member
    simp at apart

theorem known_of_lookup {name : String} {field : FieldSchema}
    (found : schema.properties.lookup name = some field) : name ∈ schema.properties.map Prod.fst := by
  obtain ⟨before, after, whole, -⟩ := lookup_eq_some_iff.mp found
  rw [whole]
  simp

theorem valid_iff (arguments : List (String × Json)) : Valid schema arguments ↔
    Passes schema arguments ∧ ∀ argument ∈ arguments, ∀ field,
      schema.properties.lookup argument.1 = some field → overlooked field argument.2 = false := by
  constructor
  · intro valid
    refine ⟨⟨valid.required, ?_, ?_⟩, ?_⟩
    · intro argument member
      obtain ⟨field, found, -⟩ := valid.fields argument member
      exact known_of_lookup found
    · intro argument member
      obtain ⟨field, found, fits⟩ := valid.fields argument member
      rw [expectedType, found]
      exact ((fieldValid_iff field argument.2).mp fits).1
    · intro argument member other same
      obtain ⟨field, found, fits⟩ := valid.fields argument member
      obtain rfl := Option.some.inj (found.symm.trans same)
      exact ((fieldValid_iff field argument.2).mp fits).2
  · intro all
    obtain ⟨passes, noticed⟩ := all
    refine ⟨passes.required, ?_⟩
    intro argument member
    obtain ⟨field, found⟩ := lookup_of_known (passes.known argument member)
    have typed := passes.typed argument member
    rw [expectedType, found, Option.map_some] at typed
    exact ⟨field, found, (fieldValid_iff field argument.2).mpr ⟨typed, noticed argument member field found⟩⟩

theorem validateFrozenTool_isOk_iff (readOnly : checkReadOnly tool = .ok ()) (arguments : Json) :
    (validateFrozenTool tool arguments).isOk = true ↔
      ∃ fields, arguments = .obj fields ∧ Passes tool.inputSchema fields := by
  unfold validateFrozenTool
  rw [readOnly]
  cases arguments with
  | obj fields =>
    simp only [bind, Except.bind, Json.obj.injEq, exists_eq_left']
    split
    · rename_i names
      simp only [any_eq_true, decide_eq_true_eq] at names
      constructor
      · nofun
      · intro passes
        rcases names with unknown | missing
        · obtain ⟨name, member, unknown⟩ := unknown
          obtain ⟨argument, listed, rfl⟩ := mem_map.mp member
          exact absurd (passes.known argument listed) unknown
        · obtain ⟨name, member, missing⟩ := missing
          exact absurd (passes.required name member) missing
    · rename_i names
      simp only [any_eq_true, decide_eq_true_eq, not_or, not_exists, not_and, not_not] at names
      split
      · rename_i wrong
        obtain ⟨argument, member, mistyped⟩ := any_eq_true.mp wrong
        constructor
        · nofun
        · intro passes
          rw [passes.typed argument member] at mistyped
          cases mistyped
      · rename_i typed
        refine ⟨fun _ => ⟨names.2, ?_, ?_⟩, fun _ => rfl⟩
        · intro argument member
          exact names.1 argument.1 (mem_map_of_mem member)
        · intro argument member
          by_contra wrong
          exact typed (any_eq_true.mpr ⟨argument, member, by simpa using wrong⟩)
  | _ =>
    constructor
    · nofun
    · intro passes
      obtain ⟨fields, same, -⟩ := passes
      cases same

/-- The gateway enforces the schema of a read-only tool exactly on the arguments of which it overlooks
nothing. -/
theorem enforces_iff (tool : FrozenTool) (readOnly : checkReadOnly tool = .ok ()) (arguments : Json) :
    Enforces tool arguments ↔ ¬Overlooks tool.inputSchema arguments := by
  rw [Enforces, validateFrozenTool_isOk_iff readOnly]
  simp only [valid_iff]
  constructor
  · intro same overlooks
    obtain ⟨fields, rfl, passes, argument, member, field, found, wrong⟩ := overlooks
    obtain ⟨other, equal, -, noticed⟩ := same.mp ⟨fields, rfl, passes⟩
    cases equal
    rw [noticed argument member field found] at wrong
    cases wrong
  · intro noticed
    constructor
    · intro passes
      obtain ⟨fields, rfl, passes⟩ := passes
      refine ⟨fields, rfl, passes, ?_⟩
      intro argument member field found
      by_contra wrong
      exact noticed ⟨fields, rfl, passes, argument, member, field, found, by simpa using wrong⟩
    · intro valid
      obtain ⟨fields, rfl, passes, -⟩ := valid
      exact ⟨fields, rfl, passes⟩

def draftField : FieldSchema :=
  ⟨.boolean, none, none, none, none, none, none, none, false⟩

def draftTool : FrozenTool where
  sideEffect := .str "none"
  capability := .str "issue.read"
  inputSchema := ⟨[("draft", draftField)], []⟩
  registered := ⟨.obj [("type", .str "object"),
    ("properties", .obj [("draft", .obj [("type", .str "boolean")])])], rfl⟩

theorem draft_enforced : Enforces draftTool (.obj [("draft", .bool true)]) := by
  rw [enforces_iff draftTool rfl]
  intro overlooks
  obtain ⟨fields, same, -, argument, member, field, found, wrong⟩ := overlooks
  cases same
  obtain rfl := mem_singleton.mp member
  obtain rfl := Option.some.inj (found.symm.trans rfl)
  cases wrong

/-- A text is accepted for the boolean. -/
theorem draft_text_accepted : ¬∀ (tool : FrozenTool), checkReadOnly tool = .ok () →
    ∀ arguments, Enforces tool arguments := by
  intro always
  have accepted : (validateFrozenTool draftTool (.obj [("draft", .str "yes")])).isOk = true := rfl
  obtain ⟨fields, same, valid⟩ := (always draftTool rfl (.obj [("draft", .str "yes")])).mp accepted
  cases same
  obtain ⟨field, found, fits⟩ := valid.fields _ (mem_singleton_self _)
  obtain rfl := Option.some.inj (found.symm.trans rfl)
  cases fits

end SourceLens.PluginToolSchema
