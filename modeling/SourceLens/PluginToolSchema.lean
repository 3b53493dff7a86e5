import SourceLens.Library.Json
import SourceLens.Library.PyText

/-! The schema of a Plugin tool's input as the registry freezes it (`_validate_tool_schema`), and what
the gateway checks of the model's arguments under it (`_validate_frozen_tool`). -/

namespace SourceLens.PluginToolSchema

open Json (get? getOrNull truthy)
open PyText (isSpace strip)

inductive FieldType
  | array
  | boolean
  | integer
  | string
  deriving DecidableEq

structure FieldSchema where
  type : FieldType
  description : Option String
  minLength : Option Int
  maxLength : Option Int
  minimum : Option Int
  maximum : Option Int
  minItems : Option Int
  maxItems : Option Int
  uniqueItems : Bool

/-- What the registry returns. The items of an array are strings, and there are no additional
properties. -/
structure ToolSchema where
  properties : List (String × FieldSchema)
  required : List String

/-- A `PluginRegistryError` with its message, or a `TypeError`. -/
inductive RegistryFailure
  | registry (message : String)
  | typeError

def isPluginKey (name : String) : Bool :=
  match name.toList with
  | [] => false
  | first :: rest =>
    first.isLower && decide (rest.length ≤ 63) &&
      rest.all fun c => c.isLower || c.isDigit || c == '_' || c == '-'

def boundedManifestText (value : Json) (label : String) (limit : Nat) :
    Except RegistryFailure String :=
  match value with
  | .str text =>
    let text := strip isSpace text.toList
    if text = [] ∨ limit < text.length then .error (.registry (label ++ " is invalid"))
    else .ok (String.ofList text)
  | _ => .error (.registry (label ++ " is invalid"))

def hashable : Json → Bool
  | .arr _ | .obj _ => false
  | _ => true

/-- `field.get("type") in {"array", "boolean", "integer", "string"}`. -/
def fieldType : Json → Except RegistryFailure FieldType
  | .str "array" => .ok .array
  | .str "boolean" => .ok .boolean
  | .str "integer" => .ok .integer
  | .str "string" => .ok .string
  | .arr _ | .obj _ => .error .typeError
  | _ => .error (.registry "plugin tool field schema is invalid")

def limitOf (field : List (String × Json)) (name : String) : Option Int :=
  match getOrNull field name with
  | .int limit => some limit
  | _ => none

def stringItems : Json → Bool
  | .obj items => getOrNull items "type" == .str "string"
  | _ => false

def validateField (name : String) (value : Json) : Except RegistryFailure FieldSchema :=
  match isPluginKey name, value with
  | true, .obj field => do
      let type ← fieldType (getOrNull field "type")
      let described := getOrNull field "description"
      let description ← if truthy described then
          (boundedManifestText described "plugin tool field description" 500).map some
        else .ok none
      if type = .array ∧ stringItems (getOrNull field "items") = false then
        throw (.registry "plugin tool array item schema is invalid")
      let ofArray (limit : Option Int) := if type = .array then limit else none
      return {
        type, description
        minLength := limitOf field "minLength"
        maxLength := limitOf field "maxLength"
        minimum := limitOf field "minimum"
        maximum := limitOf field "maximum"
        minItems := ofArray (limitOf field "minItems")
        maxItems := ofArray (limitOf field "maxItems")
        uniqueItems := decide (type = .array) && getOrNull field "uniqueItems" == .bool true }
  | _, _ => .error (.registry "plugin tool field schema is invalid")

def validateFields : List (String × Json) → Except RegistryFailure (List (String × FieldSchema))
  | [] => .ok []
  | (name, value) :: rest => do
      let field ← validateField name value
      let fields ← validateFields rest
      return (name, field) :: fields

/-- `value or {}`, which has to be a dictionary. -/
def dictOr (value : Json) : Option (List (String × Json)) :=
  match value with
  | .obj fields => some fields
  | value => if truthy value then none else some []

/-- `value or []`, which has to be a list. -/
def listOr (value : Json) : Option (List Json) :=
  match value with
  | .arr items => some items
  | value => if truthy value then none else some []

/-- The names in a list of required names that are all names of properties. -/
def requiredNames (properties : List (String × Json)) : List Json → Option (List String)
  | [] => some []
  | .str name :: rest =>
    if name ∈ properties.map Prod.fst then (requiredNames properties rest).map (name :: ·) else none
  | _ :: _ => none

/-- `_validate_tool_schema`. -/
def validateToolSchema (value : Json) : Except RegistryFailure ToolSchema :=
  match value with
  | .obj schema =>
    if getOrNull schema "type" ≠ .str "object" then
      .error (.registry "plugin tool input schema is invalid")
    else
      match dictOr (getOrNull schema "properties"), listOr (getOrNull schema "required") with
      | some properties, some required =>
        if 20 < properties.length then .error (.registry "plugin tool input schema is not allowed")
        else if required.all hashable = false then .error .typeError
        else
          match requiredNames properties required with
          | some names =>
            if names.Nodup then
              (validateFields properties).map fun fields => ⟨fields, names⟩
            else .error (.registry "plugin tool input schema is not allowed")
          | none => .error (.registry "plugin tool input schema is not allowed")
      | _, _ => .error (.registry "plugin tool input schema is invalid")
  | _ => .error (.registry "plugin tool input schema is invalid")

/-- A tool as it is frozen for a run, with a schema from the registry. -/
structure FrozenTool where
  sideEffect : Json
  capability : Json
  inputSchema : ToolSchema
  registered : ∃ declared, validateToolSchema declared = .ok inputSchema

def readOnlyToolCapabilities : List String :=
  ["decision.evaluate", "issue.read", "jira.issue.search", "repository.read", "document.read"]

/-- A `ToolSnapshotError` with its code and status, or a `TypeError`. -/
inductive SnapshotFailure
  | snapshot (code : String) (status : Nat)
  | typeError

def argumentsInvalid : SnapshotFailure := .snapshot "TOOL_ARGUMENTS_INVALID" 400

def checkReadOnly (tool : FrozenTool) : Except SnapshotFailure Unit :=
  if tool.sideEffect ≠ .str "none" then .error (.snapshot "TOOL_NOT_AUTHORIZED" 403)
  else
    match tool.capability with
    | .arr _ | .obj _ => .error .typeError
    | .str capability =>
      if capability ∈ readOnlyToolCapabilities then .ok ()
      else .error (.snapshot "TOOL_NOT_AUTHORIZED" 403)
    | _ => .error (.snapshot "TOOL_NOT_AUTHORIZED" 403)

def mistyped (expected : Option FieldType) (value : Json) : Bool :=
  match expected, value with
  | some .string, .str _ => false
  | some .string, _ => true
  | some .integer, .int _ => false
  | some .integer, _ => true
  | _, _ => false

/-- `(properties.get(name) or {}).get("type")`. -/
def expectedType (schema : ToolSchema) (name : String) : Option FieldType :=
  (schema.properties.lookup name).map FieldSchema.type

/-- `_validate_frozen_tool`. -/
def validateFrozenTool (tool : FrozenTool) (arguments : Json) : Except SnapshotFailure Unit := do
  checkReadOnly tool
  match arguments with
  | .obj arguments =>
    let names := arguments.map Prod.fst
    if names.any (fun name => decide (name ∉ tool.inputSchema.properties.map Prod.fst)) ∨
        tool.inputSchema.required.any (fun name => decide (name ∉ names)) then
      .error argumentsInvalid
    else if arguments.any fun argument =>
        mistyped (expectedType tool.inputSchema argument.1) argument.2 then
      .error argumentsInvalid
    else .ok ()
  | _ => .error argumentsInvalid

end SourceLens.PluginToolSchema
