import Mathlib.Data.Finset.Sort
import Mathlib.Data.String.Basic
import SourceLens.Library.AgreeingMerge
import SourceLens.Library.Json

/-! The contributions of Plugin extensions to a run (`AgentExtensions`): their evidence in one
envelope, and their execution policies in one. -/

namespace SourceLens.PluginExtensions

/-- Why no envelope is returned: a `PluginPackageLoadError` with its message, or a `TypeError`. -/
inductive Failure
  | packageLoad (message : String)
  | typeError

abbrev Envelope := OrderedDict String Json

inductive Part
  | value (value : Json)
  | payloads (payloads : OrderedDict String Json)

abbrev Combined := OrderedDict String Part

def completenessKeys : List String := ["evidence_completeness", "review_completeness"]

def payloadKeys : List String := ["plugin_evidence", "review_replacements"]

def levels : List String := ["complete", "incomplete", "unverified"]

mutual
/-- A NaN in the value, which is unequal to every value, itself included. -/
def hasNan : Json → Bool
  | .nonFinite name => name == "NaN"
  | .arr items => hasNanItems items
  | .obj fields => hasNanFields fields
  | _ => false

def hasNanItems : List Json → Bool
  | [] => false
  | item :: rest => hasNan item || hasNanItems rest

def hasNanFields : List (String × Json) → Bool
  | [] => false
  | (_, value) :: rest => hasNan value || hasNanFields rest
end

/-- `==` of payloads. -/
def payloadEq (left right : Json) : Bool := Json.equal left right && !hasNan left.canonical

theorem payloadEq_iff {left right : Json} :
    payloadEq left right = true ↔ left.canonical = right.canonical ∧ hasNan left.canonical = false := by
  simp [payloadEq, Json.equal]

def payloadAgreement : Agreement Json where
  agrees := payloadEq
  symm := by
    intro left right same
    obtain ⟨whole, plain⟩ := payloadEq_iff.mp same
    exact payloadEq_iff.mpr ⟨whole.symm, whole ▸ plain⟩
  trans := by
    intro left middle right first second
    obtain ⟨whole, plain⟩ := payloadEq_iff.mp first
    exact payloadEq_iff.mpr ⟨whole.trans (payloadEq_iff.mp second).1, plain⟩

/-- `value not in {"complete", ...}` looks the value up by its hash. -/
def checkLevel : Json → Except Failure Unit
  | .arr _ | .obj _ => .error .typeError
  | .str level =>
    if level ∈ levels then .ok ()
    else .error (.packageLoad "plugin evidence completeness is invalid")
  | _ => .error (.packageLoad "plugin evidence completeness is invalid")

/-- `identity in container`. -/
def contains (identity : String) : Json → Except Failure Bool
  | .obj fields => .ok (decide (identity ∈ fields.map Prod.fst))
  | .arr items => .ok (items.any fun item => Json.equal item (.str identity))
  | .str text => .ok (decide (identity.toList <:+: text.toList))
  | _ => .error .typeError

/-- A replacement of a tool names a payload of the same envelope. -/
def badReplacement (evidence : Envelope) (tool : String) (identity : Json) : Except Failure Bool :=
  match identity with
  | .str identity =>
    if tool = "" then .ok true
    else (contains identity ((evidence.get? "plugin_evidence").getD (.obj []))).map (!·)
  | _ => .ok true

def checkReplacements (evidence : Envelope) : List (String × Json) → Except Failure Unit
  | [] => .ok ()
  | (tool, identity) :: rest => do
      if ← badReplacement evidence tool identity then
        throw (.packageLoad "plugin review replacement is invalid")
      checkReplacements evidence rest

/-- `combined.setdefault(key, {})`. -/
def payloadsOf : Option Part → OrderedDict String Json
  | some (.payloads payloads) => payloads
  | _ => .empty

def isIncomplete : Option Part → Bool
  | some (.value value) => value == .str "incomplete"
  | _ => false

def addPayloads (combined : Combined) (key : String) (entries : List (String × Json)) :
    Except Failure Combined :=
  match payloadAgreement.merge (payloadsOf (combined.get? key)) entries with
  | none => .error (.packageLoad "plugin evidence conflict")
  | some payloads => .ok (combined.set key (.payloads payloads))

def addField (evidence : Envelope) (combined : Combined) (field : String × Json) :
    Except Failure Combined :=
  if field.1 ∈ completenessKeys ∧ isIncomplete (combined.get? field.1) = true then .ok combined
  else if field.1 ∈ payloadKeys then
    match field.2 with
    | .obj entries => do
        if field.1 = "review_replacements" then checkReplacements evidence entries
        addPayloads combined field.1 entries
    | _ => .error (.packageLoad "plugin evidence envelope is invalid")
  else do
    if field.1 ∈ completenessKeys then checkLevel field.2
    return combined.set field.1 (.value field.2)

/-- One extension's evidence; `none` is no dictionary. -/
def addEnvelope (combined : Combined) : Option Envelope → Except Failure Combined
  | none => .error (.packageLoad "plugin evidence is invalid")
  | some evidence =>
    if evidence.keys.all fun key => decide (key ∈ payloadKeys ++ completenessKeys) then
      evidence.entries.foldlM (addField evidence) combined
    else .error (.packageLoad "plugin evidence envelope is invalid")

variable {Route Tool : Type}

structure AgentExecutionPolicy (Route : Type) where
  route : Route
  allowedToolNames : Option (List String)
  subagentsAllowed : Bool
  requiredSources : List String

/-- An extension by what it contributes: its evidence, and its policy for a route and the tools
(`none` where that is no policy or its route no dictionary). -/
structure AgentExtension (Route Tool : Type) where
  evidence : Option Envelope
  executionPolicy : Route → List Tool → Option (AgentExecutionPolicy Route)

/-- `AgentExtensions.evidence`. -/
def evidence (extensions : List (AgentExtension Route Tool)) : Except Failure Combined :=
  extensions.foldlM (fun combined extension => addEnvelope combined extension.evidence) .empty

structure Constraints (Route : Type) where
  selected : Route
  allowed : Finset String
  subagentsAllowed : Bool
  requiredSources : Finset String

def addPolicy (original : Finset String) (tools : List Tool) (constraints : Constraints Route)
    (extension : AgentExtension Route Tool) : Except Failure (Constraints Route) :=
  match extension.executionPolicy constraints.selected tools with
  | none => .error (.packageLoad "plugin execution policy is invalid")
  | some policy =>
    let narrowed := policy.allowedToolNames.elim constraints.allowed fun names =>
      constraints.allowed ∩ names.toFinset
    if policy.allowedToolNames.all fun names => decide (names.toFinset ⊆ original) then
      .ok ⟨policy.route, narrowed, constraints.subagentsAllowed && policy.subagentsAllowed,
        constraints.requiredSources ∪ policy.requiredSources.toFinset⟩
    else .error (.packageLoad "plugin execution policy cannot add tools")

/-- What `apply_policy` returns. -/
structure AppliedPolicy (Route : Type) where
  route : Route
  allowedToolNames : Finset String
  subagentsAllowed : Bool
  requiredSources : List String

/-- `AgentExtensions.apply_policy`. -/
def applyPolicy (name : Tool → String) (route : Route) (tools : List Tool)
    (extensions : List (AgentExtension Route Tool)) : Except Failure (AppliedPolicy Route) :=
  let original := (tools.map name).toFinset
  (extensions.foldlM (addPolicy original tools) ⟨route, original, true, ∅⟩).map fun constraints =>
    ⟨constraints.selected, constraints.allowed, constraints.subagentsAllowed,
      constraints.requiredSources.sort (· ≤ ·)⟩

end SourceLens.PluginExtensions
