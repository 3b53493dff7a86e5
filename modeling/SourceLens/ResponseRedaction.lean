import SourceLens.Library.DelimitedSub
import SourceLens.Library.Json
import SourceLens.Library.PyText

/-! The redaction of the responses of a skill's API (`_redact_skill_api_payload` of
`agent_tools.py`). -/

namespace SourceLens.ResponseRedaction

open DelimitedSub

abbrev Text := List Char

/-- An underscore between a small letter or a digit and a capital. -/
def splitCamel : Text → Text
  | [] => []
  | [c] => [c]
  | c :: d :: rest =>
    if (c.isLower || c.isDigit) && d.isUpper then c :: '_' :: splitCamel (d :: rest)
    else c :: splitCamel (d :: rest)

/-- One underscore for each run of other characters than letters and digits. -/
def squeeze : Bool → Text → Text
  | _, [] => []
  | inRun, c :: rest =>
    if c.isAlphanum then c :: squeeze false rest
    else if inRun then squeeze true rest
    else '_' :: squeeze true rest

def normalizedSensitiveKey (key : Text) : Text :=
  (PyText.strip (fun c => decide (c = '_')) (squeeze false (splitCamel key))).map Char.toLower

def sensitiveWords : List Text :=
  ["access".toList, "refresh".toList, "token".toList, "secret".toList, "password".toList,
    "passwd".toList, "authorization".toList, "cookie".toList, "api_key".toList,
    "private_key".toList]

/-- `_SENSITIVE_RESPONSE_KEY_RE`: a word between underscores or the ends. -/
def sensitiveKey (key : String) : Bool :=
  sensitiveWords.any fun word =>
    occursFrom (fun c => !decide (c = '_')) word none (normalizedSensitiveKey key.toList)

def mark : Text := ['*', '*', '*']

def tokenChar (c : Char) : Bool :=
  c.isAlphanum || decide (c = '.') || decide (c = '_') || decide (c = '~') || decide (c = '+') ||
    decide (c = '/') || decide (c = '-')

def longSecrets (secrets : List Text) : List Text :=
  secrets.filter fun secret => decide (4 ≤ secret.length)

def redactText (secrets : List Text) (text : Text) : Text :=
  if secrets.any (decide <| · = text) then mark
  else (longSecrets secrets).foldl (fun redacted secret => replace tokenChar secret mark redacted) text

mutual
def redact (secrets : List Text) : Json → Json
  | .obj fields => .obj (redactFields secrets fields)
  | .arr items => .arr (redactItems secrets items)
  | .str text => .str (String.ofList (redactText secrets text.toList))
  | .null => .null
  | .bool value => .bool value
  | .int value => .int value
  | .float value => .float value
  | .nonFinite name => .nonFinite name

def redactItems (secrets : List Text) : List Json → List Json
  | [] => []
  | item :: rest => redact secrets item :: redactItems secrets rest

def redactFields (secrets : List Text) : List (String × Json) → List (String × Json)
  | [] => []
  | (key, value) :: rest =>
    (key, if sensitiveKey key then .str (String.ofList mark) else redact secrets value) ::
      redactFields secrets rest
end

/-- The texts of the secret values; nested calls drop an empty one. -/
def secretTexts (str : Json → String) (values : List Json) : List Text :=
  ((values.filter fun value =>
    match value with
    | .null => false
    | .str text => decide (text ≠ "")
    | _ => true).map fun value => (str value).toList).filter fun text => !text.isEmpty

/-- `_redact_skill_api_payload` -/
def redactSkillApiPayload (str : Json → String) (payload : Json) (secretValues : List Json) : Json :=
  redact (secretTexts str secretValues) payload

end SourceLens.ResponseRedaction
