import SourceLens.Library.Json
import SourceLens.Library.PyText
import SourceLens.Library.TextSub

/-! The untrusted view of user input (`gateway_model.py`): boundary marks and authority tags
are neutralised in every text between the two boundaries. -/

namespace SourceLens.UserInput

open TextSub (Text Matcher literal)

/-- What `re.IGNORECASE` takes for a letter of the patterns: its two cases, and letters
outside ASCII for two of them. -/
def variants (p : Char) : List Char :=
  [p, p.toUpper] ++ (if p = 'i' then ['İ', 'ı'] else if p = 's' then ['ſ'] else [])

def sameLetter (p c : Char) : Bool := decide (c ∈ variants p)

/-- `str.upper` on the letters that the patterns match. -/
def upper (c : Char) : Char :=
  if c = 'ı' then 'I' else if c = 'ſ' then 'S' else c.toUpper

/-! ### `USER_INPUT_BOUNDARY_PATTERN` -/

def userInputBegin : Text := "--- BEGIN USER INPUT ---".toList

def userInputEnd : Text := "--- END USER INPUT ---".toList

def spaced (pattern : Text) (text : Text) : Option Text :=
  literal sameLetter pattern (text.dropWhile PyText.isSpace)

def space : Text → Option Text
  | [] => none
  | c :: rest => if PyText.isSpace c then some rest else none

def dashes : Text := ['-', '-', '-']

def beginWord : Text := ['b', 'e', 'g', 'i', 'n']

def endWord : Text := ['e', 'n', 'd']

def userInputWords : Text := ['u', 's', 'e', 'r', ' ', 'i', 'n', 'p', 'u', 't']

/-- `(BEGIN|END)` behind white space. -/
def boundaryWord (text : Text) : Option Text :=
  (spaced beginWord text).or (spaced endWord text)

def boundary (text : Text) : Option Text :=
  (literal sameLetter dashes text).bind fun text =>
    (boundaryWord text).bind fun text =>
      (space text).bind fun text =>
        (spaced userInputWords text).bind (spaced dashes)

def boundaryGroup (text : Text) : Text :=
  let inner := (text.drop 3).dropWhile PyText.isSpace
  if (literal sameLetter beginWord inner).isSome then inner.take 5 else inner.take 3

def boundaryMatch : Matcher := fun text =>
  (boundary text).map fun rest =>
    ('[' :: (boundaryGroup text).map upper ++ " USER INPUT]".toList, text.length - rest.length)

/-! ### `AUTHORITY_TAG_PATTERN` -/

/-- The word characters `\w`; the two characters that the neutralisation puts in each other's
place are none. -/
structure WordClass where
  isWord : Char → Bool
  lt : isWord '<' = false
  amp : isWord '&' = false

def authorityWords : List Text :=
  ["analysis", "ignore", "important", "instruction", "override", "prompt", "role",
    "system-reminder", "system_reminder", "system"].map String.toList

def wordEnd (words : WordClass) (text : Text) : Bool := !text.head?.any words.isWord

/-- `/?` -/
def skipSlash : Text → Text
  | [] => []
  | c :: rest => if c = '/' then rest else c :: rest

def authorityWord (words : WordClass) (text : Text) : Bool :=
  authorityWords.any fun word => (literal sameLetter word text).any (wordEnd words)

/-- The pattern up to the end of its word, behind the opening bracket. -/
def tagHead (words : WordClass) (text : Text) : Bool :=
  authorityWord words ((skipSlash (text.dropWhile PyText.isSpace)).dropWhile PyText.isSpace)

def escapeChar (c : Char) : Text :=
  if c = '<' then ['&', 'l', 't', ';'] else if c = '>' then ['&', 'g', 't', ';'] else [c]

def escape (text : Text) : Text := text.flatMap escapeChar

/-- `[^>]*>` runs to the first closing bracket. -/
def tagMatch (words : WordClass) : Matcher
  | '<' :: rest =>
    if tagHead words rest && decide ('>' ∈ rest) then
      let length := (rest.takeWhile (decide <| · ≠ '>')).length + 2
      some (escape (('<' :: rest).take length), length)
    else none
  | _ => none

/-! ### `neutralize_untrusted_text` and `_wrap_user_input` -/

def neutralizeUntrustedText (words : WordClass) (neutralizeBoundaries : Bool) (text : Text) : Text :=
  TextSub.sub (tagMatch words)
    (if neutralizeBoundaries then TextSub.sub boundaryMatch text else text)

def neutralize (words : WordClass) (text : String) : String :=
  String.ofList (neutralizeUntrustedText words true text.toList)

def textItem (text : Text) : Json :=
  .obj [("type", .str "text"), ("text", .str (String.ofList text))]

/-- `item["text"] = ..` on an item that has the key. -/
def setText (fields : List (String × Json)) (text : String) : List (String × Json) :=
  fields.map fun field => if field.1 = "text" then (field.1, .str text) else field

def wrapItem (words : WordClass) : Json → Json
  | .str text => .str (neutralize words text)
  | .obj fields =>
    match Json.get? fields "text" with
    | some (.str text) => .obj (setText fields (neutralize words text))
    | _ => .obj fields
  | item => item

def wrapUserInput (words : WordClass) : Json → Json
  | .str text => .str (String.ofList
      (userInputBegin ++ '\n' :: (neutralize words text).toList ++ '\n' :: userInputEnd))
  | .arr items => .arr (textItem userInputBegin :: items.map (wrapItem words) ++
      [textItem userInputEnd])
  | content => content

def itemTexts : Json → List Text
  | .str text => [text.toList]
  | .obj fields =>
    match Json.get? fields "text" with
    | some (.str text) => [text.toList]
    | _ => []
  | _ => []

end SourceLens.UserInput
