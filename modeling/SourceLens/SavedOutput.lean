import Mathlib.Logic.Function.Basic
import SourceLens.Library.PyText
import SourceLens.Library.Utf8

/-! The output of a Skill script as `_persist_large_tool_output` of `agent_tools.py` reports it, and
the files of `large_tool_results` that it leaves. -/

namespace SourceLens.SavedOutput

open PyText (isSpace strip)
open Utf8 (Bytes encode decodeReplace WellFormed)

abbrev Name := List Char

/-- The files of `large_tool_results` under the root. -/
abbrev Directory := Name → Option Bytes

inductive Value
  | absent
  | bytes (raw : Bytes)
  | text (text : List Char)

def decodeOutput : Value → List Char
  | .absent => []
  | .bytes raw => decodeReplace raw
  | .text text => text

def truncateOutput (value : Value) (limit : Nat) : List Char :=
  let text := decodeOutput value
  if limit < text.length then text.take limit ++ ['…'] else text

inductive OutputFormat
  | binary
  | json
  | csv
  | text
  deriving DecidableEq

/-- Whether `json.loads` takes a text, and whether `csv.Sniffer` finds a table in it. -/
structure Readers where
  json : List Char → Bool
  csv : List Char → Bool

def jsonStarts : List Char :=
  ['\x7b', '[', '"', '-', '0', '1', '2', '3', '4', '5', '6', '7', '8', '9', 't', 'f', 'n']

def closing : Char → Option Char
  | '\x7b' => some '\x7d'
  | '[' => some ']'
  | '"' => some '"'
  | _ => none

/-- The format of `_saved_output_synopsis`. -/
def savedOutputFormat (readers : Readers) (raw : Bytes) (text : List Char) : OutputFormat :=
  if 0 ∈ raw then .binary
  else
    let body := strip isSpace text
    let table := if readers.csv text then OutputFormat.csv else .text
    match body.head? with
    | none => table
    | some first =>
      if first ∉ jsonStarts then table
      else if body.length ≤ 1024 * 1024 then if readers.json body then .json else table
      else if closing first = body.getLast? ∧ closing first ≠ none then .json
      else table

def structuredRefMinChars : Nat := 800

/-- The metadata that is returned; the reference is a path below the root. -/
structure Report (Digest : Type) where
  inline : List Char
  bytes : Nat
  chars : Nat
  sha256 : Digest
  truncated : Bool
  ref : Option (List Char)
  format : OutputFormat

structure Request where
  invocation : List Char
  stream : List Char
  limit : Nat
  persisted : Option Name
  forceRef : Bool

def artifactName (request : Request) : Name :=
  "artifact_".toList ++ request.invocation ++ ['.'] ++ request.stream ++ ".txt".toList

def refOf (name : Name) : List Char := "/large_tool_results/".toList ++ name

def rawOf : Value → Bytes
  | .bytes raw => raw
  | value => encode (decodeOutput value)

/-- `truncated` -/
def isLarge (readers : Readers) (request : Request) (value : Value) : Bool :=
  let text := decodeOutput value
  let raw := rawOf value
  let format := savedOutputFormat readers raw text
  decide (request.limit < text.length) || (request.forceRef && decide (raw ≠ [])) ||
    (decide (format = .json ∨ format = .csv) && decide (structuredRefMinChars < text.length))

variable {Digest : Type}

def persistLargeToolOutput (readers : Readers) (sha256 : Bytes → Digest) (directory : Directory)
    (request : Request) (value : Value) : Directory × Report Digest :=
  let text := decodeOutput value
  let raw := rawOf value
  let large := isLarge readers request value
  let name := request.persisted.getD (artifactName request)
  let after :=
    if large then Function.update directory name (some (encode text))
    else match request.persisted with
      | some name => Function.update directory name none
      | none => directory
  (after, {
    inline := truncateOutput value request.limit
    bytes := raw.length
    chars := text.length
    sha256 := sha256 raw
    truncated := large
    ref := if large then some (refOf name) else none
    format := savedOutputFormat readers raw text })

/-- The file at the reference is of the size and the digest reported; without a reference the inline
text is all of the output. -/
structure Faithful (sha256 : Bytes → Digest) (value : Value) (after : Directory)
    (report : Report Digest) : Prop where
  referenced : ∀ ref ∈ report.ref, ∃ name file, ref = refOf name ∧ after name = some file ∧
    file.length = report.bytes ∧ sha256 file = report.sha256
  inline : report.ref = none → report.inline = decodeOutput value

section

variable {readers : Readers} {sha256 : Bytes → Digest} {directory : Directory} {request : Request}
  {value : Value}

theorem inline_whole (small : isLarge readers request value = false) :
    truncateOutput value request.limit = decodeOutput value := by
  simp only [isLarge, Bool.or_eq_false_iff, decide_eq_false_iff_not] at small
  rw [truncateOutput]
  exact if_neg small.1.1

theorem persist_small (small : isLarge readers request value = false) :
    (persistLargeToolOutput readers sha256 directory request value).2.ref = none := by
  rw [persistLargeToolOutput]
  simp only [small, Bool.false_eq_true, if_false]

theorem persist_large (sha256 : Bytes → Digest) (directory : Directory) (large : isLarge readers request value = true) :
    ∃ name, (persistLargeToolOutput readers sha256 directory request value).2.ref = some (refOf name) ∧
      (persistLargeToolOutput readers sha256 directory request value).1 name =
        some (encode (decodeOutput value)) := by
  refine ⟨request.persisted.getD (artifactName request), ?_, ?_⟩
  · rw [persistLargeToolOutput]
    simp only [large, if_true]
  · rw [persistLargeToolOutput]
    simp only [large, if_true, Function.update_self]

theorem refOf_injective {first second : Name} (same : refOf first = refOf second) : first = second :=
  List.append_cancel_left same

theorem faithful_small (small : isLarge readers request value = false) :
    Faithful sha256 value (persistLargeToolOutput readers sha256 directory request value).1
      (persistLargeToolOutput readers sha256 directory request value).2 := by
  constructor
  · rw [persist_small small]
    intro ref none
    cases none
  · intro _
    exact inline_whole small

/-- A file that is kept is of the size and the digest of its text encoded again. -/
theorem faithful_large (large : isLarge readers request value = true) :
    Faithful sha256 value (persistLargeToolOutput readers sha256 directory request value).1
        (persistLargeToolOutput readers sha256 directory request value).2 ↔
      (encode (decodeOutput value)).length = (rawOf value).length ∧
        sha256 (encode (decodeOutput value)) = sha256 (rawOf value) := by
  obtain ⟨name, referenced, stored⟩ := persist_large sha256 directory large
  constructor
  · intro faithful
    obtain ⟨other, file, same, found, size, digest⟩ := faithful.referenced _ referenced
    cases refOf_injective same
    rw [stored] at found
    cases found
    exact ⟨size, digest⟩
  · intro kept
    constructor
    · intro ref is
      rw [referenced] at is
      cases is
      exact ⟨name, _, rfl, stored, kept.1, kept.2⟩
    · intro unreferenced
      rw [referenced] at unreferenced
      cases unreferenced

end

/-- The report of a script's bytes is faithful exactly if no file is kept or they are well-formed
UTF-8, unless the digest collides on them and what is kept of them. -/
theorem faithful_iff (readers : Readers) (sha256 : Bytes → Digest) (directory : Directory)
    (request : Request) (raw : Bytes)
    (resistant : sha256 (encode (decodeReplace raw)) = sha256 raw → encode (decodeReplace raw) = raw) :
    Faithful sha256 (.bytes raw)
        (persistLargeToolOutput readers sha256 directory request (.bytes raw)).1
        (persistLargeToolOutput readers sha256 directory request (.bytes raw)).2 ↔
      isLarge readers request (.bytes raw) = false ∨ WellFormed raw := by
  cases large : isLarge readers request (.bytes raw) with
  | false => exact iff_of_true (faithful_small large) (.inl rfl)
  | true =>
    rw [faithful_large large, ← Utf8.encode_decode_iff]
    constructor
    · intro kept
      exact .inr (resistant kept.2)
    · rintro (small | same)
      · cases small
      · have whole : encode (decodeOutput (.bytes raw)) = rawOf (.bytes raw) := same
        rw [whole]
        exact ⟨rfl, rfl⟩

def stopped : Request := ⟨['i'], "stdout".toList, 4000, none, true⟩

def noReaders : Readers := ⟨fun _ => false, fun _ => false⟩

def digests (raw : Bytes) : String :=
  if raw = [0x6F, 0x6B] then "2689367b205c16ce32ed4200942b8b8b1e262dfc70d9bc9fbc77c49699a4f1df"
  else if raw = [0xFF] then "a8100ae6aa1940d0b663bb31cd466142ebbdbd5187131b92d93818987832eb89"
  else "83d544ccc223c057d2bf80d3f2a32982c32c3c0db8e2674820da5064783fb097"

theorem ascii_faithful :
    Faithful digests (.bytes [0x6F, 0x6B])
        (persistLargeToolOutput noReaders digests (fun _ => none) stopped (.bytes [0x6F, 0x6B])).1
        (persistLargeToolOutput noReaders digests (fun _ => none) stopped (.bytes [0x6F, 0x6B])).2 ↔
      isLarge noReaders stopped (.bytes [0x6F, 0x6B]) = false ∨ WellFormed [0x6F, 0x6B] :=
  faithful_iff noReaders digests _ stopped _ fun _ => by decide

/-- The file of a lone byte 0xFF has three bytes. -/
theorem byte_unfaithful :
    ¬ Faithful digests (.bytes [0xFF])
        (persistLargeToolOutput noReaders digests (fun _ => none) stopped (.bytes [0xFF])).1
        (persistLargeToolOutput noReaders digests (fun _ => none) stopped (.bytes [0xFF])).2 := by
  rw [faithful_large (by decide)]
  decide

end SourceLens.SavedOutput
