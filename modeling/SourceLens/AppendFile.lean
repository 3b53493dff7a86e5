import SourceLens.Library.Transition
import Mathlib.Logic.Function.Basic

/-! The `append_file` tool of one run: its chunks, the manifest that tells which of them are
written, and calls that end at any of their steps. -/

namespace SourceLens.AppendFile

open Transition

abbrev Bytes := List UInt8

def chunkMaxBytes : Nat := 24 * 1024

/-- What the tool calls: the file under the root that a path resolves to, `none` outside of it;
the pattern of the chunk ids, which allows no colon; and SHA-256, taken to be injective. -/
structure Env (Path Digest : Type) where
  resolve : String → Option Path
  manifestPath : Path
  chunkIdPattern : String → Bool
  sha256 : Bytes → Digest
  sha256_injective : Function.Injective sha256

structure Chunk (Digest : Type) where
  byteSize : Nat
  offset : Nat
  sha256 : Digest
  /-- Whether the state is `completed`, and not `pending`. -/
  completed : Bool
  deriving DecidableEq

/-- An entry of the manifest, in its older form the digest alone. -/
inductive Entry (Digest : Type)
  | digest (sha256 : Digest)
  | chunk (chunk : Chunk Digest)
  deriving DecidableEq

/-- `{relative_path}:{chunk_id}`. -/
structure Key (Path : Type) where
  file : Path
  chunkId : String
  deriving DecidableEq

structure Disk (Path Digest : Type) where
  files : Path → Option Bytes
  manifest : Key Path → Option (Entry Digest)

/-- The texts that the tool answers with; `failed` is `APPEND_FAILED`, or no answer where the
process ends. -/
inductive Reply
  | ok (duplicate : Bool)
  | pathNotAllowed
  | invalidChunk
  | chunkTooLarge
  | chunkConflict
  | chunkStateInvalid
  | recoveryRequired
  | failed
  deriving DecidableEq

/-- Where a call ends: with its answer, before the first write of the manifest, after it, with a
part of the append, before the last write of the manifest, or after that. -/
inductive Stop
  | never
  | early
  | saved
  | cut (length : Nat)
  | appended
  | completed
  deriving DecidableEq

def Stop.completes : Stop → Bool
  | .never => true
  | .completed => true
  | _ => false

def Stop.reply (stop : Stop) (reply : Reply) : Reply := if stop = .never then reply else .failed

structure Outcome (Path Digest : Type) where
  disk : Disk Path Digest
  reply : Reply
  /-- Whether the content has been appended to its end. -/
  appended : Bool

variable {Path Digest : Type} [DecidableEq Path] [DecidableEq Digest]

def Disk.bytes (disk : Disk Path Digest) (file : Path) : Bytes := (disk.files file).getD []

/-- `seek` and `read`. -/
def readAt (bytes : Bytes) (offset length : Nat) : Bytes := (bytes.drop offset).take length

def Disk.record (disk : Disk Path Digest) (key : Key Path) (chunk : Chunk Digest) :
    Disk Path Digest :=
  { disk with manifest := Function.update disk.manifest key (some (.chunk chunk)) }

def Disk.append (disk : Disk Path Digest) (file : Path) (content : Bytes) : Disk Path Digest :=
  { disk with files := Function.update disk.files file (some (disk.bytes file ++ content)) }

def Chunk.complete (chunk : Chunk Digest) : Chunk Digest := { chunk with completed := true }

def write (disk : Disk Path Digest) (key : Key Path) (chunk : Chunk Digest) (content : Bytes)
    (stop : Stop) : Outcome Path Digest :=
  match stop with
  | .early => ⟨disk, .failed, false⟩
  | .saved => ⟨disk, .failed, false⟩
  | .cut length =>
    ⟨disk.append key.file (content.take length), .failed, decide (content.length ≤ length)⟩
  | .appended => ⟨disk.append key.file content, .failed, true⟩
  | .completed =>
    ⟨(disk.append key.file content).record key chunk.complete, .failed, true⟩
  | .never =>
    ⟨(disk.append key.file content).record key chunk.complete, .ok false, true⟩

def begin (env : Env Path Digest) (disk : Disk Path Digest) (key : Key Path) (content : Bytes)
    (stop : Stop) : Outcome Path Digest :=
  if stop = .early then ⟨disk, .failed, false⟩
  else
    let chunk := ⟨content.length, (disk.bytes key.file).length, env.sha256 content, false⟩
    write (disk.record key chunk) key chunk content stop

def recover (disk : Disk Path Digest) (key : Key Path) (chunk : Chunk Digest) (content : Bytes)
    (stop : Stop) : Outcome Path Digest :=
  let bytes := disk.bytes key.file
  if readAt bytes chunk.offset content.length = content then
    if stop.completes then ⟨disk.record key chunk.complete, stop.reply (.ok true), false⟩
    else ⟨disk, .failed, false⟩
  else if bytes.length ≠ chunk.offset then ⟨disk, .recoveryRequired, false⟩
  else write disk key chunk content stop

def checkedKey (env : Env Path Digest) (path chunkId : String) (content : Bytes) :
    Except Reply (Key Path) :=
  match env.resolve path with
  | none => .error .pathNotAllowed
  | some file =>
    if path.toList.dropWhile (· = '/') = [] ∨ file = env.manifestPath ∨
        env.chunkIdPattern chunkId = false then .error .invalidChunk
    else if chunkMaxBytes < content.length then .error .chunkTooLarge
    else .ok ⟨file, chunkId⟩

/-- `append_file`; the content is given by its UTF-8 bytes. -/
def appendFile (env : Env Path Digest) (disk : Disk Path Digest) (path chunkId : String)
    (content : Bytes) (stop : Stop) : Outcome Path Digest :=
  match checkedKey env path chunkId content with
  | .error reply => ⟨disk, reply, false⟩
  | .ok key =>
    match disk.manifest key with
    | none => begin env disk key content stop
    | some (.digest sha256) =>
      ⟨disk, if sha256 = env.sha256 content then .ok true else .chunkConflict, false⟩
    | some (.chunk chunk) =>
      if chunk.sha256 ≠ env.sha256 content then ⟨disk, .chunkConflict, false⟩
      else if chunk.completed then ⟨disk, .ok true, false⟩
      else if chunk.byteSize ≠ content.length then ⟨disk, .chunkStateInvalid, false⟩
      else recover disk key chunk content stop

structure Report (Path : Type) where
  key : Key Path
  content : Bytes

/-- The disk with the reports made so far and the chunks in the order they were appended. -/
structure State (Path Digest : Type) where
  disk : Disk Path Digest
  reported : List (Report Path)
  appended : List (Key Path)

structure Action where
  path : String
  chunkId : String
  content : Bytes
  stop : Stop

def reportOf (reply : Reply) (key : Key Path) (content : Bytes) : List (Report Path) :=
  match reply with
  | .ok _ => [⟨key, content⟩]
  | _ => []

def step (env : Env Path Digest) (state : State Path Digest) (action : Action) :
    Option (State Path Digest) :=
  let outcome := appendFile env state.disk action.path action.chunkId action.content action.stop
  match checkedKey env action.path action.chunkId action.content with
  | .error _ => some state
  | .ok key => some {
      disk := outcome.disk
      reported := state.reported ++ reportOf outcome.reply key action.content
      appended := state.appended ++ if outcome.appended then [key] else [] }

def start (files : Path → Option Bytes) : State Path Digest :=
  ⟨⟨files, fun _ => none⟩, [], []⟩

end SourceLens.AppendFile
