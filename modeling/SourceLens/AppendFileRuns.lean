import SourceLens.AppendFile
import Mathlib.Data.List.Nodup

/-! The chunks reported ok stand apart in their files, each with its content, as long as no
pending chunk is found in bytes that others have written. -/

namespace SourceLens.AppendFile

open Transition List

variable {Path Digest : Type} [DecidableEq Path] {env : Env Path Digest}
  {disk : Disk Path Digest} {key : Key Path} {content : Bytes} {chunk : Chunk Digest}
  {reported : List (Report Path)} {appended : List (Key Path)}

variable {more bytes part : Bytes} {file : Path}

/-- A new chunk, or a pending one of which nothing is in the file, at the end of the file. -/
structure Fresh (env : Env Path Digest) (disk : Disk Path Digest) (key : Key Path)
    (content : Bytes) (chunk : Chunk Digest) : Prop where
  is : chunk = ⟨content.length, (disk.bytes key.file).length, env.sha256 content, false⟩
  unwritten : disk.manifest key = none ∨ disk.manifest key = some (.chunk chunk) ∧
    readAt (disk.bytes key.file) chunk.offset content.length ≠ content

structure Found (env : Env Path Digest) (disk : Disk Path Digest) (key : Key Path)
    (content : Bytes) (chunk : Chunk Digest) : Prop where
  known : disk.manifest key = some (.chunk chunk)
  sha256 : chunk.sha256 = env.sha256 content
  size : chunk.byteSize = content.length
  pending : chunk.completed = false
  reads : readAt (disk.bytes key.file) chunk.offset content.length = content

inductive Effect (env : Env Path Digest) (disk : Disk Path Digest) (key : Key Path)
    (content : Bytes) : Outcome Path Digest → Prop
  | kept (reply : Reply) (done : ∀ duplicate, reply = .ok duplicate →
      (∃ sha256, disk.manifest key = some (.digest sha256)) ∨
        ∃ chunk, disk.manifest key = some (.chunk chunk) ∧ chunk.completed = true ∧
          chunk.sha256 = env.sha256 content) :
      Effect env disk key content ⟨disk, reply, false⟩
  | found (chunk : Chunk Digest) (found : Found env disk key content chunk) (reply : Reply) :
      Effect env disk key content ⟨disk.record key chunk.complete, reply, false⟩
  | recorded (chunk : Chunk Digest) (fresh : Fresh env disk key content chunk) :
      Effect env disk key content ⟨disk.record key chunk, .failed, false⟩
  | cut (chunk : Chunk Digest) (fresh : Fresh env disk key content chunk) (length : Nat)
      (short : length < content.length) :
      Effect env disk key content
        ⟨(disk.record key chunk).append key.file (content.take length), .failed, false⟩
  | appended (chunk : Chunk Digest) (fresh : Fresh env disk key content chunk) :
      Effect env disk key content ⟨(disk.record key chunk).append key.file content, .failed, true⟩
  | finished (chunk : Chunk Digest) (fresh : Fresh env disk key content chunk) (reply : Reply) :
      Effect env disk key content
        ⟨((disk.record key chunk).append key.file content).record key chunk.complete, reply, true⟩

theorem write_effect (fresh : Fresh env disk key content chunk) (stop : Stop) :
    Effect env disk key content (write (disk.record key chunk) key chunk content stop) := by
  cases stop with
  | early => exact .recorded chunk fresh
  | saved => exact .recorded chunk fresh
  | cut length =>
    dsimp only [write]
    by_cases whole : content.length ≤ length
    · rw [take_of_length_le whole, decide_eq_true whole]
      exact .appended chunk fresh
    · rw [decide_eq_false whole]
      exact .cut chunk fresh length (Nat.lt_of_not_le whole)
  | appended => exact .appended chunk fresh
  | completed => exact .finished chunk fresh .failed
  | never => exact .finished chunk fresh (.ok false)

theorem record_self (known : disk.manifest key = some (.chunk chunk)) :
    disk.record key chunk = disk := by
  rw [Disk.record, ← known, Function.update_eq_self]

theorem begin_effect (unknown : disk.manifest key = none) (stop : Stop) :
    Effect env disk key content (begin env disk key content stop) := by
  rw [begin]
  split
  · exact .kept .failed nofun
  · exact write_effect ⟨rfl, .inl unknown⟩ stop

theorem recover_effect (known : disk.manifest key = some (.chunk chunk))
    (sha256 : chunk.sha256 = env.sha256 content) (size : chunk.byteSize = content.length)
    (pending : chunk.completed = false) (stop : Stop) :
    Effect env disk key content (recover disk key chunk content stop) := by
  dsimp only [recover]
  split
  · rename_i reads
    split
    · exact .found chunk ⟨known, sha256, size, pending, reads⟩ _
    · exact .kept .failed nofun
  · rename_i missing
    split
    · exact .kept .recoveryRequired nofun
    · rename_i last
      have is : chunk = ⟨content.length, (disk.bytes key.file).length, env.sha256 content,
          false⟩ := by
        cases chunk
        cases size
        cases sha256
        cases pending
        cases Decidable.not_not.mp last
        rfl
      have effect := write_effect (⟨is, .inr ⟨known, missing⟩⟩ : Fresh env disk key content chunk) stop
      rw [record_self known] at effect
      exact effect

theorem appendFile_effect [DecidableEq Digest] {path chunkId : String} {stop : Stop}
    (checked : checkedKey env path chunkId content = .ok key) :
    Effect env disk key content (appendFile env disk path chunkId content stop) := by
  rw [appendFile, checked]
  dsimp only
  split
  · rename_i unknown
    exact begin_effect unknown stop
  · rename_i sha256 known
    exact .kept _ fun _ _ => .inl ⟨sha256, known⟩
  · rename_i chunk known
    split
    · exact .kept .chunkConflict nofun
    · rename_i same
      split
      · rename_i completed
        exact .kept (.ok true) fun _ _ =>
          .inr ⟨chunk, known, completed, Decidable.not_not.mp same⟩
      · rename_i pending
        split
        · exact .kept .chunkStateInvalid nofun
        · rename_i size
          exact recover_effect known (Decidable.not_not.mp same) (Decidable.not_not.mp size)
            (Bool.not_eq_true _ ▸ pending) stop

theorem readAt_append {offset : Nat} (reads : readAt bytes offset part.length = part) :
    readAt (bytes ++ more) offset part.length = part := by
  have enough : part.length ≤ (bytes.drop offset).length := by
    have length := congrArg List.length reads
    rw [readAt, length_take] at length
    omega
  rw [readAt, drop_append, take_append_of_le_length enough]
  exact reads

theorem readAt_inside {offset : Nat} (reads : readAt bytes offset part.length = part)
    (some : part ≠ []) : offset + part.length ≤ bytes.length := by
  have length := congrArg List.length reads
  rw [readAt, length_take, length_drop] at length
  have positive := length_pos_iff.mpr some
  omega

theorem readAt_end : readAt (bytes ++ part) bytes.length part.length = part := by
  rw [readAt, drop_left, take_length]

def Apart (first second : Chunk Digest) : Prop :=
  ∀ position, ¬(first.offset ≤ position ∧ position < first.offset + first.byteSize ∧
    second.offset ≤ position ∧ position < second.offset + second.byteSize)

theorem Apart.symm {first second : Chunk Digest} (apart : Apart first second) :
    Apart second first :=
  fun position both => apart position ⟨both.2.2.1, both.2.2.2, both.1, both.2.1⟩

/-- The chunk is the content's, and the file holds it in its range. -/
structure Holds (env : Env Path Digest) (disk : Disk Path Digest) (key : Key Path)
    (chunk : Chunk Digest) (content : Bytes) : Prop where
  known : disk.manifest key = some (.chunk chunk)
  sha256 : chunk.sha256 = env.sha256 content
  size : chunk.byteSize = content.length
  reads : readAt (disk.bytes key.file) chunk.offset content.length = content

structure Kept (env : Env Path Digest) (disk : Disk Path Digest) (reported : List (Report Path))
    (appended : List (Key Path)) : Prop where
  holds : ∀ key ∈ appended, ∃ chunk content, Holds env disk key chunk content
  apart : ∀ first ∈ appended, ∀ second ∈ appended, first ≠ second → first.file = second.file →
    ∀ one two, disk.manifest first = some (.chunk one) → disk.manifest second = some (.chunk two) →
      Apart one two
  once : appended.Nodup
  completed : ∀ key chunk, disk.manifest key = some (.chunk chunk) → chunk.completed = true →
    key ∈ appended ∨ chunk.byteSize = 0
  sized : ∀ key chunk, disk.manifest key = some (.chunk chunk) →
    ∃ part, chunk.sha256 = env.sha256 part ∧ chunk.byteSize = part.length
  recent : ∀ key sha256, disk.manifest key ≠ some (.digest sha256)
  reported : ∀ report ∈ reported, ∃ chunk, disk.manifest report.key = some (.chunk chunk) ∧
    chunk.completed = true ∧ chunk.sha256 = env.sha256 report.content ∧
    chunk.byteSize = report.content.length

theorem record_same : (disk.record key chunk).manifest key = some (.chunk chunk) :=
  Function.update_self ..

theorem record_other {other : Key Path} (different : other ≠ key) :
    (disk.record key chunk).manifest other = disk.manifest other :=
  Function.update_of_ne different ..

omit [DecidableEq Path] in
theorem Fresh.unappended (fresh : Fresh env disk key content chunk)
    (kept : Kept env disk reported appended) : key ∉ appended := by
  intro member
  obtain ⟨other, part, known, sha256, -, reads⟩ := kept.holds key member
  rcases fresh.unwritten with unknown | ⟨is, missing⟩
  · rw [unknown] at known
    cases known
  · rw [is] at known
    cases known
    rw [fresh.is] at sha256
    cases env.sha256_injective sha256
    exact missing reads

omit [DecidableEq Path] in
theorem Fresh.unreported (fresh : Fresh env disk key content chunk)
    (kept : Kept env disk reported appended) : ∀ report ∈ reported, report.key ≠ key := by
  intro report member same
  obtain ⟨other, known, completed, -⟩ := kept.reported report member
  rw [same] at known
  rcases fresh.unwritten with unknown | ⟨is, -⟩
  · rw [unknown] at known
    cases known
  · rw [is] at known
    cases known
    rw [fresh.is] at completed
    cases completed

theorem Kept.record (kept : Kept env disk reported appended)
    (fresh : Fresh env disk key content chunk) :
    Kept env (disk.record key chunk) reported appended := by
  have unappended := fresh.unappended kept
  have unreported := fresh.unreported kept
  have other : ∀ one ∈ appended, one ≠ key := fun one member same => unappended (same ▸ member)
  constructor
  case holds =>
    intro one member
    obtain ⟨old, part, known, sha256, size, reads⟩ := kept.holds one member
    exact ⟨old, part, (record_other (other one member)).trans known, sha256, size, reads⟩
  case apart =>
    intro first member second again different file one two
    rw [record_other (other first member), record_other (other second again)]
    exact kept.apart first member second again different file one two
  case once => exact kept.once
  case completed =>
    intro one old known completed
    by_cases same : one = key
    · rw [same, record_same] at known
      cases known
      rw [fresh.is] at completed
      cases completed
    · rw [record_other same] at known
      exact kept.completed one old known completed
  case sized =>
    intro one old known
    by_cases same : one = key
    · rw [same, record_same] at known
      cases known
      rw [fresh.is]
      exact ⟨content, rfl, rfl⟩
    · rw [record_other same] at known
      exact kept.sized one old known
  case recent =>
    intro one sha256 known
    by_cases same : one = key
    · rw [same, record_same] at known
      cases known
    · rw [record_other same] at known
      exact kept.recent one sha256 known
  case reported =>
    intro report member
    rw [record_other (unreported report member)]
    exact kept.reported report member

theorem append_same : (disk.append file more).bytes file = disk.bytes file ++ more := by
  rw [Disk.bytes, Disk.append]
  dsimp only
  rw [Function.update_self]
  rfl

theorem append_other {other : Path} (different : other ≠ file) :
    (disk.append file more).bytes other = disk.bytes other := by
  rw [Disk.bytes, Disk.append]
  dsimp only
  rw [Function.update_of_ne different]
  rfl

theorem Holds.append (holds : Holds env disk key chunk content) :
    Holds env (disk.append file more) key chunk content := by
  refine ⟨holds.known, holds.sha256, holds.size, ?_⟩
  by_cases same : key.file = file
  · rw [same, append_same, ← same]
    exact readAt_append holds.reads
  · rw [append_other same]
    exact holds.reads

theorem Kept.append (kept : Kept env disk reported appended) :
    Kept env (disk.append file more) reported appended where
  holds := by
    intro one member
    obtain ⟨old, part, holds⟩ := kept.holds one member
    exact ⟨old, part, holds.append⟩
  apart := kept.apart
  once := kept.once
  completed := kept.completed
  sized := kept.sized
  recent := kept.recent
  reported := kept.reported

theorem Kept.whole (kept : Kept env disk reported appended) (unappended : key ∉ appended)
    (known : disk.manifest key = some (.chunk chunk))
    (is : chunk = ⟨content.length, (disk.bytes key.file).length, env.sha256 content, false⟩) :
    Kept env (disk.append key.file content) reported (appended ++ [key]) := by
  have longer : Kept env (disk.append key.file content) reported appended := kept.append
  have members : ∀ other ∈ appended ++ [key], other ∈ appended ∨ other = key :=
    fun other member => (mem_append.mp member).imp_right mem_singleton.mp
  have before : ∀ other ∈ appended, other.file = key.file → ∀ one,
      disk.manifest other = some (.chunk one) → Apart one chunk := by
    intro other member file one there position both
    obtain ⟨old, part, holds⟩ := kept.holds other member
    have same := holds.known.symm.trans there
    cases same
    have some : part ≠ [] := by
      intro none
      have size := holds.size
      rw [none, length_nil] at size
      omega
    have inside := readAt_inside holds.reads some
    have last : chunk.offset = (disk.bytes other.file).length := by
      rw [is, file]
    have size := holds.size
    omega
  constructor
  case holds =>
    intro other member
    rcases members other member with old | rfl
    · exact longer.holds other old
    · refine ⟨chunk, content, known, ?_, ?_, ?_⟩
      · rw [is]
      · rw [is]
      · rw [is, append_same]
        exact readAt_end
  case apart =>
    intro first member second again different file one two is other
    rcases members first member with old | rfl
    · rcases members second again with older | rfl
      · exact kept.apart first old second older different file one two is other
      · have same : two = chunk := by
          rw [show (disk.append second.file content).manifest second = disk.manifest second from rfl,
            known] at other
          cases other
          rfl
        rw [same]
        exact before first old file one is
    · rcases members second again with older | rfl
      · have same : one = chunk := by
          rw [show (disk.append first.file content).manifest first = disk.manifest first from rfl,
            known] at is
          cases is
          rfl
        rw [same]
        exact (before second older file.symm two other).symm
      · exact absurd rfl different
  case once =>
    rw [nodup_append]
    refine ⟨kept.once, nodup_singleton key, fun one member two last same => ?_⟩
    cases mem_singleton.mp last
    exact unappended (same ▸ member)
  case completed =>
    intro other old there completed
    exact (kept.completed other old there completed).imp_left (mem_append_left _)
  case sized => exact kept.sized
  case recent => exact kept.recent
  case reported => exact kept.reported

theorem Kept.complete (kept : Kept env disk reported appended)
    (known : disk.manifest key = some (.chunk chunk))
    (written : key ∈ appended ∨ chunk.byteSize = 0) :
    Kept env (disk.record key chunk.complete) reported appended := by
  have entry : ∀ other one, (disk.record key chunk.complete).manifest other = some (.chunk one) →
      ∃ old, disk.manifest other = some (.chunk old) ∧ one.offset = old.offset ∧
        one.byteSize = old.byteSize ∧ one.sha256 = old.sha256 := by
    intro other one is
    by_cases same : other = key
    · rw [same, record_same] at is
      cases is
      exact ⟨chunk, same ▸ known, rfl, rfl, rfl⟩
    · rw [record_other same] at is
      exact ⟨one, is, rfl, rfl, rfl⟩
  constructor
  case holds =>
    intro other member
    obtain ⟨old, part, holds⟩ := kept.holds other member
    by_cases same : other = key
    · have is := holds.known
      rw [same, known] at is
      cases is
      exact ⟨chunk.complete, part, same ▸ record_same, holds.sha256, holds.size, holds.reads⟩
    · exact ⟨old, part, (record_other same).trans holds.known, holds.sha256, holds.size,
        holds.reads⟩
  case apart =>
    intro first member second again different file one two is other
    obtain ⟨old, before, offset, size, -⟩ := entry first one is
    obtain ⟨older, earlier, offsets, sizes, -⟩ := entry second two other
    have apart := kept.apart first member second again different file old older before earlier
    intro position both
    rw [offset, size, offsets, sizes] at both
    exact apart position both
  case once => exact kept.once
  case completed =>
    intro other one is completed
    by_cases same : other = key
    · rw [same, record_same] at is
      cases is
      rw [same]
      exact written
    · rw [record_other same] at is
      exact kept.completed other one is completed
  case sized =>
    intro other one is
    obtain ⟨old, before, -, size, sha256⟩ := entry other one is
    rw [size, sha256]
    exact kept.sized other old before
  case recent =>
    intro other sha256 is
    by_cases same : other = key
    · rw [same, record_same] at is
      cases is
    · rw [record_other same] at is
      exact kept.recent other sha256 is
  case reported =>
    intro report member
    obtain ⟨old, before, completed, sha256, size⟩ := kept.reported report member
    by_cases same : report.key = key
    · rw [same, known] at before
      cases before
      exact ⟨chunk.complete, same ▸ record_same, rfl, sha256, size⟩
    · exact ⟨old, (record_other same).trans before, completed, sha256, size⟩

omit [DecidableEq Path] in
theorem Kept.report {reply : Reply} (kept : Kept env disk reported appended)
    (done : ∀ duplicate, reply = .ok duplicate → ∃ chunk,
      disk.manifest key = some (.chunk chunk) ∧ chunk.completed = true ∧
        chunk.sha256 = env.sha256 content ∧ chunk.byteSize = content.length) :
    Kept env disk (reported ++ reportOf reply key content) appended := by
  refine ⟨kept.holds, kept.apart, kept.once, kept.completed, kept.sized, kept.recent, ?_⟩
  intro report member
  rcases mem_append.mp member with old | new
  · exact kept.reported report old
  · cases reply with
    | ok duplicate =>
      cases mem_singleton.mp new
      exact done duplicate rfl
    | _ => cases new

/-- A pending chunk that is found in the file has been appended there by a call of its own. -/
def Clear (env : Env Path Digest) (state : State Path Digest) (action : Action) : Prop :=
  ∀ key, checkedKey env action.path action.chunkId action.content = .ok key →
    ∀ chunk, Found env state.disk key action.content chunk → action.content ≠ [] →
      key ∈ state.appended

theorem Kept.effect {outcome : Outcome Path Digest} (kept : Kept env disk reported appended)
    (effect : Effect env disk key content outcome)
    (clear : ∀ chunk, Found env disk key content chunk → content ≠ [] → key ∈ appended) :
    Kept env outcome.disk (reported ++ reportOf outcome.reply key content)
      (appended ++ if outcome.appended then [key] else []) := by
  cases effect with
  | kept reply done =>
    rw [if_neg Bool.false_ne_true, append_nil]
    refine kept.report fun duplicate is => ?_
    rcases done duplicate is with ⟨sha256, old⟩ | ⟨chunk, known, completed, same⟩
    · exact absurd old (kept.recent key sha256)
    · obtain ⟨part, digest, size⟩ := kept.sized key chunk known
      cases env.sha256_injective (digest.symm.trans same)
      exact ⟨chunk, known, completed, same, size⟩
  | found chunk found reply =>
    rw [if_neg Bool.false_ne_true, append_nil]
    have written : key ∈ appended ∨ chunk.byteSize = 0 := by
      by_cases none : content = []
      · right
        rw [found.size, none]
        rfl
      · exact .inl (clear chunk found none)
    exact (kept.complete found.known written).report fun _ _ =>
      ⟨chunk.complete, record_same, rfl, found.sha256, found.size⟩
  | recorded chunk fresh =>
    rw [if_neg Bool.false_ne_true, append_nil]
    exact (kept.record fresh).report nofun
  | cut chunk fresh length short =>
    rw [if_neg Bool.false_ne_true, append_nil]
    exact (kept.record fresh).append.report nofun
  | appended chunk fresh =>
    have whole := (kept.record fresh).whole (fresh.unappended kept) record_same fresh.is
    exact whole.report nofun
  | finished chunk fresh reply =>
    have whole := (kept.record fresh).whole (fresh.unappended kept) record_same fresh.is
    have member : key ∈ appended ++ [key] := mem_append_right _ (mem_singleton.mpr rfl)
    have known : ((disk.record key chunk).append key.file content).manifest key =
        some (.chunk chunk) := record_same
    refine (whole.complete known (.inl member)).report fun _ _ => ?_
    refine ⟨chunk.complete, record_same, rfl, ?_, ?_⟩
    · rw [fresh.is]
      rfl
    · rw [fresh.is]
      rfl

variable [DecidableEq Digest] {state next : State Path Digest}

abbrev State.Sound (env : Env Path Digest) (state : State Path Digest) : Prop :=
  Kept env state.disk state.reported state.appended

theorem State.Sound.step {action : Action} (sound : state.Sound env)
    (clear : Clear env state action) (taken : step env state action = some next) :
    next.Sound env := by
  dsimp only [AppendFile.step] at taken
  split at taken
  · cases taken
    exact sound
  · rename_i key checked
    cases taken
    exact sound.effect (appendFile_effect checked) (clear key checked)

omit [DecidableEq Path] [DecidableEq Digest] in
theorem start_sound (files : Path → Option Bytes) : (start files : State Path Digest).Sound env := by
  constructor
  case holds => nofun
  case apart => nofun
  case once => exact nodup_nil
  case completed => nofun
  case sized => nofun
  case recent => nofun
  case reported => nofun

theorem found_unappended {action : Action} (done : action.stop = .never)
    (unclear : ¬Clear env state action) (taken : step env state action = some next) :
    ∃ report ∈ next.reported, report.content ≠ [] ∧ report.key ∉ next.appended := by
  simp only [Clear, not_forall] at unclear
  obtain ⟨key, checked, chunk, found, some, unappended⟩ := unclear
  have answered : appendFile env state.disk action.path action.chunkId action.content action.stop =
      ⟨state.disk.record key chunk.complete, .ok true, false⟩ := by
    rw [appendFile, checked]
    dsimp only
    rw [found.known]
    dsimp only
    rw [if_neg (Decidable.not_not.mpr found.sha256), if_neg (by rw [found.pending]; decide),
      if_neg (Decidable.not_not.mpr found.size)]
    dsimp only [recover]
    rw [if_pos found.reads, done]
    rfl
  dsimp only [AppendFile.step] at taken
  rw [answered, checked] at taken
  cases taken
  refine ⟨⟨key, action.content⟩, mem_append_right _ (mem_singleton.mpr rfl), some, ?_⟩
  rw [if_neg Bool.false_ne_true, append_nil]
  exact unappended

/-- As long as a pending chunk is found only where it has been appended, the chunks reported ok
are in their files with their contents, apart from each other, each of them appended once, and
an id is reported ok with one content; and a call that finds another's bytes answers ok for a
chunk that was never appended. -/
theorem chunks_stand_apart (env : Env Path Digest) (files : Path → Option Bytes)
    (actions : List Action) (state : State Path Digest)
    (run : Steps (step env) (Clear env) (start files) actions state) :
    (∀ report ∈ state.reported, (report.content ≠ [] → report.key ∈ state.appended) ∧
      ∃ chunk, state.disk.manifest report.key = some (.chunk chunk) ∧
        readAt (state.disk.bytes report.key.file) chunk.offset chunk.byteSize = report.content) ∧
    (∀ first ∈ state.reported, ∀ second ∈ state.reported, first.key ≠ second.key →
      first.key.file = second.key.file → ∀ one two,
        state.disk.manifest first.key = some (.chunk one) →
          state.disk.manifest second.key = some (.chunk two) → Apart one two) ∧
    state.appended.Nodup ∧
    (∀ first ∈ state.reported, ∀ second ∈ state.reported, first.key = second.key →
      first.content = second.content) ∧
    ∀ action next, action.stop = .never → ¬Clear env state action →
      step env state action = some next →
        ∃ report ∈ next.reported, report.content ≠ [] ∧ report.key ∉ next.appended := by
  have sound : state.Sound env := run.invariant (State.Sound env)
    (fun _ _ _ sound clear taken => sound.step clear taken) (start_sound files)
  have written : ∀ report ∈ state.reported, report.content ≠ [] → report.key ∈ state.appended := by
    intro report member some
    obtain ⟨chunk, known, completed, -, size⟩ := sound.reported report member
    rcases sound.completed report.key chunk known completed with own | empty
    · exact own
    · exact absurd (length_eq_zero_iff.mp (size.symm.trans empty)) some
  refine ⟨?_, ?_, sound.once, ?_, fun action next done unclear taken =>
    found_unappended done unclear taken⟩
  · intro report member
    obtain ⟨chunk, known, -, sha256, size⟩ := sound.reported report member
    refine ⟨written report member, chunk, known, ?_⟩
    rw [size]
    by_cases none : report.content = []
    · rw [none]
      exact take_zero ..
    · obtain ⟨other, part, holds⟩ := sound.holds report.key (written report member none)
      have same := holds.known.symm.trans known
      cases same
      have part := env.sha256_injective (holds.sha256.symm.trans sha256)
      subst part
      exact holds.reads
  · intro first member second again different file one two known other position both
    have own : ∀ report ∈ state.reported, ∀ chunk,
        state.disk.manifest report.key = some (.chunk chunk) → chunk.byteSize ≠ 0 →
          report.key ∈ state.appended := by
      intro report reports chunk is positive
      obtain ⟨same, there, -, -, size⟩ := sound.reported report reports
      rw [is] at there
      cases there
      refine written report reports fun none => positive ?_
      rw [size, none]
      rfl
    exact sound.apart first.key (own first member one known (by omega)) second.key
      (own second again two other (by omega)) different file one two known other position both
  · intro first member second again same
    obtain ⟨one, known, -, sha256, -⟩ := sound.reported first member
    obtain ⟨two, other, -, digest, -⟩ := sound.reported second again
    rw [← same, known] at other
    cases other
    exact env.sha256_injective (sha256.symm.trans digest)

instance : Decidable (Found env disk key content chunk) :=
  decidable_of_iff (disk.manifest key = some (.chunk chunk) ∧ chunk.sha256 = env.sha256 content ∧
      chunk.byteSize = content.length ∧ chunk.completed = false ∧
      readAt (disk.bytes key.file) chunk.offset content.length = content)
    ⟨fun holds => ⟨holds.1, holds.2.1, holds.2.2.1, holds.2.2.2.1, holds.2.2.2.2⟩,
      fun found => ⟨found.known, found.sha256, found.size, found.pending, found.reads⟩⟩

def ClearAt (env : Env Path Digest) (state : State Path Digest) (key : Key Path)
    (content : Bytes) : Prop :=
  match state.disk.manifest key with
  | some (.chunk chunk) => Found env state.disk key content chunk → content ≠ [] →
      key ∈ state.appended
  | _ => True

instance : Decidable (ClearAt env state key content) :=
  match known : state.disk.manifest key with
  | some (.chunk chunk) => decidable_of_iff
      (Found env state.disk key content chunk → content ≠ [] → key ∈ state.appended)
      (by rw [ClearAt, known])
  | some (.digest _) => .isTrue (by rw [ClearAt, known]; trivial)
  | none => .isTrue (by rw [ClearAt, known]; trivial)

omit [DecidableEq Digest] in
theorem clearAt_iff {action : Action}
    (checked : checkedKey env action.path action.chunkId action.content = .ok key) :
    ClearAt env state key action.content ↔ Clear env state action := by
  constructor
  · intro clear other is chunk found
    rw [checked] at is
    cases is
    rw [ClearAt, found.known] at clear
    exact clear found
  · intro clear
    rw [ClearAt]
    split
    · exact clear key checked _
    · trivial

instance (env : Env Path Digest) (state : State Path Digest) (action : Action) :
    Decidable (Clear env state action) :=
  match checked : checkedKey env action.path action.chunkId action.content with
  | .error _ => .isTrue fun key is => by rw [checked] at is; cases is
  | .ok _ => decidable_of_iff _ (clearAt_iff checked)

def scratch : Env String Bytes where
  resolve := fun path => if path = "/etc/passwd" then none else some path
  manifestPath := ".sourcelens-append-chunks.json"
  chunkIdPattern := fun chunkId => decide (chunkId ≠ "")
  sha256 := id
  sha256_injective := Function.injective_id

def appending (chunkId : String) (content : Bytes) (stop : Stop) : Action :=
  ⟨"report.md", chunkId, content, stop⟩

def retriedChunks : List Action :=
  [appending "c1" [1, 2] .appended, appending "c2" [1] .never, appending "c1" [1, 2] .never]

theorem chunks_stand_apart_retried : ∃ state : State String Bytes,
    execGuarded (step scratch) (Clear scratch) (start fun _ => none) retriedChunks = some state ∧
    (∀ report ∈ state.reported, (report.content ≠ [] → report.key ∈ state.appended) ∧
      ∃ chunk, state.disk.manifest report.key = some (.chunk chunk) ∧
        readAt (state.disk.bytes report.key.file) chunk.offset chunk.byteSize = report.content) ∧
    (∀ first ∈ state.reported, ∀ second ∈ state.reported, first.key ≠ second.key →
      first.key.file = second.key.file → ∀ one two,
        state.disk.manifest first.key = some (.chunk one) →
          state.disk.manifest second.key = some (.chunk two) → Apart one two) ∧
    state.appended.Nodup ∧
    (∀ first ∈ state.reported, ∀ second ∈ state.reported, first.key = second.key →
      first.content = second.content) ∧
    ∀ action next, action.stop = .never → ¬Clear scratch state action →
      step scratch state action = some next →
        ∃ report ∈ next.reported, report.content ≠ [] ∧ report.key ∉ next.appended := by
  have ends : (execGuarded (step scratch) (Clear scratch) (start fun _ => none)
      retriedChunks).isSome := by
    decide +kernel
  obtain ⟨state, run⟩ := Option.isSome_iff_exists.mp ends
  exact ⟨state, run, chunks_stand_apart scratch (fun _ => none) retriedChunks state
    (execGuarded_steps run)⟩

/-- A crash before the append, another chunk that begins with the same byte, and the retry: both
are reported ok, and the byte is in both ranges. -/
theorem chunks_overlap :
    (exec (step scratch) (start fun _ => none) [appending "c1" [1] .saved,
        appending "c2" [1, 2] .never, appending "c1" [1] .never]).map (fun state =>
          (state.disk.bytes "report.md",
            state.reported.map fun report =>
              (report.key.chunkId, state.disk.manifest report.key))) =
      some ([1, 2], [("c2", some (.chunk ⟨2, 0, [1, 2], true⟩)),
        ("c1", some (.chunk ⟨1, 0, [1], true⟩))]) := by
  decide +kernel

end SourceLens.AppendFile
