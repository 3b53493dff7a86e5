import SourceLens.Library.ExpiringCache
import SourceLens.Library.TaskPool
import SourceLens.Library.Transition

/-! The verification codes of one email (`accounts/services/otp.py`): `store_code`,
`delete_code` and `verify_code`, one cache operation a step. -/

namespace SourceLens.LoginCode

open ExpiringCache (Entry)
open Transition

structure Settings where
  codeTtl : Nat
  maxAttempts : Nat

/-- The cached record. The last two fields are not stored: they say which `store_code` call
it goes back to. -/
structure Record (Digest : Type) where
  codeHash : Digest
  attempts : Nat
  issue : Nat
  issuedAt : Nat
  deriving DecidableEq

/-- What `verify_code` still has to do with the record it has read. -/
inductive Verdict (Digest : Type)
  /-- Delete; nothing has been compared. -/
  | exhausted
  /-- Delete, and return true. -/
  | accepted
  /-- Delete after the last attempt. -/
  | lastWrong
  /-- Write the record back. -/
  | wrong (record : Record Digest)
  deriving DecidableEq

def Verdict.isWrong {Digest : Type} : Verdict Digest → Bool
  | .lastWrong | .wrong _ => true
  | _ => false

/-- A call of `verify_code` between its read and its write. -/
structure Call (Digest : Type) where
  record : Record Digest
  verdict : Verdict Digest
  deriving DecidableEq

inductive Event
  | issued (issue time : Nat)
  /-- The key is deleted, after so many codes have been issued. -/
  | deleted (issues : Nat)
  | accepted (issue time : Nat)
  /-- A guess has been compared with the code, and differs. -/
  | wrong (issue : Nat)
  deriving DecidableEq, Repr

structure World (Digest : Type) where
  now : Nat
  held : Option (Entry (Record Digest))
  issues : Nat
  calls : List (Call Digest)
  log : List Event

section Model

variable {Code Digest : Type} [DecidableEq Digest]

/-- `cache.get(key)`. -/
def World.get (world : World Digest) : Option (Record Digest) :=
  (world.held.filter fun entry => world.now < entry.deadline).map Entry.value

def World.delete (world : World Digest) : World Digest :=
  { world with held := none, log := world.log ++ [.deleted world.issues] }

def storeCode (settings : Settings) (hash : Code → Digest) (world : World Digest) (code : Code) :
    World Digest :=
  { world with
    held := some ⟨⟨hash code, 0, world.issues, world.now⟩, world.now + settings.codeTtl⟩
    issues := world.issues + 1
    log := world.log ++ [.issued world.issues world.now] }

/-- `verify_code` between the read and the write. -/
def judge (settings : Settings) (hash : Code → Digest) (record : Record Digest) (code : Code) :
    Verdict Digest :=
  if settings.maxAttempts ≤ record.attempts then .exhausted
  else if record.codeHash = hash code then .accepted
  else if settings.maxAttempts ≤ record.attempts + 1 then .lastWrong
  else .wrong { record with attempts := record.attempts + 1 }

def verifyCode (settings : Settings) (hash : Code → Digest) (world : World Digest) (code : Code) :
    World Digest :=
  match world.get with
  | none => world
  | some record =>
    let verdict := judge settings hash record code
    { world with
      calls := world.calls ++ [⟨record, verdict⟩]
      log := if verdict.isWrong then world.log ++ [.wrong record.issue] else world.log }

def Call.write (settings : Settings) (world : World Digest) (call : Call Digest) : World Digest :=
  match call.verdict with
  | .exhausted | .lastWrong => world.delete
  | .accepted =>
    { world with log := world.log ++ [Event.accepted call.record.issue world.now] }.delete
  | .wrong record => { world with held := some ⟨record, world.now + settings.codeTtl⟩ }

inductive Action (Code : Type)
  | wait (ticks : Nat)
  | storeCode (code : Code)
  | deleteCode
  | verifyCode (code : Code)
  | write (index : Nat)

def step (settings : Settings) (hash : Code → Digest) (world : World Digest) :
    Action Code → Option (World Digest)
  | .wait ticks => some { world with now := world.now + ticks }
  | .storeCode code => some (storeCode settings hash world code)
  | .deleteCode => some world.delete
  | .verifyCode code => some (verifyCode settings hash world code)
  | .write index =>
    (world.calls[index]?).map fun call =>
      { call.write settings world with calls := TaskPool.settle world.calls index none }

def World.initial : World Digest := ⟨0, none, 0, [], []⟩

end Model

/-- What an event may follow: an accepted code is the newest, has been neither deleted nor
accepted, and is no older than its time to live. -/
def Fair (settings : Settings) (before : List Event) : Event → Prop
  | .accepted issue time =>
    (∀ issues, .deleted issues ∈ before → issues ≤ issue) ∧
    (∀ newer at', .issued newer at' ∈ before → newer ≤ issue) ∧
    (∀ earlier, .accepted issue earlier ∉ before) ∧
    ∃ at', .issued issue at' ∈ before ∧ time ≤ at' + settings.codeTtl
  | _ => True

structure Honest (settings : Settings) (log : List Event) : Prop where
  fair : ∀ before event after, log = before ++ event :: after → Fair settings before event
  guesses : ∀ issue, log.count (.wrong issue) ≤ settings.maxAttempts

section Runs

variable {Code Digest : Type} [DecidableEq Digest]

/-- The wrong guesses at a code whose calls have not written yet. -/
def inFlight (calls : List (Call Digest)) (issue : Nat) : Nat :=
  calls.countP fun call => decide (call.record.issue = issue) && call.verdict.isWrong

/-- A right guess finds the code still held, and within its first time to live where a wrong
guess has renewed the entry; a wrong one finds the record as it was when it writes it back. -/
def Call.Meets (settings : Settings) (world : World Digest) (call : Call Digest) : Prop :=
  match call.verdict with
  | .accepted => ∃ record ∈ world.get, record.issue = call.record.issue ∧
      (record.attempts = 0 ∨ world.now ≤ record.issuedAt + settings.codeTtl)
  | .wrong _ => world.get = some call.record
  | _ => True

/-- The writes meet their records, and the wrong guesses under way leave room for one more. -/
def Orderly (settings : Settings) (hash : Code → Digest) (world : World Digest) :
    Action Code → Prop
  | .verifyCode code => ∀ record ∈ world.get, (judge settings hash record code).isWrong = true →
      record.attempts + inFlight world.calls record.issue < settings.maxAttempts
  | .write index => ∀ call ∈ world.calls[index]?, call.Meets settings world
  | _ => True

end Runs

end SourceLens.LoginCode
