import SourceLens.Library.Transition

/-! The output quotas of `run_skill_script` of `agent_tools.py`, for calls that overlap. -/

namespace SourceLens.ScriptQuota

open List
open Transition (Steps Any)

structure Policy where
  perCall : Nat
  perRun : Nat

inductive Phase
  | running
  /-- The call has read the run's count, to write it with its own bytes added. -/
  | adding (count : Nat)
  | ended
  deriving DecidableEq

/-- A call with `max_output_bytes` and the bytes that its two threads have captured. -/
structure Call where
  limit : Nat
  captured : Nat
  phase : Phase
  deriving DecidableEq

structure Run where
  /-- `script_output_bytes` -/
  counted : Nat
  calls : List Call
  deriving DecidableEq

inductive Action
  | start
  /-- One of the threads has read a chunk of so many bytes. -/
  | drain (call chunk : Nat)
  | load (call : Nat)
  | store (call : Nat)
  /-- The call ends in an `OSError`. -/
  | fail (call : Nat)

def fresh : Run := ⟨0, []⟩

/-- `output_byte_limit` -/
def outputByteLimit (policy : Policy) (run : Run) : Nat :=
  min policy.perCall (policy.perRun - run.counted)

def Run.update (run : Run) (index : Nat) (call : Call) : Run :=
  { run with calls := run.calls.set index call }

def Call.drain (call : Call) (chunk : Nat) : Call :=
  { call with captured := call.captured + min chunk (call.limit - call.captured) }

def step (policy : Policy) (run : Run) : Action → Option Run
  | .start =>
    if policy.perRun ≤ run.counted then some run
    else some { run with calls := run.calls ++ [⟨outputByteLimit policy run, 0, .running⟩] }
  | .drain index chunk =>
    match run.calls[index]? with
    | some call =>
      if call.phase = .running then some (run.update index (call.drain chunk)) else none
    | none => none
  | .load index =>
    match run.calls[index]? with
    | some call =>
      if call.phase = .running then
        some (run.update index { call with phase := .adding run.counted })
      else none
    | none => none
  | .store index =>
    match run.calls[index]? with
    | some ⟨limit, captured, .adding count⟩ =>
      some { run.update index ⟨limit, captured, .ended⟩ with counted := count + captured }
    | _ => none
  | .fail index =>
    match run.calls[index]? with
    | some call =>
      if call.phase = .running then some (run.update index { call with phase := .ended }) else none
    | none => none

def total (size : Call → Nat) : List Call → Nat
  | [] => 0
  | call :: rest => size call + total size rest

def Call.reserve (call : Call) : Nat := if call.phase = .running then call.limit else call.captured

structure Within (policy : Policy) (run : Run) : Prop where
  perRun : total Call.captured run.calls ≤ policy.perRun
  perCall : ∀ call ∈ run.calls, call.captured ≤ policy.perCall

/-- A call starts only where its limit fits in beside what the others may come to. -/
def Fits (policy : Policy) (run : Run) : Action → Prop
  | .start => policy.perRun ≤ run.counted ∨
      total Call.reserve run.calls + outputByteLimit policy run ≤ policy.perRun
  | _ => True

structure Sound (policy : Policy) (run : Run) : Prop where
  reserved : total Call.reserve run.calls ≤ policy.perRun
  limits : ∀ call ∈ run.calls, call.captured ≤ call.limit ∧ call.limit ≤ policy.perCall

variable {policy : Policy} {run next : Run} {call other : Call} {index : Nat} {size : Call → Nat}

theorem total_append (calls : List Call) : total size (calls ++ [call]) = total size calls + size call := by
  induction calls with
  | nil => exact (Nat.zero_add _).symm
  | cons head rest ih => rw [cons_append, total, total, ih, Nat.add_assoc]

theorem total_set {calls : List Call} (known : calls[index]? = some call) :
    total size (calls.set index other) + size call = total size calls + size other := by
  induction calls generalizing index with
  | nil => cases known
  | cons head rest ih =>
    cases index with
    | zero =>
      cases known
      rw [set_cons_zero, total, total]
      omega
    | succ index =>
      have later := ih (getElem?_cons_succ.symm.trans known)
      rw [set_cons_succ, total, total]
      omega

theorem total_le {larger : Call → Nat} {calls : List Call}
    (le : ∀ call ∈ calls, size call ≤ larger call) : total size calls ≤ total larger calls := by
  induction calls with
  | nil => exact Nat.le_refl _
  | cons head rest ih =>
    exact Nat.add_le_add (le head (mem_cons_self ..))
      (ih fun call member => le call (mem_cons_of_mem _ member))

theorem captured_reserve (within : call.captured ≤ call.limit) : call.captured ≤ call.reserve := by
  rw [Call.reserve]
  split
  · exact within
  · exact Nat.le_refl _

theorem drain_within (within : call.captured ≤ call.limit) (chunk : Nat) :
    (call.drain chunk).captured ≤ (call.drain chunk).limit := by
  rw [Call.drain]
  dsimp only
  omega

/-- A call is replaced by one that may come to no more. -/
theorem Sound.update (sound : Sound policy run) (known : run.calls[index]? = some call)
    (captured : other.captured ≤ other.limit) (limit : other.limit = call.limit)
    (reserve : other.reserve ≤ call.reserve) : Sound policy (run.update index other) := by
  constructor
  · have moved : total Call.reserve (run.calls.set index other) + call.reserve = _ := total_set known
    have before := sound.reserved
    rw [Run.update]
    dsimp only
    omega
  · intro member among
    rcases mem_or_eq_of_mem_set among with old | rfl
    · exact sound.limits member old
    · refine ⟨captured, ?_⟩
      rw [limit]
      exact (sound.limits call (mem_of_getElem? known)).2

theorem Sound.start (sound : Sound policy run) (fits : Fits policy run .start)
    (taken : step policy run .start = some next) : Sound policy next := by
  rw [step] at taken
  split at taken
  · cases taken
    exact sound
  · rename_i room
    cases taken
    have enough := fits.resolve_left room
    constructor
    · rw [total_append]
      exact enough
    · intro member among
      rcases mem_append.mp among with old | new
      · exact sound.limits member old
      · cases mem_singleton.mp new
        exact ⟨Nat.zero_le _, Nat.min_le_left _ _⟩

theorem step_sound (sound : Sound policy run) {action : Action} (fits : Fits policy run action)
    (taken : step policy run action = some next) : Sound policy next := by
  have limits (index : Nat) (call : Call) (known : run.calls[index]? = some call) :=
    (sound.limits call (mem_of_getElem? known)).1
  cases action with
  | start => exact sound.start fits taken
  | drain index chunk =>
    rw [step] at taken
    split at taken
    · rename_i call known
      split at taken
      · rename_i active
        cases taken
        refine sound.update known (drain_within (limits index call known) chunk) rfl ?_
        have same : (call.drain chunk).reserve = call.reserve := by
          rw [Call.reserve, Call.reserve, Call.drain, if_pos active, if_pos active]
        exact Nat.le_of_eq same
      · cases taken
    · cases taken
  | load index =>
    rw [step] at taken
    split at taken
    · rename_i call known
      split at taken
      · cases taken
        exact sound.update known (limits index call known) rfl
          (captured_reserve (limits index call known))
      · cases taken
    · cases taken
  | store index =>
    rw [step] at taken
    split at taken
    · rename_i limit captured count known
      cases taken
      have updated : Sound policy (run.update index ⟨limit, captured, .ended⟩) :=
        sound.update known (limits index ⟨limit, captured, .adding count⟩ known) rfl (Nat.le_refl _)
      exact ⟨updated.reserved, updated.limits⟩
    · cases taken
  | fail index =>
    rw [step] at taken
    split at taken
    · rename_i call known
      split at taken
      · cases taken
        exact sound.update known (limits index call known) rfl
          (captured_reserve (limits index call known))
      · cases taken
    · cases taken

theorem Sound.within (sound : Sound policy run) : Within policy run := by
  constructor
  · exact Nat.le_trans (total_le fun call member => captured_reserve (sound.limits call member).1)
      sound.reserved
  · intro call member
    exact Nat.le_trans (sound.limits call member).1 (sound.limits call member).2

/-- One call at a time, each counted before the next one starts, is enough. -/
theorem fits_alone (ended : ∀ call ∈ run.calls, call.phase = .ended)
    (counted : total Call.captured run.calls = run.counted) : Fits policy run .start := by
  by_cases full : policy.perRun ≤ run.counted
  · exact .inl full
  · have reserved : total Call.reserve run.calls ≤ total Call.captured run.calls := by
      apply total_le
      intro call member
      have own : call.reserve = call.captured := by
        rw [Call.reserve, ended call member, if_neg (by decide)]
      exact Nat.le_of_eq own
    have fewer : outputByteLimit policy run ≤ policy.perRun - run.counted := Nat.min_le_right _ _
    refine .inr ?_
    omega

/-- Both quotas are kept in every state of a run whose calls start only where they fit in. -/
theorem quotas_kept {finish : Run} {actions : List Action}
    (run : Steps (step policy) (Fits policy) fresh actions finish) : Within policy finish := by
  have sound : Sound policy finish := by
    apply run.invariant (Sound policy)
    · intro state action next sound fits taken
      exact step_sound sound fits taken
    · exact ⟨Nat.zero_le _, by rintro _ ⟨⟩⟩
  exact sound.within

theorem quotas_kept_once : Within ⟨10, 10⟩ ⟨4, [⟨10, 4, .ended⟩]⟩ :=
  @quotas_kept ⟨10, 10⟩ _ [.start, .drain 0 4, .load 0, .store 0]
    (.cons (.inr (by decide)) rfl (.cons trivial rfl (.cons trivial rfl (.cons trivial rfl (.nil _)))))

/-- Two calls that start together capture twice the quota of the run. -/
theorem overlapping_exceed :
    ∃ run, Transition.exec (step ⟨10, 10⟩) fresh [.start, .start, .drain 0 10, .drain 1 10] = some run ∧
      ¬ Within ⟨10, 10⟩ run :=
  ⟨_, rfl, fun within => absurd within.perRun (by decide)⟩

end SourceLens.ScriptQuota
