import SourceLens.LoginCode

/-! In an orderly run each code is accepted once, while it is the newest and within its time
to live, and meets no more wrong guesses than are allowed. -/

namespace SourceLens.LoginCode

open List
open ExpiringCache (Entry)
open Transition

variable {Code Digest : Type} {settings : Settings} {hash : Code → Digest}
  {world next : World Digest} {log before : List Event} {event : Event}

variable {record : Record Digest}

theorem Honest.append (honest : Honest settings log) (fair : Fair settings log event)
    (room : ∀ issue, event = .wrong issue → log.count event < settings.maxAttempts) :
    Honest settings (log ++ [event]) := by
  constructor
  · intro before other after whole
    rcases eq_nil_or_concat after with rfl | ⟨rest, last, rfl⟩
    · obtain ⟨rfl, same⟩ := append_inj' whole rfl
      cases same
      exact fair
    · have shorter : log ++ [event] = (before ++ other :: rest) ++ [last] := by
        rw [whole]
        simp
      obtain ⟨rfl, _⟩ := append_inj' shorter rfl
      exact honest.fair before other rest rfl
  · intro issue
    rw [count_append, count_singleton]
    split
    · rename_i same
      have is := beq_iff_eq.mp same
      have more := room issue is
      rw [is] at more
      exact more
    · exact honest.guesses issue

theorem honest_nil : Honest settings [] where
  fair := by
    intro before event after whole
    cases before <;> cases whole
  guesses := fun _ => Nat.zero_le _

/-- The record in the cache, alive or not, is that of the newest code. -/
structure World.Holds (settings : Settings) (world : World Digest) (entry : Entry (Record Digest)) :
    Prop where
  newest : entry.value.issue + 1 = world.issues
  undeleted : ∀ issues, .deleted issues ∈ world.log → issues ≤ entry.value.issue
  issued : .issued entry.value.issue entry.value.issuedAt ∈ world.log
  first : entry.value.attempts = 0 → entry.deadline = entry.value.issuedAt + settings.codeTtl
  counted : world.log.count (.wrong entry.value.issue) ≤
    entry.value.attempts + inFlight world.calls entry.value.issue

structure World.Sound (settings : Settings) (world : World Digest) : Prop where
  honest : Honest settings world.log
  issued : ∀ issue time, .issued issue time ∈ world.log → issue < world.issues
  deleted : ∀ issues, .deleted issues ∈ world.log → issues ≤ world.issues
  guessed : ∀ issue, .wrong issue ∈ world.log → issue < world.issues
  calls : ∀ call ∈ world.calls, call.record.issue < world.issues
  written : ∀ call ∈ world.calls, ∀ record, call.verdict = .wrong record →
    record = { call.record with attempts := call.record.attempts + 1 }
  spent : ∀ issue time, .accepted issue time ∈ world.log →
    ∃ issues, issue < issues ∧ .deleted issues ∈ world.log
  held : ∀ entry, world.held = some entry → world.Holds settings entry

theorem get_held (found : world.get = some record) :
    ∃ entry, world.held = some entry ∧ entry.value = record ∧ world.now < entry.deadline := by
  obtain ⟨entry, alive, same⟩ := Option.map_eq_some_iff.mp found
  obtain ⟨stored, fresh⟩ := Option.filter_eq_some_iff.mp alive
  exact ⟨entry, stored, same, of_decide_eq_true fresh⟩

theorem storeCode_sound (sound : world.Sound settings) (code : Code) :
    (storeCode settings hash world code).Sound settings where
  honest := sound.honest.append trivial (by rintro _ ⟨⟩)
  issued := by
    intro issue time member
    rcases mem_append.mp member with old | new
    · exact Nat.lt_succ_of_lt (sound.issued issue time old)
    · cases mem_singleton.mp new
      exact Nat.lt_succ_self _
  deleted := by
    intro issues member
    have old : .deleted issues ∈ world.log := by simpa [storeCode] using member
    exact Nat.le_succ_of_le (sound.deleted issues old)
  guessed := by
    intro issue member
    have old : .wrong issue ∈ world.log := by simpa [storeCode] using member
    exact Nat.lt_succ_of_lt (sound.guessed issue old)
  calls := fun call member => Nat.lt_succ_of_lt (sound.calls call member)
  written := sound.written
  spent := by
    intro issue time member
    have old : .accepted issue time ∈ world.log := by simpa [storeCode] using member
    obtain ⟨issues, later, gone⟩ := sound.spent issue time old
    exact ⟨issues, later, mem_append_left _ gone⟩
  held := by
    rintro _ ⟨⟩
    refine ⟨rfl, ?_, mem_append_right _ (mem_singleton_self _), fun _ => rfl, ?_⟩
    · intro issues member
      exact sound.deleted issues (by simpa [storeCode] using member)
    · -- The new code has not been guessed at.
      have unguessed : (world.log ++ [Event.issued world.issues world.now]).count
          (Event.wrong world.issues) = 0 := by
        rw [count_eq_zero]
        intro member
        have old : .wrong world.issues ∈ world.log := by simpa using member
        exact absurd (sound.guessed _ old) (Nat.lt_irrefl _)
      exact Nat.le_trans (Nat.le_of_eq unguessed) (Nat.zero_le _)

theorem delete_sound (sound : world.Sound settings) : world.delete.Sound settings where
  honest := sound.honest.append trivial (by rintro _ ⟨⟩)
  issued := fun issue time member => sound.issued issue time (by simpa [World.delete] using member)
  deleted := by
    intro issues member
    rcases mem_append.mp member with old | new
    · exact sound.deleted issues old
    · cases mem_singleton.mp new
      exact Nat.le_refl _
  guessed := fun issue member => sound.guessed issue (by simpa [World.delete] using member)
  calls := sound.calls
  written := sound.written
  spent := by
    intro issue time member
    have old : .accepted issue time ∈ world.log := by simpa [World.delete] using member
    obtain ⟨issues, later, gone⟩ := sound.spent issue time old
    exact ⟨issues, later, mem_append_left _ gone⟩
  held := by rintro _ ⟨⟩

theorem inFlight_append (calls : List (Call Digest)) (call : Call Digest) (issue : Nat) :
    inFlight (calls ++ [call]) issue = inFlight calls issue +
      if call.record.issue = issue ∧ call.verdict.isWrong = true then 1 else 0 := by
  simp [inFlight, countP_append, countP_singleton]

variable {index : Nat} {call : Call Digest}

theorem inFlight_settle {calls : List (Call Digest)} (current : calls[index]? = some call)
    (issue : Nat) : inFlight calls issue = inFlight (TaskPool.settle calls index none) issue +
      if call.record.issue = issue ∧ call.verdict.isWrong = true then 1 else 0 := by
  obtain ⟨rest, whole, settled⟩ := TaskPool.settle_perm current none
  have left : inFlight (TaskPool.settle calls index none) issue = inFlight rest issue :=
    settled.countP_eq _
  have all : inFlight calls issue = inFlight (call :: rest) issue := whole.countP_eq _
  rw [all, left]
  simp [inFlight, countP_cons]

theorem settle_sound (sound : world.Sound settings) (index : Nat) (none : world.held = none) :
    World.Sound settings { world with calls := TaskPool.settle world.calls index .none } := by
  have fewer : ∀ call ∈ TaskPool.settle world.calls index .none, call ∈ world.calls := by
    intro call member
    exact (TaskPool.mem_settle member).resolve_right (by rintro ⟨⟩)
  exact { sound with
    calls := fun call member => sound.calls call (fewer call member)
    written := fun call member => sound.written call (fewer call member)
    held := fun entry stored => by rw [none] at stored; cases stored }

theorem accept_sound (sound : world.Sound settings) (found : world.get = some record)
    (fresh : record.attempts = 0 ∨ world.now ≤ record.issuedAt + settings.codeTtl) :
    (World.delete { world with
      log := world.log ++ [Event.accepted record.issue world.now] }).Sound settings := by
  obtain ⟨entry, stored, rfl, alive⟩ := get_held found
  have holds := sound.held entry stored
  have newest := holds.newest
  have fair : Fair settings world.log (.accepted entry.value.issue world.now) := by
    refine ⟨holds.undeleted, ?_, ?_, entry.value.issuedAt, holds.issued, ?_⟩
    · intro newer time member
      have drawn := sound.issued newer time member
      omega
    · intro time member
      obtain ⟨issues, later, gone⟩ := sound.spent _ time member
      exact absurd (holds.undeleted issues gone) (Nat.not_le_of_lt later)
    · rcases fresh with never | young
      · have deadline := holds.first never
        omega
      · exact young
  constructor
  · exact (sound.honest.append fair (by rintro _ ⟨⟩)).append trivial (by rintro _ ⟨⟩)
  · exact fun issue time member => sound.issued issue time (by simpa [World.delete] using member)
  · intro issues member
    have among : .deleted issues ∈ world.log ∨ issues = world.issues := by
      simpa [World.delete] using member
    rcases among with old | rfl
    · exact sound.deleted issues old
    · exact Nat.le_refl _
  · exact fun issue member => sound.guessed issue (by simpa [World.delete] using member)
  · exact sound.calls
  · exact sound.written
  · intro issue time member
    have among : .accepted issue time ∈ world.log ∨ issue = entry.value.issue ∧ time = world.now :=
      by simpa [World.delete] using member
    rcases among with old | ⟨rfl, _⟩
    · obtain ⟨issues, later, gone⟩ := sound.spent issue time old
      exact ⟨issues, later, by simp [World.delete, gone]⟩
    · exact ⟨world.issues, by omega, by simp [World.delete]⟩
  · rintro _ ⟨⟩

variable [DecidableEq Digest]

theorem judge_wrong {written : Record Digest} {code : Code}
    (is : judge settings hash record code = .wrong written) :
    written = { record with attempts := record.attempts + 1 } := by
  unfold judge at is
  split_ifs at is
  cases is
  rfl

theorem World.Sound.reads {entry : Entry (Record Digest)} (sound : world.Sound settings)
    (stored : world.held = some entry) (hash : Code → Digest) (code : Code) :
    ∀ call ∈ world.calls ++ [⟨entry.value, judge settings hash entry.value code⟩],
      call.record.issue < world.issues ∧ ∀ record, call.verdict = .wrong record →
        record = { call.record with attempts := call.record.attempts + 1 } := by
  intro call member
  rcases mem_append.mp member with old | new
  · exact ⟨sound.calls call old, sound.written call old⟩
  · cases mem_singleton.mp new
    exact ⟨Nat.lt_of_succ_le (Nat.le_of_eq (sound.held entry stored).newest),
      fun record is => judge_wrong is⟩

theorem verifyCode_sound (sound : world.Sound settings) (code : Code)
    (orderly : Orderly settings hash world (.verifyCode code)) :
    (verifyCode settings hash world code).Sound settings := by
  unfold verifyCode
  cases found : world.get with
  | none => exact sound
  | some record =>
    obtain ⟨entry, stored, rfl, _⟩ := get_held found
    have reads := sound.reads stored hash code
    have room := orderly entry.value found
    have flight := inFlight_append world.calls
      ⟨entry.value, judge settings hash entry.value code⟩
    cases compared : (judge settings hash entry.value code).isWrong with
    | false =>
      simp only [compared, Bool.false_eq_true, and_false, if_false, Nat.add_zero] at flight ⊢
      refine { sound with
        calls := fun call member => (reads call member).1
        written := fun call member => (reads call member).2
        held := fun other same => ?_ }
      have kept := sound.held other same
      exact { kept with counted := flight other.value.issue ▸ kept.counted }
    | true =>
      have fits := room compared
      have holds := sound.held entry stored
      simp only [compared, and_true, if_true] at flight ⊢
      refine {
        honest := sound.honest.append trivial ?_
        issued := fun issue time member => sound.issued issue time (by simpa using member)
        deleted := fun issues member => sound.deleted issues (by simpa using member)
        guessed := ?_
        calls := fun call member => (reads call member).1
        written := fun call member => (reads call member).2
        spent := ?_
        held := ?_ }
      · rintro _ ⟨⟩
        have counted := holds.counted
        omega
      · intro issue member
        rcases mem_append.mp member with old | new
        · exact sound.guessed issue old
        · cases mem_singleton.mp new
          exact Nat.lt_of_succ_le (Nat.le_of_eq holds.newest)
      · intro issue time member
        have old : .accepted issue time ∈ world.log := by simpa using member
        obtain ⟨issues, later, gone⟩ := sound.spent issue time old
        exact ⟨issues, later, mem_append_left _ gone⟩
      · intro other same
        rw [stored] at same
        cases same
        refine ⟨holds.newest, fun issues member => holds.undeleted issues (by simpa using member),
          mem_append_left _ holds.issued, holds.first, ?_⟩
        have counted := holds.counted
        have moved := flight entry.value.issue
        rw [if_pos rfl] at moved
        rw [count_append, count_singleton_self]
        dsimp only
        omega

theorem write_sound (sound : world.Sound settings) (current : world.calls[index]? = some call)
    (orderly : Orderly settings hash world (.write index)) :
    World.Sound settings
      { call.write settings world with calls := TaskPool.settle world.calls index none } := by
  have met := orderly call current
  unfold Call.Meets at met
  unfold Call.write
  cases judged : call.verdict with
  | exhausted => exact settle_sound (delete_sound sound) index rfl
  | lastWrong => exact settle_sound (delete_sound sound) index rfl
  | accepted =>
    rw [judged] at met
    obtain ⟨record, found, same, fresh⟩ := met
    rw [← same]
    exact settle_sound (accept_sound sound found fresh) index rfl
  | wrong written =>
    rw [judged] at met
    obtain ⟨entry, stored, same, _⟩ := get_held met
    have holds := sound.held entry stored
    have is := sound.written call (mem_of_getElem? current) written judged
    have fewer : ∀ other ∈ TaskPool.settle world.calls index none, other ∈ world.calls := by
      intro other member
      exact (TaskPool.mem_settle member).resolve_right (by rintro ⟨⟩)
    refine { sound with
      calls := fun other member => sound.calls other (fewer other member)
      written := fun other member => sound.written other (fewer other member)
      held := ?_ }
    rintro _ ⟨⟩
    have counted := holds.counted
    have landed := inFlight_settle current entry.value.issue
    rw [← same] at landed
    simp only [judged, Verdict.isWrong, and_self, if_true] at landed
    rw [is, ← same]
    refine ⟨holds.newest, holds.undeleted, holds.issued, ?_, ?_⟩
    · rintro ⟨⟩
    · dsimp only
      omega

theorem step_sound (sound : world.Sound settings) (action : Action Code)
    (orderly : Orderly settings hash world action)
    (taken : step settings hash world action = some next) : next.Sound settings := by
  cases action with
  | wait ticks =>
    cases taken
    exact { sound with held := fun entry stored => { sound.held entry stored with } }
  | storeCode code =>
    cases taken
    exact storeCode_sound sound code
  | deleteCode =>
    cases taken
    exact delete_sound sound
  | verifyCode code =>
    cases taken
    exact verifyCode_sound sound code orderly
  | write index =>
    obtain ⟨call, current, rfl⟩ := Option.map_eq_some_iff.mp taken
    exact write_sound sound current orderly

omit [DecidableEq Digest] in
theorem initial_sound : (World.initial : World Digest).Sound settings where
  honest := honest_nil
  issued := by rintro _ _ ⟨⟩
  deleted := by rintro _ ⟨⟩
  guessed := by rintro _ ⟨⟩
  calls := by rintro _ ⟨⟩
  written := by rintro _ ⟨⟩
  spent := by rintro _ _ ⟨⟩
  held := by rintro _ ⟨⟩

/-- In every run whose steps all meet the condition, the history is honest. -/
theorem login_codes_honest {actions : List (Action Code)} {finish : World Digest}
    (run : Steps (step settings hash) (Orderly settings hash) World.initial actions finish) :
    Honest settings finish.log := by
  have sound := run.invariant (World.Sound settings)
    (fun _ action _ sound orderly taken => step_sound sound action orderly taken) initial_sound
  exact sound.honest

instance (world : World Digest) (call : Call Digest) : Decidable (call.Meets settings world) :=
  match judged : call.verdict with
  | .accepted => decidable_of_iff (∃ record ∈ world.get, record.issue = call.record.issue ∧
      (record.attempts = 0 ∨ world.now ≤ record.issuedAt + settings.codeTtl))
      (by simp [Call.Meets, judged])
  | .wrong _ => decidable_of_iff (world.get = some call.record) (by simp [Call.Meets, judged])
  | .exhausted => isTrue (by simp [Call.Meets, judged])
  | .lastWrong => isTrue (by simp [Call.Meets, judged])

instance (world : World Digest) : (action : Action Code) →
    Decidable (Orderly settings hash world action)
  | .verifyCode code => inferInstanceAs (Decidable (∀ record ∈ world.get,
      (judge settings hash record code).isWrong = true →
        record.attempts + inFlight world.calls record.issue < settings.maxAttempts))
  | .write index => inferInstanceAs (Decidable
      (∀ call ∈ world.calls[index]?, call.Meets settings world))
  | .wait _ | .storeCode _ | .deleteCode => isTrue trivial

def defaults : Settings := ⟨300, 5⟩

def guessedOnce : List (Action Nat) :=
  [.storeCode 7, .verifyCode 3, .write 0, .wait 200, .verifyCode 7, .write 0]

theorem login_codes_honest_guessed : ∃ finish,
    Steps (step defaults id) (Orderly defaults id) World.initial guessedOnce finish ∧
      .accepted 0 200 ∈ finish.log ∧ Honest defaults finish.log := by
  have reaches : (execGuarded (step defaults id) (Orderly defaults id) World.initial
      guessedOnce).any (fun finish => decide (.accepted 0 200 ∈ finish.log)) = true := by
    decide
  obtain ⟨finish, executed, accepted⟩ := (Option.any_eq_true _ _).mp reaches
  have run := execGuarded_steps executed
  exact ⟨finish, run, of_decide_eq_true accepted, login_codes_honest run⟩

/-- A wrong guess after 200 seconds lets the code live on for 300 more. -/
def guessedLate : List (Action Nat) :=
  [.storeCode 7, .wait 200, .verifyCode 3, .write 0, .wait 200, .verifyCode 7, .write 0]

theorem login_code_outlives : ∃ finish,
    Steps (step defaults id) Any World.initial guessedLate finish ∧
      ¬ Honest defaults finish.log := by
  have reaches : exec (step defaults id) World.initial guessedLate = some
      ⟨400, none, 1, [], [.issued 0 0, .wrong 0, .accepted 0 400, .deleted 1]⟩ := rfl
  refine ⟨_, exec_steps reaches, ?_⟩
  intro honest
  obtain ⟨_, _, _, time, issued, young⟩ := honest.fair [.issued 0 0, .wrong 0] (.accepted 0 400)
    [.deleted 1] rfl
  have is : time = 0 := by simpa using issued
  rw [is] at young
  exact absurd young (by decide)

end SourceLens.LoginCode
