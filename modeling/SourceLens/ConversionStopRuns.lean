import SourceLens.ConversionStop

/-! Over every run, a fence admits no conversion, and a task has one terminal frame. -/

namespace SourceLens.ConversionStop

open Transition Option OrderedDict

variable {client next : Client} {message : Message}

structure Keeps (stops next : Stops) : Prop where
  fences : ∀ taskId, fenced stops taskId → fenced next taskId
  frames : ∀ taskId frame, persisted stops taskId = some frame → persisted next taskId = some frame

theorem Keeps.refl (stops : Stops) : Keeps stops stops := ⟨fun _ => id, fun _ _ => id⟩

theorem Keeps.trans {first second third : Stops} (one : Keeps first second)
    (two : Keeps second third) : Keeps first third :=
  ⟨fun taskId held => two.fences taskId (one.fences taskId held),
    fun taskId frame held => two.frames taskId frame (one.frames taskId frame held)⟩

variable {stops : Stops} {taskId datasourceUuid : String} {frame : Option TerminalFrame}

theorem fence_refused (refused : (fence stops taskId datasourceUuid frame).2 = false) :
    (fence stops taskId datasourceUuid frame).1 = stops := by
  unfold fence at refused ⊢
  dsimp only at refused ⊢
  split
  · rfl
  · rename_i same
    rw [if_neg same] at refused
    cases refused

theorem fence_accepted (accepted : (fence stops taskId datasourceUuid frame).2 = true)
    (other : String) : (fence stops taskId datasourceUuid frame).1.get? other =
      if other = taskId then some ⟨datasourceUuid, persisted stops taskId <|> frame⟩
      else stops.get? other := by
  unfold fence at accepted ⊢
  dsimp only at accepted ⊢
  split
  · rename_i different
    rw [if_pos different] at accepted
    cases accepted
  · rename_i same
    rw [not_not] at same
    rw [get?_set]
    cases found : stops.get? taskId with
    | none => simp [persisted, found]
    | some row =>
      rw [found, getD_some] at same
      simp [persisted, found, same]

theorem persisted_fence (accepted : (fence stops taskId datasourceUuid frame).2 = true)
    (other : String) : persisted (fence stops taskId datasourceUuid frame).1 other =
      if other = taskId then persisted stops taskId <|> frame else persisted stops other := by
  rw [persisted, fence_accepted accepted other]
  split <;> rfl

theorem fenced_fence (accepted : (fence stops taskId datasourceUuid frame).2 = true)
    (other : String) : fenced (fence stops taskId datasourceUuid frame).1 other ↔
      other = taskId ∨ fenced stops other := by
  rw [fenced, fence_accepted accepted other, fenced]
  split
  · rename_i same
    simp [same]
  · rename_i apart
    simp [apart]

theorem fence_again (accepted : (fence stops taskId datasourceUuid frame).2 = true)
    (other : Option TerminalFrame) :
    (fence (fence stops taskId datasourceUuid frame).1 taskId datasourceUuid other).2 = true := by
  have found := fence_accepted accepted taskId
  rw [if_pos rfl] at found
  rw [fence, found, getD_some, if_neg (not_not.mpr rfl)]

theorem fence_keeps (stops : Stops) (taskId datasourceUuid : String)
    (frame : Option TerminalFrame) : Keeps stops (fence stops taskId datasourceUuid frame).1 := by
  cases accepted : (fence stops taskId datasourceUuid frame).2 with
  | false =>
    rw [fence_refused accepted]
    exact .refl stops
  | true =>
    refine ⟨fun other held => (fenced_fence accepted other).mpr (.inr held), ?_⟩
    intro other stored held
    rw [persisted_fence accepted]
    split
    · rename_i same
      rw [← same, held]
      rfl
    · exact held

structure Advances (client next : Client) : Prop where
  keeps : Keeps client.stops next.stops
  created : Appended (fun taskId => ¬ fenced client.stops taskId) client.created next.created
  launched : Appended (fun taskId => ¬ fenced client.stops taskId) client.launched next.launched
  enqueued : Appended (fun entry : Enqueued => entry.workerRunning = false ∧
    persisted next.stops entry.frame.taskId = some entry.frame) client.enqueued next.enqueued

theorem Advances.refl (client : Client) : Advances client client :=
  ⟨.refl _, .refl _, .refl _, .refl _⟩

theorem Advances.trans {first second third : Client} (one : Advances first second)
    (two : Advances second third) : Advances first third where
  keeps := one.keeps.trans two.keeps
  created := one.created.trans (two.created.weaken fun taskId free held =>
    free (one.keeps.fences taskId held))
  launched := one.launched.trans (two.launched.weaken fun taskId free held =>
    free (one.keeps.fences taskId held))
  enqueued := by
    refine (one.enqueued.weaken ?_).trans two.enqueued
    intro entry good
    exact ⟨good.1, two.keeps.frames _ _ good.2⟩

theorem Advances.stores (keeps : Keeps client.stops next.stops)
    (created : next.created = client.created) (launched : next.launched = client.launched)
    (enqueued : next.enqueued = client.enqueued) : Advances client next := by
  refine ⟨keeps, ?_, ?_, ?_⟩
  · rw [created]
    exact .refl _
  · rw [launched]
    exact .refl _
  · rw [enqueued]
    exact .refl _

/-- A task that runs has a cancel event and no stored frame, and its event is set before
its worker is launched if it is fenced. A remembered frame is the stored one. -/
structure Sound (client : Client) : Prop where
  owned : ∀ taskId ∈ client.workers, ∃ message,
    client.runningTasks.get? taskId = some ⟨message, .converting⟩
  alone : client.workers.Nodup
  cancellable : ∀ taskId ∈ client.runningTasks.keys, taskId ∈ client.cancels.keys
  stopping : ∀ taskId message, client.runningTasks.get? taskId = some ⟨message, .acquiring⟩ →
    fenced client.stops taskId → client.cancels.get? taskId = some true
  unfinished : ∀ taskId ∈ client.runningTasks.keys, persisted client.stops taskId = none
  remembered : ∀ entry ∈ client.pendingTerminalFrames.entries,
    persisted client.stops entry.1 = some entry.2
  named : ∀ taskId frame, persisted client.stops taskId = some frame → frame.taskId = taskId

theorem Sound.new (outboxMax : Nat) (executorInstanceId : String) :
    Sound (.new outboxMax executorInstanceId) where
  owned := by rintro _ ⟨⟩
  alone := List.nodup_nil
  cancellable := by rintro _ ⟨⟩
  stopping := by rintro _ _ ⟨⟩
  unfinished := by rintro _ ⟨⟩
  remembered := by rintro _ ⟨⟩
  named := by rintro _ _ ⟨⟩

theorem Sound.idle (sound : Sound client) {taskId : String}
    (absent : taskId ∉ client.runningTasks.keys) : taskId ∉ client.workers := by
  intro working
  rcases sound.owned taskId working with ⟨message, running⟩
  rw [get?_eq_none_iff.mpr absent] at running
  cases running

theorem mem_keys_of_get? {Value : Type} {dict : OrderedDict String Value} {key : String}
    {value : Value} (found : dict.get? key = some value) : key ∈ dict.keys := by
  by_contra missing
  rw [get?_eq_none_iff.mpr missing] at found
  cases found

theorem Sound.finished (sound : Sound client) {taskId : String} {frame : TerminalFrame}
    (stored : persisted client.stops taskId = some frame) :
    taskId ∉ client.runningTasks.keys ∧ taskId ∉ client.workers := by
  have absent : taskId ∉ client.runningTasks.keys := by
    intro running
    rw [sound.unfinished taskId running] at stored
    cases stored
  exact ⟨absent, sound.idle absent⟩

theorem enqueue_sound {frame : TerminalFrame} (sound : Sound client)
    (stored : persisted client.stops frame.taskId = some frame) :
    Sound (enqueue client frame) ∧ Advances client (enqueue client frame) := by
  constructor
  · refine ⟨sound.owned, sound.alone, sound.cancellable, sound.stopping, sound.unfinished, ?_,
      sound.named⟩
    intro entry member
    simp only [enqueue] at member
    split at member
    · exact sound.remembered entry member
    · have noted := trim_subset member
      rw [mem_moveToEnd, mem_set] at noted
      rcases noted with rfl | ⟨old, -⟩
      · exact stored
      · exact sound.remembered entry old
  · refine ⟨.refl _, .refl _, .refl _, .single ⟨?_, stored⟩⟩
    exact decide_eq_false (sound.finished stored).2

theorem store_sound {datasourceUuid : String} (frame : TerminalFrame) (sound : Sound client)
    (absent : frame.taskId ∉ client.runningTasks.keys)
    (accepted : (fence client.stops frame.taskId datasourceUuid (some frame)).2 = true) :
    Sound { client with
      stops := (fence client.stops frame.taskId datasourceUuid (some frame)).1 } where
  owned := sound.owned
  alone := sound.alone
  cancellable := sound.cancellable
  stopping := by
    intro taskId message running held
    rcases (fenced_fence accepted taskId).mp held with rfl | before
    · exact absurd (mem_keys_of_get? running) absent
    · exact sound.stopping taskId message running before
  unfinished := by
    intro taskId running
    rw [persisted_fence accepted, if_neg]
    · exact sound.unfinished taskId running
    · rintro rfl
      exact absent running
  remembered := by
    intro entry member
    exact (fence_keeps ..).frames _ _ (sound.remembered entry member)
  named := by
    intro taskId stored held
    rw [persisted_fence accepted] at held
    split at held
    · rename_i same
      cases before : persisted client.stops frame.taskId with
      | some original =>
        rw [before] at held
        cases held
        exact (sound.named _ _ before).trans same.symm
      | none =>
        rw [before] at held
        cases held
        exact same.symm
    · exact sound.named taskId stored held

theorem persisted_fence_none
    (accepted : (fence stops taskId datasourceUuid none).2 = true) (other : String) :
    persisted (fence stops taskId datasourceUuid none).1 other = persisted stops other := by
  rw [persisted_fence accepted]
  split
  · rename_i same
    rw [same]
    cases persisted stops taskId <;> rfl
  · rfl

theorem fence_sound {cancels : OrderedDict String Bool} (sound : Sound client)
    (accepted : (fence client.stops taskId datasourceUuid none).2 = true)
    (present : ∀ other, other ∈ client.runningTasks.keys → other ∈ cancels.keys)
    (own : taskId ∈ client.runningTasks.keys → cancels.get? taskId = some true)
    (others : ∀ other, other ≠ taskId → cancels.get? other = client.cancels.get? other) :
    Sound { client with
      stops := (fence client.stops taskId datasourceUuid none).1
      cancels := cancels } where
  owned := sound.owned
  alone := sound.alone
  cancellable := present
  stopping := by
    intro other message running held
    by_cases same : other = taskId
    · rw [same]
      exact own (same ▸ mem_keys_of_get? running)
    · rcases (fenced_fence accepted other).mp held with named | before
      · exact absurd named same
      · exact (others other same).trans (sound.stopping other message running before)
  unfinished := by
    intro other running
    rw [persisted_fence_none accepted]
    exact sound.unfinished other running
  remembered := by
    intro entry member
    rw [persisted_fence_none accepted]
    exact sound.remembered entry member
  named := by
    intro other stored held
    rw [persisted_fence_none accepted] at held
    exact sound.named other stored held

theorem acknowledgeStop_sound (now : String) (sound : Sound client)
    (absent : taskId ∉ client.runningTasks.keys)
    (accepted : ∀ frame, (fence client.stops taskId datasourceUuid (some frame)).2 = true) :
    Sound (acknowledgeStop client now taskId datasourceUuid) ∧
      Advances client (acknowledgeStop client now taskId datasourceUuid) := by
  unfold acknowledgeStop
  split
  · rename_i original found
    have stored : persisted client.stops taskId = some original := by
      cases before : persisted client.stops taskId with
      | some frame =>
        rw [before] at found
        exact found
      | none =>
        rw [before] at found
        have pending := sound.remembered _ (mem_of_get? found)
        exact before.symm.trans pending
    have named := sound.named taskId original stored
    exact enqueue_sound sound (named ▸ stored)
  · rename_i missing
    have before : persisted client.stops taskId = none := by
      cases before : persisted client.stops taskId with
      | some frame =>
        rw [before] at missing
        cases missing
      | none => rfl
    generalize confirmed : convertStopped client now taskId datasourceUuid = frame
    have named : frame.taskId = taskId := confirmed ▸ rfl
    subst named
    have stored := persisted_fence (accepted frame) frame.taskId
    rw [if_pos rfl, before] at stored
    rcases enqueue_sound (store_sound frame sound absent (accepted frame)) stored with
      ⟨fine, advances⟩
    refine ⟨fine, Advances.trans ?_ advances⟩
    exact .stores (fence_keeps ..) rfl rfl rfl

theorem cancelDatasourceConversion_sound (now : String) (message : Message) (storeRaises : Bool)
    (sound : Sound client) : Sound (cancelDatasourceConversion client now message storeRaises) ∧
      Advances client (cancelDatasourceConversion client now message storeRaises) := by
  unfold cancelDatasourceConversion
  dsimp only
  generalize (if message.datasourceUuid = "" then
    ((client.operations.get? message.taskId).map (·.datasourceUuid)).getD ""
    else message.datasourceUuid) = datasourceUuid
  split
  · exact ⟨sound, .refl client⟩
  split
  · exact ⟨sound, .refl client⟩
  have keeps := fence_keeps client.stops message.taskId datasourceUuid none
  cases accepted : (fence client.stops message.taskId datasourceUuid none).2 with
  | false =>
    rw [fence_refused accepted]
    exact ⟨sound, .refl client⟩
  | true =>
    simp only [Bool.not_true, Bool.false_eq_true, if_false]
    split
    · refine ⟨fence_sound sound accepted ?_ ?_ ?_, .stores keeps rfl rfl rfl⟩
      · intro other running
        exact mem_keys_set.mpr (.inr (sound.cancellable other running))
      · intro _
        rw [get?_set, if_pos rfl]
      · intro other apart
        rw [get?_set, if_neg apart]
    · rename_i uncancellable
      have absent : message.taskId ∉ client.runningTasks.keys :=
        fun running => uncancellable (sound.cancellable _ running)
      have stopping := fence_sound sound accepted sound.cancellable
        (fun running => absurd running absent) fun _ _ => rfl
      have advances : Advances client { client with
          stops := (fence client.stops message.taskId datasourceUuid none).1 } :=
        .stores keeps rfl rfl rfl
      split
      · exact ⟨stopping, advances⟩
      · rcases acknowledgeStop_sound now stopping absent
          (fun frame => fence_again accepted (some frame)) with ⟨fine, later⟩
        exact ⟨fine, advances.trans later⟩

theorem startDatasourceConversion_sound (now : String) (message : Message) (storeRaises : Bool)
    (sound : Sound client) : Sound (startDatasourceConversion client now message storeRaises) ∧
      Advances client (startDatasourceConversion client now message storeRaises) := by
  unfold startDatasourceConversion
  dsimp only
  generalize (if message.taskId = "" then message.requestId else message.taskId) = taskId
  split
  · exact ⟨sound, .refl client⟩
  split
  · exact cancelDatasourceConversion_sound now message storeRaises sound
  split
  · exact ⟨sound, .refl client⟩
  rename_i free absent
  constructor
  · refine ⟨?_, sound.alone, ?_, ?_, ?_, sound.remembered, sound.named⟩
    · intro other working
      rcases sound.owned other working with ⟨before, running⟩
      refine ⟨before, ?_⟩
      rw [get?_set, if_neg]
      · exact running
      · rintro rfl
        exact sound.idle absent working
    · intro other running
      rw [mem_keys_set] at running ⊢
      exact running.imp id (sound.cancellable other)
    · intro other before running held
      rw [get?_set] at running
      split at running
      · rename_i same
        exact absurd (same ▸ held) free
      · rename_i apart
        rw [get?_set, if_neg apart]
        exact sound.stopping other before running held
    · intro other running
      rcases mem_keys_set.mp running with rfl | before
      · have missing : client.stops.get? other = none := by
          rw [fenced, Bool.not_eq_true, isSome_eq_false_iff, isNone_iff_eq_none] at free
          exact free
        rw [persisted, missing]
        rfl
      · exact sound.unfinished other before
  · exact ⟨.refl _, .single free, .refl _, .refl _⟩

theorem leave_sound (sound : Sound client) (idle : taskId ∉ client.workers) :
    Sound (leave client taskId) where
  owned := by
    intro other working
    rcases sound.owned other working with ⟨message, running⟩
    refine ⟨message, ?_⟩
    simp only [leave]
    rw [get?_pop, if_neg]
    · exact running
    · rintro rfl
      exact idle working
  alone := sound.alone
  cancellable := by
    intro other running
    simp only [leave, mem_keys_pop] at running ⊢
    exact ⟨sound.cancellable other running.1, running.2⟩
  stopping := by
    intro other message running held
    simp only [leave, get?_pop] at running ⊢
    split at running
    · cases running
    · rename_i apart
      rw [if_neg apart]
      exact sound.stopping other message running held
  unfinished := by
    intro other running
    simp only [leave, mem_keys_pop] at running
    exact sound.unfinished other running.1
  remembered := sound.remembered
  named := sound.named

theorem enqueueConversionDone_sound {payload : TerminalFrame} (sound : Sound client)
    (absent : payload.taskId ∉ client.runningTasks.keys)
    (first : persisted client.stops payload.taskId = none) :
    Sound (enqueueConversionDone client payload) ∧
      Advances client (enqueueConversionDone client payload) := by
  unfold enqueueConversionDone
  dsimp only
  cases accepted : (fence client.stops payload.taskId payload.datasourceUuid (some payload)).2 with
  | false =>
    rw [fence_refused accepted]
    exact ⟨sound, .refl client⟩
  | true =>
    have stored := persisted_fence accepted payload.taskId
    rw [if_pos rfl, first] at stored
    rcases enqueue_sound (store_sound payload sound absent accepted) stored with ⟨fine, advances⟩
    have advanced : Advances client { client with
        stops := (fence client.stops payload.taskId payload.datasourceUuid (some payload)).1 } :=
      .stores (fence_keeps ..) rfl rfl rfl
    rw [if_pos rfl]
    exact ⟨fine, advanced.trans advances⟩

theorem deliver_sound (now : String) (message : Message) (outcome : Outcome) (write : StoreWrite)
    (sound : Sound client) (absent : taskId ∉ client.runningTasks.keys)
    (first : persisted client.stops taskId = none) :
    Sound (deliver client now taskId message outcome write) ∧
      Advances client (deliver client now taskId message outcome write) := by
  unfold deliver
  split
  · exact enqueueConversionDone_sound sound absent first
  · exact enqueueConversionDone_sound sound absent first
  · exact ⟨sound, .refl client⟩

/-- The `finally` block may as well come first. -/
theorem leave_deliver (client : Client) (now taskId : String) (message : Message)
    (outcome : Outcome) (write : StoreWrite) :
    leave (deliver client now taskId message outcome write) taskId =
      deliver (leave client taskId) now taskId message outcome write := by
  have same : ∀ payload, leave (enqueueConversionDone client payload) taskId =
      enqueueConversionDone (leave client taskId) payload := by
    intro payload
    have stops : (leave client taskId).stops = client.stops := rfl
    unfold enqueueConversionDone
    dsimp only
    rw [stops]
    split
    · rfl
    · rfl
  unfold deliver
  split
  · exact same _
  · exact same _
  · rfl

theorem Sound.concludes {phase : Phase} (now : String) (outcome : Outcome) (write : StoreWrite)
    (sound : Sound client) (running : client.runningTasks.get? taskId = some ⟨message, phase⟩)
    (idle : taskId ∉ client.workers) :
    Sound (leave (deliver client now taskId message outcome write) taskId) ∧
      Advances client (leave (deliver client now taskId message outcome write) taskId) := by
  have first := sound.unfinished taskId (mem_keys_of_get? running)
  have absent : taskId ∉ (leave client taskId).runningTasks.keys := by
    simp only [leave, mem_keys_pop]
    exact fun both => both.2 rfl
  rw [leave_deliver]
  rcases deliver_sound now message outcome write (leave_sound sound idle) absent first with
    ⟨fine, advances⟩
  have left : Advances client (leave client taskId) := .stores (.refl _) rfl rfl rfl
  exact ⟨fine, left.trans advances⟩

theorem Sound.not_working {phase : Phase} (sound : Sound client)
    (running : client.runningTasks.get? taskId = some ⟨message, phase⟩)
    (other : phase ≠ .converting) : taskId ∉ client.workers := by
  intro working
  rcases sound.owned taskId working with ⟨owner, converting⟩
  rw [running] at converting
  cases converting
  exact other rfl

theorem launch_sound (sound : Sound client)
    (running : client.runningTasks.get? taskId = some ⟨message, .acquiring⟩)
    (unset : client.cancels.get? taskId = some false) :
    Sound { setPhase client taskId ⟨message, .acquiring⟩ .converting with
        workers := taskId :: client.workers
        launched := client.launched ++ [taskId] } ∧
      Advances client { setPhase client taskId ⟨message, .acquiring⟩ .converting with
        workers := taskId :: client.workers
        launched := client.launched ++ [taskId] } := by
  have known := mem_keys_of_get? running
  have same : ∀ other, other ∈ (client.runningTasks.set taskId ⟨message, .converting⟩).keys →
      other ∈ client.runningTasks.keys := by
    intro other member
    rcases mem_keys_set.mp member with rfl | before
    · exact known
    · exact before
  constructor
  · refine ⟨?_, ?_, fun other member => sound.cancellable other (same other member), ?_,
      fun other member => sound.unfinished other (same other member), sound.remembered,
      sound.named⟩
    · intro other working
      simp only [setPhase, get?_set]
      split
      · exact ⟨message, rfl⟩
      · rename_i apart
        rcases List.mem_cons.mp working with own | before
        · exact absurd own apart
        · exact sound.owned other before
    · exact List.nodup_cons.mpr
        ⟨sound.not_working running (by simp), sound.alone⟩
    · intro other waiting found held
      simp only [setPhase, get?_set] at found
      split at found
      · cases found
      · exact sound.stopping other waiting found held
  · refine ⟨.refl _, .refl _, .single ?_, .refl _⟩
    intro held
    rw [sound.stopping taskId message running held] at unset
    cases unset

theorem exit_sound (outcome : Outcome) (sound : Sound client)
    (running : client.runningTasks.get? taskId = some ⟨message, .converting⟩) :
    Sound { setPhase client taskId ⟨message, .converting⟩ (.exited outcome) with
      workers := client.workers.erase taskId } := by
  have same : ∀ other, other ∈ (client.runningTasks.set taskId ⟨message, .exited outcome⟩).keys →
      other ∈ client.runningTasks.keys := by
    intro other member
    rcases mem_keys_set.mp member with rfl | before
    · exact mem_keys_of_get? running
    · exact before
  refine ⟨?_, sound.alone.erase taskId, fun other member => sound.cancellable other (same other member),
    ?_, fun other member => sound.unfinished other (same other member), sound.remembered,
    sound.named⟩
  · intro other working
    rw [sound.alone.mem_erase_iff] at working
    simp only [setPhase, get?_set, if_neg working.1]
    exact sound.owned other working.2
  · intro other waiting found held
    simp only [setPhase, get?_set] at found
    split at found
    · cases found
    · exact sound.stopping other waiting found held

theorem restart_sound (executorInstanceId : String)
    (named : ∀ taskId frame, persisted client.stops taskId = some frame → frame.taskId = taskId) :
    Sound (restart client executorInstanceId) where
  owned := by rintro _ ⟨⟩
  alone := List.nodup_nil
  cancellable := by rintro _ ⟨⟩
  stopping := by rintro _ _ ⟨⟩
  unfinished := by rintro _ ⟨⟩
  remembered := by rintro _ ⟨⟩
  named := named

theorem handlerStep_sound {handler : Handler} (sound : Sound client)
    (taken : handlerStep client handler = some next) : Sound next ∧ Advances client next := by
  cases handler with
  | start now message storeRaises =>
    cases taken
    exact startDatasourceConversion_sound now message storeRaises sound
  | cancel now message storeRaises =>
    cases taken
    exact cancelDatasourceConversion_sound now message storeRaises sound
  | granted taskId =>
    simp only [handlerStep] at taken
    split at taken <;> cases taken
    rename_i message running unset
    exact launch_sound sound running unset
  | cancelledInQueue now taskId write =>
    simp only [handlerStep] at taken
    split at taken <;> cases taken
    rename_i message running _
    exact sound.concludes now .cancelled write running (sound.not_working running (by simp))
  | acquireRaises now taskId write =>
    simp only [handlerStep] at taken
    split at taken <;> cases taken
    rename_i message running
    exact sound.concludes now .raised write running (sound.not_working running (by simp))
  | wrapperCancelled taskId =>
    simp only [handlerStep] at taken
    split at taken <;> cases taken
    · rename_i message running
      exact ⟨leave_sound sound (sound.not_working running (by simp)),
        .stores (.refl _) rfl rfl rfl⟩
    · refine ⟨⟨sound.owned, sound.alone, ?_, ?_, sound.unfinished, sound.remembered,
        sound.named⟩, .stores (.refl _) rfl rfl rfl⟩
      · intro other running
        exact mem_keys_set.mpr (.inr (sound.cancellable other running))
      · intro other message waiting held
        rw [get?_set]
        split
        · rfl
        · exact sound.stopping other message waiting held
  | workerExits taskId outcome =>
    simp only [handlerStep] at taken
    split at taken <;> cases taken
    rename_i message running
    exact ⟨exit_sound outcome sound running, .stores (.refl _) rfl rfl rfl⟩
  | finish now taskId write =>
    simp only [handlerStep] at taken
    split at taken <;> cases taken
    rename_i message outcome running
    exact sound.concludes now outcome write running (sound.not_working running (by simp))
  | releaseCancelled taskId =>
    simp only [handlerStep] at taken
    split at taken <;> cases taken
    rename_i message outcome running
    exact ⟨leave_sound sound (sound.not_working running (by simp)),
      .stores (.refl _) rfl rfl rfl⟩
  | terminalAck taskId =>
    simp only [handlerStep] at taken
    split at taken <;> cases taken
    · refine ⟨⟨sound.owned, sound.alone, sound.cancellable, sound.stopping, sound.unfinished, ?_,
        sound.named⟩, .stores (.refl _) rfl rfl rfl⟩
      intro entry member
      exact sound.remembered entry (mem_filterKeys.mp member).1
    · exact ⟨sound, .refl client⟩
  | restore taskId =>
    simp only [handlerStep, map_eq_some_iff] at taken
    rcases taken with ⟨frame, found, rfl⟩
    have stored := sound.remembered _ (mem_of_get? found)
    have named := sound.named taskId frame stored
    exact enqueue_sound sound (named ▸ stored)

theorem step_sound {action : Action} (sound : Sound client) (taken : step client action = some next) :
    Sound next ∧ Advances client next := by
  cases action with
  | handle handler => exact handlerStep_sound sound taken
  | crash executorInstanceId during =>
    cases during with
    | none =>
      cases taken
      exact ⟨restart_sound executorInstanceId sound.named, .stores (.refl _) rfl rfl rfl⟩
    | some handler =>
      simp only [step, map_eq_some_iff] at taken
      rcases taken with ⟨reached, handled, rfl⟩
      rcases handlerStep_sound sound handled with ⟨fine, advances⟩
      exact ⟨restart_sound executorInstanceId fine.named, advances.keeps, advances.created,
        advances.launched, .refl _⟩

theorem run_advances {finish : Client} {actions : List Action} (sound : Sound client)
    (run : Steps step Any client actions finish) : Advances client finish := by
  induction run with
  | nil client => exact .refl client
  | cons _ taken _ ih =>
    rcases step_sound sound taken with ⟨fine, advances⟩
    exact advances.trans (ih fine)

structure Honoured (earlier later : Client) : Prop where
  /-- No conversion of a fenced task is started, and no worker launched for it. -/
  noStart : ∀ taskId, fenced earlier.stops taskId →
    taskId ∉ later.created.drop earlier.created.length ∧
      taskId ∉ later.launched.drop earlier.launched.length
  /-- Once a terminal frame is stored, every frame enqueued for the task is that one. -/
  firstFrame : ∀ taskId frame, persisted earlier.stops taskId = some frame →
    persisted later.stops taskId = some frame ∧
      ∀ entry ∈ later.enqueued.drop earlier.enqueued.length,
        entry.frame.taskId = taskId → entry.frame = frame
  /-- A frame enqueued is the stored one, and no worker of its task was running. -/
  stopped : ∀ entry ∈ later.enqueued, entry.workerRunning = false ∧
    persisted later.stops entry.frame.taskId = some entry.frame

/-- Between any two states of a run from an empty store, over all tasks, commands, worker
exits, store failures and restarts of the process. -/
theorem stops_honoured (outboxMax : Nat) (executorInstanceId : String)
    {front middle : List Action} {earlier later : Client}
    (reached : Steps step Any (.new outboxMax executorInstanceId) front earlier)
    (after : Steps step Any earlier middle later) : Honoured earlier later := by
  have initial := Sound.new outboxMax executorInstanceId
  have sound : Sound earlier :=
    reached.invariant Sound (fun _ _ _ sound _ taken => (step_sound sound taken).1) initial
  have advances := run_advances sound after
  refine ⟨?_, ?_, ?_⟩
  · intro taskId held
    exact ⟨fun member => advances.created.of_drop taskId member held,
      fun member => advances.launched.of_drop taskId member held⟩
  · intro taskId frame stored
    have kept := advances.keeps.frames taskId frame stored
    refine ⟨kept, ?_⟩
    intro entry member named
    have own := (advances.enqueued.of_drop entry member).2
    rw [named, kept] at own
    exact (Option.some.inj own).symm
  · have whole := (run_advances initial (reached.append after)).enqueued
    exact fun entry member => whole.of_drop entry member

/-- A conversion is cancelled in its worker, its frame is stored and acknowledged, and
the commands are delivered again to the next process. -/
def stopRun : List Action :=
  [.handle (.start "t0" { taskId := "task", datasourceUuid := "source" } false),
    .handle (.granted "task"),
    .handle (.cancel "t1" { taskId := "task", datasourceUuid := "source" } false),
    .handle (.workerExits "task" .cancelled), .handle (.finish "t2" "task" .commits),
    .handle (.terminalAck "task")]

def redelivery : List Action :=
  [.crash "second" none,
    .handle (.start "t3" { taskId := "task", datasourceUuid := "source" } false),
    .handle (.cancel "t4" { taskId := "task", datasourceUuid := "source" } false)]

theorem stops_honoured_run :
    ∃ earlier later, exec step (.new 100 "first") stopRun = some earlier ∧
      exec step earlier redelivery = some later ∧ fenced earlier.stops "task" ∧
      later.enqueued.length = 3 ∧ Honoured earlier later := by
  have executed : (exec step (.new 100 "first") stopRun).any (fun earlier =>
      (exec step earlier redelivery).any fun later =>
        decide (fenced earlier.stops "task" ∧ later.enqueued.length = 3)) = true := by
    decide +kernel
  rcases (any_eq_true _ _).mp executed with ⟨earlier, reached, rest⟩
  rcases (any_eq_true _ _).mp rest with ⟨later, after, seen⟩
  rcases of_decide_eq_true seen with ⟨held, count⟩
  exact ⟨earlier, later, reached, after, held, count,
    stops_honoured 100 "first" (exec_steps reached) (exec_steps after)⟩

/-- In every state of every run, after redeliveries, store failures and restarts too: a task has
at most one worker, which runs under a cancel event and not beyond a stored frame, and what is
remembered for the server is what is stored. -/
theorem conversions_sound (outboxMax : Nat) (executorInstanceId : String) {actions : List Action}
    {client : Client} (run : Steps step Any (.new outboxMax executorInstanceId) actions client) :
    Sound client :=
  run.invariant Sound (fun _ _ _ sound _ taken => (step_sound sound taken).1) (Sound.new ..)

theorem conversions_sound_stopped :
    ∃ client, exec step (.new 100 "first") stopRun = some client ∧ Sound client := by
  have executed : (exec step (.new 100 "first") stopRun).isSome = true := by decide +kernel
  rcases isSome_iff_exists.mp executed with ⟨client, ran⟩
  exact ⟨client, ran, conversions_sound 100 "first" (exec_steps ran)⟩

end SourceLens.ConversionStop
