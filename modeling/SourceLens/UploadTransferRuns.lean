import SourceLens.UploadTransfer
import Mathlib.Data.List.Basic

/-! Runs of one datasource upload: what every step keeps, and the two sides' agreement. -/

namespace SourceLens.UploadTransfer

open Transition List

variable {upload : Upload} {node after : Node} {staging : Staging} {worker next : Worker}
  {system : System} {event : Event} {sent : List Report}

def Worker.Carries (upload : Upload) : Worker → Prop
  | .appending offset data | .matched offset data => data <+: upload.content.drop offset
  | _ => True

def Worker.Offers (upload : Upload) : Worker → Prop
  | .recording offset | .rewriting offset | .prepared offset => upload.totalBytes ≤ offset
  | _ => False

def Staging.Prefixed (upload : Upload) (staging : Staging) : Prop :=
  ∀ part, staging.part = some part → part <+: upload.content

theorem Staging.Prefixed.bytes (staged : staging.Prefixed upload) :
    staging.part.getD [] <+: upload.content := by
  cases held : staging.part with
  | none => exact nil_prefix
  | some part => exact staged part held

theorem prefix_append_drop {whole front back : Bytes} (start : front <+: whole)
    (next : back <+: whole.drop front.length) : front ++ back <+: whole := by
  rcases start with ⟨rest, rfl⟩
  rw [drop_left] at next
  exact (prefix_append_right_inj front).mpr next

theorem readChunk_prefix (upload : Upload) (sent : Nat) :
    readChunk upload sent <+: upload.content.drop sent := take_prefix _ _

theorem appended_prefixed {offset : Nat} {data : Bytes} (staged : staging.Prefixed upload)
    (carries : data <+: upload.content.drop offset) (unraced : staging.size = offset)
    (written : Bytes) (starts : written <+: data) : Staging.Prefixed upload
      { staging with part := some (staging.part.getD [] ++ written) } := by
  intro part held
  cases held
  apply prefix_append_drop staged.bytes
  rw [← Staging.size, unraced]
  exact starts.trans carries

theorem workStep_sound {after : Staging}
    (worked : workStep upload staging worker event = some (next, after))
    (staged : staging.Prefixed upload) (carries : worker.Carries upload)
    (unraced : Unraced staging worker) : after.Prefixed upload ∧ next.Carries upload ∧
      (next.Offers upload → worker.Offers upload ∨
        (worker = .preparing ∧ event = .proceeds ∧
          upload.totalBytes ≤ resumeOffset upload staging)) := by
  cases worker with
  | preparing =>
    cases event with
    | proceeds =>
      cases worked
      refine ⟨?_, trivial, fun offers => .inr ⟨rfl, rfl, offers⟩⟩
      intro part held
      dsimp only at held
      split at held
      · exact staged part held
      · cases held
        exact nil_prefix
    | findsDuplicate =>
      cases worked
      exact ⟨staged, trivial, False.elim⟩
    | fails written =>
      cases worked
      exact ⟨staged, trivial, False.elim⟩
  | recording offset =>
    cases event with
    | proceeds =>
      cases worked
      exact ⟨staged, trivial, .inl⟩
    | findsDuplicate => cases worked
    | fails written =>
      cases worked
      exact ⟨staged, trivial, False.elim⟩
  | rewriting offset =>
    cases event with
    | proceeds =>
      cases worked
      exact ⟨staged, trivial, .inl⟩
    | findsDuplicate => cases worked
    | fails written =>
      cases worked
      exact ⟨staged, trivial, False.elim⟩
  | appending offset data =>
    cases event with
    | proceeds =>
      rw [workStep] at worked
      split at worked
      · cases worked
        exact ⟨staged, trivial, False.elim⟩
      · split at worked
        · cases worked
          exact ⟨staged, trivial, False.elim⟩
        · cases worked
          exact ⟨staged, carries, False.elim⟩
    | findsDuplicate => cases worked
    | fails written =>
      cases worked
      exact ⟨staged, trivial, False.elim⟩
  | matched offset data =>
    cases event with
    | proceeds =>
      cases worked
      exact ⟨appended_prefixed staged carries unraced data prefix_rfl, trivial,
        False.elim⟩
    | findsDuplicate => cases worked
    | fails written =>
      cases worked
      exact ⟨appended_prefixed staged carries unraced _ (List.take_prefix _ _), trivial,
        False.elim⟩
  | prepared offset => cases worked
  | duplicate => cases worked
  | appended offset => cases worked
  | rejected => cases worked
  | raised => cases worked

structure NodeSound (upload : Upload) (node : Node) : Prop where
  staged : node.staging.Prefixed upload
  handled : ∀ worker, node.handler = some worker → worker.Carries upload
  orphaned : ∀ worker ∈ node.orphans, worker.Carries upload
  offered : ∀ worker, node.handler = some worker → worker.Offers upload → Concluded node
  closing : node.finalization = some .reported → node.reported = true

theorem finishUpload_concluded (node : Node) : Concluded (finishUpload node) := .inl rfl

theorem NodeSound.idle (sound : NodeSound upload node) (transfer : Option Transfer)
    (reported : Bool) (grows : node.reported = true → reported = true) :
    NodeSound upload { node with handler := none, transfer := transfer, reported := reported } where
  staged := sound.staged
  handled := fun worker held => by cases held
  orphaned := sound.orphaned
  offered := fun worker held => by cases held
  closing := fun stage => grows (sound.closing stage)

theorem NodeSound.finish (sound : NodeSound upload node) :
    NodeSound upload (finishUpload node) where
  staged := sound.staged
  handled := sound.handled
  orphaned := sound.orphaned
  offered := fun _ _ _ => finishUpload_concluded node
  closing := by
    intro stage
    cases held : node.finalization with
    | none =>
      rw [finishUpload, held] at stage
      cases stage
    | some found =>
      rw [finishUpload, held] at stage
      cases stage
      exact sound.closing held

theorem NodeSound.restage (sound : NodeSound upload node) (staging : Staging)
    (staged : staging.Prefixed upload) : NodeSound upload { node with staging := staging } where
  staged := staged
  handled := sound.handled
  orphaned := sound.orphaned
  offered := sound.offered
  closing := sound.closing

theorem unlinked_prefixed (upload : Upload) (record : Option PartRecord) :
    Staging.Prefixed upload ⟨none, record⟩ := by
  intro part held
  cases held

/-- A step of the node: the invariant stays, what was concluded stays concluded, and a report
that every byte is staged is sent by a process that concludes the upload. -/
structure Progress (upload : Upload) (before after : Node) (sent : List Report) : Prop where
  sound : NodeSound upload after
  stays : Concluded before → Concluded after
  final : ∀ report ∈ sent, report.final upload = true → Concluded after

theorem Progress.silent {before : Node} (sound : NodeSound upload after)
    (stays : Concluded before → Concluded after) : Progress upload before after [] :=
  ⟨sound, stays, nofun⟩

theorem resumeHandler_progress (held : node.handler = some worker)
    (resumed : resumeHandler upload node worker = some (after, sent))
    (sound : NodeSound upload node) : Progress upload node after sent := by
  cases worker with
  | prepared offset =>
    cases resumed
    refine ⟨sound.idle _ _ id, id, ?_⟩
    intro report member isFinal
    cases mem_singleton.mp member
    have complete : upload.totalBytes ≤ offset := by simpa [Report.final] using isFinal
    exact sound.offered _ held complete
  | duplicate =>
    cases resumed
    exact ⟨sound.idle _ _ fun _ => rfl, fun _ => .inr rfl, fun _ _ _ => .inr rfl⟩
  | appended offset =>
    cases resumed
    have idle := sound.idle node.transfer node.reported id
    split
    · exact ⟨idle.finish, fun _ => finishUpload_concluded _, fun _ _ _ =>
        finishUpload_concluded _⟩
    · rename_i short
      refine ⟨idle, id, ?_⟩
      intro report member isFinal
      cases mem_singleton.mp member
      exact absurd ⟨upload.totalBytes_pos, of_decide_eq_true isFinal⟩ short
  | rejected =>
    cases resumed
    exact .silent (sound.idle node.transfer node.reported id).finish fun _ =>
      finishUpload_concluded _
  | preparing => cases resumed
  | recording offset => cases resumed
  | rewriting offset => cases resumed
  | appending offset data => cases resumed
  | matched offset data => cases resumed
  | raised => cases resumed

theorem work_progress (held : node.handler = some worker)
    (worked : workStep upload node.staging worker event = some (next, staging))
    (unraced : Unraced node.staging worker) (begun : worker = .preparing → event = .proceeds →
      upload.totalBytes ≤ resumeOffset upload node.staging → Concluded node)
    (sound : NodeSound upload node) :
    Progress upload node { node with handler := some next, staging := staging } [] := by
  rcases workStep_sound worked sound.staged (sound.handled worker held) unraced with
    ⟨staged, carries, offers⟩
  refine .silent ⟨staged, ?_, sound.orphaned, ?_, sound.closing⟩ id
  · intro other same
    cases same
    exact carries
  · intro other same offer
    cases same
    rcases offers offer with before | ⟨preparing, proceeds, complete⟩
    · exact sound.offered worker held before
    · exact begun preparing proceeds complete

theorem orphan_progress {index : Nat} (found : node.orphans[index]? = some worker)
    (worked : workStep upload node.staging worker event = some (next, staging))
    (unraced : Unraced node.staging worker) (sound : NodeSound upload node) : Progress upload node
      { node with orphans := node.orphans.set index next, staging := staging } [] := by
  rcases workStep_sound worked sound.staged
    (sound.orphaned worker (mem_of_getElem? found)) unraced with ⟨staged, carries, _⟩
  refine .silent ⟨staged, sound.handled, ?_, sound.offered, sound.closing⟩ id
  intro other member
  rcases mem_or_eq_of_mem_set member with old | rfl
  · exact sound.orphaned other old
  · exact carries

theorem nodeStep_progress {action : NodeAction}
    (taken : nodeStep upload system.node action = some (after, sent))
    (orderly : Orderly upload system (.node action)) (sound : NodeSound upload system.node) :
    Progress upload system.node after sent := by
  cases action with
  | connect =>
    rw [nodeStep] at taken
    split at taken
    · cases taken
    · cases taken
      exact .silent ⟨sound.staged, sound.handled, sound.orphaned, sound.offered, sound.closing⟩ id
  | work event =>
    cases held : system.node.handler with
    | none => simp [nodeStep, held] at taken
    | some worker =>
      simp only [nodeStep, held, Option.map_eq_some_iff] at taken
      rcases taken with ⟨⟨next, staging⟩, worked, made⟩
      cases made
      exact work_progress held worked (orderly.2 worker held)
        (fun preparing => orderly.1 (held.trans (congrArg some preparing))) sound
  | workOrphan index event =>
    cases found : system.node.orphans[index]? with
    | none => simp [nodeStep, found] at taken
    | some worker =>
      simp only [nodeStep, found, Option.map_eq_some_iff] at taken
      rcases taken with ⟨⟨next, staging⟩, worked, made⟩
      cases made
      exact orphan_progress found worked (orderly worker found) sound
  | resume =>
    rw [nodeStep, Option.bind_eq_some_iff] at taken
    rcases taken with ⟨worker, held, resumed⟩
    exact resumeHandler_progress held resumed sound
  | takePart =>
    rw [nodeStep] at taken
    split at taken
    · cases taken
      exact .silent (sound.restage _ (unlinked_prefixed upload _)) id
    · cases taken
  | report =>
    rw [nodeStep] at taken
    split at taken
    · cases taken
      exact .silent ⟨sound.staged, sound.handled, sound.orphaned, fun _ _ _ => .inr rfl,
        fun _ => rfl⟩ fun _ => .inr rfl
    · cases taken
  | unlinkPart =>
    rw [nodeStep] at taken
    split at taken
    · cases taken
      exact .silent (sound.restage _ (unlinked_prefixed upload _)) id
    · cases taken
  | unlinkRecord =>
    rw [nodeStep] at taken
    split at taken
    · cases taken
      exact .silent (sound.restage _ sound.staged) id
    · cases taken
  | close =>
    rw [nodeStep] at taken
    split at taken
    · rename_i stage
      cases taken
      have reported := sound.closing stage
      exact .silent ⟨sound.staged, sound.handled, sound.orphaned, fun _ _ _ => .inr reported,
        nofun⟩ fun _ => .inr reported
    · cases taken

theorem handleCommand_progress (command : Command) (idle : node.handler = none)
    (genuine : ∀ offset data, command = .chunk offset data → data <+: upload.content.drop offset)
    (sound : NodeSound upload node) : Progress upload node (handleCommand node command) [] := by
  cases command with
  | begin =>
    refine .silent ⟨sound.staged, ?_, sound.orphaned, ?_, sound.closing⟩ id
    · intro worker held
      cases held
      trivial
    · intro worker held offers
      cases held
      exact offers.elim
  | chunk offset data =>
    rw [handleCommand]
    split
    · refine .silent ⟨sound.staged, ?_, sound.orphaned, ?_, sound.closing⟩ id
      · intro worker held
        cases held
        exact genuine offset data rfl
      · intro worker held offers
        cases held
        exact offers.elim
    · exact .silent sound id
  | cancel =>
    rw [handleCommand]
    split
    · exact .silent sound id
    · have bare := sound.idle none node.reported id
      rw [← idle] at bare
      exact .silent bare.finish fun _ => finishUpload_concluded _

theorem dropConnection_progress (sound : NodeSound upload node) :
    Progress upload node (dropConnection node) [] := by
  refine .silent ⟨sound.staged, ?_, ?_, ?_, sound.closing⟩ id
  · intro worker held
    cases held
  · intro worker member
    rcases mem_append.mp member with old | new
    · exact sound.orphaned worker old
    · exact sound.handled worker (Option.mem_toList.mp new)
  · intro worker held
    cases held

theorem booted_sound (staged : staging.Prefixed upload) : NodeSound upload (.booted staging) where
  staged := staged
  handled := fun worker held => by cases held
  orphaned := fun worker member => by cases member
  offered := fun worker held => by cases held
  closing := nofun

theorem Sender.confirmed_iff (upload : Upload) (sender : Sender) :
    sender.confirmed upload = true ↔
      (∃ offset, sender.ready = some (offset, false) ∧ upload.totalBytes ≤ offset) ∨
      (∃ offset, sender.ack = some offset ∧ upload.totalBytes ≤ offset) ∨
      ∃ offset, sender.phase = .streaming offset ∧ upload.totalBytes ≤ offset := by
  rcases sender with ⟨phase, ready, ack⟩
  rw [Sender.confirmed, Bool.or_eq_true, Bool.or_eq_true, or_assoc]
  refine or_congr ?_ (or_congr ?_ ?_)
  · rcases ready with _ | ⟨offset, _ | _⟩ <;> simp [Report.final]
  · cases ack <;> simp [Report.final]
  · cases phase <;> simp

/-- A step of the sender sends true bytes, keeps or drops what the cache holds, and takes the
offset it streams from there. -/
structure SenderProgress (upload : Upload) (before after : Sender) (issued : List Command) :
    Prop where
  genuine : ∀ offset data, .chunk offset data ∈ issued → data <+: upload.content.drop offset
  ready : ∀ found, after.ready = some found → before.ready = some found
  ack : ∀ found, after.ack = some found → before.ack = some found
  streams : ∀ offset, after.phase = .streaming offset → before.phase = .streaming offset ∨
    before.ready = some (offset, false) ∨ before.ack = some offset

theorem SenderProgress.confirmed {before after : Sender} {issued : List Command}
    (progress : SenderProgress upload before after issued)
    (confirmed : after.confirmed upload = true) : before.confirmed upload = true := by
  rw [Sender.confirmed_iff] at confirmed ⊢
  rcases confirmed with ⟨offset, held, complete⟩ | ⟨offset, held, complete⟩ |
    ⟨offset, held, complete⟩
  · exact .inl ⟨offset, progress.ready _ held, complete⟩
  · exact .inr (.inl ⟨offset, progress.ack _ held, complete⟩)
  · rcases progress.streams offset held with same | ready | ack
    · exact .inr (.inr ⟨offset, same, complete⟩)
    · exact .inl ⟨offset, ready, complete⟩
    · exact .inr (.inl ⟨offset, ack, complete⟩)

theorem SenderProgress.quiet {before : Sender} (phase : Phase) (issued : List Command)
    (silent : ∀ offset, phase ≠ .streaming offset)
    (genuine : ∀ offset data, .chunk offset data ∈ issued → data <+: upload.content.drop offset) :
    SenderProgress upload before { before with phase := phase } issued where
  genuine := genuine
  ready := fun _ => id
  ack := fun _ => id
  streams := fun offset streaming => absurd streaming (silent offset)

theorem nothing_issued (offset : Nat) (data : Bytes)
    (member : Command.chunk offset data ∈ ([] : List Command)) :
    data <+: upload.content.drop offset := by
  cases member

theorem senderStep_progress {sender after : Sender} {action : SenderAction} {issued : List Command}
    (taken : senderStep upload sender action = some (after, issued)) :
    SenderProgress upload sender after issued := by
  cases action with
  | restart =>
    cases taken
    exact ⟨nothing_issued, by simp, by simp, by simp⟩
  | begin =>
    rw [senderStep] at taken
    split at taken
    · cases taken
      exact .quiet _ _ (by simp) (by simp)
    · cases taken
  | retryBegin =>
    rw [senderStep] at taken
    split at taken
    · cases taken
      exact .quiet _ _ (by simp) nothing_issued
    · cases taken
  | takeReady =>
    rw [senderStep] at taken
    split at taken
    · rename_i offset duplicate _ held
      cases taken
      refine ⟨nothing_issued, by simp, fun _ => id, ?_⟩
      intro start streaming
      cases duplicate with
      | true => cases streaming
      | false =>
        cases streaming
        exact .inr (.inl held)
    · cases taken
  | openWindow =>
    rw [senderStep] at taken
    split at taken
    · split at taken
      · cases taken
        exact .quiet _ _ (by simp) nothing_issued
      · cases taken
    · cases taken
  | sendChunk =>
    rw [senderStep] at taken
    split at taken
    · split at taken
      · cases taken
      · cases taken
        refine .quiet _ _ (by simp) ?_
        intro offset data member
        cases mem_singleton.mp member
        exact readChunk_prefix upload _
    · cases taken
  | closeWindow =>
    rw [senderStep] at taken
    split at taken
    · split at taken
      · cases taken
        exact .quiet _ _ (by simp) nothing_issued
      · cases taken
    · cases taken
  | takeAck =>
    rw [senderStep] at taken
    split at taken
    · rename_i target current _ held
      split at taken
      · cases taken
        refine ⟨nothing_issued, fun _ => id, fun _ => id, ?_⟩
        intro offset streaming
        cases streaming
        exact .inr (.inr held)
      · cases taken
    · cases taken
  | returnSent =>
    rw [senderStep] at taken
    split at taken
    · split at taken
      · cases taken
        exact .quiet _ _ (by simp) nothing_issued
      · cases taken
    · cases taken
  | interrupt =>
    rw [senderStep] at taken
    split at taken
    · cases taken
      exact .quiet _ _ (by simp) nothing_issued
    · cases taken
      exact .quiet _ _ (by simp) nothing_issued
    · cases taken
  | stop =>
    cases taken
    exact .quiet _ _ (by simp) nothing_issued
  | requestCancel =>
    cases taken
    exact ⟨by simp, fun _ => id, fun _ => id, fun _ => .inl⟩

theorem storeReport_confirmed {sender : Sender} {report : Report}
    (confirmed : (storeReport sender report).confirmed upload = true) :
    sender.confirmed upload = true ∨ report.final upload = true := by
  rw [Sender.confirmed_iff] at confirmed ⊢
  cases report with
  | ready offset duplicate =>
    rcases confirmed with ⟨found, held, complete⟩ | old
    · cases held
      exact .inr (by simpa [Report.final] using complete)
    · exact .inl (.inr old)
  | ack offset =>
    rcases confirmed with old | ⟨found, held, complete⟩ | old
    · exact .inl (.inl old)
    · cases held
      exact .inr (decide_eq_true complete)
    · exact .inl (.inr (.inr old))

structure Sound (upload : Upload) (system : System) : Prop where
  node : NodeSound upload system.node
  commands : ∀ offset data, .chunk offset data ∈ system.commands →
    data <+: upload.content.drop offset
  confirmed : Confirmed upload system.sender system.reports → Concluded system.node

theorem new_sound (upload : Upload) : Sound upload .new where
  node := booted_sound (unlinked_prefixed upload none)
  commands := fun offset data member => by cases member
  confirmed := fun confirmed => by simp [Confirmed, System.new, Sender.confirmed] at confirmed

theorem Sound.progress (sound : Sound upload system)
    (progress : Progress upload system.node after sent) (commands : List Command)
    (fewer : ∀ command ∈ commands, command ∈ system.commands) : Sound upload { system with
      node := after, commands := commands, reports := system.reports ++ sent } where
  node := progress.sound
  commands := fun offset data member => sound.commands offset data (fewer _ member)
  confirmed := by
    intro confirmed
    rcases confirmed with held | reported
    · exact progress.stays (sound.confirmed (.inl held))
    · rw [any_append, Bool.or_eq_true] at reported
      rcases reported with old | new
      · exact progress.stays (sound.confirmed (.inr old))
      · rcases any_eq_true.mp new with ⟨report, member, isFinal⟩
        exact progress.final report member isFinal

theorem step_sound {next : System} {action : Action} (sound : Sound upload system)
    (orderly : Orderly upload system action) (taken : step upload system action = some next) :
    Sound upload next := by
  cases action with
  | control action =>
    simp only [step, Option.map_eq_some_iff] at taken
    rcases taken with ⟨⟨after, issued⟩, acted, rfl⟩
    have progress := senderStep_progress acted
    refine ⟨sound.node, ?_, ?_⟩
    · intro offset data member
      rcases mem_append.mp member with old | new
      · exact sound.commands offset data old
      · exact progress.genuine offset data new
    · exact fun confirmed => sound.confirmed (confirmed.imp_left progress.confirmed)
  | node action =>
    simp only [step, Option.map_eq_some_iff] at taken
    rcases taken with ⟨⟨after, sent⟩, acted, rfl⟩
    exact sound.progress (nodeStep_progress acted orderly sound.node) _ fun _ => id
  | receive =>
    rw [step] at taken
    split at taken
    · cases taken
    · rename_i command rest pending
      split at taken
      · rename_i ready
        cases taken
        have genuine : ∀ offset data, command = .chunk offset data →
            data <+: upload.content.drop offset := by
          intro offset data same
          apply sound.commands offset data
          rw [pending, same]
          exact mem_cons_self
        have kept := sound.progress (handleCommand_progress command ready.2 genuine sound.node)
          rest fun other member => pending ▸ mem_cons_of_mem _ member
        rwa [append_nil] at kept
      · cases taken
  | loseCommand =>
    cases taken
    exact ⟨sound.node, fun offset data member => sound.commands offset data
      (mem_of_mem_tail member), sound.confirmed⟩
  | disconnect =>
    rw [step] at taken
    split at taken
    · cases taken
      have kept := sound.progress (dropConnection_progress sound.node) [] (by simp)
      rwa [append_nil] at kept
    · cases taken
  | deliver report =>
    rw [step] at taken
    split at taken
    · rename_i member
      cases taken
      refine ⟨sound.node, sound.commands, ?_⟩
      intro confirmed
      rcases confirmed with held | reported
      · rcases storeReport_confirmed held with old | new
        · exact sound.confirmed (.inl old)
        · exact sound.confirmed (.inr (any_eq_true.mpr ⟨report, member, new⟩))
      · exact sound.confirmed (.inr reported)
    · cases taken
  | lose report =>
    cases taken
    refine ⟨sound.node, sound.commands, ?_⟩
    intro confirmed
    apply sound.confirmed
    refine confirmed.imp_right fun reported => ?_
    rcases any_eq_true.mp reported with ⟨other, member, isFinal⟩
    exact any_eq_true.mpr ⟨other, mem_of_mem_erase member, isFinal⟩
  | crash survivors =>
    rw [step] at taken
    split at taken
    · cases taken
      exact ⟨booted_sound sound.node.staged, by simp, fun confirmed => absurd confirmed orderly⟩
    · cases taken

theorem Sound.agrees (sound : Sound upload system) : Agrees upload system where
  staged := sound.node.staged
  concluded := by
    intro next taken
    simp only [step, senderStep, Option.map_eq_some_iff] at taken
    rcases taken with ⟨result, returned, _⟩
    split at returned
    · rename_i offset streaming
      split at returned
      · rename_i complete
        exact sound.confirmed (.inl ((Sender.confirmed_iff upload _).mpr
          (.inr (.inr ⟨offset, streaming, complete⟩))))
      · cases returned
    · cases returned

/-- In every orderly run the staged part is a prefix of the stored file, and the sender
returns `"sent"` only to a process that finalizes the upload or has reported it. -/
theorem sent_is_concluded (upload : Upload) (actions : List Action) (system : System)
    (run : Steps (step upload) (Orderly upload) .new actions system) : Agrees upload system :=
  (run.invariant (Sound upload) (fun _ _ _ sound orderly taken => step_sound sound orderly taken)
    (new_sound upload)).agrees

def sampleUpload : Upload where
  content := [1, 2, 3]
  sha256 := ['d']
  filename := ['f']
  uploadVersion := 1
  chunkBytes := 2
  chunkWindow := 2
  nonempty := by decide

def beginRun (offset : Nat) : List Action :=
  [.control .begin, .receive, .node (.work .proceeds), .node (.work .proceeds),
    .node (.work .proceeds), .node .resume, .deliver (.ready offset false), .control .takeReady]

def appendRun : List Action :=
  [.receive, .node (.work .proceeds), .node (.work .proceeds)]

/-- The process ends with two of three bytes staged; the next one takes the last byte and
concludes. -/
def resumedRun : List Action :=
  [.node .connect] ++ beginRun 0 ++ [.control .openWindow, .control .sendChunk] ++ appendRun ++
    [.crash [], .control .interrupt, .node .connect] ++ beginRun 2 ++
    [.control .openWindow, .control .sendChunk, .control .closeWindow] ++ appendRun ++
    [.node .resume, .deliver (.ack 3), .control .takeAck]

theorem sent_is_concluded_run :
    ∃ system, execGuarded (step sampleUpload) (Orderly sampleUpload) .new resumedRun = some system ∧
      system.sender.phase = .streaming 3 ∧ Agrees sampleUpload system := by
  have executed : (execGuarded (step sampleUpload) (Orderly sampleUpload) .new resumedRun).any
      (fun system => system.sender.phase = .streaming 3) = true := by decide +kernel
  rcases (Option.any_eq_true _ _).mp executed with ⟨system, reached, phase⟩
  exact ⟨system, reached, of_decide_eq_true phase,
    sent_is_concluded sampleUpload resumedRun system (execGuarded_steps reached)⟩

/-- The process ends after the last byte is staged and before its handler goes on. -/
def stagedRun : List Action :=
  [.node .connect] ++ beginRun 0 ++
    [.control .openWindow, .control .sendChunk, .control .sendChunk] ++ appendRun ++
    [.node .resume] ++ appendRun ++ [.crash [], .control .interrupt, .node .connect] ++ beginRun 3

theorem complete_part_is_not_finalized :
    ¬ ∀ actions system, Steps (step sampleUpload) Any .new actions system →
      Agrees sampleUpload system := by
  intro always
  have executed : (exec (step sampleUpload) .new stagedRun).any (fun system =>
      (step sampleUpload system (.control .returnSent)).isSome && !decide (Concluded system.node)) =
        true := by decide +kernel
  rcases (Option.any_eq_true _ _).mp executed with ⟨system, reached, fails⟩
  rw [Bool.and_eq_true, Bool.not_eq_true', decide_eq_false_iff_not] at fails
  rcases Option.isSome_iff_exists.mp fails.1 with ⟨next, returned⟩
  exact fails.2 ((always stagedRun system (exec_steps reached)).concluded next returned)

end SourceLens.UploadTransfer
