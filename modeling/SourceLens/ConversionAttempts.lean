import SourceLens.ManagedConversionImages

/-! How often the conversion of a file that always fails is attempted over a history of
syncs. -/

namespace SourceLens.ConversionAttempts

open DocumentConvert Transition List
open ManagedConversion (Order Elsewhere reachesConverter)

variable {Content : Type} {tools : Tools Content} {path : LocalPath}

variable {sync : Sync} {after workspace before : Workspace Content} {count : Nat}
  {policy : Conversion} {order : Order}

def attemptsIn (tools : Tools Content) (sync : Sync) (path : LocalPath) :
    Workspace Content × Summary → Order → Nat
  | _, [] => 0
  | state, job :: rest =>
    let called :=
      if job.1.localPath = path ∧ reachesConverter tools sync state.1 path = true then 1 else 0
    match handleJob tools sync state job with
    | none => called
    | some next => called + attemptsIn tools sync path next rest

def attempts (tools : Tools Content) (path : LocalPath) (workspace : Workspace Content) :
    Action Content → Nat
  | .sync sync order | .queueRaises sync order =>
    let triage := triageItems tools sync workspace (conversionCandidates sync workspace)
    if conversionEnabled sync.conversion then
      attemptsIn tools sync path (triage.workspace, triage.summary) order
    else 0
  | _ => 0

def countedStep (tools : Tools Content) (path : LocalPath) (state : Workspace Content × Nat)
    (action : Action Content) : Option (Workspace Content × Nat) :=
  (step tools state.1 action).map fun next => (next, state.2 + attempts tools path state.1 action)

/-- The conversion of the path fails whenever the sync comes to it, and the policy is the
given one up to the queue and the workers. -/
structure Fails (policy : Conversion) (path : LocalPath) (sync : Sync) (order : Order) : Prop where
  unforced : sync.force = false
  options : optionsForRecheck sync.conversion = optionsForRecheck policy
  raises : ∀ job ∈ order, job.1.localPath = path → ∃ reason, job.2 = .raises reason

def Repeats (tools : Tools Content) (policy : Conversion) (path : LocalPath)
    (state : Workspace Content × Nat) : Action Content → Prop
  | .writeFile other file =>
    other = path → tools.sourceSha256 file.content = digestAt tools state.1 path
  | .removeFile other | .removeSidecar other => other ≠ path
  | .ensureSourceMetadata _ _ => False
  | .sync sync order | .queueRaises sync order => Fails policy path sync order
  | .triageRaises sync _ => Fails policy path sync []

/-- The sync meets a failed record of the path that it would retry with the options that
the record has, queue and workers included, and with vision configured if it needs it. -/
structure Steady (path : LocalPath) (workspace : Workspace Content) (sync : Sync) : Prop where
  once : sync.items.countP (fun item => decide (item.localPath = path)) ≤ 1
  unchanged : ∀ item, item.localPath = path → inChangedSet sync item = true →
    conversionNeedsRecheck sync (workspace.metas path) = true
  retried : ∀ record, workspace.metas path = some record → record.status = .failed →
    record.attempts < maxAutomaticConversionAttempts →
      record.options = sync.conversion ∧
        (isImagePath path = true → sync.visionConfigured = true)

def Undisturbed (path : LocalPath) (state : Workspace Content × Nat) : Action Content → Prop
  | .sync sync _ | .triageRaises sync _ => Steady path state.1 sync
  | .queueRaises _ _ => False
  | _ => True

/-- How the record of the path is left, and how often its converter was called. -/
inductive Leaves (tools : Tools Content) (sync : Sync) (path : LocalPath)
    (before after : Workspace Content) : Nat → Prop
  | kept (same : after.metas path = before.metas path) : Leaves tools sync path before after 0
  | skipped (record : Meta) (found : after.metas path = some record)
      (status : record.status = .skipped) (options : record.options = sync.conversion)
      (vision : record.error = "VISION_NOT_CONFIGURED" →
        isImagePath path = true ∧ sync.visionConfigured = false) :
      Leaves tools sync path before after 0
  | failed (record : Meta) (found : after.metas path = some record)
      (status : record.status = .failed) (options : record.options = sync.conversion)
      (digest : record.sourceSha256 = digestAt tools before path) (one : 1 ≤ record.attempts)
      (counted : ∀ previous, before.metas path = some previous → previous.status = .failed →
        previous.options = sync.conversion → previous.sourceSha256 = digestAt tools before path →
          record.attempts = previous.attempts + 1) :
      Leaves tools sync path before after 1

theorem Leaves.later {middle : Workspace Content} (files : middle.files = before.files)
    (same : middle.metas path = before.metas path)
    (leaves : Leaves tools sync path middle after count) :
    Leaves tools sync path before after count := by
  have digest : digestAt tools middle path = digestAt tools before path := digestAt_files files path
  cases leaves with
  | kept kept => exact .kept (kept.trans same)
  | skipped record found status options vision => exact .skipped record found status options vision
  | failed record found status options named one counted =>
    rw [digest] at named counted
    rw [same] at counted
    exact .failed record found status options named one counted

theorem Leaves.stays {middle : Workspace Content}
    (leaves : Leaves tools sync path before middle count)
    (same : after.metas path = middle.metas path) : Leaves tools sync path before after count := by
  cases leaves with
  | kept kept => exact .kept (same.trans kept)
  | skipped record found status options vision =>
    exact .skipped record (same.trans found) status options vision
  | failed record found status options named one counted =>
    exact .failed record (same.trans found) status options named one counted

theorem writeSkippedMeta_leaves (sync : Sync) (workspace : Workspace Content) {reason : String}
    (vision : reason = "VISION_NOT_CONFIGURED" →
      isImagePath path = true ∧ sync.visionConfigured = false) :
    Leaves tools sync path workspace
      (writeSkippedMeta tools sync.conversion workspace path reason) 0 :=
  .skipped _ (Function.update_self ..) rfl rfl vision

theorem writeFailedMeta_leaves (sync : Sync) (workspace : Workspace Content) (reason : String) :
    Leaves tools sync path workspace
      (writeFailedMeta tools sync.conversion workspace path reason) 1 := by
  refine .failed _ (Function.update_self ..) rfl rfl rfl ?_ ?_
  · generalize workspace.metas path = recorded
    cases recorded with
    | none => exact le_rfl
    | some previous =>
      dsimp only
      split
      · exact Nat.succ_pos _
      · exact le_rfl
  · intro previous found status options digest
    simp only [found]
    exact if_pos ⟨status, options, digest⟩

theorem convertOne_leaves (sync : Sync) (workspace : Workspace Content) (reason : String) :
    reachesConverter tools sync workspace path = true ∧
        convertOne tools sync workspace path (.raises reason) = (workspace, .raised reason) ∨
      reachesConverter tools sync workspace path = false ∧
        (∃ skip warning,
          (convertOne tools sync workspace path (.raises reason)).2 = .skipped skip warning) ∧
        Leaves tools sync path workspace
          (convertOne tools sync workspace path (.raises reason)).1 0 := by
  unfold convertOne reachesConverter
  dsimp only
  split
  · rename_i size
    exact .inr ⟨by simp [size], ⟨_, _, rfl⟩,
      writeSkippedMeta_leaves sync workspace fun same => absurd same (by decide)⟩
  rename_i size
  split
  · rename_i pages
    exact .inr ⟨by simp [pages], ⟨_, _, rfl⟩,
      writeSkippedMeta_leaves sync workspace fun same => absurd same (by decide)⟩
  rename_i pages
  split
  · rename_i unchanged
    exact .inr ⟨by simp [unchanged], ⟨_, _, rfl⟩, .kept rfl⟩
  rename_i changed
  split
  · rename_i unknown
    exact .inr ⟨by simp [unknown], ⟨_, _, rfl⟩,
      writeSkippedMeta_leaves sync workspace fun same => absurd same (by decide)⟩
  rename_i known
  split
  · rename_i blind
    refine .inr ⟨by simp [blind], ⟨_, _, rfl⟩, writeSkippedMeta_leaves sync workspace fun _ => ?_⟩
    simpa using blind
  · rename_i seeing
    refine .inl ⟨?_, rfl⟩
    rw [Bool.not_eq_true] at changed seeing
    simp [size, pages, changed, known, seeing]

theorem handleJob_leaves {state next : Workspace Content × Summary} {item : Item} {reason : String}
    (own : item.localPath = path)
    (handled : handleJob tools sync state (item, .raises reason) = some next) :
    Leaves tools sync path state.1 next.1
      (if reachesConverter tools sync state.1 path = true then 1 else 0) := by
  subst own
  obtain ⟨workspace, summary⟩ := state
  simp only [handleJob] at handled
  rcases convertOne_leaves sync workspace reason with ⟨reaches, raised⟩ | ⟨stops, ⟨skip, warning, ended⟩, leaves⟩
  · rw [raised] at handled
    cases handled
    rw [if_pos reaches]
    exact writeFailedMeta_leaves sync workspace reason
  · generalize convertOne tools sync workspace item.localPath (.raises reason) = result
      at handled ended leaves
    obtain ⟨written, _⟩ := result
    subst ended
    cases handled
    rw [if_neg (by simp [stops])]
    exact leaves

def ownJobs (path : LocalPath) (order : Order) : Nat :=
  order.countP fun job => decide (job.1.localPath = path)

def ownItems (path : LocalPath) (items : List Item) : Nat :=
  items.countP fun item => decide (item.localPath = path)

theorem runJobs_leaves {state next : Workspace Content × Summary}
    (raises : ∀ job ∈ order, job.1.localPath = path → ∃ reason, job.2 = .raises reason)
    (once : ownJobs path order ≤ 1) (ran : order.foldlM (handleJob tools sync) state = some next) :
    next.1.files = state.1.files ∧
      Leaves tools sync path state.1 next.1 (attemptsIn tools sync path state order) ∧
      (ownJobs path order = 0 → next.1.metas path = state.1.metas path ∧
        attemptsIn tools sync path state order = 0) := by
  induction order generalizing state with
  | nil =>
    cases ran
    exact ⟨rfl, .kept rfl, fun _ => ⟨rfl, rfl⟩⟩
  | cons job rest ih =>
    simp only [foldlM_cons, Option.bind_eq_bind, Option.bind_eq_some_iff] at ran
    obtain ⟨middle, handled, later⟩ := ran
    have touches := handleJob_touches handled
    have count : ownJobs path (job :: rest) =
        ownJobs path rest + if job.1.localPath = path then 1 else 0 := by
      simp [ownJobs, countP_cons]
    obtain ⟨files, leaves, absent⟩ :=
      ih (fun other member => raises other (mem_cons_of_mem _ member)) (by omega) later
    simp only [attemptsIn, handled]
    by_cases own : job.1.localPath = path
    · rw [if_pos own] at count
      obtain ⟨same, none⟩ := absent (by omega)
      obtain ⟨reason, raised⟩ := raises job (mem_cons_self ..) own
      obtain ⟨item, ended⟩ := job
      dsimp only at own raised
      subst raised
      refine ⟨files.trans touches.files, ?_, fun zero => by omega⟩
      simp only [own, true_and, none, Nat.add_zero]
      exact (handleJob_leaves own handled).stays same
    · rw [if_neg own] at count
      have kept := touches.others path fun same => own same.symm
      simp only [own, false_and, if_false, Nat.zero_add]
      refine ⟨files.trans touches.files, leaves.later touches.files kept, fun zero => ?_⟩
      obtain ⟨same, none⟩ := absent (by omega)
      exact ⟨same.trans kept, none⟩

structure TriageLeaves (tools : Tools Content) (sync : Sync) (path : LocalPath)
    (workspace : Workspace Content) (items : List Item) (triage : Triage Content) : Prop where
  seen : Seen tools sync workspace items triage
  leaves : Leaves tools sync path workspace triage.workspace 0
  jobs : ownItems path triage.jobs ≤ ownItems path items
  either : ownItems path triage.jobs = 0 ∨
    triage.workspace.metas path = workspace.metas path
  absent : ownItems path items = 0 → triage.workspace.metas path = workspace.metas path

theorem ownItems_concat (path : LocalPath) (items : List Item) (item : Item) :
    ownItems path (items ++ [item]) =
      ownItems path items + if item.localPath = path then 1 else 0 := by
  simp [ownItems, countP_append, countP_singleton]

theorem TriageLeaves.step {items : List Item} {triage : Triage Content}
    (before : TriageLeaves tools sync path workspace items triage) {item : Item}
    (once : ownItems path (items ++ [item]) ≤ 1) :
    TriageLeaves tools sync path workspace (items ++ [item])
      (triageItem tools sync triage item) := by
  obtain ⟨left, seen⟩ := before.seen.step item
  have jobs := before.jobs
  have count := ownItems_concat path items item
  generalize triageItem tools sync triage item = next at left seen ⊢
  cases left with
  | job digests within new =>
    have grown := ownItems_concat path triage.jobs item
    refine ⟨seen, before.leaves, ?_, ?_, fun zero => before.absent (by omega)⟩
    · dsimp only
      omega
    · by_cases own : item.localPath = path
      · rw [if_pos own] at count
        exact .inr (before.absent (by omega))
      · rw [if_neg own] at grown
        exact before.either.imp_left fun zero => grown.trans zero
  | exceeds image exceeded =>
    by_cases own : item.localPath = path
    · rw [if_pos own] at count
      have same := before.absent (by omega)
      have written : Leaves tools sync path triage.workspace (writeSkippedMeta tools
          sync.conversion triage.workspace path "CONVERSION_MAX_IMAGES_EXCEEDED") 0 :=
        writeSkippedMeta_leaves sync triage.workspace fun same => absurd same (by decide)
      subst own
      refine ⟨seen, written.later before.seen.files same, ?_, .inl ?_, fun zero => by omega⟩
      · dsimp only
        omega
      · dsimp only
        omega
    · rw [if_neg own] at count
      have kept : (writeSkippedMeta tools sync.conversion triage.workspace item.localPath
          "CONVERSION_MAX_IMAGES_EXCEEDED").metas path = triage.workspace.metas path :=
        Function.update_of_ne (fun same => own same.symm) ..
      refine ⟨seen, before.leaves.stays kept, ?_, before.either.imp_right kept.trans,
        fun zero => kept.trans (before.absent (by omega))⟩
      dsimp only
      omega
  | repeats duplicate =>
    refine ⟨seen, before.leaves, ?_, before.either, fun zero => before.absent (by omega)⟩
    dsimp only
    omega

theorem triageItems_leaves (sync : Sync) (workspace : Workspace Content) {items : List Item}
    (once : ownItems path items ≤ 1) :
    TriageLeaves tools sync path workspace items (triageItems tools sync workspace items) := by
  unfold triageItems
  generalize ({ candidates := items.length } : Summary) = summary
  induction items using List.reverseRecOn with
  | nil => exact ⟨seen_nil .., .kept rfl, le_rfl, .inl rfl, fun _ => rfl⟩
  | append_singleton items item ih =>
    rw [foldl_append, foldl_cons, foldl_nil]
    have count := ownItems_concat path items item
    exact (ih (by omega)).step once

def TakesUp (path : LocalPath) (workspace : Workspace Content) (sync : Sync) : Prop :=
  ∃ item ∈ conversionCandidates sync workspace, item.localPath = path

theorem not_takesUp (none : ¬ TakesUp path workspace sync) :
    ownItems path (conversionCandidates sync workspace) = 0 := by
  refine countP_eq_zero.mpr fun item member own => ?_
  exact none ⟨item, member, of_decide_eq_true own⟩

theorem candidates_once (steady : Steady path workspace sync) :
    ownItems path (conversionCandidates sync workspace) ≤ 1 :=
  (filter_sublist.countP_le).trans steady.once

theorem TakesUp.recheck (steady : Steady path workspace sync) (taken : TakesUp path workspace sync) :
    conversionNeedsRecheck sync (workspace.metas path) = true := by
  obtain ⟨item, member, rfl⟩ := taken
  have chosen := (mem_filter.mp member).2
  simp only [Bool.and_eq_true, Bool.or_eq_true] at chosen
  rcases chosen.2 with changed | recheck
  · exact steady.unchanged item rfl changed
  · exact recheck

theorem sync_leaves (fails : Fails policy path sync order) (steady : Steady path workspace sync)
    (taken : step tools workspace (.sync sync order) = some after) : after.files = workspace.files ∧
      Leaves tools sync path workspace after (attempts tools path workspace (.sync sync order)) ∧
      (¬ TakesUp path workspace sync → after.metas path = workspace.metas path ∧
        attempts tools path workspace (.sync sync order) = 0) := by
  simp only [step, postProcessDocuments] at taken
  simp only [attempts]
  cases enabled : conversionEnabled sync.conversion with
  | false =>
    rw [enabled] at taken
    cases taken
    exact ⟨rfl, .kept rfl, fun _ => ⟨rfl, rfl⟩⟩
  | true =>
    rw [enabled] at taken
    simp only [Bool.not_true, Bool.false_eq_true, if_false] at taken
    have triaged : TriageLeaves tools sync path workspace (conversionCandidates sync workspace)
        (triageItems tools sync workspace (conversionCandidates sync workspace)) :=
      triageItems_leaves sync workspace (candidates_once steady)
    generalize triageItems tools sync workspace (conversionCandidates sync workspace) = triage
      at taken triaged ⊢
    split at taken
    · rename_i complete
      simp only [Option.map_map, Option.map_eq_some_iff] at taken
      obtain ⟨next, ran, rfl⟩ := taken
      have jobs : ownJobs path order = ownItems path triage.jobs := by
        rw [ownItems, ← (isPerm_iff.mp complete).countP_eq, countP_map]
        rfl
      have bound := triaged.jobs
      have once := candidates_once steady
      obtain ⟨files, leaves, absent⟩ := runJobs_leaves fails.raises (by omega) ran
      rw [if_pos rfl]
      refine ⟨files.trans triaged.seen.files, ?_, fun none => ?_⟩
      · rcases triaged.either with zero | same
        · obtain ⟨same, none⟩ := absent (jobs.trans zero)
          rw [none]
          exact triaged.leaves.stays same
        · exact leaves.later triaged.seen.files same
      · have zero := not_takesUp none
        obtain ⟨same, none⟩ := absent (by omega)
        exact ⟨same.trans (triaged.absent zero), none⟩
    · cases taken

/-- The record keeps count of the attempts, or no sync will make another one. -/
inductive Recorded (tools : Tools Content) (path : LocalPath) (workspace : Workspace Content)
    (count : Nat) (record : Meta) : Prop
  | failed (status : record.status = .failed) (counted : count ≤ record.attempts)
      (digest : record.sourceSha256 = digestAt tools workspace path)
  | closed (status : record.status = .skipped) (blind : record.error ≠ "VISION_NOT_CONFIGURED")

structure Bounded (tools : Tools Content) (policy : Conversion) (path : LocalPath)
    (state : Workspace Content × Nat) : Prop where
  bound : state.2 ≤ maxAutomaticConversionAttempts
  record : state.2 = 0 ∨ ∃ record, state.1.metas path = some record ∧
    optionsForRecheck record.options = optionsForRecheck policy ∧
    Recorded tools path state.1 state.2 record

theorem Recorded.digest {record : Meta}
    (same : digestAt tools after path = digestAt tools before path)
    (recorded : Recorded tools path before count record) :
    Recorded tools path after count record := by
  cases recorded with
  | failed status counted digest => exact .failed status counted (digest.trans same.symm)
  | closed status blind => exact .closed status blind

theorem Bounded.same (bounded : Bounded tools policy path (before, count))
    (digest : digestAt tools after path = digestAt tools before path)
    (metas : after.metas path = before.metas path) : Bounded tools policy path (after, count) := by
  refine ⟨bounded.bound, bounded.record.imp_right fun known => ?_⟩
  obtain ⟨record, found, options, recorded⟩ := known
  exact ⟨record, metas.trans found, options, recorded.digest digest⟩

theorem Recorded.retries {record : Meta} (recorded : Recorded tools path workspace count record)
    (options : optionsForRecheck record.options = optionsForRecheck policy)
    (fails : Fails policy path sync order)
    (recheck : conversionNeedsRecheck sync (some record) = true) :
    record.status = .failed ∧ count ≤ record.attempts ∧
      record.attempts < maxAutomaticConversionAttempts ∧
      record.sourceSha256 = digestAt tools workspace path := by
  have same : ¬ (sync.force = true ∨
      optionsForRecheck record.options ≠ optionsForRecheck sync.conversion) := by
    rw [fails.unforced, options, fails.options]
    simp
  simp only [conversionNeedsRecheck, if_neg same] at recheck
  cases recorded with
  | failed status counted digest =>
    rw [status] at recheck
    exact ⟨status, counted, of_decide_eq_true recheck, digest⟩
  | closed status blind =>
    rw [status] at recheck
    simp [blind] at recheck

theorem Bounded.leaves {more : Nat} (bounded : Bounded tools policy path (before, count))
    (fails : Fails policy path sync order) (steady : Steady path before sync)
    (files : after.files = before.files)
    (recheck : conversionNeedsRecheck sync (before.metas path) = true)
    (leaves : Leaves tools sync path before after more) :
    Bounded tools policy path (after, count + more) := by
  have digest : digestAt tools after path = digestAt tools before path := digestAt_files files path
  have bound := bounded.bound
  cases leaves with
  | kept same => exact bounded.same digest same
  | skipped record found status options vision =>
    refine ⟨bound, bounded.record.imp_right fun known => ?_⟩
    obtain ⟨previous, stored, agreed, recorded⟩ := known
    rw [stored] at recheck
    obtain ⟨failed, -, left, -⟩ := recorded.retries agreed fails recheck
    refine ⟨record, found, (congrArg _ options).trans fails.options, .closed status fun blind => ?_⟩
    obtain ⟨image, missing⟩ := vision blind
    have configured := (steady.retried previous stored failed left).2 image
    rw [missing] at configured
    cases configured
  | failed record found status options named one counted =>
    have agrees := (congrArg optionsForRecheck options).trans fails.options
    have kept := named.trans digest.symm
    rcases bounded.record with zero | ⟨previous, stored, agreed, recorded⟩
    · dsimp only at zero bound
      subst zero
      have one : 0 + 1 ≤ maxAutomaticConversionAttempts := by decide
      exact ⟨one, .inr ⟨record, found, agrees, .failed status (by omega) kept⟩⟩
    · rw [stored] at recheck
      obtain ⟨failed, below, left, same⟩ := recorded.retries agreed fails recheck
      have next := counted previous stored failed
        (steady.retried previous stored failed left).1 same
      dsimp only at below
      refine ⟨?_, .inr ⟨record, found, agrees, .failed status ?_ kept⟩⟩
      · dsimp only
        omega
      · dsimp only
        omega

theorem Bounded.step {state next : Workspace Content × Nat} {action : Action Content}
    (bounded : Bounded tools policy path state)
    (allowed : Repeats tools policy path state action ∧ Undisturbed path state action)
    (taken : countedStep tools path state action = some next) : Bounded tools policy path next := by
  obtain ⟨workspace, count⟩ := state
  obtain ⟨repeats, undisturbed⟩ := allowed
  obtain ⟨after, stepped, rfl⟩ := Option.map_eq_some_iff.mp taken
  cases action with
  | writeFile other file =>
    cases stepped
    refine bounded.same ?_ rfl
    by_cases own : other = path
    · have bytes : tools.sourceSha256 file.content = digestAt tools workspace path := repeats own
      subst own
      rw [← bytes, digestAt]
      simp
    · have apart : path ≠ other := fun same => own same.symm
      simp only [digestAt, Function.update_of_ne apart]
  | removeFile other =>
    cases stepped
    have apart : path ≠ other := fun same => repeats same.symm
    refine bounded.same ?_ rfl
    simp only [digestAt, Function.update_of_ne apart]
  | removeSidecar other =>
    cases stepped
    have apart : path ≠ other := fun same => repeats same.symm
    exact bounded.same rfl (Function.update_of_ne apart ..)
  | ensureSourceMetadata conversion other => cases repeats
  | sync sync order =>
    obtain ⟨files, leaves, absent⟩ := sync_leaves repeats undisturbed stepped
    by_cases up : TakesUp path workspace sync
    · exact bounded.leaves repeats undisturbed files (up.recheck undisturbed) leaves
    · obtain ⟨same, none⟩ := absent up
      dsimp only
      rw [none]
      exact bounded.same (digestAt_files files path) same
  | triageRaises sync done =>
    cases stepped
    have part : ownItems path ((conversionCandidates sync workspace).take done) ≤
        ownItems path (conversionCandidates sync workspace) :=
      (take_sublist ..).countP_le
    have once := candidates_once undisturbed
    have triaged : TriageLeaves tools sync path workspace
        ((conversionCandidates sync workspace).take done) (triageItems tools sync workspace
          ((conversionCandidates sync workspace).take done)) :=
      triageItems_leaves sync workspace (part.trans once)
    by_cases up : TakesUp path workspace sync
    · exact bounded.leaves repeats undisturbed triaged.seen.files (up.recheck undisturbed)
        triaged.leaves
    · have zero := not_takesUp up
      exact bounded.same (digestAt_files triaged.seen.files path) (triaged.absent (by omega))
  | queueRaises sync order => cases undisturbed

/-- In every history of steady syncs that are not aborted, the converter of a file that
always fails is called at most as often as the limit says. -/
theorem attempts_bounded {policy : Conversion} {actions : List (Action Content)}
    {start finish : Workspace Content} {count : Nat}
    (run : Steps (countedStep tools path)
      (fun state action => Repeats tools policy path state action ∧ Undisturbed path state action)
      (start, 0) actions (finish, count)) :
    count ≤ maxAutomaticConversionAttempts := by
  have bounded := run.invariant (Bounded tools policy path)
    (fun _ _ _ bounded allowed taken => bounded.step allowed taken) ⟨Nat.zero_le _, .inl rfl⟩
  exact bounded.bound

open ManagedConversion (textPath fullWorkspace)

def attemptSync (workers : Int) (changed : List LocalPath) : Sync where
  items := [{ localPath := textPath }]
  changedPaths := some changed
  conversion := { document := true, queue := "parallel", workers }
  force := false
  visionConfigured := false
  foreign := fun _ => false

def failingOrder : Order := [({ localPath := textPath }, .raises "CONVERSION_FILE_FAILED")]

theorem failing_sync (workers other : Int) (changed : List LocalPath) :
    Fails (attemptSync other []).conversion textPath (attemptSync workers changed)
      failingOrder := by
  refine ⟨rfl, rfl, fun job member _ => ?_⟩
  rw [mem_singleton.mp member]
  exact ⟨_, rfl⟩

theorem attempts_bounded_twice :
    ∃ finish count, Steps (countedStep textTools textPath)
      (fun state action => Repeats textTools (attemptSync 4 []).conversion textPath state action ∧
        Undisturbed textPath state action) (fullWorkspace, 0)
      [.sync (attemptSync 4 [textPath]) failingOrder, .sync (attemptSync 4 []) failingOrder]
      (finish, count) ∧ count ≤ maxAutomaticConversionAttempts := by
  have first : Steady textPath fullWorkspace (attemptSync 4 [textPath]) :=
    ⟨by decide, fun _ _ _ => rfl, nofun⟩
  have run : ∃ finish count, Steps (countedStep textTools textPath)
      (fun state action => Repeats textTools (attemptSync 4 []).conversion textPath state action ∧
        Undisturbed textPath state action) (fullWorkspace, 0)
      [.sync (attemptSync 4 [textPath]) failingOrder, .sync (attemptSync 4 []) failingOrder]
      (finish, count) := by
    refine ⟨_, _, .cons ⟨failing_sync 4 4 _, first⟩ rfl
      (.cons ⟨failing_sync 4 4 _, ⟨by decide, ?_, ?_⟩⟩ rfl (.nil _))⟩
    · intro item own changed
      cases changed
    · intro record found failed left
      cases found
      exact ⟨rfl, fun image => by revert image; decide⟩
  obtain ⟨finish, count, run⟩ := run
  exact ⟨finish, count, run, attempts_bounded run⟩

/-- Syncs with four and two workers in turn, the first of which brings the file. -/
def alternatingSyncs : List (Action String) :=
  [.sync (attemptSync 4 [textPath]) failingOrder, .sync (attemptSync 2 []) failingOrder,
    .sync (attemptSync 4 []) failingOrder, .sync (attemptSync 2 []) failingOrder]

/-- A change of the workers between the syncs makes every attempt the first one. -/
theorem attempts_start_over :
    ¬ ∀ (policy : Conversion) (path : LocalPath) (actions : List (Action String))
        (start finish : Workspace String) (count : Nat),
      Steps (countedStep textTools path) (Repeats textTools policy path) (start, 0) actions
        (finish, count) → count ≤ maxAutomaticConversionAttempts := by
  intro always
  have executed : (exec (countedStep textTools textPath) (fullWorkspace, 0) alternatingSyncs).any
      (fun state => decide (state.2 = 4)) = true := by decide
  obtain ⟨⟨finish, count⟩, reached, four⟩ := (Option.any_eq_true _ _).mp executed
  have run : Steps (countedStep textTools textPath)
      (Repeats textTools (attemptSync 4 []).conversion textPath) (fullWorkspace, 0)
      alternatingSyncs (finish, count) := by
    refine (exec_steps reached).everywhere fun action member state => ?_
    simp only [alternatingSyncs, mem_cons, not_mem_nil, or_false] at member
    rcases member with rfl | rfl | rfl | rfl
    · exact failing_sync 4 4 _
    · exact failing_sync 2 4 _
    · exact failing_sync 4 4 _
    · exact failing_sync 2 4 _
  have bound := always _ _ _ _ _ _ run
  have four := of_decide_eq_true four
  have limit : maxAutomaticConversionAttempts = 3 := rfl
  dsimp only at four
  omega

end SourceLens.ConversionAttempts
