import SourceLens.ManagedConversionCounts

/-! The images of a managed conversion: which of them the batches accept, which come to
the converter, and what a batch counts for them. -/

namespace SourceLens.ManagedConversion

open DocumentConvert List

variable {Content : Type} {tools : Tools Content} {command : Command}

variable {start workspace after : Workspace Content} {sync : Sync} {path : LocalPath}
  {outcome : LocalPath → ConverterOutcome} {items away : List Item}

/-- `convert_one` comes to the converter of the file. -/
def reachesConverter (tools : Tools Content) (sync : Sync) (workspace : Workspace Content)
    (path : LocalPath) : Bool :=
  let conversion := sync.conversion
  let fingerprint := conversionFingerprint tools conversion path (digestAt tools workspace path)
  !decide (orDefault conversion.maxFileSizeMb defaultMaxFileSizeMb * 1024 * 1024 <
      sizeAt tools workspace path) &&
    !decide (orDefault conversion.maxPages defaultMaxPages < pdfPageCount tools workspace path) &&
    !DocumentConvert.converted sync workspace path fingerprint &&
    decide (converterFor path ≠ none) && !(isImagePath path && !sync.visionConfigured)

/-- The images for which a loop over the jobs calls the converter. -/
def calledImages (tools : Tools Content) (sync : Sync) :
    Workspace Content × Summary → Order → List Item
  | _, [] => []
  | state, job :: rest =>
    let called :=
      if isImagePath job.1.localPath && reachesConverter tools sync state.1 job.1.localPath then
        [job.1]
      else []
    match handleJob tools sync state job with
    | none => called
    | some next => called ++ calledImages tools sync next rest

structure RunImages where
  accepted : List Item
  recognized : List Item

/-- The images that become jobs in a call, and those that come to the converter there. -/
def callImages (tools : Tools Content) (sync : Sync) (order : Order)
    (workspace : Workspace Content) : RunImages :=
  if !conversionEnabled sync.conversion then ⟨[], []⟩
  else
    let triage := triageItems tools sync workspace (conversionCandidates sync workspace)
    { accepted := triage.jobs.filter fun item => isImagePath item.localPath
      recognized := calledImages tools sync (triage.workspace, triage.summary) order }

def runImages (tools : Tools Content) (command : Command) :
    List (List Item) → List Order → Workspace Content → RunImages
  | batch :: rest, order :: orders, workspace =>
    let images := callImages tools (command.sync batch) order workspace
    match postProcessDocuments tools (command.sync batch) order workspace with
    | none => images
    | some (after, _) =>
      let later := runImages tools command rest orders after
      ⟨images.accepted ++ later.accepted, images.recognized ++ later.recognized⟩
  | _, _, _ => ⟨[], []⟩

structure Elsewhere (paths : List LocalPath) (before after : Workspace Content) : Prop where
  files : after.files = before.files
  metas : ∀ other, other ∉ paths → after.metas other = before.metas other
  contents : ∀ other, other ∉ paths → after.contents other = before.contents other

theorem Elsewhere.refl (paths : List LocalPath) (workspace : Workspace Content) :
    Elsewhere paths workspace workspace := ⟨rfl, fun _ _ => rfl, fun _ _ => rfl⟩

theorem Elsewhere.trans {early late paths : List LocalPath}
    {first second third : Workspace Content} (one : Elsewhere early first second)
    (two : Elsewhere late second third) (within : ∀ path ∈ early ++ late, path ∈ paths) :
    Elsewhere paths first third := by
  have apart : ∀ other, other ∉ paths → other ∉ early ∧ other ∉ late := fun other outside =>
    ⟨fun listed => outside (within other (mem_append_left _ listed)),
      fun listed => outside (within other (mem_append_right _ listed))⟩
  refine ⟨two.files.trans one.files, fun other outside => ?_, fun other outside => ?_⟩
  · exact (two.metas other (apart other outside).2).trans (one.metas other (apart other outside).1)
  · exact (two.contents other (apart other outside).2).trans
      (one.contents other (apart other outside).1)

theorem writeMeta_elsewhere (tools : Tools Content) (conversion : Conversion)
    (workspace : Workspace Content) (path : LocalPath) (record : Record) :
    Elsewhere [path] workspace (writeMeta tools conversion workspace path record) := by
  refine ⟨rfl, fun other outside => ?_, fun _ _ => rfl⟩
  exact Function.update_of_ne (fun same => outside (mem_singleton.mpr same)) ..

theorem convertOne_elsewhere (tools : Tools Content) (sync : Sync) (workspace : Workspace Content)
    (path : LocalPath) (outcome : ConverterOutcome) :
    Elsewhere [path] workspace (convertOne tools sync workspace path outcome).1 := by
  have skips : ∀ reason, Elsewhere [path] workspace
      (writeSkippedMeta tools sync.conversion workspace path reason) :=
    fun reason => writeMeta_elsewhere ..
  unfold convertOne
  dsimp only
  split
  · exact skips _
  split
  · exact skips _
  split
  · exact .refl _ _
  split
  · exact skips _
  split
  · exact skips _
  cases outcome with
  | runCancelled | raises => exact .refl _ _
  | skipped reason => exact skips _
  | text warning =>
    have written := writeMeta_elsewhere tools sync.conversion
      { workspace with contents := Function.update workspace.contents path true } path
      { status := .success
        fingerprint := conversionFingerprint tools sync.conversion path
          (digestAt tools workspace path)
        sourceSha256 := digestAt tools workspace path }
    refine ⟨written.files, written.metas, fun other outside => ?_⟩
    exact (written.contents other outside).trans
      (Function.update_of_ne (fun same => outside (mem_singleton.mpr same)) ..)

structure Unmoved (start workspace : Workspace Content) (path : LocalPath) : Prop where
  files : workspace.files = start.files
  metas : workspace.metas path = start.metas path
  contents : workspace.contents path = start.contents path

theorem Unmoved.reaches (unmoved : Unmoved start workspace path) (sync : Sync) :
    reachesConverter tools sync workspace path = reachesConverter tools sync start path := by
  have digest : digestAt tools workspace path = digestAt tools start path :=
    digestAt_files unmoved.files path
  have size : sizeAt tools workspace path = sizeAt tools start path := by
    rw [sizeAt, sizeAt, unmoved.files]
  have pages : pdfPageCount tools workspace path = pdfPageCount tools start path := by
    rw [pdfPageCount, pdfPageCount, unmoved.files]
  have recorded : ∀ fingerprint, DocumentConvert.converted sync workspace path fingerprint =
      DocumentConvert.converted sync start path fingerprint := by
    intro fingerprint
    rw [DocumentConvert.converted, DocumentConvert.converted, unmoved.metas, unmoved.contents]
  simp only [reachesConverter]
  rw [digest, size, pages, recorded]

theorem Unmoved.elsewhere {before : Workspace Content} {paths : List LocalPath}
    (unmoved : Unmoved start before path) (kept : Elsewhere paths before after)
    (outside : path ∉ paths) : Unmoved start after path where
  files := kept.files.trans unmoved.files
  metas := (kept.metas path outside).trans unmoved.metas
  contents := (kept.contents path outside).trans unmoved.contents

theorem convertOne_reaches (reaches : reachesConverter tools sync workspace path = true)
    (outcome : ConverterOutcome) : (convertOne tools sync workspace path outcome).2 =
      match outcome with
      | .runCancelled => .runCancelled
      | .raises reason => .raised reason
      | .skipped reason => .skipped reason ""
      | .text warning => .converted warning := by
  simp only [reachesConverter, Bool.and_eq_true, Bool.not_eq_true', decide_eq_false_iff_not,
    decide_eq_true_eq] at reaches
  obtain ⟨⟨⟨⟨size, pages⟩, fresh⟩, known⟩, vision⟩ := reaches
  unfold convertOne
  dsimp only
  rw [if_neg size, if_neg pages, if_neg (by simp [fresh]), if_neg known, if_neg (by simp [vision])]
  cases outcome with
  | runCancelled | raises | skipped | text => rfl

theorem convertOne_stops (stops : reachesConverter tools sync workspace path = false)
    (outcome : ConverterOutcome) : ∃ reason warning,
      (convertOne tools sync workspace path outcome).2 = .skipped reason warning := by
  unfold convertOne
  dsimp only
  split
  · exact ⟨_, _, rfl⟩
  split
  · exact ⟨_, _, rfl⟩
  split
  · exact ⟨_, _, rfl⟩
  split
  · exact ⟨_, _, rfl⟩
  split
  · exact ⟨_, _, rfl⟩
  rename_i size pages fresh known vision
  rw [Bool.not_eq_true] at fresh vision
  simp [reachesConverter, size, pages, fresh, known, vision] at stops

/-- The file is skipped when nothing in its batch stands before it. -/
def skippedAlone (tools : Tools Content) (sync : Sync) (outcome : LocalPath → ConverterOutcome)
    (workspace : Workspace Content) (path : LocalPath) : Bool :=
  !reachesConverter tools sync workspace path ||
    match outcome path with
    | .skipped _ => true
    | _ => false

/-- The file is converted when nothing in its batch stands before it. -/
def convertedAlone (tools : Tools Content) (sync : Sync) (outcome : LocalPath → ConverterOutcome)
    (workspace : Workspace Content) (path : LocalPath) : Bool :=
  reachesConverter tools sync workspace path &&
    match outcome path with
    | .text _ => true
    | _ => false

def Consistent (outcome : LocalPath → ConverterOutcome) (order : Order) : Prop :=
  ∀ job ∈ order, job.2 = outcome job.1.localPath

def tally (summary : Summary) : Nat × Nat := (summary.converted, summary.skipped)

theorem appendConversionDetail_tally (summary : Summary) (item : Item) (status reason : String) :
    tally (appendConversionDetail summary item status reason) = tally summary := by
  unfold appendConversionDetail
  split <;> rfl

theorem warn_tally (summary : Summary) (warning : String) :
    tally (warn summary warning) = tally summary := by
  unfold warn
  split <;> rfl

def addFate (converts skips : Bool) (counts : Nat × Nat) : Nat × Nat :=
  (counts.1 + converts.toNat, counts.2 + skips.toNat)

theorem handleJob_tally {state next : Workspace Content × Summary} {job : Item × ConverterOutcome}
    (same : job.2 = outcome job.1.localPath) (unmoved : Unmoved start state.1 job.1.localPath)
    (handled : handleJob tools sync state job = some next) :
    Elsewhere [job.1.localPath] state.1 next.1 ∧
      tally next.2 = addFate (convertedAlone tools sync outcome start job.1.localPath)
        (skippedAlone tools sync outcome start job.1.localPath) (tally state.2) := by
  obtain ⟨workspace, summary⟩ := state
  obtain ⟨item, ended⟩ := job
  dsimp only at same unmoved ⊢
  subst same
  have elsewhere := convertOne_elsewhere tools sync workspace item.localPath
    (outcome item.localPath)
  simp only [convertedAlone, skippedAlone, ← unmoved.reaches]
  simp only [handleJob] at handled
  cases reaches : reachesConverter tools sync workspace item.localPath with
  | false =>
    obtain ⟨reason, warning, fate⟩ := convertOne_stops reaches (outcome item.localPath)
    generalize convertOne tools sync workspace item.localPath (outcome item.localPath) = result
      at elsewhere fate handled
    obtain ⟨written, _⟩ := result
    subst fate
    cases handled
    refine ⟨elsewhere, ?_⟩
    rw [appendConversionDetail_tally, warn_tally]
    rfl
  | true =>
    have fate := convertOne_reaches reaches (outcome item.localPath)
    generalize outcome item.localPath = ended at elsewhere fate handled ⊢
    generalize convertOne tools sync workspace item.localPath ended = result
      at elsewhere fate handled
    obtain ⟨written, _⟩ := result
    subst fate
    cases ended with
    | runCancelled => cases handled
    | raises reason =>
      cases handled
      refine ⟨elsewhere.trans (writeMeta_elsewhere ..) (by simp), ?_⟩
      rw [appendConversionDetail_tally, warn_tally]
      rfl
    | skipped reason =>
      cases handled
      refine ⟨elsewhere, ?_⟩
      rw [appendConversionDetail_tally, warn_tally]
      rfl
    | text warning =>
      cases handled
      refine ⟨elsewhere, ?_⟩
      rw [warn_tally, appendConversionDetail_tally]
      rfl

def addFates (converts skips : LocalPath → Bool) (items : List Item) (counts : Nat × Nat) :
    Nat × Nat :=
  (counts.1 + items.countP fun item => converts item.localPath,
    counts.2 + items.countP fun item => skips item.localPath)

theorem addFates_cons (converts skips : LocalPath → Bool) (item : Item) (rest : List Item)
    (counts : Nat × Nat) :
    addFates converts skips (item :: rest) counts =
      addFates converts skips rest
        (addFate (converts item.localPath) (skips item.localPath) counts) := by
  have count : ∀ keep : LocalPath → Bool,
      (item :: rest).countP (fun item => keep item.localPath) =
        (keep item.localPath).toNat + rest.countP fun item => keep item.localPath := by
    intro keep
    rw [countP_cons, Nat.add_comm, Bool.toNat, Bool.cond_eq_ite]
  simp only [addFates, addFate, count, Nat.add_assoc]

theorem addFates_perm {converts skips : LocalPath → Bool} {others : List Item}
    (perm : items.Perm others) {counts : Nat × Nat} :
    addFates converts skips items counts = addFates converts skips others counts := by
  rw [addFates, addFates, perm.countP_eq, perm.countP_eq]

theorem runJobs_tally {order : Order} {state next : Workspace Content × Summary}
    (consistent : Consistent outcome order) (nodup : (order.map (·.1.localPath)).Nodup)
    (unmoved : ∀ job ∈ order, Unmoved start state.1 job.1.localPath)
    (ran : order.foldlM (handleJob tools sync) state = some next) :
    Elsewhere (order.map (·.1.localPath)) state.1 next.1 ∧
      tally next.2 = addFates (convertedAlone tools sync outcome start)
        (skippedAlone tools sync outcome start) (order.map Prod.fst) (tally state.2) ∧
      calledImages tools sync state order = (order.map Prod.fst).filter fun item =>
        isImagePath item.localPath && reachesConverter tools sync start item.localPath := by
  induction order generalizing state with
  | nil =>
    cases ran
    exact ⟨.refl _ _, rfl, rfl⟩
  | cons job rest ih =>
    simp only [foldlM_cons, Option.bind_eq_bind, Option.bind_eq_some_iff] at ran
    obtain ⟨middle, handled, later⟩ := ran
    rw [map_cons, nodup_cons] at nodup
    have first := unmoved job (mem_cons_self ..)
    obtain ⟨own, counts⟩ := handleJob_tally (consistent job (mem_cons_self ..)) first handled
    have others : ∀ other ∈ rest, Unmoved start middle.1 other.1.localPath := by
      intro other member
      refine (unmoved other (mem_cons_of_mem _ member)).elsewhere own fun same => ?_
      rw [mem_singleton] at same
      exact nodup.1 (same ▸ mem_map_of_mem member)
    obtain ⟨elsewhere, more, called⟩ :=
      ih (fun other member => consistent other (mem_cons_of_mem _ member)) nodup.2 others
        later
    refine ⟨own.trans elsewhere fun path listed => by simpa using listed, ?_, ?_⟩
    · rw [more, counts, map_cons, addFates_cons]
    · simp only [calledImages, handled, called, map_cons, first.reaches]
      rw [filter_cons]
      split
      · rfl
      · rfl

def TurnedAway (tools : Tools Content) (conversion : Conversion) (workspace : Workspace Content)
    (front : List Item) (item : Item) : Prop :=
  isImagePath item.localPath = true ∧
    (orDefault conversion.maxImages defaultMaxImages < (imageCount front : Int) + 1 ∨
      ∃ earlier ∈ front, isImagePath earlier.localPath = true ∧
        digestAt tools workspace earlier.localPath = digestAt tools workspace item.localPath)

structure Parted (tools : Tools Content) (sync : Sync) (workspace : Workspace Content)
    (items : List Item) (triage : Triage Content) (away : List Item) : Prop where
  seen : Seen tools sync workspace items triage
  perm : (triage.jobs ++ away).Perm items
  elsewhere : Elsewhere (away.map (·.localPath)) workspace triage.workspace
  counts : tally triage.summary = (0, away.length)
  turned : ∀ item ∈ away, ∃ front back, items = front ++ item :: back ∧
    TurnedAway tools sync.conversion workspace front item
  kept : ∀ front item back, items = front ++ item :: back →
    TurnedAway tools sync.conversion workspace front item → item ∈ away

theorem skipImage_tally (summary : Summary) (item : Item) (reason : String) :
    tally (skipImage summary item reason) = ((tally summary).1, (tally summary).2 + 1) :=
  appendConversionDetail_tally ..

theorem Parted.turn {triage next : Triage Content} {item : Item}
    (parted : Parted tools sync workspace items triage away)
    (seen : Seen tools sync workspace (items ++ [item]) next) (jobs : next.jobs = triage.jobs)
    (elsewhere : Elsewhere [item.localPath] triage.workspace next.workspace)
    (counts : tally next.summary = ((tally triage.summary).1, (tally triage.summary).2 + 1))
    (turned : TurnedAway tools sync.conversion workspace items item) :
    Parted tools sync workspace (items ++ [item]) next (away ++ [item]) := by
  refine ⟨seen, ?_, ?_, ?_, ?_, ?_⟩
  · rw [jobs, ← append_assoc]
    exact parted.perm.append_right [item]
  · exact parted.elsewhere.trans elsewhere fun path listed => by simpa using listed
  · rw [counts, parted.counts, length_append, length_singleton]
  · intro other member
    rcases mem_append.mp member with before | last
    · obtain ⟨front, back, whole, fine⟩ := parted.turned other before
      exact ⟨front, back ++ [item], by rw [whole]; simp, fine⟩
    · rw [mem_singleton.mp last]
      exact ⟨items, [], rfl, turned⟩
  · intro front other back whole fine
    rcases eq_nil_or_concat back with rfl | ⟨before, last, rfl⟩
    · obtain ⟨-, single⟩ := append_inj' whole rfl
      rw [← singleton_inj.mp single]
      exact mem_append_right _ (mem_singleton_self _)
    · rw [concat_eq_append, ← cons_append, ← append_assoc] at whole
      obtain ⟨whole, -⟩ := append_inj' whole rfl
      exact mem_append_left _ (parted.kept front other before whole fine)

theorem Parted.step {triage : Triage Content}
    (parted : Parted tools sync workspace items triage away) (item : Item) :
    ∃ more, Parted tools sync workspace (items ++ [item]) (triageItem tools sync triage item)
      more := by
  obtain ⟨left, seen⟩ := parted.seen.step item
  generalize triageItem tools sync triage item = next at left seen ⊢
  cases left with
  | job digests within new =>
    refine ⟨away, seen, ?_, parted.elsewhere, parted.counts, ?_, ?_⟩
    · have middle : ((triage.jobs ++ [item]) ++ away).Perm ((triage.jobs ++ away) ++ [item]) := by
        rw [append_assoc, append_assoc]
        exact perm_append_comm.append_left _
      exact middle.trans (parted.perm.append_right [item])
    · intro other member
      obtain ⟨front, back, whole, fine⟩ := parted.turned other member
      exact ⟨front, back ++ [item], by rw [whole]; simp, fine⟩
    · intro front other back whole fine
      rcases eq_nil_or_concat back with rfl | ⟨before, last, rfl⟩
      · obtain ⟨rfl, single⟩ := append_inj' whole rfl
        rw [← singleton_inj.mp single] at fine
        rcases fine.2 with exceeded | twin
        · have inside := within fine.1
          omega
        · exact absurd ⟨fine.1, within fine.1, twin⟩ new
      · rw [concat_eq_append, ← cons_append, ← append_assoc] at whole
        obtain ⟨whole, -⟩ := append_inj' whole rfl
        exact parted.kept front other before whole fine
  | exceeds image exceeded =>
    refine ⟨away ++ [item], parted.turn seen rfl (writeMeta_elsewhere ..) ?_
      ⟨image, .inl exceeded⟩⟩
    rw [warn_tally, skipImage_tally]
  | repeats duplicate =>
    exact ⟨away ++ [item], parted.turn seen rfl (.refl _ _) (skipImage_tally ..)
      ⟨duplicate.1, .inr duplicate.2.2⟩⟩

theorem triageItems_parted (sync : Sync) (workspace : Workspace Content) (items : List Item) :
    ∃ away, Parted tools sync workspace items (triageItems tools sync workspace items) away := by
  unfold triageItems
  have empty : ∀ count, tally { candidates := count } = (0, 0) := fun _ => rfl
  have counts := empty items.length
  generalize ({ candidates := items.length } : Summary) = summary at counts ⊢
  induction items using List.reverseRecOn with
  | nil =>
    refine ⟨[], seen_nil .., .refl _, .refl _ _, counts, by simp, fun front item back whole => ?_⟩
    simp at whole
  | append_singleton items item ih =>
    rw [foldl_append, foldl_cons, foldl_nil]
    obtain ⟨away, parted⟩ := ih
    exact parted.step item

theorem TurnedAway.files {conversion : Conversion} {before : Workspace Content}
    (files : after.files = before.files) {front : List Item} {item : Item} :
    TurnedAway tools conversion after front item ↔
      TurnedAway tools conversion before front item := by
  simp only [TurnedAway, digestAt_files files]

/-- How the loops share out the candidates, group by group: the jobs with the fates that
their files have on their own, and the images that are turned away. -/
structure Shares (tools : Tools Content) (command : Command)
    (outcome : LocalPath → ConverterOutcome) (start : Workspace Content)
    (groups : List (List Item)) (counts : Nat × Nat) (images : RunImages)
    (jobs away : List Item) : Prop where
  perm : (jobs ++ away).Perm groups.flatten
  counts : counts = addFates (convertedAlone tools (command.sync []) outcome start)
    (skippedAlone tools (command.sync []) outcome start) jobs (0, away.length)
  accepted : images.accepted.Perm (jobs.filter fun item => isImagePath item.localPath)
  recognized : images.recognized.Perm (jobs.filter fun item =>
    isImagePath item.localPath && reachesConverter tools (command.sync []) start item.localPath)
  turned : ∀ item ∈ away, ∃ group ∈ groups, ∃ front back, group = front ++ item :: back ∧
    TurnedAway tools command.conversion start front item
  kept : ∀ group ∈ groups, ∀ front item back, group = front ++ item :: back →
    TurnedAway tools command.conversion start front item → item ∈ away

theorem Shares.nil (tools : Tools Content) (command : Command)
    (outcome : LocalPath → ConverterOutcome) (start : Workspace Content) :
    Shares tools command outcome start [] (0, 0) ⟨[], []⟩ [] [] :=
  ⟨.rfl, rfl, .rfl, .rfl, by simp, by simp⟩

theorem Shares.append {early late : List (List Item)} {before after : Nat × Nat}
    {first second : RunImages} {jobs more others : List Item}
    (one : Shares tools command outcome start early before first jobs away)
    (two : Shares tools command outcome start late after second more others) :
    Shares tools command outcome start (early ++ late) (before.1 + after.1, before.2 + after.2)
      ⟨first.accepted ++ second.accepted, first.recognized ++ second.recognized⟩
      (jobs ++ more) (away ++ others) := by
  refine ⟨?_, ?_, ?_, ?_, ?_, ?_⟩
  · rw [flatten_append]
    have regroup : ((jobs ++ more) ++ (away ++ others)).Perm ((jobs ++ away) ++ (more ++ others)) := by
      simp only [append_assoc]
      refine List.Perm.append_left _ ?_
      rw [← append_assoc, ← append_assoc]
      exact perm_append_comm.append_right _
    exact regroup.trans (one.perm.append two.perm)
  · rw [one.counts, two.counts]
    simp only [addFates, countP_append, length_append]
    refine Prod.ext ?_ ?_
    · dsimp only
      omega
    · dsimp only
      omega
  · rw [filter_append]
    exact one.accepted.append two.accepted
  · rw [filter_append]
    exact one.recognized.append two.recognized
  · intro item member
    rcases mem_append.mp member with inside | inside
    · obtain ⟨group, among, split⟩ := one.turned item inside
      exact ⟨group, mem_append_left _ among, split⟩
    · obtain ⟨group, among, split⟩ := two.turned item inside
      exact ⟨group, mem_append_right _ among, split⟩
  · intro group among front item back whole turned
    rcases mem_append.mp among with inside | inside
    · exact mem_append_left _ (one.kept group inside front item back whole turned)
    · exact mem_append_right _ (two.kept group inside front item back whole turned)

theorem nodup_map_filter (nodup : (items.map (·.localPath)).Nodup) (keep : Item → Bool) :
    ((items.filter keep).map (·.localPath)).Nodup :=
  nodup.sublist ((filter_sublist ..).map _)

theorem call_shares {batch : List Item} {order : Order} {incoming : Summary}
    (consistent : Consistent outcome order) (nodup : (batch.map (·.localPath)).Nodup)
    (files : workspace.files = start.files)
    (unmoved : ∀ item ∈ batch, Unmoved start workspace item.localPath)
    (returned : postProcessDocuments tools (command.sync batch) order workspace =
      some (after, incoming)) : Elsewhere (batch.map (·.localPath)) workspace after ∧ ∃ jobs away,
      Shares tools command outcome start [batch.filter (eligible command start)]
        (tally incoming) (callImages tools (command.sync batch) order workspace) jobs away := by
  have chosen := candidates_eligible command workspace batch
  rw [eligible_files files] at chosen
  unfold postProcessDocuments at returned
  unfold callImages
  split at returned
  · rename_i disabled
    cases returned
    rw [if_pos disabled]
    have none : batch.filter (eligible command start) = [] := by
      refine eq_nil_iff_forall_not_mem.mpr fun item member => ?_
      rw [← chosen] at member
      rw [convertible_enabled (candidate_convertible member)] at disabled
      cases disabled
    refine ⟨.refl _ _, [], [], ?_⟩
    rw [none]
    exact ⟨.rfl, rfl, .rfl, .rfl, by simp, by simp⟩
  · rename_i enabled
    rw [if_neg enabled, chosen]
    dsimp only at returned ⊢
    rw [chosen] at returned
    obtain ⟨away, parted⟩ : ∃ away, Parted tools (command.sync batch) workspace
        (batch.filter (eligible command start)) (triageItems tools (command.sync batch) workspace
          (batch.filter (eligible command start))) away := triageItems_parted ..
    generalize triageItems tools (command.sync batch) workspace
      (batch.filter (eligible command start)) = triage at parted returned ⊢
    split at returned
    · rename_i complete
      obtain ⟨⟨written, totals⟩, ran, same⟩ := Option.map_eq_some_iff.mp returned
      cases same
      have perm := isPerm_iff.mp complete
      have distinct : ((triage.jobs ++ away).map (·.localPath)).Nodup :=
        (parted.perm.map _).nodup_iff.mpr (nodup_map_filter nodup _)
      rw [map_append, nodup_append'] at distinct
      have inside : ∀ job ∈ order, job.1 ∈ batch := fun job member =>
        mem_of_mem_filter (parted.perm.mem_iff.mp (mem_append_left _
          (perm.mem_iff.mp (mem_map_of_mem member))))
      have jobs : (order.map (·.1.localPath)).Perm (triage.jobs.map (·.localPath)) := by
        have mapped := perm.map (·.localPath)
        rwa [map_map] at mapped
      obtain ⟨elsewhere, counts, called⟩ := runJobs_tally consistent
        (jobs.nodup_iff.mpr distinct.1)
        (fun job member => (unmoved job.1 (inside job member)).elsewhere parted.elsewhere
          fun listed => distinct.2.2 (jobs.mem_iff.mp (mem_map_of_mem member)) listed) ran
      refine ⟨parted.elsewhere.trans elsewhere ?_, triage.jobs, away, ?_, ?_, .rfl, ?_, ?_, ?_⟩
      · intro path listed
        rcases mem_append.mp listed with turned | ordered
        · obtain ⟨item, member, rfl⟩ := mem_map.mp turned
          exact mem_map_of_mem (mem_of_mem_filter (parted.perm.mem_iff.mp
            (mem_append_right _ member)))
        · obtain ⟨job, member, rfl⟩ := mem_map.mp ordered
          exact mem_map_of_mem (inside job member)
      · rw [flatten_singleton]
        exact parted.perm
      · rw [parted.counts] at counts
        exact counts.trans (addFates_perm perm)
      · rw [called]
        exact perm.filter _
      · intro item member
        obtain ⟨front, back, whole, turned⟩ := parted.turned item member
        exact ⟨_, mem_singleton_self _, front, back, whole, (TurnedAway.files files).mp turned⟩
      · intro group among front item back whole turned
        rw [mem_singleton.mp among] at whole
        exact parted.kept front item back whole ((TurnedAway.files files).mpr turned)
    · cases returned

end SourceLens.ManagedConversion
