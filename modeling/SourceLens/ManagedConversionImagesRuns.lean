import SourceLens.ManagedConversionImages

/-! When the images of a managed conversion do not depend on the batch size. -/

namespace SourceLens.ManagedConversion

open DocumentConvert List

variable {Content : Type} {tools : Tools Content} {command : Command}
  {outcome : LocalPath → ConverterOutcome} {listing : List LocalPath}

variable {sync : Sync}

theorem appendItems_tally (items : List Detail) (summary : Summary) :
    tally (items.foldl appendItem summary) = tally summary := by
  induction items generalizing summary with
  | nil => rfl
  | cons item rest ih =>
    rw [foldl_cons, ih]
    unfold appendItem
    split
    · rfl
    · rfl

theorem merge_tally (current incoming : Summary) :
    tally (mergeManagedConversionSummaries current incoming) =
      ((tally current).1 + (tally incoming).1, (tally current).2 + (tally incoming).2) := by
  rw [mergeManagedConversionSummaries, appendItems_tally]
  rfl

def groupsOf (command : Command) (workspace : Workspace Content) (batches : List (List Item)) :
    List (List Item) :=
  batches.map fun batch => batch.filter (eligible command workspace)

theorem runBatches_shares {batches : List (List Item)} {orders : List Order}
    {start workspace after : Workspace Content} {before summary : Summary}
    (consistent : ∀ order ∈ orders, Consistent outcome order)
    (nodup : (batches.flatten.map (·.localPath)).Nodup) (files : workspace.files = start.files)
    (unmoved : ∀ item ∈ batches.flatten, Unmoved start workspace item.localPath)
    (ran : runBatches tools command batches orders workspace before = some (after, summary)) :
    ∃ counts jobs away, Shares tools command outcome start (groupsOf command start batches) counts
        (runImages tools command batches orders workspace) jobs away ∧
      tally summary = ((tally before).1 + counts.1, (tally before).2 + counts.2) := by
  induction batches generalizing orders workspace before with
  | nil =>
    cases ran
    exact ⟨(0, 0), [], [], .nil .., rfl⟩
  | cons batch rest ih =>
    cases orders with
    | nil => cases ran
    | cons order orders =>
      rw [runBatches] at ran
      rw [flatten_cons, map_append, nodup_append'] at nodup
      cases returned : postProcessDocuments tools (command.sync batch) order workspace with
      | none =>
        rw [returned] at ran
        cases ran
      | some result =>
        obtain ⟨middle, incoming⟩ := result
        rw [returned] at ran
        obtain ⟨elsewhere, jobs, away, first⟩ :=
          call_shares (consistent order (mem_cons_self ..)) nodup.1 files
            (fun item member => unmoved item (by simp [member])) returned
        have others : ∀ item ∈ rest.flatten, Unmoved start middle item.localPath := by
          intro item member
          refine (unmoved item ?_).elsewhere elsewhere fun listed => ?_
          · rw [flatten_cons]
            exact mem_append_right _ member
          · exact nodup.2.2 listed (mem_map_of_mem member)
        obtain ⟨counts, more, turned, later, sums⟩ :=
          ih (fun other member => consistent other (mem_cons_of_mem _ member)) nodup.2.1
            (elsewhere.files.trans files) others ran
        simp only [runImages, returned]
        refine ⟨_, _, _, first.append later, ?_⟩
        rw [sums, merge_tally]
        simp only [Nat.add_assoc]

theorem handleJob_returns (state : Workspace Content × Summary) {job : Item × ConverterOutcome}
    (stays : job.2 ≠ .runCancelled) : ∃ next, handleJob tools sync state job = some next := by
  obtain ⟨workspace, summary⟩ := state
  obtain ⟨item, ended⟩ := job
  simp only [handleJob]
  cases reaches : reachesConverter tools sync workspace item.localPath with
  | false =>
    obtain ⟨reason, warning, fate⟩ := convertOne_stops reaches ended
    generalize convertOne tools sync workspace item.localPath ended = result at fate ⊢
    obtain ⟨written, _⟩ := result
    subst fate
    exact ⟨_, rfl⟩
  | true =>
    have fate := convertOne_reaches reaches ended
    generalize convertOne tools sync workspace item.localPath ended = result at fate ⊢
    obtain ⟨written, _⟩ := result
    subst fate
    cases ended with
    | runCancelled => exact absurd rfl stays
    | raises | skipped | text => exact ⟨_, rfl⟩

theorem runJobs_returns {order : Order} (stays : ∀ job ∈ order, job.2 ≠ .runCancelled)
    (state : Workspace Content × Summary) :
    ∃ next, order.foldlM (handleJob tools sync) state = some next := by
  induction order generalizing state with
  | nil => exact ⟨state, rfl⟩
  | cons job rest ih =>
    obtain ⟨middle, handled⟩ : ∃ middle, handleJob tools sync state job = some middle :=
      handleJob_returns state (stays job (mem_cons_self ..))
    obtain ⟨next, ran⟩ := ih (fun other member => stays other (mem_cons_of_mem _ member)) middle
    exact ⟨next, by simp [handled, ran]⟩

theorem postProcess_returns (stays : ∀ path, outcome path ≠ .runCancelled) (sync : Sync)
    (workspace : Workspace Content) :
    ∃ order result, Consistent outcome order ∧
      postProcessDocuments tools sync order workspace = some result := by
  let triage := triageItems tools sync workspace (conversionCandidates sync workspace)
  let order : Order := triage.jobs.map fun item => (item, outcome item.localPath)
  have consistent : Consistent outcome order := by
    intro job member
    obtain ⟨item, -, rfl⟩ := mem_map.mp member
    rfl
  have complete : (order.map Prod.fst).isPerm triage.jobs = true := by
    rw [map_map]
    exact isPerm_iff.mpr (by simp [Function.comp_def])
  obtain ⟨next, ran⟩ : ∃ next, order.foldlM (handleJob tools sync)
      (triage.workspace, triage.summary) = some next :=
    runJobs_returns (fun job member => consistent job member ▸ stays _) _
  cases enabled : conversionEnabled sync.conversion with
  | false => exact ⟨order, (workspace, {}), consistent, by simp [postProcessDocuments, enabled]⟩
  | true =>
    refine ⟨order, (next.1, { next.2 with warnings := next.2.warnings.eraseDups }), consistent, ?_⟩
    unfold postProcessDocuments
    rw [enabled]
    dsimp only
    rw [if_neg (by simp), if_pos complete, ran]
    rfl

theorem runBatches_returns (stays : ∀ path, outcome path ≠ .runCancelled)
    (batches : List (List Item)) (workspace : Workspace Content) (summary : Summary) :
    ∃ orders result, (∀ order ∈ orders, Consistent outcome order) ∧
      runBatches tools command batches orders workspace summary = some result := by
  induction batches generalizing workspace summary with
  | nil => exact ⟨[], (workspace, summary), by simp, rfl⟩
  | cons batch rest ih =>
    obtain ⟨order, ⟨middle, incoming⟩, consistent, returned⟩ : ∃ order result,
        Consistent outcome order ∧
          postProcessDocuments tools (command.sync batch) order workspace = some result :=
      postProcess_returns stays (command.sync batch) workspace
    obtain ⟨orders, result, others, ran⟩ :=
      ih middle (mergeManagedConversionSummaries summary incoming)
    refine ⟨order :: orders, result, forall_mem_cons.mpr ⟨consistent, others⟩, ?_⟩
    rw [runBatches, returned]
    exact ran

theorem batchesFrom_length (conversion : Conversion) {size : Nat} (items batch : List Item)
    (room : batch.length < size) :
    ∀ group ∈ batchesFrom conversion size items batch, group.length ≤ size := by
  induction items generalizing batch with
  | nil =>
    intro group member
    rw [batchesFrom] at member
    split at member
    · cases member
    · rw [mem_singleton.mp member]
      omega
  | cons item rest ih =>
    intro group member
    have grown : (batch ++ [item]).length = batch.length + 1 := by simp
    rw [batchesFrom] at member
    split at member
    · split at member
      · rename_i short
        exact ih (batch ++ [item]) short group member
      · rcases mem_cons.mp member with rfl | later
        · omega
        · exact ih [] (by simp; omega) group later
    · exact ih batch room group member

theorem batchLimit_pos (size : Option Int) : 0 < batchLimit size := by
  unfold batchLimit
  dsimp only
  omega

def batchesOf (command : Command) (listing : List LocalPath) (size : Option Int) :
    List (List Item) :=
  batchesFrom command.conversion (batchLimit size) (managedItems listing) []

/-- A run with the batch size whose converters depend on the files only, and its summary. -/
def Returns (tools : Tools Content) (command : Command) (outcome : LocalPath → ConverterOutcome)
    (listing : List LocalPath) (workspace : Workspace Content) (size : Option Int)
    (orders : List Order) (result : ManagedSummary) : Prop :=
  (∀ order ∈ orders, Consistent outcome order) ∧ ∃ after,
    convertManagedWorkspace tools { command with batchSize := size } (some listing) orders
      workspace = .ok (after, result)

def imagesOf (tools : Tools Content) (command : Command) (listing : List LocalPath)
    (workspace : Workspace Content) (size : Option Int) (orders : List Order) : RunImages :=
  runImages tools { command with batchSize := size } (batchesOf command listing size) orders
    (startedWorkspace tools command listing workspace)

def maxImages (command : Command) : Int := orDefault command.conversion.maxImages defaultMaxImages

/-- With every batch size the images are within the limit, those with the same bytes are
recognized once, and the counts are the same. -/
structure Uniform (tools : Tools Content) (command : Command)
    (outcome : LocalPath → ConverterOutcome) (listing : List LocalPath)
    (workspace : Workspace Content) : Prop where
  limit : ∀ size orders result, Returns tools command outcome listing workspace size orders result →
    (imagesOf tools command listing workspace size orders).accepted.length ≤
      (maxImages command).toNat
  once : ∀ size orders result, Returns tools command outcome listing workspace size orders result →
    ((imagesOf tools command listing workspace size orders).recognized.map fun item =>
      digestAt tools workspace item.localPath).Nodup
  counts : ∀ one oneOrders first other otherOrders second,
    Returns tools command outcome listing workspace one oneOrders first →
    Returns tools command outcome listing workspace other otherOrders second →
      first.converted = second.converted ∧ first.skipped = second.skipped

def ownImages (command : Command) (workspace : Workspace Content) (listing : List LocalPath) :
    List Item :=
  (managedItems listing).filter fun item =>
    eligible command workspace item && isImagePath item.localPath

/-- All the images are within the limit, those that come to the converter differ in their
bytes, and one that has the bytes of another before it in some batch is skipped anyway. -/
structure Indifferent (tools : Tools Content) (command : Command)
    (outcome : LocalPath → ConverterOutcome) (listing : List LocalPath)
    (workspace : Workspace Content) : Prop where
  few : (ownImages command workspace listing).length ≤ (maxImages command).toNat
  distinct : (((ownImages command workspace listing).filter fun item =>
    reachesConverter tools (command.sync []) (startedWorkspace tools command listing workspace)
      item.localPath).map fun item => digestAt tools workspace item.localPath).Nodup
  twins : ∀ size, ∀ batch ∈ batchesOf command listing size, ∀ front item back,
    batch.filter (eligible command workspace) = front ++ item :: back →
    isImagePath item.localPath = true →
    (∃ earlier ∈ front, isImagePath earlier.localPath = true ∧
      digestAt tools workspace earlier.localPath = digestAt tools workspace item.localPath) →
    skippedAlone tools (command.sync []) outcome
      (startedWorkspace tools command listing workspace) item.localPath = true

theorem groupsOf_flatten (command : Command) (workspace : Workspace Content)
    (listing : List LocalPath) (size : Option Int) :
    (groupsOf command workspace (batchesOf command listing size)).flatten =
      (managedItems listing).filter (eligible command workspace) := by
  rw [groupsOf, ← filter_flatten, batchesOf, batchesFrom_flatten, nil_append,
    filter_filter]
  refine filter_congr fun item _ => ?_
  cases chosen : eligible command workspace item with
  | false => rfl
  | true =>
    have known : isConvertible item.localPath command.conversion = true := by
      simp only [eligible, convertible, Bool.and_eq_true] at chosen
      exact chosen.2
    rw [known]
    rfl

theorem finish_counts (command : Command) (listing : List LocalPath) (summary : Summary) :
    ((finish command listing summary).converted, (finish command listing summary).skipped) =
      tally summary := by
  unfold finish warnPartial
  dsimp only
  split
  · rfl
  · rfl

theorem returns_shares {workspace : Workspace Content} {size : Option Int} {orders : List Order}
    {result : ManagedSummary} (nodup : listing.Nodup)
    (returns : Returns tools command outcome listing workspace size orders result) :
    ∃ jobs away, Shares tools command outcome (startedWorkspace tools command listing workspace)
      (groupsOf command workspace (batchesOf command listing size))
      (result.converted, result.skipped) (imagesOf tools command listing workspace size orders)
      jobs away := by
  obtain ⟨consistent, after, returned⟩ := returns
  obtain ⟨-, summary, rfl, ran⟩ := convertManagedWorkspace_ok.mp returned
  have files : (startedWorkspace tools command listing workspace).files = workspace.files :=
    startedWorkspace_files ..
  have paths : ((batchesOf command listing size).flatten.map (·.localPath)).Nodup := by
    rw [batchesOf, batchesFrom_flatten, nil_append]
    refine nodup_map_filter ?_ _
    rw [managedItems, map_map]
    exact (map_id listing).symm ▸ nodup
  obtain ⟨counts, jobs, away, shares, sums⟩ :=
    runBatches_shares consistent paths rfl (fun _ _ => ⟨rfl, rfl, rfl⟩) ran
  have total : ((finish command listing summary).converted,
      (finish command listing summary).skipped) = counts := by
    rw [finish_counts, sums]
    exact Prod.ext (Nat.zero_add _) (Nat.zero_add _)
  have groups : groupsOf command (startedWorkspace tools command listing workspace)
      (batchesOf command listing size) =
        groupsOf command workspace (batchesOf command listing size) := by
    rw [groupsOf, eligible_files files, groupsOf]
  have whole : Shares tools command outcome (startedWorkspace tools command listing workspace)
      (groupsOf command (startedWorkspace tools command listing workspace)
        (batchesOf command listing size)) counts
      (imagesOf tools command listing workspace size orders) jobs away :=
    ⟨shares.perm, shares.counts, shares.accepted, shares.recognized, shares.turned, shares.kept⟩
  rw [groups, ← total] at whole
  exact ⟨jobs, away, whole⟩

theorem returns_any (stays : ∀ path, outcome path ≠ .runCancelled) {workspace : Workspace Content}
    (admits : Admits tools command listing workspace) (size : Option Int) :
    ∃ orders result, Returns tools command outcome listing workspace size orders result := by
  obtain ⟨orders, ⟨after, summary⟩, consistent, ran⟩ : ∃ orders result,
      (∀ order ∈ orders, Consistent outcome order) ∧
        runBatches tools { command with batchSize := size } (batchesOf command listing size) orders
          (startedWorkspace tools command listing workspace) {} = some result :=
    runBatches_returns stays ..
  exact ⟨orders, _, consistent, after, convertManagedWorkspace_ok.mpr
    ⟨⟨admits.typed, admits.files, admits.bytes⟩, summary, rfl, ran⟩⟩

variable {workspace start : Workspace Content} {groups : List (List Item)} {counts : Nat × Nat}
  {images : RunImages} {jobs away : List Item}

theorem Shares.barred (shares : Shares tools command outcome start groups counts images jobs away)
    (barred : maxImages command < 1) (nodup : groups.flatten.Nodup) :
    (∀ item ∈ jobs, isImagePath item.localPath = false) ∧
      ∀ item ∈ away, isImagePath item.localPath = true := by
  constructor
  · intro item member
    by_contra other
    have image : isImagePath item.localPath = true := by simpa using other
    have candidate : item ∈ groups.flatten :=
      shares.perm.mem_iff.mp (mem_append_left _ member)
    obtain ⟨group, among, inside⟩ := mem_flatten.mp candidate
    obtain ⟨front, back, whole⟩ := append_of_mem inside
    have exceeded : orDefault command.conversion.maxImages defaultMaxImages <
        (imageCount front : Int) + 1 := by
      have bound : orDefault command.conversion.maxImages defaultMaxImages < 1 := barred
      omega
    have turned := shares.kept group among front item back whole ⟨image, .inl exceeded⟩
    have distinct := shares.perm.nodup_iff.mpr nodup
    exact (nodup_append'.mp distinct).2.2 member turned
  · intro item member
    obtain ⟨_, _, _, _, _, turned⟩ := shares.turned item member
    exact turned.1

theorem Shares.apart (shares : Shares tools command outcome start groups counts images jobs away)
    (room : 1 ≤ maxImages command) (single : ∀ group ∈ groups, group.length ≤ 1) : away = [] := by
  refine eq_nil_iff_forall_not_mem.mpr fun item member => ?_
  obtain ⟨group, among, front, back, whole, turned⟩ := shares.turned item member
  have length := single group among
  rw [whole, length_append, length_cons] at length
  have none : front = [] := length_eq_zero_iff.mp (by omega)
  subst none
  rcases turned.2 with exceeded | ⟨earlier, member, -⟩
  · have bound : 1 ≤ orDefault command.conversion.maxImages defaultMaxImages := room
    simp only [imageCount, countP_nil] at exceeded
    omega
  · cases member

theorem Shares.repeated (shares : Shares tools command outcome start groups counts images jobs away)
    (few : imageCount groups.flatten ≤ maxImages command) :
    ∀ item ∈ away, ∃ group ∈ groups, ∃ front back, group = front ++ item :: back ∧
      isImagePath item.localPath = true ∧ ∃ earlier ∈ front,
        isImagePath earlier.localPath = true ∧
        digestAt tools start earlier.localPath = digestAt tools start item.localPath := by
  intro item member
  obtain ⟨group, among, front, back, whole, turned⟩ := shares.turned item member
  refine ⟨group, among, front, back, whole, turned.1, turned.2.resolve_left fun exceeded => ?_⟩
  have bound : (imageCount groups.flatten : Int) ≤
      orDefault command.conversion.maxImages defaultMaxImages := few
  have part : imageCount group ≤ imageCount groups.flatten :=
    (sublist_flatten_of_mem among).countP_le
  have own : imageCount front + 1 ≤ imageCount group := by
    rw [whole, imageCount, imageCount, countP_append, countP_cons, if_pos turned.1]
    omega
  omega

theorem Shares.counts_barred
    (shares : Shares tools command outcome start groups counts images jobs away)
    (barred : maxImages command < 1) (nodup : groups.flatten.Nodup) :
    counts = addFates (convertedAlone tools (command.sync []) outcome start)
      (skippedAlone tools (command.sync []) outcome start)
      (groups.flatten.filter fun item => !isImagePath item.localPath)
      (0, imageCount groups.flatten) := by
  obtain ⟨others, turned⟩ := shares.barred barred nodup
  have kept : jobs.Perm (groups.flatten.filter fun item => !isImagePath item.localPath) := by
    have parts := shares.perm.filter fun item => !isImagePath item.localPath
    rw [filter_append, filter_eq_self.mpr fun item member => by simp [others item member],
      filter_eq_nil_iff.mpr fun item member => by simp [turned item member],
      append_nil] at parts
    exact parts
  have count : imageCount groups.flatten = away.length := by
    rw [imageCount, ← shares.perm.countP_eq, countP_append,
      countP_eq_zero.mpr fun item member => by simp [others item member],
      countP_eq_length.mpr turned, Nat.zero_add]
  rw [shares.counts, addFates_perm kept, count]

theorem Shares.counts_alone
    (shares : Shares tools command outcome start groups counts images jobs away) :
    counts.2 = groups.flatten.countP (fun item =>
        skippedAlone tools (command.sync []) outcome start item.localPath) ↔
      ∀ item ∈ away, skippedAlone tools (command.sync []) outcome start item.localPath = true := by
  rw [← countP_eq_length, ← shares.perm.countP_eq, countP_append, shares.counts]
  simp only [addFates]
  omega

theorem skippedAlone_excludes {path : LocalPath}
    (skipped : skippedAlone tools sync outcome start path = true) :
    convertedAlone tools sync outcome start path = false := by
  revert skipped
  unfold skippedAlone convertedAlone
  cases reachesConverter tools sync start path with
  | false => exact fun _ => rfl
  | true =>
    cases outcome path with
    | text => exact fun skipped => absurd skipped (by simp)
    | skipped | raises | runCancelled => exact fun _ => rfl

theorem Shares.converted_alone
    (shares : Shares tools command outcome start groups counts images jobs away)
    (skipped : ∀ item ∈ away,
      skippedAlone tools (command.sync []) outcome start item.localPath = true) :
    counts.1 = groups.flatten.countP fun item =>
      convertedAlone tools (command.sync []) outcome start item.localPath := by
  have none : away.countP (fun item =>
      convertedAlone tools (command.sync []) outcome start item.localPath) = 0 :=
    countP_eq_zero.mpr fun item member => by
      simp [skippedAlone_excludes (skipped item member)]
  rw [← shares.perm.countP_eq, countP_append, none, shares.counts]
  exact Nat.zero_add _

theorem managedItems_nodup (nodup : listing.Nodup) : (managedItems listing).Nodup := by
  refine nodup.map fun one other same => ?_
  exact congrArg Item.localPath same

theorem ownImages_eq (command : Command) (workspace : Workspace Content)
    (listing : List LocalPath) :
    ownImages command workspace listing =
      ((managedItems listing).filter (eligible command workspace)).filter fun item =>
        isImagePath item.localPath := by
  rw [ownImages, filter_filter]
  exact filter_congr fun item _ => Bool.and_comm ..

theorem reachedImages_eq (command : Command) (workspace : Workspace Content)
    (listing : List LocalPath) (reaches : LocalPath → Bool) :
    ((ownImages command workspace listing).filter fun item => reaches item.localPath) =
      ((managedItems listing).filter (eligible command workspace)).filter fun item =>
        isImagePath item.localPath && reaches item.localPath := by
  rw [ownImages_eq, filter_filter]
  exact filter_congr fun item _ => Bool.and_comm ..

theorem single_groups (command : Command) (workspace : Workspace Content)
    (listing : List LocalPath) :
    ∀ group ∈ groupsOf command workspace (batchesOf command listing (some 1)),
      group.length ≤ 1 := by
  intro group member
  obtain ⟨batch, among, rfl⟩ := mem_map.mp member
  have one : batchLimit (some 1) = 1 := by decide
  have length := batchesFrom_length command.conversion (managedItems listing) []
    (batchLimit_pos (some 1)) batch among
  have filtered := length_filter_le (eligible command workspace) batch
  omega

theorem uniform_of_barred (nodup : listing.Nodup) (barred : maxImages command < 1) :
    Uniform tools command outcome listing workspace := by
  have distinct : ∀ size,
      (groupsOf command workspace (batchesOf command listing size)).flatten.Nodup := by
    intro size
    rw [groupsOf_flatten]
    exact (managedItems_nodup nodup).filter _
  refine ⟨fun size orders result returns => ?_, fun size orders result returns => ?_,
    fun one oneOrders first other otherOrders second returns returns' => ?_⟩
  · obtain ⟨jobs, away, shares⟩ := returns_shares nodup returns
    obtain ⟨others, -⟩ := shares.barred barred (distinct size)
    rw [shares.accepted.length_eq, filter_eq_nil_iff.mpr fun item member => by
      simp [others item member]]
    exact Nat.zero_le _
  · obtain ⟨jobs, away, shares⟩ := returns_shares nodup returns
    obtain ⟨others, -⟩ := shares.barred barred (distinct size)
    have none := shares.recognized
    rw [filter_eq_nil_iff.mpr fun item member => by simp [others item member]] at none
    rw [none.eq_nil]
    exact nodup_nil
  · obtain ⟨jobs, away, shares⟩ := returns_shares nodup returns
    obtain ⟨jobs', away', shares'⟩ := returns_shares nodup returns'
    have counts := shares.counts_barred barred (distinct one)
    have counts' := shares'.counts_barred barred (distinct other)
    rw [groupsOf_flatten] at counts counts'
    exact Prod.mk.inj (counts.trans counts'.symm)

theorem uniform_of_indifferent (nodup : listing.Nodup) (room : 1 ≤ maxImages command)
    (indifferent : Indifferent tools command outcome listing workspace) :
    Uniform tools command outcome listing workspace := by
  have files : (startedWorkspace tools command listing workspace).files = workspace.files :=
    startedWorkspace_files ..
  have few := indifferent.few
  rw [ownImages_eq] at few
  have distinct := indifferent.distinct
  rw [reachedImages_eq] at distinct
  refine ⟨fun size orders result returns => ?_, fun size orders result returns => ?_,
    fun one oneOrders first other otherOrders second returns returns' => ?_⟩
  · obtain ⟨jobs, away, shares⟩ := returns_shares nodup returns
    have perm := shares.perm.filter fun item => isImagePath item.localPath
    rw [groupsOf_flatten, filter_append] at perm
    have length := perm.length_eq
    rw [length_append] at length
    rw [shares.accepted.length_eq]
    omega
  · obtain ⟨jobs, away, shares⟩ := returns_shares nodup returns
    have perm := shares.perm.filter fun item => isImagePath item.localPath &&
      reachesConverter tools (command.sync []) (startedWorkspace tools command listing workspace)
        item.localPath
    rw [groupsOf_flatten, filter_append] at perm
    have whole := (perm.map fun item => digestAt tools workspace item.localPath).nodup_iff.mpr
      distinct
    rw [map_append] at whole
    exact ((shares.recognized.map _).nodup_iff.mpr whole.of_append_left)
  · have alone : ∀ {size orders} {result : ManagedSummary},
        Returns tools command outcome listing workspace size orders result →
        result.converted = ((managedItems listing).filter (eligible command workspace)).countP
            (fun item => convertedAlone tools (command.sync []) outcome
              (startedWorkspace tools command listing workspace) item.localPath) ∧
          result.skipped = ((managedItems listing).filter (eligible command workspace)).countP
            (fun item => skippedAlone tools (command.sync []) outcome
              (startedWorkspace tools command listing workspace) item.localPath) := by
      intro size orders result returns
      obtain ⟨jobs, away, shares⟩ := returns_shares nodup returns
      have bound : imageCount (groupsOf command workspace (batchesOf command listing size)).flatten ≤
          maxImages command := by
        rw [groupsOf_flatten, imageCount, countP_eq_length_filter]
        omega
      have skipped : ∀ item ∈ away, skippedAlone tools (command.sync []) outcome
          (startedWorkspace tools command listing workspace) item.localPath = true := by
        intro item member
        obtain ⟨group, among, front, back, whole, image, twin⟩ := shares.repeated bound item member
        obtain ⟨batch, listed, rfl⟩ := mem_map.mp among
        simp only [digestAt_files files] at twin
        exact indifferent.twins size batch listed front item back whole image twin
      rw [← groupsOf_flatten command workspace listing size]
      exact ⟨shares.converted_alone skipped, shares.counts_alone.mpr skipped⟩
    have first := alone returns
    have second := alone returns'
    exact ⟨first.1.trans second.1.symm, first.2.trans second.2.symm⟩

theorem indifferent_of_uniform (nodup : listing.Nodup)
    (stays : ∀ path, outcome path ≠ .runCancelled)
    (admits : Admits tools command listing workspace) (room : 1 ≤ maxImages command)
    (uniform : Uniform tools command outcome listing workspace) :
    Indifferent tools command outcome listing workspace := by
  have files : (startedWorkspace tools command listing workspace).files = workspace.files :=
    startedWorkspace_files ..
  obtain ⟨orders, single, returns⟩ := returns_any stays admits (some 1)
  obtain ⟨jobs, away, shares⟩ := returns_shares nodup returns
  obtain rfl := shares.apart room (single_groups command workspace listing)
  have all := shares.perm
  rw [append_nil, groupsOf_flatten] at all
  have limit := uniform.limit _ _ _ returns
  have once := uniform.once _ _ _ returns
  refine ⟨?_, ?_, ?_⟩
  · rw [ownImages_eq, ← (all.filter _).length_eq, ← shares.accepted.length_eq]
    exact limit
  · rw [reachedImages_eq]
    have recognized := shares.recognized.trans (all.filter _)
    exact (recognized.map _).nodup_iff.mp once
  · intro size batch among front item back whole image twin
    obtain ⟨orders', result, returns'⟩ := returns_any stays admits size
    obtain ⟨jobs', away', shares'⟩ := returns_shares nodup returns'
    have turned : TurnedAway tools command.conversion
        (startedWorkspace tools command listing workspace) front item :=
      (TurnedAway.files files).mpr ⟨image, .inr twin⟩
    have member := shares'.kept _ (mem_map_of_mem among) front item back whole turned
    have same := (uniform.counts _ _ _ _ _ _ returns returns').2
    have own := shares.counts_alone.mpr (by simp)
    rw [groupsOf_flatten, ← groupsOf_flatten command workspace listing size] at own
    exact shares'.counts_alone.mp (same.symm.trans own) item member

/-- The images of a policy are handled alike with all batch sizes if and only if no image
is let in at all, or all images are within the limit, those that come to the converter
differ in their bytes, and no image that would not be skipped on its own ever has the bytes
of one before it in its batch. -/
theorem uniform_iff (nodup : listing.Nodup) (stays : ∀ path, outcome path ≠ .runCancelled)
    (admits : Admits tools command listing workspace) :
    Uniform tools command outcome listing workspace ↔
      maxImages command < 1 ∨ Indifferent tools command outcome listing workspace := by
  by_cases barred : maxImages command < 1
  · exact ⟨fun _ => .inl barred, fun _ => uniform_of_barred nodup barred⟩
  · have room : 1 ≤ maxImages command := not_lt.mp barred
    constructor
    · exact fun uniform => .inr (indifferent_of_uniform nodup stays admits room uniform)
    · intro either
      exact uniform_of_indifferent nodup room (either.resolve_left barred)

def imagesCommand (limit : Int) : Command where
  sourceType := "upload"
  conversion := { image := true, maxImages := limit, visionModelRef := "vision" }
  batchSize := none
  maxFiles := none
  maxBytes := none
  force := false
  visionConfigured := true
  foreign := fun _ => false

def recognizes : LocalPath → ConverterOutcome := fun _ => .text ""

def imageListing : List LocalPath := [firstImage, secondImage]

theorem uniform_iff_limits :
    Uniform textTools (imagesCommand (-1)) recognizes imageListing fullWorkspace ∧
      ¬ Uniform textTools (imagesCommand 1) recognizes imageListing fullWorkspace := by
  have stays : ∀ path, recognizes path ≠ .runCancelled := nofun
  constructor
  · exact (uniform_iff (by decide) stays ⟨by decide, by decide, by decide⟩).mpr (.inl (by decide))
  · rw [uniform_iff (by decide) stays ⟨by decide, by decide, by decide⟩]
    rintro (barred | indifferent)
    · revert barred
      decide
    · have few := indifferent.few
      revert few
      decide

def imageOrders : List Order :=
  [[({ localPath := firstImage, status := "cataloged" }, .text "")],
    [({ localPath := secondImage, status := "cataloged" }, .text "")]]

/-- With batches of one file, each of two images is the first one of its call. -/
theorem limit_per_batch :
    ¬ ∀ (command : Command) (outcome : LocalPath → ConverterOutcome) (listing : List LocalPath)
        (workspace : Workspace String), listing.Nodup → (∀ path, outcome path ≠ .runCancelled) →
      Uniform textTools command outcome listing workspace := by
  intro always
  have uniform := always (imagesCommand 1) recognizes imageListing fullWorkspace (by decide)
    nofun
  obtain ⟨⟨after, result⟩, returned⟩ : ∃ output,
      convertManagedWorkspace textTools { imagesCommand 1 with batchSize := some 1 }
        (some imageListing) imageOrders fullWorkspace = .ok output := ⟨_, rfl⟩
  have consistent : ∀ order ∈ imageOrders, Consistent recognizes order := by
    intro order member job among
    simp only [imageOrders, mem_cons, not_mem_nil, or_false] at member
    rcases member with rfl | rfl
    · rw [mem_singleton.mp among]
      rfl
    · rw [mem_singleton.mp among]
      rfl
  have limit := uniform.limit (some 1) imageOrders result ⟨consistent, after, returned⟩
  revert limit
  decide

end SourceLens.ManagedConversion
