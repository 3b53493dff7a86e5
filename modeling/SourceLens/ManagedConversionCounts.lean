import SourceLens.DocumentConvertRuns
import SourceLens.ManagedConversion

/-! What the summary of a managed conversion counts, whatever the batches. -/

namespace SourceLens.ManagedConversion

open DocumentConvert List

variable {Content : Type} {tools : Tools Content} {command : Command}

variable {named : LocalPath → Prop} {workspace after : Workspace Content} {item : Item}
  {sync : Sync} {summary before : Summary} {listing : List LocalPath} {items : List Item}
  {orders : List Order}

def settled (summary : Summary) : Nat := summary.converted + summary.skipped + summary.failed

def listed (summary : Summary) : Nat := summary.items.length + summary.itemsTruncated

theorem appendConversionDetail_settled (summary : Summary) (item : Item) (status reason : String) :
    settled (appendConversionDetail summary item status reason) = settled summary := by
  unfold appendConversionDetail
  split <;> rfl

theorem appendConversionDetail_listed (summary : Summary) (item : Item) (status reason : String) :
    listed (appendConversionDetail summary item status reason) = listed summary + 1 := by
  unfold appendConversionDetail
  split
  · rfl
  · simp only [listed, length_append, length_singleton]
    omega

theorem warn_settled (summary : Summary) (warning : String) :
    settled (warn summary warning) = settled summary := by
  unfold warn
  split <;> rfl

theorem warn_listed (summary : Summary) (warning : String) :
    listed (warn summary warning) = listed summary := by
  unfold warn
  split <;> rfl

theorem appendConversionDetail_names {status reason : String} {detail : Detail}
    (member : detail ∈ (appendConversionDetail summary item status reason).items) :
    detail ∈ summary.items ∨ detail.path = item.localPath := by
  unfold appendConversionDetail at member
  split at member
  · exact .inl member
  · rcases mem_append.mp member with before | last
    · exact .inl before
    · rw [mem_singleton.mp last]
      exact .inr rfl

theorem warn_items (summary : Summary) (warning : String) :
    (warn summary warning).items = summary.items := by
  unfold warn
  split <;> rfl

/-- A step of a call settles and lists that many more files, all of them `named`. -/
structure Advances (named : LocalPath → Prop) (before after : Summary) (count : Nat) : Prop where
  settles : settled after = settled before + count
  lists : listed after = listed before + count
  names : ∀ detail ∈ after.items, detail ∈ before.items ∨ named detail.path

theorem Advances.trans {first second third : Summary} {early late : Nat}
    (one : Advances named first second early) (two : Advances named second third late) :
    Advances named first third (early + late) where
  settles := by rw [two.settles, one.settles, Nat.add_assoc]
  lists := by rw [two.lists, one.lists, Nat.add_assoc]
  names detail member := by
    rcases two.names detail member with before | new
    · exact one.names detail before
    · exact .inr new

theorem Advances.detail {counted : Summary} (settles : settled counted = settled before + 1)
    (lists : listed counted = listed before) (items : counted.items = before.items)
    (known : named item.localPath) (status reason : String) :
    Advances named before (appendConversionDetail counted item status reason) 1 where
  settles := (appendConversionDetail_settled ..).trans settles
  lists := (appendConversionDetail_listed ..).trans (congrArg (· + 1) lists)
  names detail member := by
    rcases appendConversionDetail_names member with earlier | same
    · exact .inl (items ▸ earlier)
    · exact .inr (same ▸ known)

theorem Advances.warn {after : Summary} {count : Nat} (advances : Advances named before after count)
    (warning : String) : Advances named before (DocumentConvert.warn after warning) count where
  settles := (warn_settled ..).trans advances.settles
  lists := (warn_listed ..).trans advances.lists
  names := by
    rw [warn_items]
    exact advances.names

theorem skipImage_advances (summary : Summary) (known : named item.localPath) (reason : String) :
    Advances named summary (skipImage summary item reason) 1 := by
  unfold skipImage
  refine .detail ?_ (by rfl) (by rfl) known ..
  simp only [settled]
  omega

theorem exit_advances {triage next : Triage Content} (known : named item.localPath)
    (left : Exit tools sync workspace items item triage next) :
    next.jobs = triage.jobs ∧ Advances named triage.summary next.summary 1 ∨
      next.jobs = triage.jobs ++ [item] ∧ next.summary = triage.summary := by
  cases left with
  | job => exact .inr ⟨rfl, rfl⟩
  | exceeds =>
    have skipped := skipImage_advances triage.summary known "CONVERSION_MAX_IMAGES_EXCEEDED"
    exact .inl ⟨rfl, skipped.warn "CONVERSION_MAX_IMAGES_EXCEEDED"⟩
  | repeats =>
    have skipped := skipImage_advances triage.summary known "IMAGE_DUPLICATE"
    exact .inl ⟨rfl, skipped.settles, skipped.lists, skipped.names⟩

structure Triaged (tools : Tools Content) (sync : Sync) (named : LocalPath → Prop)
    (workspace : Workspace Content) (items : List Item) (triage : Triage Content) : Prop where
  seen : Seen tools sync workspace items triage
  jobs : ∀ job ∈ triage.jobs, job ∈ items
  settles : settled triage.summary + triage.jobs.length = items.length
  lists : listed triage.summary + triage.jobs.length = items.length
  names : ∀ detail ∈ triage.summary.items, named detail.path

theorem Triaged.step {triage : Triage Content}
    (triaged : Triaged tools sync named workspace items triage) (known : named item.localPath) :
    Triaged tools sync named workspace (items ++ [item]) (triageItem tools sync triage item) := by
  obtain ⟨left, seen⟩ := triaged.seen.step item
  have settles := triaged.settles
  have lists := triaged.lists
  rcases exit_advances known left with ⟨jobs, advances⟩ | ⟨jobs, summary⟩
  · refine ⟨seen, ?_, ?_, ?_, ?_⟩
    · intro job member
      rw [jobs] at member
      exact mem_append_left _ (triaged.jobs job member)
    · rw [jobs, advances.settles, length_append, length_singleton]
      omega
    · rw [jobs, advances.lists, length_append, length_singleton]
      omega
    · intro detail member
      rcases advances.names detail member with before | new
      · exact triaged.names detail before
      · exact new
  · refine ⟨seen, ?_, ?_, ?_, ?_⟩
    · intro job member
      rw [jobs] at member
      rcases mem_append.mp member with before | last
      · exact mem_append_left _ (triaged.jobs job before)
      · exact mem_append_right _ last
    · rw [jobs, summary, length_append, length_append, length_singleton]
      omega
    · rw [jobs, summary, length_append, length_append, length_singleton]
      omega
    · rw [summary]
      exact triaged.names

theorem triageItems_triaged (sync : Sync) (workspace : Workspace Content) (items : List Item)
    (known : ∀ item ∈ items, named item.localPath) :
    Triaged tools sync named workspace items (triageItems tools sync workspace items) := by
  unfold triageItems
  have empty : ∀ count, settled ({ candidates := count } : Summary) = 0 ∧
      listed ({ candidates := count } : Summary) = 0 ∧
      ∀ detail ∈ ({ candidates := count } : Summary).items, named detail.path :=
    fun _ => ⟨rfl, rfl, by simp⟩
  obtain ⟨settles, lists, names⟩ := empty items.length
  generalize ({ candidates := items.length } : Summary) = summary at settles lists names ⊢
  induction items using List.reverseRecOn with
  | nil => exact ⟨seen_nil .., fun _ member => member, settles, lists, names⟩
  | append_singleton items item ih =>
    rw [foldl_append, foldl_cons, foldl_nil]
    have before := ih fun other member => known other (mem_append_left _ member)
    exact before.step (known item (mem_append_right _ (mem_singleton_self item)))

theorem handleJob_advances {state next : Workspace Content × Summary}
    {job : Item × ConverterOutcome} (known : named job.1.localPath)
    (handled : handleJob tools sync state job = some next) :
    next.1.files = state.1.files ∧ Advances named state.2 next.2 1 := by
  refine ⟨(handleJob_touches handled).files, ?_⟩
  obtain ⟨workspace, summary⟩ := state
  obtain ⟨item, outcome⟩ := job
  simp only [handleJob] at handled
  split at handled
  · cases handled
    dsimp only
    refine .detail ?_ (by exact warn_listed ..) (by exact warn_items ..) known ..
    rw [warn_settled]
    simp only [settled]
    omega
  · cases handled
    dsimp only
    refine (Advances.detail ?_ (by rfl) (by rfl) known ..).warn _
    simp only [settled]
    omega
  · cases handled
    dsimp only
    refine .detail ?_ (by exact warn_listed ..) (by exact warn_items ..) known ..
    rw [warn_settled]
    simp only [settled]
    omega
  · cases handled

theorem runJobs_advances (named : LocalPath → Prop) {order : Order}
    {state next : Workspace Content × Summary} (known : ∀ job ∈ order, named job.1.localPath)
    (ran : order.foldlM (handleJob tools sync) state = some next) :
    next.1.files = state.1.files ∧ Advances named state.2 next.2 order.length := by
  induction order generalizing state with
  | nil =>
    cases ran
    exact ⟨rfl, rfl, rfl, fun _ => .inl⟩
  | cons job rest ih =>
    simp only [foldlM_cons, Option.bind_eq_bind, Option.bind_eq_some_iff] at ran
    obtain ⟨middle, handled, later⟩ := ran
    obtain ⟨files, advances⟩ := handleJob_advances (known job (mem_cons_self ..)) handled
    obtain ⟨filesLater, more⟩ :=
      ih (fun other member => known other (mem_cons_of_mem _ member)) later
    refine ⟨filesLater.trans files, ?_⟩
    rw [length_cons, Nat.add_comm]
    exact advances.trans more

structure Counted (sync : Sync) (workspace after : Workspace Content) (summary : Summary) :
    Prop where
  files : after.files = workspace.files
  settles : settled summary = (conversionCandidates sync workspace).length
  lists : listed summary = (conversionCandidates sync workspace).length
  names : ∀ detail ∈ summary.items, isConvertible detail.path sync.conversion = true

theorem candidate_convertible (chosen : item ∈ conversionCandidates sync workspace) :
    convertible sync workspace item = true :=
  (Bool.and_eq_true _ _ ▸ (mem_filter.mp chosen).2).1

theorem postProcess_counts {order : Order}
    (returned : postProcessDocuments tools sync order workspace = some (after, summary)) :
    Counted sync workspace after summary := by
  unfold postProcessDocuments at returned
  split at returned
  · rename_i disabled
    cases returned
    have none : conversionCandidates sync workspace = [] := by
      refine eq_nil_iff_forall_not_mem.mpr fun item chosen => ?_
      rw [convertible_enabled (candidate_convertible chosen)] at disabled
      cases disabled
    exact ⟨rfl, by rw [none]; rfl, by rw [none]; rfl, by simp⟩
  · have known : ∀ item ∈ conversionCandidates sync workspace,
        isConvertible item.localPath sync.conversion = true := by
      intro item chosen
      have eligible := candidate_convertible chosen
      simp only [convertible, Bool.and_eq_true] at eligible
      exact eligible.2
    have triaged : Triaged tools sync (fun path => isConvertible path sync.conversion = true)
        workspace
        (conversionCandidates sync workspace)
        (triageItems tools sync workspace (conversionCandidates sync workspace)) :=
      triageItems_triaged sync workspace _ known
    dsimp only at returned
    split at returned
    · rename_i complete
      obtain ⟨⟨written, totals⟩, ran, same⟩ := Option.map_eq_some_iff.mp returned
      cases same
      have perm := isPerm_iff.mp complete
      have jobs : ∀ job ∈ order, isConvertible job.1.localPath sync.conversion = true :=
        fun job member => known _ (triaged.jobs _ (perm.mem_iff.mp (mem_map_of_mem member)))
      obtain ⟨files, advances⟩ :=
        runJobs_advances (fun path => isConvertible path sync.conversion = true) jobs ran
      have length := perm.length_eq
      rw [length_map] at length
      refine ⟨files.trans triaged.seen.files, ?_, ?_, ?_⟩
      · exact (advances.settles.trans (by rw [length])).trans triaged.settles
      · exact (advances.lists.trans (by rw [length])).trans triaged.lists
      · intro detail member
        rcases advances.names detail member with before | new
        · exact triaged.names detail before
        · exact new
    · cases returned

theorem appendItems (items : List Detail) (summary : Summary) :
    settled (items.foldl appendItem summary) = settled summary ∧
      listed (items.foldl appendItem summary) = listed summary + items.length ∧
      ∀ detail ∈ (items.foldl appendItem summary).items,
        detail ∈ summary.items ∨ detail ∈ items := by
  induction items generalizing summary with
  | nil => exact ⟨rfl, rfl, fun _ => .inl⟩
  | cons item rest ih =>
    have head : settled (appendItem summary item) = settled summary ∧
        listed (appendItem summary item) = listed summary + 1 ∧
        ∀ detail ∈ (appendItem summary item).items, detail ∈ summary.items ∨ detail = item := by
      unfold appendItem
      split
      · refine ⟨rfl, ?_, ?_⟩
        · simp only [listed, length_append, length_singleton]
          omega
        · intro detail member
          simpa using member
      · exact ⟨rfl, rfl, fun _ => .inl⟩
    obtain ⟨settles, lists, names⟩ := ih (appendItem summary item)
    rw [foldl_cons]
    refine ⟨settles.trans head.1, ?_, ?_⟩
    · rw [lists, head.2.1, length_cons]
      omega
    · intro detail member
      rcases names detail member with before | later
      · rcases head.2.2 detail before with earlier | rfl
        · exact .inl earlier
        · exact .inr (mem_cons_self ..)
      · exact .inr (mem_cons_of_mem _ later)

theorem merge_counts (current incoming : Summary) :
    settled (mergeManagedConversionSummaries current incoming) =
        settled current + settled incoming ∧
      listed (mergeManagedConversionSummaries current incoming) =
        listed current + listed incoming ∧
      ∀ detail ∈ (mergeManagedConversionSummaries current incoming).items,
        detail ∈ current.items ∨ detail ∈ incoming.items := by
  obtain ⟨settles, lists, names⟩ := appendItems incoming.items
    { current with
      candidates := current.candidates + incoming.candidates
      converted := current.converted + incoming.converted
      skipped := current.skipped + incoming.skipped
      failed := current.failed + incoming.failed
      imagesSkipped := current.imagesSkipped + incoming.imagesSkipped
      imagesDuplicate := current.imagesDuplicate + incoming.imagesDuplicate
      warnings := (current.warnings ++ incoming.warnings).eraseDups
      itemsTruncated := current.itemsTruncated + incoming.itemsTruncated }
  refine ⟨?_, ?_, names⟩
  · rw [mergeManagedConversionSummaries, settles]
    simp only [settled]
    omega
  · rw [mergeManagedConversionSummaries, lists]
    simp only [listed]
    omega

def eligible (command : Command) (workspace : Workspace Content) (item : Item) : Bool :=
  convertible (command.sync []) workspace item

theorem candidates_eligible (command : Command) (workspace : Workspace Content)
    (batch : List Item) :
    conversionCandidates (command.sync batch) workspace =
      batch.filter (eligible command workspace) := by
  refine filter_congr fun item _ => ?_
  simp [inChangedSet, Command.sync, eligible, convertible]

theorem eligible_files {before : Workspace Content} (files : after.files = before.files) :
    eligible command after = eligible command before := by
  funext item
  exact convertible_files files item

variable (conversion : Conversion)

theorem batchesFrom_flatten (size : Nat) (items batch : List Item) :
    (batchesFrom conversion size items batch).flatten =
      batch ++ items.filter fun item => isConvertible item.localPath conversion := by
  induction items generalizing batch with
  | nil =>
    rw [batchesFrom]
    split
    · rename_i empty
      rw [empty]
      rfl
    · simp
  | cons item rest ih =>
    rw [batchesFrom]
    split
    · rename_i known
      have kept : (item :: rest).filter (fun item => isConvertible item.localPath conversion) =
          item :: rest.filter fun item => isConvertible item.localPath conversion := by
        simp [known]
      rw [kept]
      split
      · rw [ih, append_assoc, singleton_append]
      · rw [flatten_cons, ih]
        simp
    · rename_i unknown
      rw [ih]
      simp [unknown]

/-- The summary after the batches so far has every file that they took up once. -/
structure Merged (command : Command) (workspace after : Workspace Content) (items : List Item)
    (before summary : Summary) : Prop where
  files : after.files = workspace.files
  settles : settled summary =
    settled before + (items.filter (eligible command workspace)).length
  lists : listed summary =
    listed before + (items.filter (eligible command workspace)).length
  names : ∀ detail ∈ summary.items, detail ∈ before.items ∨
    isConvertible detail.path command.conversion = true

theorem runBatches_merged {batches : List (List Item)}
    (ran : runBatches tools command batches orders workspace before = some (after, summary)) :
    Merged command workspace after batches.flatten before summary := by
  induction batches generalizing orders workspace before with
  | nil =>
    cases ran
    exact ⟨rfl, rfl, rfl, fun _ => .inl⟩
  | cons batch rest ih =>
    cases orders with
    | nil => cases ran
    | cons order orders =>
      rw [runBatches] at ran
      split at ran
      · cases ran
      · rename_i middle incoming returned
        have counted := postProcess_counts returned
        have later := ih ran
        obtain ⟨settles, lists, names⟩ := merge_counts before incoming
        have chosen := candidates_eligible command workspace batch
        have same : eligible command middle = eligible command workspace :=
          eligible_files counted.files
        have split : (batch ++ rest.flatten).filter (eligible command workspace) =
            batch.filter (eligible command workspace) ++
              rest.flatten.filter (eligible command workspace) := filter_append ..
        refine ⟨later.files.trans counted.files, ?_, ?_, ?_⟩
        · rw [later.settles, settles, counted.settles, chosen, same, flatten_cons, split,
            length_append, Nat.add_assoc]
        · rw [later.lists, lists, counted.lists, chosen, same, flatten_cons, split,
            length_append, Nat.add_assoc]
        · intro detail member
          rcases later.names detail member with merged | new
          · rcases names detail merged with earlier | incoming
            · exact .inl earlier
            · exact .inr (counted.names detail incoming)
          · exact .inr new

def supported (command : Command) (listing : List LocalPath) : List LocalPath :=
  listing.filter fun path => isConvertible path command.conversion

def unsupported (command : Command) (listing : List LocalPath) : List LocalPath :=
  listing.filter fun path => !isConvertible path command.conversion

theorem take_concat {Value : Type} (values : List Value) (value : Value) (count : Nat) :
    (if (values.take count).length < count then values.take count ++ [value]
      else values.take count) = (values ++ [value]).take count := by
  rw [take_append, length_take]
  split
  · rename_i short
    have room : values.length < count := by omega
    rw [take_of_length_le (by simp; omega : [value].length ≤ count - values.length)]
  · rename_i long
    have full : count - values.length = 0 := by omega
    rw [full, take_zero, append_nil]

theorem scan_counts (conversion : Conversion) (items : List Item) :
    let scan := scanManagedWorkspaceConversion conversion items
    let others := items.filter fun item => !isConvertible item.localPath conversion
    scan.supportedTotal = (items.filter fun item => isConvertible item.localPath conversion).length ∧
      scan.unsupportedTotal = others.length ∧
      scan.unsupported = others.take detailItemsLimit := by
  unfold scanManagedWorkspaceConversion
  induction items using List.reverseRecOn with
  | nil => exact ⟨rfl, rfl, rfl⟩
  | append_singleton items item ih =>
    obtain ⟨supports, others, kept⟩ := ih
    rw [foldl_append, foldl_cons, foldl_nil, filter_append,
      filter_append, scanItem]
    by_cases known : isConvertible item.localPath conversion = true
    · rw [if_pos known]
      simp [known, supports, others, kept]
    · rw [if_neg known]
      rw [Bool.not_eq_true] at known
      refine ⟨by simp [known, supports], by simp [known, others], ?_⟩
      dsimp only
      rw [kept, take_concat]
      simp [known]

structure Lists (workspace : Workspace Content) (listing : List LocalPath) : Prop where
  nodup : listing.Nodup
  named : ∀ path ∈ listing, path ≠ []
  files : ∀ path ∈ listing, (workspace.files path).isSome = true

structure Conserves (command : Command) (listing : List LocalPath) (summary : ManagedSummary) :
    Prop where
  outcomes : summary.converted + summary.skipped + summary.failed =
    (supported command listing).length
  total : summary.total = (supported command listing).length + (unsupported command listing).length
  items : summary.items.length + summary.itemsTruncated = summary.total

/-- No supported file is below the marker of another datasource, and the unsupported ones
fit into the details. -/
structure Unfiltered (command : Command) (listing : List LocalPath) : Prop where
  own : ∀ path ∈ supported command listing, command.foreign path = false
  few : (unsupported command listing).length ≤ detailItemsLimit

theorem ensureSourceMetadata_files (workspace : Workspace Content)
    (path : LocalPath) :
    (ensureSourceMetadata tools conversion workspace path).files = workspace.files := by
  unfold ensureSourceMetadata
  generalize workspace.files path = found
  cases found with
  | none => rfl
  | some file =>
    generalize workspace.metas path = recorded
    cases recorded with
    | none => rfl
    | some previous =>
      dsimp only
      split
      · rfl
      · rfl

theorem ensureUploadMetadata_files (workspace : Workspace Content)
    (items : List Item) :
    (ensureUploadMetadata tools conversion workspace items).files = workspace.files := by
  unfold ensureUploadMetadata
  induction items generalizing workspace with
  | nil => rfl
  | cons item rest ih =>
    rw [foldl_cons, ih]
    exact ensureSourceMetadata_files conversion workspace item.localPath

def startedWorkspace (tools : Tools Content) (command : Command) (listing : List LocalPath)
    (workspace : Workspace Content) : Workspace Content :=
  if command.sourceType = "upload" then
    ensureUploadMetadata tools command.conversion workspace (managedItems listing)
  else workspace

theorem startedWorkspace_files (command : Command) (listing : List LocalPath)
    (workspace : Workspace Content) :
    (startedWorkspace tools command listing workspace).files = workspace.files := by
  unfold startedWorkspace
  split
  · exact ensureUploadMetadata_files ..
  · rfl

/-- The checks before the first batch, none of which reads the batch size. -/
structure Admits (tools : Tools Content) (command : Command) (listing : List LocalPath)
    (workspace : Workspace Content) : Prop where
  typed : command.sourceType ≠ ""
  files : ¬ conversionResourceLimit command.maxFiles DEFAULT_CONVERSION_MAX_FILES <
    (scanManagedWorkspaceConversion command.conversion (managedItems listing)).total
  bytes : ¬ (conversionResourceLimit command.maxBytes 0 ≠ 0 ∧
    conversionResourceLimit command.maxBytes 0 < managedWorkspaceSize tools
      (startedWorkspace tools command listing workspace) (managedItems listing))

/-- The summary that the batches leave, made the summary of the run. -/
def finish (command : Command) (listing : List LocalPath) (summary : Summary) : ManagedSummary :=
  let scan := scanManagedWorkspaceConversion command.conversion (managedItems listing)
  warnPartial (managedConversionSummary summary scan.unsupported scan.supportedTotal
    scan.supportedTotal scan.unsupportedTotal)

theorem convertManagedWorkspace_ok {result : ManagedSummary} :
    convertManagedWorkspace tools command (some listing) orders workspace = .ok (after, result) ↔
      Admits tools command listing workspace ∧ ∃ summary, result = finish command listing summary ∧
        runBatches tools command
          (batchesFrom command.conversion (batchLimit command.batchSize) (managedItems listing) [])
          orders (startedWorkspace tools command listing workspace) {} = some (after, summary) := by
  unfold convertManagedWorkspace
  dsimp only
  rw [← startedWorkspace]
  constructor
  · intro returned
    split at returned
    · cases returned
    · rename_i typed
      split at returned
      · cases returned
      · rename_i files
        split at returned
        · cases returned
        · rename_i bytes
          split at returned
          · cases returned
          · rename_i written summary ran
            cases returned
            exact ⟨⟨typed, files, bytes⟩, summary, rfl, ran⟩
  · intro returned
    obtain ⟨admits, summary, rfl, ran⟩ := returned
    rw [if_neg admits.typed, if_neg admits.files, if_neg admits.bytes, ran]
    rfl

theorem managedConversionSummary_listed {others : List Item}
    (unlisted : ∀ item ∈ others, item.localPath ∉ summary.items.map (·.path))
    (supportedTotal unsupportedTotal : Nat) :
    let result := managedConversionSummary summary others supportedTotal supportedTotal
      unsupportedTotal
    result.items.length + result.itemsTruncated = listed summary + others.length := by
  have new : ((others.map unsupportedDetail).filter fun item =>
      !(summary.items.map (·.path)).contains item.path) = others.map unsupportedDetail := by
    refine filter_eq_self.mpr fun detail member => ?_
    obtain ⟨item, among, rfl⟩ := mem_map.mp member
    simpa [unsupportedDetail] using unlisted item among
  simp only [managedConversionSummary, new, listed, length_append, length_take,
    length_map]
  omega

theorem warnPartial_counts (summary : ManagedSummary) :
    settled (warnPartial summary).toSummary = settled summary.toSummary ∧
      (warnPartial summary).total = summary.total ∧
      (warnPartial summary).items = summary.items ∧
      (warnPartial summary).itemsTruncated = summary.itemsTruncated := by
  unfold warnPartial
  split
  · exact ⟨rfl, rfl, rfl, rfl⟩
  · exact ⟨rfl, rfl, rfl, rfl⟩

theorem managedItems_filter (listing : List LocalPath) (keep : LocalPath → Bool) :
    (managedItems listing).filter (fun item => keep item.localPath) =
      managedItems (listing.filter keep) := by
  unfold managedItems
  rw [filter_map]
  rfl

theorem managedItems_length (listing : List LocalPath) :
    (managedItems listing).length = listing.length := length_map ..

theorem supportedItems (command : Command) (listing : List LocalPath) :
    ((managedItems listing).filter fun item => isConvertible item.localPath command.conversion) =
      managedItems (supported command listing) :=
  managedItems_filter listing fun path => isConvertible path command.conversion

theorem unsupportedItems (command : Command) (listing : List LocalPath) :
    ((managedItems listing).filter fun item =>
      !isConvertible item.localPath command.conversion) =
      managedItems (unsupported command listing) :=
  managedItems_filter listing fun path => !isConvertible path command.conversion

theorem scan_listing (command : Command) (listing : List LocalPath) :
    let scan := scanManagedWorkspaceConversion command.conversion (managedItems listing)
    scan.supportedTotal = (supported command listing).length ∧
      scan.unsupportedTotal = (unsupported command listing).length ∧
      scan.unsupported = managedItems ((unsupported command listing).take detailItemsLimit) := by
  obtain ⟨supports, others, kept⟩ := scan_counts command.conversion (managedItems listing)
  rw [supportedItems] at supports
  rw [unsupportedItems] at others kept
  refine ⟨supports.trans (managedItems_length _), others.trans (managedItems_length _), ?_⟩
  rw [kept, managedItems, managedItems, map_take]

theorem eligible_supported (lists : Lists workspace listing) :
    (managedItems (supported command listing)).filter (eligible command workspace) =
      managedItems ((supported command listing).filter fun path => !command.foreign path) := by
  rw [← managedItems_filter]
  refine filter_congr fun item member => ?_
  obtain ⟨path, among, rfl⟩ := mem_map.mp member
  obtain ⟨listed, known⟩ := mem_filter.mp among
  have named := lists.named path listed
  have found := lists.files path listed
  simp only [eligible, convertible, Command.sync]
  simp [named, found, known]

/-- **The counts of a managed conversion.** Whatever the batches and the order in which
their jobs are completed, a run that returns settles every supported file that is not
foreign and lists it, and lists no more unsupported files than the scan keeps. -/
theorem convertManagedWorkspace_counts {result : ManagedSummary}
    (returned : convertManagedWorkspace tools command (some listing) orders workspace =
      .ok (after, result)) (lists : Lists workspace listing) :
    let own := ((supported command listing).filter fun path => !command.foreign path).length
    settled result.toSummary = own ∧
      result.total = (supported command listing).length + (unsupported command listing).length ∧
      result.items.length + result.itemsTruncated =
        own + min detailItemsLimit (unsupported command listing).length := by
  obtain ⟨-, summary, rfl, ran⟩ := convertManagedWorkspace_ok.mp returned
  have files : (startedWorkspace tools command listing workspace).files = workspace.files :=
    startedWorkspace_files ..
  unfold finish
  generalize startedWorkspace tools command listing workspace = started at ran files
  have merged := runBatches_merged ran
  have chosen := batchesFrom_flatten command.conversion (batchLimit command.batchSize)
    (managedItems listing) []
  rw [nil_append, supportedItems] at chosen
  rw [chosen] at merged
  have taken : ((managedItems (supported command listing)).filter
      (eligible command started)).length =
        ((supported command listing).filter fun path => !command.foreign path).length := by
    rw [eligible_files files, eligible_supported lists, managedItems_length]
  obtain ⟨supports, others, kept⟩ := scan_listing command listing
  generalize scanManagedWorkspaceConversion command.conversion (managedItems listing) = scan
    at supports others kept ⊢
  obtain ⟨settles, total, items, truncated⟩ :=
    warnPartial_counts (managedConversionSummary summary scan.unsupported scan.supportedTotal
      scan.supportedTotal scan.unsupportedTotal)
  refine ⟨?_, ?_, ?_⟩
  · rw [settles, ← taken]
    exact merged.settles.trans (Nat.zero_add _)
  · rw [total]
    exact congrArg₂ (· + ·) supports others
  · have unlisted : ∀ item ∈ scan.unsupported, item.localPath ∉ summary.items.map (·.path) := by
      intro item member present
      rw [kept] at member
      obtain ⟨path, among, rfl⟩ := mem_map.mp member
      obtain ⟨detail, listed, same⟩ := mem_map.mp present
      have known : isConvertible detail.path command.conversion = true :=
        (merged.names detail listed).resolve_left not_mem_nil
      have unknown := (mem_filter.mp (mem_of_mem_take among)).2
      rw [same] at known
      simp [known] at unknown
    rw [items, truncated, managedConversionSummary_listed unlisted, merged.lists, taken, kept,
      managedItems_length, length_take]
    exact congrArg (· + _) (Nat.zero_add _)

theorem batchesFrom_unsupported {conversion : Conversion} (size : Nat)
    (unknown : ∀ item ∈ items, isConvertible item.localPath conversion = false) :
    batchesFrom conversion size items [] = [] := by
  induction items with
  | nil => rfl
  | cons item rest ih =>
    have first := unknown item (mem_cons_self ..)
    rw [batchesFrom, if_neg (by simp [first])]
    exact ih fun other member => unknown other (mem_cons_of_mem _ member)

theorem scan_total (items : List Item) :
    (scanManagedWorkspaceConversion conversion items).total = items.length := by
  unfold scanManagedWorkspaceConversion
  induction items using List.reverseRecOn with
  | nil => rfl
  | append_singleton items item ih =>
    rw [foldl_append, foldl_cons, foldl_nil, length_append, scanItem, ← ih]
    split
    · rfl
    · rfl

theorem convertManagedWorkspace_unsupported (workspace : Workspace Content)
    (typed : command.sourceType ≠ "")
    (unknown : ∀ path ∈ listing, isConvertible path command.conversion = false)
    (few : listing.length ≤ conversionResourceLimit command.maxFiles DEFAULT_CONVERSION_MAX_FILES)
    (unlimited : conversionResourceLimit command.maxBytes 0 = 0) :
    ∃ after result, convertManagedWorkspace tools command (some listing) [] workspace =
      .ok (after, result) := by
  have none : batchesFrom command.conversion (batchLimit command.batchSize)
      (managedItems listing) [] = [] := by
    refine batchesFrom_unsupported _ fun item member => ?_
    obtain ⟨path, listed, rfl⟩ := mem_map.mp member
    exact unknown path listed
  have within : ¬ conversionResourceLimit command.maxFiles DEFAULT_CONVERSION_MAX_FILES <
      (scanManagedWorkspaceConversion command.conversion (managedItems listing)).total := by
    rw [scan_total, managedItems_length]
    omega
  simp only [convertManagedWorkspace, if_neg typed, if_neg within, unlimited, none, runBatches]
  exact ⟨_, _, rfl⟩

/-- A run that returns conserves the files exactly if no supported file is below the
marker of another datasource and the details have room for the unsupported ones. -/
theorem conserves_iff {listing : List LocalPath} {orders : List Order}
    {workspace after : Workspace Content} {result : ManagedSummary}
    (returned : convertManagedWorkspace tools command (some listing) orders workspace =
      .ok (after, result)) (lists : Lists workspace listing) :
    Conserves command listing result ↔ Unfiltered command listing := by
  obtain ⟨settles, total, items⟩ := convertManagedWorkspace_counts returned lists
  have all : ((supported command listing).filter fun path => !command.foreign path).length =
      (supported command listing).length ↔
        ∀ path ∈ supported command listing, command.foreign path = false := by
    rw [length_filter_eq_length_iff]
    simp
  have bound : ((supported command listing).filter fun path => !command.foreign path).length ≤
      (supported command listing).length := length_filter_le ..
  constructor
  · intro conserves
    have outcomes := settles.symm.trans conserves.outcomes
    have listed := conserves.items
    exact ⟨all.mp outcomes, by omega⟩
  · intro unfiltered
    have own := all.mpr unfiltered.own
    have few := unfiltered.few
    exact ⟨settles.trans own, total, by omega⟩

def textCommand : Command where
  sourceType := "upload"
  conversion := { document := true }
  batchSize := none
  maxFiles := none
  maxBytes := none
  force := false
  visionConfigured := false
  foreign := fun _ => false

def fullWorkspace : Workspace String :=
  { Workspace.empty String with files := fun _ => some ⟨"bytes", "t0"⟩ }

def textPath : LocalPath := ['a', '.', 't', 'x', 't']

def archivePath : LocalPath := ['b', '.', 'z', 'i', 'p']

def textOrder : Order := [({ localPath := textPath, status := "cataloged" }, .text "")]

theorem conserves_iff_texts :
    ∃ after result,
      convertManagedWorkspace textTools textCommand (some [textPath, archivePath]) [textOrder]
        fullWorkspace = .ok (after, result) ∧
      Conserves textCommand [textPath, archivePath] result := by
  obtain ⟨⟨after, result⟩, returned⟩ : ∃ output,
      convertManagedWorkspace textTools textCommand (some [textPath, archivePath]) [textOrder]
        fullWorkspace = .ok output := ⟨_, rfl⟩
  refine ⟨after, result, returned, (conserves_iff returned ⟨?_, ?_, ?_⟩).mpr ⟨?_, ?_⟩⟩
  · decide
  · decide
  · intro path _
    rfl
  · intro path _
    rfl
  · decide

def manyPaths : List LocalPath := (List.range 201).map fun index => [Char.ofNat (index + 19968)]

theorem manyPaths_nodup : manyPaths.Nodup := by
  have codes : manyPaths.map (fun path => (path.headD 'a').toNat) = List.range' 19968 201 := by
    decide +kernel
  have distinct : (List.range' 19968 201).Nodup := nodup_range' ..
  rw [← codes] at distinct
  exact distinct.of_map

theorem manyPaths_unsupported : ∀ path ∈ manyPaths,
    isConvertible path textCommand.conversion = false := by
  have bare : ∀ path ∈ manyPaths, PosixPath.suffix (PosixPath.lastName path) = [] := by
    decide +kernel
  intro path member
  have suffix : suffixOf path = "" := by rw [suffixOf, bare path member]; rfl
  rw [isConvertible, isImagePath, suffix]
  decide

/-- One item too many for the details is counted nowhere. -/
theorem unsupported_uncounted :
    ¬ ∀ (command : Command) (listing : List LocalPath) (orders : List Order)
        (workspace after : Workspace String) (result : ManagedSummary),
      Lists workspace listing →
      convertManagedWorkspace textTools command (some listing) orders workspace =
        .ok (after, result) → Conserves command listing result := by
  intro always
  have lists : Lists fullWorkspace manyPaths :=
    ⟨manyPaths_nodup, by decide +kernel, fun _ _ => rfl⟩
  have count : manyPaths.length = 201 := by rw [manyPaths, length_map, length_range]
  have limit : conversionResourceLimit textCommand.maxFiles DEFAULT_CONVERSION_MAX_FILES =
      100000 := rfl
  obtain ⟨after, result, returned⟩ : ∃ after result,
      convertManagedWorkspace textTools textCommand (some manyPaths) [] fullWorkspace =
        .ok (after, result) :=
    convertManagedWorkspace_unsupported fullWorkspace (by decide) manyPaths_unsupported
      (by rw [count, limit]; decide) rfl
  have conserves := always _ _ _ _ _ _ lists returned
  have all : unsupported textCommand manyPaths = manyPaths :=
    filter_eq_self.mpr fun path member => by simp [manyPaths_unsupported path member]
  have none : supported textCommand manyPaths = [] :=
    filter_eq_nil_iff.mpr fun path member => by simp [manyPaths_unsupported path member]
  obtain ⟨-, total, items⟩ := convertManagedWorkspace_counts returned lists
  have same := conserves.items
  rw [all, none, count] at total items
  have room : detailItemsLimit = 200 := rfl
  simp only [filter_nil, length_nil] at total items
  omega

end SourceLens.ManagedConversion
