import SourceLens.DocumentConvert
import Mathlib.Data.List.Induction

/-! When a success record names the bytes that its file has. -/

namespace SourceLens.DocumentConvert

open Transition List

variable {Content : Type}

variable {tools : Tools Content} {workspace before after : Workspace Content} {sync : Sync}
  {path : LocalPath} {items : List Item} {item : Item}

/-- A success record carries the fingerprint of the digest that it names. -/
def Sound (tools : Tools Content) (workspace : Workspace Content) : Prop :=
  ∀ path record, workspace.metas path = some record → record.status = .success →
    ∃ conversion source,
      record.fingerprint = conversionFingerprint tools conversion source record.sourceSha256

/-- A success record of the path names the digest of the bytes that the file has. -/
def FreshAt (tools : Tools Content) (workspace : Workspace Content) (path : LocalPath) : Prop :=
  ∀ record, workspace.metas path = some record → record.status = .success →
    record.sourceSha256 = digestAt tools workspace path

theorem fingerprint_digest (tools : Tools Content) {one other : Conversion} {source : LocalPath}
    {digest recorded : String} (same : conversionFingerprint tools one path digest =
      conversionFingerprint tools other source recorded) : digest = recorded :=
  tools.collisionFree _ _ same

/-- What an operation on the sidecar of one path does: other sidecars and all files stay,
and a success record that it writes is fresh. -/
structure Touches (tools : Tools Content) (path : LocalPath) (before after : Workspace Content) :
    Prop where
  files : after.files = before.files
  others : ∀ other, other ≠ path → after.metas other = before.metas other
  sound : Sound tools before → Sound tools after
  fresh : Sound tools before → FreshAt tools after path

theorem digestAt_files (files : after.files = before.files) (path : LocalPath) :
    digestAt tools after path = digestAt tools before path := by
  rw [digestAt, digestAt, files]

theorem FreshAt.congr (files : after.files = before.files)
    (metas : after.metas path = before.metas path) :
    FreshAt tools after path ↔ FreshAt tools before path := by
  rw [FreshAt, FreshAt, metas, digestAt_files files]

theorem writeMeta_touches (tools : Tools Content) (conversion : Conversion)
    (workspace : Workspace Content) (path : LocalPath) (record : Record)
    (fine : record.status = .success →
      record.sourceSha256 = digestAt tools workspace path ∧ ∃ options source,
        record.fingerprint = conversionFingerprint tools options source record.sourceSha256) :
    Touches tools path workspace (writeMeta tools conversion workspace path record) where
  files := rfl
  others := fun other apart => Function.update_of_ne apart _ _
  sound := by
    intro sound other written found success
    by_cases same : other = path
    · subst same
      simp only [writeMeta, Function.update_self, Option.some.injEq] at found
      subst found
      exact (fine success).2
    · simp only [writeMeta, Function.update_of_ne same] at found
      exact sound other written found success
  fresh := by
    intro _ written found success
    simp only [writeMeta, Function.update_self, Option.some.injEq] at found
    subst found
    exact (fine success).1

theorem writeSkippedMeta_touches (tools : Tools Content) (conversion : Conversion)
    (workspace : Workspace Content) (path : LocalPath) (reason : String) :
    Touches tools path workspace (writeSkippedMeta tools conversion workspace path reason) :=
  writeMeta_touches tools conversion workspace path _ (by rintro ⟨⟩)

theorem writeFailedMeta_touches (tools : Tools Content) (conversion : Conversion)
    (workspace : Workspace Content) (path : LocalPath) (error : String) :
    Touches tools path workspace (writeFailedMeta tools conversion workspace path error) :=
  writeMeta_touches tools conversion workspace path _ (by rintro ⟨⟩)

theorem writeSuccessMeta_touches (tools : Tools Content) (conversion : Conversion)
    (workspace : Workspace Content) (path : LocalPath) :
    Touches tools path workspace (writeSuccessMeta tools conversion workspace path
      (digestAt tools workspace path)
      (conversionFingerprint tools conversion path (digestAt tools workspace path))) :=
  writeMeta_touches tools conversion workspace path _ fun _ => ⟨rfl, conversion, path, rfl⟩

theorem Touches.trans {first second third : Workspace Content}
    (one : Touches tools path first second) (two : Touches tools path second third) :
    Touches tools path first third where
  files := two.files.trans one.files
  others := fun other apart => (two.others other apart).trans (one.others other apart)
  sound := fun sound => two.sound (one.sound sound)
  fresh := fun sound => two.fresh (one.sound sound)

theorem convertOne_touches (tools : Tools Content) (sync : Sync) (workspace : Workspace Content)
    (path : LocalPath) (outcome : ConverterOutcome) :
    (∃ reason, (convertOne tools sync workspace path outcome) = (workspace, .raised reason)) ∨
      (convertOne tools sync workspace path outcome).2 = .runCancelled ∨
      Touches tools path workspace (convertOne tools sync workspace path outcome).1 := by
  have skips := writeSkippedMeta_touches tools sync.conversion workspace path
  unfold convertOne
  dsimp only
  split
  · exact .inr (.inr (skips _))
  split
  · exact .inr (.inr (skips _))
  split
  · rename_i unchanged
    refine .inr (.inr ⟨rfl, fun _ _ => rfl, id, ?_⟩)
    intro sound record found success
    -- the fingerprints agree, so the digests do
    have stored : workspace.metas path = some record := found
    simp only [converted, stored, Bool.and_eq_true, beq_iff_eq] at unchanged
    rcases sound path record found success with ⟨conversion, source, recorded⟩
    exact (fingerprint_digest tools (unchanged.1.1.2.symm.trans recorded)).symm
  split
  · exact .inr (.inr (skips _))
  split
  · exact .inr (.inr (skips _))
  cases outcome with
  | runCancelled => exact .inr (.inl rfl)
  | raises reason => exact .inl ⟨reason, rfl⟩
  | skipped reason => exact .inr (.inr (skips _))
  | text warning =>
    refine .inr (.inr ?_)
    have written := writeSuccessMeta_touches tools sync.conversion
      { workspace with contents := Function.update workspace.contents path true } path
    exact ⟨written.files, written.others, written.sound, written.fresh⟩

theorem handleJob_touches {state next : Workspace Content × Summary} {job : Item × ConverterOutcome}
    (handled : handleJob tools sync state job = some next) :
    Touches tools job.1.localPath state.1 next.1 := by
  rcases state with ⟨workspace, summary⟩
  rcases job with ⟨item, outcome⟩
  simp only [handleJob] at handled
  have touches := convertOne_touches tools sync workspace item.localPath outcome
  cases result : convertOne tools sync workspace item.localPath outcome with
  | mk written ended =>
    rw [result] at touches handled
    cases ended with
    | skipped reason warning =>
      cases handled
      rcases touches with ⟨_, ⟨⟩⟩ | ⟨⟨⟩⟩ | touches
      exact touches
    | converted warning =>
      cases handled
      rcases touches with ⟨_, ⟨⟩⟩ | ⟨⟨⟩⟩ | touches
      exact touches
    | raised reason =>
      cases handled
      have failed := writeFailedMeta_touches tools sync.conversion written item.localPath reason
      rcases touches with ⟨_, ⟨⟩⟩ | ⟨⟨⟩⟩ | touches
      · exact failed
      · exact touches.trans failed
    | runCancelled => cases handled
theorem runJobs_spec {tools : Tools Content} {sync : Sync}
    {order : List (Item × ConverterOutcome)} {state next : Workspace Content × Summary}
    (ran : order.foldlM (handleJob tools sync) state = some next) (sound : Sound tools state.1) :
    next.1.files = state.1.files ∧ Sound tools next.1 ∧
      ∀ path, (path ∉ order.map (·.1.localPath) → next.1.metas path = state.1.metas path) ∧
        (path ∈ order.map (·.1.localPath) ∨ FreshAt tools state.1 path →
          FreshAt tools next.1 path) := by
  induction order generalizing state with
  | nil =>
    cases ran
    exact ⟨rfl, sound, fun path => ⟨fun _ => rfl, fun either => either.resolve_left (by simp)⟩⟩
  | cons job rest ih =>
    simp only [foldlM_cons, Option.bind_eq_bind, Option.bind_eq_some_iff] at ran
    rcases ran with ⟨middle, handled, later⟩
    have touches := handleJob_touches handled
    rcases ih later (touches.sound sound) with ⟨files, kept, paths⟩
    refine ⟨files.trans touches.files, kept, ?_⟩
    intro path
    rw [map_cons, mem_cons]
    constructor
    · intro outside
      rw [not_or] at outside
      exact ((paths path).1 outside.2).trans (touches.others path outside.1)
    · intro either
      apply (paths path).2
      by_cases same : path = job.1.localPath
      · exact .inr (same ▸ touches.fresh sound)
      · rcases either with (own | listed) | fresh
        · exact absurd own same
        · exact .inl listed
        · exact .inr ((FreshAt.congr touches.files (touches.others path same)).mpr fresh)

def imageCount (items : List Item) : Nat := items.countP fun item => isImagePath item.localPath

/-- The image is within `max_images`, and an image before it has the same bytes. -/
def SkippedAsDuplicate (tools : Tools Content) (sync : Sync) (workspace : Workspace Content)
    (front : List Item) (item : Item) : Prop :=
  isImagePath item.localPath = true ∧
    (imageCount front : Int) + 1 ≤ orDefault sync.conversion.maxImages defaultMaxImages ∧
    ∃ earlier ∈ front, isImagePath earlier.localPath = true ∧
      digestAt tools workspace earlier.localPath = digestAt tools workspace item.localPath

def Examined (tools : Tools Content) (sync : Sync) (workspace : Workspace Content)
    (items : List Item) (path : LocalPath) : Prop :=
  ∃ front item back, items = front ++ item :: back ∧ item.localPath = path ∧
    ¬ SkippedAsDuplicate tools sync workspace front item

theorem examined_concat : Examined tools sync workspace (items ++ [item]) path ↔
      Examined tools sync workspace items path ∨
        (item.localPath = path ∧ ¬ SkippedAsDuplicate tools sync workspace items item) := by
  constructor
  · intro examined
    rcases examined with ⟨front, other, back, whole, named, kept⟩
    rcases eq_nil_or_concat back with rfl | ⟨before, last, rfl⟩
    · rcases append_inj' whole rfl with ⟨rfl, single⟩
      rw [singleton_inj.mp single]
      exact .inr ⟨named, kept⟩
    · rw [concat_eq_append, ← cons_append, ← append_assoc] at whole
      rcases append_inj' whole rfl with ⟨rfl, _⟩
      exact .inl ⟨front, other, before, rfl, named, kept⟩
  · intro either
    rcases either with ⟨front, other, back, rfl, named, kept⟩ | ⟨named, kept⟩
    · exact ⟨front, other, back ++ [item], by simp, named, kept⟩
    · exact ⟨items, item, [], rfl, named, kept⟩

/-- What the loop over the first candidates has counted and seen. -/
structure Seen (tools : Tools Content) (sync : Sync) (workspace : Workspace Content)
    (items : List Item) (triage : Triage Content) : Prop where
  files : triage.workspace.files = workspace.files
  count : triage.imageCount = imageCount items
  digests : (imageCount items : Int) ≤ orDefault sync.conversion.maxImages defaultMaxImages →
    ∀ digest, digest ∈ triage.imageDigests ↔ ∃ earlier ∈ items,
      isImagePath earlier.localPath = true ∧ digestAt tools workspace earlier.localPath = digest

inductive Exit (tools : Tools Content) (sync : Sync) (workspace : Workspace Content)
    (items : List Item) (item : Item) (triage : Triage Content) : Triage Content → Prop
  | job (digests : List String)
      (within : isImagePath item.localPath = true →
        (imageCount items : Int) + 1 ≤ orDefault sync.conversion.maxImages defaultMaxImages)
      (new : ¬ SkippedAsDuplicate tools sync workspace items item) :
      Exit tools sync workspace items item triage
        { triage with
          imageCount := imageCount (items ++ [item])
          imageDigests := digests
          jobs := triage.jobs ++ [item] }
  | exceeds (image : isImagePath item.localPath = true)
      (exceeded : orDefault sync.conversion.maxImages defaultMaxImages <
        (imageCount items : Int) + 1) :
      Exit tools sync workspace items item triage
        { triage with
          workspace := writeSkippedMeta tools sync.conversion triage.workspace item.localPath
            "CONVERSION_MAX_IMAGES_EXCEEDED"
          imageCount := imageCount (items ++ [item])
          summary := warn (skipImage triage.summary item "CONVERSION_MAX_IMAGES_EXCEEDED")
            "CONVERSION_MAX_IMAGES_EXCEEDED" }
  | repeats (duplicate : SkippedAsDuplicate tools sync workspace items item) :
      Exit tools sync workspace items item triage
        { triage with
          imageCount := imageCount (items ++ [item])
          summary := { skipImage triage.summary item "IMAGE_DUPLICATE" with
            imagesDuplicate := triage.summary.imagesDuplicate + 1 } }

theorem imageCount_concat (items : List Item) (item : Item) :
    imageCount (items ++ [item]) =
      imageCount items + if isImagePath item.localPath = true then 1 else 0 := by
  rw [imageCount, countP_append, countP_singleton, imageCount]

theorem Seen.step {triage : Triage Content} (seen : Seen tools sync workspace items triage)
    (item : Item) :
    Exit tools sync workspace items item triage (triageItem tools sync triage item) ∧
      Seen tools sync workspace (items ++ [item]) (triageItem tools sync triage item) := by
  have digest : digestAt tools triage.workspace item.localPath =
      digestAt tools workspace item.localPath := digestAt_files seen.files _
  unfold triageItem
  dsimp only
  rw [digest]
  by_cases image : isImagePath item.localPath = true
  · have count : imageCount (items ++ [item]) = imageCount items + 1 := by
      rw [imageCount_concat, if_pos image]
    rw [if_neg (by simp [image]), seen.count, ← count]
    split
    · rename_i exceeded
      exact ⟨.exceeds image exceeded, seen.files, rfl, fun within => by omega⟩
    · rename_i within
      rw [not_lt] at within
      have known := seen.digests (by omega) (digestAt tools workspace item.localPath)
      split
      · rename_i repeated
        have duplicate : SkippedAsDuplicate tools sync workspace items item :=
          ⟨image, by omega, known.mp repeated⟩
        refine ⟨.repeats duplicate, seen.files, rfl, fun _ other => ?_⟩
        rw [seen.digests (by omega) other]
        simp only [mem_append, mem_singleton]
        constructor
        · intro found
          rcases found with ⟨earlier, member, fine⟩
          exact ⟨earlier, .inl member, fine⟩
        · intro found
          rcases found with ⟨earlier, member | rfl, fine⟩
          · exact ⟨earlier, member, fine⟩
          · exact fine.2 ▸ duplicate.2.2
      · rename_i fresh
        refine ⟨.job _ (fun _ => by omega) fun skipped => fresh (known.mpr skipped.2.2),
          seen.files, rfl, fun _ other => ?_⟩
        rw [mem_cons, seen.digests (by omega) other]
        simp only [mem_append, mem_singleton]
        constructor
        · intro found
          rcases found with rfl | ⟨earlier, member, fine⟩
          · exact ⟨item, .inr rfl, image, rfl⟩
          · exact ⟨earlier, .inl member, fine⟩
        · intro found
          rcases found with ⟨earlier, member | rfl, fine⟩
          · exact .inr ⟨earlier, member, fine⟩
          · exact .inl fine.2.symm
  · have count : imageCount (items ++ [item]) = imageCount items := by
      rw [imageCount_concat, if_neg image, Nat.add_zero]
    have kept : Exit tools sync workspace items item triage
        { triage with
          imageCount := imageCount (items ++ [item])
          imageDigests := triage.imageDigests
          jobs := triage.jobs ++ [item] } :=
      .job triage.imageDigests (fun own => absurd own image) fun skipped => image skipped.1
    rw [count, ← seen.count] at kept
    rw [if_pos (by simp [image])]
    refine ⟨kept, seen.files, seen.count.trans count.symm, fun within other => ?_⟩
    rw [seen.digests (by omega) other]
    simp only [mem_append, mem_singleton]
    constructor
    · intro found
      rcases found with ⟨earlier, member, fine⟩
      exact ⟨earlier, .inl member, fine⟩
    · intro found
      rcases found with ⟨earlier, member | rfl, fine⟩
      · exact ⟨earlier, member, fine⟩
      · exact absurd fine.1 image

structure Triaged (tools : Tools Content) (sync : Sync) (workspace : Workspace Content)
    (items : List Item) (triage : Triage Content) : Prop where
  seen : Seen tools sync workspace items triage
  sound : Sound tools triage.workspace
  examined : ∀ path, Examined tools sync workspace items path →
    path ∈ triage.jobs.map (·.localPath) ∨ FreshAt tools triage.workspace path
  skipped : ∀ path, ¬ Examined tools sync workspace items path →
    path ∉ triage.jobs.map (·.localPath)
  records : ∀ path, (¬ Examined tools sync workspace items path →
      triage.workspace.metas path = workspace.metas path) ∧
    (FreshAt tools workspace path → FreshAt tools triage.workspace path)

theorem not_examined (none : ¬ Examined tools sync workspace (items ++ [item]) path) :
    ¬ Examined tools sync workspace items path :=
  fun some => none (examined_concat.mpr (.inl some))

theorem Triaged.step {triage : Triage Content} (triaged : Triaged tools sync workspace items triage)
    (item : Item) :
    Triaged tools sync workspace (items ++ [item]) (triageItem tools sync triage item) := by
  obtain ⟨left, seen⟩ := triaged.seen.step item
  generalize triageItem tools sync triage item = next at left seen ⊢
  cases left with
  | job digests within new =>
    refine ⟨seen, triaged.sound, ?_, ?_, ?_⟩
    · intro path examined
      rw [map_append, mem_append]
      rcases examined_concat.mp examined with before | ⟨rfl, _⟩
      · exact (triaged.examined path before).imp .inl id
      · exact .inl (.inr (mem_singleton_self _))
    · intro path none named
      rw [map_append, mem_append] at named
      rcases named with before | own
      · exact triaged.skipped path (not_examined none) before
      · exact none (examined_concat.mpr (.inr ⟨(mem_singleton.mp own).symm, new⟩))
    · intro path
      exact ⟨fun none => (triaged.records path).1 (not_examined none),
        (triaged.records path).2⟩
  | exceeds image exceeded =>
    have touches := writeSkippedMeta_touches tools sync.conversion triage.workspace
      item.localPath "CONVERSION_MAX_IMAGES_EXCEEDED"
    refine ⟨seen, touches.sound triaged.sound, ?_,
      fun path none => triaged.skipped path (not_examined none), ?_⟩
    · intro path examined
      by_cases same : path = item.localPath
      · exact .inr (same ▸ touches.fresh triaged.sound)
      · rcases examined_concat.mp examined with before | ⟨own, _⟩
        · exact (triaged.examined path before).imp id
            (FreshAt.congr touches.files (touches.others path same)).mpr
        · exact absurd own.symm same
    · intro path
      constructor
      · intro none
        have apart : path ≠ item.localPath := by
          rintro rfl
          refine none (examined_concat.mpr (.inr ⟨rfl, ?_⟩))
          exact fun skipped => absurd skipped.2.1 (not_le.mpr exceeded)
        exact (touches.others path apart).trans ((triaged.records path).1 (not_examined none))
      · intro fresh
        by_cases same : path = item.localPath
        · exact same ▸ touches.fresh triaged.sound
        · exact (FreshAt.congr touches.files (touches.others path same)).mpr
            ((triaged.records path).2 fresh)
  | repeats duplicate =>
    -- nothing is recorded for an image whose bytes were seen
    have same : ∀ path, Examined tools sync workspace (items ++ [item]) path →
        Examined tools sync workspace items path := by
      intro path examined
      rcases examined_concat.mp examined with earlier | ⟨_, kept⟩
      · exact earlier
      · exact absurd duplicate kept
    exact ⟨seen, triaged.sound,
      fun path examined => triaged.examined path (same path examined),
      fun path none => triaged.skipped path (not_examined none),
      fun path => ⟨fun none => (triaged.records path).1 (not_examined none),
        (triaged.records path).2⟩⟩

theorem seen_nil (tools : Tools Content) (sync : Sync) (workspace : Workspace Content)
    (summary : Summary) : Seen tools sync workspace [] ⟨workspace, 0, [], [], summary⟩ :=
  ⟨rfl, rfl, fun _ digest => by simp⟩

theorem triageItems_spec (sync : Sync) (sound : Sound tools workspace) (items : List Item) :
    Triaged tools sync workspace items (triageItems tools sync workspace items) := by
  unfold triageItems
  generalize ({ candidates := items.length } : Summary) = summary
  induction items using List.reverseRecOn with
  | nil =>
    refine ⟨seen_nil tools sync workspace summary, sound, ?_, ?_, fun path => ⟨fun _ => rfl, id⟩⟩
    · intro path examined
      rcases examined with ⟨front, item, back, whole, _⟩
      simp at whole
    · intro path _
      simp
  | append_singleton items item ih =>
    rw [foldl_append, foldl_cons, foldl_nil]
    exact ih.step item

theorem ensureSourceMetadata_sound (conversion : Conversion) (path : LocalPath)
    (sound : Sound tools workspace) :
    Sound tools (ensureSourceMetadata tools conversion workspace path) := by
  have written : ∀ digest, Sound tools (writeMeta tools conversion workspace path
      { status := .notConverted, sourceSha256 := digest }) :=
    fun digest => (writeMeta_touches tools conversion workspace path _ (by rintro ⟨⟩)).sound sound
  unfold ensureSourceMetadata
  split
  · exact sound
  · dsimp only
    cases workspace.metas path with
    | none => exact written _
    | some previous =>
      dsimp only
      split
      · exact sound
      · exact written _

theorem step_sound {next : Workspace Content} {action : Action Content}
    (sound : Sound tools workspace) (taken : step tools workspace action = some next) :
    Sound tools next := by
  cases action with
  | writeFile path file | removeFile path =>
    cases taken
    exact sound
  | removeSidecar path =>
    cases taken
    intro other record found success
    dsimp only at found
    rw [Function.update_apply] at found
    split at found
    · cases found
    · exact sound other record found success
  | ensureSourceMetadata conversion path =>
    cases taken
    exact ensureSourceMetadata_sound conversion path sound
  | sync sync order =>
    simp only [step, Option.map_eq_some_iff] at taken
    rcases taken with ⟨⟨written, summary⟩, returned, rfl⟩
    simp only [postProcessDocuments] at returned
    split at returned
    · cases returned
      exact sound
    · split at returned
      · simp only [Option.map_eq_some_iff] at returned
        rcases returned with ⟨⟨after, totals⟩, ran, same⟩
        cases same
        exact (runJobs_spec ran (triageItems_spec sync sound _).sound).2.1
      · cases returned
  | triageRaises sync count =>
    cases taken
    exact (triageItems_spec sync sound _).sound
  | queueRaises sync order =>
    simp only [step] at taken
    split at taken
    · simp only [Option.map_eq_some_iff] at taken
      rcases taken with ⟨after, ran, rfl⟩
      exact (runJobs_spec ran (triageItems_spec sync sound _).sound).2.1
    · cases taken

/-- Every success record of a changed convertible file names the digest of its bytes. -/
def Fresh (tools : Tools Content) (sync : Sync) (workspace : Workspace Content) : Prop :=
  ∀ item ∈ sync.items, inChangedSet sync item = true → convertible sync workspace item = true →
    FreshAt tools workspace item.localPath

/-- A changed convertible file with an outdated success record is no image that only
repeats the bytes of images before it. -/
def NoStaleDuplicate (tools : Tools Content) (sync : Sync) (workspace : Workspace Content) :
    Prop :=
  ∀ item ∈ sync.items, inChangedSet sync item = true → convertible sync workspace item = true →
    ¬ FreshAt tools workspace item.localPath →
      Examined tools sync workspace (conversionCandidates sync workspace) item.localPath

theorem convertible_enabled (eligible : convertible sync workspace item = true) :
    conversionEnabled sync.conversion = true := by
  simp only [convertible, isConvertible, Bool.and_eq_true, Bool.or_eq_true] at eligible
  simp only [conversionEnabled, Bool.or_eq_true]
  rcases eligible.2 with document | image
  · exact .inl (.inl document.1)
  · exact .inl (.inr image.1)

theorem convertible_files (files : after.files = before.files) (item : Item) :
    convertible sync after item = convertible sync before item := by
  rw [convertible, convertible, files]

theorem postProcess_records {order : List (Item × ConverterOutcome)} {next : Workspace Content}
    {summary : Summary} (sound : Sound tools workspace)
    (enabled : conversionEnabled sync.conversion = true)
    (returned : postProcessDocuments tools sync order workspace = some (next, summary)) :
    next.files = workspace.files ∧ ∀ path,
      (FreshAt tools workspace path ∨
          Examined tools sync workspace (conversionCandidates sync workspace) path →
        FreshAt tools next path) ∧
      (¬ Examined tools sync workspace (conversionCandidates sync workspace) path →
        next.metas path = workspace.metas path) := by
  have triaged := triageItems_spec sync sound (conversionCandidates sync workspace)
  simp only [postProcessDocuments, enabled, Bool.not_true, Bool.false_eq_true, if_false] at returned
  generalize triageItems tools sync workspace (conversionCandidates sync workspace) = triage
    at triaged returned
  split at returned
  · rename_i complete
    simp only [Option.map_eq_some_iff] at returned
    rcases returned with ⟨⟨after, totals⟩, ran, same⟩
    cases same
    rcases runJobs_spec ran triaged.sound with ⟨files, _, paths⟩
    have perm := ((isPerm_iff.mp complete).map (·.localPath))
    rw [map_map] at perm
    refine ⟨files.trans triaged.seen.files, ?_⟩
    intro path
    constructor
    · intro either
      apply (paths path).2
      rcases either with fresh | examined
      · exact .inr ((triaged.records path).2 fresh)
      · exact (triaged.examined path examined).imp perm.mem_iff.mpr id
    · intro none
      have outside : path ∉ order.map (·.1.localPath) :=
        fun listed => triaged.skipped path none (perm.mem_iff.mp listed)
      exact ((paths path).1 outside).trans ((triaged.records path).1 none)
  · cases returned

/-- After every run, a call that returns leaves fresh success records on all changed
convertible files if and only if no outdated one belongs to a skipped duplicate. -/
theorem success_records_fresh (tools : Tools Content) {actions : List (Action Content)}
    {workspace next : Workspace Content} {sync : Sync} {order : List (Item × ConverterOutcome)}
    {summary : Summary} (run : Steps (step tools) Any (.empty Content) actions workspace)
    (returned : postProcessDocuments tools sync order workspace = some (next, summary)) :
    Fresh tools sync next ↔ NoStaleDuplicate tools sync workspace := by
  have initial : Sound tools (.empty Content) := by rintro _ _ ⟨⟩
  have sound : Sound tools workspace :=
    run.invariant (Sound tools) (fun _ _ _ sound _ taken => step_sound sound taken) initial
  constructor
  · intro fresh item member changed eligible stale
    have enabled := convertible_enabled eligible
    rcases postProcess_records sound enabled returned with ⟨files, paths⟩
    by_contra none
    have kept := (paths item.localPath).2 none
    apply stale
    rw [← FreshAt.congr files kept]
    exact fresh item member changed ((convertible_files files item).trans eligible)
  · intro condition item member changed eligible
    have enabled := convertible_enabled eligible
    rcases postProcess_records sound enabled returned with ⟨files, paths⟩
    rw [convertible_files files] at eligible
    apply (paths item.localPath).1
    by_cases fresh : FreshAt tools workspace item.localPath
    · exact .inl fresh
    · exact .inr (condition item member changed eligible fresh)

def textTools : Tools String where
  sourceSha256 := id
  size := String.length
  pageCount := fun _ => 0
  hash := (·.sourceSha256)
  collisionFree := fun _ _ same => same

def firstImage : LocalPath := ['a', '.', 'p', 'n', 'g']
def secondImage : LocalPath := ['b', '.', 'p', 'n', 'g']

def imageSync : Sync where
  items := [{ localPath := firstImage }, { localPath := secondImage }]
  changedPaths := some [firstImage, secondImage]
  conversion := { image := true, visionModelRef := "vision" }
  force := false
  visionConfigured := true
  foreign := fun _ => false

def imageActions : List (Action String) :=
  [.writeFile firstImage ⟨"one", "t0"⟩, .writeFile secondImage ⟨"two", "t0"⟩,
    .sync imageSync
      [({ localPath := firstImage }, .text ""), ({ localPath := secondImage }, .text "")],
    .writeFile firstImage ⟨"three", "t1"⟩, .writeFile secondImage ⟨"three", "t1"⟩]

def lastOrder : List (Item × ConverterOutcome) := [({ localPath := firstImage }, .text "")]

def keepsOldRecord (workspace : Workspace String) : Bool :=
  (workspace.metas secondImage).any fun record =>
    decide (record.status = .success ∧ record.sourceSha256 = "two" ∧
      digestAt textTools workspace secondImage = "three")

theorem images_returned :
    ∃ workspace next summary, exec (step textTools) (.empty String) imageActions = some workspace ∧
      postProcessDocuments textTools imageSync lastOrder workspace =
        some (next, summary) ∧ keepsOldRecord next = true := by
  have executed : (exec (step textTools) (.empty String) imageActions).any (fun workspace =>
      (postProcessDocuments textTools imageSync lastOrder workspace).any
        fun result => keepsOldRecord result.1) = true := by
    decide +kernel
  rcases (Option.any_eq_true _ _).mp executed with ⟨workspace, reached, rest⟩
  rcases (Option.any_eq_true _ _).mp rest with ⟨⟨next, summary⟩, returned, kept⟩
  exact ⟨workspace, next, summary, reached, returned, kept⟩

theorem outdated_of_keepsOldRecord {workspace : Workspace String}
    (kept : keepsOldRecord workspace = true) : ¬ Fresh textTools imageSync workspace := by
  intro fresh
  rcases (Option.any_eq_true _ _).mp kept with ⟨record, found, old⟩
  rcases of_decide_eq_true old with ⟨success, named, bytes⟩
  have file : (workspace.files secondImage).isSome = true := by
    cases present : workspace.files secondImage with
    | some file => rfl
    | none =>
      rw [digestAt, present] at bytes
      simp at bytes
  have eligible : convertible imageSync workspace { localPath := secondImage } = true := by
    simp only [convertible, file]
    decide
  have digest := fresh { localPath := secondImage } (by decide) (by decide) eligible record found
    success
  rw [named, bytes] at digest
  revert digest
  decide

theorem success_records_fresh_images :
    ∃ workspace, exec (step textTools) (.empty String) imageActions = some workspace ∧
      ¬ NoStaleDuplicate textTools imageSync workspace := by
  rcases images_returned with ⟨workspace, next, summary, reached, returned, kept⟩
  refine ⟨workspace, reached, ?_⟩
  rw [← success_records_fresh textTools (exec_steps reached) returned]
  exact outdated_of_keepsOldRecord kept

/-- A changed image that is skipped as a duplicate keeps its old success record. -/
theorem duplicate_keeps_old_record :
    ¬ ∀ (workspace next : Workspace String) (order : List (Item × ConverterOutcome))
        (summary : Summary), Reachable (step textTools) (.empty String) workspace →
      postProcessDocuments textTools imageSync order workspace = some (next, summary) →
      Fresh textTools imageSync next := by
  intro always
  rcases images_returned with ⟨workspace, next, summary, reached, returned, kept⟩
  exact outdated_of_keepsOldRecord kept
    (always workspace next lastOrder summary (exec_reachable reached) returned)

end SourceLens.DocumentConvert
