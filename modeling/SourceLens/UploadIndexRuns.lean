import SourceLens.UploadEffects

/-! Runs of uploads and deletions on one datasource: the index names only what is stored. -/

namespace SourceLens.UploadArchive

open List Bool
open PosixPath (Name Path)
open FileTree
open PathRules (safeFilename)
open Transition

variable {site : Site} {after before : Workspace} {state : IndexState} {name filename : Name}
  {blob : Blob} {digest : List Char} {entry : IndexEntry} {root : Path} {call : UploadCall}
  {index : UploadIndex} {version : Int} {codecs : NameCodecs} {reached : Reached}
  {fault : Option Fault}

def Lists (index : UploadIndex) (digest : List Char) (entry : IndexEntry) : Prop :=
  ∃ entries, (digest, entries) ∈ index.entries ∧ entry ∈ entries

theorem keepEntries_some {keep : IndexEntry → Bool} {entries kept : List IndexEntry}
    (held : keepEntries keep entries = some kept) : kept = entries.filter keep := by
  unfold keepEntries at held
  dsimp only at held
  split at held
  · cases held
  · exact (Option.some.inj held).symm

theorem lists_remove (listed : Lists (removeUploadIndex filename version index) digest entry) :
    Lists index digest entry := by
  rcases listed with ⟨entries, member, inside⟩
  rcases OrderedDict.mem_filterMapValues.mp member with ⟨old, before, kept⟩
  rw [keepEntries_some kept] at inside
  exact ⟨old, before, mem_of_mem_filter inside⟩

theorem lists_record {sha256 : List Char} {target : Path}
    (below : PosixPath.resolve root <+: PosixPath.resolve target) (filled : lowered sha256 ≠ [])
    (relative : List Char)
    (named : PosixPath.asPosix ((PosixPath.resolve target).drop (PosixPath.resolve root).length) =
      relative)
    (listed : Lists (recordUploadIndex root sha256 filename version target index) digest entry) :
    (digest = lowered sha256 ∧ entry.path = relative) ∨
      (Lists index digest entry ∧ entry.path ≠ relative) := by
  rcases listed with ⟨entries, member, inside⟩
  rw [recordUploadIndex, if_neg filled, if_pos below] at member
  dsimp only at member
  rw [named] at member
  rcases OrderedDict.mem_filterMapValues.mp member with ⟨old, before, kept⟩
  rw [OrderedDict.mem_set] at before
  split at kept
  · rename_i same
    rcases before with recorded | ⟨_, other⟩
    · cases recorded
      cases kept
      rcases mem_append.mp inside with earlier | new
      · right
        have filtered := mem_filter.mp earlier
        cases found : index.get? (lowered sha256) with
        | none => simp [found] at filtered
        | some entries =>
          rw [found] at filtered
          exact ⟨⟨entries, OrderedDict.mem_of_get? found, filtered.1⟩, by simpa using filtered.2⟩
      · left
        cases mem_singleton.mp new
        exact ⟨rfl, rfl⟩
    · exact absurd same other
  · rename_i other
    rcases before with recorded | ⟨earlier, _⟩
    · exact absurd (Prod.mk.inj recorded).1 other
    · right
      rw [keepEntries_some kept] at inside
      have filtered := mem_filter.mp inside
      exact ⟨⟨old, earlier, filtered.1⟩, by simpa using filtered.2⟩

theorem mem_listedAt (listed : Lists index digest entry) (path : entry.path = name) :
    digest ∈ listedAt index name := by
  rcases listed with ⟨entries, member, inside⟩
  refine mem_map.mpr ⟨(digest, entries), mem_filter.mpr ⟨member, ?_⟩, rfl⟩
  exact any_eq_true.mpr ⟨entry, inside, decide_eq_true path⟩

theorem listedAt_nil (unlisted : listedAt index name = []) (listed : Lists index digest entry) :
    entry.path ≠ name := by
  intro path
  have member := mem_listedAt listed path
  rw [unlisted] at member
  cases member

def Vouched (site : Site) (uploads : List UploadCall) (workspace : Workspace) (digest : List Char)
    (name : Name) : Prop :=
  ∃ call ∈ uploads, ∃ blob, call.command.blob = some blob ∧
    lowered (uploadDigest site call blob) = digest ∧ call.place = name ∧
    call.named site.codecs = true ∧ Holds site workspace call blob

structure EntrySound (site : Site) (uploads : List UploadCall) (workspace : Workspace)
    (digest : List Char) (entry : IndexEntry) : Prop where
  visible : Visible entry.path
  noSlash : '/' ∉ entry.path
  named : isGenerated [entry.path] = false
  vouched : present workspace (site.root ++ [entry.path]) = true →
    Vouched site uploads workspace digest entry.path

def IndexSound (site : Site) (state : IndexState) : Prop :=
  ∀ digest entry, Lists state.datasource.index digest entry →
    EntrySound site state.uploads state.datasource.workspace digest entry

structure KeepsName (root : Path) (name : Name) (before after : Workspace) : Prop where
  there : present after (root ++ [name]) = true → present before (root ++ [name]) = true
  files : present after (root ++ [name]) = true → ∀ rest content,
    isGenerated (name :: rest) = false → before (root ++ name :: rest) = some (.file content) →
    after (root ++ name :: rest) = some (.file content)

theorem KeepsName.of_eq (same : ∀ rest, isGenerated (name :: rest) = false →
      after (root ++ name :: rest) = before (root ++ name :: rest))
    (named : isGenerated [name] = false) : KeepsName root name before after where
  there := by
    intro still
    rwa [present, same [] named] at still
  files := fun _ rest content plain held => (same rest plain).trans held

theorem KeepsName.trans {middle : Workspace} (first : KeepsName root name before middle)
    (second : KeepsName root name middle after) : KeepsName root name before after where
  there := fun still => first.there (second.there still)
  files := fun still rest content plain held => second.files still rest content plain
    (first.files (second.there still) rest content plain held)

theorem isGenerated_cons (name : Name) (rest : Path) :
    isGenerated (name :: rest) = false ↔ isGenerated [name] = false ∧ isGenerated rest = false := by
  simp [isGenerated]

theorem named_parts (named : call.named codecs = true) (found : call.command.blob = some blob) :
    isGenerated [call.place] = false ∧ ∀ entry ∈ uploadEntries codecs call.filename blob,
      isGenerated (memberParts entry.name) = false := by
  rw [UploadCall.named, and_eq_true, not_eq_true'] at named
  refine ⟨named.1, ?_⟩
  intro entry member
  have same : commandEntries codecs call.command = uploadEntries codecs call.filename blob := by
    rw [commandEntries, found]
    rfl
  have kept := all_eq_true.mp named.2 entry (same ▸ member)
  simpa using kept

theorem Holds.kept (holds : Holds site before call blob) (found : call.command.blob = some blob)
    (named : call.named site.codecs = true) (keeps : KeepsName site.root call.place before after)
    (still : present after (site.root ++ [call.place]) = true) : Holds site after call blob := by
  rcases named_parts named found with ⟨place, members⟩
  constructor
  · intro archive entry member
    rcases holds.members archive entry member with ⟨content, read, file⟩
    exact ⟨content, read, keeps.files still _ content
      ((isGenerated_cons _ _).mpr ⟨place, members entry member⟩) file⟩
  · exact fun plain => keeps.files still [] _ place (holds.file plain)

theorem EntrySound.kept {uploads more : List UploadCall}
    (sound : EntrySound site uploads before digest entry)
    (keeps : KeepsName site.root entry.path before after) :
    EntrySound site (uploads ++ more) after digest entry where
  visible := sound.visible
  noSlash := sound.noSlash
  named := sound.named
  vouched := by
    intro still
    rcases sound.vouched (keeps.there still) with
      ⟨call, member, blob, found, digested, place, named, holds⟩
    refine ⟨call, mem_append_left _ member, blob, found, digested, place, named, ?_⟩
    rw [← place] at keeps still
    exact holds.kept found named keeps still

theorem Sidecars.apply_outside (sidecars : Sidecars root) (workspace : Workspace) (path : Path)
    (plain : isGenerated path = false) :
    sidecars.apply workspace (root ++ path) = workspace (root ++ path) := by
  rcases sidecars with ⟨changes, generated⟩
  unfold Sidecars.apply
  dsimp only
  induction changes generalizing workspace with
  | nil => rfl
  | cons change rest ih =>
    rw [foldl_cons, ih (put workspace (root ++ change.1) change.2)
      fun other member => generated other (mem_cons_of_mem change member)]
    apply put_other
    intro same
    have sidecar := generated change mem_cons_self
    rw [← append_cancel_left same, plain] at sidecar
    cases sidecar

theorem Sidecars.keeps (sidecars : Sidecars root) (workspace : Workspace)
    (named : isGenerated [name] = false) :
    KeepsName root name workspace (sidecars.apply workspace) :=
  .of_eq (fun rest plain => sidecars.apply_outside workspace (name :: rest) plain) named

theorem resolve_indexTarget (site : Site) (call : UploadCall) :
    PosixPath.resolve (indexTarget site.root call.filename) = site.root ++ [call.place] := by
  have target : indexTarget site.root call.filename = site.root ++ [call.place] := by
    unfold indexTarget UploadCall.place
    cases archive : isUploadArchive call.filename with
    | true => rw [if_pos rfl, uploadTarget_archive site.root archive]
    | false =>
      rw [if_neg (by decide), uploadTarget_plain site.root archive, placeName_plain archive]
  rw [target]
  exact PosixPath.resolve_straight _ (call.place_visible.straight site.straight)

theorem uploadDigest_filled (site : Site) (call : UploadCall) (blob : Blob) :
    lowered (uploadDigest site call blob) ≠ [] := by
  unfold uploadDigest
  split
  · exact site.filled blob.bytes
  · rename_i filled
    intro empty
    exact filled (map_eq_nil_iff.mp empty)

theorem lists_uploaded
    (listed : Lists (recordUploadIndex site.root (uploadDigest site call blob) call.filename
      call.version (indexTarget site.root call.filename) index) digest entry) :
    (digest = lowered (uploadDigest site call blob) ∧ entry.path = call.place) ∨
      (Lists index digest entry ∧ entry.path ≠ call.place) := by
  have root := PosixPath.resolve_straight site.root site.straight
  have target := resolve_indexTarget site call
  apply lists_record _ (uploadDigest_filled site call blob) call.place _ listed
  · rw [root, target]
    exact prefix_append _ _
  · rw [root, target, drop_left, asPosix_single]

theorem uploadCall_cases (site : Site) (call : UploadCall) (fault : Option Fault)
    (sidecars : Sidecars site.root) (datasource : Datasource) :
    uploadCall site call fault sidecars datasource = (datasource, .refused) ∨
      ∃ blob, call.command.blob = some blob ∧
        uploadCall site call fault sidecars datasource =
          storeAndRecord site call fault sidecars blob datasource := by
  unfold uploadCall
  split
  · exact Or.inl rfl
  · split
    · exact Or.inl rfl
    · rename_i blob found
      split
      · exact Or.inl rfl
      · exact Or.inr ⟨blob, found, rfl⟩

theorem Effect.vouches {uploads : List UploadCall} (found : call.command.blob = some blob)
    (named : call.named site.codecs = true) (member : call ∈ uploads)
    (effect : Effect site.codecs site.root call.filename blob before after .stored)
    (sidecars : Sidecars site.root) :
    Vouched site uploads (sidecars.apply after) (lowered (uploadDigest site call blob)) call.place := by
  rcases named_parts named found with ⟨place, members⟩
  refine ⟨call, member, blob, found, rfl, rfl, named, ?_⟩
  constructor
  · intro archive entry listed
    rcases effect.members rfl archive entry listed with ⟨content, read, file⟩
    refine ⟨content, read, ?_⟩
    rw [sidecars.apply_outside after _ ((isGenerated_cons _ _).mpr ⟨place, members entry listed⟩)]
    exact file
  · intro plain
    rw [sidecars.apply_outside after _ place, UploadCall.place, placeName_plain plain]
    exact effect.file rfl plain

theorem Effect.keeps_other (effect : Effect codecs root filename blob before after reached)
    (different : name ≠ placeName filename) (visible : Visible name)
    (named : isGenerated [name] = false) : KeepsName root name before after :=
  .of_eq (fun rest _ => effect.beside _ (beside_of_ne different visible rest)) named

theorem Effect.keeps_own (effect : Effect codecs root filename blob before after reached)
    (early : reached = .refused ∨ reached = .staged) (visible : Visible (placeName filename))
    (there : isUploadArchive filename = true → present before (root ++ [placeName filename]) = true) :
    KeepsName root (placeName filename) before after where
  there := by
    intro still
    cases archive : isUploadArchive filename with
    | true => exact there archive
    | false =>
      rw [placeName_plain archive] at still ⊢
      rwa [(effect.staged early).2 archive] at still
  files := fun _ rest content _ held =>
    (effect.staged early).1 _ content (visible.not_staged root rest) held

theorem stored_sound (sidecars : Sidecars site.root) (sound : IndexSound site state)
    (found : call.command.blob = some blob) (named : call.named site.codecs = true)
    (effect : Effect site.codecs site.root call.filename blob state.datasource.workspace after
      .stored) (keeps : keepsIndex site state.datasource call fault .stored = true) :
    IndexSound site ⟨⟨sidecars.apply after,
      if fault = some .unrecorded then state.datasource.index
      else recordUploadIndex site.root (uploadDigest site call blob) call.filename call.version
        (indexTarget site.root call.filename) state.datasource.index⟩, state.uploads ++ [call]⟩ := by
  have fresh : ∀ entry : IndexEntry, entry.path = call.place →
      EntrySound site (state.uploads ++ [call]) (sidecars.apply after)
        (lowered (uploadDigest site call blob)) entry := by
    intro entry path
    refine ⟨path ▸ call.place_visible, path ▸ call.place_no_slash, ?_, ?_⟩
    · rw [path]
      exact (named_parts named found).1
    · intro _
      rw [path]
      exact effect.vouches found named (mem_append_right _ mem_cons_self) sidecars
  have old : ∀ digest entry, Lists state.datasource.index digest entry → entry.path ≠ call.place →
      EntrySound site (state.uploads ++ [call]) (sidecars.apply after) digest entry := by
    intro digest entry listed different
    have before := sound digest entry listed
    exact before.kept ((effect.keeps_other different before.visible before.named).trans
      (sidecars.keeps after before.named))
  intro digest entry listed
  dsimp only at listed ⊢
  split at listed
  · rename_i unrecorded
    by_cases path : entry.path = call.place
    · have under : digest = lowered (uploadDigest site call blob) := by
        simp only [keepsIndex, unrecorded, ne_eq, not_true_eq_false, decide_false,
          Bool.false_or, found, Option.any_some] at keeps
        exact of_decide_eq_true (all_eq_true.mp keeps digest (mem_listedAt listed path))
      rw [under]
      exact fresh entry path
    · exact old digest entry listed path
  · rcases lists_uploaded listed with ⟨rfl, path⟩ | ⟨before, different⟩
    · exact fresh entry path
    · exact old digest entry before different

theorem unstored_sound (sound : IndexSound site state)
    (effect : Effect site.codecs site.root call.filename blob state.datasource.workspace after
      reached) (unstored : reached ≠ .stored)
    (keeps : keepsIndex site state.datasource call fault reached = true) :
    IndexSound site ⟨⟨after, state.datasource.index⟩, state.uploads ++ [call]⟩ := by
  intro digest entry listed
  have before := sound digest entry listed
  apply before.kept
  by_cases path : entry.path = call.place
  · have nonempty : (listedAt state.datasource.index call.place).isEmpty = false := by
      rw [isEmpty_eq_false_iff]
      exact ne_nil_of_mem (mem_listedAt listed path)
    cases reached with
    | stored => exact absurd rfl unstored
    | replacing =>
      rw [keepsIndex, nonempty] at keeps
      cases keeps
    | refused => exact .of_eq (fun _ _ => by rw [effect.refused rfl]) before.named
    | staged =>
      rw [path]
      apply effect.keeps_own (Or.inr rfl) call.place_visible
      intro archive
      rw [keepsIndex, nonempty, Bool.or_false, archive] at keeps
      exact keeps
  · exact effect.keeps_other path before.visible before.named

theorem upload_sound {sidecars : Sidecars site.root} (sound : IndexSound site state)
    (orderly : Orderly site state (.upload call fault sidecars)) :
    IndexSound site ⟨(uploadCall site call fault sidecars state.datasource).1,
      state.uploads ++ [call]⟩ := by
  rcases orderly with ⟨named, inside, keeps⟩
  rcases uploadCall_cases site call fault sidecars state.datasource with
    refused | ⟨blob, found, outcome⟩
  · rw [refused]
    intro digest entry listed
    have before := sound digest entry listed
    exact before.kept (.of_eq (fun _ _ => rfl) before.named)
  · have effect := storeCall_effect state.datasource.workspace call.command.limits fault
       call.filename_visible site.straight (named_parts named found).2 inside
    rw [outcome, storeAndRecord] at keeps ⊢
    generalize storeCall site.codecs site.root call.filename call.command.limits blob
      state.datasource.workspace fault = result at effect keeps ⊢
    rcases result with ⟨after, reached⟩
    by_cases stored : reached = .stored
    · subst stored
      exact stored_sound sidecars sound found named effect keeps
    · simp only [if_neg stored] at keeps ⊢
      exact unstored_sound sound effect stored keeps

theorem removeDirectories_other (root : Path) (names : List Name) (workspace : Workspace)
    (unlisted : name ∉ names) (rest : Path) :
    (removeDirectories root names workspace).1 (root ++ name :: rest) =
      workspace (root ++ name :: rest) := by
  induction names generalizing workspace with
  | nil => rfl
  | cons head others ih =>
    have apart : head ≠ name := fun same => unlisted (same ▸ mem_cons_self)
    have later := fun tree => ih tree fun member => unlisted (mem_cons_of_mem head member)
    rw [removeDirectories]
    split
    · exact (later _).trans (rmtree_outside _ _ _ (branch_apart apart root [] rest))
    · exact later workspace

theorem removeDirectories_absent (root : Path) (names : List Name) (workspace : Workspace)
    (path : Path) (absent : workspace path = none) :
    (removeDirectories root names workspace).1 path = none := by
  induction names generalizing workspace with
  | nil => exact absent
  | cons head others ih =>
    rw [removeDirectories]
    split
    · apply ih
      unfold rmtree
      split
      · rfl
      · exact absent
    · exact ih workspace absent

theorem removeDirectories_keeps (root : Path) (names : List Name) (workspace : Workspace)
    (still : present (removeDirectories root names workspace).1 (root ++ [name]) = true)
    (rest : Path) : (removeDirectories root names workspace).1 (root ++ name :: rest) =
      workspace (root ++ name :: rest) := by
  induction names generalizing workspace with
  | nil => rfl
  | cons head others ih =>
    rw [removeDirectories] at still ⊢
    split
    · rename_i directory
      rw [if_pos directory] at still
      have apart : head ≠ name := by
        rintro rfl
        have gone : rmtree workspace (root ++ [head]) (root ++ [head]) = none := by
          simp [rmtree]
        rw [present, removeDirectories_absent root others _ _ gone] at still
        cases still
      exact (ih _ still).trans (rmtree_outside _ _ _ (branch_apart apart root [] rest))
    · rename_i missing
      rw [if_neg missing] at still
      exact ih workspace still

theorem removeSidecar_other (root : Path) (name : Name) (workspace : Workspace) {other : Name}
    (different : other ≠ sidecarName name) (rest : Path) :
    removeSidecar root name workspace (root ++ other :: rest) = workspace (root ++ other :: rest) := by
  unfold removeSidecar
  split
  · exact rmtree_outside _ _ _ (branch_apart different.symm root [] rest)
  · rfl

theorem sidecarName_generated (name : Name) : isGenerated [sidecarName name] = true := by
  have ends : endsWith ".sourcelens".toList (sidecarName name) = true := by
    rw [endsWith, sidecarName, reverse_append, isPrefixOf_iff_prefix]
    exact prefix_append _ _
  rw [isGenerated, any_cons, ends, Bool.true_or]

theorem IndexSound.delete (sound : IndexSound site state) (datasource : Datasource)
    (fewer : ∀ digest entry, Lists datasource.index digest entry →
      Lists state.datasource.index digest entry)
    (keeps : ∀ digest entry, Lists state.datasource.index digest entry →
      EntrySound site state.uploads state.datasource.workspace digest entry →
      KeepsName site.root entry.path state.datasource.workspace datasource.workspace) :
    IndexSound site { state with datasource := datasource } := by
  intro digest entry listed
  have before := sound digest entry (fewer digest entry listed)
  have after : EntrySound site (state.uploads ++ []) datasource.workspace digest entry :=
    before.kept (keeps digest entry (fewer digest entry listed) before)
  rwa [append_nil] at after

theorem lists_remaining {filename : List Char} {fault : Option DeleteFault}
    (listed : Lists (remainingIndex filename version fault index) digest entry) :
    Lists index digest entry := by
  cases fault with
  | none => exact lists_remove listed
  | some _ => exact listed

theorem removedDirectories_sound (sound : IndexSound site state) (filename : List Char)
    (version : Int) (fault : Option DeleteFault) (names : List Name) : IndexSound site { state with
      datasource := ⟨(removeDirectories site.root names state.datasource.workspace).1,
        if (removeDirectories site.root names state.datasource.workspace).2 then
          remainingIndex filename version fault state.datasource.index
        else state.datasource.index⟩ } := by
  apply sound.delete
  · intro digest entry listed
    dsimp only at listed
    split at listed
    · exact lists_remaining listed
    · exact listed
  · intro digest entry listed before
    constructor
    · intro still
      have same := removeDirectories_keeps site.root names _ still []
      exact (congrArg Option.isSome same).symm.trans still
    · intro still rest content _ held
      exact (removeDirectories_keeps site.root names _ still rest).trans held

theorem partlyRemoved_sound (sound : IndexSound site state) (names : List Name)
    (unlisted : ∀ name ∈ names, listedAt state.datasource.index name = []) (skip : Nat)
    (left : Path → Bool) : IndexSound site { state with
      datasource := { state.datasource with
        workspace := names[skip]?.elim
          (removeDirectories site.root (names.take skip) state.datasource.workspace).1 fun name =>
          rmtreePartly (removeDirectories site.root (names.take skip) state.datasource.workspace).1
            (site.root ++ [name]) left } } := by
  apply sound.delete
  · exact fun _ _ => id
  · intro digest entry listed before
    have other : entry.path ∉ names := fun member =>
      listedAt_nil (unlisted entry.path member) listed rfl
    apply KeepsName.of_eq _ before.named
    intro rest _
    have cleared := removeDirectories_other site.root (names.take skip) state.datasource.workspace
      (fun member => other (mem_of_mem_take member)) rest
    dsimp only
    cases reached : names[skip]? with
    | none => exact cleared
    | some name =>
      have apart : name ≠ entry.path := fun same => other (same ▸ mem_of_getElem? reached)
      rw [Option.elim_some, rmtreePartly,
        if_neg fun below => branch_apart apart site.root [] rest below.1]
      exact cleared

theorem removedFile_sound (sound : IndexSound site state) (name : Name) (index : UploadIndex)
    (fewer : ∀ digest entry, Lists index digest entry → Lists state.datasource.index digest entry) :
    IndexSound site { state with
      datasource := ⟨removeSidecar site.root name
        (unlink state.datasource.workspace (site.root ++ [name])), index⟩ } := by
  apply sound.delete _ fewer
  intro digest entry listed before
  have notSidecar : entry.path ≠ sidecarName name := by
    intro same
    have generated := sidecarName_generated name
    rw [← same, before.named] at generated
    cases generated
  have after := removeSidecar_other site.root name
    (unlink state.datasource.workspace (site.root ++ [name])) notSidecar
  by_cases own : entry.path = name
  · have gone : present (removeSidecar site.root name
        (unlink state.datasource.workspace (site.root ++ [name]))) (site.root ++ [entry.path]) =
          false := by
      rw [present, after, own, unlink, put_self]
      rfl
    constructor
    · intro still
      exact absurd (gone.symm.trans still) (by decide)
    · intro still
      exact absurd (gone.symm.trans still) (by decide)
  · apply KeepsName.of_eq _ before.named
    intro rest _
    exact (after rest).trans (put_other _ _ _ _ (branch_ne own site.root rest []))

theorem delete_sound {call : DeleteCall} {fault : Option DeleteFault}
    (sound : IndexSound site state) (orderly : Orderly site state (.delete call fault)) :
    IndexSound site { state with
      datasource := deleteDatasourceUpload site.root call fault state.datasource } := by
  unfold deleteDatasourceUpload
  dsimp only
  split
  · exact sound
  · split
    · unfold deleteArchive
      dsimp only
      split
      · exact partlyRemoved_sound sound _ orderly _ _
      · exact removedDirectories_sound sound _ _ _ _
    · unfold deleteFile
      dsimp only
      split
      · exact sound
      · split
        · exact removedFile_sound sound _ _ fun _ _ => lists_remaining
        · exact sound

theorem IndexSound.truthful (sound : IndexSound site state) : Truthful site state := by
  intro sha256 entry found
  unfold findDuplicateUpload at found
  split at found
  · cases found
  · have duplicate := List.find?_some found
    have member := mem_reverse.mp (mem_of_find?_eq_some found)
    cases held : state.datasource.index.get? (lowered sha256) with
    | none => simp [held] at member
    | some entries =>
      rw [held, Option.getD_some] at member
      have before := sound _ entry ⟨entries, OrderedDict.mem_of_get? held, member⟩
      simp only [isDuplicate, and_eq_true] at duplicate
      rw [resolve_join_visible site.straight before.visible before.noSlash] at duplicate
      rcases before.vouched duplicate.2 with ⟨call, made, blob, blobbed, digested, place, _, holds⟩
      exact ⟨call, made, blob, blobbed, digested, by rw [asPosix_single, place], holds⟩

/-- In every sequence of calls that keep the index, an entry is found only where the upload
of its digest is stored. -/
theorem index_names_stored (site : Site) (workspace : Workspace)
    (actions : List (IndexAction site.root)) (state : IndexState)
    (run : Steps (indexStep site) (Orderly site) (.new workspace) actions state) :
    Truthful site state := by
  refine (run.invariant (IndexSound site) ?_ ?_).truthful
  · intro state action next sound orderly taken
    cases action with
    | upload call fault sidecars =>
      cases taken
      exact upload_sound sound orderly
    | delete call fault =>
      cases taken
      exact delete_sound sound orderly
  · intro digest entry listed
    rcases listed with ⟨entries, member, _⟩
    cases member

def sampleSite : Site where
  workspacePath := ["srv".toList]
  datasourceUuid := sampleUuid
  codecs := plainCodecs
  sourceSha256 := fun _ => ['0']
  filled := fun _ => by decide

def sampleFile (text sha256 : String) : UploadCall where
  command :=
    { sourceType := "upload".toList
      filename := "plan.txt".toList
      blob := some ⟨.utf8 text.toList, 3, none, none⟩
      limits := ⟨none, none, none⟩ }
  sha256 := sha256.toList
  version := 1

def noSidecars : Sidecars sampleSite.root := ⟨[], nofun⟩

/-- A file, an archive, the file deleted and uploaded again with other content. -/
def sampleCalls : List (IndexAction sampleSite.root) :=
  [.upload (sampleFile "one" "d1") none noSidecars,
    .upload ⟨sampleUpload "docs/a.txt", "d2".toList, 1⟩ none noSidecars,
    .delete ⟨"plan.txt".toList, 1⟩ none,
    .upload (sampleFile "two" "d3") none noSidecars]

theorem index_names_stored_run :
    ∃ state, execGuarded (indexStep sampleSite) (Orderly sampleSite) (.new fun _ => none)
        sampleCalls = some state ∧
      (findDuplicateUpload sampleSite.root "d1".toList state.datasource).isSome = false ∧
      (findDuplicateUpload sampleSite.root "d2".toList state.datasource).isSome = true ∧
      Truthful sampleSite state := by
  have executed : (execGuarded (indexStep sampleSite) (Orderly sampleSite) (.new fun _ => none)
      sampleCalls).any (fun state =>
        !(findDuplicateUpload sampleSite.root "d1".toList state.datasource).isSome &&
          (findDuplicateUpload sampleSite.root "d2".toList state.datasource).isSome) = true := by
    decide +kernel
  rcases (Option.any_eq_true _ _).mp executed with ⟨state, reached, found⟩
  rw [and_eq_true, not_eq_true'] at found
  exact ⟨state, reached, found.1, found.2,
    index_names_stored sampleSite _ sampleCalls state (execGuarded_steps reached)⟩

/-- The second file replaces the first, and its conversion raises. -/
def staleCalls : List (IndexAction sampleSite.root) :=
  [.upload (sampleFile "one" "d1") none noSidecars,
    .upload (sampleFile "two" "d2") (some .unrecorded) noSidecars]

theorem failed_conversion_keeps_entry :
    ¬ ∀ actions state, Steps (indexStep sampleSite) Any (.new fun _ => none) actions state →
      Truthful sampleSite state := by
  intro always
  have executed : (exec (indexStep sampleSite) (.new fun _ => none) staleCalls).any (fun state =>
      (findDuplicateUpload sampleSite.root "d1".toList state.datasource).isSome &&
        decide (state.uploads = [sampleFile "one" "d1", sampleFile "two" "d2"]) &&
        decide (state.datasource.workspace (sampleSite.root ++ ["plan.txt".toList]) =
          some (.file (.utf8 "two".toList)))) = true := by decide +kernel
  rcases (Option.any_eq_true _ _).mp executed with ⟨state, reached, shape⟩
  simp only [and_eq_true, decide_eq_true_eq] at shape
  rcases shape with ⟨⟨found, uploads⟩, stored⟩
  rcases Option.isSome_iff_exists.mp found with ⟨entry, duplicate⟩
  rcases always staleCalls state (exec_steps reached) "d1".toList entry duplicate with
    ⟨call, member, blob, blobbed, digested, _, holds⟩
  rw [uploads] at member
  rcases mem_cons.mp member with rfl | later
  · cases blobbed
    have file := holds.file (by decide)
    rw [show (sampleFile "one" "d1").place = "plan.txt".toList from by decide, stored] at file
    exact absurd file (by decide)
  · cases mem_singleton.mp later
    cases blobbed
    exact absurd digested (by decide)

end SourceLens.UploadArchive
