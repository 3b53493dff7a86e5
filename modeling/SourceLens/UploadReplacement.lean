import SourceLens.UploadArchive

/-! The list of uploaded members a second upload reads back, and the files it
removes because of it. -/

namespace SourceLens.UploadArchive

open PosixPath (Name Path Plain)
open FileTree List
open PathRules (safeFilename)
open TextLines (Unbroken)

variable (codecs : NameCodecs) (root : Path)

def memberParts (name : List Char) : Path := PosixPath.parts (normalizedName name)

theorem archiveMemberPath_ok (path : Path) (name : List Char)
    (straight : ['.', '.'] ∉ root) (accepted : archiveMemberPath root name = .ok path) :
    path = root ++ memberParts name ∧ Plain (memberParts name) := by
  unfold archiveMemberPath at accepted
  dsimp only at accepted
  change (if _ || (memberParts name).any isInvalidPart then _ else _) = _ at accepted
  split at accepted
  · exact absurd accepted (by simp)
  · rename_i valid
    split at accepted
    · exact absurd accepted (by simp)
    · split at accepted
      · have named := PosixPath.parts_named (normalizedName name)
        have noDots : ['.', '.'] ∉ memberParts name := by
          intro member
          apply valid
          rw [Bool.or_eq_true]
          exact Or.inr (any_eq_true.mpr ⟨_, member, by decide⟩)
        have whole : ['.', '.'] ∉ root ++ memberParts name := by
          intro member
          rcases mem_append.mp member with inRoot | inMember
          · exact straight inRoot
          · exact noDots inMember
        constructor
        · rw [← Except.ok.inj accepted]
          exact PosixPath.resolve_straight _ whole
        · exact ⟨named, noDots⟩
      · exact absurd accepted (by simp)

theorem extractEntry_ok (path : Path) (entry : Entry) (staged written : Workspace)
    (done : extractEntry root entry staged = .ok (path, written)) :
    archiveMemberPath root entry.name = .ok path ∧ present staged path = false ∧
      ∃ made content, mkdirs staged path.dropLast = .ok made ∧
        writeFile made path content = .ok written := by
  unfold extractEntry at done
  split at done
  · exact absurd done (by simp)
  · rename_i place accepted
    split at done
    · exact absurd done (by simp)
    · rename_i vacant
      split at done
      · exact absurd done (by simp)
      · exact absurd done (by simp)
      · rename_i made content created _
        split at done
        · exact absurd done (by simp)
        · rename_i attempt
          cases done
          exact ⟨accepted, by simpa using vacant, made, content, created, attempt⟩

theorem extractEntry_lands {root path : Path} {entry : Entry} {staged written : Workspace}
    (straight : ['.', '.'] ∉ root) (there : present staged root = true)
    (done : extractEntry root entry staged = .ok (path, written)) :
    path = root ++ memberParts entry.name ∧ Plain (memberParts entry.name) ∧
      memberParts entry.name ≠ [] ∧ present written root = true ∧
      ∀ place, ¬ root <+: place → ¬ place <+: root → written place = staged place := by
  rcases extractEntry_ok root path entry staged written done with
    ⟨accepted, vacant, made, content, created, stored⟩
  rcases archiveMemberPath_ok root path entry.name straight accepted with ⟨rfl, below⟩
  have still : present written root = true := by
    apply writeFile_still made written _ root content _ stored
    exact mkdirs_still staged made _ root there created
  have filled : memberParts entry.name ≠ [] := by
    intro empty
    rw [empty, append_nil, there] at vacant
    exact absurd vacant (by decide)
  refine ⟨rfl, below, filled, still, ?_⟩
  intro place notBelow notAbove
  have apart : place ≠ root ++ memberParts entry.name := by
    intro same
    exact notBelow (same ▸ prefix_append _ _)
  rw [writeFile_outside made written _ place content apart stored]
  apply mkdirs_outside staged made _ place _ created
  intro above
  rw [dropLast_append_of_ne_nil filled] at above
  rcases prefix_or_prefix_of_prefix above (prefix_append root _) with up | down
  · exact notAbove up
  · exact notBelow down

theorem extractEntries_ok (maxBytes maxFiles : Nat) (root : Path) (entries : List Entry)
    (extractedBytes : Nat) (before extracted : List Path) (staged unpacked : Workspace)
    (straight : ['.', '.'] ∉ root) (there : present staged root = true)
    (done : extractEntries maxBytes maxFiles root entries extractedBytes before staged =
      .ok (extracted, unpacked)) :
    extracted = before ++ entries.map (fun entry => root ++ memberParts entry.name) ∧
      (∀ entry ∈ entries, Plain (memberParts entry.name) ∧ memberParts entry.name ≠ []) ∧
      ∀ place, ¬ root <+: place → ¬ place <+: root → unpacked place = staged place := by
  induction entries generalizing extractedBytes before staged with
  | nil =>
    simp only [extractEntries, Except.ok.injEq, Prod.mk.injEq] at done
    rcases done with ⟨rfl, rfl⟩
    simp
  | cons entry rest ih =>
    rw [extractEntries] at done
    split at done
    · exact absurd done (by simp)
    · split at done
      · exact absurd done (by simp)
      · split at done
        · exact absurd done (by simp)
        · rename_i path written landed
          rcases extractEntry_lands straight there landed with
            ⟨rfl, below, filled, still, untouched⟩
          rcases ih _ _ _ still done with ⟨listed, others, outside⟩
          refine ⟨?_, ?_, ?_⟩
          · rw [listed, map_cons, append_assoc, singleton_append]
          · intro other member
            rcases mem_cons.mp member with rfl | later
            · exact ⟨below, filled⟩
            · exact others other later
          · intro place notBelow notAbove
            rw [outside place notBelow notAbove, untouched place notBelow notAbove]

theorem unbroken_normalizedName (name : List Char) :
    Unbroken (normalizedName name) ↔ Unbroken name := by
  have same : ∀ c, PyText.isLineBreak (if c = '\\' then '/' else c) = PyText.isLineBreak c := by
    intro c
    split
    · rename_i backslash
      subst backslash
      decide
    · rfl
  simp [Unbroken, normalizedName, same]

theorem unbroken_parts (text : List Char) :
    (∀ part ∈ PosixPath.parts text, Unbroken part) ↔ Unbroken text := by
  have pieces := TextLines.unbroken_intercalate '/' (by decide) (text.splitOn '/')
  rw [intercalate_splitOn] at pieces
  rw [pieces]
  constructor
  · intro kept part member
    by_cases trivial : part = [] ∨ part = ['.']
    · rcases trivial with rfl | rfl <;> decide
    · apply kept part
      rw [not_or] at trivial
      exact mem_filter.mpr ⟨member, by simp [trivial.1, trivial.2]⟩
  · intro all part member
    exact all part (mem_filter.mp member).1

theorem unbroken_asPosix (path : Path) :
    Unbroken (PosixPath.asPosix path) ↔ ∀ part ∈ path, Unbroken part := by
  unfold PosixPath.asPosix
  split
  · rename_i empty
    subst empty
    simp only [not_mem_nil, false_implies, implies_true, iff_true]
    decide
  · exact TextLines.unbroken_intercalate '/' (by decide) path

theorem unbroken_member (name : List Char) :
    Unbroken (PosixPath.asPosix (memberParts name)) ↔ Unbroken name := by
  calc
    Unbroken (PosixPath.asPosix (memberParts name))
      ↔ ∀ part ∈ memberParts name, Unbroken part := unbroken_asPosix _
    _ ↔ Unbroken (normalizedName name) := unbroken_parts _
    _ ↔ Unbroken name := unbroken_normalizedName name

def markerOf (target : Path) : Path := target ++ [markerName]

def uploadEntries (codecs : NameCodecs) (filename : Name) (blob : Blob) : List Entry :=
  if endsWith ".zip".toList (lowered filename) then zipEntries codecs (blob.zip.getD [])
  else tarEntries (blob.tar.getD [])

variable (command : UploadCommand) (filename : Name) (limits : UploadLimits) (workspace : Workspace)

theorem extractUpload_ok (filename : Name)
    (blob : Blob) (staging : Path) (staged unpacked : Workspace) (extracted : List Path)
    (done : extractUpload codecs limits filename blob staging staged = .ok (extracted, unpacked)) :
    extractArchive limits staging (uploadEntries codecs filename blob) staged =
      .ok (extracted, unpacked) := by
  unfold extractUpload at done
  unfold uploadEntries
  split at done
  · rename_i zip
    rw [if_pos zip]
    split at done
    · exact absurd done (by simp)
    · rename_i infos found
      rw [found]
      exact done
  · rename_i tar
    rw [if_neg tar]
    split at done
    · exact absurd done (by simp)
    · rename_i members found
      rw [found]
      exact done

theorem stageUpload_ok (target : Path) (filename : Name) (blob : Blob)
    (workspace staged : Workspace)
    (done : stageUpload root target filename blob workspace = .ok staged) :
    present staged (stagingOf root) = true ∧
      ∀ place, ¬ stagingOf root <+: place → ¬ place <+: stagingOf root → ¬ place <+: target →
        staged place = workspace place := by
  unfold stageUpload at done
  cases first : mkdirs workspace target with
  | error failure => simp [first, bind, Except.bind] at done
  | ok made =>
    cases second : mkdirs (rmtree made (stagingOf root)) (stagingOf root) with
    | error failure => simp [first, second, bind, Except.bind] at done
    | ok fresh =>
      simp only [first, second, bind, Except.bind] at done
      constructor
      · apply writeFile_still fresh staged _ _ _ _ done
        exact mkdirs_present _ fresh _ second
      · intro place notBelow notAbove notTarget
        have apart : place ≠ stagingOf root ++ [filename] := by
          intro same
          exact notBelow (same ▸ prefix_append _ _)
        rw [writeFile_outside fresh staged _ place _ apart done,
          mkdirs_outside _ fresh _ place notAbove second,
          rmtree_outside made _ place notBelow,
          mkdirs_outside workspace made target place notTarget first]

theorem unlinkLines_candidates (target : Path) (lines : List (List Char)) (workspace : Workspace) :
    ∀ path ∈ (unlinkLines target lines workspace).2,
      ∃ line ∈ lines, path = PosixPath.resolve (PosixPath.join target line) := by
  induction lines generalizing workspace with
  | nil => simp [unlinkLines]
  | cons line rest ih =>
    intro path member
    rw [unlinkLines] at member
    dsimp only at member
    split at member
    · rcases mem_cons.mp member with rfl | later
      · exact ⟨line, mem_cons_self, rfl⟩
      · rcases ih _ path later with ⟨other, listed, same⟩
        exact ⟨other, mem_cons_of_mem _ listed, same⟩
    · rcases ih _ path member with ⟨other, listed, same⟩
      exact ⟨other, mem_cons_of_mem _ listed, same⟩

theorem moveMembers_placed (staging target : Path) (members : List (List Char))
    (workspace moved : Workspace) (placed : List Path)
    (done : moveMembers staging target members workspace = (moved, placed, none)) :
    placed = members.map (PosixPath.join target) := by
  induction members generalizing workspace placed with
  | nil =>
    cases done
    rfl
  | cons member rest ih =>
    rw [moveMembers] at done
    dsimp only at done
    split at done
    · exact absurd done (by simp)
    · split at done
      · exact absurd done (by simp)
      · rename_i landed _
        cases tail : moveMembers staging target rest landed with
        | mk final more =>
          rw [tail] at done
          simp only [Prod.mk.injEq] at done
          rcases done with ⟨rfl, rfl, ended⟩
          have later := ih landed more.1 (by rw [tail, ← ended])
          rw [later, map_cons]

theorem replaceUpload_unlinked (staging target : Path) (extracted : List Path)
    (workspace : Workspace) :
    ∀ path ∈ (replaceUpload staging target extracted workspace).unlinked,
      ∃ lines, readMarker workspace target = .ok lines ∧
        ∃ line ∈ lines, path = PosixPath.resolve (PosixPath.join target line) := by
  intro path member
  unfold replaceUpload at member
  split at member
  · exact absurd member not_mem_nil
  · rename_i lines read
    have listed : path ∈ (unlinkLines target lines workspace).2 := by
      dsimp only at member
      split at member
      · exact member
      · split at member
        · exact member
        · exact member
    exact ⟨lines, read, unlinkLines_candidates target lines workspace path listed⟩

theorem replaceUpload_ok (staging target : Path) (extracted stored : List Path)
    (workspace : Workspace) (apart : ¬ staging <+: markerOf target)
    (done : (replaceUpload staging target extracted workspace).result = .ok stored) :
    stored = extracted ∧
      (replaceUpload staging target extracted workspace).placed =
        (memberNames staging extracted).map (PosixPath.join target) ∧
      (replaceUpload staging target extracted workspace).workspace (markerOf target) =
        some (.file (.utf8 (TextLines.joinLines (memberNames staging extracted)))) := by
  cases read : readMarker workspace target with
  | error failure => simp [replaceUpload, read] at done
  | ok lines =>
    rcases moves : moveMembers staging target (memberNames staging extracted)
      (unlinkLines target lines workspace).1 with ⟨moved, placed, failed⟩
    cases failed with
    | some failure => simp [replaceUpload, read, moves] at done
    | none =>
      cases marked : writeFile moved (markerOf target)
        (.utf8 (TextLines.joinLines (memberNames staging extracted))) with
      | error failure =>
        simp only [markerOf] at marked
        simp [replaceUpload, read, moves, marked] at done
      | ok written =>
        have reached := moveMembers_placed staging target _ _ moved placed moves
        have stored := writeFile_eq moved written _ _ marked
        simp only [markerOf] at marked
        simp only [replaceUpload, read, moves, marked] at done ⊢
        refine ⟨(Except.ok.inj done).symm, reached, ?_⟩
        rw [rmtree_outside written staging _ apart, stored]
        exact put_self moved _ _

theorem straight_uploadDatasourceRoot (workspacePath : Path) (datasourceUuid : List Char) :
    ['.', '.'] ∉ uploadDatasourceRoot workspacePath datasourceUuid := by
  intro member
  rcases mem_append.mp member with above | named
  · exact PosixPath.straight_resolve workspacePath above
  · rcases PathRules.safeFilename_opens datasourceUuid with ⟨c, rest, shape, visible⟩
    rw [shape] at named
    simp only [mem_cons, not_mem_nil, or_false] at named
    rcases named with wrong | wrong
    · exact absurd wrong (by decide)
    · exact visible (List.cons.inj wrong).1.symm

theorem straight_uploadTarget (straight : ['.', '.'] ∉ root) :
    ['.', '.'] ∉ uploadTarget root filename := by
  unfold uploadTarget
  split
  · intro member
    rcases mem_append.mp member with above | named
    · exact straight above
    · rcases PathRules.safeFilename_opens (PosixPath.stem filename) with ⟨c, rest, shape, visible⟩
      rw [mem_singleton, shape] at named
      exact visible (List.cons.inj named).1.symm
  · exact straight

theorem straight_stagingOf (straight : ['.', '.'] ∉ root) :
    ['.', '.'] ∉ stagingOf root := by
  intro member
  rcases mem_append.mp member with above | named
  · exact straight above
  · exact absurd (mem_singleton.mp named) (by decide)

theorem marker_apart (archive : isUploadArchive filename = true) :
    ¬ stagingOf root <+: markerOf (uploadTarget root filename) ∧
      ¬ markerOf (uploadTarget root filename) <+: stagingOf root := by
  rcases PathRules.safeFilename_opens (PosixPath.stem filename) with ⟨c, rest, shape, visible⟩
  have other : stagingName ≠ safeFilename (PosixPath.stem filename) := by
    intro same
    rw [shape] at same
    exact visible (List.cons.inj same).1.symm
  rw [markerOf, uploadTarget, if_pos archive, stagingOf, append_assoc]
  constructor
  · intro below
    have firsts := (prefix_append_right_inj root).mp below
    exact other (cons_prefix_cons.mp firsts).1
  · intro above
    have firsts := (prefix_append_right_inj root).mp above
    exact other (cons_prefix_cons.mp firsts).1.symm

theorem marker_deeper (target : Path) : ¬ markerOf target <+: target := by
  intro above
  have short := above.length_le
  rw [markerOf, length_append, length_singleton] at short
  omega

theorem marker_unpacked (root : Path)
    (filename : Name) (blob : Blob) (workspace staged unpacked : Workspace) (extracted : List Path)
    (straight : ['.', '.'] ∉ root) (archive : isUploadArchive filename = true)
    (stage : stageUpload root (uploadTarget root filename) filename blob workspace = .ok staged)
    (unpack : extractUpload codecs limits filename blob (stagingOf root) staged =
      .ok (extracted, unpacked)) :
    unpacked (markerOf (uploadTarget root filename)) =
      workspace (markerOf (uploadTarget root filename)) := by
  have apart := marker_apart root filename archive
  rcases stageUpload_ok root _ filename blob workspace staged stage with ⟨there, kept⟩
  have entries := extractUpload_ok codecs limits filename blob _ staged unpacked extracted unpack
  rcases extractEntries_ok _ _ _ _ _ _ _ _ _ (straight_stagingOf root straight) there entries with
    ⟨_, _, outside⟩
  rw [outside _ apart.1 apart.2, kept _ apart.1 apart.2 (marker_deeper _)]

def commandEntries (codecs : NameCodecs) (command : UploadCommand) : List Entry :=
  match command.blob with
  | none => []
  | some blob => uploadEntries codecs (safeFilename command.filename) blob

def commandTarget (root : Path) (command : UploadCommand) : Path :=
  uploadTarget root (safeFilename command.filename)

theorem uploadManagedWorkspace_cases :
    (∃ failure, uploadManagedWorkspace codecs root command workspace =
        ⟨workspace, [], [], .error failure⟩) ∨
      ∃ blob, command.blob = some blob ∧
        uploadManagedWorkspace codecs root command workspace =
          storeUpload codecs root (safeFilename command.filename) command.limits blob workspace := by
  unfold uploadManagedWorkspace
  dsimp only
  split
  · exact Or.inl ⟨_, rfl⟩
  · split
    · exact Or.inl ⟨_, rfl⟩
    · split
      · exact Or.inl ⟨_, rfl⟩
      · rename_i blob found
        split
        · exact Or.inl ⟨_, rfl⟩
        · exact Or.inr ⟨blob, found, rfl⟩

theorem storeUpload_archive (blob : Blob) (workspace : Workspace)
    (archive : isUploadArchive filename = true) :
    (∃ left failure, storeUpload codecs root filename limits blob workspace =
        ⟨left, [], [], .error failure⟩) ∨
      ∃ staged extracted unpacked,
        stageUpload root (uploadTarget root filename) filename blob workspace = .ok staged ∧
        extractUpload codecs limits filename blob (stagingOf root) staged =
          .ok (extracted, unpacked) ∧
        storeUpload codecs root filename limits blob workspace =
          replaceUpload (stagingOf root) (uploadTarget root filename) extracted unpacked := by
  cases stage : stageUpload root (uploadTarget root filename) filename blob workspace with
  | error failure => exact Or.inl ⟨workspace, .file failure, by simp [storeUpload, stage]⟩
  | ok staged =>
    cases unpack : extractUpload codecs limits filename blob (stagingOf root) staged with
    | error failure =>
      exact Or.inl ⟨_, failure, by simp only [storeUpload, stage, archive, unpack, if_true]; rfl⟩
    | ok outcome =>
      refine Or.inr ⟨staged, outcome.1, outcome.2, rfl, unpack, ?_⟩
      simp [storeUpload, stage, archive, unpack]

theorem storeUpload_plain (blob : Blob) (workspace : Workspace)
    (plain : isUploadArchive filename = false) :
    (storeUpload codecs root filename limits blob workspace).unlinked = [] := by
  unfold storeUpload
  dsimp only
  split
  · rfl
  · rw [if_neg (by simp [plain])]
    split
    · rfl
    · rfl

theorem upload_unlinked (straight : ['.', '.'] ∉ root) :
    ∀ path ∈ (uploadManagedWorkspace codecs root command workspace).unlinked,
      ∃ lines, readMarker workspace (commandTarget root command) = .ok lines ∧
        ∃ line ∈ lines,
          path = PosixPath.resolve (PosixPath.join (commandTarget root command) line) := by
  intro path member
  rcases uploadManagedWorkspace_cases codecs root command workspace with
    ⟨failure, refused⟩ | ⟨blob, _, stored⟩
  · rw [refused] at member
    exact absurd member not_mem_nil
  · rw [stored] at member
    cases archive : isUploadArchive (safeFilename command.filename) with
    | false =>
      rw [storeUpload_plain codecs root _ _ blob workspace archive] at member
      exact absurd member not_mem_nil
    | true =>
      rcases storeUpload_archive codecs root _ command.limits blob workspace archive with
        ⟨left, failure, failed⟩ | ⟨staged, extracted, unpacked, stage, unpack, replaced⟩
      · rw [failed] at member
        exact absurd member not_mem_nil
      · rw [replaced] at member
        rcases replaceUpload_unlinked _ _ extracted unpacked path member with
          ⟨lines, read, line, listed, named⟩
        have kept := marker_unpacked codecs command.limits root _ blob workspace staged unpacked
          extracted straight archive stage unpack
        refine ⟨lines, ?_, line, listed, named⟩
        rw [← read]
        rw [markerOf] at kept
        simp only [readMarker, commandTarget, kept]

theorem upload_listed (extracted : List Path) (straight : ['.', '.'] ∉ root)
    (archive : isUploadArchive (safeFilename command.filename) = true)
    (completed : (uploadManagedWorkspace codecs root command workspace).result = .ok extracted) :
    (∀ entry ∈ commandEntries codecs command,
        Plain (memberParts entry.name) ∧ memberParts entry.name ≠ []) ∧
      extracted = (commandEntries codecs command).map
        (fun entry => stagingOf root ++ memberParts entry.name) ∧
      (uploadManagedWorkspace codecs root command workspace).placed =
        (memberNames (stagingOf root) extracted).map
          (PosixPath.join (commandTarget root command)) ∧
      (uploadManagedWorkspace codecs root command workspace).workspace
          (markerOf (commandTarget root command)) =
        some (.file (.utf8 (TextLines.joinLines (memberNames (stagingOf root) extracted)))) := by
  rcases uploadManagedWorkspace_cases codecs root command workspace with
    ⟨failure, refused⟩ | ⟨blob, found, stored⟩
  · rw [refused] at completed
    exact absurd completed (by simp)
  · rw [stored] at completed ⊢
    rcases storeUpload_archive codecs root _ command.limits blob workspace archive with
      ⟨left, failure, failed⟩ | ⟨staged, landed, unpacked, stage, unpack, replaced⟩
    · rw [failed] at completed
      exact absurd completed (by simp)
    · rw [replaced] at completed ⊢
      have apart := marker_apart root _ archive
      rcases replaceUpload_ok _ _ landed extracted unpacked apart.1 completed with
        ⟨rfl, placed, marked⟩
      have there := (stageUpload_ok root _ _ blob workspace staged stage).1
      have entries := extractUpload_ok codecs command.limits _ blob _ staged unpacked _ unpack
      rcases extractEntries_ok _ _ _ _ _ _ _ _ _ (straight_stagingOf root straight) there
        entries with ⟨listed, below, _⟩
      have same : commandEntries codecs command =
          uploadEntries codecs (safeFilename command.filename) blob := by
        simp only [commandEntries, found]
      rw [nil_append] at listed
      rw [same, commandTarget]
      exact ⟨below, listed, placed, marked⟩

/-- The second call reads back the list the first one wrote, and removes only files
below its own target that the first call moved there. -/
def RemovesOnlyUploaded (root : Path) (extracted : List Path) (firstTarget secondTarget : Path)
    (first second : UploadReport) (between : Workspace) : Prop :=
  readMarker between firstTarget = .ok (memberNames (stagingOf root) extracted) ∧
    ∀ path ∈ second.unlinked, secondTarget <+: path ∧ path ∈ first.placed

theorem memberNames_entries (staging : Path) (entries : List Entry) :
    memberNames staging (entries.map fun entry => staging ++ memberParts entry.name) =
      entries.map fun entry => PosixPath.asPosix (memberParts entry.name) := by
  simp [memberNames, Function.comp_def]

theorem read_back_iff {entries : List Entry}
    (below : ∀ entry ∈ entries, Plain (memberParts entry.name) ∧ memberParts entry.name ≠ []) :
    TextLines.splitlines (TextLines.universalNewlines (TextLines.joinLines
        (entries.map fun entry => PosixPath.asPosix (memberParts entry.name)))) =
      entries.map (fun entry => PosixPath.asPosix (memberParts entry.name)) ↔
      ∀ entry ∈ entries, Unbroken entry.name := by
  have filled : ∀ name ∈ entries.map (fun entry => PosixPath.asPosix (memberParts entry.name)),
      name ≠ [] := by
    intro name member
    rcases mem_map.mp member with ⟨entry, listed, rfl⟩
    exact PosixPath.asPosix_ne_nil _ (below entry listed).1.1
  rw [TextLines.read_joined_iff _ filled, forall_mem_map]
  simp only [unbroken_member]

theorem resolve_member {target : Path} (straight : ['.', '.'] ∉ target) {parts : Path}
    (plain : Plain parts) (filled : parts ≠ []) :
    PosixPath.resolve (PosixPath.join target (PosixPath.asPosix parts)) = target ++ parts := by
  rw [PosixPath.join_asPosix target parts plain.1 filled]
  apply PosixPath.resolve_straight
  intro inside
  rcases mem_append.mp inside with above | under
  · exact straight above
  · exact plain.2 under

/-- Two archive uploads in a row: the later one stays within the files of the earlier
one exactly when no member name of the earlier archive holds a line boundary. -/
theorem second_upload_removes_uploaded (codecs : NameCodecs) (workspacePath : Path)
    (datasourceUuid : List Char) (first second : UploadCommand) (before between : Workspace)
    (extracted : List Path) (root : Path)
    (rooted : root = uploadDatasourceRoot workspacePath datasourceUuid)
    (archive : isUploadArchive (safeFilename first.filename) = true)
    (completed : (uploadManagedWorkspace codecs root first before).result = .ok extracted)
    (untouched : between (markerOf (commandTarget root first)) =
      (uploadManagedWorkspace codecs root first before).workspace
        (markerOf (commandTarget root first)))
    (successive : commandTarget root second = commandTarget root first ∨
      between (markerOf (commandTarget root second)) = none) :
    RemovesOnlyUploaded root extracted (commandTarget root first) (commandTarget root second)
        (uploadManagedWorkspace codecs root first before)
        (uploadManagedWorkspace codecs root second between) between ↔
      ∀ entry ∈ commandEntries codecs first, Unbroken entry.name := by
  have straight : ['.', '.'] ∉ root := by
    rw [rooted]
    exact straight_uploadDatasourceRoot workspacePath datasourceUuid
  rcases upload_listed codecs root first before extracted straight archive completed with
    ⟨below, listed, placed, marked⟩
  have names := memberNames_entries (stagingOf root) (commandEntries codecs first)
  rw [← listed] at names
  have read : readMarker between (commandTarget root first) =
      .ok (TextLines.splitlines (TextLines.universalNewlines
        (TextLines.joinLines (memberNames (stagingOf root) extracted)))) := by
    rw [marked, markerOf] at untouched
    simp only [readMarker, untouched]
  have roundTrip : readMarker between (commandTarget root first) =
        .ok (memberNames (stagingOf root) extracted) ↔
      ∀ entry ∈ commandEntries codecs first, Unbroken entry.name := by
    rw [read, Except.ok.injEq, names]
    exact read_back_iff below
  constructor
  · intro own
    exact roundTrip.mp own.1
  · intro unbroken
    have back := roundTrip.mpr unbroken
    refine ⟨back, ?_⟩
    intro path member
    rcases upload_unlinked codecs root second between straight path member with
      ⟨lines, found, line, listedLine, named⟩
    rcases successive with same | fresh
    · rw [same] at found named ⊢
      rw [found, Except.ok.injEq] at back
      subst back
      rw [names] at listedLine
      rcases mem_map.mp listedLine with ⟨entry, listedEntry, rfl⟩
      rcases below entry listedEntry with ⟨plain, filled⟩
      have straightTarget : ['.', '.'] ∉ commandTarget root first :=
        straight_uploadTarget root _ straight
      rw [resolve_member straightTarget plain filled] at named
      constructor
      · rw [named]
        exact prefix_append _ _
      · rw [placed, names, named, ← PosixPath.join_asPosix _ _ plain.1 filled]
        exact mem_map_of_mem (mem_map_of_mem listedEntry)
    · rw [readMarker, show between (commandTarget root second ++ [markerName]) = none from fresh]
        at found
      cases found
      exact absurd listedLine not_mem_nil

def plainCodecs : NameCodecs := ⟨fun _ => none, fun _ => none, fun _ => none⟩

def sampleUuid : List Char := "7f".toList

def sampleRoot : Path := uploadDatasourceRoot ["srv".toList] sampleUuid

def sampleUpload (member : String) : UploadCommand where
  sourceType := "upload".toList
  filename := "notes.zip".toList
  blob := some
    { bytes := .binary [80, 75]
      size := 2
      zip := some [⟨member.toList, 0x800, 0, 1, some (.utf8 ['x'])⟩]
      tar := none }
  limits := ⟨none, none, none⟩

def passwdPath : Path := ["etc".toList, "passwd".toList]

def sampleHost : Workspace :=
  put (fun _ => none) passwdPath (some (.file (.utf8 "root".toList)))

def separatorMember : String := "a\u2028/etc/passwd"

def separatorReport : UploadReport :=
  uploadManagedWorkspace plainCodecs sampleRoot (sampleUpload separatorMember) sampleHost

def separatorSecond : UploadReport :=
  uploadManagedWorkspace plainCodecs sampleRoot (sampleUpload "b.txt") separatorReport.workspace

def separatorExtracted : List Path :=
  [stagingOf sampleRoot ++ memberParts separatorMember.toList]

theorem separator_removes_outside_target :
    separatorReport.result = .ok separatorExtracted ∧
      separatorSecond.unlinked = [passwdPath] ∧
      ¬ RemovesOnlyUploaded sampleRoot separatorExtracted
        (commandTarget sampleRoot (sampleUpload separatorMember))
        (commandTarget sampleRoot (sampleUpload "b.txt")) separatorReport separatorSecond
        separatorReport.workspace := by
  have removed : separatorSecond.unlinked = [passwdPath] := by decide +kernel
  refine ⟨by decide +kernel, removed, ?_⟩
  intro own
  have inside := (own.2 passwdPath (by simp [removed])).1
  exact absurd inside (by decide +kernel)

def plainReport : UploadReport :=
  uploadManagedWorkspace plainCodecs sampleRoot (sampleUpload "docs/a.txt") sampleHost

theorem second_upload_removes_uploaded_run :
    RemovesOnlyUploaded sampleRoot [stagingOf sampleRoot ++ memberParts "docs/a.txt".toList]
        (commandTarget sampleRoot (sampleUpload "docs/a.txt"))
        (commandTarget sampleRoot (sampleUpload "b.txt")) plainReport
        (uploadManagedWorkspace plainCodecs sampleRoot (sampleUpload "b.txt")
          plainReport.workspace) plainReport.workspace ↔
      ∀ entry ∈ commandEntries plainCodecs (sampleUpload "docs/a.txt"), Unbroken entry.name :=
  second_upload_removes_uploaded plainCodecs ["srv".toList] sampleUuid (sampleUpload "docs/a.txt")
    (sampleUpload "b.txt") sampleHost plainReport.workspace _ sampleRoot rfl (by decide)
    (by decide +kernel) rfl (Or.inl rfl)

end SourceLens.UploadArchive
