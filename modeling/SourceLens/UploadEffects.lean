import SourceLens.UploadIndex

/-! What uploads and deletions do to the stored files, and the index that follows them. -/

namespace SourceLens.UploadArchive

open List
open PosixPath (Name Path Named Plain)
open FileTree
open PathRules (safeFilename)
open Transition

theorem branch_apart {first second : Name} (different : first ≠ second) (root below rest : Path) :
    ¬ root ++ first :: below <+: root ++ second :: rest := by
  intro above
  exact different (cons_prefix_cons.mp ((prefix_append_right_inj root).mp above)).1

theorem branch_ne {first second : Name} (different : first ≠ second) (root below rest : Path) :
    root ++ first :: below ≠ root ++ second :: rest := fun same =>
  branch_apart different root below rest (same ▸ prefix_rfl)

theorem branch_not_above (root : Path) (name : Name) (rest : Path) :
    ¬ root ++ name :: rest <+: root := by
  intro above
  have short := above.length_le
  rw [length_append, length_cons] at short
  omega

def Visible (name : Name) : Prop := ∃ c rest, name = c :: rest ∧ c ≠ '.'

variable {codecs : NameCodecs} (call : UploadCall) {root : Path} {name : Name} {filename : Name}
  {entries : List Entry} {extracted : List Path} {blob : Blob} {workspace : Workspace}

theorem Visible.ne_staging (visible : Visible name) : stagingName ≠ name := by
  rcases visible with ⟨c, rest, rfl, other⟩
  intro same
  exact other (List.cons.inj same).1.symm

theorem Visible.not_staged (visible : Visible name) (root rest : Path) :
    ¬ stagingOf root <+: root ++ name :: rest := branch_apart visible.ne_staging root [] rest

theorem Visible.named (visible : Visible name) (noSlash : '/' ∉ name) : Named name := by
  rcases visible with ⟨c, rest, rfl, other⟩
  refine ⟨cons_ne_nil c rest, noSlash, ?_⟩
  intro same
  exact other (List.cons.inj same).1

theorem Visible.straight (visible : Visible name) {root : Path}
    (straight : ['.', '.'] ∉ root) : ['.', '.'] ∉ root ++ [name] := by
  rcases visible with ⟨c, rest, rfl, other⟩
  intro member
  rcases mem_append.mp member with above | last
  · exact straight above
  · exact other (List.cons.inj (mem_singleton.mp last)).1.symm

theorem safeFilename_visible (value : List Char) : Visible (safeFilename value) :=
  PathRules.safeFilename_opens value

theorem asPosix_single (name : Name) : PosixPath.asPosix [name] = name := by
  rw [PosixPath.asPosix, if_neg (cons_ne_nil name [])]
  exact append_nil name

theorem resolve_join_visible (straight : ['.', '.'] ∉ root)
    (visible : Visible name) (noSlash : '/' ∉ name) :
    PosixPath.resolve (PosixPath.join root name) = root ++ [name] := by
  have joined := PosixPath.join_asPosix root [name] (by simpa using visible.named noSlash)
    (cons_ne_nil name [])
  rw [asPosix_single] at joined
  rw [joined]
  exact PosixPath.resolve_straight _ (visible.straight straight)

theorem UploadCall.filename_visible : Visible call.filename :=
  safeFilename_visible call.command.filename

theorem UploadCall.place_visible : Visible call.place := by
  rw [UploadCall.place, placeName]
  split
  · exact safeFilename_visible _
  · exact safeFilename_visible _

theorem UploadCall.place_no_slash : '/' ∉ call.place := by
  rw [UploadCall.place, placeName]
  split
  · exact PathRules.safeFilename_no_slash _
  · exact PathRules.safeFilename_no_slash _

theorem Site.straight (site : Site) : ['.', '.'] ∉ site.root :=
  straight_uploadDatasourceRoot site.workspacePath site.datasourceUuid

theorem unlinkLines_outside (target : Path) (lines : List (List Char)) (workspace : Workspace)
    (place : Path) (outside : ∀ line ∈ lines, place ≠ PosixPath.resolve (PosixPath.join target line)) :
    (unlinkLines target lines workspace).1 place = workspace place := by
  induction lines generalizing workspace with
  | nil => rfl
  | cons line rest ih =>
    have later := fun tree => ih tree fun other member =>
      outside other (mem_cons_of_mem line member)
    rw [unlinkLines]
    dsimp only
    split
    · rw [later, unlink, put_other _ _ _ _ (outside line mem_cons_self)]
    · exact later workspace

theorem replaceFile_outside {tree moved : Workspace} {source destination place : Path}
    (done : replaceFile tree source destination = .ok moved) (notSource : place ≠ source)
    (notDestination : place ≠ destination) : moved place = tree place := by
  unfold replaceFile at done
  split at done
  · rename_i content _
    cases written : writeFile tree destination content with
    | error failure => simp [written, Except.map] at done
    | ok next =>
      simp only [written, Except.map, Except.ok.injEq] at done
      have kept := writeFile_outside tree next destination place content notDestination written
      rw [← done]
      split
      · exact kept
      · rw [put_other _ _ _ _ notSource]
        exact kept
  · cases done

theorem replaceFile_moves {tree moved : Workspace} {source destination : Path} {content : Content}
    (held : tree source = some (.file content)) (different : destination ≠ source)
    (done : replaceFile tree source destination = .ok moved) :
    moved destination = some (.file content) := by
  rw [replaceFile, held] at done
  cases written : writeFile tree destination content with
  | error failure => simp [written, Except.map] at done
  | ok next =>
    simp only [written, Except.map, Except.ok.injEq] at done
    rw [← done, if_neg different.symm, put_other _ _ _ _ different,
      writeFile_eq tree next destination content written, put_self]

theorem moveMembers_outside (staging target : Path) (members : List (List Char))
    (workspace : Workspace) (place : Path)
    (outside : ∀ member ∈ members, place ≠ PosixPath.join staging member ∧
      ¬ place <+: PosixPath.join target member) :
    (moveMembers staging target members workspace).1 place = workspace place := by
  induction members generalizing workspace with
  | nil => rfl
  | cons member rest ih =>
    have here := outside member mem_cons_self
    have later := fun tree => ih tree fun other listed =>
      outside other (mem_cons_of_mem member listed)
    rw [moveMembers]
    dsimp only
    split
    · rfl
    · rename_i made created
      have kept : made place = workspace place :=
        mkdirs_outside workspace made _ place
          (fun above => here.2 (above.trans (List.dropLast_prefix _))) created
      split
      · exact kept
      · rename_i moved replaced
        rw [later, replaceFile_outside replaced here.1
          (fun same => here.2 (same ▸ prefix_rfl)), kept]

theorem moveMembers_keeps (staging target : Path) (members : List (List Char))
    (workspace : Workspace) (place : Path) (content : Content)
    (outside : ∀ member ∈ members, place ≠ PosixPath.join staging member ∧
      place ≠ PosixPath.join target member)
    (held : workspace place = some (.file content)) :
    (moveMembers staging target members workspace).1 place = some (.file content) := by
  induction members generalizing workspace with
  | nil => exact held
  | cons member rest ih =>
    have here := outside member mem_cons_self
    have later := fun tree => ih tree fun other listed =>
      outside other (mem_cons_of_mem member listed)
    rw [moveMembers]
    dsimp only
    split
    · exact held
    · rename_i made created
      have kept := (mkdirs_file workspace made _ place content created).mpr held
      split
      · exact kept
      · rename_i moved replaced
        apply later
        rw [replaceFile_outside replaced here.1 here.2]
        exact kept

theorem moveMembers_moves {staging target : Path} {members : List Path}
    {workspace moved : Workspace} {placed : List Path}
    (below : ∀ parts ∈ members, Plain parts ∧ parts ≠ []) (distinct : members.Nodup)
    (apart : ∀ first second, target ++ first ≠ staging ++ second)
    (done : moveMembers staging target (members.map PosixPath.asPosix) workspace =
      (moved, placed, none))
    (parts : Path) (listed : parts ∈ members) (content : Content)
    (held : workspace (staging ++ parts) = some (.file content)) :
    moved (target ++ parts) = some (.file content) := by
  induction members generalizing workspace placed with
  | nil => cases listed
  | cons head rest ih =>
    have join : ∀ (root : Path) (other : Path), other ∈ head :: rest →
        PosixPath.join root (PosixPath.asPosix other) = root ++ other := fun root other member =>
      PosixPath.join_asPosix root other (below other member).1.1 (below other member).2
    rw [nodup_cons] at distinct
    rw [map_cons, moveMembers, join _ head mem_cons_self,
      join _ head mem_cons_self] at done
    dsimp only at done
    split at done
    · cases done
    · rename_i made created
      split at done
      · cases done
      · rename_i next replaced
        have result : moveMembers staging target (rest.map PosixPath.asPosix) next =
            (moved, placed.tail, none) := by
          have parts := Prod.mk.inj done
          have last := Prod.mk.inj parts.2
          rw [← parts.1, ← last.1, tail_cons, ← last.2]
        have after : ∀ place, made place = some (.file content) → place ≠ staging ++ head →
            place ≠ target ++ head → next place = some (.file content) := fun place file one two =>
          (replaceFile_outside replaced one two).trans file
        have file := (mkdirs_file workspace made _ _ content created).mpr held
        rcases mem_cons.mp listed with rfl | later
        · have landed := replaceFile_moves file (apart _ _) replaced
          have kept := moveMembers_keeps staging target (rest.map PosixPath.asPosix) next
            (target ++ parts) content (by
              intro member found
              rcases mem_map.mp found with ⟨other, inRest, rfl⟩
              rw [join _ other (mem_cons_of_mem _ inRest),
                join _ other (mem_cons_of_mem _ inRest)]
              refine ⟨apart _ _, ?_⟩
              intro same
              rw [append_cancel_left same] at distinct
              exact distinct.1 inRest) landed
          rwa [result] at kept
        · apply ih (fun other member => below other (mem_cons_of_mem _ member)) distinct.2
            result later
          apply after _ file
          · intro same
            rw [← append_cancel_left same] at distinct
            exact distinct.1 later
          · exact (apart _ _).symm

theorem extractEntry_content {root path : Path} {entry : Entry} {staged written : Workspace}
    (done : extractEntry root entry staged = .ok (path, written)) :
    present staged path = false ∧
      (∃ content, entry.content = .ok content ∧ written path = some (.file content)) ∧
      (∀ place, present staged place = true → present written place = true) ∧
      ∀ place content, staged place = some (.file content) → written place = some (.file content) := by
  unfold extractEntry at done
  split at done
  · cases done
  · split at done
    · cases done
    · rename_i vacant
      split at done
      · cases done
      · cases done
      · rename_i made content created read
        split at done
        · cases done
        · rename_i after stored
          cases done
          have absent : present staged path = false := by simpa using vacant
          refine ⟨absent, ⟨content, read, ?_⟩, ?_, ?_⟩
          · rw [writeFile_eq made written path content stored, put_self]
          · intro place there
            exact writeFile_still made written path place content
              (mkdirs_still staged made _ place there created) stored
          · intro place other held
            have different : place ≠ path := by
              rintro rfl
              rw [present, held] at absent
              cases absent
            rw [writeFile_outside made written path place content different stored]
            exact (mkdirs_file staged made _ place other created).mpr held

theorem extractEntries_content {maxBytes maxFiles : Nat} {root : Path} {entries : List Entry}
    {extractedBytes : Nat} {before extracted : List Path} {staged unpacked : Workspace}
    (straight : ['.', '.'] ∉ root)
    (done : extractEntries maxBytes maxFiles root entries extractedBytes before staged =
      .ok (extracted, unpacked)) :
    (∀ entry ∈ entries, present staged (root ++ memberParts entry.name) = false) ∧
      (entries.map fun entry => memberParts entry.name).Nodup ∧
      (∀ entry ∈ entries, ∃ content, entry.content = .ok content ∧
        unpacked (root ++ memberParts entry.name) = some (.file content)) ∧
      ∀ place content, staged place = some (.file content) →
        unpacked place = some (.file content) := by
  induction entries generalizing extractedBytes before staged with
  | nil =>
    cases done
    exact ⟨by simp, nodup_nil, by simp, fun _ _ => id⟩
  | cons entry rest ih =>
    rw [extractEntries] at done
    split at done
    · cases done
    · split at done
      · cases done
      · split at done
        · cases done
        · rename_i path written landed
          rcases extractEntry_content landed with ⟨vacant, ⟨content, read, stored⟩, still, kept⟩
          rcases ih done with ⟨absent, distinct, held, keptLater⟩
          have placed := (archiveMemberPath_ok root path entry.name straight
            (extractEntry_ok root path entry staged written landed).1).1
          subst placed
          refine ⟨?_, ?_, ?_, fun place other before => keptLater place other (kept place other before)⟩
          · intro other member
            rcases mem_cons.mp member with rfl | later
            · exact vacant
            · rw [Bool.eq_false_iff]
              intro there
              have false := absent other later
              rw [still _ there] at false
              cases false
          · rw [map_cons, nodup_cons]
            refine ⟨?_, distinct⟩
            intro again
            rcases mem_map.mp again with ⟨other, later, same⟩
            have false := absent other later
            rw [same, present, stored] at false
            cases false
          · intro other member
            rcases mem_cons.mp member with rfl | later
            · exact ⟨content, read, keptLater _ _ stored⟩
            · exact held other later

theorem uploadTarget_archive (root : Path) {filename : Name}
    (archive : isUploadArchive filename = true) :
    uploadTarget root filename = root ++ [placeName filename] := by
  rw [uploadTarget, placeName, if_pos archive, if_pos archive]

theorem uploadTarget_plain (root : Path) {filename : Name}
    (plain : isUploadArchive filename = false) : uploadTarget root filename = root := by
  rw [uploadTarget, if_neg (by rw [plain]; decide)]

theorem placeName_plain (plain : isUploadArchive filename = false) :
    placeName filename = filename := by
  rw [placeName, if_neg (by rw [plain]; decide)]

structure Beside (root : Path) (name : Name) (path : Path) : Prop where
  staging : ¬ stagingOf root <+: path
  aboveStaging : ¬ path <+: stagingOf root
  below : ¬ root ++ [name] <+: path
  above : ∀ rest, ¬ path <+: root ++ name :: rest

theorem beside_of_ne {name other : Name} (different : other ≠ name)
    (visible : Visible other) (rest : Path) : Beside root name (root ++ other :: rest) where
  staging := visible.not_staged root rest
  aboveStaging := branch_apart visible.ne_staging.symm root rest []
  below := branch_apart different.symm root [] rest
  above := fun below => branch_apart different root rest below

theorem Beside.above_root {path : Path} (beside : Beside root name path) :
    ¬ path <+: root := fun above => beside.above [] (above.trans (prefix_append _ _))

theorem member_join {staging : Path} {member : List Char} (root : Path)
    (below : ∀ entry ∈ entries, Plain (memberParts entry.name) ∧ memberParts entry.name ≠ [])
    (listed : member ∈ memberNames staging
      (entries.map fun entry => staging ++ memberParts entry.name)) :
    ∃ entry ∈ entries, PosixPath.join root member = root ++ memberParts entry.name := by
  rw [memberNames_entries] at listed
  rcases mem_map.mp listed with ⟨entry, found, rfl⟩
  exact ⟨entry, found, PosixPath.join_asPosix root _ (below entry found).1.1 (below entry found).2⟩

theorem listsInside_lines {target : Path} {lines : List (List Char)}
    (inside : listsInside workspace target = true) (read : readMarker workspace target = .ok lines)
    (line : List Char) (member : line ∈ lines) :
    target <+: PosixPath.resolve (PosixPath.join target line) := by
  rw [listsInside, read] at inside
  exact of_decide_eq_true (all_eq_true.mp inside line member)

structure Unpacked (root : Path) (name : Name) (entries : List Entry) (extracted : List Path)
    (workspace : Workspace) : Prop where
  listed : extracted = entries.map fun entry => stagingOf root ++ memberParts entry.name
  below : ∀ entry ∈ entries, Plain (memberParts entry.name) ∧ memberParts entry.name ≠ []
  inside : listsInside workspace (root ++ [name]) = true

theorem Unpacked.unlinked (unpacked : Unpacked root name entries extracted workspace) {path : Path}
    (beside : ¬ root ++ [name] <+: path) {lines : List (List Char)}
    (read : readMarker workspace (root ++ [name]) = .ok lines) (some : List (List Char))
    (subset : some ⊆ lines) :
    (unlinkLines (root ++ [name]) some workspace).1 path = workspace path := by
  apply unlinkLines_outside
  intro line member same
  exact beside (same ▸ listsInside_lines unpacked.inside read line (subset member))

theorem Unpacked.moved (unpacked : Unpacked root name entries extracted workspace) {path : Path}
    (beside : Beside root name path) (tree : Workspace) (some : List (List Char))
    (subset : some ⊆ memberNames (stagingOf root) extracted) :
    (moveMembers (stagingOf root) (root ++ [name]) some tree).1 path = tree path := by
  apply moveMembers_outside
  intro member inside
  have listed := subset inside
  rw [unpacked.listed] at listed
  rcases member_join (stagingOf root) unpacked.below listed with ⟨entry, _, source⟩
  rcases member_join (root ++ [name]) unpacked.below listed with ⟨other, _, destination⟩
  rw [source, destination, append_assoc, singleton_append]
  exact ⟨fun same => beside.staging (same ▸ prefix_append _ _), beside.above _⟩

theorem replaceUpload_stored {staging target : Path} {extracted : List Path}
    {workspace : Workspace}
    (stored : (replaceUpload staging target extracted workspace).result.toBool = true) :
    ∃ lines moved placed, readMarker workspace target = .ok lines ∧
      moveMembers staging target (memberNames staging extracted)
        (unlinkLines target lines workspace).1 = (moved, placed, none) ∧
      (replaceUpload staging target extracted workspace).workspace =
        rmtree (put moved (markerOf target)
          (some (.file (.utf8 (TextLines.joinLines (memberNames staging extracted)))))) staging := by
  cases read : readMarker workspace target with
  | error failure =>
    simp only [replaceUpload, read] at stored
    cases stored
  | ok lines =>
    rcases moves : moveMembers staging target (memberNames staging extracted)
      (unlinkLines target lines workspace).1 with ⟨moved, placed, failed⟩
    cases failed with
    | some failure =>
      simp only [replaceUpload, read, moves] at stored
      cases stored
    | none =>
      cases marked : writeFile moved (target ++ [markerName])
        (.utf8 (TextLines.joinLines (memberNames staging extracted))) with
      | error failure =>
        simp only [replaceUpload, read, moves, marked] at stored
        cases stored
      | ok written =>
        refine ⟨lines, moved, placed, rfl, moves, ?_⟩
        simp only [replaceUpload, read, moves, marked, markerOf,
          writeFile_eq moved written _ _ marked]

theorem replaceUpload_beside (unpacked : Unpacked root name entries extracted workspace) {path : Path}
    (beside : Beside root name path) :
    (replaceUpload (stagingOf root) (root ++ [name]) extracted workspace).workspace path =
      workspace path := by
  unfold replaceUpload
  split
  · exact rmtree_outside _ _ _ beside.staging
  · rename_i lines read
    have cleared := unpacked.unlinked beside.below read lines (List.Subset.refl _)
    have landed := unpacked.moved beside (unlinkLines (root ++ [name]) lines workspace).1 _
      (List.Subset.refl _)
    dsimp only
    split
    · rename_i moved placed failure moves
      rw [moves] at landed
      exact (rmtree_outside _ _ _ beside.staging).trans (landed.trans cleared)
    · rename_i moved placed moves
      rw [moves] at landed
      split
      · exact (rmtree_outside _ _ _ beside.staging).trans (landed.trans cleared)
      · rename_i written marked
        have kept := writeFile_outside moved written _ path _
          (fun same => beside.below (same ▸ prefix_append _ _)) marked
        exact (rmtree_outside _ _ _ beside.staging).trans (kept.trans (landed.trans cleared))

theorem replaceCall_beside (unpacked : Unpacked root name entries extracted workspace) (fault : Option Fault) {path : Path}
    (beside : Beside root name path) :
    (replaceCall (stagingOf root) (root ++ [name]) extracted workspace fault).1 path =
      workspace path := by
  unfold replaceCall
  split
  · exact rmtree_outside _ _ _ beside.staging
  · rename_i lines read
    have cleared := unpacked.unlinked beside.below read
    have landed := unpacked.moved beside (unlinkLines (root ++ [name]) lines workspace).1
    dsimp only
    split
    · exact (rmtree_outside _ _ _ beside.staging).trans (cleared _ (take_subset _ _))
    · exact (rmtree_outside _ _ _ beside.staging).trans
        ((landed _ (take_subset _ _)).trans (cleared lines (List.Subset.refl _)))
    · have unmarked : path ≠ markerOf (root ++ [name]) := fun same =>
        beside.below (same ▸ prefix_append _ _)
      exact (rmtree_outside _ _ _ beside.staging).trans ((put_other _ _ _ _ unmarked).trans
        ((landed _ (List.Subset.refl _)).trans (cleared lines (List.Subset.refl _))))
    · exact replaceUpload_beside unpacked beside

theorem replaceUpload_holds (unpacked : Unpacked root name entries extracted workspace) (visible : Visible name)
    (distinct : (entries.map fun entry => memberParts entry.name).Nodup)
    (named : ∀ entry ∈ entries, isGenerated (memberParts entry.name) = false)
    (stored : (replaceUpload (stagingOf root) (root ++ [name]) extracted workspace).result.toBool =
      true) (entry : Entry) (listed : entry ∈ entries) (content : Content)
    (held : workspace (stagingOf root ++ memberParts entry.name) = some (.file content)) :
    (replaceUpload (stagingOf root) (root ++ [name]) extracted workspace).workspace
      (root ++ name :: memberParts entry.name) = some (.file content) := by
  rcases replaceUpload_stored stored with ⟨lines, moved, placed, read, moves, result⟩
  have apart : ∀ first second, (root ++ [name]) ++ first ≠ stagingOf root ++ second := by
    intro first second
    rw [stagingOf, append_assoc, append_assoc]
    exact branch_ne visible.ne_staging.symm root first second
  have source : (unlinkLines (root ++ [name]) lines workspace).1
      (stagingOf root ++ memberParts entry.name) = some (.file content) := by
    rw [← held]
    apply unpacked.unlinked _ read lines (List.Subset.refl _)
    rw [stagingOf, append_assoc]
    exact branch_apart visible.ne_staging.symm root [] _
  have names : (entries.map fun entry => PosixPath.asPosix (memberParts entry.name)) =
      (entries.map fun entry => memberParts entry.name).map PosixPath.asPosix := by
    rw [map_map]
    rfl
  rw [unpacked.listed, memberNames_entries, names] at moves
  have landed := moveMembers_moves (by simpa using unpacked.below) distinct apart moves
    (memberParts entry.name) (mem_map_of_mem listed) content source
  rw [append_assoc, singleton_append] at landed
  rw [result, rmtree_outside _ _ _ (visible.not_staged root _), put_other _ _ _ _, landed]
  rw [markerOf, append_assoc]
  intro same
  have last := (List.cons.inj (append_cancel_left same)).2
  have generated := named entry listed
  rw [last] at generated
  exact absurd generated (by decide)

theorem stageUpload_keeps {root target : Path} {filename : Name} {blob : Blob}
    {workspace staged : Workspace}
    (done : stageUpload root target filename blob workspace = .ok staged) :
    staged (stagingOf root ++ [filename]) = some (.file blob.bytes) ∧
      ∀ place content, ¬ stagingOf root <+: place → workspace place = some (.file content) →
        staged place = some (.file content) := by
  unfold stageUpload at done
  cases first : mkdirs workspace target with
  | error failure => simp [first, bind, Except.bind] at done
  | ok made =>
    cases second : mkdirs (rmtree made (stagingOf root)) (stagingOf root) with
    | error failure => simp [first, second, bind, Except.bind] at done
    | ok fresh =>
      simp only [first, second, bind, Except.bind] at done
      constructor
      · rw [writeFile_eq fresh staged _ _ done, put_self]
      · intro place content outside held
        have apart : place ≠ stagingOf root ++ [filename] := by
          intro same
          exact outside (same ▸ prefix_append _ _)
        rw [writeFile_outside fresh staged _ place _ apart done]
        apply (mkdirs_file _ fresh _ place content second).mpr
        rw [rmtree_outside made _ place outside]
        exact (mkdirs_file workspace made _ place content first).mpr held

theorem listsInside_congr {first second : Workspace} {target : Path}
    (same : first (markerOf target) = second (markerOf target)) :
    listsInside first target = listsInside second target := by
  rw [markerOf] at same
  simp only [listsInside, readMarker, same]

structure Effect (codecs : NameCodecs) (root : Path) (filename : Name) (blob : Blob)
    (before after : Workspace) (reached : Reached) : Prop where
  beside : ∀ path, Beside root (placeName filename) path → after path = before path
  staged : reached = .refused ∨ reached = .staged →
    (∀ place content, ¬ stagingOf root <+: place → before place = some (.file content) →
      after place = some (.file content)) ∧
    (isUploadArchive filename = false →
      present after (root ++ [filename]) = present before (root ++ [filename]))
  refused : reached = .refused → after = before
  members : reached = .stored → isUploadArchive filename = true →
    ∀ entry ∈ uploadEntries codecs filename blob, ∃ content, entry.content = .ok content ∧
      after (root ++ placeName filename :: memberParts entry.name) = some (.file content)
  file : reached = .stored → isUploadArchive filename = false →
    after (root ++ [filename]) = some (.file blob.bytes)

theorem Effect.unchanged (codecs : NameCodecs) (root : Path) (filename : Name) (blob : Blob)
    (workspace : Workspace) : Effect codecs root filename blob workspace workspace .refused where
  beside := fun _ _ => rfl
  staged := fun _ => ⟨fun _ _ _ => id, fun _ => rfl⟩
  refused := fun _ => rfl
  members := nofun
  file := nofun

theorem staged_effect {workspace staged : Workspace} (visible : Visible filename)
    (stage : stageUpload root (uploadTarget root filename) filename blob workspace = .ok staged)
    (after : Workspace) (left : ∀ place, ¬ stagingOf root <+: place → after place = staged place) :
    Effect codecs root filename blob workspace after .staged where
  beside := by
    intro path beside
    have notTarget : ¬ path <+: uploadTarget root filename := by
      cases archive : isUploadArchive filename with
      | true =>
        rw [uploadTarget_archive root archive]
        exact beside.above []
      | false =>
        rw [uploadTarget_plain root archive]
        exact beside.above_root
    rw [left path beside.staging]
    exact (stageUpload_ok root _ filename blob workspace staged stage).2 path beside.staging
      beside.aboveStaging notTarget
  staged := by
    intro _
    constructor
    · intro place content outside held
      rw [left place outside]
      exact (stageUpload_keeps stage).2 place content outside held
    · intro plain
      have outside := visible.not_staged root []
      rw [present, left _ outside, (stageUpload_ok root _ filename blob workspace staged stage).2 _
        outside (branch_apart visible.ne_staging.symm root [] [])
        (by rw [uploadTarget_plain root plain]; exact branch_not_above root filename [])]
      rfl
  refused := nofun
  members := nofun
  file := nofun

theorem plain_effect {workspace staged moved : Workspace} (visible : Visible filename)
    (plain : isUploadArchive filename = false)
    (stage : stageUpload root (uploadTarget root filename) filename blob workspace = .ok staged)
    (replaced : replaceFile staged (stagingOf root ++ [filename]) (root ++ [filename]) = .ok moved) :
    Effect codecs root filename blob workspace (rmtree moved (stagingOf root)) .stored where
  beside := by
    intro path beside
    rw [rmtree_outside _ _ _ beside.staging, replaceFile_outside replaced]
    · apply (stageUpload_ok root _ filename blob workspace staged stage).2 path beside.staging
        beside.aboveStaging
      rw [uploadTarget_plain root plain]
      exact beside.above_root
    · exact fun same => beside.staging (same ▸ prefix_append _ _)
    · rw [← placeName_plain plain]
      exact fun same => beside.below (same ▸ prefix_rfl)
  staged := fun impossible => by rcases impossible with impossible | impossible <;> cases impossible
  refused := nofun
  members := fun _ archive => absurd archive (by rw [plain]; decide)
  file := by
    intro _ _
    rw [rmtree_outside _ _ _ (visible.not_staged root [])]
    apply replaceFile_moves (stageUpload_keeps stage).1 _ replaced
    rw [stagingOf, append_assoc]
    exact branch_ne visible.ne_staging.symm root [] [filename]

theorem archive_effect {limits : UploadLimits} {blob : Blob} {workspace staged unpacked : Workspace}
    {extracted : List Path} (fault : Option Fault)
    (placed : Visible (placeName filename)) (straight : ['.', '.'] ∉ root)
    (archive : isUploadArchive filename = true)
    (named : ∀ entry ∈ uploadEntries codecs filename blob,
      isGenerated (memberParts entry.name) = false)
    (inside : listsInside workspace (uploadTarget root filename) = true)
    (stage : stageUpload root (uploadTarget root filename) filename blob workspace = .ok staged)
    (unpack : extractUpload codecs limits filename blob (stagingOf root) staged =
      .ok (extracted, unpacked)) :
    Effect codecs root filename blob workspace
      (replaceCall (stagingOf root) (uploadTarget root filename) extracted unpacked fault).1
      (replaceCall (stagingOf root) (uploadTarget root filename) extracted unpacked fault).2 := by
  have kept := marker_unpacked codecs limits root filename blob workspace staged unpacked extracted
    straight archive stage unpack
  have entries := extractUpload_ok codecs limits filename blob _ staged unpacked extracted unpack
  have straightStaging := straight_stagingOf root straight
  rcases stageUpload_ok root _ filename blob workspace staged stage with ⟨there, outside⟩
  rcases extractEntries_ok _ _ _ _ _ _ _ _ _ straightStaging there entries with
    ⟨listed, below, apart⟩
  rcases extractEntries_content straightStaging entries with ⟨_, distinct, held, keeps⟩
  rw [nil_append] at listed
  rw [← listsInside_congr kept] at inside
  rw [uploadTarget_archive root archive] at inside stage outside ⊢
  have ready : Unpacked root (placeName filename) (uploadEntries codecs filename blob) extracted
      unpacked := ⟨listed, below, inside⟩
  have reaches : (replaceCall (stagingOf root) (root ++ [placeName filename]) extracted unpacked
      fault).2 ≠ .refused := by
    unfold replaceCall
    split
    · simp
    · dsimp only
      split
      · simp
      · simp
      · simp
      · dsimp only
        split <;> simp
  refine ⟨?_, ?_, fun refused => absurd refused reaches, ?_,
    fun _ plain => absurd archive (by rw [plain]; decide)⟩
  · intro path beside
    rw [replaceCall_beside ready fault beside, apart path beside.staging beside.aboveStaging]
    exact outside path beside.staging beside.aboveStaging (beside.above [])
  · intro early
    refine ⟨?_, fun plain => absurd archive (by rw [plain]; decide)⟩
    intro place content notStaged before
    have file := keeps place content ((stageUpload_keeps stage).2 place content notStaged before)
    cases read : readMarker unpacked (root ++ [placeName filename]) with
    | error failure =>
      simp only [replaceCall, read]
      rw [rmtree_outside _ _ _ notStaged]
      exact file
    | ok lines =>
      exfalso
      simp only [replaceCall, read] at early
      split at early
      · simp at early
      · simp at early
      · simp at early
      · dsimp only at early
        split at early <;> simp at early
  · intro stored _ entry member
    rcases held entry member with ⟨content, read, file⟩
    refine ⟨content, read, ?_⟩
    cases marker : readMarker unpacked (root ++ [placeName filename]) with
    | error failure => simp [replaceCall, marker] at stored
    | ok lines =>
      simp only [replaceCall, marker] at stored ⊢
      split at stored
      · cases stored
      · cases stored
      · cases stored
      · dsimp only at stored
        split at stored
        · rename_i completed
          exact replaceUpload_holds ready placed distinct named completed entry member content file
        · cases stored

theorem placeName_visible (visible : Visible filename) :
    Visible (placeName filename) := by
  rw [placeName]
  split
  · exact safeFilename_visible _
  · exact visible

theorem storeCall_effect (workspace : Workspace) (limits : UploadLimits) (fault : Option Fault)
    (visible : Visible filename) (straight : ['.', '.'] ∉ root)
    (named : ∀ entry ∈ uploadEntries codecs filename blob,
      isGenerated (memberParts entry.name) = false)
    (inside : isUploadArchive filename = true →
      listsInside workspace (uploadTarget root filename) = true) :
    Effect codecs root filename blob workspace
      (storeCall codecs root filename limits blob workspace fault).1
      (storeCall codecs root filename limits blob workspace fault).2 := by
  unfold storeCall
  dsimp only
  cases stage : stageUpload root (uploadTarget root filename) filename blob workspace with
  | error failure => exact Effect.unchanged codecs root filename blob workspace
  | ok staged =>
    have cleaned : Effect codecs root filename blob workspace (rmtree staged (stagingOf root))
        .staged := staged_effect visible stage _ fun place outside => rmtree_outside _ _ _ outside
    dsimp only
    split
    · exact staged_effect visible stage _ fun _ _ => rfl
    · split
      · exact cleaned
      · cases archive : isUploadArchive filename with
        | true =>
          rw [if_pos rfl]
          cases unpack : extractUpload codecs limits filename blob (stagingOf root) staged with
          | error failure => exact cleaned
          | ok outcome =>
            exact archive_effect fault (placeName_visible visible) straight archive
              named (inside archive) stage unpack
        | false =>
          rw [if_neg (by decide), uploadTarget_plain root archive]
          cases replaced : replaceFile staged (stagingOf root ++ [filename])
              (root ++ [filename]) with
          | error failure => exact cleaned
          | ok moved => exact plain_effect visible archive stage replaced

end SourceLens.UploadArchive
