import SourceLens.UploadExtraction

/-! What an extraction does to the disk, whether it returns or raises, and which members
it returns the paths of. -/

namespace SourceLens.UploadExtraction

open List
open PosixPath (Path)
open FileTree
open UploadArchive (Content Workspace UploadError Entry ZipInfo TarMember NameCodecs UploadLimits
  limitOr readOr zipIsDir zipIsLink)

variable {base path root : Path} {disk : Disk} {staged after made middle : Workspace}
  {member : Member}

def Based (base : Path) (staged : Workspace) : Prop :=
  ∀ place, place <+: base → present staged place = true

/-- Whatever was there is unchanged, and so is everything that is not below the root. -/
structure Contained (base : Path) (staged after : Workspace) : Prop where
  kept : ∀ place, present staged place = true → after place = staged place
  outside : ∀ place, ¬ base <+: place → after place = staged place

theorem Contained.refl (base : Path) (staged : Workspace) : Contained base staged staged :=
  ⟨fun _ _ => rfl, fun _ _ => rfl⟩

theorem Contained.present (contained : Contained base staged after) {place : Path}
    (there : present staged place = true) : present after place = true := by
  rw [FileTree.present, contained.kept place there]
  exact there

theorem Contained.trans (first : Contained base staged middle)
    (second : Contained base middle after) : Contained base staged after where
  kept place there := by
    rw [second.kept place (first.present there), first.kept place there]
  outside place apart := by
    rw [second.outside place apart, first.outside place apart]

theorem Contained.based (contained : Contained base staged after) (based : Based base staged) :
    Based base after :=
  fun place above => contained.present (based place above)

theorem mkdirs_contained (based : Based base staged) (below : base <+: path)
    (done : mkdirs staged path = .ok made) : Contained base staged made where
  kept place there := mkdirs_same staged made path place there done
  outside place apart := by
    by_cases above : place <+: path
    · rcases prefix_or_prefix_of_prefix above below with up | down
      · exact mkdirs_same staged made path place (based place up) done
      · exact absurd down apart
    · exact mkdirs_outside staged made path place above done

theorem writeFile_contained {written : Workspace} {content : Content} (below : base <+: path)
    (vacant : present made path = false) (done : writeFile made path content = .ok written) :
    Contained base made written where
  kept place there := by
    apply writeFile_outside made written path place content ?_ done
    rintro rfl
    rw [vacant] at there
    cases there
  outside place apart := by
    apply writeFile_outside made written path place content ?_ done
    rintro rfl
    exact apart below

theorem archiveMemberPath_below {name : List Char} (resolved : disk.resolve root = .ok base)
    (accepted : archiveMemberPath disk root name = .ok path) : base <+: path := by
  simp only [archiveMemberPath, resolved] at accepted
  split at accepted
  · cases accepted
  · split at accepted
    · cases accepted
    · split at accepted
      · cases accepted
      · rename_i other
        cases other
      · rename_i other same
        cases same
        split at accepted
        · rename_i below
          cases accepted
          exact below
        · cases accepted

theorem copyMember_contained {entry : Entry} (below : base <+: path)
    (vacant : present made path = false) :
    Contained base made (copyMember disk entry path made).workspace := by
  unfold copyMember
  split
  · split
    · rename_i written done
      exact writeFile_contained below vacant done
    · exact .refl base made
  · split
    · exact .refl base made
    · split
      · rename_i written done
        exact writeFile_contained below vacant done
      · exact .refl base made

theorem copyMember_ok {entry : Entry} {place : Path}
    (done : (copyMember disk entry path made).result = .ok place) :
    place = path ∧ ∃ content, entry.content = .ok content ∧
      (copyMember disk entry path made).workspace path = some (.file content) := by
  revert done
  unfold copyMember
  split
  · rename_i content read
    split
    · rename_i written stored
      intro done
      cases done
      refine ⟨rfl, content, read, ?_⟩
      rw [writeFile_eq made written path content stored]
      exact put_self ..
    · nofun
  · split
    · nofun
    · split
      · nofun
      · nofun

theorem mkdirs_vacant (filled : path ≠ []) (vacant : present staged path = false)
    (done : mkdirs staged path.dropLast = .ok made) : present made path = false := by
  have deeper : ¬ path <+: path.dropLast := by
    intro above
    have short := above.length_le
    have positive := length_pos_of_ne_nil filled
    rw [length_dropLast] at short
    omega
  rw [present, mkdirs_outside staged made path.dropLast path deeper done]
  exact vacant

theorem below_parent (below : base <+: path) (different : path ≠ base) :
    path ≠ [] ∧ base <+: path.dropLast := by
  obtain ⟨rest, rfl⟩ := below
  have more : rest ≠ [] := by
    rintro rfl
    exact different (append_nil base)
  refine ⟨by simp [more], ?_⟩
  rw [dropLast_append_of_ne_nil more]
  exact prefix_append ..

structure Placed (disk : Disk) (root base : Path) (entry : Entry) (staged : Workspace)
    (done : Extraction Path) : Prop where
  contained : Contained base staged done.workspace
  stored : ∀ path, done.result = .ok path →
    archiveMemberPath disk root entry.name = .ok path ∧ base <+: path ∧ path ≠ base ∧
      present staged path = false ∧
      ∃ content, entry.content = .ok content ∧ done.workspace path = some (.file content)

theorem placeMember_placed (entry : Entry) (resolved : disk.resolve root = .ok base)
    (based : Based base staged) :
    Placed disk root base entry staged (placeMember disk root entry staged) := by
  unfold placeMember
  cases accepted : archiveMemberPath disk root entry.name with
  | error failure => exact ⟨.refl .., by rintro _ ⟨⟩⟩
  | ok path =>
    have below := archiveMemberPath_below resolved accepted
    dsimp only
    split
    · exact ⟨.refl .., by rintro _ ⟨⟩⟩
    · rename_i absent
      have vacant : present staged path = false := by simpa using absent
      have different : path ≠ base := by
        rintro rfl
        rw [based path (prefix_refl path)] at vacant
        cases vacant
      obtain ⟨filled, parent⟩ := below_parent below different
      cases made : mkdirs staged path.dropLast with
      | error failure => exact ⟨.refl .., by rintro _ ⟨⟩⟩
      | ok created =>
        have still := mkdirs_vacant filled vacant made
        refine ⟨?_, ?_⟩
        · exact (mkdirs_contained based parent made).trans (copyMember_contained below still)
        · intro place done
          obtain ⟨rfl, content, read, stored⟩ := copyMember_ok done
          exact ⟨accepted, below, different, vacant, content, read, stored⟩

/-- The path of a returned file is the one its member names, with the member's content. -/
def Delivered (disk : Disk) (root : Path) (after : Workspace) (member : Member) (path : Path) :
    Prop :=
  archiveMemberPath disk root member.entry.name = .ok path ∧
    ∃ content, member.entry.content = .ok content ∧ after path = some (.file content)

def sizes (members : List Member) : Nat :=
  (members.filter (·.taken)).foldr (fun member total => member.entry.size + total) 0

/-- What the rest of the loop adds to the paths extracted so far. -/
structure Added (disk : Disk) (root base : Path) (members : List Member) (staged after : Workspace)
    (paths : List Path) : Prop where
  delivered : List.Forall₂ (Delivered disk root after) (members.filter (·.taken)) paths
  distinct : paths.Nodup
  inside : ∀ path ∈ paths, base <+: path ∧ path ≠ base
  absent : ∀ path ∈ paths, present staged path = false

structure Looped (disk : Disk) (maxBytes maxFiles : Nat) (root base : Path)
    (members : List Member) (extractedBytes : Nat) (extracted : List Path) (staged : Workspace)
    (done : Extraction (List Path)) : Prop where
  contained : Contained base staged done.workspace
  returned : ∀ paths, done.result = .ok paths → ∃ more, paths = extracted ++ more ∧
    Added disk root base members staged done.workspace more ∧
    paths.length ≤ maxFiles ∧ extractedBytes + sizes members ≤ maxBytes

theorem Delivered.kept (delivered : Delivered disk root middle member path)
    (contained : Contained base middle after) : Delivered disk root after member path := by
  obtain ⟨accepted, content, read, stored⟩ := delivered
  refine ⟨accepted, content, read, ?_⟩
  rw [contained.kept path (by rw [present, stored]; rfl), stored]

theorem Added.cons {rest : List Member} {more : List Path} (taken : member.taken = true)
    (placed : Placed disk root base member.entry staged ⟨middle, .ok path⟩)
    (contained : Contained base middle after) (added : Added disk root base rest middle after more) :
    Added disk root base (member :: rest) staged after (path :: more) := by
  obtain ⟨accepted, below, different, vacant, content, read, stored⟩ := placed.stored path rfl
  have first : Delivered disk root middle member path := ⟨accepted, content, read, stored⟩
  have there : present middle path = true := by
    have held : middle path = some (.file content) := stored
    rw [present, held]
    rfl
  refine ⟨?_, ?_, ?_, ?_⟩
  · rw [filter_cons_of_pos taken]
    exact .cons (first.kept contained) added.delivered
  · refine nodup_cons.mpr ⟨?_, added.distinct⟩
    intro again
    rw [added.absent path again] at there
    cases there
  · intro place member
    rcases mem_cons.mp member with rfl | later
    · exact ⟨below, different⟩
    · exact added.inside place later
  · intro place member
    rcases mem_cons.mp member with rfl | later
    · exact vacant
    · rw [Bool.eq_false_iff]
      intro before
      have after := placed.contained.present before
      rw [added.absent place later] at after
      cases after

theorem filter_skipped (skipped : member.taken = false) (rest : List Member) :
    (member :: rest).filter (·.taken) = rest.filter (·.taken) := by
  simp [skipped]

theorem extractMembers_looped {maxBytes maxFiles : Nat} (resolved : disk.resolve root = .ok base)
    (members : List Member) (extractedBytes : Nat) (extracted : List Path) (staged : Workspace)
    (based : Based base staged) (fewFiles : extracted.length ≤ maxFiles)
    (fewBytes : extractedBytes ≤ maxBytes) :
    Looped disk maxBytes maxFiles root base members extractedBytes extracted staged
      (extractMembers disk maxBytes maxFiles root members extractedBytes extracted staged) := by
  induction members generalizing extractedBytes extracted staged with
  | nil =>
    refine ⟨.refl .., ?_⟩
    intro paths done
    cases done
    refine ⟨[], (append_nil _).symm, ?_, fewFiles, fewBytes⟩
    exact ⟨.nil, nodup_nil, by rintro _ ⟨⟩, by rintro _ ⟨⟩⟩
  | cons member rest ih =>
    rw [extractMembers]
    by_cases skipped : member.taken = false
    · rw [if_pos skipped]
      obtain ⟨contained, returned⟩ := ih extractedBytes extracted staged based fewFiles fewBytes
      refine ⟨contained, ?_⟩
      intro paths done
      obtain ⟨more, rfl, added, files, bytes⟩ := returned paths done
      have same := filter_skipped skipped rest
      refine ⟨more, rfl, ?_, files, by rwa [sizes, same]⟩
      exact ⟨same ▸ added.delivered, added.distinct, added.inside, added.absent⟩
    · rw [if_neg skipped]
      have taken : member.taken = true := by simpa using skipped
      split
      · exact ⟨.refl .., by rintro _ ⟨⟩⟩
      · rename_i room
        split
        · exact ⟨.refl .., by rintro _ ⟨⟩⟩
        · rename_i bytes
          have placed := placeMember_placed member.entry resolved based
          revert placed
          cases placeMember disk root member.entry staged with
          | mk middle result =>
            intro placed
            cases result with
            | error failure => exact ⟨placed.contained, by rintro _ ⟨⟩⟩
            | ok path =>
              dsimp only
              obtain ⟨contained, returned⟩ := ih (extractedBytes + member.entry.size)
                (extracted ++ [path]) middle (placed.contained.based based)
                (by rw [length_append, length_singleton]; omega) (by omega)
              refine ⟨placed.contained.trans contained, ?_⟩
              intro paths done
              obtain ⟨more, rfl, added, files, total⟩ := returned paths done
              have sum : sizes (member :: rest) = member.entry.size + sizes rest := by
                simp [sizes, taken]
              refine ⟨path :: more, append_assoc .., ?_, files, by omega⟩
              exact .cons taken placed contained added

structure Extracted (limits : UploadLimits) (base : Path) (members : List Member)
    (staged : Workspace) (paths : List Path) : Prop where
  distinct : paths.Nodup
  inside : ∀ path ∈ paths, base <+: path ∧ path ≠ base
  absent : ∀ path ∈ paths, present staged path = false
  files : paths.length ≤ maxFiles limits
  bytes : sizes members ≤ maxBytes limits

/-- One path for each regular member, in their order, and no other. -/
def OneEach (disk : Disk) (root : Path) (members : List Member) (after : Workspace)
    (paths : List Path) : Prop :=
  List.Forall₂ (Delivered disk root after) (members.filter (·.regular)) paths

/-- A call that touches nothing outside the root, and raises or returns the files of the
regular members. -/
structure Exact (disk : Disk) (limits : UploadLimits) (root base : Path) (members : List Member)
    (staged : Workspace) (done : Extraction (List Path)) : Prop where
  contained : Contained base staged done.workspace
  returned : ∀ paths, done.result = .ok paths →
    Extracted limits base members staged paths ∧ OneEach disk root members done.workspace paths

/-- No member that passes the filters is of another type than a regular file. -/
def RegularOnly (members : List Member) : Prop :=
  ∀ member ∈ members, member.taken = true → member.regular = true

theorem zipMember_regular (codecs : NameCodecs) (info : ZipInfo)
    (regular : (zipMember codecs info).regular = true) : (zipMember codecs info).taken = true := by
  simp only [zipMember, zipIsRegular, zipFileType, Bool.and_eq_true, Bool.or_eq_true,
    beq_iff_eq] at regular
  simp only [zipMember, zipIsLink, Bool.and_eq_true, Bool.not_eq_true']
  refine ⟨by simpa using regular.1, beq_eq_false_iff_ne.mpr ?_⟩
  rcases regular.2 with none | file
  · rw [none]
    decide
  · rw [file]
    decide

theorem members_regular (codecs : NameCodecs) (archive : Archive) :
    ∀ member ∈ archive.members codecs, member.regular = true → member.taken = true := by
  intro member there regular
  cases archive with
  | zip infos =>
    obtain ⟨info, _, rfl⟩ := mem_map.mp there
    exact zipMember_regular codecs info regular
  | tar members =>
    obtain ⟨tar, _, rfl⟩ := mem_map.mp there
    exact regular

theorem tar_regularOnly (codecs : NameCodecs) (members : List TarMember) :
    RegularOnly ((Archive.tar members).members codecs) := by
  intro member there taken
  obtain ⟨tar, _, rfl⟩ := mem_map.mp there
  exact taken

theorem filter_regular {members : List Member}
    (passes : ∀ member ∈ members, member.regular = true → member.taken = true) :
    (members.filter (·.taken)).filter (·.regular) = members.filter (·.regular) := by
  rw [filter_filter]
  apply filter_congr
  intro member there
  cases regular : member.regular with
  | false => rfl
  | true => simp [passes member there regular]

theorem oneEach_iff {members : List Member} {paths : List Path}
    (passes : ∀ member ∈ members, member.regular = true → member.taken = true)
    (delivered : List.Forall₂ (Delivered disk root after) (members.filter (·.taken)) paths) :
    OneEach disk root members after paths ↔ RegularOnly members := by
  rw [OneEach, ← filter_regular passes]
  constructor
  · intro one
    have short : ((members.filter (·.taken)).filter (·.regular)).length =
        (members.filter (·.taken)).length := one.length_eq.trans delivered.length_eq.symm
    intro member there taken
    exact length_filter_eq_length_iff.mp short member
      (mem_filter.mpr ⟨there, taken⟩)
  · intro only
    have all : (members.filter (·.taken)).filter (·.regular) = members.filter (·.taken) := by
      apply filter_eq_self.mpr
      intro member there
      exact only member (mem_filter.mp there).1 (mem_filter.mp there).2
    rwa [all]

/-- For every archive and every limits: an extraction never touches anything outside the
root or anything that was there, it returns distinct new paths strictly inside the root
within the limits, and these are the files of the regular members if and only if no member
of another type passes the filters, which for a tar archive is always so. -/
theorem extract_exact (disk : Disk) (codecs : NameCodecs) (limits : UploadLimits)
    (root base : Path) (archive : Archive) (staged : Workspace)
    (resolved : disk.resolve root = .ok base) (based : Based base staged) :
    let members := archive.members codecs
    let done := extractArchive disk codecs limits root archive staged
    Contained base staged done.workspace ∧
      (∀ paths, done.result = .ok paths → Extracted limits base members staged paths) ∧
      (Exact disk limits root base members staged done ↔
        ∀ paths, done.result = .ok paths → RegularOnly members) ∧
      ∀ tars, archive = .tar tars → RegularOnly members := by
  intro members done
  have looped : Looped disk (maxBytes limits) (maxFiles limits) root base members 0 [] staged
      done := by
    simp only [done, extractArchive_members]
    exact extractMembers_looped resolved members 0 [] staged based (Nat.zero_le _) (Nat.zero_le _)
  have passes := members_regular codecs archive
  have extracted : ∀ paths, done.result = .ok paths →
      Extracted limits base members staged paths ∧
        (OneEach disk root members done.workspace paths ↔ RegularOnly members) := by
    intro paths returned
    obtain ⟨more, rfl, added, files, bytes⟩ := looped.returned paths returned
    rw [Nat.zero_add] at bytes
    exact ⟨⟨added.distinct, added.inside, added.absent, files, bytes⟩,
      oneEach_iff passes added.delivered⟩
  refine ⟨looped.contained, fun paths returned => (extracted paths returned).1, ?_, ?_⟩
  · constructor
    · intro exact paths returned
      exact (extracted paths returned).2.mp (exact.returned paths returned).2
    · intro only
      refine ⟨looped.contained, fun paths returned => ⟨(extracted paths returned).1, ?_⟩⟩
      exact (extracted paths returned).2.mpr (only paths returned)
  · rintro tars rfl
    exact tar_regularOnly codecs tars

def plainCodecs : NameCodecs where
  encodeCp437 _ := none
  decodeUtf8 _ := none
  decodeGbk _ := none

def defaultLimits : UploadLimits := ⟨none, none, none⟩

def emptyRoot : Workspace := fun path =>
  if path = [] ∨ path = [['r']] then some .directory else none

theorem emptyRoot_based : Based [['r']] emptyRoot := by
  intro place above
  rcases prefix_cons_iff.mp above with rfl | ⟨rest, rfl, empty⟩
  · rfl
  · cases prefix_nil.mp empty
    rfl

/-- A ZIP member whose Unix type is a regular file (`0o100644`) or a named pipe. -/
def report (fileType : Nat) : ZipInfo where
  filename := ['a']
  flagBits := 0
  externalAttr := fileType <<< 16
  fileSize := 1
  content := some (.utf8 ['x'])

theorem extract_exact_report :
    let done := extractArchive (lexical fun _ => none) plainCodecs defaultLimits [['r']]
      (.zip [report 0o100644]) emptyRoot
    done.result = .ok [[['r'], ['a']]] ∧
      Exact (lexical fun _ => none) defaultLimits [['r']] [['r']]
        ((Archive.zip [report 0o100644]).members plainCodecs) emptyRoot done := by
  have exact := extract_exact (lexical fun _ => none) plainCodecs defaultLimits [['r']] [['r']]
    (.zip [report 0o100644]) emptyRoot rfl emptyRoot_based
  refine ⟨by decide, exact.2.2.1.mpr ?_⟩
  intro paths _ member there _
  rw [mem_singleton.mp there]
  decide

/-- A named pipe of a ZIP archive is extracted as a file. -/
theorem named_pipe_extracted :
    ¬ Exact (lexical fun _ => none) defaultLimits [['r']] [['r']]
      ((Archive.zip [report 0o010644]).members plainCodecs) emptyRoot
      (extractArchive (lexical fun _ => none) plainCodecs defaultLimits [['r']]
        (.zip [report 0o010644]) emptyRoot) := by
  intro exact
  have returned : (extractArchive (lexical fun _ => none) plainCodecs defaultLimits [['r']]
      (.zip [report 0o010644]) emptyRoot).result = .ok [[['r'], ['a']]] := by decide
  have one := (exact.returned _ returned).2.length_eq
  revert one
  decide

end SourceLens.UploadExtraction
