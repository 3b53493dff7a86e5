import Mathlib.Data.List.Perm.Basic
import SourceLens.Library.Utf8

/-! The import of the Skills of a GitHub archive (`_import_github_roots` of `skill_packages.py`): each
root is packed again, and the digest of the package decides whether a Skill is the one stored. -/

namespace SourceLens.SkillImport

open Utf8 (Bytes)

abbrev FilePath := List (List Char)

/-- A regular file below a root, with the permissions that the extraction has given it. -/
structure File where
  path : FilePath
  executable : Bool
  content : Bytes
  deriving DecidableEq

/-- A member of the package, with the time stamp of its file in ZIP's resolution of two seconds. -/
structure Member where
  file : File
  stamp : Nat
  deriving DecidableEq

/-- A root as it is extracted: the order in which `rglob` lists its files, and the second each was
written in. -/
structure Listing where
  order : List File → List File
  permutes : ∀ files, (order files).Perm files
  written : FilePath → Nat

def packed (listing : Listing) (files : List File) : List Member :=
  (listing.order files).map fun file => ⟨file, listing.written file.path / 2⟩

inductive SourceType
  | upload
  | github
  deriving DecidableEq

structure Skill (Digest : Type) where
  packageHash : Digest
  sourceType : SourceType
  sourceRef : String
  deriving DecidableEq

abbrev Catalogue (Digest : Type) := String → Option (Skill Digest)

inductive Failure
  /-- The package is invalid, with the message. -/
  | invalid (message : String)
  | alreadyExists (name : String)
  deriving DecidableEq

/-- What the import computes from bytes: the archive of the members, its digest, and the package name
of the files, unless they are no valid Skill. -/
structure Packaging (Digest : Type) where
  zip : List Member → Bytes
  sha256 : Bytes → Digest
  packageName : List File → Except String String
  unordered : ∀ files others, files.Perm others → packageName files = packageName others

variable {Digest : Type} [DecidableEq Digest]

def saved (packaging : Packaging Digest) (sourceRef : String) (members : List Member) : Skill Digest :=
  ⟨packaging.sha256 (packaging.zip members), .github, sourceRef⟩

/-- `import_skill_zip` on a package that was made of the members. -/
def importSkillZip (packaging : Packaging Digest) (sourceRef : String) (catalogue : Catalogue Digest)
    (members : List Member) : Except Failure (Catalogue Digest) :=
  match packaging.packageName (members.map Member.file) with
  | .error message => .error (.invalid message)
  | .ok name =>
    let skill := saved packaging sourceRef members
    match catalogue name with
    | some existing =>
      if existing.packageHash ≠ skill.packageHash ∨ existing.sourceType ≠ .github then
        .error (.alreadyExists name)
      else .ok (Function.update catalogue name (some skill))
    | none => .ok (Function.update catalogue name (some skill))

/-- What an import comes to: the catalogue, how many roots it has imported, and the failure at the next
one. -/
structure Outcome (Digest : Type) where
  catalogue : Catalogue Digest
  imported : Nat
  failure : Option Failure

/-- `_import_github_roots` -/
def importGithubRoots (packaging : Packaging Digest) (sourceRef : String) :
    Catalogue Digest → Nat → List (Listing × List File) → Outcome Digest
  | catalogue, count, [] => ⟨catalogue, count, none⟩
  | catalogue, count, (listing, files) :: rest =>
    match importSkillZip packaging sourceRef catalogue (packed listing files) with
    | .error failure => ⟨catalogue, count, some failure⟩
    | .ok after => importGithubRoots packaging sourceRef after (count + 1) rest

section

variable {packaging : Packaging Digest} {listing first second : Listing} {sourceRef name : String}
  {before after later : Catalogue Digest} {count : Nat} {files : List File}
  {front roots : List (Listing × List File)}

theorem packed_files : ((packed listing files).map Member.file).Perm files := by
  rw [packed, List.map_map]
  exact (List.Perm.of_eq (List.map_id _)).trans (listing.permutes files)

omit [DecidableEq Digest] in
theorem packed_name : packaging.packageName ((packed listing files).map Member.file) =
    packaging.packageName files :=
  packaging.unordered _ _ packed_files

/-- A package that is imported is the Skill of its name, and the others are as before. -/
theorem import_saves
    (imported : importSkillZip packaging sourceRef before (packed listing files) = .ok after) :
    ∃ name, packaging.packageName files = .ok name ∧
      after = Function.update before name (some (saved packaging sourceRef (packed listing files))) := by
  rw [importSkillZip, packed_name] at imported
  cases named : packaging.packageName files with
  | error message =>
    rw [named] at imported
    cases imported
  | ok name =>
    rw [named] at imported
    refine ⟨name, rfl, ?_⟩
    dsimp only at imported
    cases held : before name with
    | none =>
      rw [held] at imported
      exact (Except.ok.inj imported).symm
    | some existing =>
      rw [held] at imported
      dsimp only at imported
      split at imported
      · cases imported
      · exact (Except.ok.inj imported).symm

theorem importGithubRoots_append (later : List (Listing × List File)) :
    importGithubRoots packaging sourceRef before count (front ++ later) =
      match importGithubRoots packaging sourceRef before count front with
      | ⟨after, imported, none⟩ => importGithubRoots packaging sourceRef after imported later
      | failed => failed := by
  induction front generalizing before count with
  | nil => rfl
  | cons root rest ih =>
    rw [List.cons_append, importGithubRoots, importGithubRoots]
    cases importSkillZip packaging sourceRef before (packed root.1 root.2) with
    | error failure => rfl
    | ok after => exact ih

theorem importGithubRoots_keeps (apart : ∀ root ∈ roots, packaging.packageName root.2 ≠ .ok name) :
    (importGithubRoots packaging sourceRef before count roots).catalogue name = before name := by
  induction roots generalizing before count with
  | nil => rfl
  | cons root rest ih =>
    rw [importGithubRoots]
    cases imported : importSkillZip packaging sourceRef before (packed root.1 root.2) with
    | error failure => rfl
    | ok after =>
      obtain ⟨own, named, rfl⟩ := import_saves imported
      have different : name ≠ own := by
        rintro rfl
        exact apart root (List.mem_cons_self ..) named
      calc (importGithubRoots packaging sourceRef _ (count + 1) rest).catalogue name
          = Function.update before own _ name :=
            ih fun other member => apart other (List.mem_cons_of_mem _ member)
        _ = before name := Function.update_of_ne different _ _

theorem importGithubRoots_counts :
    count ≤ (importGithubRoots packaging sourceRef before count roots).imported := by
  induction roots generalizing before count with
  | nil => exact Nat.le_refl _
  | cons root rest ih =>
    rw [importGithubRoots]
    cases importSkillZip packaging sourceRef before (packed root.1 root.2) with
    | error failure => exact Nat.le_refl _
    | ok after => exact Nat.le_of_succ_le ih

theorem import_refuses (named : packaging.packageName files = .ok name)
    (stored : later name = some (saved packaging sourceRef (packed first files))) :
    importSkillZip packaging sourceRef later (packed second files) = .error (.alreadyExists name) ↔
      (saved packaging sourceRef (packed first files)).packageHash ≠
        (saved packaging sourceRef (packed second files)).packageHash := by
  rw [importSkillZip, packed_name, named]
  dsimp only
  rw [stored]
  dsimp only
  have github : (saved packaging sourceRef (packed first files)).sourceType = .github := rfl
  constructor
  · intro refused same
    rw [if_neg (not_or.mpr ⟨not_not.mpr same, not_not.mpr github⟩)] at refused
    cases refused
  · intro differ
    rw [if_pos (.inl differ)]

end

/-- The second import of an archive passes a root whose Skill is stored from the same files exactly if
the files are listed in the same order and with the same time stamps as they were then. -/
theorem reimport_iff (packaging : Packaging Digest) (first second : Listing) (sourceRef name : String)
    (after later : Catalogue Digest) (front back : List (Listing × List File)) (files : List File)
    (count : Nat) (named : packaging.packageName files = .ok name)
    (stored : after name = some (saved packaging sourceRef (packed first files)))
    (apart : ∀ other ∈ front, packaging.packageName other.2 ≠ .ok name)
    (reached : importGithubRoots packaging sourceRef after 0 front = ⟨later, count, none⟩)
    (resistant : packaging.sha256 (packaging.zip (packed first files)) =
      packaging.sha256 (packaging.zip (packed second files)) → packed first files = packed second files) :
    importGithubRoots packaging sourceRef after 0 (front ++ (second, files) :: back) ≠
        ⟨later, count, some (.alreadyExists name)⟩ ↔
      packed first files = packed second files := by
  have kept : later name = some (saved packaging sourceRef (packed first files)) := by
    calc later name = (importGithubRoots packaging sourceRef after 0 front).catalogue name := by rw [reached]
      _ = after name := importGithubRoots_keeps apart
      _ = some (saved packaging sourceRef (packed first files)) := stored
  have refuses : importSkillZip packaging sourceRef later (packed second files) =
      .error (.alreadyExists name) ↔ _ := import_refuses named kept
  rw [importGithubRoots_append, reached]
  dsimp only
  rw [importGithubRoots]
  constructor
  · intro passes
    by_contra differ
    apply passes
    rw [refuses.mpr fun same => differ (resistant same)]
  · intro same
    cases imported : importSkillZip packaging sourceRef later (packed second files) with
    | error failure =>
      intro outcome
      cases outcome
      exact refuses.mp imported (by rw [same])
    | ok next =>
      intro outcome
      have counts : count + 1 ≤
          (importGithubRoots packaging sourceRef next (count + 1) back).imported :=
        importGithubRoots_counts
      dsimp only at outcome
      rw [outcome] at counts
      exact absurd counts (Nat.not_succ_le_self count)

def skillFiles : List File := [⟨[['S', 'K', 'I', 'L', 'L', '.', 'm', 'd']], false, [0x2D]⟩]

def writtenAt (second : Nat) : Listing where
  order := id
  permutes := List.Perm.refl
  written _ := second

def stamps : Packaging Bytes where
  zip members := members.map fun member => UInt8.ofNat member.stamp
  sha256 := id
  packageName _ := .ok "skill"
  unordered _ _ _ := rfl

theorem reimport_same_second :
    importGithubRoots stamps "main" (fun _ => some (saved stamps "main" (packed (writtenAt 4) skillFiles)))
        0 ([] ++ (writtenAt 5, skillFiles) :: []) ≠
        ⟨fun _ => some (saved stamps "main" (packed (writtenAt 4) skillFiles)), 0,
          some (.alreadyExists "skill")⟩ ↔
      packed (writtenAt 4) skillFiles = packed (writtenAt 5) skillFiles :=
  reimport_iff stamps (writtenAt 4) (writtenAt 5) "main" "skill" _ _ [] [] skillFiles 0 rfl rfl
    (by rintro _ ⟨⟩) rfl (fun _ => by decide)

/-- Two seconds later the Skill already exists. -/
theorem reimport_later_fails :
    (importGithubRoots stamps "main"
      (importGithubRoots stamps "main" (fun _ => none) 0 [(writtenAt 4, skillFiles)]).catalogue 0
      [(writtenAt 6, skillFiles)]).failure = some (.alreadyExists "skill") := by
  decide

end SourceLens.SkillImport
