import SourceLens.DocumentConvert

/-! The conversion of a whole managed workspace: the scan, the batches that
`post_process_documents` is called for one after the other, and the merged summary. -/

namespace SourceLens.ManagedConversion

open DocumentConvert

variable {Content : Type}

def DEFAULT_CONVERSION_BATCH_SIZE : Int := 16

def DEFAULT_CONVERSION_MAX_FILES : Int := 100000

/-- The entries of the conversion policy that bound the whole run come as `int` reads
them, `none` where it raises. -/
structure Command where
  sourceType : String
  conversion : Conversion
  batchSize : Option Int
  maxFiles : Option Int
  maxBytes : Option Int
  force : Bool
  visionConfigured : Bool
  foreign : LocalPath → Bool

def Command.sync (command : Command) (items : List Item) : Sync where
  items
  changedPaths := none
  conversion := command.conversion
  force := command.force
  visionConfigured := command.visionConfigured
  foreign := command.foreign

inductive ManagedError
  | notSupported
  | directoryRequired
  | resourceLimitExceeded
  /-- an exception of `post_process_documents` -/
  | raised
  deriving DecidableEq

/-- `_conversion_resource_limit` of `batch_size`. -/
def batchLimit (value : Option Int) : Nat :=
  let size := orDefault (value.getD DEFAULT_CONVERSION_BATCH_SIZE) DEFAULT_CONVERSION_BATCH_SIZE
  (max 1 (min size 128)).toNat

/-- `_conversion_resource_limit` of any other key. -/
def conversionResourceLimit (value : Option Int) (default : Int) : Int :=
  let limit := orDefault (value.getD default) default
  if limit = 0 then 0 else max 1 limit

def managedItems (listing : List LocalPath) : List Item :=
  listing.map fun path => { localPath := path, status := "cataloged" }

structure Scan where
  total : Nat
  supportedTotal : Nat
  unsupportedTotal : Nat
  unsupported : List Item
  deriving DecidableEq

def scanItem (conversion : Conversion) (scan : Scan) (item : Item) : Scan :=
  if isConvertible item.localPath conversion then
    { scan with total := scan.total + 1, supportedTotal := scan.supportedTotal + 1 }
  else
    { scan with
      total := scan.total + 1
      unsupportedTotal := scan.unsupportedTotal + 1
      unsupported :=
        if scan.unsupported.length < detailItemsLimit then scan.unsupported ++ [item]
        else scan.unsupported }

def scanManagedWorkspaceConversion (conversion : Conversion) (items : List Item) : Scan :=
  items.foldl (scanItem conversion) ⟨0, 0, 0, []⟩

def managedWorkspaceSize (tools : Tools Content) (workspace : Workspace Content)
    (items : List Item) : Nat :=
  items.foldl (fun total item => total + sizeAt tools workspace item.localPath) 0

/-- The batches of the loop over the items, with what the current one holds. -/
def batchesFrom (conversion : Conversion) (size : Nat) : List Item → List Item → List (List Item)
  | [], batch => if batch = [] then [] else [batch]
  | item :: rest, batch =>
    if isConvertible item.localPath conversion then
      if (batch ++ [item]).length < size then batchesFrom conversion size rest (batch ++ [item])
      else (batch ++ [item]) :: batchesFrom conversion size rest []
    else batchesFrom conversion size rest batch

def appendItem (summary : Summary) (item : Detail) : Summary :=
  if summary.items.length < detailItemsLimit then
    { summary with items := summary.items ++ [item] }
  else { summary with itemsTruncated := summary.itemsTruncated + 1 }

def mergeManagedConversionSummaries (current incoming : Summary) : Summary :=
  incoming.items.foldl appendItem
    { current with
      candidates := current.candidates + incoming.candidates
      converted := current.converted + incoming.converted
      skipped := current.skipped + incoming.skipped
      failed := current.failed + incoming.failed
      imagesSkipped := current.imagesSkipped + incoming.imagesSkipped
      imagesDuplicate := current.imagesDuplicate + incoming.imagesDuplicate
      warnings := (current.warnings ++ incoming.warnings).eraseDups
      itemsTruncated := current.itemsTruncated + incoming.itemsTruncated }

/-- The jobs of a batch as they are completed, with the outcomes of their converters. -/
abbrev Order := List (Item × ConverterOutcome)

/-- `none` where a call for a batch raises. -/
def runBatches (tools : Tools Content) (command : Command) :
    List (List Item) → List Order → Workspace Content → Summary →
      Option (Workspace Content × Summary)
  | [], _, workspace, summary => some (workspace, summary)
  | _ :: _, [], _, _ => none
  | batch :: rest, order :: orders, workspace, summary =>
    match postProcessDocuments tools (command.sync batch) order workspace with
    | none => none
    | some (after, incoming) =>
      runBatches tools command rest orders after
        (mergeManagedConversionSummaries summary incoming)

structure ManagedSummary extends Summary where
  total : Nat
  waiting : Nat
  active : Nat
  succeeded : Nat
  unsupported : Nat
  deriving DecidableEq

def unsupportedDetail (item : Item) : Detail := ⟨"unsupported", item.localPath, "UNSUPPORTED_TYPE"⟩

def managedConversionSummary (summary : Summary) (unsupported : List Item)
    (supportedTotal supportedCurrent unsupportedTotal : Nat) : ManagedSummary :=
  let existingPaths := summary.items.map (·.path)
  let available := detailItemsLimit - summary.items.length
  let newItems := (unsupported.map unsupportedDetail).filter fun item =>
    !existingPaths.contains item.path
  let remaining := supportedTotal - min supportedCurrent supportedTotal
  let active := if remaining = 0 then 0 else 1
  { summary with
    total := supportedTotal + unsupportedTotal
    waiting := remaining - active
    active
    succeeded := summary.converted
    unsupported := unsupportedTotal
    items := summary.items ++ newItems.take available
    itemsTruncated := summary.itemsTruncated + (newItems.length - available) }

def warnPartial (summary : ManagedSummary) : ManagedSummary :=
  if summary.failed = 0 then summary
  else { summary with warnings := (summary.warnings ++ ["CONVERSION_PARTIAL_FAILED"]).eraseDups }

def ensureUploadMetadata (tools : Tools Content) (conversion : Conversion)
    (workspace : Workspace Content) (items : List Item) : Workspace Content :=
  items.foldl (fun done item => ensureSourceMetadata tools conversion done item.localPath) workspace

/-- `listing` are the files below the target that are not generated and not under an
excluded root, `none` where the target is no directory. -/
def convertManagedWorkspace (tools : Tools Content) (command : Command)
    (listing : Option (List LocalPath)) (orders : List Order) (workspace : Workspace Content) :
    Except ManagedError (Workspace Content × ManagedSummary) :=
  if command.sourceType = "" then .error .notSupported
  else
    match listing with
    | none => .error .directoryRequired
    | some files =>
      let items := managedItems files
      let started :=
        if command.sourceType = "upload" then
          ensureUploadMetadata tools command.conversion workspace items
        else workspace
      let scan := scanManagedWorkspaceConversion command.conversion items
      let maxBytes := conversionResourceLimit command.maxBytes 0
      if conversionResourceLimit command.maxFiles DEFAULT_CONVERSION_MAX_FILES < scan.total then
        .error .resourceLimitExceeded
      else if maxBytes ≠ 0 ∧ maxBytes < managedWorkspaceSize tools started items then
        .error .resourceLimitExceeded
      else
        match runBatches tools command
            (batchesFrom command.conversion (batchLimit command.batchSize) items [])
            orders started {} with
        | none => .error .raised
        | some (after, summary) =>
          .ok (after, warnPartial (managedConversionSummary summary scan.unsupported
            scan.supportedTotal scan.supportedTotal scan.unsupportedTotal))

end SourceLens.ManagedConversion
