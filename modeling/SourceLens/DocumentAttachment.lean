import SourceLens.Library.ExpiringCache
import Mathlib.Data.List.Sort

/-! Transient document attachments: the metadata kept in the cache, and how it is read
and bound to a run. -/

namespace SourceLens.DocumentAttachment

open ExpiringCache

abbrev DocumentId := Nat
abbrev SessionId := Nat
abbrev UserId := Nat
abbrev RunId := Nat
abbrev NodeId := Nat

def second : Nat := 1000000

/-- The cached entries of a document that are read again; its file is named by `uuid`. -/
structure Metadata where
  uuid : DocumentId
  sessionUuid : SessionId
  uploadedById : UserId
  /-- The run it was bound to last; `""` is `none`. -/
  runUuid : Option RunId
  runUuids : List RunId
  lensnodeUuid : Option NodeId
  order : Nat
  quotaSlot : Nat
  expiresAt : Nat
  deriving DecidableEq

/-- Whole seconds from `now` to `expiresAt`, none past it. -/
def secondsLeft (expiresAt now : Nat) : Nat := (expiresAt - now) / second

/-- `_remaining_seconds`. -/
def remainingSeconds (metadata : Metadata) (now : Nat) : Nat := secondsLeft metadata.expiresAt now

/-- `get_document_attachment`, read only. -/
def getDocumentAttachment (cache : Cache DocumentId Metadata) (now : Nat) (document : DocumentId) :
    Option Metadata :=
  (get cache now document).filter fun metadata => decide (0 < remainingSeconds metadata now)

def dropExpired (cache : Cache DocumentId Metadata) (now : Nat) (document : DocumentId) :
    Cache DocumentId Metadata :=
  match get cache now document with
  | some metadata => if remainingSeconds metadata now = 0 then delete cache document else cache
  | none => cache

/-- `set.add` on a list without repetitions. -/
def addRun (run : RunId) (runs : List RunId) : List RunId :=
  if run ∈ runs then runs else runs ++ [run]

def boundRuns (metadata : Metadata) : List RunId :=
  match metadata.runUuid with
  | some run => addRun run metadata.runUuids
  | none => metadata.runUuids

def bindTo (run : RunId) (lensnode : NodeId) (order : Nat) (metadata : Metadata) : Metadata :=
  { metadata with
    runUuid := some run
    runUuids := addRun run (boundRuns metadata)
    lensnodeUuid := some lensnode
    order := order }

/-- `max(_remaining_seconds(item) for item in candidates)`. -/
def bindTimeout (now : Nat) (candidates : List Metadata) : Nat :=
  (candidates.map fun metadata => remainingSeconds metadata now).foldr max 0

def setMany (cache : Cache DocumentId Metadata) (candidates : List Metadata) (deadline : Nat) :
    Cache DocumentId Metadata :=
  candidates.foldl (fun cache metadata => set cache metadata.uuid metadata deadline) cache

theorem mem_addRun (run other : RunId) (runs : List RunId) :
    other ∈ addRun run runs ↔ other = run ∨ other ∈ runs := by
  unfold addRun
  split
  · rename_i known
    constructor
    · exact Or.inr
    · intro either
      cases either with
      | inl here => exact here ▸ known
      | inr there => exact there
  · rw [List.mem_append, List.mem_singleton, Or.comm]

theorem mem_boundRuns_bindTo (run : RunId) (lensnode : NodeId) (order : Nat)
    (metadata : Metadata) (other : RunId) :
    other ∈ boundRuns (bindTo run lensnode order metadata) ↔
      other = run ∨ other ∈ boundRuns metadata := by
  simp only [boundRuns, bindTo, mem_addRun]
  tauto

/-- An entry written with at least the seconds left of a document outlives it. -/
def Outlives (expiresAt deadline : Nat) : Prop :=
  ∀ now, 0 < secondsLeft expiresAt now → now < deadline

theorem outlives_timeout (expiresAt now timeout : Nat) (least : secondsLeft expiresAt now ≤ timeout) :
    Outlives expiresAt (now + timeout * second) := by
  intro later left
  have whole : secondsLeft expiresAt now * second ≤ timeout * second := Nat.mul_le_mul_right _ least
  have part : expiresAt - now < (secondsLeft expiresAt now + 1) * second :=
    Nat.lt_mul_of_div_lt (Nat.lt_succ_self _) (by decide)
  have gap : second ≤ expiresAt - later := by
    by_contra less
    have none' : (expiresAt - later) / second = 0 := Nat.div_eq_of_lt (by omega)
    rw [secondsLeft, none'] at left
    cases left
  have positive : 0 < second := by decide
  rw [Nat.add_mul, Nat.one_mul] at part
  omega

theorem getDocumentAttachment_of_entry {cache : Cache DocumentId Metadata} {document : DocumentId}
    {metadata : Metadata} {deadline now : Nat}
    (entry : cache document = some ⟨metadata, deadline⟩)
    (outlives : Outlives metadata.expiresAt deadline)
    (left : 0 < secondsLeft metadata.expiresAt now) :
    getDocumentAttachment cache now document = some metadata := by
  rw [getDocumentAttachment, get_of_entry entry (outlives now left)]
  simp [Option.filter, remainingSeconds, left]

theorem entry_of_getDocumentAttachment {cache : Cache DocumentId Metadata}
    {document : DocumentId} {metadata : Metadata} {now : Nat}
    (found : getDocumentAttachment cache now document = some metadata) :
    (∃ deadline, cache document = some ⟨metadata, deadline⟩) ∧
      0 < secondsLeft metadata.expiresAt now := by
  rw [getDocumentAttachment, Option.filter_eq_some_iff] at found
  rcases entry_of_get found.1 with ⟨deadline, entry, _⟩
  exact ⟨⟨deadline, entry⟩, of_decide_eq_true found.2⟩

theorem dropExpired_cases (cache : Cache DocumentId Metadata) (now : Nat) (document : DocumentId) :
    dropExpired cache now document = cache ∨
      dropExpired cache now document = delete cache document ∧
        ∃ metadata, get cache now document = some metadata ∧ remainingSeconds metadata now = 0 := by
  unfold dropExpired
  cases found : get cache now document with
  | none => exact Or.inl rfl
  | some metadata =>
    dsimp only
    split
    · rename_i expired
      exact Or.inr ⟨rfl, metadata, rfl, expired⟩
    · exact Or.inl rfl

theorem bindTimeout_ge (now : Nat) (candidates : List Metadata) :
    ∀ metadata ∈ candidates, remainingSeconds metadata now ≤ bindTimeout now candidates := by
  induction candidates with
  | nil => simp
  | cons head tail ih =>
    intro metadata member
    simp only [bindTimeout, List.map_cons, List.foldr_cons] at ih ⊢
    cases List.mem_cons.mp member with
    | inl here =>
      rw [here]
      exact Nat.le_max_left ..
    | inr there => exact Nat.le_trans (ih metadata there) (Nat.le_max_right ..)

/-- After `set_many` a document has one of the candidates for it, or what it had. -/
theorem setMany_cases (cache : Cache DocumentId Metadata) (candidates : List Metadata)
    (deadline : Nat) (document : DocumentId) :
    (∃ metadata ∈ candidates, metadata.uuid = document ∧
        setMany cache candidates deadline document = some ⟨metadata, deadline⟩) ∨
      (∀ metadata ∈ candidates, metadata.uuid ≠ document) ∧
        setMany cache candidates deadline document = cache document := by
  induction candidates generalizing cache with
  | nil => exact Or.inr ⟨by simp, rfl⟩
  | cons head tail ih =>
    have step : setMany cache (head :: tail) deadline =
        setMany (set cache head.uuid head deadline) tail deadline := rfl
    rw [step]
    rcases ih (set cache head.uuid head deadline) with ⟨metadata, member, uuid, held⟩ | ⟨none', kept⟩
    · exact Or.inl ⟨metadata, List.mem_cons_of_mem _ member, uuid, held⟩
    · by_cases same : head.uuid = document
      · refine Or.inl ⟨head, List.mem_cons_self, same, ?_⟩
        rw [kept, ← same, set_self]
      · refine Or.inr ⟨?_, ?_⟩
        · intro metadata member
          cases List.mem_cons.mp member with
          | inl here => rwa [here]
          | inr there => exact none' metadata there
        · rw [kept, set_other _ _ _ (Ne.symm same)]

theorem secondsLeft_mono (expiresAt : Nat) {now later : Nat} (order : now ≤ later) :
    secondsLeft expiresAt later ≤ secondsLeft expiresAt now :=
  Nat.div_le_div_right (by omega)

end SourceLens.DocumentAttachment
