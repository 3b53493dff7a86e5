import SourceLens.DocumentIndex

/-! What every operation on the store keeps: live documents own their slots and stay in the
index of their session. -/

namespace SourceLens.DocumentIndex

open ExpiringCache DocumentAttachment List Option

def Expired (store : Store) (document : DocumentId) : Prop :=
  ∃ ticket, store.issued document = some ticket ∧ secondsLeft ticket.expiresAt store.now = 0

def Dead (store : Store) (document : DocumentId) : Prop :=
  document ∈ store.forgotten ∨ Expired store document

/-- The metadata is the one the document was stored with, but for its bindings. -/
def Known (store : Store) (metadata : Metadata) : Prop :=
  store.issued metadata.uuid = some (ticket metadata) ∧ metadata.uuid ∈ store.written

/-- The history of `next` goes on from that of `store`. -/
structure Later (store next : Store) : Prop where
  now : store.now ≤ next.now
  issued : ∀ document ticket, store.issued document = some ticket → next.issued document = some ticket
  written : ∀ document ∈ store.written, document ∈ next.written
  forgotten : ∀ document ∈ store.forgotten, document ∈ next.forgotten

theorem Later.refl (store : Store) : Later store store :=
  ⟨Nat.le_refl _, fun _ _ known => known, fun _ member => member, fun _ member => member⟩

theorem Expired.later {store next : Store} {document : DocumentId} (later : Later store next)
    (expired : Expired store document) : Expired next document := by
  rcases expired with ⟨ticket, known, none'⟩
  have order := secondsLeft_mono ticket.expiresAt later.now
  rw [none'] at order
  exact ⟨ticket, later.issued document ticket known, Nat.le_zero.mp order⟩

theorem Dead.later {store next : Store} {document : DocumentId} (later : Later store next)
    (dead : Dead store document) : Dead next document := by
  cases dead with
  | inl gone => exact Or.inl (later.forgotten document gone)
  | inr expired => exact Or.inr (expired.later later)

theorem Known.later {store next : Store} {metadata : Metadata} (later : Later store next)
    (known : Known store metadata) : Known next metadata :=
  ⟨later.issued _ _ known.1, later.written _ known.2⟩

structure Sound (env : Env) (store : Store) : Prop where
  entry : ∀ document metadata deadline, store.metadata document = some ⟨metadata, deadline⟩ →
    metadata.uuid = document ∧ Known store metadata ∧ Outlives metadata.expiresAt deadline ∧
      (document ∈ store.forgotten → secondsLeft metadata.expiresAt store.now = 0)
  present : ∀ document ∈ store.written, ¬Dead store document →
    (store.metadata document).isSome = true
  held : ∀ document ticket, store.issued document = some ticket → ¬Dead store document →
    ∃ deadline, store.slots (ticket.uploader, ticket.slot) = some ⟨document, deadline⟩ ∧
      Outlives ticket.expiresAt deadline
  slot : ∀ key document deadline, store.slots key = some ⟨document, deadline⟩ →
    (∃ ticket, store.issued document = some ticket ∧ key = (ticket.uploader, ticket.slot)) ∧
      document ∉ store.released
  small : ∀ document ticket, store.issued document = some ticket → ticket.slot < maxPerUser
  bound : ∀ document ticket, store.issued document = some ticket →
    ticket.expiresAt ≤ store.now + env.ttl
  listed : ∀ document ∈ store.completed, ∀ ticket, store.issued document = some ticket →
    ¬Dead store document → ∃ documents deadline,
      store.index ticket.session = some ⟨documents, deadline⟩ ∧ document ∈ documents ∧
        Outlives ticket.expiresAt deadline
  members : ∀ session documents deadline, store.index session = some ⟨documents, deadline⟩ →
    ∀ document ∈ documents, document ∈ store.written
  issuedWritten : ∀ document ∈ store.written, (store.issued document).isSome = true
  issuedForgotten : ∀ document ∈ store.forgotten, (store.issued document).isSome = true
  released : ∀ document ∈ store.released, document ∈ store.forgotten
  completed : ∀ document ∈ store.completed, document ∈ store.written

theorem sound_start (env : Env) : Sound env start.store where
  entry := by simp [start, empty]
  present := by simp [start]
  held := by simp [start]
  slot := by simp [start, empty]
  small := by simp [start]
  bound := by simp [start]
  listed := by simp [start]
  members := by simp [start, empty]
  issuedWritten := by simp [start]
  issuedForgotten := by simp [start]
  released := by simp [start]
  completed := by simp [start]

theorem left_of_not_dead {store : Store} {document : DocumentId} {ticket : Ticket}
    (issued : store.issued document = some ticket) (alive : ¬Dead store document) :
    0 < secondsLeft ticket.expiresAt store.now := by
  by_contra none'
  exact alive (Or.inr ⟨ticket, issued, Nat.eq_zero_of_not_pos none'⟩)

theorem outlives_of_le {expiresAt deadline : Nat} (order : expiresAt ≤ deadline) :
    Outlives expiresAt deadline := by
  intro now left
  by_contra late
  have over' : expiresAt - now = 0 := by omega
  rw [secondsLeft, over', Nat.zero_div] at left
  cases left

variable {document : DocumentId}

section Readers

variable {env : Env} {store : Store} (sound : Sound env store)
include sound

theorem Sound.found {metadata : Metadata}
    (found : get store.metadata store.now document = some metadata) :
    metadata.uuid = document ∧ Known store metadata ∧
      (document ∈ store.forgotten → secondsLeft metadata.expiresAt store.now = 0) := by
  rcases entry_of_get found with ⟨deadline, entry, _⟩
  have facts := sound.entry document metadata deadline entry
  exact ⟨facts.1, facts.2.1, facts.2.2.2⟩

theorem Sound.not_dead_of_found {metadata : Metadata}
    (found : store.document document = some metadata) :
    metadata.uuid = document ∧ Known store metadata ∧ ¬Dead store document := by
  rw [Store.document, getDocumentAttachment, filter_eq_some_iff] at found
  have left : 0 < remainingSeconds metadata store.now := of_decide_eq_true found.2
  rw [remainingSeconds] at left
  rcases sound.found found.1 with ⟨uuid, known, gone⟩
  refine ⟨uuid, known, ?_⟩
  rintro (forgotten | ⟨other, issued, none'⟩)
  · rw [gone forgotten] at left
    cases left
  · rw [← uuid, known.1] at issued
    cases issued
    rw [ticket] at none'
    rw [none'] at left
    cases left

theorem Sound.dead_of_missing (written : document ∈ store.written)
    (missing : get store.metadata store.now document = none) : Dead store document := by
  by_contra alive
  rcases isSome_iff_exists.mp (sound.present document written alive) with
    ⟨⟨metadata, deadline⟩, entry⟩
  rcases sound.entry document metadata deadline entry with ⟨uuid, known, outlives, _⟩
  have left : 0 < secondsLeft metadata.expiresAt store.now :=
    @left_of_not_dead store document (ticket metadata) (uuid ▸ known.1) alive
  rw [get_of_entry entry (outlives store.now left)] at missing
  cases missing

theorem Sound.expired_of_found {metadata : Metadata}
    (found : get store.metadata store.now document = some metadata)
    (expired : remainingSeconds metadata store.now = 0) : Expired store document := by
  rcases sound.found found with ⟨uuid, known, _⟩
  exact ⟨ticket metadata, uuid ▸ known.1, expired⟩

theorem Sound.listed_written {session : SessionId} :
    ∀ document ∈ store.listed session, document ∈ store.written := by
  intro document member
  rw [Store.listed] at member
  cases found : get store.index store.now session with
  | none =>
    rw [found] at member
    cases member
  | some documents =>
    rw [found] at member
    rcases entry_of_get found with ⟨deadline, entry, _⟩
    exact sound.members session documents deadline entry document member

theorem Sound.mem_listed {ticket : Ticket}
    (completed : document ∈ store.completed) (issued : store.issued document = some ticket)
    (alive : ¬Dead store document) : document ∈ store.listed ticket.session := by
  rcases sound.listed document completed ticket issued alive with
    ⟨documents, deadline, entry, member, outlives⟩
  have left := left_of_not_dead issued alive
  rw [Store.listed, get_of_entry entry (outlives store.now left)]
  exact member

theorem Sound.slot_read {ticket : Ticket}
    (issued : store.issued document = some ticket) (alive : ¬Dead store document) :
    get store.slots store.now (ticket.uploader, ticket.slot) = some document := by
  rcases sound.held document ticket issued alive with ⟨deadline, entry, outlives⟩
  have left := left_of_not_dead issued alive
  exact get_of_entry entry (outlives store.now left)

end Readers

variable (metadata : Metadata) (session : SessionId) (documents : List DocumentId)

section Operations

variable {env : Env} {store : Store} (sound : Sound env store)
include sound

theorem Sound.tick (duration : Nat) : Sound env { store with now := store.now + duration } := by
  have later : Later store { store with now := store.now + duration } :=
    ⟨Nat.le_add_right .., fun _ _ known => known, fun _ member => member, fun _ member => member⟩
  have alive : ∀ document, ¬Dead { store with now := store.now + duration } document →
      ¬Dead store document := fun _ alive dead => alive (dead.later later)
  refine { sound with entry := ?_, present := ?_, held := ?_, bound := ?_, listed := ?_ }
  · intro document metadata deadline entry
    rcases sound.entry document metadata deadline entry with ⟨uuid, known, outlives, gone⟩
    refine ⟨uuid, known, outlives, fun forgotten => ?_⟩
    have order := secondsLeft_mono metadata.expiresAt (Nat.le_add_right store.now duration)
    rw [gone forgotten] at order
    exact Nat.le_zero.mp order
  · exact fun document written dead => sound.present document written (alive document dead)
  · exact fun document ticket issued dead => sound.held document ticket issued (alive document dead)
  · intro document ticket issued
    have before := sound.bound document ticket issued
    dsimp only
    omega
  · exact fun document completed ticket issued dead =>
      sound.listed document completed ticket issued (alive document dead)

theorem Sound.reserve (draft : Draft) (call : CallId) (slot : Nat)
    (fresh : store.issued call = none) (small : slot < maxPerUser)
    (free : get store.slots store.now (draft.uploader, slot) = none)
    (bound : draft.expiresAt ≤ store.now + env.ttl) :
    Sound env (store.reserve env draft call slot) := by
  have other : ∀ document ticket, store.issued document = some ticket → document ≠ call := by
    rintro document ticket issued rfl
    rw [fresh] at issued
    cases issued
  have kept : ∀ document ticket, store.issued document = some ticket →
      (store.reserve env draft call slot).issued document = some ticket := by
    intro document ticket issued
    dsimp only [Store.reserve]
    rw [Function.update_of_ne (other document ticket issued)]
    exact issued
  have alive : ∀ document ticket, store.issued document = some ticket →
      ¬Dead (store.reserve env draft call slot) document → ¬Dead store document := by
    rintro document ticket issued alive (forgotten | ⟨same, known, none'⟩)
    · exact alive (Or.inl forgotten)
    · exact alive (Or.inr ⟨same, kept document same known, none'⟩)
  have cases' : ∀ document ticket, (store.reserve env draft call slot).issued document = some ticket →
      document = call ∧ ticket = SourceLens.DocumentIndex.ticket (draft.metadata call slot) ∨
        document ≠ call ∧ store.issued document = some ticket := by
    intro document ticket issued
    dsimp only [Store.reserve] at issued
    by_cases same : document = call
    · rw [same, Function.update_self] at issued
      exact Or.inl ⟨same, (Option.some.inj issued).symm⟩
    · rw [Function.update_of_ne same] at issued
      exact Or.inr ⟨same, issued⟩
  constructor
  · intro document metadata deadline entry
    rcases sound.entry document metadata deadline entry with ⟨uuid, known, rest⟩
    exact ⟨uuid, ⟨kept _ _ known.1, known.2⟩, rest⟩
  · intro document written dead
    rcases isSome_iff_exists.mp (sound.issuedWritten document written) with ⟨ticket, issued⟩
    exact sound.present document written (alive document ticket issued dead)
  · intro document ticket issued dead
    rcases cases' document ticket issued with ⟨rfl, rfl⟩ | ⟨different, before⟩
    · exact ⟨_, set_self .., outlives_of_le bound⟩
    · have live := alive document ticket before dead
      rcases sound.held document ticket before live with ⟨deadline, entry, outlives⟩
      refine ⟨deadline, ?_, outlives⟩
      dsimp only [Store.reserve]
      rw [set_other _ _ _ _]
      · exact entry
      · intro same
        rw [← same, sound.slot_read before live] at free
        cases free
  · intro key document deadline entry
    dsimp only [Store.reserve] at entry
    by_cases same : key = (draft.uploader, slot)
    · rw [same, set_self] at entry
      cases entry
      refine ⟨⟨SourceLens.DocumentIndex.ticket (draft.metadata call slot), ?_, same⟩, ?_⟩
      · dsimp only [Store.reserve]
        rw [Function.update_self]
      · intro released
        have known := sound.issuedForgotten call (sound.released call released)
        rw [fresh] at known
        cases known
    · rw [set_other _ _ _ same] at entry
      rcases sound.slot key document deadline entry with ⟨⟨ticket, issued, key'⟩, notReleased⟩
      exact ⟨⟨ticket, kept document ticket issued, key'⟩, notReleased⟩
  · intro document ticket issued
    rcases cases' document ticket issued with ⟨_, rfl⟩ | ⟨_, before⟩
    · exact small
    · exact sound.small document ticket before
  · intro document ticket issued
    rcases cases' document ticket issued with ⟨_, rfl⟩ | ⟨_, before⟩
    · exact bound
    · exact sound.bound document ticket before
  · intro document completed ticket issued dead
    rcases isSome_iff_exists.mp
      (sound.issuedWritten document (sound.completed document completed)) with ⟨known, before⟩
    have same := kept document known before
    rw [issued] at same
    cases same
    exact sound.listed document completed ticket before (alive document ticket before dead)
  · exact sound.members
  · intro document written
    rcases isSome_iff_exists.mp (sound.issuedWritten document written) with ⟨ticket, issued⟩
    rw [kept document ticket issued]
    rfl
  · intro document forgotten
    rcases isSome_iff_exists.mp (sound.issuedForgotten document forgotten) with
      ⟨ticket, issued⟩
    rw [kept document ticket issued]
    rfl
  · exact sound.released
  · exact sound.completed

theorem Sound.setMetadata (issued : store.issued metadata.uuid = some (ticket metadata))
    (forgotten : metadata.uuid ∉ store.forgotten) : Sound env (store.setMetadata metadata) := by
  refine { sound with
    entry := ?_, present := ?_, members := ?_, issuedWritten := ?_, completed := ?_ }
  · intro document value deadline entry
    dsimp only [Store.setMetadata] at entry
    by_cases same : document = metadata.uuid
    · rw [same, set_self] at entry
      cases entry
      exact ⟨same.symm, ⟨issued, mem_cons_self⟩,
        outlives_timeout _ _ _ (Nat.le_refl _), fun gone => absurd (same ▸ gone) forgotten⟩
    · rw [set_other _ _ _ same] at entry
      rcases sound.entry document value deadline entry with ⟨uuid, known, rest⟩
      exact ⟨uuid, ⟨known.1, mem_cons_of_mem _ known.2⟩, rest⟩
  · intro document written dead
    dsimp only [Store.setMetadata]
    by_cases same : document = metadata.uuid
    · rw [same, set_self]
      rfl
    · rw [set_other _ _ _ same]
      cases mem_cons.mp written with
      | inl here => exact absurd here same
      | inr there => exact sound.present document there dead
  · exact fun session documents deadline entry document member =>
      mem_cons_of_mem _ (sound.members session documents deadline entry document member)
  · intro document written
    cases mem_cons.mp written with
    | inl here =>
      rw [here]
      exact isSome_iff_exists.mpr ⟨_, issued⟩
    | inr there => exact sound.issuedWritten document there
  · exact fun document completed => mem_cons_of_mem _ (sound.completed document completed)

theorem Sound.forget (document : DocumentId) (issued : (store.issued document).isSome = true) :
    Sound env (store.forget document) := by
  have alive : ∀ other, ¬Dead (store.forget document) other → ¬Dead store other ∧ other ≠ document := by
    intro other alive
    refine ⟨?_, ?_⟩
    · rintro (gone | expired)
      · exact alive (Or.inl (mem_cons_of_mem _ gone))
      · exact alive (Or.inr expired)
    · rintro rfl
      exact alive (Or.inl mem_cons_self)
  refine { sound with
    entry := ?_, present := ?_, held := ?_, listed := ?_, issuedForgotten := ?_, released := ?_ }
  · intro other metadata deadline entry
    dsimp only [Store.forget] at entry
    by_cases same : other = document
    · rw [same, delete_self] at entry
      cases entry
    · rw [delete_other _ same] at entry
      rcases sound.entry other metadata deadline entry with ⟨uuid, known, outlives, gone⟩
      refine ⟨uuid, known, outlives, fun forgotten => ?_⟩
      cases mem_cons.mp forgotten with
      | inl here => exact absurd here same
      | inr there => exact gone there
  · intro other written dead
    dsimp only [Store.forget]
    rw [delete_other _ (alive other dead).2]
    exact sound.present other written (alive other dead).1
  · exact fun other ticket known dead => sound.held other ticket known (alive other dead).1
  · exact fun other completed ticket known dead =>
      sound.listed other completed ticket known (alive other dead).1
  · intro other forgotten
    cases mem_cons.mp forgotten with
    | inl here =>
      rw [here]
      exact issued
    | inr there => exact sound.issuedForgotten other there
  · exact fun other released => mem_cons_of_mem _ (sound.released other released)

theorem Sound.writeIndex (deadline : Nat)
    (completed : List DocumentId) (known : ∀ document ∈ documents, document ∈ store.written)
    (knownToo : ∀ document ∈ completed, document ∈ store.written)
    (holds : ∀ document ∈ completed, ∀ ticket, store.issued document = some ticket →
      ticket.session = session → ¬Dead store document →
        document ∈ documents ∧ Outlives ticket.expiresAt deadline)
    (before : ∀ document ∈ completed, ∀ ticket, store.issued document = some ticket →
      ticket.session ≠ session → document ∈ store.completed) :
    Sound env { store with
      index := set store.index session documents deadline, completed := completed } := by
  refine { sound with listed := ?_, members := ?_, completed := ?_ }
  · intro document member ticket issued dead
    dsimp only
    by_cases same : ticket.session = session
    · rcases holds document member ticket issued same dead with ⟨listed, outlives⟩
      rw [same, set_self]
      exact ⟨documents, deadline, rfl, listed, outlives⟩
    · rw [set_other _ _ _ same]
      exact sound.listed document (before document member ticket issued same) ticket issued dead
  · intro other value until' entry
    dsimp only at entry
    by_cases same : other = session
    · rw [same, set_self] at entry
      cases entry
      exact known
    · rw [set_other _ _ _ same] at entry
      exact sound.members other value until' entry
  · exact knownToo

theorem Sound.append (self : Known store metadata) (known : ∀ document ∈ documents, document ∈ store.written)
    (kept : IndexKept store metadata.sessionUuid documents)
    (older : ∀ document ∈ store.completed, ∀ ticket, store.issued document = some ticket →
      ticket.session = metadata.sessionUuid → ticket.expiresAt ≤ metadata.expiresAt) :
    Sound env (store.append metadata documents) := by
  have extended : ∀ document, document = metadata.uuid ∨ document ∈ documents ↔
      document ∈ (if metadata.uuid ∈ documents then documents else documents ++ [metadata.uuid]) := by
    intro document
    split
    · rename_i present
      constructor
      · rintro (rfl | there)
        · exact present
        · exact there
      · exact Or.inr
    · rw [mem_append, mem_singleton, Or.comm]
  have written : ∀ document, document = metadata.uuid ∨ document ∈ documents →
      document ∈ store.written := by
    rintro document (rfl | there)
    · exact self.2
    · exact known document there
  have lasts : ∀ expiresAt, expiresAt ≤ metadata.expiresAt → Outlives expiresAt
      (store.now + max (remainingSeconds metadata store.now) 1 * second) := by
    intro expiresAt order
    apply outlives_timeout
    calc secondsLeft expiresAt store.now
      _ ≤ remainingSeconds metadata store.now := Nat.div_le_div_right (by omega)
      _ ≤ max (remainingSeconds metadata store.now) 1 := Nat.le_max_left ..
  apply sound.writeIndex metadata.sessionUuid
  · exact fun document member => written document ((extended document).mpr member)
  · intro document member
    cases mem_cons.mp member with
    | inl here => exact written document (Or.inl here)
    | inr there => exact sound.completed document there
  · intro document member ticket issued session alive
    cases mem_cons.mp member with
    | inl here =>
      refine ⟨(extended document).mp (Or.inl here), ?_⟩
      rw [here, self.1] at issued
      cases issued
      exact lasts _ (Nat.le_refl _)
    | inr there =>
      have listed := sound.mem_listed there issued alive
      rw [session] at listed
      exact ⟨(extended document).mp (Or.inr (kept document listed)),
        lasts _ (older document there ticket issued session)⟩
  · intro document member ticket issued session
    cases mem_cons.mp member with
    | inl here =>
      rw [here, self.1] at issued
      cases issued
      exact absurd rfl session
    | inr there => exact there

theorem Sound.deleteIndex (dead : ∀ document ∈ store.listed session, Dead store document) :
    Sound env (store.deleteIndex session) := by
  refine { sound with listed := ?_, members := ?_ }
  · intro document completed ticket issued alive
    have different : ticket.session ≠ session := by
      rintro rfl
      exact alive (dead document (sound.mem_listed completed issued alive))
    dsimp only [Store.deleteIndex]
    rw [delete_other _ different]
    exact sound.listed document completed ticket issued alive
  · intro other documents deadline entry
    dsimp only [Store.deleteIndex] at entry
    by_cases same : other = session
    · rw [same, delete_self] at entry
      cases entry
    · rw [delete_other _ same] at entry
      exact sound.members other documents deadline entry

theorem Sound.remove (document : DocumentId) (documents : List DocumentId)
    (dead : Dead store document) (known : ∀ other ∈ documents, other ∈ store.written)
    (kept : IndexKept store session documents) :
    Sound env (store.remove env session document documents) := by
  have stays : ∀ other ∈ store.listed session, ¬Dead store other →
      other ∈ documents.filter fun value => value != document := by
    intro other listed alive
    apply mem_filter.mpr
    refine ⟨kept other listed, ?_⟩
    rw [bne_iff_ne]
    rintro rfl
    exact alive dead
  unfold Store.remove
  dsimp only
  split
  · rename_i nothing
    apply sound.deleteIndex session
    intro other listed
    by_contra alive
    have member := stays other listed alive
    rw [nothing] at member
    cases member
  · apply sound.writeIndex session _ _ store.completed
    · exact fun other member => known other (mem_filter.mp member).1
    · exact sound.completed
    · intro other completed ticket issued same alive
      refine ⟨?_, outlives_of_le (sound.bound other ticket issued)⟩
      apply stays other _ alive
      rw [← same]
      exact sound.mem_listed completed issued alive
    · exact fun _ completed _ _ _ => completed

theorem Sound.freeSlot (dead : metadata.uuid ∈ store.forgotten)
    (kept : SlotKept store metadata) : Sound env (store.freeSlot metadata) := by
  refine { sound with held := ?_, slot := ?_ }
  · intro document ticket issued alive
    have live : ¬Dead store document := alive
    rcases sound.held document ticket issued live with ⟨deadline, entry, outlives⟩
    refine ⟨deadline, ?_, outlives⟩
    dsimp only [Store.freeSlot]
    rw [delete_other]
    · exact entry
    · intro same
      rw [SlotKept, ← same, sound.slot_read issued live, getD_some] at kept
      exact live (Or.inl (kept ▸ dead))
  · intro key document deadline entry
    dsimp only [Store.freeSlot] at entry
    by_cases same : key = (metadata.uploadedById, metadata.quotaSlot)
    · rw [same, delete_self] at entry
      cases entry
    · rw [delete_other _ same] at entry
      exact sound.slot key document deadline entry

theorem Sound.release (self : Known store metadata)
    (dead : metadata.uuid ∈ store.forgotten) (kept : SlotKept store metadata) :
    Sound env (store.release metadata) := by
  have freed := sound.freeSlot metadata dead kept
  refine { freed with slot := ?_, released := ?_ }
  · intro key document deadline entry
    rcases freed.slot key document deadline entry with ⟨owner, notReleased⟩
    refine ⟨owner, ?_⟩
    intro released
    cases mem_cons.mp released with
    | inr there => exact notReleased there
    | inl here =>
      -- The slots of the document are those of its ticket, and that one is free now.
      rcases owner with ⟨ticket, issued, same⟩
      have known : store.issued document = some ticket := issued
      rw [here, self.1] at known
      cases known
      dsimp only [Store.release, Store.freeSlot] at entry
      rw [same] at entry
      rw [SourceLens.DocumentIndex.ticket, delete_self] at entry
      cases entry
  · intro document released
    cases mem_cons.mp released with
    | inl here => exact here ▸ dead
    | inr there => exact sound.released document there

theorem Sound.drop (document : DocumentId) (expired : Expired store document) :
    Sound env (store.drop document) := by
  refine { sound with entry := ?_, present := ?_ }
  · intro other metadata deadline entry
    dsimp only [Store.drop] at entry
    by_cases same : other = document
    · rw [same, delete_self] at entry
      cases entry
    · rw [delete_other _ same] at entry
      exact sound.entry other metadata deadline entry
  · intro other written alive
    have different : other ≠ document := by
      rintro rfl
      exact alive (Or.inr expired)
    dsimp only [Store.drop]
    rw [delete_other _ different]
    exact sound.present other written alive

theorem Sound.bindAll (candidates : List Metadata)
    (known : ∀ metadata ∈ candidates, Known store metadata)
    (kept : ∀ metadata ∈ candidates, get store.metadata store.now metadata.uuid = none →
      remainingSeconds metadata store.now = 0) : Sound env (store.bindAll candidates) := by
  unfold Store.bindAll
  dsimp only
  split
  · exact sound
  · refine { sound with entry := ?_, present := ?_ }
    · intro document metadata deadline entry
      dsimp only at entry
      rcases setMany_cases store.metadata candidates
        (store.now + bindTimeout store.now candidates * second) document with
        ⟨value, member, uuid, held⟩ | ⟨_, held⟩
      · rw [held] at entry
        cases entry
        refine ⟨uuid, known metadata member,
          outlives_timeout _ _ _ (bindTimeout_ge store.now candidates metadata member), ?_⟩
        intro forgotten
        by_contra left
        cases read' : get store.metadata store.now metadata.uuid with
        | none => exact left (kept metadata member read')
        | some found =>
          rcases sound.found read' with ⟨same, foundKnown, gone⟩
          have tickets : ticket found = ticket metadata := by
            apply Option.some.inj
            rw [← foundKnown.1, ← (known metadata member).1, same]
          have expiry : found.expiresAt = metadata.expiresAt := congrArg Ticket.expiresAt tickets
          rw [← expiry] at left
          exact left (gone (uuid ▸ forgotten))
      · rw [held] at entry
        exact sound.entry document metadata deadline entry
    · intro document written alive
      dsimp only
      rcases setMany_cases store.metadata candidates
        (store.now + bindTimeout store.now candidates * second) document with
        ⟨value, member, uuid, held⟩ | ⟨_, held⟩
      · rw [held]
        rfl
      · rw [held]
        exact sound.present document written alive

end Operations

end SourceLens.DocumentIndex
