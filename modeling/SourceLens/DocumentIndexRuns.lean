import SourceLens.DocumentIndexInvariant

/-! Whole runs of the calls on transient documents, and what overlapping calls do. -/

namespace SourceLens.DocumentIndex

open ExpiringCache DocumentAttachment Transition List Option Function

theorem consistent_of_sound {env : Env} {store : Store} (sound : Sound env store) :
    Consistent store := by
  have owner : ∀ document metadata, store.document document = some metadata →
      store.issued document = some (ticket metadata) ∧ ¬Dead store document := by
    intro document metadata found
    rcases sound.not_dead_of_found found with ⟨uuid, known, alive⟩
    exact ⟨uuid ▸ known.1, alive⟩
  have slots : ∀ first second one two, store.document first = some one →
      store.document second = some two → one.uploadedById = two.uploadedById →
        one.quotaSlot = two.quotaSlot → first = second := by
    intro first second one two found foundToo uploader slot
    rcases owner first one found with ⟨issued, alive⟩
    rcases owner second two foundToo with ⟨issuedToo, aliveToo⟩
    have read' := sound.slot_read issued alive
    have readToo := sound.slot_read issuedToo aliveToo
    simp only [ticket] at read' readToo
    rw [uploader, slot, readToo] at read'
    exact (Option.some.inj read').symm
  refine ⟨?_, slots, ?_, ?_, ?_⟩
  · intro user documents distinct live
    have numbers : (documents.map fun document =>
        ((store.document document).map (·.quotaSlot)).getD 0).Nodup := by
      apply distinct.map_on
      intro first member second memberToo same
      rcases live first member with ⟨one, found, uploader⟩
      rcases live second memberToo with ⟨two, foundToo, uploaderToo⟩
      rw [found, foundToo] at same
      exact slots first second one two found foundToo (uploader.trans uploaderToo.symm) same
    have small : (documents.map fun document =>
        ((store.document document).map (·.quotaSlot)).getD 0) ⊆ List.range maxPerUser := by
      intro number member
      rcases mem_map.mp member with ⟨document, present, rfl⟩
      rcases live document present with ⟨metadata, found, _⟩
      rw [found]
      exact mem_range.mpr (sound.small document _ (owner document metadata found).1)
    calc documents.length
      _ = (documents.map fun document =>
          ((store.document document).map (·.quotaSlot)).getD 0).length := (length_map _).symm
      _ ≤ (List.range maxPerUser).length := (subperm_of_subset numbers small).length_le
      _ = maxPerUser := length_range
  · intro document released key found
    rcases entry_of_get found with ⟨deadline, entry, _⟩
    exact (sound.slot key document deadline entry).2 released
  · intro document completed metadata found
    rcases owner document metadata found with ⟨issued, alive⟩
    exact sound.mem_listed completed issued alive
  · intro document released
    cases found : store.document document with
    | none => rfl
    | some metadata =>
      exact absurd (.inl (sound.released document released)) (owner document metadata found).2

/-- A call that stores has its document to itself until the metadata is set. -/
def Own (store : Store) (call : CallId) : Phase → Prop
  | .reserving _ _ => store.issued call = none
  | .saving metadata | .caching metadata | .discarding metadata =>
    metadata.uuid = call ∧ store.issued call = some (ticket metadata) ∧
      call ∉ store.written ∧ call ∉ store.forgotten
  | _ => True

theorem Own.frame {store next : Store} {call : CallId}
    (issued : next.issued call = store.issued call)
    (kept : call ∉ store.written → call ∉ store.forgotten →
      call ∉ next.written ∧ call ∉ next.forgotten) :
    ∀ {phase : Phase}, Own store call phase → Own next call phase
  | .reserving _ _, fresh => issued.trans fresh
  | .saving _, own | .caching _, own | .discarding _, own =>
    ⟨own.1, issued.trans own.2.1, kept own.2.2.1 own.2.2.2⟩
  | .idle, _ | .ended, _ | .appending _, _ | .extending _ _, _ | .returning _, _ | .leaving _, _
  | .fetching _ _ _, _ | .erasing _ _ _, _ | .forgetting _ _ _, _ | .releasing _ _ _, _
  | .listing _ _, _ | .closing _, _ | .reading _, _ | .scanning _ _ _ _, _
  | .binding _ _ _ _ _ _ _, _ | .writing _ _, _ | .dropping _ _, _ | .unlisting _ _ _, _
  | .rewriting _ _ _ _, _ => trivial

def session : Phase → Option SessionId
  | .reserving draft _ => some draft.session
  | .saving metadata | .caching metadata | .appending metadata | .extending metadata _
  | .discarding metadata | .returning metadata => some metadata.sessionUuid
  | .leaving session | .binding session _ _ _ _ _ _ | .writing session _ => some session
  | .dropping _ next => session next
  | _ => none

def expiry : Phase → Option Nat
  | .reserving draft _ => some draft.expiresAt
  | .saving metadata | .caching metadata | .appending metadata | .extending metadata _ =>
    some metadata.expiresAt
  | _ => none

def begun : Phase → Bool
  | .idle => false
  | _ => true

/-- The phase is not that of a document which is yet to be listed. -/
structure Loose (phase : Phase) : Prop where
  started : begun phase = true
  expiry : DocumentIndex.expiry phase = none
  own : ∀ store call, Own store call phase

/-- What a call knows of the documents it has read about stays true. -/
def Facts (store : Store) : Phase → Prop
  | .appending metadata | .erasing metadata _ _ | .forgetting metadata _ _ => Known store metadata
  | .extending metadata documents =>
    Known store metadata ∧ ∀ document ∈ documents, document ∈ store.written
  | .returning metadata => metadata.uuid ∈ store.forgotten
  | .releasing metadata _ _ => Known store metadata ∧ metadata.uuid ∈ store.forgotten
  | .scanning _ document rest expired =>
    (∀ other ∈ document :: rest, other ∈ store.written) ∧ ∀ other ∈ expired, Dead store other
  | .binding _ _ _ _ _ _ candidates | .writing _ candidates =>
    ∀ metadata ∈ candidates, Known store metadata
  | .dropping document next => Expired store document ∧ Loose next ∧ Facts store next
  | .unlisting _ document next =>
    Dead store document ∧ (Loose next ∧ session next = none) ∧ Facts store next
  | .rewriting _ document documents next =>
    Dead store document ∧ (∀ other ∈ documents, other ∈ store.written) ∧
      (Loose next ∧ session next = none) ∧ Facts store next
  | _ => True

theorem Facts.later {store next : Store} (later : Later store next) :
    ∀ {phase : Phase}, Facts store phase → Facts next phase
  | .idle, _ | .ended, _ | .reserving _ _, _ | .saving _, _ | .caching _, _ | .discarding _, _
  | .leaving _, _ | .fetching _ _ _, _ | .listing _ _, _ | .closing _, _ | .reading _, _ => trivial
  | .appending _, known | .erasing _ _ _, known | .forgetting _ _ _, known => Known.later later known
  | .extending _ _, facts => ⟨facts.1.later later, fun _ member => later.written _ (facts.2 _ member)⟩
  | .returning _, gone => later.forgotten _ gone
  | .releasing _ _ _, facts => ⟨facts.1.later later, later.forgotten _ facts.2⟩
  | .scanning _ _ _ _, facts =>
    ⟨fun _ member => later.written _ (facts.1 _ member), fun _ member => (facts.2 _ member).later later⟩
  | .binding _ _ _ _ _ _ _, known | .writing _ _, known =>
    fun metadata member => (known metadata member).later later
  | .dropping _ _, facts => ⟨facts.1.later later, facts.2.1, Facts.later later facts.2.2⟩
  | .unlisting _ _ _, facts => ⟨facts.1.later later, facts.2.1, Facts.later later facts.2.2⟩
  | .rewriting _ _ _ _, facts =>
    ⟨facts.1.later later, fun _ member => later.written _ (facts.2.1 _ member), facts.2.2.1,
      Facts.later later facts.2.2.2⟩

def Youngest (env : Env) (store : Store) (phase : Phase) : Prop :=
  ∀ expiresAt, expiry phase = some expiresAt → expiresAt ≤ store.now + env.ttl ∧
    ∀ document ∈ store.completed, ∀ ticket, store.issued document = some ticket →
      session phase = some ticket.session → ticket.expiresAt ≤ expiresAt

structure Inv (env : Env) (state : State) : Prop where
  sound : Sound env state.store
  facts : ∀ call, Facts state.store (state.phases call)
  own : ∀ call, Own state.store call (state.phases call)
  lock : ∀ call held, session (state.phases call) = some held → state.lock held = some call
  youngest : ∀ call, Youngest env state.store (state.phases call)
  fresh : ∀ call, begun (state.phases call) = false → state.store.issued call = none

theorem inv_start (env : Env) : Inv env start where
  sound := sound_start env
  facts _ := trivial
  own _ := trivial
  lock := by simp [start, session]
  youngest := by simp [Youngest, start, expiry]
  fresh _ _ := rfl

theorem loose_afterDelete (scope : Scope) (rest : List DocumentId) :
    Loose (afterDelete scope rest) ∧ session (afterDelete scope rest) = none ∧
      ∀ store, Facts store (afterDelete scope rest) := by
  cases scope with
  | none => exact ⟨⟨rfl, rfl, fun _ _ => trivial⟩, rfl, fun _ => trivial⟩
  | some part =>
    cases rest with
    | nil => exact ⟨⟨rfl, rfl, fun _ _ => trivial⟩, rfl, fun _ => trivial⟩
    | cons document rest => exact ⟨⟨rfl, rfl, fun _ _ => trivial⟩, rfl, fun _ => trivial⟩

theorem loose_prune (held : SessionId) (expired : List DocumentId) :
    Loose (prune held expired) ∧ session (prune held expired) = none := by
  cases expired with
  | nil => exact ⟨⟨rfl, rfl, fun _ _ => trivial⟩, rfl⟩
  | cons document rest => exact ⟨⟨rfl, rfl, fun _ _ => trivial⟩, rfl⟩

theorem facts_prune {store : Store} (held : SessionId) (expired : List DocumentId)
    (dead : ∀ document ∈ expired, Dead store document) : Facts store (prune held expired) := by
  induction expired with
  | nil => trivial
  | cons document rest ih =>
    exact ⟨dead document mem_cons_self, loose_prune held rest,
      ih fun other member => dead other (mem_cons_of_mem _ member)⟩

theorem loose_scan (held : SessionId) (rest expired : List DocumentId) :
    Loose (scan held rest expired) ∧ session (scan held rest expired) = none := by
  cases rest with
  | nil => exact loose_prune held expired
  | cons document rest => exact ⟨⟨rfl, rfl, fun _ _ => trivial⟩, rfl⟩

theorem facts_scan {store : Store} (held : SessionId) (rest expired : List DocumentId)
    (written : ∀ document ∈ rest, document ∈ store.written)
    (dead : ∀ document ∈ expired, Dead store document) : Facts store (scan held rest expired) := by
  cases rest with
  | nil => exact facts_prune held expired dead
  | cons document rest => exact ⟨written, dead⟩

theorem loose_bindNext (held : SessionId) (run : RunId) (lensnode : NodeId)
    (rest : List (DocumentId × Nat)) (candidates : List Metadata) :
    Loose (bindNext held run lensnode rest candidates) ∧
      session (bindNext held run lensnode rest candidates) = some held := by
  cases rest with
  | nil => exact ⟨⟨rfl, rfl, fun _ _ => trivial⟩, rfl⟩
  | cons head rest => exact ⟨⟨rfl, rfl, fun _ _ => trivial⟩, rfl⟩

theorem facts_bindNext {store : Store} (held : SessionId) (run : RunId) (lensnode : NodeId)
    (rest : List (DocumentId × Nat)) (candidates : List Metadata)
    (known : ∀ metadata ∈ candidates, Known store metadata) :
    Facts store (bindNext held run lensnode rest candidates) := by
  cases rest with
  | nil => exact known
  | cons head rest => exact known

/-- The three answers of `get_document_attachment`. -/
theorem withDocument_cases (store : Store) (document : DocumentId) (next : Option Metadata → Phase) :
    get store.metadata store.now document = none ∧ withDocument store document next = next none ∨
      ∃ metadata, get store.metadata store.now document = some metadata ∧
        (remainingSeconds metadata store.now = 0 ∧
            withDocument store document next = .dropping document (next none) ∨
          withDocument store document next = next (some metadata)) := by
  unfold withDocument
  cases found : get store.metadata store.now document with
  | none => exact .inl ⟨rfl, rfl⟩
  | some metadata =>
    refine .inr ⟨metadata, rfl, ?_⟩
    dsimp only
    split
    · rename_i expired
      exact .inl ⟨expired, rfl⟩
    · exact .inr rfl

/-- What one operation of a call leaves to it and to the others. -/
structure Keeps (env : Env) (store : Store) (call : CallId) (phase : Phase) (next : Store)
    (after : Phase) : Prop where
  sound : Sound env next
  later : Later store next
  facts : Facts next after
  own : Own next call after
  started : begun after = true
  holds : ∀ held, session after = some held → session phase = some held
  youngest : Youngest env next after
  others : ∀ other ≠ call, ∀ phase, Own store other phase → Own next other phase
  issued : ∀ other ≠ call, next.issued other = store.issued other
  completed : ∀ document ∈ next.completed, document ∈ store.completed ∨
    ∃ ticket, next.issued document = some ticket ∧ session phase = some ticket.session

theorem Loose.youngest {phase : Phase} (loose : Loose phase) (env : Env) (store : Store) :
    Youngest env store phase := by
  intro expiresAt known
  rw [loose.expiry] at known
  cases known

theorem Keeps.plain {env : Env} {store next : Store} {call : CallId} {phase after : Phase}
    (sound : Sound env next) (later : Later store next) (issued : next.issued = store.issued)
    (completed : next.completed = store.completed)
    (written : next.written = store.written)
    (forgotten : ∀ document ∈ next.forgotten, document ∈ store.forgotten ∨
      document ∈ store.written ∨ document = call)
    (loose : Loose after) (facts : Facts next after)
    (holds : ∀ held, session after = some held → session phase = some held) :
    Keeps env store call phase next after where
  sound := sound
  later := later
  facts := facts
  own := loose.own next call
  started := loose.started
  holds := holds
  youngest := loose.youngest env next
  others := by
    intro other different phase own
    have kept : other ∉ store.written → other ∉ store.forgotten → other ∉ next.forgotten := by
      intro notWritten notForgotten gone
      rcases forgotten other gone with before | before | same
      · exact notForgotten before
      · exact notWritten before
      · exact different same
    apply own.frame (congrFun issued other)
    intro notWritten notForgotten
    exact ⟨written ▸ notWritten, kept notWritten notForgotten⟩
  issued := fun other _ => congrFun issued other
  completed := fun document member => .inl (completed ▸ member)

theorem Keeps.stay {env : Env} {store : Store} {call : CallId} {phase after : Phase}
    (sound : Sound env store) (loose : Loose after) (facts : Facts store after)
    (holds : ∀ held, session after = some held → session phase = some held) :
    Keeps env store call phase store after :=
  .plain sound (.refl store) rfl rfl rfl (fun _ member => .inl member) loose facts holds

theorem keeps_cache {env : Env} {store : Store} {call : CallId} (phase : Phase) (next : Store)
    (after : Phase) (kept : Sound env next)
    (now : next.now = store.now) (issued : next.issued = store.issued)
    (written : next.written = store.written) (forgotten : next.forgotten = store.forgotten)
    (completed : next.completed = store.completed) (loose : Loose after)
    (facts : Facts store after)
    (holds : ∀ held, session after = some held → session phase = some held) :
    Keeps env store call phase next after := by
  have later : Later store next :=
    ⟨Nat.le_of_eq now.symm, fun document ticket known => (congrFun issued document).trans known,
      fun document member => written ▸ member, fun document member => forgotten ▸ member⟩
  exact .plain kept later issued completed written (fun document gone => .inl (forgotten ▸ gone))
    loose (facts.later later) holds

section Operation

variable {env : Env} {store : Store} {call : CallId} (sound : Sound env store)
include sound

theorem keeps_reserving (draft : Draft) (slot : Nat) (fresh : store.issued call = none)
    (youngest : Youngest env store (.reserving draft slot)) (next : Store) (after : Phase)
    (taken : operate env store call (.reserving draft slot) = some (next, after)) :
    Keeps env store call (.reserving draft slot) next after := by
  have young := youngest draft.expiresAt rfl
  simp only [operate] at taken
  split at taken
  · cases taken
    exact .stay sound ⟨rfl, rfl, fun _ _ => trivial⟩ trivial fun _ same => same
  · rename_i more
    split at taken
    · rename_i free
      cases taken
      have other : ∀ document ∈ store.written, document ≠ call := by
        rintro document written rfl
        have issued := sound.issuedWritten document written
        rw [fresh] at issued
        cases issued
      have kept : ∀ document, document ≠ call →
          (store.reserve env draft call slot).issued document = store.issued document :=
        fun document different => update_of_ne different _ _
      have self : (store.reserve env draft call slot).issued call =
          some (ticket (draft.metadata call slot)) := update_self ..
      refine ⟨sound.reserve draft call slot fresh (by omega) free young.1, ⟨Nat.le_refl _, ?_,
        fun _ member => member, fun _ member => member⟩, trivial, ⟨rfl, self, ?_, ?_⟩,
        rfl, fun _ same => same, ?_, ?_, kept, fun _ member => .inl member⟩
      · intro document known issued
        rw [kept document]
        · exact issued
        · rintro rfl
          rw [fresh] at issued
          cases issued
      · exact fun written => other call written rfl
      · intro gone
        have issued := sound.issuedForgotten call gone
        rw [fresh] at issued
        cases issued
      · intro expiresAt same
        cases same
        refine ⟨young.1, ?_⟩
        intro document completed known issued session
        rw [kept document (other document (sound.completed document completed))] at issued
        exact young.2 document completed known issued session
      · exact fun document different phase own =>
          own.frame (kept document different) fun one two => ⟨one, two⟩
    · cases taken
      refine ⟨sound, .refl store, trivial, fresh, rfl, fun _ same => same, ?_,
        fun _ _ _ own => own, fun _ _ => rfl, fun _ member => .inl member⟩
      exact youngest

theorem keeps_caching (metadata : Metadata) (own : Own store call (.caching metadata))
    (youngest : Youngest env store (.caching metadata)) :
    Keeps env store call (.caching metadata) (store.setMetadata metadata) (.appending metadata) := by
  rcases own with ⟨uuid, issued, _, notForgotten⟩
  have self : Known (store.setMetadata metadata) metadata :=
    ⟨uuid ▸ issued, mem_cons_self⟩
  refine ⟨sound.setMetadata metadata (uuid ▸ issued) (uuid ▸ notForgotten),
    ⟨Nat.le_refl _, fun _ _ known => known, fun _ member => mem_cons_of_mem _ member,
      fun _ member => member⟩, self, trivial, rfl, fun _ same => same, youngest, ?_,
    fun _ _ => rfl, fun _ member => .inl member⟩
  intro other different phase own
  have notMine : other ∉ store.written → other ∉ (store.setMetadata metadata).written := by
    intro notWritten written
    cases mem_cons.mp written with
    | inl here => exact different (here.trans uuid)
    | inr there => exact notWritten there
  exact @Own.frame store (store.setMetadata metadata) other rfl
    (fun one two => ⟨notMine one, two⟩) phase own

theorem keeps_extending (metadata : Metadata) (documents : List DocumentId)
    (facts : Facts store (.extending metadata documents))
    (youngest : Youngest env store (.extending metadata documents))
    (kept : IndexKept store metadata.sessionUuid documents) :
    Keeps env store call (.extending metadata documents) (store.append metadata documents)
      (.leaving metadata.sessionUuid) := by
  have appended := sound.append metadata documents facts.1 facts.2 kept
    fun document completed known issued session =>
      (youngest metadata.expiresAt rfl).2 document completed known issued (by rw [session]; rfl)
  have loose : Loose (.leaving metadata.sessionUuid) := ⟨rfl, rfl, fun _ _ => trivial⟩
  refine ⟨appended, ⟨Nat.le_refl _, fun _ _ known => known, fun _ member => member,
    fun _ member => member⟩, trivial, trivial, rfl, fun _ same => same,
    Loose.youngest loose env _, fun _ _ _ own => own.frame rfl fun one two =>
      ⟨one, two⟩, fun _ _ => rfl, ?_⟩
  intro document member
  cases mem_cons.mp member with
  | inl here => exact .inr ⟨ticket metadata, here ▸ facts.1.1, rfl⟩
  | inr there => exact .inl there

theorem keeps_forget (phase after : Phase) (metadata : Metadata)
    (known : store.issued metadata.uuid = some (ticket metadata))
    (mine : metadata.uuid ∈ store.written ∨ metadata.uuid = call) (loose : Loose after)
    (facts : Facts (store.forget metadata.uuid) after)
    (holds : ∀ held, session after = some held → session phase = some held) :
    Keeps env store call phase (store.forget metadata.uuid) after := by
  have later : Later store (store.forget metadata.uuid) :=
    ⟨Nat.le_refl _, fun _ _ known => known, fun _ member => member,
      fun _ member => mem_cons_of_mem _ member⟩
  apply Keeps.plain (sound.forget metadata.uuid (isSome_iff_exists.mpr ⟨_, known⟩)) later
    rfl rfl rfl _ loose facts holds
  intro document gone
  cases mem_cons.mp gone with
  | inl here => exact .inr (here ▸ mine)
  | inr there => exact .inl there

theorem keeps_fetching (document : DocumentId) (scope : Scope) (rest : List DocumentId)
    (next : Store) (after : Phase)
    (taken : operate env store call (.fetching document scope rest) = some (next, after)) :
    Keeps env store call (.fetching document scope rest) next after := by
  rcases loose_afterDelete scope rest with ⟨loose, free, facts⟩
  have stop : ∀ held, session (afterDelete scope rest) = some held →
      session (.fetching document scope rest) = some held := by
    intro held same
    rw [free] at same
    cases same
  simp only [operate, Option.some.injEq, Prod.mk.injEq] at taken
  rcases taken with ⟨rfl, rfl⟩
  rcases withDocument_cases store document _ with ⟨_, same⟩ | ⟨metadata, found, ⟨expired, same⟩ | same⟩
  all_goals rw [same]
  · exact .stay sound loose (facts store) stop
  · exact .stay sound ⟨rfl, rfl, fun _ _ => trivial⟩ ⟨sound.expired_of_found found expired, loose, facts store⟩
      stop
  · dsimp only
    split
    · exact .stay sound ⟨rfl, rfl, fun _ _ => trivial⟩ (sound.found found).2.1 nofun
    · exact .stay sound loose (facts store) stop

theorem keeps_scanning (held : SessionId) (document : DocumentId)
    (rest expired : List DocumentId) (facts : Facts store (.scanning held document rest expired))
    (next : Store) (after : Phase)
    (taken : operate env store call (.scanning held document rest expired) = some (next, after)) :
    Keeps env store call (.scanning held document rest expired) next after := by
  have written : ∀ other ∈ rest, other ∈ store.written :=
    fun other member => facts.1 other (mem_cons_of_mem _ member)
  have more : Dead store document → ∀ other ∈ expired ++ [document], Dead store other := by
    intro dead other member
    cases mem_append.mp member with
    | inl before => exact facts.2 other before
    | inr last => exact mem_singleton.mp last ▸ dead
  have stop : ∀ found other, session (scan held rest found) = some other →
      session (.scanning held document rest expired) = some other := by
    intro found other same
    rw [(loose_scan held rest found).2] at same
    cases same
  simp only [operate, Option.some.injEq, Prod.mk.injEq] at taken
  rcases taken with ⟨rfl, rfl⟩
  rcases withDocument_cases store document _ with ⟨missing, same⟩ | ⟨metadata, found, ⟨gone, same⟩ | same⟩
  all_goals rw [same]
  · have dead := sound.dead_of_missing (facts.1 document mem_cons_self) missing
    exact .stay sound (loose_scan ..).1 (facts_scan held rest _ written (more dead)) (stop _)
  · have dead := sound.expired_of_found found gone
    exact .stay sound ⟨rfl, rfl, fun _ _ => trivial⟩
      ⟨dead, (loose_scan ..).1, facts_scan held rest _ written (more (.inr dead))⟩ (stop _)
  · exact .stay sound (loose_scan ..).1 (facts_scan held rest _ written facts.2) (stop _)

theorem keeps_binding (held : SessionId) (run : RunId) (lensnode : NodeId)
    (document : DocumentId) (order : Nat) (rest : List (DocumentId × Nat))
    (candidates : List Metadata)
    (facts : Facts store (.binding held run lensnode document order rest candidates))
    (next : Store) (after : Phase)
    (taken : operate env store call (.binding held run lensnode document order rest candidates) =
      some (next, after)) :
    Keeps env store call (.binding held run lensnode document order rest candidates) next after := by
  simp only [operate, Option.some.injEq, Prod.mk.injEq] at taken
  rcases taken with ⟨rfl, rfl⟩
  rcases withDocument_cases store document _ with ⟨_, same⟩ | ⟨metadata, found, ⟨expired, same⟩ | same⟩
  all_goals rw [same]
  · exact .stay sound ⟨rfl, rfl, fun _ _ => trivial⟩ trivial fun _ same => same
  · have leaving : Loose (.leaving held) := ⟨rfl, rfl, fun _ _ => trivial⟩
    exact .stay sound ⟨rfl, rfl, fun _ _ => trivial⟩
      ⟨sound.expired_of_found found expired, leaving, trivial⟩ fun _ same => same
  · dsimp only
    split
    · exact .stay sound ⟨rfl, rfl, fun _ _ => trivial⟩ trivial fun _ same => same
    · have loose := loose_bindNext held run lensnode rest
        (candidates ++ [bindTo run lensnode order metadata])
      apply Keeps.stay sound loose.1 (facts_bindNext ..)
      · intro other same
        rw [loose.2] at same
        exact same
      · intro candidate member
        cases mem_append.mp member with
        | inl before => exact facts candidate before
        | inr last =>
          rw [mem_singleton.mp last]
          exact (sound.found found).2.1

theorem operate_keeps (phase : Phase) (facts : Facts store phase) (own : Own store call phase)
    (youngest : Youngest env store phase) (allowed : Allowed store phase) (next : Store)
    (after : Phase) (taken : operate env store call phase = some (next, after)) :
    Keeps env store call phase next after := by
  have stay : ∀ target, Loose target → Facts store target → session target = none →
      Keeps env store call phase store target := by
    intro target loose targetFacts free
    apply Keeps.stay sound loose targetFacts
    intro held same
    rw [free] at same
    cases same
  have cached : ∀ target after, Sound env target → target.now = store.now →
      target.issued = store.issued → target.written = store.written →
      target.forgotten = store.forgotten → target.completed = store.completed → Loose after →
      Facts store after → session after = none → Keeps env store call phase target after := by
    intro target after kept now issued written forgotten completed loose afterFacts free
    apply keeps_cache phase target after kept now issued written forgotten completed loose afterFacts
    intro held same
    rw [free] at same
    cases same
  cases phase with
  | idle => cases taken
  | ended => cases taken
  | leaving held => cases taken
  | reserving draft slot => exact keeps_reserving sound draft slot own youngest next after taken
  | saving metadata =>
    cases taken
    exact ⟨sound, .refl store, trivial, own, rfl, fun _ same => same, youngest,
      fun _ _ _ same => same, fun _ _ => rfl, fun _ member => .inl member⟩
  | caching metadata =>
    cases taken
    exact keeps_caching sound metadata own youngest
  | appending metadata =>
    cases taken
    exact ⟨sound, .refl store, ⟨facts, sound.listed_written⟩, trivial, rfl, fun _ same => same,
      youngest, fun _ _ _ same => same, fun _ _ => rfl, fun _ member => .inl member⟩
  | extending metadata documents =>
    cases taken
    exact keeps_extending sound metadata documents facts youngest allowed
  | discarding metadata =>
    cases taken
    exact keeps_forget sound _ _ metadata (own.1 ▸ own.2.1) (.inr own.1)
      ⟨rfl, rfl, fun _ _ => trivial⟩ mem_cons_self fun _ same => same
  | returning metadata =>
    cases taken
    exact keeps_cache _ _ _ (sound.freeSlot metadata facts allowed) rfl rfl rfl rfl rfl
      ⟨rfl, rfl, fun _ _ => trivial⟩ trivial fun _ same => same
  | fetching document scope rest => exact keeps_fetching sound document scope rest next after taken
  | erasing metadata scope rest =>
    cases taken
    exact stay _ ⟨rfl, rfl, fun _ _ => trivial⟩ facts rfl
  | forgetting metadata scope rest =>
    cases taken
    have gone : metadata.uuid ∈ (store.forget metadata.uuid).forgotten := mem_cons_self
    exact keeps_forget sound _ _ metadata facts.1 (.inl facts.2) ⟨rfl, rfl, fun _ _ => trivial⟩
      ⟨.inl gone, ⟨⟨rfl, rfl, fun _ _ => trivial⟩, rfl⟩, facts, gone⟩ nofun
  | releasing metadata scope rest =>
    cases taken
    rcases loose_afterDelete scope rest with ⟨loose, free, after⟩
    exact cached _ _ (sound.release metadata facts.1 facts.2 allowed) rfl rfl rfl rfl rfl loose
      (after store) free
  | listing held user =>
    cases taken
    rcases loose_afterDelete (some (held, user)) (store.listed held) with ⟨loose, free, after⟩
    exact stay _ loose (after store) free
  | closing held =>
    cases taken
    have ended : Loose .ended := ⟨rfl, rfl, fun _ _ => trivial⟩
    apply cached _ _ (sound.deleteIndex held _) rfl rfl rfl rfl rfl ended trivial rfl
    intro document listed
    have missing := allowed document listed
    rw [Store.document, getDocumentAttachment] at missing
    cases found : get store.metadata store.now document with
    | none => exact sound.dead_of_missing (sound.listed_written document listed) found
    | some metadata =>
      rw [found] at missing
      have expired : remainingSeconds metadata store.now = 0 := by
        by_contra left
        simp [Option.filter, Nat.pos_of_ne_zero left] at missing
      exact .inr (sound.expired_of_found found expired)
  | reading held =>
    cases taken
    have loose := loose_scan held (store.listed held) []
    exact stay _ loose.1 (facts_scan held _ [] sound.listed_written (by simp)) loose.2
  | scanning held document rest expired =>
    exact keeps_scanning sound held document rest expired facts next after taken
  | binding held run lensnode document order rest candidates =>
    exact keeps_binding sound held run lensnode document order rest candidates facts next after
      taken
  | writing held candidates =>
    cases taken
    have kept := sound.bindAll candidates facts allowed
    unfold Store.bindAll at kept ⊢
    dsimp only at kept ⊢
    split
    · exact .stay sound ⟨rfl, rfl, fun _ _ => trivial⟩ trivial fun _ same => same
    · rename_i some'
      rw [if_neg some'] at kept
      exact keeps_cache _ _ _ kept rfl rfl rfl rfl rfl ⟨rfl, rfl, fun _ _ => trivial⟩ trivial
        fun _ same => same
  | dropping document following =>
    cases taken
    exact keeps_cache _ _ _ (sound.drop document facts.1) rfl rfl rfl rfl rfl facts.2.1 facts.2.2
      fun _ same => same
  | unlisting held document following =>
    cases taken
    exact stay _ ⟨rfl, rfl, fun _ _ => trivial⟩ ⟨facts.1, sound.listed_written, facts.2⟩ rfl
  | rewriting held document documents following =>
    cases taken
    rcases facts with ⟨dead, known, ⟨loose, free⟩, later⟩
    have kept := sound.remove held document documents dead known allowed
    unfold Store.remove at kept ⊢
    dsimp only at kept ⊢
    split
    · rename_i nothing
      rw [if_pos nothing] at kept
      exact cached _ _ kept rfl rfl rfl rfl rfl loose later free
    · rename_i some'
      rw [if_neg some'] at kept
      exact cached _ _ kept rfl rfl rfl rfl rfl loose later free

end Operation

theorem Inv.setPhase {env : Env} {state : State} (inv : Inv env state) {call : CallId}
    {next : Store} {after : Phase}
    (keeps : Keeps env state.store call (state.phases call) next after) :
    Inv env (setPhase state call next after) := by
  refine ⟨keeps.sound, ?_, ?_, ?_, ?_, ?_⟩
  · intro other
    dsimp only [DocumentIndex.setPhase]
    by_cases same : other = call
    · rw [same, update_self]
      exact keeps.facts
    · rw [update_of_ne same]
      exact (inv.facts other).later keeps.later
  · intro other
    dsimp only [DocumentIndex.setPhase]
    by_cases same : other = call
    · rw [same, update_self]
      exact keeps.own
    · rw [update_of_ne same]
      exact keeps.others other same _ (inv.own other)
  · intro other held holds
    dsimp only [DocumentIndex.setPhase] at holds ⊢
    by_cases same : other = call
    · rw [same, update_self] at holds
      rw [same]
      exact inv.lock call held (keeps.holds held holds)
    · rw [update_of_ne same] at holds
      exact inv.lock other held holds
  · intro other
    dsimp only [DocumentIndex.setPhase]
    by_cases same : other = call
    · rw [same, update_self]
      exact keeps.youngest
    · rw [update_of_ne same]
      intro expiresAt known
      rcases inv.youngest other expiresAt known with ⟨bound, older⟩
      have time := keeps.later.now
      refine ⟨by omega, ?_⟩
      intro document completed ticket issued holds
      rcases keeps.completed document completed with before | ⟨ticket', issued', holds'⟩
      · rcases isSome_iff_exists.mp
          (inv.sound.issuedWritten document (inv.sound.completed document before)) with ⟨old, known'⟩
        have kept := keeps.later.issued document old known'
        rw [issued] at kept
        cases kept
        exact older document before ticket known' holds
      · -- Only the call that holds the lock of the session completes a document of it.
        rw [issued] at issued'
        cases issued'
        have mine := inv.lock call ticket.session holds'
        rw [inv.lock other ticket.session holds] at mine
        exact absurd (Option.some.inj mine) same
  · intro other idle
    dsimp only [DocumentIndex.setPhase] at idle ⊢
    by_cases same : other = call
    · rw [same, update_self] at idle
      rw [keeps.started] at idle
      cases idle
    · rw [update_of_ne same] at idle
      rw [keeps.issued other same]
      exact inv.fresh other idle

theorem inv_tick {env : Env} {state : State} (inv : Inv env state) (duration : Nat) :
    Inv env { state with store := { state.store with now := state.store.now + duration } } := by
  have later : Later state.store { state.store with now := state.store.now + duration } :=
    ⟨Nat.le_add_right .., fun _ _ known => known, fun _ member => member, fun _ member => member⟩
  refine ⟨inv.sound.tick duration, fun call => (inv.facts call).later later, ?_, inv.lock, ?_,
    inv.fresh⟩
  · exact fun call => (inv.own call).frame rfl fun one two => ⟨one, two⟩
  · intro call expiresAt known
    rcases inv.youngest call expiresAt known with ⟨bound, older⟩
    dsimp only
    exact ⟨by omega, older⟩

theorem opening_cases (env : Env) (now : Nat) (work : Work) :
    begun (opening env now work).1 = true ∧ session (opening env now work).1 = (opening env now work).2 ∧
      (∀ store, Facts store (opening env now work).1) ∧
      (∀ store call, store.issued call = none → Own store call (opening env now work).1) ∧
      ∀ expiresAt, expiry (opening env now work).1 = some expiresAt → expiresAt = now + env.ttl := by
  cases work with
  | store held uploader =>
    refine ⟨rfl, rfl, fun _ => trivial, fun _ _ fresh => fresh, ?_⟩
    · intro expiresAt known
      exact (Option.some.inj known).symm
  | delete document =>
    refine ⟨rfl, rfl, fun _ => trivial, fun _ _ _ => trivial, ?_⟩
    · intro expiresAt known
      cases known
  | deleteSession held user =>
    refine ⟨rfl, rfl, fun _ => trivial, fun _ _ _ => trivial, ?_⟩
    · intro expiresAt known
      cases known
  | read held =>
    refine ⟨rfl, rfl, fun _ => trivial, fun _ _ _ => trivial, ?_⟩
    · intro expiresAt known
      cases known
  | bind held run lensnode documents =>
    rcases loose_bindNext held run lensnode documents [] with ⟨loose, holds⟩
    refine ⟨loose.started, holds, ?_, fun store call _ => loose.own store call, ?_⟩
    · intro store
      exact facts_bindNext held run lensnode documents [] (by simp)
    · intro expiresAt known
      rw [opening, loose.expiry] at known
      cases known

theorem Inv.enter {env : Env} {state : State} (inv : Inv env state) (call : CallId) (phase : Phase)
    (lock : SessionId → Option CallId) (started : begun phase = true) (facts : Facts state.store phase)
    (own : Own state.store call phase) (youngest : Youngest env state.store phase)
    (mine : ∀ held, session phase = some held → lock held = some call)
    (others : ∀ other ≠ call, ∀ held, session (state.phases other) = some held →
      lock held = state.lock held) :
    Inv env { DocumentIndex.setPhase state call state.store phase with lock := lock } := by
  refine ⟨inv.sound, ?_, ?_, ?_, ?_, ?_⟩
  all_goals intro other
  all_goals dsimp only [DocumentIndex.setPhase]
  all_goals by_cases same : other = call
  · rw [same, update_self]
    exact facts
  · rw [update_of_ne same]
    exact inv.facts other
  · rw [same, update_self]
    exact own
  · rw [update_of_ne same]
    exact inv.own other
  · rw [same, update_self]
    exact mine
  · rw [update_of_ne same]
    intro held holds
    rw [others other same held holds]
    exact inv.lock other held holds
  · rw [same, update_self]
    exact youngest
  · rw [update_of_ne same]
    exact inv.youngest other
  · rw [same, update_self]
    intro idle
    rw [started] at idle
    cases idle
  · rw [update_of_ne same]
    exact inv.fresh other

theorem inv_begin (env : Env) (state : State) (call : CallId) (work : Work) (next : State)
    (inv : Inv env state) (taken : step env state (.begin call work) = some next) : Inv env next := by
  rcases opening_cases env state.store.now work with ⟨started, holds, facts, own, expires⟩
  have youngest : Youngest env state.store (opening env state.store.now work).1 := by
    intro expiresAt known
    rw [expires expiresAt known]
    exact ⟨Nat.le_refl _, fun document _ ticket issued _ => inv.sound.bound document ticket issued⟩
  simp only [step] at taken
  split at taken
  · rename_i idle
    have fresh := inv.fresh call (by rw [idle]; rfl)
    split at taken
    · rename_i phase opened
      cases taken
      rw [opened] at started holds facts own youngest
      apply inv.enter call phase state.lock started (facts _) (own _ call fresh) youngest
      · intro held same
        rw [holds] at same
        cases same
      · exact fun _ _ _ _ => rfl
    · rename_i phase held opened
      rw [opened] at started holds facts own youngest
      split at taken
      · rename_i free
        cases taken
        apply inv.enter call phase (Function.update state.lock held (some call)) started (facts _)
          (own _ call fresh) youngest
        · intro other same
          rw [holds] at same
          cases same
          exact update_self ..
        · intro other different session same
          apply update_of_ne
          rintro rfl
          rw [inv.lock other session same] at free
          cases free
      · cases taken
  · cases taken

theorem inv_advance (env : Env) (state : State) (call : CallId) (next : State)
    (inv : Inv env state) (allowed : Allowed state.store (state.phases call))
    (taken : step env state (.advance call) = some next) : Inv env next := by
  simp only [step] at taken
  split at taken
  · rename_i held leaving
    cases taken
    apply inv.enter call .ended (Function.update state.lock held none) rfl trivial trivial
    · intro expiresAt known
      cases known
    · intro other no
      cases no
    · intro other different session same
      apply update_of_ne
      rintro rfl
      have mine := inv.lock call session (by rw [leaving]; rfl)
      rw [inv.lock other session same] at mine
      exact different (Option.some.inj mine)
  · rename_i phase _
    rcases map_eq_some_iff.mp taken with ⟨⟨store, after⟩, operated, rfl⟩
    exact inv.setPhase (operate_keeps inv.sound _ (inv.facts call) (inv.own call)
      (inv.youngest call) allowed store after operated)

theorem inv_raise (env : Env) (state : State) (call : CallId) (next : State)
    (inv : Inv env state) (taken : step env state (.raise call) = some next) : Inv env next := by
  simp only [step] at taken
  split at taken
  · rename_i metadata saving
    cases taken
    have own := inv.own call
    rw [saving] at own
    apply inv.setPhase
    rw [saving]
    exact ⟨inv.sound, .refl _, trivial, own, rfl, fun _ same => same,
      nofun, fun _ _ _ same => same, fun _ _ => rfl,
      fun _ member => .inl member⟩
  · cases taken
    apply inv.setPhase
    exact .stay inv.sound ⟨rfl, rfl, fun _ _ => trivial⟩ trivial nofun
  · cases taken

theorem inv_step (env : Env) (state : State) (action : Action) (next : State)
    (inv : Inv env state) (undisturbed : Undisturbed state action)
    (taken : step env state action = some next) : Inv env next := by
  cases action with
  | tick duration =>
    cases taken
    exact inv_tick inv duration
  | begin call work => exact inv_begin env state call work next inv taken
  | advance call => exact inv_advance env state call next inv undisturbed taken
  | raise call => exact inv_raise env state call next inv taken

/-- In every run whose overlapping calls do not get in each other's way, the slots, the
indexes and the metadata stay consistent. -/
theorem consistent_always (env : Env) (actions : List Action) (state : State)
    (run : Steps (step env) Undisturbed start actions state) : Consistent state.store := by
  have inv := run.invariant (Inv env) (inv_step env) (inv_start env)
  exact consistent_of_sound inv.sound

instance (store : Store) (phase : Phase) : Decidable (Allowed store phase) :=
  match phase with
  | .extending metadata documents =>
    inferInstanceAs (Decidable (∀ document ∈ store.listed metadata.sessionUuid,
      document ∈ documents))
  | .rewriting session _ documents _ =>
    inferInstanceAs (Decidable (∀ document ∈ store.listed session, document ∈ documents))
  | .closing session =>
    inferInstanceAs (Decidable (∀ document ∈ store.listed session, store.document document = none))
  | .releasing metadata _ _ | .returning metadata =>
    inferInstanceAs (Decidable ((get store.slots store.now
      (metadata.uploadedById, metadata.quotaSlot)).getD metadata.uuid = metadata.uuid))
  | .writing _ candidates =>
    inferInstanceAs (Decidable (∀ metadata ∈ candidates,
      get store.metadata store.now metadata.uuid = none →
        remainingSeconds metadata store.now = 0))
  | .idle | .ended | .reserving _ _ | .saving _ | .caching _ | .appending _ | .discarding _
  | .leaving _ | .fetching _ _ _ | .erasing _ _ _ | .forgetting _ _ _ | .listing _ _ | .reading _
  | .scanning _ _ _ _ | .binding _ _ _ _ _ _ _ | .dropping _ _ | .unlisting _ _ _ => .isTrue trivial

instance (state : State) (action : Action) : Decidable (Undisturbed state action) :=
  match action with
  | .advance call => inferInstanceAs (Decidable (Allowed state.store (state.phases call)))
  | .tick _ | .begin _ _ | .raise _ => .isTrue trivial

def hour : Env where
  ttl := 3600 * second

/-- All the operations of a call, where nothing is in its way. -/
def whole (call : CallId) (work : Work) (operations : Nat) : List Action :=
  .begin call work :: List.replicate operations (.advance call)

/-- Two documents are stored, the first one is bound and deleted, and its slot is used again. -/
def inTurn : List Action :=
  whole 1 (.store 5 3) 6 ++ whole 2 (.store 5 3) 7 ++ whole 3 (.bind 5 9 4 [(1, 0)]) 3 ++
    whole 4 (.delete 1) 6 ++ whole 6 (.store 5 3) 6 ++ whole 7 (.read 5) 3

theorem consistent_in_turn : ∃ state, Steps (step hour) Undisturbed start inTurn state ∧
    Consistent state.store ∧ state.store.listed 5 = [2, 6] ∧
      get state.store.slots state.store.now (3, 0) = some 6 := by
  have run : (execGuarded (step hour) Undisturbed start inTurn).map (fun state =>
      (state.store.listed 5, get state.store.slots state.store.now (3, 0))) =
        some ([2, 6], some 6) := by
    decide +kernel
  rcases map_eq_some_iff.mp run with ⟨state, executed, seen⟩
  have steps := execGuarded_steps executed
  exact ⟨state, steps, consistent_always hour inTurn state steps, congrArg Prod.fst seen,
    congrArg Prod.snd seen⟩

/-- Both deletions of document 1 have read its metadata, and the second one frees the slot that
the first has freed and document 2 has taken. -/
def deletedTwice : List Action :=
  whole 1 (.store 5 3) 6 ++ [.begin 8 (.delete 1), .advance 8] ++ whole 4 (.delete 1) 6 ++
    whole 2 (.store 5 3) 6 ++ List.replicate 5 (.advance 8) ++ whole 6 (.store 5 3) 6

theorem slot_held_twice : ∃ state, Steps (step hour) Any start deletedTwice state ∧
    ¬Consistent state.store := by
  have run : (exec (step hour) start deletedTwice).map (fun state =>
      ((state.store.document 2).map fun metadata => (metadata.uploadedById, metadata.quotaSlot),
        (state.store.document 6).map fun metadata => (metadata.uploadedById, metadata.quotaSlot))) =
        some (some (3, 0), some (3, 0)) := by
    decide +kernel
  rcases map_eq_some_iff.mp run with ⟨state, executed, seen⟩
  refine ⟨state, exec_steps executed, ?_⟩
  intro consistent
  rcases map_eq_some_iff.mp (congrArg Prod.fst seen) with ⟨one, found, first⟩
  rcases map_eq_some_iff.mp (congrArg Prod.snd seen) with ⟨two, foundToo, second⟩
  have same := first.trans second.symm
  have equal := consistent.slots 2 6 one two found foundToo (congrArg Prod.fst same)
    (congrArg Prod.snd same)
  cases equal

end SourceLens.DocumentIndex
