import SourceLens.RunDocuments

/-! Whole runs of a session: which documents its unfinished runs can still reach. -/

namespace SourceLens.RunDocuments

open ExpiringCache DocumentAttachment Transition List Function

structure Inv (env : Env) (state : State) : Prop where
  owner : ∀ run, active (state.phase run) = true → state.lock = some run
  rows : ∀ run row, state.runs run = some row →
    row.lensnode = (env.call run).lensnode ∧ state.phase run = .ended
  entry : ∀ document metadata deadline, state.metadata document = some ⟨metadata, deadline⟩ →
    metadata.uuid = document ∧ state.stored document = some metadata.expiresAt ∧
      Outlives metadata.expiresAt deadline
  present : ∀ document, Alive state document →
    (state.metadata document).isSome = true ∧ (state.files document).isSome = true
  modified : ∀ document modified expiresAt, state.files document = some modified →
    state.stored document = some expiresAt → expiresAt ≤ modified + env.ttl
  listed : ∀ run document, document ∈ state.bindings run → Alive state document →
    ∀ metadata deadline, state.metadata document = some ⟨metadata, deadline⟩ →
      run ∈ boundRuns metadata
  indexed : ∀ run document, document ∈ state.bindings run →
    ∃ documents deadline expiresAt, state.runIndex run = some ⟨documents, deadline⟩ ∧
      document ∈ documents ∧ state.stored document = some expiresAt ∧ Outlives expiresAt deadline
  candidate : ∀ run documents candidates, state.phase run = .reading documents candidates →
    ∀ metadata ∈ candidates, state.stored metadata.uuid = some metadata.expiresAt ∧
      metadata.runUuid = some run ∧ metadata.lensnodeUuid = some (env.call run).lensnode ∧
      run ∈ boundRuns metadata ∧
      ∀ other, metadata.uuid ∈ state.bindings other → Alive state metadata.uuid →
        other ∈ boundRuns metadata

theorem inv_start (env : Env) : Inv env start where
  owner := by simp [start, active]
  rows := by simp [start]
  entry := by simp [start, empty]
  present := by
    intro document alive
    rcases alive.2 with ⟨expiresAt, stored, _⟩
    simp [start] at stored
  modified := by simp [start]
  listed := by simp [start]
  indexed := by simp [start]
  candidate := by simp [start]

theorem found_of_entry {env : Env} {state : State} (inv : Inv env state) {document : DocumentId}
    (alive : Alive state document) :
    ∃ metadata deadline, state.metadata document = some ⟨metadata, deadline⟩ ∧
      metadata.uuid = document ∧
      getDocumentAttachment state.metadata state.now document = some metadata := by
  rcases Option.isSome_iff_exists.mp (inv.present document alive).1 with ⟨⟨metadata, deadline⟩, entry⟩
  rcases inv.entry document metadata deadline entry with ⟨uuid, stored, outlives⟩
  rcases alive.2 with ⟨expiresAt, known, left⟩
  rw [stored] at known
  cases known
  exact ⟨metadata, deadline, entry, uuid, getDocumentAttachment_of_entry entry outlives left⟩

theorem Inv.listed_all {env : Env} {state : State} (inv : Inv env state) : Listed state := by
  intro run document promised
  rcases promised with ⟨_, bound, alive⟩
  rcases found_of_entry inv alive with ⟨metadata, deadline, entry, uuid, found⟩
  rcases inv.indexed run document bound with ⟨documents, until', expiresAt, index, member, stored,
    outlives⟩
  have live : state.now < until' := by
    rcases alive.2 with ⟨other, known, left⟩
    rw [stored] at known
    cases known
    exact outlives state.now left
  refine ⟨metadata, ?_, uuid⟩
  rw [getRunDocumentAttachments, mem_mergeSort, get_of_entry index live]
  apply mem_filterMap.mpr
  refine ⟨document, member, ?_⟩
  rw [found, Option.filter_eq_some_iff]
  exact ⟨rfl, decide_eq_true (inv.listed run document bound alive metadata deadline entry)⟩

theorem Alive.before {state next : State} {document : DocumentId}
    (deleted : ∀ d ∈ state.deleted, d ∈ next.deleted) (stored : next.stored = state.stored)
    (time : state.now ≤ next.now) (alive : Alive next document) : Alive state document := by
  refine ⟨fun gone => alive.1 (deleted document gone), ?_⟩
  rcases alive.2 with ⟨expiresAt, known, left⟩
  rw [stored] at known
  exact ⟨expiresAt, known, Nat.lt_of_lt_of_le left (secondsLeft_mono expiresAt time)⟩

section Steps

variable {env : Env} {state : State} (inv : Inv env state)
include inv

theorem Inv.shrink (next : State) (lock : next.lock = state.lock) (phase : next.phase = state.phase)
    (runs : next.runs = state.runs) (bindings : next.bindings = state.bindings)
    (runIndex : next.runIndex = state.runIndex) (stored : next.stored = state.stored)
    (deleted : ∀ document ∈ state.deleted, document ∈ next.deleted) (time : state.now ≤ next.now)
    (metadata : ∀ document entry, next.metadata document = some entry →
      state.metadata document = some entry)
    (files : ∀ document modified, next.files document = some modified →
      state.files document = some modified)
    (kept : ∀ document, Alive next document → next.metadata document = state.metadata document ∧
      next.files document = state.files document) : Inv env next := by
  have before : ∀ document, Alive next document → Alive state document := fun document alive =>
    alive.before deleted stored time
  constructor
  · rw [lock, phase]
    exact inv.owner
  · rw [runs, phase]
    exact inv.rows
  · intro document value deadline entry
    rw [stored]
    exact inv.entry document value deadline (metadata document _ entry)
  · intro document alive
    rw [(kept document alive).1, (kept document alive).2]
    exact inv.present document (before document alive)
  · intro document modified expiresAt file
    rw [stored]
    exact inv.modified document modified expiresAt (files document modified file)
  · intro run document bound alive value deadline entry
    rw [bindings] at bound
    exact inv.listed run document bound (before document alive) value deadline
      (metadata document _ entry)
  · rw [bindings, runIndex, stored]
    exact inv.indexed
  · intro run documents candidates reading value member
    rw [phase] at reading
    rcases inv.candidate run documents candidates reading value member with
      ⟨known, last, node, self, others⟩
    rw [stored, bindings]
    exact ⟨known, last, node, self, fun other bound alive =>
      others other bound (before value.uuid alive)⟩

theorem Inv.turn (run : RunId) (phase : Phase) (lock : Option RunId)
    (runs : RunId → Option RunRow)
    (owner : ∀ other, active (Function.update state.phase run phase other) = true →
      lock = some other)
    (rows : ∀ other row, runs other = some row → row.lensnode = (env.call other).lensnode ∧
      Function.update state.phase run phase other = .ended)
    (candidate : ∀ documents candidates, phase = .reading documents candidates →
      ∀ metadata ∈ candidates, state.stored metadata.uuid = some metadata.expiresAt ∧
        metadata.runUuid = some run ∧ metadata.lensnodeUuid = some (env.call run).lensnode ∧
        run ∈ boundRuns metadata ∧
        ∀ other, metadata.uuid ∈ state.bindings other → Alive state metadata.uuid →
          other ∈ boundRuns metadata) :
    Inv env { state with phase := Function.update state.phase run phase, lock := lock, runs := runs } := by
  refine ⟨owner, rows, inv.entry, inv.present, inv.modified, inv.listed, inv.indexed, ?_⟩
  intro other documents candidates reading
  dsimp only at reading
  by_cases same : other = run
  · subst same
    rw [update_self] at reading
    exact candidate documents candidates reading
  · rw [update_of_ne same] at reading
    exact inv.candidate other documents candidates reading

theorem Inv.alone {run : RunId} (mine : active (state.phase run) = true) :
    ∀ other, other ≠ run → active (state.phase other) = false := by
  intro other different
  cases busy : active (state.phase other) with
  | false => rfl
  | true =>
    have lock := inv.owner other busy
    rw [inv.owner run mine] at lock
    exact absurd (Option.some.inj lock).symm different

theorem Inv.advance (run : RunId) (phase : Phase) (mine : active (state.phase run) = true)
    (candidate : ∀ documents candidates, phase = .reading documents candidates →
      ∀ metadata ∈ candidates, state.stored metadata.uuid = some metadata.expiresAt ∧
        metadata.runUuid = some run ∧ metadata.lensnodeUuid = some (env.call run).lensnode ∧
        run ∈ boundRuns metadata ∧
        ∀ other, metadata.uuid ∈ state.bindings other → Alive state metadata.uuid →
          other ∈ boundRuns metadata) : Inv env (moveTo state run phase) := by
  apply inv.turn run phase state.lock state.runs _ _ candidate
  · intro other busy
    by_cases same : other = run
    · rw [same]
      exact inv.owner run mine
    · rw [update_of_ne same] at busy
      exact inv.owner other busy
  · intro other row held
    have old := inv.rows other row held
    refine ⟨old.1, ?_⟩
    by_cases same : other = run
    · rw [same] at old
      rw [old.2] at mine
      cases mine
    · rw [update_of_ne same]
      exact old.2

theorem Inv.finishCall (run : RunId) (runs : RunId → Option RunRow)
    (mine : active (state.phase run) = true)
    (rows : ∀ other row, runs other = some row → other = run ∧
      row.lensnode = (env.call run).lensnode ∨ state.runs other = some row) :
    Inv env { endCall state run with runs := runs } := by
  apply inv.turn run .ended none runs
  · intro other busy
    by_cases same : other = run
    · rw [same, update_self] at busy
      cases busy
    · rw [update_of_ne same, inv.alone mine other same] at busy
      cases busy
  · intro other row held
    rcases rows other row held with ⟨same, node⟩ | old
    · rw [same, update_self]
      exact ⟨node, rfl⟩
    · have known := inv.rows other row old
      refine ⟨known.1, ?_⟩
      by_cases same : other = run
      · rw [same, update_self]
      · rw [update_of_ne same]
        exact known.2
  · intro documents candidates no
    cases no

theorem Inv.dropExpired (document : DocumentId) :
    Inv env { state with metadata := dropExpired state.metadata state.now document } := by
  rcases dropExpired_cases state.metadata state.now document with same | ⟨same, value, read', expired⟩
  · rw [same]
    exact inv
  · rw [same]
    apply inv.shrink
      { state with metadata := ExpiringCache.delete state.metadata document }
      rfl rfl rfl rfl rfl rfl (fun _ member => member) (Nat.le_refl _) _ (fun _ _ file => file)
    · intro other alive
      refine ⟨?_, rfl⟩
      apply delete_other
      rintro rfl
      rcases entry_of_get read' with ⟨deadline, entry, _⟩
      have known := (inv.entry other value deadline entry).2.1
      rcases alive.2 with ⟨expiresAt, stored, left⟩
      dsimp only at stored left
      rw [known] at stored
      cases stored
      rw [remainingSeconds] at expired
      omega
    · intro other entry held
      dsimp only at held
      by_cases same' : other = document
      · rw [same', delete_self] at held
        cases held
      · rwa [delete_other _ same'] at held

theorem inv_read (run : RunId) (document : DocumentId) (order : Nat)
    (rest : List (DocumentId × Nat)) (candidates : List Metadata)
    (reading : state.phase run = .reading ((document, order) :: rest) candidates) :
    Inv env (read env state run document order rest candidates) := by
  have dropped := inv.dropExpired document
  have mine : active (state.phase run) = true := by rw [reading]; rfl
  unfold read
  cases found : getDocumentAttachment state.metadata state.now document with
  | none =>
    apply dropped.advance run .bound mine
    intro documents held no
    cases no
  | some metadata =>
    dsimp only
    split
    · apply dropped.advance run .bound mine
      intro documents held no
      cases no
    · apply dropped.advance run _ mine
      intro documents held same value member
      cases same
      rw [mem_append, mem_singleton] at member
      cases member with
      | inl before =>
        exact dropped.candidate run _ candidates reading value before
      | inr new =>
        rcases entry_of_getDocumentAttachment found with ⟨⟨deadline, entry⟩, left⟩
        rcases inv.entry document metadata deadline entry with ⟨uuid, stored, _⟩
        rw [new]
        refine ⟨?_, rfl, rfl, (mem_boundRuns_bindTo ..).mpr (.inl rfl), ?_⟩
        · show state.stored metadata.uuid = some metadata.expiresAt
          rw [uuid]
          exact stored
        · intro other bound alive
          have bound' : metadata.uuid ∈ state.bindings other := bound
          have alive' : Alive state metadata.uuid := alive
          rw [uuid] at bound' alive'
          have there := inv.listed other document bound' alive' metadata deadline entry
          exact (mem_boundRuns_bindTo ..).mpr (.inr there)

theorem inv_bind (run : RunId) (candidates : List Metadata)
    (reading : state.phase run = .reading [] candidates) : Inv env (bind state run candidates) := by
  have mine : active (state.phase run) = true := by rw [reading]; rfl
  have moved : Inv env (moveTo state run .bound) := by
    apply inv.advance run .bound mine
    intro documents held no
    cases no
  have known := inv.candidate run [] candidates reading
  unfold bind
  dsimp only
  split
  · exact moved
  · have outlives : ∀ metadata ∈ candidates, Outlives metadata.expiresAt
        (state.now + bindTimeout state.now candidates * second) := by
      intro metadata member
      exact outlives_timeout _ _ _ (bindTimeout_ge state.now candidates metadata member)
    constructor
    · exact moved.owner
    · exact moved.rows
    · intro document metadata deadline entry
      dsimp only at entry
      rcases setMany_cases state.metadata candidates
        (state.now + bindTimeout state.now candidates * second) document with
        ⟨value, member, uuid, held⟩ | ⟨_, held⟩
      · rw [held] at entry
        cases entry
        exact ⟨uuid, uuid ▸ (known metadata member).1, outlives metadata member⟩
      · rw [held] at entry
        exact inv.entry document metadata deadline entry
    · intro document alive
      have old := inv.present document alive
      refine ⟨?_, old.2⟩
      dsimp only
      rcases setMany_cases state.metadata candidates
        (state.now + bindTimeout state.now candidates * second) document with
        ⟨value, _, _, held⟩ | ⟨_, held⟩
      · rw [held]
        rfl
      · rw [held]
        exact old.1
    · exact inv.modified
    · intro other document bound alive metadata deadline entry
      dsimp only at bound entry
      rcases setMany_cases state.metadata candidates
        (state.now + bindTimeout state.now candidates * second) document with
        ⟨value, member, uuid, held⟩ | ⟨absent, held⟩
      · rw [held] at entry
        cases entry
        by_cases same : other = run
        · rw [same]
          exact (known metadata member).2.2.2.1
        · rw [update_of_ne same] at bound
          exact (known metadata member).2.2.2.2 other (uuid ▸ bound) (uuid ▸ alive)
      · rw [held] at entry
        by_cases same : other = run
        · rw [same, update_self] at bound
          rcases mem_map.mp bound with ⟨value, member, uuid⟩
          exact absurd uuid (absent value member)
        · rw [update_of_ne same] at bound
          exact inv.listed other document bound alive metadata deadline entry
    · intro other document bound
      dsimp only at bound ⊢
      by_cases same : other = run
      · rw [same, update_self] at bound
        rcases mem_map.mp bound with ⟨value, member, uuid⟩
        rw [same, set_self]
        exact ⟨_, _, value.expiresAt, rfl, bound, uuid ▸ (known value member).1,
          outlives value member⟩
      · rw [update_of_ne same] at bound
        rw [set_other _ _ _ same]
        exact inv.indexed other document bound
    · intro other documents held reading'
      dsimp only [moveTo] at reading'
      by_cases same : other = run
      · rw [same, update_self] at reading'
        cases reading'
      · rw [update_of_ne same] at reading'
        have busy : active (state.phase other) = true := by rw [reading']; rfl
        rw [inv.alone mine other same] at busy
        cases busy

theorem inv_store (document : DocumentId) (uploader : UserId) (quotaSlot elapsed : Nat)
    (fresh : state.stored document = none) :
    Inv env (storeDocument env state document uploader quotaSlot elapsed) := by
  have unused : ∀ {other expiresAt}, state.stored other = some expiresAt → other ≠ document := by
    intro other expiresAt stored same
    rw [same, fresh] at stored
    cases stored
  have before : ∀ other, other ≠ document →
      Alive (storeDocument env state document uploader quotaSlot elapsed) other →
        Alive state other := by
    intro other different alive
    refine ⟨alive.1, ?_⟩
    rcases alive.2 with ⟨expiresAt, stored, left⟩
    dsimp only [storeDocument] at stored
    rw [update_of_ne different] at stored
    exact ⟨expiresAt, stored, left⟩
  constructor
  · exact inv.owner
  · exact inv.rows
  · intro other metadata deadline entry
    dsimp only [storeDocument] at entry ⊢
    by_cases same : other = document
    · subst same
      rw [set_self] at entry
      cases entry
      exact ⟨rfl, update_self .., outlives_timeout _ _ _ (Nat.le_refl _)⟩
    · rw [set_other _ _ _ same] at entry
      rw [update_of_ne same]
      exact inv.entry other metadata deadline entry
  · intro other alive
    by_cases same : other = document
    · subst same
      simp [storeDocument]
    · have old := inv.present other (before other same alive)
      dsimp only [storeDocument]
      rw [set_other _ _ _ same, update_of_ne same]
      exact old
  · intro other modified expiresAt file stored
    dsimp only [storeDocument] at file stored
    by_cases same : other = document
    · subst same
      rw [update_self] at file stored
      cases file
      cases stored
      omega
    · rw [update_of_ne same] at file stored
      exact inv.modified other modified expiresAt file stored
  · intro run other bound alive metadata deadline entry
    rcases inv.indexed run other bound with ⟨_, _, expiresAt, _, _, stored, _⟩
    have different := unused stored
    dsimp only [storeDocument] at entry
    rw [set_other _ _ _ different] at entry
    exact inv.listed run other bound (before other different alive) metadata deadline entry
  · intro run other bound
    rcases inv.indexed run other bound with ⟨documents, deadline, expiresAt, index, member, stored,
      outlives⟩
    refine ⟨documents, deadline, expiresAt, index, member, ?_, outlives⟩
    exact (update_of_ne (unused stored) ..).trans stored
  · intro run documents candidates reading metadata member
    rcases inv.candidate run documents candidates reading metadata member with
      ⟨stored, last, node, self, others⟩
    have different := unused stored
    exact ⟨(update_of_ne different ..).trans stored, last, node, self,
      fun other bound alive => others other bound (before _ different alive)⟩

end Steps

theorem inv_step (env : Env) (state : State) (action : Action) (next : State)
    (inv : Inv env state) (taken : step env state action = some next) : Inv env next := by
  cases action with
  | tick duration =>
    cases taken
    exact inv.shrink { state with now := state.now + duration } rfl rfl rfl rfl rfl rfl
      (fun _ member => member) (Nat.le_add_right ..) (fun _ _ entry => entry)
      (fun _ _ file => file) (fun _ _ => ⟨rfl, rfl⟩)
  | store document uploader quotaSlot elapsed =>
    simp only [step] at taken
    split at taken
    · rename_i fresh
      cases taken
      exact inv_store inv document uploader quotaSlot elapsed fresh
    · cases taken
  | deleteFile document =>
    simp only [step] at taken
    split at taken
    · cases taken
    · cases taken
      apply inv.shrink
        { state with
          files := Function.update state.files document none
          deleted := state.deleted ++ [document] } rfl rfl rfl rfl rfl rfl
        (fun _ member => mem_append_left _ member) (Nat.le_refl _) (fun _ _ entry => entry)
      · intro other modified file
        dsimp only at file
        by_cases same : other = document
        · rw [same, update_self] at file
          cases file
        · rwa [update_of_ne same] at file
      · intro other alive
        have different : other ≠ document := by
          rintro rfl
          exact alive.1 (mem_append_right _ mem_cons_self)
        exact ⟨rfl, update_of_ne different ..⟩
  | deleteMetadata document =>
    simp only [step] at taken
    split at taken
    · rename_i gone
      cases taken
      apply inv.shrink { state with metadata := delete state.metadata document }
        rfl rfl rfl rfl rfl rfl (fun _ member => member) (Nat.le_refl _) _ (fun _ _ file => file)
      · intro other alive
        have different : other ≠ document := by
          rintro rfl
          exact alive.1 gone
        exact ⟨delete_other _ different, rfl⟩
      · intro other entry held
        dsimp only at held
        by_cases same : other = document
        · rw [same, delete_self] at held
          cases held
        · rwa [delete_other _ same] at held
    · cases taken
  | cleanup document =>
    simp only [step] at taken
    split at taken
    · rename_i modified file
      split at taken
      · rename_i old
        cases taken
        apply inv.shrink { state with files := Function.update state.files document none }
          rfl rfl rfl rfl rfl rfl (fun _ member => member) (Nat.le_refl _) (fun _ _ entry => entry)
        · intro other stamp kept
          dsimp only at kept
          by_cases same : other = document
          · rw [same, update_self] at kept
            cases kept
          · rwa [update_of_ne same] at kept
        · intro other alive
          refine ⟨rfl, update_of_ne ?_ ..⟩
          rintro rfl
          rcases alive.2 with ⟨expiresAt, stored, left⟩
          have bound := inv.modified other modified expiresAt file stored
          have expired : expiresAt - state.now = 0 := by omega
          have none' : secondsLeft expiresAt state.now = 0 := by
            rw [secondsLeft, expired]
            decide
          dsimp only at left
          omega
      · cases taken
    · cases taken
  | begin run =>
    simp only [step] at taken
    split at taken
    · rename_i free
      cases taken
      apply inv.turn run _ (some run) state.runs
      · intro other busy
        by_cases same : other = run
        · rw [same]
        · rw [update_of_ne same] at busy
          have lock := inv.owner other busy
          rw [free.2] at lock
          cases lock
      · intro other row held
        have known := inv.rows other row held
        refine ⟨known.1, ?_⟩
        rw [update_of_ne]
        · exact known.2
        · rintro rfl
          rw [free.1] at known
          cases known.2
      · intro documents candidates same metadata member
        cases same
        cases member
    · cases taken
  | read run =>
    simp only [step] at taken
    split at taken
    · rename_i document order rest candidates reading
      cases taken
      exact inv_read inv run document order rest candidates reading
    · cases taken
  | bind run =>
    simp only [step] at taken
    split at taken
    · rename_i candidates reading
      cases taken
      exact inv_bind inv run candidates reading
    · cases taken
  | commit run =>
    simp only [step] at taken
    split at taken
    · rename_i bound
      cases taken
      apply inv.finishCall run _ (by rw [bound]; rfl)
      intro other row held
      by_cases same : other = run
      · rw [same, update_self] at held
        cases held
        exact .inl ⟨same, rfl⟩
      · rw [update_of_ne same] at held
        exact .inr held
    · cases taken
  | raise run =>
    simp only [step] at taken
    split at taken
    · rename_i mine
      cases taken
      exact inv.finishCall run state.runs mine fun _ _ held => .inr held
    · cases taken
  | finish run =>
    simp only [step] at taken
    split at taken
    · rename_i row held
      cases taken
      refine ⟨inv.owner, ?_, inv.entry, inv.present, inv.modified, inv.listed, inv.indexed,
        inv.candidate⟩
      intro other row' held'
      dsimp only at held'
      by_cases same : other = run
      · rw [same, update_self] at held'
        cases held'
        rw [same]
        exact inv.rows run row held
      · rw [update_of_ne same] at held'
        exact inv.rows other row' held'
    · cases taken

def Waiting (state : State) (run : RunId) : Prop :=
  state.phase run = .bound ∨ ∃ row, state.runs run = some row ∧ row.finished = false

structure Own (env : Env) (state : State) : Prop where
  unbound : ∀ run, state.phase run ≠ .bound → state.phase run ≠ .ended → state.bindings run = []
  last : ∀ run document, Waiting state run → document ∈ state.bindings run →
    Alive state document → ∀ metadata deadline,
      state.metadata document = some ⟨metadata, deadline⟩ →
        metadata.runUuid = some run ∧ metadata.lensnodeUuid = some (env.call run).lensnode

theorem own_start (env : Env) : Own env start where
  unbound := by simp [start]
  last := by simp [start]

theorem served_of_own {env : Env} {state : State} (inv : Inv env state) (own : Own env state) :
    Served state := by
  intro run row document held promised
  rcases promised with ⟨waiting, bound, alive⟩
  rcases found_of_entry inv alive with ⟨metadata, deadline, entry, uuid, found⟩
  rcases own.last run document (.inr waiting) bound alive metadata deadline entry with
    ⟨last, node⟩
  simp [serves, held, found, last, node, (inv.rows run row held).1,
    (inv.present document alive).2]

theorem Own.keep {env : Env} {state : State} (own : Own env state) (next : State)
    (bindings : next.bindings = state.bindings)
    (unbound : ∀ run, next.phase run ≠ .bound → next.phase run ≠ .ended →
      state.phase run ≠ .bound ∧ state.phase run ≠ .ended)
    (waiting : ∀ run, Waiting next run → Waiting state run ∨ state.bindings run = [])
    (known : ∀ run document, document ∈ state.bindings run → Alive next document →
      Alive state document ∧ ∀ entry, next.metadata document = some entry →
        state.metadata document = some entry) : Own env next := by
  constructor
  · intro run open' running
    rcases unbound run open' running with ⟨before, beforeToo⟩
    rw [bindings]
    exact own.unbound run before beforeToo
  · intro run document held bound alive metadata deadline entry
    rw [bindings] at bound
    rcases known run document bound alive with ⟨old, same⟩
    rcases waiting run held with before | none'
    · exact own.last run document before bound old metadata deadline (same _ entry)
    · rw [none'] at bound
      cases bound

theorem own_phase {env : Env} {state : State} (own : Own env state) (run : RunId) (phase : Phase)
    (lock : Option RunId) (runs : RunId → Option RunRow)
    (waiting : ∀ other row, runs other = some row → row.finished = false →
      Waiting state other)
    (open' : phase ≠ .bound → phase ≠ .ended → state.phase run ≠ .bound ∧ state.phase run ≠ .ended)
    (bound : phase = .bound → state.bindings run = []) :
    Own env { state with phase := Function.update state.phase run phase, lock := lock, runs := runs } := by
  apply own.keep { state with phase := Function.update state.phase run phase, lock := lock, runs := runs }
    rfl
  · intro other notBound notEnded
    dsimp only at notBound notEnded
    by_cases same : other = run
    · subst same
      rw [update_self] at notBound notEnded
      exact open' notBound notEnded
    · rw [update_of_ne same] at notBound notEnded
      exact ⟨notBound, notEnded⟩
  · intro other held
    rcases held with now | ⟨row, held, unfinished⟩
    · dsimp only at now
      by_cases same : other = run
      · subst same
        rw [update_self] at now
        exact .inr (bound now)
      · rw [update_of_ne same] at now
        exact .inl (.inl now)
    · exact .inl (waiting other row held unfinished)
  · exact fun _ _ _ alive => ⟨alive, fun _ entry => entry⟩

theorem own_dropExpired {env : Env} {state : State} (own : Own env state) (document : DocumentId) :
    Own env { state with metadata := dropExpired state.metadata state.now document } := by
  apply own.keep { state with metadata := dropExpired state.metadata state.now document } rfl
    (fun _ one two => ⟨one, two⟩) (fun _ held => .inl held)
  intro run other bound alive
  refine ⟨alive, ?_⟩
  intro entry held
  dsimp only at held
  rcases dropExpired_cases state.metadata state.now document with same | ⟨same, _⟩
  · rwa [same] at held
  · rw [same] at held
    by_cases equal : other = document
    · rw [equal, delete_self] at held
      cases held
    · rwa [delete_other _ equal] at held

theorem own_bind {env : Env} {state : State} (inv : Inv env state) (own : Own env state)
    (run : RunId) (candidates : List Metadata) (reading : state.phase run = .reading [] candidates)
    (apart : ∀ metadata ∈ candidates, ∀ other, ¬Promised state other metadata.uuid) :
    Own env (bind state run candidates) := by
  have mine : active (state.phase run) = true := by rw [reading]; rfl
  have none' : state.bindings run = [] :=
    own.unbound run (by simp [reading]) (by simp [reading])
  have known := inv.candidate run [] candidates reading
  have moved : Own env (moveTo state run .bound) := by
    apply own_phase own run .bound state.lock state.runs
    · exact fun other row held unfinished => .inr ⟨row, held, unfinished⟩
    · exact fun no => absurd rfl no
    · exact fun _ => none'
  unfold bind
  dsimp only
  split
  · exact moved
  · constructor
    · intro other notBound notEnded
      dsimp only [moveTo] at notBound notEnded ⊢
      by_cases same : other = run
      · subst same
        rw [update_self] at notBound
        exact absurd rfl notBound
      · rw [update_of_ne same] at notBound notEnded ⊢
        exact own.unbound other notBound notEnded
    · intro other document waiting bound alive metadata deadline entry
      dsimp only at bound entry
      by_cases same : other = run
      · subst same
        rw [update_self] at bound
        rcases setMany_cases state.metadata candidates
          (state.now + bindTimeout state.now candidates * second) document with
          ⟨value, member, uuid, held⟩ | ⟨absent, _⟩
        · rw [held] at entry
          cases entry
          exact ⟨(known metadata member).2.1, (known metadata member).2.2.1⟩
        · rcases mem_map.mp bound with ⟨value, member, uuid⟩
          exact absurd uuid (absent value member)
      · rw [update_of_ne same] at bound
        -- Another call cannot be between its binding and its end: the lock is held here.
        have unfinished : ∃ row, state.runs other = some row ∧ row.finished = false := by
          rcases waiting with now | row
          · dsimp only [moveTo] at now
            rw [update_of_ne same] at now
            have busy : active (state.phase other) = true := by rw [now]; rfl
            rw [inv.alone mine other same] at busy
            cases busy
          · exact row
        rcases setMany_cases state.metadata candidates
          (state.now + bindTimeout state.now candidates * second) document with
          ⟨value, member, uuid, _⟩ | ⟨_, held⟩
        · exact absurd ⟨unfinished, uuid ▸ bound, uuid ▸ alive⟩ (apart value member other)
        · rw [held] at entry
          exact own.last other document (.inr unfinished) bound alive metadata deadline entry

theorem own_step (env : Env) (state : State) (action : Action) (next : State)
    (inv : Inv env state) (own : Own env state) (apart : Apart state action)
    (taken : step env state action = some next) : Own env next := by
  cases action with
  | tick duration =>
    cases taken
    apply own.keep { state with now := state.now + duration } rfl (fun _ one two => ⟨one, two⟩)
      (fun _ held => .inl held)
    intro run document bound alive
    have before : Alive state document :=
      @Alive.before state { state with now := state.now + duration } document
        (fun _ member => member) rfl (Nat.le_add_right ..) alive
    exact ⟨before, fun _ entry => entry⟩
  | store document uploader quotaSlot elapsed =>
    simp only [step] at taken
    split at taken
    · rename_i fresh
      cases taken
      apply own.keep (storeDocument env state document uploader quotaSlot elapsed) rfl
        (fun _ one two => ⟨one, two⟩) (fun _ held => .inl held)
      intro run other bound alive
      rcases inv.indexed run other bound with ⟨_, _, expiresAt, _, _, stored, _⟩
      have different : other ≠ document := by
        rintro rfl
        rw [fresh] at stored
        cases stored
      dsimp only [storeDocument]
      rw [set_other _ _ _ different]
      refine ⟨⟨alive.1, ?_⟩, fun _ entry => entry⟩
      rcases alive.2 with ⟨expiresAt', stored', left⟩
      dsimp only [storeDocument] at stored'
      rw [update_of_ne different] at stored'
      exact ⟨expiresAt', stored', left⟩
    · cases taken
  | deleteFile document =>
    simp only [step] at taken
    split at taken
    · cases taken
    · cases taken
      apply own.keep
        { state with
          files := Function.update state.files document none
          deleted := state.deleted ++ [document] }
        rfl (fun _ one two => ⟨one, two⟩) (fun _ held => .inl held)
      intro run other bound alive
      have before : Alive state other :=
        ⟨fun gone => alive.1 (mem_append_left _ gone), alive.2⟩
      exact ⟨before, fun _ entry => entry⟩
  | deleteMetadata document =>
    simp only [step] at taken
    split at taken
    · cases taken
      apply own.keep { state with metadata := delete state.metadata document } rfl
        (fun _ one two => ⟨one, two⟩) (fun _ held => .inl held)
      intro run other bound alive
      refine ⟨alive, fun entry held => ?_⟩
      dsimp only at held
      by_cases same : other = document
      · rw [same, delete_self] at held
        cases held
      · rwa [delete_other _ same] at held
    · cases taken
  | cleanup document =>
    simp only [step] at taken
    split at taken
    · split at taken
      · cases taken
        exact own.keep { state with files := Function.update state.files document none } rfl
          (fun _ one two => ⟨one, two⟩) (fun _ held => .inl held)
          (fun _ _ _ alive => ⟨alive, fun _ entry => entry⟩)
      · cases taken
    · cases taken
  | begin run =>
    simp only [step] at taken
    split at taken
    · rename_i free
      cases taken
      apply own_phase own run _ (some run) state.runs
      · exact fun other row held unfinished => .inr ⟨row, held, unfinished⟩
      · intro _ _
        simp [free.1]
      · intro no
        cases no
    · cases taken
  | read run =>
    simp only [step] at taken
    split at taken
    · rename_i document order rest candidates reading
      cases taken
      have dropped := own_dropExpired own document
      have none' : state.bindings run = [] :=
        own.unbound run (by simp [reading]) (by simp [reading])
      have kept : ∀ phase, (phase ≠ .bound → phase ≠ .ended → True) →
          Own env (moveTo { state with
            metadata := dropExpired state.metadata state.now document } run phase) := by
        intro phase _
        apply own_phase dropped run phase state.lock state.runs
        · exact fun other row held unfinished => .inr ⟨row, held, unfinished⟩
        · intro _ _
          simp [reading]
        · exact fun _ => none'
      unfold read
      dsimp only
      split
      · exact kept _ fun _ _ => trivial
      · split
        · exact kept _ fun _ _ => trivial
        · exact kept _ fun _ _ => trivial
    · cases taken
  | bind run =>
    simp only [step] at taken
    split at taken
    · rename_i candidates reading
      cases taken
      exact own_bind inv own run candidates reading (apart [] candidates reading)
    · cases taken
  | commit run =>
    simp only [step] at taken
    split at taken
    · rename_i bound
      cases taken
      apply own_phase own run .ended none
      · intro other row held unfinished
        by_cases same : other = run
        · rw [same]
          exact .inl bound
        · rw [update_of_ne same] at held
          exact .inr ⟨row, held, unfinished⟩
      · exact fun _ no => absurd rfl no
      · intro no
        cases no
    · cases taken
  | raise run =>
    simp only [step] at taken
    split at taken
    · cases taken
      apply own_phase own run .ended none state.runs
      · exact fun other row held unfinished => .inr ⟨row, held, unfinished⟩
      · exact fun _ no => absurd rfl no
      · intro no
        cases no
    · cases taken
  | finish run =>
    simp only [step] at taken
    split at taken
    · rename_i row held
      cases taken
      apply own.keep
        { state with
          runs := Function.update state.runs run (some { row with finished := true }) }
        rfl (fun _ one two => ⟨one, two⟩)
      · intro other waiting
        rcases waiting with now | ⟨row', held', unfinished⟩
        · exact .inl (.inl now)
        · dsimp only at held'
          by_cases same : other = run
          · rw [same, update_self] at held'
            cases held'
            cases unfinished
          · rw [update_of_ne same] at held'
            exact .inl (.inr ⟨row', held', unfinished⟩)
      · exact fun _ _ _ alive => ⟨alive, fun _ entry => entry⟩
    · cases taken

/-- In every run of the session in which no document of an unfinished run is bound again,
the unfinished runs reach all their documents. -/
theorem documents_available (env : Env) (actions : List Action) (state : State)
    (run : Steps (step env) Apart start actions state) : Listed state ∧ Served state := by
  have both := run.invariant (fun state => Inv env state ∧ Own env state)
    (fun before action after holds apart taken =>
      ⟨inv_step env before action after holds.1 taken,
        own_step env before action after holds.1 holds.2 apart taken⟩)
    ⟨inv_start env, own_start env⟩
  exact ⟨both.1.listed_all, served_of_own both.1 both.2⟩

/-- Two documents, each selected for a run of its own; both runs are assigned to one node. -/
def twoRuns : Env where
  session := 1
  call run := { lensnode := 5, documents := [(7 + run, 0)] }
  ttl := 60 * second

def storedAndBound : List Action :=
  [.store 7 3 0 0, .store 8 3 1 0, .begin 0, .read 0, .bind 0, .commit 0, .begin 1, .read 1,
    .bind 1, .commit 1]

theorem documents_available_twice : ∃ state, Steps (step twoRuns) Apart start storedAndBound state ∧
    (Listed state ∧ Served state) ∧ Promised state 0 7 ∧ Promised state 1 8 := by
  have run : ∃ state, Steps (step twoRuns) Apart start storedAndBound state ∧
      Promised state 0 7 ∧ Promised state 1 8 := by
    refine ⟨_, .cons trivial rfl (.cons trivial rfl (.cons trivial rfl (.cons trivial rfl
      (.cons ?_ rfl (.cons trivial rfl (.cons trivial rfl (.cons trivial rfl
        (.cons ?_ rfl (.cons trivial rfl (.nil _)))))))))), ?_, ?_⟩
    · rintro _ _ _ _ _ _ ⟨⟨_, held, _⟩, _⟩
      cases held
    · rintro _ _ reading _ member other ⟨_, bound, _⟩
      cases reading
      cases mem_singleton.mp member
      change 8 ∈ Function.update (fun _ => []) 0 [7] other at bound
      by_cases same : other = 0
      · rw [same, update_self] at bound
        revert bound
        decide
      · rw [update_of_ne same] at bound
        cases bound
    · exact ⟨⟨_, rfl, rfl⟩, by decide, by decide, _, rfl, by decide⟩
    · exact ⟨⟨_, rfl, rfl⟩, by decide, by decide, _, rfl, by decide⟩
  rcases run with ⟨state, steps, first, second⟩
  exact ⟨state, steps, documents_available twoRuns storedAndBound state steps, first, second⟩

def sameDocument : Env where
  session := 1
  call _ := { lensnode := 5, documents := [(7, 0)] }
  ttl := 60 * second

def boundAgain : List Action :=
  [.store 7 3 0 0, .begin 0, .read 0, .bind 0, .commit 0, .begin 1, .read 1, .bind 1, .raise 1]

/-- The second call is rolled back, and the first run no longer gets its document. -/
theorem bound_again_not_served : ∃ state,
    Steps (step sameDocument) Any start boundAgain state ∧ Promised state 0 7 ∧ ¬Served state := by
  have run : ∃ state, Steps (step sameDocument) Any start boundAgain state ∧ Promised state 0 7 ∧
      state.runs 0 = some ⟨5, false⟩ ∧ serves state 0 7 5 = false := by
    refine ⟨_, .cons trivial rfl (.cons trivial rfl (.cons trivial rfl (.cons trivial rfl
      (.cons trivial rfl (.cons trivial rfl (.cons trivial rfl (.cons trivial rfl
        (.cons trivial rfl (.nil _))))))))), ?_, rfl, ?_⟩
    · exact ⟨⟨_, rfl, rfl⟩, by decide, by decide, _, rfl, by decide⟩
    · decide
  rcases run with ⟨state, steps, promised, held, refused⟩
  refine ⟨state, steps, promised, ?_⟩
  intro served
  have gets := served 0 _ 7 held promised
  rw [refused] at gets
  cases gets

/-- Along every run of the session, whatever its calls bind and however they end: a document that
is neither deleted nor expired is found, its file is there, and its metadata name every run it is
bound to, whose index names it for as long. -/
theorem documents_kept (env : Env) (actions : List Action) (state : State)
    (run : Steps (step env) Any start actions state) (document : DocumentId)
    (alive : Alive state document) : (state.files document).isSome = true ∧
      ∃ metadata, getDocumentAttachment state.metadata state.now document = some metadata ∧
        ∀ run, document ∈ state.bindings run → run ∈ boundRuns metadata ∧
          ∃ documents deadline, state.runIndex run = some ⟨documents, deadline⟩ ∧
            document ∈ documents ∧ Outlives metadata.expiresAt deadline := by
  have inv := run.invariant (Inv env) (fun _ _ _ inv _ taken => inv_step env _ _ _ inv taken)
    (inv_start env)
  rcases found_of_entry inv alive with ⟨metadata, deadline, entry, -, found⟩
  refine ⟨(inv.present document alive).2, metadata, found, fun run bound => ?_⟩
  refine ⟨inv.listed run document bound alive metadata deadline entry, ?_⟩
  rcases inv.indexed run document bound with ⟨documents, until_, expiresAt, index, inside, stored, lasts⟩
  rw [(inv.entry document metadata deadline entry).2.1] at stored
  cases stored
  exact ⟨documents, until_, index, inside, lasts⟩

theorem documents_kept_bound : ∃ state metadata,
    Steps (step sameDocument) Any start [.store 7 3 0 0, .begin 0, .read 0, .bind 0] state ∧
      getDocumentAttachment state.metadata state.now 7 = some metadata ∧ 0 ∈ boundRuns metadata := by
  have run : ∃ state, Steps (step sameDocument) Any start
      [.store 7 3 0 0, .begin 0, .read 0, .bind 0] state ∧ Alive state 7 ∧ 7 ∈ state.bindings 0 :=
    ⟨_, .cons trivial rfl (.cons trivial rfl (.cons trivial rfl (.single trivial rfl))),
      ⟨by decide, _, rfl, by decide⟩, by decide⟩
  rcases run with ⟨state, steps, alive, bound⟩
  rcases (documents_kept sameDocument _ state steps 7 alive).2 with ⟨metadata, found, runs⟩
  exact ⟨state, metadata, steps, found, (runs 0 bound).1⟩

end SourceLens.RunDocuments
