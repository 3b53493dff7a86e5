import SourceLens.AlertDeliveryClaims

/-! Of the deliveries of one identity at most one is sent, and what becomes of those that
were suppressed for it. -/

namespace SourceLens.AlertDelivery

open Transition

variable {casefold : String → String} {state next : State} {action : Action}

variable {row : Delivery} {delivery : DeliveryId}

/-- The delivery was suppressed because another one holds the key of its identity. -/
def Duplicate (row : Delivery) : Prop :=
  row.status = .suppressed ∧ (row.errorMessage = "Duplicate destination for this occurrence" ∨
    row.errorMessage = "Duplicate diagnosis destination")

instance (row : Delivery) : Decidable (Duplicate row) :=
  inferInstanceAs (Decidable (_ ∧ _))

def SentOnce (state : State) : Prop :=
  ∀ first second one two, state.deliveries first = some one → state.deliveries second = some two →
    one.status = .sent → two.status = .sent → one.identity = two.identity → first = second

/-- A committed duplicate stands for a delivery that is neither skipped nor suppressed. -/
def Represented (state : State) : Prop :=
  ∀ id row, state.deliveries id = some row → row.draft = none → Duplicate row →
    ∃ other kept, state.deliveries other = some kept ∧ kept.draft = none ∧
      kept.identity = row.identity ∧ kept.status ≠ .skipped ∧ kept.status ≠ .suppressed

theorem Sound.sentOnce (sound : Sound state) : SentOnce state := by
  intro first second one two found foundToo sent sentToo same
  have key : ∀ {id row}, state.deliveries id = some row → row.status = .sent →
      row.dedupeKey = some row.identity := by
    intro id row found sent
    exact (sound.row id row found).keyed (by rw [sent]; decide) (by rw [sent]; decide)
  exact sound.unique first second one two one.identity found foundToo (key found sent)
    (same ▸ key foundToo sentToo)

def Held (state : State) : Prop :=
  ∀ id row, state.deliveries id = some row → Duplicate row → ∃ other holder,
    state.deliveries other = some holder ∧ holder.dedupeKey = some row.identity ∧
      (holder.draft = none ∨ holder.draft = row.draft)

def Unskipped (state : State) (identity : Identity) : Prop :=
  ∀ id holder, state.deliveries id = some holder → holder.dedupeKey = some identity →
    holder.status ≠ .skipped

structure Owned (state : State) : Prop where
  held : Held state
  unskipped : ∀ id row, state.deliveries id = some row → row.draft = none → Duplicate row →
    Unskipped state row.identity

theorem Owned.represented (owned : Owned state) (sound : Sound state) : Represented state := by
  intro id row found draft duplicate
  obtain ⟨other, holder, is, key, drafted⟩ := owned.held id row found duplicate
  rw [draft, or_self] at drafted
  refine ⟨other, holder, is, drafted, ((sound.row other holder is).key _ key).symm,
    owned.unskipped id row found draft duplicate other holder is key, ?_⟩
  intro suppressed
  rw [(sound.row other holder is).bare suppressed] at key
  cases key

theorem Owned.same (owned : Owned state) (deliveries : next.deliveries = state.deliveries) :
    Owned next where
  held := by
    dsimp only [Held]
    rw [deliveries]
    exact owned.held
  unskipped := by
    dsimp only [Unskipped]
    rw [deliveries]
    exact owned.unskipped

theorem Owned.each (owned : Owned state) {change : DeliveryId → Delivery → Delivery}
    (plain : ∀ id row, state.deliveries id = some row → Plain row (change id row))
    (duplicate : ∀ id row, state.deliveries id = some row → Duplicate (change id row) →
      Duplicate row)
    (unskipped : ∀ id row, state.deliveries id = some row → (change id row).status = .skipped →
      row.status = .skipped) : Owned (each state change) where
  held := by
    intro id after found isDuplicate
    obtain ⟨row, is, rfl⟩ := each_some.mp found
    obtain ⟨other, holder, known, key, drafted⟩ :=
      owned.held id row is (duplicate id row is isDuplicate)
    refine ⟨other, change other holder, each_some.mpr ⟨holder, known, rfl⟩, ?_, ?_⟩
    · rw [(plain other holder known).key, (plain id row is).identity, key]
    · rw [(plain other holder known).draft, (plain id row is).draft]
      exact drafted
  unskipped := by
    intro id after found draft isDuplicate other holder' written key skipped
    obtain ⟨row, is, rfl⟩ := each_some.mp found
    obtain ⟨holder, known, rfl⟩ := each_some.mp written
    rw [(plain id row is).draft] at draft
    rw [(plain other holder known).key, (plain id row is).identity] at key
    exact owned.unskipped id row is draft (duplicate id row is isDuplicate) other holder known key
      (unskipped other holder known skipped)

theorem Owned.insert (owned : Owned state) (sound : Sound state) (unskipped : row.status ≠ .skipped)
    (duplicate : Duplicate row → row.dedupeKey = none ∧ ∃ other holder,
      state.deliveries other = some holder ∧ holder.dedupeKey = some row.identity ∧
        (holder.draft = none ∨ holder.draft = row.draft))
    (represented : row.draft = none → Duplicate row → Unskipped state row.identity) :
    Owned (insert state row) where
  held := by
    intro id after found isDuplicate
    have earlier : ∃ other holder, state.deliveries other = some holder ∧
        holder.dedupeKey = some after.identity ∧
          (holder.draft = none ∨ holder.draft = after.draft) := by
      rcases insert_cases found with ⟨-, rfl⟩ | old
      · exact (duplicate isDuplicate).2
      · exact owned.held id after old isDuplicate
    obtain ⟨other, holder, is, facts⟩ := earlier
    exact ⟨other, holder, insert_kept sound is, facts⟩
  unskipped := by
    intro id after found draft isDuplicate other holder is key
    rcases insert_cases is with ⟨-, rfl⟩ | known
    · exact unskipped
    · rcases insert_cases found with ⟨-, rfl⟩ | old
      · exact represented draft isDuplicate other holder known key
      · exact owned.unskipped id after old draft isDuplicate other holder known key

theorem Owned.attach (owned : Owned state) (sound : Sound state) {outbox : OutboxKey}
    {key : SourceKey} (own : key.outbox = outbox) (pending : row.status = .pending) :
    Owned (attachDiagnosis state outbox key row) := by
  have unskipped : row.status ≠ .skipped := by rw [pending]; decide
  have unique : ¬Duplicate row := by rintro ⟨is, -⟩; rw [pending] at is; cases is
  have diagnosed : ∀ key, Owned (getDiagnosis state outbox key) := fun _ => owned.same rfl
  dsimp only [attachDiagnosis]
  split
  · exact owned.insert sound unskipped (fun no => absurd no unique) fun _ no => absurd no unique
  · rename_i maxTokens timeoutSeconds _
    exact (diagnosed ⟨key, _, maxTokens, timeoutSeconds⟩).insert (sound.getDiagnosis own) unskipped
      (fun no => absurd no unique) fun _ no => absurd no unique
  · rename_i maxTokens timeoutSeconds _
    exact (diagnosed ⟨key, _, maxTokens, timeoutSeconds⟩).insert (sound.getDiagnosis own)
      (fun no => by cases no) (fun no => by cases no.1) fun _ no => by cases no.1

def supplementIdentity (casefold : String → String) (state : State) (row : Delivery) :
    Option Identity :=
  (state.events row.event).map fun event =>
    deliveryIdentity casefold event.sourceKey row.destination .diagnosis

/-- No duplicate is stored while the delivery that holds its key is skipped, and no delivery
that duplicates stand behind is skipped unless one of them is linked to it. -/
def Linked (casefold : String → String) (state : State) : Action → Prop
  | .closeEvaluation outbox => ∀ id row, state.deliveries id = some row →
      row.draft = some outbox → Duplicate row → Unskipped state row.identity
  | .advanceDiagnoses => ∀ original ∈ originals (released state), ∀ row,
      (released state).deliveries original = some row → ∀ identity,
        supplementIdentity casefold state row = some identity → Unskipped state identity
  | .finalize worker => ∀ delivery read reason,
      state.workers worker = .decided delivery read (.skipped reason) →
        holds state worker delivery = true → ∀ id row, state.deliveries id = some row →
          row.draft = none → Duplicate row → read.dedupeKey = some row.identity →
            duplicatesOf state delivery ≠ []
  | _ => True

theorem Owned.evaluation (owned : Owned state) (sound : Sound state)
    (linked : Linked casefold state action)
    (taken : evaluationStep casefold state action = some next) : Owned next := by
  cases action with
  | openEvaluation outbox =>
    simp only [evaluationStep, Option.ite_none_right_eq_some, Option.some.injEq] at taken
    obtain ⟨-, rfl⟩ := taken
    exact owned.same rfl
  | matchRule outbox rule matched policy =>
    simp only [evaluationStep] at taken
    split at taken
    · cases taken
      apply owned.same
      dsimp only [matchRule]
      split <;> rfl
    · cases taken
  | subscribe outbox subscription destination cooling =>
    simp only [evaluationStep] at taken
    split at taken
    · rename_i event isOpen
      split at taken
      · rename_i row found
        simp only [Option.ite_none_right_eq_some, Option.some.injEq] at taken
        obtain ⟨-, rfl⟩ := taken
        obtain ⟨row', found', draft⟩ := sound.current outbox _ event isOpen rfl
        rw [found] at found'
        cases found'
        have own := sound.eventDraft event row found outbox draft
        dsimp only [subscribe]
        split
        · refine owned.insert sound (fun no => by cases no) ?_ fun no => by cases no
          exact fun no => absurd no (by simp [Duplicate, newDelivery])
        · split
          · exact owned.attach sound own rfl
          · rename_i original holder
            obtain ⟨other, is, seen, key⟩ := keyHolder_some sound holder
            exact owned.insert sound (fun no => by cases no)
              (fun _ => ⟨rfl, original, other, is, key, visible_some.mp seen⟩)
              fun no => by cases no
      · cases taken
    · cases taken
  | finishRule outbox =>
    simp only [evaluationStep] at taken
    split at taken
    · cases taken
      exact owned.same rfl
    · cases taken
  | closeEvaluation outbox =>
    simp only [evaluationStep] at taken
    split at taken
    · cases taken
      refine ⟨?_, ?_⟩
      · intro id after found duplicate
        obtain ⟨row, is, rfl⟩ := Option.map_eq_some_iff.mp found
        obtain ⟨other, holder, known, key, drafted⟩ := owned.held id row is duplicate
        exact ⟨other, _, Option.map_eq_some_iff.mpr ⟨holder, known, rfl⟩, key,
          publish_either drafted⟩
      · intro id after found draft duplicate other holder' published key
        obtain ⟨row, is, rfl⟩ := Option.map_eq_some_iff.mp found
        obtain ⟨holder, known, rfl⟩ := Option.map_eq_some_iff.mp published
        rcases publish_draft.1.mp draft with committed | drafted
        · exact owned.unskipped id row is committed duplicate other holder known key
        · exact linked id row is drafted duplicate other holder known key
    · cases taken
  | abandonEvaluation outbox =>
    simp only [evaluationStep] at taken
    split at taken
    · cases taken
      refine ⟨?_, ?_⟩
      · intro id row found duplicate
        obtain ⟨is, kept⟩ := filter_some.mp found
        obtain ⟨other, holder, known, key, drafted⟩ := owned.held id row is duplicate
        refine ⟨other, holder, filter_some.mpr ⟨known, ?_⟩, key, drafted⟩
        rcases drafted with committed | same
        · rw [committed]
          rfl
        · exact same ▸ kept
      · intro id row found draft duplicate other holder known key
        exact owned.unskipped id row (filter_some.mp found).1 draft duplicate other holder
          (filter_some.mp known).1 key
    · cases taken
  | _ => cases taken

theorem Owned.promote {replacement : DeliveryId} {read : Delivery} {others : List DeliveryId}
    (sound : Sound state) (promotes : Promotes state delivery read replacement others)
    (held : Held state)
    (unskipped : ∀ id row, state.deliveries id = some row → row.draft = none → Duplicate row →
      row.identity ≠ promotes.key → Unskipped state row.identity) (now : Time) :
    Owned (AlertDelivery.each state (promoteRow now read delivery replacement others)) := by
  have kept : ∀ id row, state.deliveries id = some row →
      Change row (promoteRow now read delivery replacement others id row) := by
    intro id row found
    dsimp only [promoteRow]
    split
    · exact { Change.refl row with }
    · split
      · exact { Change.refl row with waiting := fun is => by cases is }
      · split
        · exact { Change.refl row with }
        · exact .refl row
  have duplicates : ∀ id row, state.deliveries id = some row →
      Duplicate (promoteRow now read delivery replacement others id row) → Duplicate row := by
    intro id row found
    dsimp only [promoteRow]
    split
    · exact fun duplicate => duplicate
    · split
      · exact fun no => by cases no.1
      · split
        · exact fun duplicate => duplicate
        · exact fun duplicate => duplicate
  obtain ⟨taker, taken, drafted, suppressed, identity⟩ :=
    promotes.duplicate replacement (List.mem_cons_self ..)
  have distinct : replacement ≠ delivery := by
    rintro rfl
    rw [promotes.found] at taken
    cases taken
    rw [promotes.skipped] at suppressed
    cases suppressed
  refine ⟨?_, ?_⟩
  · intro id after found duplicate
    obtain ⟨row, is, rfl⟩ := each_some.mp found
    obtain ⟨other, holder, known, key, committed⟩ := held id row is (duplicates id row is duplicate)
    rw [(kept id row is).identity, (kept id row is).draft]
    by_cases moved : other = delivery
    · subst moved
      rw [promotes.found] at known
      cases known
      rw [promotes.row_key] at key
      refine ⟨replacement, _, each_some.mpr ⟨taker, taken, rfl⟩, ?_, ?_⟩
      · dsimp only [promoteRow]
        rw [if_neg distinct, if_pos rfl]
        exact promotes.read_key.trans key
      · rw [(kept replacement taker taken).draft]
        exact .inl drafted
    · refine ⟨other, _, each_some.mpr ⟨holder, known, rfl⟩, ?_, ?_⟩
      · have bare : other ≠ replacement := by
          rintro rfl
          rw [taken] at known
          cases known
          rw [(sound.row other taker taken).bare suppressed] at key
          cases key
        dsimp only [promoteRow]
        rw [if_neg moved, if_neg bare]
        split
        · exact key
        · exact key
      · rw [(kept other holder known).draft]
        exact committed
  · intro id after found draft duplicate other holder' written key skipped
    obtain ⟨row, is, rfl⟩ := each_some.mp found
    obtain ⟨holder, known, rfl⟩ := each_some.mp written
    rw [(kept id row is).draft] at draft
    rw [(kept id row is).identity] at key
    have was := duplicates id row is duplicate
    have others : holder.status = .skipped ∧ holder.dedupeKey = some row.identity ∧
        other ≠ delivery := by
      dsimp only [promoteRow] at skipped key
      split at skipped
      · rename_i same
        rw [if_pos same] at key
        cases key
      · rename_i different
        rw [if_neg different] at key
        split at skipped
        · cases skipped
        · rename_i another
          rw [if_neg another] at key
          split at skipped
          · rename_i member
            rw [if_pos member] at key
            exact ⟨skipped, key, different⟩
          · rename_i member
            rw [if_neg member] at key
            exact ⟨skipped, key, different⟩
    obtain ⟨skips, holds, different⟩ := others
    refine unskipped id row is draft was ?_ other holder known holds skips
    intro same
    rw [same] at holds
    exact different (sound.unique other delivery holder promotes.row promotes.key known
      promotes.found holds promotes.row_key)

theorem Finalizes.owned {worker : WorkerId} {read : Delivery}
    (finalizes : Finalizes state worker delivery read row) (outcome : Outcome) (sound : Sound state)
    (owned : Owned state)
    (linked : ∀ reason, outcome = .skipped reason → ∀ id row, state.deliveries id = some row →
      row.draft = none → Duplicate row → read.dedupeKey = some row.identity →
        duplicatesOf state delivery ≠ []) :
    Owned (AlertDelivery.promoted (written state worker delivery read outcome) delivery read
      outcome) := by
  have inv := sound.row delivery row finalizes.found
  have status := inv.held (by rw [finalizes.token]; rfl)
  have unsuppressed : row.status ≠ .suppressed := by rintro is; rw [is] at status; simp at status
  have unskipped : row.status ≠ .skipped := by rintro is; rw [is] at status; simp at status
  have keyed := inv.keyed unsuppressed unskipped
  have soundToo := finalizes.sound outcome sound
  have after := outcome.status_cases read.attempts
  have plain : ∀ id other, state.deliveries id = some other → Plain other
      (if id = delivery then finalizeRow worker state.now read.attempts outcome other else other) := by
    intro id other found
    split
    · rename_i same
      subst same
      rw [finalizes.found] at found
      cases found
      refine { Plain.refl row with waiting := ?_, link := ?_ } <;>
        · intro is
          dsimp only [finalizeRow] at is
          rw [is] at after
          simp at after
    · exact .refl other
  have duplicates : ∀ id other, state.deliveries id = some other → Duplicate
      (if id = delivery then finalizeRow worker state.now read.attempts outcome other else other) →
        id ≠ delivery ∧ Duplicate other := by
    intro id other found
    split
    · intro no
      have is := no.1
      dsimp only [finalizeRow] at is
      rw [is] at after
      simp at after
    · rename_i different
      exact fun duplicate => ⟨different, duplicate⟩
  -- but for the key of the delivery itself, the holders are as they were
  have others : ∀ id other, (written state worker delivery read outcome).deliveries id = some other →
      other.draft = none → Duplicate other → other.identity ≠ row.identity →
        Unskipped (written state worker delivery read outcome) other.identity := by
    intro id other' found draft duplicate different holder' holding written' key
    obtain ⟨other, is, rfl⟩ := each_some.mp found
    obtain ⟨holder, known, rfl⟩ := each_some.mp written'
    rw [(plain id other is).draft] at draft
    rw [(plain _ holder known).key, (plain id other is).identity] at key
    rw [(plain id other is).identity] at different
    split
    · rename_i same
      subst same
      rw [finalizes.found] at known
      cases known
      rw [keyed] at key
      exact absurd (Option.some.inj key).symm different
    · exact owned.unskipped id other is draft (duplicates id other is duplicate).2 _ holder known key
  have held : Held (written state worker delivery read outcome) := by
    intro id other' found duplicate
    obtain ⟨other, is, rfl⟩ := each_some.mp found
    obtain ⟨holder, holding, known, key, drafted⟩ :=
      owned.held id other is (duplicates id other is duplicate).2
    refine ⟨holder, _, each_some.mpr ⟨holding, known, rfl⟩, ?_, ?_⟩
    · rw [(plain _ holding known).key, (plain id other is).identity, key]
    · rw [(plain _ holding known).draft, (plain id other is).draft]
      exact drafted
  have settled : (∀ reason, outcome ≠ .skipped reason) →
      Owned (written state worker delivery read outcome) := by
    intro unskips
    apply owned.each plain fun id other found duplicate => (duplicates id other found duplicate).2
    intro id other found skipped
    split at skipped
    · dsimp only [finalizeRow] at skipped
      cases outcome with
      | success => cases skipped
      | rejected =>
        dsimp only [Outcome.status] at skipped
        split at skipped <;> cases skipped
      | skipped reason => exact absurd rfl (unskips reason)
    · exact skipped
  cases outcome with
  | success => exact settled fun _ no => by cases no
  | rejected => exact settled fun _ no => by cases no
  | skipped reason =>
    dsimp only [AlertDelivery.promoted]
    rcases promote_cases soundToo finalizes.written_row rfl finalizes.key rfl with
      ⟨same, nothing⟩ | ⟨replacement, list, -, ⟨promotes⟩, event, same⟩
    · rw [same]
      refine ⟨held, fun id other found draft duplicate => ?_⟩
      by_cases identity : other.identity = row.identity
      · obtain ⟨before, is, rfl⟩ := each_some.mp found
        obtain ⟨different, was⟩ := duplicates id before is duplicate
        rw [(plain id before is).draft] at draft
        rw [(plain id before is).identity] at identity
        have key : read.dedupeKey = some before.identity := by
          rw [← finalizes.key, keyed, identity]
        have links := linked reason rfl id before is draft was key
        exfalso
        rcases nothing with none | none
        · rw [none] at key
          cases key
        · obtain ⟨first, member⟩ := List.exists_mem_of_ne_nil _ links
          obtain ⟨dup, stored, committed, suppressed, link⟩ := duplicatesOf_spec sound member
          have apart : first ≠ delivery := by
            rintro rfl
            rw [finalizes.found] at stored
            cases stored
            exact unsuppressed suppressed
          have still : (written state worker delivery read (.skipped reason)).deliveries first =
              some dup := each_some.mpr ⟨dup, stored, if_neg apart⟩
          have found := mem_duplicatesOf soundToo still committed suppressed link
          rw [none] at found
          cases found
      · exact others id other found draft duplicate identity
    · rw [same]
      refine Owned.same (Owned.promote soundToo promotes held ?_ _) rfl
      intro id other found draft duplicate different
      apply others id other found draft duplicate
      have own := promotes.read_key.symm.trans (finalizes.key.symm.trans keyed)
      rwa [← Option.some.inj own]

theorem Owned.alter (owned : Owned state) {change : Delivery → Delivery}
    (plain : ∀ row, state.deliveries delivery = some row → Plain row (change row))
    (duplicate : ∀ row, state.deliveries delivery = some row → Duplicate (change row) →
      Duplicate row)
    (unskipped : ∀ row, state.deliveries delivery = some row → (change row).status = .skipped →
      row.status = .skipped) : Owned (alter state delivery change) := by
  apply owned.each
  · intro id row found
    split
    · rename_i same
      exact plain row (same ▸ found)
    · exact .refl row
  · intro id row found
    split
    · rename_i same
      exact duplicate row (same ▸ found)
    · exact fun is => is
  · intro id row found
    split
    · rename_i same
      exact unskipped row (same ▸ found)
    · exact fun is => is

theorem Owned.worker (owned : Owned state) (inv : Inv state) (linked : Linked casefold state action)
    (taken : workerStep state action = some next) : Owned next := by
  cases action with
  | startWorker worker delivery =>
    simp only [workerStep] at taken
    split at taken
    · cases taken
      exact owned.same rfl
    · cases taken
  | claim worker =>
    simp only [workerStep] at taken
    split at taken
    · split at taken
      · cases taken
        refine (owned.alter (fun row _ => claimRow_plain worker _ row) ?_ ?_).same rfl
        · exact fun _ _ no => by cases no.1
        · exact fun _ _ no => by cases no
      · cases taken
        exact owned.same rfl
    · cases taken
  | load worker =>
    simp only [workerStep] at taken
    split at taken
    · obtain ⟨row, -, rfl⟩ := Option.map_eq_some_iff.mp taken
      exact owned.same rfl
    · cases taken
  | deliver worker language outcome =>
    simp only [workerStep] at taken
    split at taken
    · rename_i delivery read phase
      cases taken
      have reads := inv.informed worker
      rw [phase] at reads
      obtain ⟨row, found, -, tried, -⟩ := reads
      have unsuppressed : row.status ≠ .suppressed := fun suppressed =>
        tried ((inv.sound.row delivery row found).untried (.inr suppressed))
      cases language with
      | none => exact (owned.alter (fun row _ => .refl row) (fun _ _ is => is)
          fun _ _ is => is).same rfl
      | some language =>
        refine (owned.alter ?_ ?_ ?_).same rfl
        · intro other is
          rw [found] at is
          cases is
          exact { Plain.refl row with link := fun is => absurd is unsuppressed }
        · intro other is duplicate
          rw [found] at is
          cases is
          exact absurd duplicate.1 unsuppressed
        · exact fun _ _ is => is
    · cases taken
  | finalize worker =>
    simp only [workerStep] at taken
    split at taken
    · rename_i delivery read outcome phase
      cases taken
      by_cases held : holds state worker delivery = true
      · obtain ⟨row, finalizes⟩ := finalizes_of inv.informed phase held
        have settled := finalizes.owned outcome inv.sound owned
          fun reason is => linked delivery read reason (is ▸ phase) held
        rw [finalize_eq held]
        exact settled.same rfl
      · have same : finalize state worker delivery read outcome = state := if_neg held
        rw [same]
        exact owned.same rfl
    · cases taken
  | workerDies worker =>
    cases taken
    exact owned.same rfl
  | _ => cases taken

/-- The supplement of the delivery finds no skipped holder of its key. -/
def Spared (casefold : String → String) (state : State) (original : DeliveryId) : Prop :=
  ∀ row, state.deliveries original = some row → ∀ identity,
    supplementIdentity casefold state row = some identity → Unskipped state identity

theorem Owned.supplement (owned : Owned state) (sound : Sound state) {original : DeliveryId}
    (spared : Spared casefold state original) : Owned (supplement casefold state original).1 := by
  rcases supplement_cases casefold state original with
    ⟨same, -⟩ | ⟨row, event, found, known, ⟨missing, same⟩ | ⟨holder, held, same⟩⟩
  · rw [same]
    exact owned
  · rw [same]
    exact owned.insert sound (fun no => by cases no) (fun no => by cases no.1)
      fun _ no => by cases no.1
  · rw [same]
    obtain ⟨other, is, seen, key⟩ := keyHolder_some sound held
    refine owned.insert sound (fun no => by cases no)
      (fun _ => ⟨rfl, holder, other, is, key, .inl (visible_none.mp seen)⟩) fun _ _ => ?_
    exact spared row found _ (by rw [supplementIdentity, known]; rfl)

theorem supplement_unskipped (original : DeliveryId) {identity : Identity}
    (unskipped : Unskipped state identity) :
    Unskipped (supplement casefold state original).1 identity := by
  intro id holder found key
  rcases supplement_cases casefold state original with
    ⟨same, -⟩ | ⟨row, event, -, -, ⟨-, same⟩ | ⟨other, -, same⟩⟩
  · rw [same] at found
    exact unskipped id holder found key
  all_goals
    rw [same] at found
    rcases insert_cases found with ⟨-, rfl⟩ | old
    · exact fun no => by cases no
    · exact unskipped id holder old key

theorem Owned.supplements {state : State} (owned : Owned state) (sound : Sound state)
    {list : List DeliveryId} (notified : ∀ original ∈ list, Notified state original)
    (spared : ∀ original ∈ list, Spared casefold state original) :
    Owned (supplements casefold state list).1 := by
  induction list generalizing state with
  | nil => exact owned
  | cons original rest ih =>
    have grows := supplement_grows casefold sound original
    refine ih (owned.supplement sound (spared original (List.mem_cons_self ..)))
      (sound.supplement casefold (notified original (List.mem_cons_self ..))) ?_ ?_
    · exact fun other member => (notified other (List.mem_cons_of_mem _ member)).grows grows
    · intro other member row found identity named
      obtain ⟨row', known, -⟩ := notified other (List.mem_cons_of_mem _ member)
      have same := grows other row' known
      rw [found] at same
      cases same
      apply supplement_unskipped
      apply spared other (List.mem_cons_of_mem _ member) row known
      rw [supplementIdentity, (supplement_frame casefold state original).2.1] at named
      exact named

theorem Owned.released (owned : Owned state) : Owned (released state) := by
  have expired : Owned (expireDiagnoses state) := owned.same rfl
  refine expired.each ?_ ?_ ?_
  · intro id row found
    split
    · exact { Plain.refl row with
        waiting := fun is => (by cases is)
        link := fun is => (by cases is) }
    · exact .refl row
  · intro id row found
    split
    · exact fun no => by cases no.1
    · exact fun is => is
  · intro id row found
    split
    · exact fun no => by cases no
    · exact fun is => is

theorem released_unskipped {identity : Identity} (unskipped : Unskipped state identity) :
    Unskipped (released state) identity := by
  intro id after found key
  obtain ⟨row, is, rfl⟩ := each_some.mp found
  have same : row.dedupeKey = some identity := by
    split at key
    · exact key
    · exact key
  split
  · exact fun no => by cases no
  · exact unskipped id row is same

theorem Owned.diagnosis (owned : Owned state) (sound : Sound state)
    (linked : Linked casefold state action)
    (taken : diagnosisStep casefold state action = some next) : Owned next := by
  cases action with
  | claimDiagnosis key =>
    simp only [diagnosisStep] at taken
    split at taken
    · simp only [Option.ite_none_right_eq_some, Option.some.injEq] at taken
      obtain ⟨-, rfl⟩ := taken
      exact owned.same rfl
    · cases taken
  | endDiagnosis key completed =>
    simp only [diagnosisStep] at taken
    split at taken
    · simp only [Option.ite_none_right_eq_some, Option.some.injEq] at taken
      obtain ⟨-, rfl⟩ := taken
      exact owned.same rfl
    · cases taken
  | advanceDiagnoses =>
    cases taken
    have added : Owned (AlertDelivery.supplements casefold (AlertDelivery.released state)
        (originals (AlertDelivery.released state))).1 := by
      apply owned.released.supplements sound.released
      · exact fun _ member => notified_of_mem sound.released member
      · exact fun original member row found identity named =>
          released_unskipped (linked original member row found identity named)
    exact added.same (refreshAll_frame _ _).1
  | _ => cases taken

theorem Owned.dispatcher (owned : Owned state) (taken : dispatcherStep state action = some next) :
    Owned next := by
  cases action with
  | startDispatcher dispatcher =>
    simp only [dispatcherStep] at taken
    split at taken
    · cases taken
      exact owned.same rfl
    · cases taken
  | listExhausted dispatcher =>
    simp only [dispatcherStep] at taken
    split at taken
    · cases taken
      exact owned.same rfl
    · cases taken
  | failExhausted dispatcher =>
    simp only [dispatcherStep] at taken
    split at taken
    · rename_i now events phase
      cases taken
      refine (owned.each (fun _ row _ => failRow_plain now row) ?_ ?_).same rfl
      · intro id row _
        dsimp only [failRow]
        split
        · exact fun no => by cases no.1
        · exact fun is => is
      · intro id row _
        dsimp only [failRow]
        split
        · exact fun no => by cases no
        · exact fun is => is
    · cases taken
  | refreshExhausted dispatcher =>
    simp only [dispatcherStep] at taken
    split at taken
    · cases taken
      exact owned.same rfl
    · cases taken
  | dispatcherDies dispatcher =>
    cases taken
    exact owned.same rfl
  | _ => cases taken

theorem Owned.step (owned : Owned state) (inv : Inv state) (linked : Linked casefold state action)
    (taken : step casefold state action = some next) : Owned next := by
  cases action with
  | tick seconds =>
    cases taken
    exact owned.same rfl
  | enqueue outbox =>
    simp only [AlertDelivery.step, Option.ite_none_right_eq_some, Option.some.injEq] at taken
    obtain ⟨-, rfl⟩ := taken
    exact owned.same rfl
  | openEvaluation _ | matchRule _ _ _ _ | subscribe _ _ _ _ | finishRule _ | closeEvaluation _
  | abandonEvaluation _ =>
    simp only [AlertDelivery.step] at taken
    exact owned.evaluation inv.sound linked taken
  | startWorker _ _ | claim _ | load _ | deliver _ _ _ | finalize _ | workerDies _ =>
    simp only [AlertDelivery.step] at taken
    exact owned.worker inv linked taken
  | claimDiagnosis _ | endDiagnosis _ _ | advanceDiagnoses =>
    simp only [AlertDelivery.step] at taken
    exact owned.diagnosis inv.sound linked taken
  | startDispatcher _ | listExhausted _ | failExhausted _ | refreshExhausted _
  | dispatcherDies _ =>
    simp only [AlertDelivery.step] at taken
    exact owned.dispatcher taken

/-- Of the deliveries of one identity at most one is sent; and as long as every duplicate is
linked to a delivery that keeps its key, a duplicate never stands alone. -/
theorem duplicates_represented {casefold : String → String} {actions : List Action}
    {state : State} (run : Steps (step casefold) Any start actions state) :
    SentOnce state ∧
      (Steps (step casefold) (Linked casefold) start actions state → Represented state) := by
  refine ⟨(inv_of_steps run).sound.sentOnce, fun linked => ?_⟩
  have both := linked.invariant (fun state => Inv state ∧ Owned state)
    (fun _ _ _ inv linked taken => ⟨inv.1.step taken, inv.2.step inv.1 linked taken⟩)
    ⟨.initial, ⟨fun _ _ found => (by cases found), fun _ _ found => (by cases found)⟩⟩
  exact both.2.represented both.1.sound

def skippedBy (worker : WorkerId) (delivery : DeliveryId) : List Action :=
  [.startWorker worker delivery, .claim worker, .load worker,
    .deliver worker none (.skipped "Subscription disabled or removed"), .finalize worker]

/-- The occurrence is evaluated again with a changed payload, and a second rule matches. -/
def evaluatedAgain : List Action :=
  [.enqueue occurrence, .openEvaluation occurrence, .matchRule occurrence 1 "run_failed" .direct,
    .matchRule occurrence 2 "run_token_limit" .direct, .subscribe occurrence 2 chat false,
    .finishRule occurrence, .closeEvaluation occurrence]

def outcomes (state : State) : Option ((Status × String × Option OutboxKey) × Status × DeliveryId) :=
  (state.deliveries 1).bind fun second => (state.deliveries 0).map fun first =>
    ((second.status, second.errorMessage, second.draft), first.status, state.nextDelivery)

theorem duplicate_of_skipped : ∃ state,
    Steps (step id) Any start (evaluated ++ skippedBy 0 0 ++ evaluatedAgain) state ∧
      ¬Represented state := by
  have executed : (exec (step id) start (evaluated ++ skippedBy 0 0 ++ evaluatedAgain)).bind
      outcomes = some ((.suppressed, "Duplicate destination for this occurrence", none),
        .skipped, 2) := by
    decide +kernel
  obtain ⟨state, ran, same⟩ := Option.bind_eq_some_iff.mp executed
  obtain ⟨second, found, rest⟩ := Option.bind_eq_some_iff.mp same
  obtain ⟨first, foundToo, facts⟩ := Option.map_eq_some_iff.mp rest
  simp only [Prod.mk.injEq] at facts
  obtain ⟨⟨suppressed, message, draft⟩, skipped, two⟩ := facts
  have run := exec_steps ran
  refine ⟨state, run, fun represented => ?_⟩
  obtain ⟨other, kept, is, -, -, notSkipped, notSuppressed⟩ :=
    represented 1 second found draft ⟨suppressed, .inl message⟩
  have small := (inv_of_steps run).sound.fresh other kept is
  rw [two] at small
  match other, small with
  | 0, _ =>
    rw [foundToo] at is
    cases is
    exact notSkipped skipped
  | 1, _ =>
    rw [found] at is
    cases is
    exact notSuppressed suppressed

def Checked (state : State) : Action → Prop
  | .closeEvaluation _ => ∀ id < state.nextDelivery, ∀ row ∈ state.deliveries id, Duplicate row →
      ∀ other < state.nextDelivery, ∀ holder ∈ state.deliveries other,
        holder.dedupeKey = some row.identity → holder.status ≠ .skipped
  | .finalize worker => match state.workers worker with
      | .decided delivery _ _ => duplicatesOf state delivery ≠ []
      | _ => True
  | .advanceDiagnoses => False
  | _ => True

instance (state : State) (action : Action) : Decidable (Checked state action) :=
  match action with
  | .closeEvaluation _ => inferInstanceAs (Decidable (∀ id < state.nextDelivery,
      ∀ row ∈ state.deliveries id, Duplicate row → ∀ other < state.nextDelivery,
        ∀ holder ∈ state.deliveries other, holder.dedupeKey = some row.identity →
          holder.status ≠ .skipped))
  | .finalize worker =>
    match phase : state.workers worker with
    | .decided delivery _ _ =>
      if found : duplicatesOf state delivery ≠ [] then
        .isTrue (by simpa only [Checked, phase] using found)
      else .isFalse (by simpa only [Checked, phase] using found)
    | .idle | .started _ _ | .claimed _ | .loaded _ _ | .ended =>
      .isTrue (by simp only [Checked, phase])
  | .advanceDiagnoses => .isFalse id
  | .tick _ | .enqueue _ | .openEvaluation _ | .matchRule _ _ _ _ | .subscribe _ _ _ _
  | .finishRule _ | .abandonEvaluation _ | .startWorker _ _ | .claim _ | .load _ | .deliver _ _ _
  | .workerDies _ | .claimDiagnosis _ | .endDiagnosis _ _ | .startDispatcher _ | .listExhausted _
  | .failExhausted _ | .refreshExhausted _ | .dispatcherDies _ => .isTrue trivial

theorem Sound.linked_of_checked (sound : Sound state) (checked : Checked state action) :
    Linked casefold state action := by
  cases action with
  | closeEvaluation outbox =>
    intro id row found _ duplicate other holder known key
    exact checked id (sound.fresh id row found) row found duplicate other
      (sound.fresh other holder known) holder known key
  | finalize worker =>
    intro delivery read reason phase _ id row _ _ _ _
    simpa only [Checked, phase] using checked
  | advanceDiagnoses => exact False.elim checked
  | _ => trivial

/-- Two rules match at once, and the second delivery is promoted when the first is skipped. -/
def promotedInTurn : List Action :=
  [.enqueue occurrence, .openEvaluation occurrence, .matchRule occurrence 1 "run_failed" .direct,
    .subscribe occurrence 1 chat false, .finishRule occurrence,
    .matchRule occurrence 2 "run_token_limit" .direct, .subscribe occurrence 2 chat false,
    .finishRule occurrence, .closeEvaluation occurrence] ++ skippedBy 0 0

theorem duplicates_represented_promoted : ∃ state second,
    Steps (step id) (Linked id) start promotedInTurn state ∧ state.deliveries 1 = some second ∧
      second.status = .pending ∧ SentOnce state ∧ Represented state := by
  have executed : (execGuarded (step id) Checked start promotedInTurn).bind outcomes =
      some ((.pending, "", none), .skipped, 2) := by
    decide +kernel
  obtain ⟨state, ran, same⟩ := Option.bind_eq_some_iff.mp executed
  obtain ⟨second, found, rest⟩ := Option.bind_eq_some_iff.mp same
  obtain ⟨first, -, facts⟩ := Option.map_eq_some_iff.mp rest
  simp only [Prod.mk.injEq] at facts
  have linked : Steps (step id) (Linked id) start promotedInTurn state :=
    (execGuarded_steps ran).implied Inv (fun _ _ _ inv _ taken => inv.step taken)
      (fun _ _ inv checked => inv.sound.linked_of_checked checked) .initial
  obtain ⟨once, represented⟩ := duplicates_represented (linked.weaken fun _ _ _ => trivial)
  exact ⟨state, second, linked, found, facts.1.1, once, represented linked⟩

end SourceLens.AlertDelivery
