import SourceLens.RunOutcome

/-! When a run is reported as completed, what bars it, and that nothing bad that is added
makes it so. -/

namespace SourceLens.RunOutcome

open List

variable {input : Input} {middleware : Middleware}

variable {detail : Detail} {other : Input}

theorem limited_completed : (limited input).1 = .completed ↔ input.truncated = false := by
  dsimp only [limited]
  split
  · rename_i cut
    simp [cut]
  · rename_i whole
    simpa using whole

/-- What each requirement asks of a run: that nothing failed, that the required capabilities
did not fail and were used, that an artifact was delivered; and that it was whole or wrapped up. -/
def Executes (requirement : Requirement) (clean resolved useful proved whole wrapped : Prop) : Prop :=
  match requirement with
  | .adaptive => clean ∧ whole
  | .toolResult => resolved ∧ useful ∧ (whole ∨ wrapped)
  | .artifact => proved ∧ (whole ∨ wrapped)
  | .none => whole ∨ wrapped

theorem Executes.mono {requirement : Requirement}
    {clean resolved useful proved whole wrapped : Prop}
    {clean' resolved' useful' proved' whole' wrapped' : Prop} (cleans : clean → clean')
    (resolves : resolved → resolved') (uses : useful → useful') (proves : proved → proved')
    (ends : whole ∨ wrapped → whole' ∨ wrapped') (adapts : whole → whole')
    (executes : Executes requirement clean resolved useful proved whole wrapped) :
    Executes requirement clean' resolved' useful' proved' whole' wrapped' := by
  cases requirement with
  | adaptive => exact ⟨cleans executes.1, adapts executes.2⟩
  | toolResult => exact ⟨resolves executes.1, uses executes.2.1, ends executes.2.2⟩
  | artifact => exact ⟨proves executes.1, ends executes.2⟩
  | none => exact ends executes

def Executed (input : Input) (middleware : Middleware) : Prop :=
  Executes input.requirement (∀ record ∈ middleware.failureRecords, record.scope ≠ .unresolved)
    (unresolvedRecords input middleware = []) (relevantSuccesses input middleware ≠ [])
    ("artifact_delivery" ∈ successful input middleware) (input.truncated = false)
    (wrappedUp input middleware = true)

theorem adaptive_completed : (adaptiveOutcome input middleware).1 = .completed ↔
    (∀ record ∈ middleware.failureRecords, record.scope ≠ .unresolved) ∧
      input.truncated = false := by
  have nothing : (middleware.failureRecords.filter fun record => record.scope == .unresolved) = [] ↔
      ∀ record ∈ middleware.failureRecords, record.scope ≠ .unresolved := by
    simp only [filter_eq_nil_iff, beq_iff_eq, ne_eq]
  dsimp only [adaptiveOutcome]
  split
  · rename_i failure rest found
    rw [found] at nothing
    simp only [reduceCtorEq, false_iff] at nothing ⊢
    exact fun both => nothing both.1
  · rename_i none
    rw [limited_completed]
    exact ⟨fun whole => ⟨nothing.mp none, whole⟩, And.right⟩

theorem wrapped_completed : (if wrappedUp input middleware = true then
    ((.completed, {}) : Outcome × Detail) else limited input).1 = .completed ↔
      input.truncated = false ∨ wrappedUp input middleware = true := by
  split
  · rename_i wrapped
    simp [wrapped]
  · rename_i unwrapped
    rw [limited_completed]
    exact ⟨.inl, fun either => either.resolve_right unwrapped⟩

theorem capability_completed :
    (capabilityOutcome input middleware).1 = .completed ↔ Executed input middleware := by
  dsimp only [capabilityOutcome, Executed, Executes]
  cases requirement : input.requirement with
  | adaptive => exact adaptive_completed
  | none =>
    simp only [reduceCtorEq, false_and, if_false]
    exact wrapped_completed
  | toolResult =>
    simp only [reduceCtorEq, true_and, false_and, if_false]
    split
    · rename_i unresolved
      simp [unresolved]
    · rename_i resolved
      split
      · rename_i useless
        simp [useless]
      · rename_i useful
        rw [wrapped_completed]
        exact ⟨fun either => ⟨not_not.mp resolved, useful, either⟩, fun all => all.2.2⟩
  | artifact =>
    simp only [reduceCtorEq, true_and, false_and, if_false]
    split
    · rename_i missing
      simp [missing]
    · rename_i found
      rw [wrapped_completed]
      exact ⟨fun either => ⟨not_not.mp found, either⟩, And.right⟩

/-- The tool calls count only where the gate is on and something has observed them. -/
def Gated (input : Input) : Prop :=
  if input.executionGateEnabled then
    match input.middleware with
    | none => input.truncated = false
    | some middleware => Executed input middleware
  else input.truncated = false

structure Completes (input : Input) : Prop where
  issues : input.evidence.completionIssues = []
  artifact : input.evidence.artifactRequired = true → delivered input.evidence = true
  converged : input.evidence.convergenceExhausted = false
  covered : missingSources input = []
  gated : Gated input
  known : ¬(input.requirement = .artifact ∧ input.evidence.deliverables = some [])
  reviewed : review input ≠ .unsupported

theorem execution_completed : (executionOutcome input).1 = .completed ↔
    input.evidence.completionIssues = [] ∧
      (input.evidence.artifactRequired = true → delivered input.evidence = true) ∧
      input.evidence.convergenceExhausted = false ∧ missingSources input = [] ∧ Gated input := by
  dsimp only [executionOutcome]
  split
  · rename_i issues
    simp [issues]
  · rename_i issues
    split
    · rename_i artifact
      simp [artifact]
    · rename_i artifact
      split
      · rename_i exhausted
        simp [exhausted]
      · rename_i converged
        split
        · rename_i missing
          simp [missing]
        · rename_i covered
          have others : input.evidence.completionIssues = [] ∧
              (input.evidence.artifactRequired = true → delivered input.evidence = true) ∧
              input.evidence.convergenceExhausted = false ∧ missingSources input = [] := by
            refine ⟨not_not.mp issues, fun needed => ?_, by simpa using converged,
              not_not.mp covered⟩
            by_contra missing
            exact artifact ⟨needed, by simpa using missing⟩
          have gated : (if input.executionGateEnabled = false then limited input
              else match input.middleware with
                | none => limited input
                | some middleware => capabilityOutcome input middleware).1 = .completed ↔
                  Gated input := by
            dsimp only [Gated]
            cases input.executionGateEnabled with
            | false => exact limited_completed
            | true =>
              simp only [Bool.true_eq_false, if_false, if_true]
              cases input.middleware with
              | none => exact limited_completed
              | some middleware => exact capability_completed
          exact ⟨fun done => ⟨others.1, others.2.1, others.2.2.1, others.2.2.2, gated.mp done⟩,
            fun all => gated.mpr all.2.2.2.2⟩

theorem delivered_completed : (deliveredOutcome input).1 = .completed ↔
    (executionOutcome input).1 = .completed ∧
      ¬(input.requirement = .artifact ∧ input.evidence.deliverables = some []) := by
  dsimp only [deliveredOutcome]
  split
  · rename_i lost
    simp only [reduceCtorEq, false_iff]
    exact fun both => both.2 lost.2
  · rename_i kept
    exact ⟨fun done => ⟨done, fun both => kept ⟨done, both⟩⟩, And.left⟩

theorem assessed_completed (outcome : Outcome) (detail : Detail) :
    (assessed input outcome detail).1 = .completed ↔
      outcome = .completed ∧ review input ≠ .unsupported := by
  dsimp only [assessed]
  by_cases unsupported : review input = .unsupported
  · rw [if_pos unsupported]
    by_cases completed : outcome = .completed
    · rw [if_pos completed]
      simp [unsupported]
    · rw [if_neg completed]
      simp [completed]
  · rw [if_neg unsupported]
    exact ⟨fun done => ⟨done, unsupported⟩, And.left⟩

theorem review_unassessed (nothing : unassessed input = true) : review input ≠ .unsupported := by
  simp only [unassessed, Bool.and_eq_true, beq_iff_eq, Option.isNone_iff_eq_none] at nothing
  obtain ⟨⟨⟨⟨enabled, gates⟩, -⟩, -⟩, completeness⟩ := nothing
  simp only [review, enabled, if_true, reviewed, completeness, gates, reduceCtorEq, if_false]
  decide

theorem completed_iff : (finalizeRuntimeOutcome input).1 = .completed ↔ Completes input := by
  have layers : (finalizeRuntimeOutcome input).1 = .completed ↔
      (deliveredOutcome input).1 = .completed ∧ review input ≠ .unsupported := by
    dsimp only [finalizeRuntimeOutcome]
    split
    · rename_i nothing
      exact ⟨fun done => ⟨done, review_unassessed nothing⟩, And.left⟩
    · exact assessed_completed _ _
  rw [layers, delivered_completed, execution_completed]
  constructor
  · rintro ⟨⟨⟨issues, artifact, converged, covered, gated⟩, known⟩, reviewed⟩
    exact ⟨issues, artifact, converged, covered, gated, known, reviewed⟩
  · intro all
    exact ⟨⟨⟨all.issues, all.artifact, all.converged, all.covered, all.gated⟩, all.known⟩,
      all.reviewed⟩

def Explained (result : Outcome × Detail) : Prop := result.1 = .completed ↔ result.2.reason = none

theorem explained_partly (reason : detail.reason ≠ none) : Explained (.partly, detail) :=
  ⟨nofun, fun no => absurd no reason⟩

theorem explained_limited : Explained (limited input) := by
  dsimp only [limited]
  split
  · exact explained_partly nofun
  · exact ⟨fun _ => rfl, fun _ => rfl⟩

theorem triggered_reason (detail : Detail) : (triggered input detail).reason = detail.reason := by
  dsimp only [triggered]
  split <;> rfl

theorem middlewareDetail_reason {fallback : Detail} (reason : fallback.reason ≠ none)
    (is : (middlewareDetail input middleware).getD fallback = detail) : detail.reason ≠ none := by
  subst is
  dsimp only [middlewareDetail]
  split
  · nofun
  · cases middleware.terminationDetail.filter fun exhaustion =>
        decide (exhaustion.capability ∈ required input) with
    | none => exact reason
    | some exhaustion => nofun

theorem explained_failure {fallback : Detail} (reason : fallback.reason ≠ none) :
    Explained (.partly, triggered input ((middlewareDetail input middleware).getD fallback)) := by
  apply explained_partly
  rw [triggered_reason]
  exact middlewareDetail_reason reason rfl

theorem explained_capability : Explained (capabilityOutcome input middleware) := by
  dsimp only [capabilityOutcome]
  split
  · dsimp only [adaptiveOutcome]
    split
    · exact explained_failure nofun
    · exact explained_limited
  · split
    · exact explained_failure nofun
    · split
      · exact explained_failure nofun
      · split
        · exact explained_failure nofun
        · split
          · exact ⟨fun _ => rfl, fun _ => rfl⟩
          · exact explained_limited

theorem explained_delivered : Explained (deliveredOutcome input) := by
  have execution : Explained (executionOutcome input) := by
    dsimp only [executionOutcome]
    split
    · exact explained_partly nofun
    · split
      · exact explained_partly nofun
      · split
        · exact explained_partly nofun
        · split
          · exact explained_partly nofun
          · split
            · exact explained_limited
            · split
              · exact explained_limited
              · exact explained_capability
  dsimp only [deliveredOutcome]
  split
  · exact explained_partly nofun
  · exact execution

theorem explained_assessed {outcome : Outcome} (explained : Explained (outcome, detail)) :
    Explained (assessed input outcome detail) := by
  have kept : ∀ changed : Detail, changed.reason = detail.reason → Explained (outcome, changed) := by
    intro changed same
    dsimp only [Explained]
    rw [same]
    exact explained
  dsimp only [assessed]
  split
  · split
    · exact explained_partly nofun
    · apply kept
      dsimp only
      split <;> rfl
  · apply kept
    dsimp only
    split <;> rfl

theorem explained (input : Input) : Explained (finalizeRuntimeOutcome input) := by
  dsimp only [finalizeRuntimeOutcome]
  split
  · exact explained_delivered
  · exact explained_assessed explained_delivered

def Latest (entries : List Evidence) (item : Evidence) : Prop :=
  ∃ front back, entries = front ++ item :: back ∧
    ∀ later ∈ back, ¬(later.source = item.source ∧ later.requestSha256 = item.requestSha256)

theorem mem_latestRequests {entries : List Evidence} {item : Evidence} :
    item ∈ latestRequests entries ↔ Latest entries item := by
  induction entries with
  | nil =>
    simp only [latestRequests, not_mem_nil, false_iff]
    rintro ⟨front, back, same, -⟩
    exact absurd same (by simp)
  | cons head rest ih =>
    have tail : Latest rest item → Latest (head :: rest) item := by
      rintro ⟨front, back, rfl, alone⟩
      exact ⟨head :: front, back, rfl, alone⟩
    have cases : Latest (head :: rest) item → (item = head ∧ ∀ later ∈ rest,
        ¬(later.source = head.source ∧ later.requestSha256 = head.requestSha256)) ∨
          Latest rest item := by
      rintro ⟨front, back, same, alone⟩
      cases front with
      | nil =>
        cases same
        exact .inl ⟨rfl, alone⟩
      | cons first front =>
        cases same
        exact .inr ⟨front, back, rfl, alone⟩
    rw [latestRequests]
    split
    · rename_i repeated
      rw [ih]
      refine ⟨tail, fun latest => ?_⟩
      rcases cases latest with ⟨rfl, alone⟩ | latest
      · obtain ⟨later, member, same⟩ := any_eq_true.mp repeated
        simp only [Bool.and_eq_true, beq_iff_eq] at same
        exact absurd same (alone later member)
      · exact latest
    · rename_i alone
      rw [mem_cons, ih]
      constructor
      · rintro (rfl | latest)
        · refine ⟨[], rest, rfl, fun later member same => alone ?_⟩
          apply any_eq_true.mpr
          exact ⟨later, member, by simp only [same, beq_self_eq_true, Bool.and_self]⟩
        · exact tail latest
      · exact fun latest => (cases latest).imp_left And.left

def Covered (input : Input) (source : String) (complete : Bool) : Prop :=
  ∃ item, Latest (observed input) item ∧ item.source = some source ∧
    item.coverageComplete = some complete

theorem mem_sourcesWith {source : String} {complete : Bool} :
    some source ∈ sourcesWith input complete ↔ Covered input source complete := by
  simp only [sourcesWith, mem_map, mem_filter, mem_latestRequests, beq_iff_eq, Covered]
  constructor
  · rintro ⟨item, ⟨latest, coverage⟩, same⟩
    exact ⟨item, latest, same, coverage⟩
  · rintro ⟨item, latest, same, coverage⟩
    exact ⟨item, ⟨latest, coverage⟩, same⟩

theorem missingSources_nil : missingSources input = [] ↔
    ∀ source ∈ input.evidence.requiredSources,
      Covered input source true ∧ ¬Covered input source false := by
  have member : ∀ source, source ∈ missingSources input ↔
      source ∈ input.evidence.requiredSources ∧
        (¬Covered input source true ∨ Covered input source false) := by
    intro source
    simp only [missingSources, mem_mergeSort, mem_dedup, mem_filter,
      Bool.or_eq_true, Bool.not_eq_true', decide_eq_false_iff_not, decide_eq_true_eq,
      mem_sourcesWith]
  rw [eq_nil_iff_forall_not_mem]
  constructor
  · intro none source needed
    have absent := none source
    rw [member, not_and, not_or, not_not] at absent
    exact absent needed
  · intro all source found
    obtain ⟨needed, bad⟩ := (member source).mp found
    obtain ⟨complete, whole⟩ := all source needed
    exact bad.elim (fun no => no complete) whole

inductive Barred (input : Input) : Prop
  | issue (present : input.evidence.completionIssues ≠ [])
  | artifact (needed : input.evidence.artifactRequired = true)
      (missing : delivered input.evidence = false)
  /-- The deliverables are known, and there are none. -/
  | undelivered (needed : input.requirement = .artifact)
      (missing : input.evidence.deliverables = some [])
  | unproved (gate : input.executionGateEnabled = true) (middleware : Middleware)
      (observed : input.middleware = some middleware) (needed : input.requirement = .artifact)
      (missing : "artifact_delivery" ∉ successful input middleware)
  | unconverged (exhausted : input.evidence.convergenceExhausted = true)
  | uncovered (source : String) (needed : source ∈ input.evidence.requiredSources)
      (gap : ¬Covered input source true ∨ Covered input source false)
  | unsupported (status : review input = .unsupported)
  | unsuccessful (gate : input.executionGateEnabled = true) (middleware : Middleware)
      (observed : input.middleware = some middleware) (needed : input.requirement = .toolResult)
      (none : ∀ capability ∈ required input, capability ∉ successful input middleware)
  | unresolved (gate : input.executionGateEnabled = true) (middleware : Middleware)
      (observed : input.middleware = some middleware) (needed : input.requirement = .toolResult)
      (record : FailureRecord) (known : record ∈ middleware.failureRecords)
      (status : record.scope = .unresolved) (about : record.capability ∈ required input)

theorem Completes.executed (completes : Completes input)
    (gate : input.executionGateEnabled = true) (observed : input.middleware = some middleware) :
    Executed input middleware := by
  have gated := completes.gated
  simpa only [Gated, gate, if_true, observed] using gated

theorem Barred.not_completes (barred : Barred input) : ¬Completes input := by
  intro completes
  cases barred with
  | issue present => exact present completes.issues
  | artifact needed missing =>
    rw [completes.artifact needed] at missing
    cases missing
  | undelivered needed missing => exact completes.known ⟨needed, missing⟩
  | unproved gate middleware observed needed missing =>
    have executed := completes.executed gate observed
    simp only [Executed, Executes, needed] at executed
    exact missing executed.1
  | unconverged exhausted =>
    rw [completes.converged] at exhausted
    cases exhausted
  | uncovered source needed gap =>
    obtain ⟨complete, whole⟩ := missingSources_nil.mp completes.covered source needed
    exact gap.elim (fun no => no complete) whole
  | unsupported status => exact completes.reviewed status
  | unsuccessful gate middleware observed needed none =>
    have executed := completes.executed gate observed
    simp only [Executed, Executes, needed] at executed
    apply executed.2.1
    apply filter_eq_nil_iff.mpr
    intro capability success isRequired
    exact none capability (of_decide_eq_true isRequired) success
  | unresolved gate middleware observed needed record known status about =>
    have executed := completes.executed gate observed
    simp only [Executed, Executes, needed] at executed
    have member : record ∈ unresolvedRecords input middleware := by
      simp only [unresolvedRecords, mem_filter, known, status, about, beq_self_eq_true,
        decide_true, Bool.and_self, and_self]
    rw [executed.1] at member
    cases member

def Validated (input : Input) : Prop :=
  ∃ validation ∈ input.evidence.recordValidation, validation.valid = true ∧
    validation.countMatches = true ∧ validation.uniqueBy ≠ []

theorem wrappedUp_cases (wrapped : wrappedUp input middleware = true) :
    "artifact_delivery" ∈ successful input middleware ∨ Validated input := by
  simp only [wrappedUp, Bool.and_eq_true, Bool.or_eq_true, decide_eq_true_eq] at wrapped
  rcases wrapped.2 with artifact | validated
  · exact .inl artifact.1
  · obtain ⟨validation, known, good⟩ := (Option.any_eq_true _ _).mp validated
    simp only [Bool.and_eq_true, Bool.not_eq_true', isEmpty_eq_false_iff] at good
    exact .inr ⟨validation, known, good.1.1, good.1.2, good.2⟩

theorem Completes.truncated (completes : Completes input) (cut : input.truncated = true) :
    ∃ middleware, input.middleware = some middleware ∧
      ("artifact_delivery" ∈ successful input middleware ∨ Validated input) := by
  have gated := completes.gated
  dsimp only [Gated] at gated
  split at gated
  · split at gated
    · rw [cut] at gated
      cases gated
    · rename_i middleware observed
      refine ⟨middleware, observed, ?_⟩
      have wrapped : input.truncated = false ∨ wrappedUp input middleware = true := by
        dsimp only [Executed, Executes] at gated
        split at gated
        · exact .inl gated.2
        · exact gated.2.2
        · exact gated.2
        · exact gated
      rw [cut] at wrapped
      exact wrappedUp_cases (wrapped.resolve_left (by simp))
  · rw [cut] at gated
    cases gated

def withEvidence (input : Input) (evidence : RuntimeEvidence) : Input :=
  { input with evidence := evidence }

def withGates (input : Input) (gates : Verdicts) : Input := { input with gates := gates }

def withFailures (middleware : Middleware) (records : List FailureRecord) : Middleware :=
  { middleware with failureRecords := records }

def withMiddleware (input : Input) (middleware : Middleware) : Input :=
  { input with middleware := some middleware }

def truncate (input : Input) (reason : String) : Input :=
  { input with truncated := true, stopReason := reason }

inductive Worsens (input : Input) : Input → Prop
  | issue (front back : List String) (issue : String)
      (same : input.evidence.completionIssues = front ++ back) :
      Worsens input (withEvidence input
        { input.evidence with completionIssues := front ++ issue :: back })
  | failure (middleware : Middleware) (front back : List FailureRecord) (record : FailureRecord)
      (observed : input.middleware = some middleware)
      (same : middleware.failureRecords = front ++ back) (status : record.scope = .unresolved) :
      Worsens input (withMiddleware input (withFailures middleware (front ++ record :: back)))
  | truncation (reason : String) (whole : input.truncated = false) :
      Worsens input (truncate input reason)
  | unsupported : Worsens input (withGates input
      { input.gates with answerSupported := some "unsupported" })
  | insufficient : Worsens input (withGates input
      { input.gates with evidenceSufficient := some (some false) })
  | strength (strength : String) (bad : strength ∈ badStrengths) : Worsens input (withGates input
      { input.gates with evidenceStrength := some strength })
  | deliverable (front back : List String) (path : String)
      (same : input.evidence.deliverables = some (front ++ path :: back)) :
      Worsens input (withEvidence input
        { input.evidence with deliverables := some (front ++ back) })

theorem Gated.map (gated : Gated other)
    (gate : other.executionGateEnabled = input.executionGateEnabled)
    (whole : other.truncated = false → input.truncated = false)
    (observes : (other.middleware = none ∧ input.middleware = none) ∨ ∃ first second,
      other.middleware = some first ∧ input.middleware = some second ∧
        (Executed other first → Executed input second)) : Gated input := by
  dsimp only [Gated] at gated ⊢
  rw [gate] at gated
  cases enabled : input.executionGateEnabled with
  | false =>
    rw [enabled] at gated
    exact whole gated
  | true =>
    rw [enabled] at gated
    rcases observes with ⟨is, same⟩ | ⟨first, second, is, same, executes⟩
    · rw [is] at gated
      rw [same]
      exact whole gated
    · rw [is] at gated
      rw [same]
      exact executes gated

theorem Gated.observed (gated : Gated other)
    (gate : other.executionGateEnabled = input.executionGateEnabled)
    (whole : other.truncated = false → input.truncated = false)
    (same : other.middleware = input.middleware)
    (executes : ∀ middleware, Executed other middleware → Executed input middleware) :
    Gated input := by
  refine gated.map gate whole ?_
  cases observed : input.middleware with
  | none => exact .inl ⟨same.trans observed, rfl⟩
  | some middleware =>
    exact .inr ⟨middleware, middleware, same.trans observed, rfl, executes middleware⟩

theorem missingSources_failures {records : List FailureRecord}
    (observed : input.middleware = some middleware) :
    missingSources (withMiddleware input (withFailures middleware records)) =
      missingSources input := by
  have sources : RunOutcome.observed
      (withMiddleware input (withFailures middleware records)) = RunOutcome.observed input := by
    dsimp only [RunOutcome.observed, withMiddleware, withFailures]
    rw [observed]
    rfl
  simp only [missingSources, sourcesWith, sources]
  rfl

theorem executed_failure {front back : List FailureRecord} {record : FailureRecord}
    (same : middleware.failureRecords = front ++ back)
    (executed : Executed (withMiddleware input (withFailures middleware (front ++ record :: back)))
      (withFailures middleware (front ++ record :: back))) : Executed input middleware := by
  have subset : ∀ other ∈ middleware.failureRecords, other ∈ front ++ record :: back := by
    intro other member
    rw [same, mem_append] at member
    rw [mem_append]
    exact member.imp_right (mem_cons_of_mem _)
  refine Executes.mono ?_ ?_ id id id id executed
  · exact fun clean other member => clean other (subset other member)
  · intro resolved
    refine filter_eq_nil_iff.mpr fun other member => ?_
    exact filter_eq_nil_iff.mp resolved other (subset other member)

theorem executed_deliverables {deliverables : Option (List String)}
    (fewer : (deliverables.any fun list => !list.isEmpty) = true → delivered input.evidence = true)
    (executed : Executed (withEvidence input { input.evidence with deliverables := deliverables })
      middleware) : Executed input middleware := by
  have more : ∀ capability ∈ successful
      (withEvidence input { input.evidence with deliverables := deliverables }) middleware,
        capability ∈ successful input middleware := by
    intro capability member
    simp only [successful, mem_append] at member ⊢
    refine member.imp_right fun artifact => ?_
    split at artifact
    · rename_i some
      rw [if_pos (fewer some)]
      exact artifact
    · cases artifact
  have relevant : relevantSuccesses (withEvidence input
      { input.evidence with deliverables := deliverables }) middleware ≠ [] →
        relevantSuccesses input middleware ≠ [] := by
    intro some none
    apply some
    rw [relevantSuccesses, filter_eq_nil_iff] at none ⊢
    exact fun capability member => none capability (more capability member)
  refine Executes.mono id id relevant (more _) ?_ id executed
  refine Or.imp_right ?_
  simp only [wrappedUp, Bool.and_eq_true, Bool.or_eq_true, decide_eq_true_eq, Bool.not_eq_true',
    isEmpty_eq_false_iff]
  rintro ⟨cut, ⟨artifact, useful⟩ | validated⟩
  · exact ⟨cut, .inl ⟨more _ artifact, useful.imp_right relevant⟩⟩
  · exact ⟨cut, .inr validated⟩

theorem executed_truncate {reason : String} (whole : input.truncated = false)
    (executed : Executed (truncate input reason) middleware) : Executed input middleware :=
  Executes.mono id id id id (fun _ => .inl whole) (fun _ => whole) executed

theorem reviewStatus_answer {v : Verdicts}
    (supported : reviewStatus { v with answerSupported := some "unsupported" } ≠ .unsupported) :
    reviewStatus v ≠ .unsupported := by
  have incomplete : v.reviewCompleteness = some "incomplete" := by
    by_contra complete
    exact supported (by simp only [reviewStatus, complete, if_false])
  simp only [reviewStatus, incomplete, if_true]
  decide

theorem reviewStatus_against {verdicts against : Verdicts}
    (completeness : against.reviewCompleteness = verdicts.reviewCompleteness)
    (answer : against.answerSupported = verdicts.answerSupported)
    (available : against.reviewAvailable = verdicts.reviewAvailable)
    (bad : against.evidenceSufficient = some (some false) ∨ strengthIn against badStrengths = true)
    (supported : reviewStatus against ≠ .unsupported) : reviewStatus verdicts ≠ .unsupported := by
  dsimp only [reviewStatus] at supported ⊢
  rw [completeness, answer, available] at supported
  split
  · nofun
  · rename_i complete
    rw [if_neg complete] at supported
    split at supported
    · nofun
    · exact absurd rfl supported
    · nofun
    · split
      · nofun
      · rename_i reviewed
        rw [if_neg reviewed, if_pos bad] at supported
        exact absurd rfl supported

theorem review_withGates {gates : Verdicts} (fine : review (withGates input gates) ≠ .unsupported)
    (against : ∀ completeness, reviewStatus { gates with reviewCompleteness := completeness } ≠
      .unsupported → reviewStatus { input.gates with reviewCompleteness := completeness } ≠
        .unsupported)
    (supported : reviewStatus gates ≠ .unsupported → reviewStatus input.gates ≠ .unsupported) :
    review input ≠ .unsupported := by
  dsimp only [review, reviewed, withGates] at fine ⊢
  cases enabled : input.answerReviewEnabled with
  | false => nofun
  | true =>
    simp only [enabled, if_true] at fine ⊢
    split
    · rename_i incomplete
      rw [if_pos incomplete] at fine
      exact against _ fine
    · rename_i complete
      rw [if_neg complete] at fine
      exact supported fine

theorem Completes.withGates {gates : Verdicts} (completes : Completes (withGates input gates))
    (reviewed : review input ≠ .unsupported) : Completes input where
  issues := completes.issues
  artifact := completes.artifact
  converged := completes.converged
  covered := completes.covered
  gated := completes.gated.observed rfl id rfl fun _ executed => executed
  known := completes.known
  reviewed := reviewed

theorem Worsens.completes (worsens : Worsens input other) (completes : Completes other) :
    Completes input := by
  cases worsens with
  | issue front back issue same => exact absurd completes.issues (by simp [RunOutcome.withEvidence])
  | failure middleware front back record observed same status =>
    have gated : Gated (withMiddleware input
        (withFailures middleware (front ++ record :: back))) := completes.gated
    exact {
      issues := completes.issues
      artifact := completes.artifact
      converged := completes.converged
      covered := (missingSources_failures observed).symm.trans completes.covered
      gated := gated.map rfl id
        (.inr ⟨_, middleware, rfl, observed, executed_failure same⟩)
      known := completes.known
      reviewed := completes.reviewed }
  | truncation reason whole =>
    have gated : Gated (truncate input reason) := completes.gated
    exact {
      issues := completes.issues
      artifact := completes.artifact
      converged := completes.converged
      covered := completes.covered
      gated := gated.observed rfl (fun _ => whole) rfl fun _ => executed_truncate whole
      known := completes.known
      reviewed := completes.reviewed }
  | unsupported =>
    apply completes.withGates
    refine review_withGates completes.reviewed (fun completeness => ?_) reviewStatus_answer
    exact reviewStatus_answer (v := { input.gates with reviewCompleteness := completeness })
  | insufficient =>
    apply completes.withGates
    exact review_withGates completes.reviewed
      (fun _ => reviewStatus_against rfl rfl rfl (.inl rfl))
      (reviewStatus_against rfl rfl rfl (.inl rfl))
  | strength strength bad =>
    have strong : ∀ verdicts : Verdicts, verdicts.evidenceStrength = some strength →
        strengthIn verdicts badStrengths = true := by
      intro verdicts is
      simp only [strengthIn, is, Option.any_some, bad, decide_true]
    apply completes.withGates
    exact review_withGates completes.reviewed
      (fun _ => reviewStatus_against rfl rfl rfl (.inr (strong _ rfl)))
      (reviewStatus_against rfl rfl rfl (.inr (strong _ rfl)))
  | deliverable front back path same =>
    have present : delivered input.evidence = true := by
      simp only [delivered, same, Option.any_some, isEmpty_eq_false_iff, Bool.not_eq_true',
        ne_eq, append_eq_nil_iff, reduceCtorEq, and_false, not_false_eq_true]
    exact {
      issues := completes.issues
      artifact := fun _ => present
      converged := completes.converged
      covered := completes.covered
      gated := completes.gated.observed rfl id rfl fun _ =>
        executed_deliverables fun _ => present
      known := by
        rintro ⟨-, none⟩
        rw [same] at none
        simp at none
      reviewed := completes.reviewed }

/-- A run that is barred is not completed; a run that was cut is completed only with a delivered
artifact or validated records; a completed run, and no other, names no reason; and a run that
is not completed is not completed by getting worse. -/
theorem outcome_sound (input : Input) :
    (Barred input → (finalizeRuntimeOutcome input).1 ≠ .completed) ∧
    ((finalizeRuntimeOutcome input).1 = .completed → input.truncated = true →
      ∃ middleware, input.middleware = some middleware ∧
        ("artifact_delivery" ∈ successful input middleware ∨ Validated input)) ∧
    ((finalizeRuntimeOutcome input).1 = .completed ↔
      (finalizeRuntimeOutcome input).2.reason = none) ∧
    ∀ other, Worsens input other → (finalizeRuntimeOutcome input).1 ≠ .completed →
      (finalizeRuntimeOutcome other).1 ≠ .completed := by
  refine ⟨fun barred done => barred.not_completes (completed_iff.mp done),
    fun done cut => (completed_iff.mp done).truncated cut, explained input, ?_⟩
  intro other worsens undone done
  exact undone (completed_iff.mpr (worsens.completes (completed_iff.mp done)))

/-- Nobody has recorded what was delivered, or which tools were called. -/
def unrecorded (requirement : Requirement) (gate : Bool) : Input where
  middleware := none
  requirement := requirement
  requiredCapabilities := ["plugin"]
  truncated := false
  stopReason := ""
  executionGateEnabled := gate
  evidence := .empty
  gates := noVerdicts
  answerReviewEnabled := true

theorem outcome_unrecorded :
    (finalizeRuntimeOutcome (unrecorded .artifact false)).1 = .completed ∧
      delivered (unrecorded .artifact false).evidence = false ∧
    (finalizeRuntimeOutcome (unrecorded .toolResult true)).1 = .completed ∧
      required (unrecorded .toolResult true) = ["plugin"] ∧
      observed (unrecorded .toolResult true) = [] := by
  decide +kernel

end SourceLens.RunOutcome
