import SourceLens.ModelFailover

/-! What the caller of a model call with fallbacks gets to see. -/

namespace SourceLens.ModelFailover

open List

structure Distinct (primary : Uuid) (bound : Nat) (candidates : List Uuid) : Prop where
  nodup : candidates.Nodup
  other : primary ∉ candidates
  length : candidates.length ≤ bound

theorem addCandidate_distinct (primary : Uuid) (bound : Nat) (candidates : List Uuid) (value : Json)
    (distinct : Distinct primary bound candidates) :
    Distinct primary (bound + 1) (addCandidate primary candidates value) := by
  have wider : Distinct primary (bound + 1) candidates :=
    ⟨distinct.nodup, distinct.other, Nat.le_succ_of_le distinct.length⟩
  unfold addCandidate
  cases uuidOf value with
  | none => exact wider
  | some candidate =>
    dsimp only
    split
    · rename_i new
      refine ⟨?_, ?_, ?_⟩
      · rw [nodup_append]
        refine ⟨distinct.nodup, nodup_singleton candidate, ?_⟩
        intro left member right same
        rw [mem_singleton.mp same]
        exact fun equal => new.2 (equal ▸ member)
      · rw [mem_append, mem_singleton]
        intro member
        cases member with
        | inl before => exact distinct.other before
        | inr here => exact new.1 here.symm
      · have length := distinct.length
        rw [length_append, length_singleton]
        omega
    · exact wider

theorem candidates_distinct (primary : Uuid) (values : List Json) (bound : Nat)
    (candidates : List Uuid) (distinct : Distinct primary bound candidates) :
    Distinct primary (bound + values.length)
      (values.foldl (addCandidate primary) candidates) := by
  induction values generalizing bound candidates with
  | nil => exact distinct
  | cons value values ih =>
    have later := ih (bound + 1) _ (addCandidate_distinct primary bound candidates value distinct)
    rw [foldl_cons, length_cons, Nat.add_comm values.length, ← Nat.add_assoc]
    exact later

theorem candidatesOf_distinct (primary : Uuid) (configured : List Json) :
    Distinct primary maxFallbacks (candidatesOf primary configured) := by
  have whole := candidates_distinct primary (configured.take maxFallbacks) 0 []
    ⟨nodup_nil, not_mem_nil, Nat.le_refl 0⟩
  have short : (configured.take maxFallbacks).length ≤ maxFallbacks := length_take_le ..
  refine ⟨whole.nodup, whole.other, ?_⟩
  calc
    (candidatesOf primary configured).length ≤ 0 + (configured.take maxFallbacks).length :=
      whole.length
    _ ≤ maxFallbacks := by omega

theorem Distinct.filter {primary : Uuid} {bound : Nat} {candidates : List Uuid}
    (distinct : Distinct primary bound candidates) (keep : Uuid → Bool) :
    Distinct primary bound (candidates.filter keep) :=
  ⟨distinct.nodup.filter keep, fun member => distinct.other (mem_of_mem_filter member),
    Nat.le_trans (length_filter_le keep candidates) distinct.length⟩

variable (env : Env)

theorem refs_distinct :
    refs env = [] ∨ ∃ primary, uuidOf env.modelRef = some primary ∧
      Distinct primary maxFallbacks (refs env) := by
  unfold refs fallbackModelRefs
  split
  · exact .inl rfl
  · cases uuidOf env.modelRef with
    | none => exact .inl rfl
    | some primary =>
      dsimp only
      split
      · exact .inl rfl
      · split
        · exact .inr ⟨primary, rfl, (candidatesOf_distinct primary _).filter _⟩
        · exact .inl rfl

theorem models_nodup (used rest : List Uuid) (parts : refs env = used ++ rest) :
    ((Ref.primary :: used.map Ref.fallback).map (model env)).Nodup := by
  have named : (used.map Ref.fallback).map (model env) = used.map some := by
    rw [map_map]
    rfl
  rw [map_cons, named]
  rcases refs_distinct env with none' | ⟨primary, known, distinct⟩
  · rw [none'] at parts
    have empty : used = [] := (append_eq_nil_iff.mp parts.symm).1
    simp [empty]
  · have front : used <+: refs env := ⟨rest, parts.symm⟩
    have nodup : used.Nodup := distinct.nodup.sublist front.sublist
    rw [nodup_cons, model, known]
    refine ⟨?_, nodup.map (Option.some_injective _)⟩
    intro member
    rcases mem_map.mp member with ⟨other, there, same⟩
    cases same
    exact distinct.other (front.subset there)

theorem refs_length : (refs env).length ≤ maxFallbacks := by
  rcases refs_distinct env with none' | ⟨_, _, distinct⟩
  · simp [none']
  · exact distinct.length

@[simp] theorem calls_append (front back : List Event) :
    calls (front ++ back) = calls front ++ calls back := filterMap_append ..

@[simp] theorem yields_append (front back : List Event) :
    yields (front ++ back) = yields front ++ yields back := filterMap_append ..

variable (attempt : Nat)

theorem calls_yielded (chunks : List Chunk) :
    calls (chunks.map (Event.yielded attempt)) = [] := by
  induction chunks with
  | nil => rfl
  | cons chunk chunks ih => exact ih

theorem yields_yielded (chunks : List Chunk) :
    yields (chunks.map (Event.yielded attempt)) = chunks := by
  induction chunks with
  | nil => rfl
  | cons chunk chunks ih =>
    have step : yields ((chunk :: chunks).map (Event.yielded attempt)) =
        chunk :: yields (chunks.map (Event.yielded attempt)) := rfl
    rw [step, ih]

theorem closedInTurn_yields (current : Option Nat) (attempt : Nat)
    (chunks : List Chunk) (rest : List Event) :
    closedInTurn env current (chunks.map (Event.yielded attempt) ++ rest) =
      closedInTurn env current rest := by
  induction chunks with
  | nil => rfl
  | cons chunk chunks ih => exact ih

structure Attempted (env : Env) (attempt : Nat) (ref : Ref) (tried : Tried) : Prop where
  callsBefore : calls tried.before = [ref]
  callsAfter : calls tried.after = []
  yieldsBefore : yields tried.before = attemptChunks env attempt ref
  yieldsAfter : yields tried.after = []
  numbered : ∀ number chunk, Event.yielded number chunk ∈ tried.before ++ tried.after →
    number = attempt
  closes : ∀ middle rest, (∀ current, closedInTurn env current (middle ++ tried.after ++ rest) =
    closedInTurn env current (tried.after ++ rest)) →
      closedInTurn env none (tried.before ++ middle ++ tried.after ++ rest) =
        closedInTurn env none rest

def Judged (env : Env) (attempt : Nat) (ref : Ref) : Verdict → Prop
  | .finished outcome => outcome = attemptOutcome env attempt ref ∧
      ∀ error, outcome = .error error →
        attemptChunks env attempt ref ≠ [] ∨ isRetryableFailoverError env error = false
  | .advance _ otherwise => otherwise = attemptOutcome env attempt ref ∧
      attemptChunks env attempt ref = []

variable (ref : Ref)

theorem failed_judged (emitted : Bool) (error : Error)
    (outcome : attemptOutcome env attempt ref = .error error)
    (seen : emitted = !(attemptChunks env attempt ref).isEmpty) :
    Judged env attempt ref (failed env emitted error) := by
  unfold failed
  split
  · rename_i stops
    refine ⟨outcome.symm, ?_⟩
    intro other same
    cases same
    rw [Bool.or_eq_true] at stops
    cases stops with
    | inl emitted' =>
      rw [seen] at emitted'
      exact .inl (by simpa using emitted')
    | inr final => exact .inr (by simpa using final)
  · rename_i goes
    refine ⟨outcome.symm, ?_⟩
    rw [Bool.or_eq_true, not_or, seen] at goes
    simpa using goes.1

theorem attempted_plain (verdict : Verdict)
    (silent : attemptChunks env attempt ref = []) (shut : opens env attempt ref = false) :
    Attempted env attempt ref ⟨[.called attempt ref], [], verdict⟩ where
  callsBefore := rfl
  callsAfter := rfl
  yieldsBefore := silent.symm
  yieldsAfter := rfl
  numbered := by
    intro number chunk member
    simp at member
  closes := by
    intro middle rest kept
    have skipped := kept none
    rw [append_nil, nil_append] at skipped
    rw [append_nil, append_assoc, singleton_append, closedInTurn, shut]
    simpa using skipped

theorem yielded_of_mem (chunks : List Chunk) (number : Nat)
    (chunk : Chunk) (member : Event.yielded number chunk ∈
      Event.called attempt ref :: chunks.map (Event.yielded attempt) ++ [.closed attempt]) :
    number = attempt := by
  simp only [mem_append, mem_cons, mem_map, not_mem_nil, or_false,
    reduceCtorEq, false_or] at member
  rcases member with ⟨other, _, same⟩
  cases same
  rfl

theorem attempted_stream (reply : Reply)
    (opened : opens env attempt ref = true) (chunks : attemptChunks env attempt ref = reply.chunks)
    (verdict : Verdict) :
    Attempted env attempt ref
        ⟨Event.called attempt ref :: reply.chunks.map (Event.yielded attempt) ++
          [.closed attempt], [], verdict⟩ ∧
      Attempted env attempt ref
        ⟨Event.called attempt ref :: reply.chunks.map (Event.yielded attempt), [.closed attempt],
          verdict⟩ := by
  have seen : calls (Event.called attempt ref :: reply.chunks.map (Event.yielded attempt)) =
      [ref] := by
    have step : calls (Event.called attempt ref :: reply.chunks.map (Event.yielded attempt)) =
        ref :: calls (reply.chunks.map (Event.yielded attempt)) := rfl
    rw [step, calls_yielded]
  have out : yields (Event.called attempt ref :: reply.chunks.map (Event.yielded attempt)) =
      attemptChunks env attempt ref := by
    have step : yields (Event.called attempt ref :: reply.chunks.map (Event.yielded attempt)) =
        yields (reply.chunks.map (Event.yielded attempt)) := rfl
    rw [step, yields_yielded, chunks]
  have shut : ∀ rest, closedInTurn env (some attempt) (.closed attempt :: rest) =
      closedInTurn env none rest := by
    intro rest
    rw [closedInTurn, if_pos rfl]
  constructor
  · refine ⟨?_, rfl, ?_, rfl, ?_, ?_⟩
    · rw [calls_append, seen]
      rfl
    · rw [yields_append, out]
      exact append_nil _
    · intro number chunk member
      rw [append_nil] at member
      exact yielded_of_mem attempt ref reply.chunks number chunk member
    · intro middle rest kept
      have skipped := kept none
      rw [append_nil, nil_append] at skipped
      rw [append_nil, cons_append, cons_append, cons_append, closedInTurn,
        opened, append_assoc, append_assoc, closedInTurn_yields, singleton_append]
      simp only [Option.isNone_none, Bool.true_and, if_true, shut]
      exact skipped
  · refine ⟨seen, rfl, out, rfl, ?_, ?_⟩
    · exact fun number chunk member => yielded_of_mem attempt ref reply.chunks number chunk member
    · intro middle rest kept
      have skipped := kept (some attempt)
      rw [singleton_append, shut] at skipped
      rw [cons_append, cons_append, cons_append, closedInTurn, opened,
        append_assoc, append_assoc, closedInTurn_yields]
      simp only [Option.isNone_none, Bool.true_and, if_true]
      rw [← append_assoc]
      exact skipped

theorem tryOnce_spec :
    Attempted env attempt ref (tryOnce env attempt ref) ∧
      Judged env attempt ref (tryOnce env attempt ref).verdict := by
  unfold tryOnce
  cases streamed : env.stream with
  | false =>
    have silent : attemptChunks env attempt ref = [] := by simp [attemptChunks, streamed]
    have shut : opens env attempt ref = false := by simp [opens, streamed]
    cases asked : env.ask attempt ref with
    | error error =>
      have outcome : attemptOutcome env attempt ref = .error error := by
        simp [attemptOutcome, streamed, asked]
      refine ⟨attempted_plain env attempt ref _ silent shut, ?_⟩
      exact failed_judged env attempt ref false error outcome (by rw [silent]; rfl)
    | ok value =>
      have outcome : attemptOutcome env attempt ref = .ok value := by
        simp [attemptOutcome, streamed, asked]
      refine ⟨attempted_plain env attempt ref _ silent shut, outcome.symm, ?_⟩
      intro error same
      cases same
  | true =>
    cases started : env.start attempt ref with
    | error error =>
      have silent : attemptChunks env attempt ref = [] := by
        simp [attemptChunks, streamed, started]
      have shut : opens env attempt ref = false := by
        simp [opens, started, Except.isOk, Except.toBool]
      have outcome : attemptOutcome env attempt ref = .error error := by
        simp [attemptOutcome, streamed, started]
      refine ⟨attempted_plain env attempt ref _ silent shut, ?_⟩
      exact failed_judged env attempt ref false error outcome (by rw [silent]; rfl)
    | ok reply =>
      have chunks : attemptChunks env attempt ref = reply.chunks := by
        simp [attemptChunks, streamed, started]
      have opened : opens env attempt ref = true := by
        simp [opens, streamed, started, Except.isOk, Except.toBool]
      have outcome : attemptOutcome env attempt ref = reply.ending := by
        simp [attemptOutcome, streamed, started]
      have shapes := attempted_stream env attempt ref reply opened chunks
      simp only [if_true, consume]
      cases ending : reply.ending with
      | error error =>
        refine ⟨(shapes _).1, ?_⟩
        apply failed_judged env attempt ref _ error (outcome.trans ending)
        rw [chunks]
      | ok terminal =>
        dsimp only
        split
        · rename_i empty
          refine ⟨(shapes _).2, (outcome.trans ending).symm, ?_⟩
          rw [chunks]
          cases none' : reply.chunks with
          | nil => rfl
          | cons chunk more =>
            rw [none'] at empty
            cases terminal <;> simp [isEmptyStreamResult] at empty
        · refine ⟨(shapes _).1, (outcome.trans ending).symm, ?_⟩
          intro error same
          cases same

/-- What is known of the attempts from one on: the fallbacks `used` were tried, `rest`
were not. -/
structure Tail (env : Env) (selected : Ref) (attempt : Nat) (used rest : List Uuid) (run : Run) :
    Prop where
  calls : calls run.events = selected :: used.map Ref.fallback
  last : ∃ ref, (selected :: used.map Ref.fallback).getLast? = some ref ∧
    yields run.events = attemptChunks env (attempt + used.length) ref ∧
    run.outcome = attemptOutcome env (attempt + used.length) ref
  lastOnly : ∀ number chunk, Event.yielded number chunk ∈ run.events →
    number = attempt + used.length
  inTurn : closedInTurn env none run.events = true
  reason : ∀ error, run.outcome = .error error →
    yields run.events ≠ [] ∨ isRetryableFailoverError env error = false ∨ rest = []

theorem tail_end (selected : Ref) (attempt : Nat) (rest : List Uuid) (tried : Tried)
    (outcome : Except Error Json) (attempted : Attempted env attempt selected tried)
    (own : outcome = attemptOutcome env attempt selected)
    (reason : ∀ error, outcome = .error error → attemptChunks env attempt selected ≠ [] ∨
      isRetryableFailoverError env error = false ∨ rest = []) :
    Tail env selected attempt [] rest ⟨tried.before ++ tried.after, outcome⟩ := by
  have seen : yields (tried.before ++ tried.after) = attemptChunks env attempt selected := by
    rw [yields_append, attempted.yieldsBefore, attempted.yieldsAfter, append_nil]
  constructor
  · rw [calls_append, attempted.callsBefore, attempted.callsAfter]
    rfl
  · exact ⟨selected, rfl, seen, own⟩
  · exact attempted.numbered
  · have closes := attempted.closes [] [] fun _ => rfl
    rw [append_nil, append_nil] at closes
    rw [closes]
    rfl
  · intro error same
    rw [seen]
    exact reason error same

theorem attemptsFrom_tail (candidates : List Uuid) (selected : Ref) (attempt : Nat) :
    ∃ used rest, candidates = used ++ rest ∧
      Tail env selected attempt used rest (attemptsFrom env candidates selected attempt) := by
  induction candidates generalizing selected attempt with
  | nil =>
    have spec := tryOnce_spec env attempt selected
    refine ⟨[], [], rfl, ?_⟩
    rw [attemptsFrom]
    cases verdict : (tryOnce env attempt selected).verdict with
    | finished outcome =>
      have judged := spec.2
      rw [verdict] at judged
      exact tail_end env selected attempt [] _ outcome spec.1 judged.1
        fun _ _ => .inr (.inr rfl)
    | advance code otherwise =>
      have judged := spec.2
      rw [verdict] at judged
      exact tail_end env selected attempt [] _ otherwise spec.1 judged.1
        fun _ _ => .inr (.inr rfl)
  | cons candidate candidates ih =>
    have spec := tryOnce_spec env attempt selected
    rw [attemptsFrom]
    cases verdict : (tryOnce env attempt selected).verdict with
    | finished outcome =>
      have judged := spec.2
      rw [verdict] at judged
      refine ⟨[], candidate :: candidates, rfl, ?_⟩
      apply tail_end env selected attempt _ _ outcome spec.1 judged.1
      intro error same
      cases judged.2 error same with
      | inl emitted => exact .inl emitted
      | inr final => exact .inr (.inl final)
    | advance code otherwise =>
      have judged := spec.2
      rw [verdict] at judged
      rcases ih (.fallback candidate) (attempt + 1) with ⟨used, rest, parts, later⟩
      have place : attempt + (candidate :: used).length = attempt + 1 + used.length := by
        rw [length_cons]
        omega
      have attempted := spec.1
      generalize tryOnce env attempt selected = tried at attempted
      have events : ∀ run : Run, tried.before ++ Event.retried code (attempt + 1) ::
          tried.after ++ run.events =
            tried.before ++ [Event.retried code (attempt + 1)] ++ tried.after ++ run.events := by
        intro run
        simp
      have own : calls [Event.retried code (attempt + 1)] = [] ∧
          yields [Event.retried code (attempt + 1)] = [] := ⟨rfl, rfl⟩
      -- The attempt itself showed nothing to the caller.
      have silent : yields (tried.before ++ [Event.retried code (attempt + 1)] ++ tried.after) =
          [] := by
        simp only [yields_append, attempted.yieldsBefore, attempted.yieldsAfter, judged.2, own.2,
          append_nil]
      refine ⟨candidate :: used, rest, by rw [parts]; rfl, ?_⟩
      constructor
      · dsimp only
        rw [events, calls_append, calls_append, calls_append, attempted.callsBefore,
          attempted.callsAfter, own.1, later.calls]
        rfl
      · rcases later.last with ⟨ref, last, seen, outcome⟩
        refine ⟨ref, ?_, ?_, ?_⟩
        · rw [map_cons, List.getLast?_cons_cons]
          exact last
        · dsimp only
          rw [events, yields_append, silent, place, seen]
          rfl
        · rw [place, outcome]
      · intro number chunk member
        dsimp only at member
        rw [events, mem_append] at member
        cases member with
        | inl here =>
          have shown : chunk ∈ yields (tried.before ++ [Event.retried code (attempt + 1)] ++
              tried.after) := mem_filterMap.mpr ⟨_, here, rfl⟩
          rw [silent] at shown
          exact absurd shown not_mem_nil
        | inr there =>
          rw [place]
          exact later.lastOnly number chunk there
      · dsimp only
        rw [events, attempted.closes]
        · exact later.inTurn
        · intro current
          rfl
      · intro error same
        dsimp only at same ⊢
        rw [events, yields_append, silent, nil_append]
        exact later.reason error same

/-- The caller of a model call with fallbacks sees one attempt, the last one made. -/
theorem one_answer (env : Env) : OneAnswer env (callAndTrackWithFallback env) := by
  rcases attemptsFrom_tail env (refs env) .primary 0 with ⟨used, rest, parts, tail⟩
  have made : (calls (callAndTrackWithFallback env).events).length = 1 + used.length := by
    have same : calls (callAndTrackWithFallback env).events = _ := tail.calls
    rw [same, length_cons, length_map, Nat.add_comm]
  have index : (calls (callAndTrackWithFallback env).events).length - 1 = 0 + used.length := by
    omega
  have few := refs_length env
  constructor
  · rw [index]
    rcases tail.last with ⟨ref, last, seen, outcome⟩
    exact ⟨ref, by rw [← last, ← tail.calls]; rfl, seen, outcome⟩
  · intro attempt chunk member
    rw [tail.lastOnly attempt chunk member, made]
    omega
  · have same : calls (callAndTrackWithFallback env).events = _ := tail.calls
    rw [same]
    exact models_nodup env used rest parts
  · rw [parts, length_append] at few
    omega
  · exact tail.inTurn
  · intro error same
    rcases tail.reason error same with seen | final | exhausted
    · exact .inl seen
    · exact .inr (.inl final)
    · refine .inr (.inr ?_)
      rw [made, parts, exhausted, append_nil]

end SourceLens.ModelFailover
