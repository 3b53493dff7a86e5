import SourceLens.Library.StickyLast
import SourceLens.PluginExtensions

/-! When the combined evidence of Plugin extensions is the same in every order of the extensions. -/

namespace SourceLens.PluginExtensions

open List
open StickyLast (Opened settle)

def incomplete : Json := .str "incomplete"

def isLevel (value : Json) : Bool := (checkLevel value).isOk

def replacementsFit (envelope : Envelope) (key : String) (entries : List (String × Json)) : Bool :=
  key ≠ "review_replacements" || (checkReplacements envelope entries).isOk

def part (envelope : Envelope) (held : Option Part) (field : String × Json) : Option Part :=
  if field.1 ∈ completenessKeys ∧ isIncomplete held = true then held
  else if field.1 ∈ payloadKeys then
    match field.2 with
    | .obj entries =>
      if replacementsFit envelope field.1 entries then
        (payloadAgreement.merge (payloadsOf held) entries).map .payloads
      else none
    | _ => none
  else if field.1 ∈ completenessKeys ∧ isLevel field.2 = false then none
  else some (.value field.2)

/-- An outcome that leaves `left` under the key, and the other keys as they are. -/
def Leaves (outcome : Except Failure Combined) (combined : Combined) (key : String) :
    Option Part → Prop
  | none => outcome.isOk = false
  | some left => ∃ next, outcome = .ok next ∧
      ∀ other, next.get? other = if other = key then some left else combined.get? other

theorem leaves_set (combined : Combined) (key : String) (left : Part) :
    Leaves (.ok (combined.set key left)) combined key (some left) :=
  ⟨_, rfl, fun other => OrderedDict.get?_set combined key other left⟩

theorem isIncomplete_some {held : Option Part} (sticky : isIncomplete held = true) :
    held = some (.value incomplete) := by
  cases held with
  | none => cases sticky
  | some part =>
    cases part with
    | value value => rw [eq_of_beq sticky, incomplete]
    | payloads payloads => cases sticky

theorem addPayloads_leaves (combined : Combined) (key : String) (entries : List (String × Json)) :
    Leaves (addPayloads combined key entries) combined key
      ((payloadAgreement.merge (payloadsOf (combined.get? key)) entries).map .payloads) := by
  unfold addPayloads
  cases payloadAgreement.merge (payloadsOf (combined.get? key)) entries with
  | none => rfl
  | some payloads => exact leaves_set combined key _

theorem addField_leaves (envelope : Envelope) (combined : Combined) (field : String × Json) :
    Leaves (addField envelope combined field) combined field.1
      (part envelope (combined.get? field.1) field) := by
  rw [addField, part]
  by_cases skipped : field.1 ∈ completenessKeys ∧ isIncomplete (combined.get? field.1) = true
  · rw [if_pos skipped, if_pos skipped]
    have held := isIncomplete_some skipped.2
    rw [held]
    refine ⟨combined, rfl, ?_⟩
    intro other
    split
    · rename_i same
      rw [same, held]
    · rfl
  · rw [if_neg skipped, if_neg skipped]
    by_cases payload : field.1 ∈ payloadKeys
    · rw [if_pos payload, if_pos payload]
      cases field.2 with
      | obj entries =>
        have added := addPayloads_leaves combined field.1 entries
        by_cases replaces : field.1 = "review_replacements"
        · simp only [replacementsFit, replaces, if_true] at added ⊢
          cases checkReplacements envelope entries with
          | error failure => rfl
          | ok => exact added
        · simpa [replacementsFit, replaces] using added
      | _ => rfl
    · rw [if_neg payload, if_neg payload]
      by_cases complete : field.1 ∈ completenessKeys
      · simp only [complete, if_true, true_and, isLevel]
        cases checkLevel field.2 with
        | error failure => rfl
        | ok => exact leaves_set combined field.1 _
      · simp only [complete, if_false, false_and]
        exact leaves_set combined field.1 _

/-- What an envelope leaves under a key; `none` is a failure. -/
def partAt (envelope : Envelope) (key : String) (held : Option Part) : Option Json → Option (Option Part)
  | none => some held
  | some value => (part envelope held (key, value)).map some

theorem addFields_spec (envelope : Envelope) {fields : List (String × Json)}
    (distinct : (fields.map Prod.fst).Nodup) (combined : Combined) :
    (∃ next, fields.foldlM (addField envelope) combined = .ok next ∧ ∀ key,
      partAt envelope key (combined.get? key) (fields.lookup key) = some (next.get? key)) ∨
    ((fields.foldlM (addField envelope) combined).isOk = false ∧ ∃ key,
      partAt envelope key (combined.get? key) (fields.lookup key) = none) := by
  induction fields generalizing combined with
  | nil => exact .inl ⟨combined, rfl, fun _ => rfl⟩
  | cons field rest ih =>
    rw [map_cons, nodup_cons] at distinct
    have alone : rest.lookup field.1 = none := by
      rw [lookup_eq_none_iff]
      intro other member
      have apart : field.1 ≠ other.1 := fun same => distinct.1 (same ▸ mem_map_of_mem member)
      simpa using apart
    have own : (field :: rest).lookup field.1 = some field.2 := lookup_cons_self
    have added := addField_leaves envelope combined field
    rw [foldlM_cons]
    cases left : part envelope (combined.get? field.1) field with
    | none =>
      rw [left] at added
      refine .inr ⟨?_, field.1, ?_⟩
      · cases outcome : addField envelope combined field with
        | error failure => rfl
        | ok next =>
          rw [outcome] at added
          cases added
      · simp [partAt, own, left]
    | some kept =>
      rw [left] at added
      obtain ⟨next, outcome, others⟩ := added
      rw [outcome]
      have head (key : String) (same : key = field.1) :
          partAt envelope key (combined.get? key) ((field :: rest).lookup key) = some (some kept) := by
        subst same
        simp [partAt, own, left]
      have tail (key : String) (apart : key ≠ field.1) :
          partAt envelope key (combined.get? key) ((field :: rest).lookup key) =
            partAt envelope key (next.get? key) (rest.lookup key) := by
        have unequal : (key == field.1) = false := beq_eq_false_iff_ne.mpr apart
        rw [others, if_neg apart, lookup_cons, unequal]
      rcases ih distinct.2 next with finished | failed
      · obtain ⟨finish, run, kinds⟩ := finished
        refine .inl ⟨finish, run, ?_⟩
        intro key
        by_cases same : key = field.1
        · rw [head key same, ← kinds key, same, alone, others, if_pos rfl]
          rfl
        · rw [tail key same, kinds key]
      · obtain ⟨run, key, none⟩ := failed
        refine .inr ⟨run, key, ?_⟩
        by_cases same : key = field.1
        · rw [same, alone] at none
          cases none
        · rw [tail key same, none]

def Shaped (evidence : Option Envelope) : Prop :=
  ∃ envelope, evidence = some envelope ∧ ∀ key ∈ envelope.keys, key ∈ payloadKeys ++ completenessKeys

def evidenceAt (key : String) (held : Option Part) (evidence : Option Envelope) : Option (Option Part) :=
  evidence.bind fun envelope => partAt envelope key held (envelope.get? key)

def through (key : String) (held : Option Part) (evidence : List (Option Envelope)) :
    Option (Option Part) :=
  evidence.foldlM (evidenceAt key) held

theorem addEnvelope_spec (combined : Combined) (evidence : Option Envelope) :
    (∃ next, addEnvelope combined evidence = .ok next ∧ Shaped evidence ∧
      ∀ key, evidenceAt key (combined.get? key) evidence = some (next.get? key)) ∨
    ((addEnvelope combined evidence).isOk = false ∧
      (¬Shaped evidence ∨ ∃ key, evidenceAt key (combined.get? key) evidence = none)) := by
  cases evidence with
  | none =>
    refine .inr ⟨rfl, .inl ?_⟩
    intro shaped
    obtain ⟨envelope, same, -⟩ := shaped
    cases same
  | some envelope =>
    rw [addEnvelope]
    split
    · rename_i known
      have shaped : Shaped (some envelope) := by
        refine ⟨envelope, rfl, ?_⟩
        intro key member
        exact of_decide_eq_true (all_eq_true.mp known key member)
      rcases addFields_spec envelope envelope.distinct combined with finished | failed
      · obtain ⟨next, run, kinds⟩ := finished
        exact .inl ⟨next, run, shaped, kinds⟩
      · obtain ⟨run, missing⟩ := failed
        exact .inr ⟨run, .inr missing⟩
    · rename_i unknown
      refine .inr ⟨rfl, .inl ?_⟩
      intro shaped
      obtain ⟨other, same, known⟩ := shaped
      obtain rfl := Option.some.inj same
      exact unknown (all_eq_true.mpr fun key member => decide_eq_true (known key member))

theorem addAll_spec (evidence : List (Option Envelope)) (combined : Combined) :
    (∃ finish, evidence.foldlM addEnvelope combined = .ok finish ∧ (∀ item ∈ evidence, Shaped item) ∧
      ∀ key, through key (combined.get? key) evidence = some (finish.get? key)) ∨
    ((evidence.foldlM addEnvelope combined).isOk = false ∧
      ((∃ item ∈ evidence, ¬Shaped item) ∨ ∃ key, through key (combined.get? key) evidence = none)) := by
  induction evidence generalizing combined with
  | nil => exact .inl ⟨combined, rfl, forall_mem_nil _, fun _ => rfl⟩
  | cons first rest ih =>
    simp only [through, foldlM_cons, forall_mem_cons, exists_mem_cons_iff] at ih ⊢
    rcases addEnvelope_spec combined first with added | failed
    · obtain ⟨next, outcome, shaped, kinds⟩ := added
      simp only [outcome, kinds]
      rcases ih next with finished | failed
      · obtain ⟨finish, run, others, after⟩ := finished
        exact .inl ⟨finish, run, ⟨shaped, others⟩, after⟩
      · obtain ⟨run, reason⟩ := failed
        exact .inr ⟨run, reason.imp .inr id⟩
    · obtain ⟨outcome, reason⟩ := failed
      refine .inr ⟨?_, reason.imp .inl ?_⟩
      · cases added : addEnvelope combined first with
        | error failure => rfl
        | ok next =>
          rw [added] at outcome
          cases outcome
      · intro missing
        obtain ⟨key, none⟩ := missing
        exact ⟨key, by rw [none]; rfl⟩

def entriesOf : Option Json → List (String × Json)
  | some (.obj entries) => entries
  | _ => []

def entriesFit (envelope : Envelope) (key : String) : Option Json → Bool
  | none => true
  | some (.obj entries) => replacementsFit envelope key entries
  | some _ => false

def payloadEntries (key : String) (evidence : Option Envelope) : List (String × Json) :=
  entriesOf (evidence.bind (·.get? key))

def payloadFits (key : String) (evidence : Option Envelope) : Bool :=
  evidence.all fun envelope => entriesFit envelope key (envelope.get? key)

def reports (key : String) (evidence : Option Envelope) : Bool := (evidence.bind (·.get? key)).isSome

variable {key : String}

theorem entries_of_silent {evidence : Option Envelope}
    (silent : reports key evidence = false) : payloadEntries key evidence = [] := by
  have nothing := Option.isSome_eq_false_iff.mp silent
  rw [payloadEntries, Option.isNone_iff_eq_none.mp nothing, entriesOf]
  intro entries same
  cases same

theorem payloads_not_levels (payload : key ∈ payloadKeys) : key ∉ completenessKeys := by
  intro level
  simp only [payloadKeys, completenessKeys, mem_cons, not_mem_nil, or_false] at payload level
  rcases payload with rfl | rfl <;> simp at level

theorem partAt_payload (payload : key ∈ payloadKeys) (held : Option Part)
    (envelope : Envelope) (value : Option Json) : partAt envelope key held value =
      if entriesFit envelope key value then
        (payloadAgreement.merge (payloadsOf held) (entriesOf value)).map fun merged =>
          if value.isSome then some (.payloads merged) else held
      else none := by
  cases value with
  | none => rfl
  | some value =>
    simp only [partAt, part, payloads_not_levels payload, payload, false_and, if_false, if_true]
    cases value with
    | obj entries =>
      have same : entriesFit envelope key (some (.obj entries)) = replacementsFit envelope key entries :=
        rfl
      rw [same]
      dsimp only
      by_cases fits : replacementsFit envelope key entries = true
      · rw [if_pos fits, if_pos fits, Option.map_map]
        rfl
      · rw [if_neg fits, if_neg fits]
        rfl
    | _ => rfl

theorem evidenceAt_payload (payload : key ∈ payloadKeys) (held : Option Part)
    (envelope : Envelope) : evidenceAt key held (some envelope) =
      if payloadFits key (some envelope) then
        (payloadAgreement.merge (payloadsOf held) (payloadEntries key (some envelope))).map fun merged =>
          if reports key (some envelope) then some (.payloads merged) else held
      else none := partAt_payload payload held envelope (envelope.get? key)

theorem through_payload (payload : key ∈ payloadKeys) {evidence : List (Option Envelope)}
    (shaped : ∀ item ∈ evidence, Shaped item) (held : Option Part) : through key held evidence =
      if evidence.all (payloadFits key) then
        (payloadAgreement.merge (payloadsOf held) (evidence.flatMap (payloadEntries key))).map fun merged =>
          if evidence.any (reports key) then some (.payloads merged) else held
      else none := by
  induction evidence generalizing held with
  | nil => simp [through, Agreement.merge]
  | cons first rest ih =>
    rw [forall_mem_cons] at shaped
    obtain ⟨envelope, rfl, -⟩ := shaped.1
    have step : through key held (some envelope :: rest) =
        (evidenceAt key held (some envelope)).bind fun held => through key held rest := by
      rw [through, foldlM_cons]
      rfl
    rw [step, evidenceAt_payload payload, all_cons, flatMap_cons, any_cons,
      Agreement.merge_append]
    cases payloadFits key (some envelope) with
    | false => rfl
    | true =>
      rw [if_pos rfl, Bool.true_and]
      cases merged : payloadAgreement.merge (payloadsOf held) (payloadEntries key (some envelope)) with
      | none => simp
      | some before =>
        rw [Option.map_some, Option.bind_some, Option.bind_some, ih shaped.2]
        cases told : reports key (some envelope) with
        | true =>
          simp only [if_true, Bool.true_or, payloadsOf]
          split
          · cases later : rest.any (reports key) with
            | true => rfl
            | false =>
              have nothing : rest.flatMap (payloadEntries key) = [] := by
                rw [flatMap_eq_nil_iff]
                intro item member
                exact entries_of_silent (by simpa using any_eq_false.mp later item member)
              rw [nothing]
              rfl
          · rfl
        | false =>
          rw [entries_of_silent told] at merged
          obtain rfl := Option.some.inj merged
          rfl

def levelsIn (key : String) (evidence : List (Option Envelope)) : List Json :=
  evidence.filterMap fun item => item.bind (·.get? key)

theorem levels_not_payloads (level : key ∈ completenessKeys) : key ∉ payloadKeys :=
  fun payload => payloads_not_levels payload level

theorem part_level (level : key ∈ completenessKeys) (envelope : Envelope)
    (held : Option Json) (value : Json) : part envelope (held.map .value) (key, value) =
      if held = some incomplete then held.map .value
      else if isLevel value then some (.value value) else none := by
  have skipped : isIncomplete (held.map .value) = true ↔ held = some incomplete := by
    cases held with
    | none => simp [isIncomplete]
    | some value => simp [isIncomplete, incomplete]
  simp only [part, level, levels_not_payloads level, skipped, true_and, if_false]
  cases isLevel value <;> rfl

theorem through_level (level : key ∈ completenessKeys) {evidence : List (Option Envelope)}
    (shaped : ∀ item ∈ evidence, Shaped item) (held : Option Json) :
    through key (held.map .value) evidence =
      (settle incomplete isLevel held (levelsIn key evidence)).map (Option.map .value) := by
  induction evidence generalizing held with
  | nil => rfl
  | cons first rest ih =>
    rw [forall_mem_cons] at shaped
    obtain ⟨envelope, rfl, -⟩ := shaped.1
    have step : through key (held.map .value) (some envelope :: rest) =
        (evidenceAt key (held.map .value) (some envelope)).bind fun held => through key held rest := by
      rw [through, foldlM_cons]
      rfl
    rw [step, evidenceAt, Option.bind_some, levelsIn, filterMap_cons, Option.bind_some]
    cases told : envelope.get? key with
    | none => exact ih shaped.2 held
    | some value =>
      rw [partAt, part_level level, settle]
      by_cases sticky : held = some incomplete
      · rw [if_pos sticky, if_pos sticky, sticky]
        exact ih shaped.2 (some incomplete)
      · rw [if_neg sticky, if_neg sticky]
        cases isLevel value with
        | true => exact ih shaped.2 (some value)
        | false => rfl

theorem through_unknown (unknown : key ∉ payloadKeys ++ completenessKeys)
    {evidence : List (Option Envelope)} (shaped : ∀ item ∈ evidence, Shaped item) (held : Option Part) :
    through key held evidence = some held := by
  induction evidence with
  | nil => rfl
  | cons first rest ih =>
    rw [forall_mem_cons] at shaped
    obtain ⟨envelope, rfl, known⟩ := shaped.1
    have silent : envelope.get? key = none :=
      OrderedDict.get?_eq_none_iff.mpr fun member => unknown (known key member)
    rw [through, foldlM_cons, evidenceAt, Option.bind_some, silent]
    exact ih shaped.2

variable {Route Tool : Type} {extensions order : List (AgentExtension Route Tool)} {combined : Combined}

def levelsAt (extensions : List (AgentExtension Route Tool)) (key : String) : List Json :=
  extensions.filterMap fun extension => extension.evidence.bind (·.get? key)

def payloadsAt (extensions : List (AgentExtension Route Tool)) (key : String) : List (String × Json) :=
  extensions.flatMap fun extension => payloadEntries key extension.evidence

structure WellFormed (evidence : Option Envelope) : Prop where
  shaped : Shaped evidence
  payloads : ∀ key ∈ payloadKeys, payloadFits key evidence = true

structure Accepted (extensions : List (AgentExtension Route Tool)) : Prop where
  wellFormed : ∀ extension ∈ extensions, WellFormed extension.evidence
  agree : ∀ key ∈ payloadKeys, (payloadsAt extensions key).Pairwise payloadAgreement.Compatible
  opened : ∀ key ∈ completenessKeys, Opened incomplete isLevel (levelsAt extensions key)

theorem isLevel_incomplete : isLevel incomplete = true := by
  simp [isLevel, incomplete, checkLevel, levels, Except.isOk, Except.toBool]

theorem evidence_eq (extensions : List (AgentExtension Route Tool)) : evidence extensions =
    (extensions.map AgentExtension.evidence).foldlM addEnvelope .empty := by
  rw [evidence, foldlM_map]

theorem payloadsAt_agree_iff :
    (payloadAgreement.merge .empty (payloadsAt extensions key)).isSome ↔
      (payloadsAt extensions key).Pairwise payloadAgreement.Compatible := by
  rw [Agreement.merge_isSome_iff, and_iff_left_iff_imp]
  intro _ entry _ value found
  cases found

theorem through_payloads (payload : key ∈ payloadKeys)
    (shaped : ∀ extension ∈ extensions, Shaped extension.evidence) :
    through key none (extensions.map AgentExtension.evidence) =
      if extensions.all fun extension => payloadFits key extension.evidence then
        (payloadAgreement.merge .empty (payloadsAt extensions key)).map fun merged =>
          if extensions.any fun extension => reports key extension.evidence then some (.payloads merged)
          else none
      else none := by
  rw [through_payload payload (by simpa using shaped), all_map, flatMap_map, any_map]
  rfl

theorem through_levels (level : key ∈ completenessKeys)
    (shaped : ∀ extension ∈ extensions, Shaped extension.evidence) :
    through key none (extensions.map AgentExtension.evidence) =
      (settle incomplete isLevel none (levelsAt extensions key)).map (Option.map .value) := by
  have items : ∀ item ∈ extensions.map AgentExtension.evidence, Shaped item := by simpa using shaped
  have levels := through_level level items none
  rw [levelsIn, filterMap_map] at levels
  exact levels

theorem evidence_isOk_iff : (evidence extensions).isOk = true ↔ Accepted extensions := by
  have run := addAll_spec (extensions.map AgentExtension.evidence) .empty
  rw [← evidence_eq] at run
  have shapes : (∀ item ∈ extensions.map AgentExtension.evidence, Shaped item) ↔
      ∀ extension ∈ extensions, Shaped extension.evidence := by simp
  have opened {key : String} : (settle incomplete isLevel none (levelsAt extensions key)).isSome ↔
      Opened incomplete isLevel (levelsAt extensions key) :=
    StickyLast.settle_isSome_iff isLevel_incomplete (by simp)
  constructor
  · intro ok
    rcases run with finished | failed
    · obtain ⟨combined, -, shaped, kinds⟩ := finished
      rw [shapes] at shaped
      have payloads (key : String) (payload : key ∈ payloadKeys) :
          (extensions.all fun extension => payloadFits key extension.evidence) = true ∧
            (payloadAgreement.merge .empty (payloadsAt extensions key)).isSome := by
        have kind := kinds key
        rw [show (OrderedDict.empty : Combined).get? key = none from rfl,
          through_payloads payload shaped] at kind
        split at kind
        · rename_i fits
          obtain ⟨merged, whole, -⟩ := Option.map_eq_some_iff.mp kind
          exact ⟨fits, Option.isSome_of_eq_some whole⟩
        · cases kind
      refine ⟨?_, fun key payload => payloadsAt_agree_iff.mp (payloads key payload).2, ?_⟩
      · intro extension member
        exact ⟨shaped extension member, fun key payload =>
          all_eq_true.mp (payloads key payload).1 extension member⟩
      · intro key level
        have kind := kinds key
        rw [show (OrderedDict.empty : Combined).get? key = none from rfl, through_levels level shaped] at kind
        obtain ⟨left, settled, -⟩ := Option.map_eq_some_iff.mp kind
        exact opened.mp (Option.isSome_of_eq_some settled)
    · rw [failed.1] at ok
      cases ok
  · intro accepted
    have shaped := fun extension member => (accepted.wellFormed extension member).shaped
    rcases run with finished | failed
    · obtain ⟨combined, ran, -⟩ := finished
      rw [ran]
      rfl
    · obtain ⟨-, unshaped | missing⟩ := failed
      · obtain ⟨item, member, bad⟩ := unshaped
        exact absurd (shapes.mpr shaped item member) bad
      · obtain ⟨key, none⟩ := missing
        rw [show (OrderedDict.empty : Combined).get? key = Option.none from rfl] at none
        by_cases payload : key ∈ payloadKeys
        · obtain ⟨merged, whole⟩ := Option.isSome_iff_exists.mp
            (payloadsAt_agree_iff.mpr (accepted.agree key payload))
          have fits : (extensions.all fun extension => payloadFits key extension.evidence) = true :=
            all_eq_true.mpr fun extension member =>
              (accepted.wellFormed extension member).payloads key payload
          rw [through_payloads payload shaped, if_pos fits, whole] at none
          cases none
        · by_cases level : key ∈ completenessKeys
          · obtain ⟨left, settled⟩ := Option.isSome_iff_exists.mp (opened.mpr (accepted.opened key level))
            rw [through_levels level shaped, settled] at none
            cases none
          · have unknown : key ∉ payloadKeys ++ completenessKeys := by simp [payload, level]
            rw [through_unknown unknown (shapes.mpr shaped)] at none
            cases none

structure Combines (extensions : List (AgentExtension Route Tool)) (combined : Combined) : Prop where
  payloads : ∀ key ∈ payloadKeys, ∃ merged,
    payloadAgreement.merge .empty (payloadsAt extensions key) = some merged ∧ combined.get? key =
      if extensions.any fun extension => reports key extension.evidence then some (.payloads merged)
      else none
  levels : ∀ key ∈ completenessKeys, combined.get? key =
    (if incomplete ∈ levelsAt extensions key then some incomplete
      else (levelsAt extensions key).getLast?).map .value
  others : ∀ key, key ∉ payloadKeys ++ completenessKeys → combined.get? key = none

theorem evidence_combines (ran : evidence extensions = .ok combined) : Combines extensions combined := by
  have accepted : Accepted extensions := evidence_isOk_iff.mp (by rw [ran]; rfl)
  have shaped := fun extension member => (accepted.wellFormed extension member).shaped
  have kinds : ∀ key, through key none (extensions.map AgentExtension.evidence) =
      some (combined.get? key) := by
    have run := addAll_spec (extensions.map AgentExtension.evidence) .empty
    rw [← evidence_eq, ran] at run
    rcases run with finished | failed
    · obtain ⟨finish, same, -, kinds⟩ := finished
      cases same
      exact kinds
    · cases failed.1
  constructor
  · intro key payload
    have kind := kinds key
    rw [through_payloads payload shaped] at kind
    split at kind
    · obtain ⟨merged, whole, held⟩ := Option.map_eq_some_iff.mp kind
      exact ⟨merged, whole, held.symm⟩
    · cases kind
  · intro key level
    have kind := kinds key
    rw [through_levels level shaped, StickyLast.settle_eq isLevel_incomplete (by simp)
      (accepted.opened key level), Option.map_some, Option.or_none] at kind
    exact (Option.some.inj kind).symm
  · intro key unknown
    have kind := kinds key
    rw [through_unknown unknown (by simpa using shaped)] at kind
    exact (Option.some.inj kind).symm

end SourceLens.PluginExtensions
