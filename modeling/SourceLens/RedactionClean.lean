import SourceLens.ResponseRedaction

/-! What the redaction of a response leaves of the secrets: a text with a delimited secret is clean
afterwards when no long secret holds an asterisk and none in the text begins or ends outside the
alphabet of tokens; a key is left as it is. -/

namespace SourceLens.ResponseRedaction

open DelimitedSub List

variable {secrets words : List Text} {text result secret part : Text}

/-- The text is no secret, and no long secret is delimited in it. -/
def Clean (secrets : List Text) (text : Text) : Prop :=
  text ∉ secrets ∧ ∀ secret ∈ longSecrets secrets, ¬Delimited tokenChar secret text

def Blanks (secrets : List Text) (text result : Text) : Prop :=
  ∃ secret ∈ longSecrets secrets, Step tokenChar secret mark text result

def Redacts (secrets : List Text) (text result : Text) : Prop :=
  (text ∈ secrets ∧ result = mark) ∨ Relation.ReflTransGen (Blanks secrets) text result

theorem mark_filled : mark ≠ [] := by decide

theorem mark_plain : ∀ c ∈ mark, tokenChar c = false := by
  intro c member
  have same : c = '*' := by simpa [mark] using member
  rw [same]
  decide

theorem fresh_of_absent (absent : '*' ∉ part) : ∀ c ∈ part, c ∉ mark := by
  intro c member marked
  have same : c = '*' := by simpa [mark] using marked
  exact absent (same ▸ member)

theorem mem_longSecrets : secret ∈ longSecrets secrets ↔ secret ∈ secrets ∧ 4 ≤ secret.length := by
  simp [longSecrets]

theorem long_filled (long : secret ∈ longSecrets secrets) : secret ≠ [] := by
  have size := (mem_longSecrets.mp long).2
  exact ne_nil_of_length_pos (by omega)

def replaceAll (words : List Text) (text : Text) : Text :=
  words.foldl (fun redacted word => replace tokenChar word mark redacted) text

theorem redactText_secret (member : text ∈ secrets) : redactText secrets text = mark := by
  rw [redactText, if_pos (by simpa using member)]

theorem redactText_other (other : text ∉ secrets) :
    redactText secrets text = replaceAll (longSecrets secrets) text := by
  rw [redactText, if_neg (by simpa using other)]
  rfl

theorem replaceAll_clean (clean : ∀ word ∈ words, ¬Delimited tokenChar word text) :
    replaceAll words text = text := by
  induction words with
  | nil => rfl
  | cons word words ih =>
    have first := replace_clean mark (clean word mem_cons_self)
    calc
      replaceAll (word :: words) text = replaceAll words (replace tokenChar word mark text) := rfl
      _ = replaceAll words text := by rw [first]
      _ = text := ih fun other member => clean other (mem_cons_of_mem _ member)

theorem replaceAll_steps (known : ∀ word ∈ words, word ∈ longSecrets secrets) (text : Text) :
    Relation.ReflTransGen (Blanks secrets) text (replaceAll words text) := by
  induction words generalizing text with
  | nil => exact .refl
  | cons word words ih =>
    have long := known word mem_cons_self
    have first := replace_steps (long_filled long) mark_filled mark_plain text
    have single : Step tokenChar word mark ≤ Blanks secrets := fun _ _ step => ⟨word, long, step⟩
    have blanks := Relation.ReflTransGen.mono single text _ first
    exact blanks.trans (ih (fun other member => known other (mem_cons_of_mem _ member)) _)

theorem delimited_of_replaceAll (filled : ∀ word ∈ words, word ≠ []) (some_ : part ≠ [])
    (absent : '*' ∉ part) (bounded : part <:+: text → Bounded tokenChar part)
    (delimited : Delimited tokenChar part (replaceAll words text)) :
    Delimited tokenChar part text ∧ part ∉ words := by
  induction words generalizing text with
  | nil => exact ⟨delimited, not_mem_nil⟩
  | cons word words ih =>
    have wordFilled := filled word mem_cons_self
    have fresh := fresh_of_absent absent
    have later := ih (fun other member => filled other (mem_cons_of_mem _ member))
      (fun shown => bounded (infix_of_replace wordFilled mark_filled some_ fresh shown)) delimited
    have inner := infix_of_replace wordFilled mark_filled some_ fresh later.1.within
    have first := delimited_of_replace wordFilled mark_filled some_ fresh (bounded inner) later.1
    exact ⟨first.1, by simp [first.2, later.2]⟩

/-- A secret is replaced by a mark that is none; and where a long secret is delimited in another
text, no long secret holds an asterisk, and each that stands in the text has token characters at both
ends. -/
def TextSafe (secrets : List Text) (text : Text) : Prop :=
  (text ∈ secrets → mark ∉ secrets) ∧
  (text ∉ secrets → (∃ secret ∈ longSecrets secrets, Delimited tokenChar secret text) →
    ∀ secret ∈ longSecrets secrets, '*' ∉ secret ∧ (secret <:+: text → Bounded tokenChar secret))

theorem mark_clean (absent : mark ∉ secrets) : Clean secrets mark := by
  refine ⟨absent, ?_⟩
  intro secret long delimited
  have size := (mem_longSecrets.mp long).2
  have bound := delimited.within.length_le
  exact absurd (le_trans size bound) (by decide)

theorem blanks_marks (blanks : Blanks secrets text result) :
    ∃ front back, result = front ++ (mark ++ back) ∧ ∃ secret ∈ longSecrets secrets,
      text = front ++ (secret ++ back) := by
  obtain ⟨secret, long, step⟩ := blanks
  cases step with
  | one front back _ _ => exact ⟨front, back, rfl, secret, long, rfl⟩

theorem short_result (plain : ∀ secret ∈ longSecrets secrets, '*' ∉ secret)
    (steps : Relation.ReflTransGen (Blanks secrets) text result) (changed : result ≠ text)
    (short : result.length ≤ 3) : text ∈ secrets := by
  rcases steps.cases_tail with same | ⟨middle, earlier, last⟩
  · exact absurd same.symm (Ne.symm changed)
  · obtain ⟨front, back, shape, secret, long, before⟩ := blanks_marks last
    have bare : front = [] ∧ back = [] := by
      rw [shape] at short
      simp only [length_append] at short
      have size : mark.length = 3 := rfl
      exact ⟨length_eq_zero_iff.mp (by omega), length_eq_zero_iff.mp (by omega)⟩
    rw [bare.1, bare.2, nil_append, append_nil] at before
    rcases earlier.cases_tail with same | ⟨_, _, step⟩
    · rw [← same, before]
      exact (mem_longSecrets.mp long).1
    · obtain ⟨front, back, marked, -⟩ := blanks_marks step
      have star : '*' ∈ middle := by
        rw [marked]
        simp [mark]
      exact absurd (before ▸ star) (plain secret long)

theorem redactText_clean (safe : TextSafe secrets text) : Clean secrets (redactText secrets text) := by
  by_cases member : text ∈ secrets
  · rw [redactText_secret member]
    exact mark_clean (safe.1 member)
  · rw [redactText_other member]
    by_cases shown : ∃ secret ∈ longSecrets secrets, Delimited tokenChar secret text
    · have tame := safe.2 member shown
      have clean : ∀ secret ∈ longSecrets secrets,
          ¬Delimited tokenChar secret (replaceAll (longSecrets secrets) text) := by
        intro secret long delimited
        exact (delimited_of_replaceAll (fun word => long_filled) (long_filled long)
          (tame secret long).1 (tame secret long).2 delimited).2 long
      refine ⟨?_, clean⟩
      intro listed
      by_cases long : 4 ≤ (replaceAll (longSecrets secrets) text).length
      · exact clean _ (mem_longSecrets.mpr ⟨listed, long⟩) (delimited_self _)
      · obtain ⟨secret, known, delimited⟩ := shown
        have changed : replaceAll (longSecrets secrets) text ≠ text := by
          intro same
          exact clean secret known (same.symm ▸ delimited)
        exact member (short_result (fun secret long => (tame secret long).1)
          (replaceAll_steps (fun word => id) text) changed (by omega))
    · have none : ∀ secret ∈ longSecrets secrets, ¬Delimited tokenChar secret text :=
        fun secret long delimited => shown ⟨secret, long, delimited⟩
      rw [replaceAll_clean none]
      exact ⟨member, none⟩

theorem redactText_of_clean (clean : Clean secrets text) : redactText secrets text = text := by
  rw [redactText_other clean.1, replaceAll_clean clean.2]

theorem redactText_redacts (secrets : List Text) (text : Text) :
    Redacts secrets text (redactText secrets text) := by
  by_cases member : text ∈ secrets
  · exact .inl ⟨member, redactText_secret member⟩
  · rw [redactText_other member]
    exact .inr (replaceAll_steps (fun word => id) text)

/-- What of a payload can be seen: keys, texts, and the places of values under a sensitive key. -/
inductive Leaf
  | key (text : Text)
  | text (text : Text)
  | masked

mutual
def leaves : Json → List Leaf
  | .obj fields => leavesFields fields
  | .arr items => leavesItems items
  | .str text => [.text text.toList]
  | _ => []

def leavesItems : List Json → List Leaf
  | [] => []
  | item :: rest => leaves item ++ leavesItems rest

def leavesFields : List (String × Json) → List Leaf
  | [] => []
  | (key, value) :: rest =>
    .key key.toList :: ((if sensitiveKey key then [.masked] else leaves value) ++ leavesFields rest)
end

mutual
def strings : Json → List Text
  | .obj fields => stringsFields fields
  | .arr items => stringsItems items
  | .str text => [text.toList]
  | _ => []

def stringsItems : List Json → List Text
  | [] => []
  | item :: rest => strings item ++ stringsItems rest

def stringsFields : List (String × Json) → List Text
  | [] => []
  | (key, value) :: rest => key.toList :: (strings value ++ stringsFields rest)
end

mutual
def Masked : Json → Prop
  | .obj fields => MaskedFields fields
  | .arr items => MaskedItems items
  | _ => True

def MaskedItems : List Json → Prop
  | [] => True
  | item :: rest => Masked item ∧ MaskedItems rest

def MaskedFields : List (String × Json) → Prop
  | [] => True
  | (key, value) :: rest =>
    (if sensitiveKey key then value = .str (String.ofList mark) else Masked value) ∧
      MaskedFields rest
end

mutual
/-- The result is the payload, apart from secrets in its texts and the values under sensitive keys. -/
def Keeps (secrets : List Text) : Json → Json → Prop
  | .obj fields, .obj others => KeepsFields secrets fields others
  | .arr items, .arr others => KeepsItems secrets items others
  | .str text, .str other => Redacts secrets text.toList other.toList
  | payload, result => payload = result

def KeepsItems (secrets : List Text) : List Json → List Json → Prop
  | [], [] => True
  | item :: rest, other :: others => Keeps secrets item other ∧ KeepsItems secrets rest others
  | _, _ => False

def KeepsFields (secrets : List Text) : List (String × Json) → List (String × Json) → Prop
  | [], [] => True
  | (key, value) :: rest, (otherKey, other) :: others =>
    key = otherKey ∧ (sensitiveKey key = true ∨ Keeps secrets value other) ∧
      KeepsFields secrets rest others
  | _, _ => False
end

def shown (secrets : List Text) : Leaf → Text
  | .key text => text
  | .text text => redactText secrets text
  | .masked => mark

mutual
theorem strings_redact (secrets : List Text) : ∀ payload : Json,
    strings (redact secrets payload) = (leaves payload).map (shown secrets)
  | .obj fields => stringsFields_redact secrets fields
  | .arr items => stringsItems_redact secrets items
  | .str text => by simp [redact, strings, leaves, shown]
  | .null => rfl
  | .bool _ => rfl
  | .int _ => rfl
  | .float _ => rfl
  | .nonFinite _ => rfl

theorem stringsItems_redact (secrets : List Text) : ∀ items : List Json,
    stringsItems (redactItems secrets items) = (leavesItems items).map (shown secrets)
  | [] => rfl
  | item :: rest => by
    rw [redactItems, stringsItems, leavesItems, map_append, strings_redact secrets item,
      stringsItems_redact secrets rest]

theorem stringsFields_redact (secrets : List Text) : ∀ fields : List (String × Json),
    stringsFields (redactFields secrets fields) = (leavesFields fields).map (shown secrets)
  | [] => rfl
  | (key, value) :: rest => by
    rw [redactFields, stringsFields, leavesFields, map_cons, map_append,
      stringsFields_redact secrets rest]
    split
    · simp [strings, shown]
    · rw [strings_redact secrets value]
      rfl
end

mutual
theorem redact_masked (secrets : List Text) : ∀ payload : Json, Masked (redact secrets payload)
  | .obj fields => redactFields_masked secrets fields
  | .arr items => redactItems_masked secrets items
  | .str _ => trivial
  | .null => trivial
  | .bool _ => trivial
  | .int _ => trivial
  | .float _ => trivial
  | .nonFinite _ => trivial

theorem redactItems_masked (secrets : List Text) : ∀ items : List Json,
    MaskedItems (redactItems secrets items)
  | [] => trivial
  | item :: rest => ⟨redact_masked secrets item, redactItems_masked secrets rest⟩

theorem redactFields_masked (secrets : List Text) : ∀ fields : List (String × Json),
    MaskedFields (redactFields secrets fields)
  | [] => trivial
  | (key, value) :: rest => by
    refine ⟨?_, redactFields_masked secrets rest⟩
    split
    · rfl
    · exact redact_masked secrets value
end

mutual
theorem redact_keeps (secrets : List Text) : ∀ payload : Json,
    Keeps secrets payload (redact secrets payload)
  | .obj fields => redactFields_keeps secrets fields
  | .arr items => redactItems_keeps secrets items
  | .str text => by
    rw [redact, Keeps, String.toList_ofList]
    exact redactText_redacts secrets text.toList
  | .null => rfl
  | .bool _ => rfl
  | .int _ => rfl
  | .float _ => rfl
  | .nonFinite _ => rfl

theorem redactItems_keeps (secrets : List Text) : ∀ items : List Json,
    KeepsItems secrets items (redactItems secrets items)
  | [] => trivial
  | item :: rest => ⟨redact_keeps secrets item, redactItems_keeps secrets rest⟩

theorem redactFields_keeps (secrets : List Text) : ∀ fields : List (String × Json),
    KeepsFields secrets fields (redactFields secrets fields)
  | [] => trivial
  | (key, value) :: rest => by
    refine ⟨rfl, ?_, redactFields_keeps secrets rest⟩
    by_cases sensitive : sensitiveKey key = true
    · exact .inl sensitive
    · rw [if_neg sensitive]
      exact .inr (redact_keeps secrets value)
end

mutual
theorem redact_again (secrets : List Text) : ∀ payload : Json,
    (∀ text, .text text ∈ leaves payload → Clean secrets (redactText secrets text)) →
      redact secrets (redact secrets payload) = redact secrets payload
  | .obj fields => fun clean => congrArg Json.obj (redactFields_again secrets fields clean)
  | .arr items => fun clean => congrArg Json.arr (redactItems_again secrets items clean)
  | .str text => fun clean => by
    have stays := redactText_of_clean (clean text.toList (mem_singleton_self _))
    rw [redact, redact, String.toList_ofList, stays]
  | .null => fun _ => rfl
  | .bool _ => fun _ => rfl
  | .int _ => fun _ => rfl
  | .float _ => fun _ => rfl
  | .nonFinite _ => fun _ => rfl

theorem redactItems_again (secrets : List Text) : ∀ items : List Json,
    (∀ text, .text text ∈ leavesItems items → Clean secrets (redactText secrets text)) →
      redactItems secrets (redactItems secrets items) = redactItems secrets items
  | [] => fun _ => rfl
  | item :: rest => fun clean => by
    have first := redact_again secrets item fun text member =>
      clean text (mem_append_left _ member)
    have later := redactItems_again secrets rest fun text member =>
      clean text (mem_append_right _ member)
    rw [redactItems, redactItems, first, later]

theorem redactFields_again (secrets : List Text) : ∀ fields : List (String × Json),
    (∀ text, .text text ∈ leavesFields fields → Clean secrets (redactText secrets text)) →
      redactFields secrets (redactFields secrets fields) = redactFields secrets fields
  | [] => fun _ => rfl
  | (key, value) :: rest => fun clean => by
    have later := redactFields_again secrets rest fun text member =>
      clean text (mem_cons_of_mem _ (mem_append_right _ member))
    rw [redactFields, redactFields, later]
    by_cases sensitive : sensitiveKey key = true
    · simp [sensitive]
    · have first := redact_again secrets value fun text member =>
        clean text (mem_cons_of_mem _ (mem_append_left _ (by rwa [if_neg sensitive])))
      rw [if_neg sensitive, if_neg sensitive, first]
end

/-- No secret is left, the values under sensitive keys are masked, nothing else changes, and a second
redaction changes nothing. -/
structure Redacted (secrets : List Text) (payload result : Json) : Prop where
  clean : ∀ text ∈ strings result, Clean secrets text
  masked : Masked result
  kept : Keeps secrets payload result
  again : redact secrets result = result

def LeafSafe (secrets : List Text) : Leaf → Prop
  | .key text => Clean secrets text
  | .text text => TextSafe secrets text
  | .masked => mark ∉ secrets

def LeafNeeds (secrets : List Text) : Leaf → Prop
  | .key text => Clean secrets text
  | .text text => text ∈ secrets → mark ∉ secrets
  | .masked => mark ∉ secrets

theorem shown_clean {leaf : Leaf} (safe : LeafSafe secrets leaf) : Clean secrets (shown secrets leaf) := by
  cases leaf with
  | key text => exact safe
  | text text => exact redactText_clean safe
  | masked => exact mark_clean safe

theorem needs_of_clean {leaf : Leaf} (clean : Clean secrets (shown secrets leaf)) :
    LeafNeeds secrets leaf := by
  cases leaf with
  | key text => exact clean
  | masked => exact clean.1
  | text text =>
    intro member
    rw [shown, redactText_secret member] at clean
    exact clean.1

/-- A payload whose keys are clean and whose texts are safe is redacted; a key that is not clean, or a
mark that is a secret, is left. -/
theorem redacted_of_safe (str : Json → String) (payload : Json) (secretValues : List Json) :
    ((∀ leaf ∈ leaves payload, LeafSafe (secretTexts str secretValues) leaf) →
      Redacted (secretTexts str secretValues) payload
        (redactSkillApiPayload str payload secretValues)) ∧
    (Redacted (secretTexts str secretValues) payload
        (redactSkillApiPayload str payload secretValues) →
      ∀ leaf ∈ leaves payload, LeafNeeds (secretTexts str secretValues) leaf) := by
  rw [redactSkillApiPayload]
  constructor
  · intro safe
    constructor
    · intro text member
      rw [strings_redact] at member
      obtain ⟨leaf, listed, rfl⟩ := mem_map.mp member
      exact shown_clean (safe leaf listed)
    · exact redact_masked _ payload
    · exact redact_keeps _ payload
    · exact redact_again _ payload fun text member => redactText_clean (safe _ member)
  · intro redacted leaf listed
    apply needs_of_clean
    apply redacted.clean
    rw [strings_redact]
    exact mem_map_of_mem listed

def plainStr : Json → String
  | .str text => text
  | _ => ""

def noteWith (text : String) : Json := .obj [("note", .str text), ("authToken", .str "zzz")]

/-- A secret between blanks is replaced, and the value of a token. -/
theorem note_redacted : Redacted (secretTexts plainStr [.str "sk-12"]) (noteWith "id sk-12 ok")
    (redactSkillApiPayload plainStr (noteWith "id sk-12 ok") [.str "sk-12"]) := by
  apply (redacted_of_safe plainStr (noteWith "id sk-12 ok") [.str "sk-12"]).1
  have seen : leaves (noteWith "id sk-12 ok") =
      [.key "note".toList, .text "id sk-12 ok".toList, .key "authToken".toList, .masked] := by rfl
  have known : secretTexts plainStr [.str "sk-12"] = ["sk-12".toList] := by rfl
  intro leaf member
  rw [seen] at member
  rw [known]
  simp only [mem_cons, not_mem_nil, or_false] at member
  rcases member with rfl | rfl | rfl | rfl
  · exact ⟨by decide, by decide⟩
  · refine ⟨fun _ => by decide, fun _ _ secret long => ?_⟩
    obtain rfl := mem_singleton.mp (mem_longSecrets.mp long).1
    exact ⟨by decide, fun _ => ⟨by decide, by decide⟩⟩
  · exact ⟨by decide, by decide⟩
  · exact (by decide : mark ∉ ["sk-12".toList])

/-- A secret that is a key is left, and so is the second of two that share a blank edge. -/
theorem secrets_left :
    ¬Redacted (secretTexts plainStr [.str "sk-12"]) (.obj [("sk-12", .null)])
      (redactSkillApiPayload plainStr (.obj [("sk-12", .null)]) [.str "sk-12"]) ∧
    ¬Redacted (secretTexts plainStr [.str " abc"]) (.str " abc abc")
      (redactSkillApiPayload plainStr (.str " abc abc") [.str " abc"]) := by
  constructor
  · intro redacted
    exact (redacted.clean "sk-12".toList (mem_singleton_self _)).1 (mem_singleton_self _)
  · intro redacted
    have left : strings (redactSkillApiPayload plainStr (.str " abc abc") [.str " abc"]) =
        ["*** abc".toList] := by rfl
    have clean := redacted.clean "*** abc".toList (by rw [left]; exact mem_singleton_self _)
    exact clean.2 " abc".toList (by decide) (by decide)

end SourceLens.ResponseRedaction
