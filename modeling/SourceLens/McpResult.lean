import SourceLens.Library.JsonText

/-! The bound on what a remote tool returns (`mcp_tools.py`): a result is cut to a number of
encoded characters before a model reads it. -/

namespace SourceLens.McpResult

open List
open JsonText (dumps escapeChar literal)

abbrev Text := List Char

variable (floatText : ℚ → Text)

/-- `_json_size` -/
def jsonSize (value : Json) : Int := (dumps floatText value).length

/-- `str(value)` of what is neither text nor a container. -/
def strText : Json → Text
  | .null => ['N', 'o', 'n', 'e']
  | .bool true => ['T', 'r', 'u', 'e']
  | .bool false => ['F', 'a', 'l', 's', 'e']
  | .int value => (toString value).toList
  | .float value => floatText value
  | .nonFinite name =>
    if name = "NaN" then ['n', 'a', 'n']
    else if name = "Infinity" then ['i', 'n', 'f']
    else ['-', 'i', 'n', 'f']
  | .str value => value.toList
  | .arr _ | .obj _ => []

/-! ### `_fit_bounded_text` -/

def marker : Text := "\n…[truncated]…\n".toList

/-- The head and the tail of a text around the marker, `middle` characters of it in all. -/
def headTail (text : Text) (middle : Nat) : Text :=
  let head := middle * 3 / 5
  text.take head ++ marker ++ text.drop (text.length - (middle - head))

/-- The search for the longest slice; `bound` is one more than `high`. -/
def longestSlice (fits : Text → Bool) (text best : Text) (low bound : Nat) : Text :=
  if low < bound then
    let middle := (low + (bound - 1)) / 2
    if fits (headTail text middle) then
      longestSlice fits text (headTail text middle) (middle + 1) bound
    else longestSlice fits text best low middle
  else best
termination_by bound - low
decreasing_by all_goals omega

def fitBoundedText (text : Text) (fits : Text → Bool) : Text :=
  if fits text then text
  else if !fits marker then []
  else longestSlice fits text marker 0 (text.length + 1)

/-! ### `_bound_mcp_result` -/

def fits (limit : Int) (value : Json) : Bool := decide (jsonSize floatText value ≤ limit)

/-- What one more item of a container may take. -/
def remaining (limit : Int) (bounded : Json) (overhead : Int) (first : Bool) : Int :=
  limit - jsonSize floatText bounded - overhead - if first then 0 else 1

def field (key : String) (text : Text) : String × Json := (key, .str (String.ofList text))

mutual
/-- The bounded value; `limit` is at least zero. -/
def boundValue (limit : Int) : Json → Json
  | .arr items =>
    if fits floatText limit (.arr items) then .arr items else .arr (boundItems limit [] items)
  | .obj fields =>
    if fits floatText limit (.obj fields) then .obj fields else .obj (boundFields limit [] fields)
  | .str value =>
    if fits floatText limit (.str value) then .str value
    else .str (String.ofList (value.toList.take (limit - 2).toNat))
  | value =>
    if fits floatText limit value then value
    else .str (String.ofList ((strText floatText value).take limit.toNat))

def boundItems (limit : Int) (bounded : List Json) : List Json → List Json
  | [] => bounded
  | item :: rest =>
    let left := remaining floatText limit (.arr bounded) 2 bounded.isEmpty
    if left ≤ 0 then bounded
    else
      let candidate := boundValue left item
      if fits floatText limit (.arr (bounded ++ [candidate])) then
        boundItems limit (bounded ++ [candidate]) rest
      else bounded

def boundFields (limit : Int) (bounded : List (String × Json)) :
    List (String × Json) → List (String × Json)
  | [] => bounded
  | (key, item) :: rest =>
    let left := remaining floatText limit (.obj bounded) ((literal key).length + 2) bounded.isEmpty
    if left ≤ 0 then bounded
    else
      let candidate := boundValue left item
      if fits floatText limit (.obj (bounded ++ [(key, candidate)])) then
        boundFields limit (bounded ++ [(key, candidate)]) rest
      else
        match item with
        | .str text =>
          let slice := fitBoundedText text.toList fun slice =>
            fits floatText limit (.obj (bounded ++ [field key slice]))
          if slice.isEmpty then bounded else boundFields limit (bounded ++ [field key slice]) rest
        | _ => bounded
end

/-- `_bound_mcp_result`: the value and whether it was cut. -/
def boundMcpResult (limit : Int) (value : Json) : Json × Bool :=
  (boundValue floatText (max limit 0) value, !fits floatText (max limit 0) value)

def isContainer : Json → Bool
  | .arr _ | .obj _ => true
  | _ => false

def isText : Json → Bool
  | .str _ => true
  | _ => false

/-- The slices of a text: its head, or a head and a tail around the marker. -/
inductive Slice (text : Text) : Text → Prop
  | head (count : Nat) : Slice text (text.take count)
  | headTail (head tail : Nat) : head + tail ≤ text.length →
      Slice text (text.take head ++ marker ++ text.drop (text.length - tail))

mutual
/-- What stands for a value in a cut result. With `asText`, the head of the text of a number,
a boolean or null may stand for it. -/
inductive Kept (asText : Bool) : Json → Json → Prop
  | whole (value : Json) : Kept asText value value
  | slice (text : String) (part : Text) : Slice text.toList part →
      Kept asText (.str text) (.str (String.ofList part))
  | items (items kept : List Json) : KeptItems asText items kept → Kept asText (.arr items) (.arr kept)
  | fields (fields kept : List (String × Json)) : KeptFields asText fields kept →
      Kept asText (.obj fields) (.obj kept)
  | scalar (value : Json) (count : Nat) : asText = true → isContainer value = false →
      isText value = false →
      Kept asText value (.str (String.ofList ((strText floatText value).take count)))

/-- What stands for a prefix of the items. -/
inductive KeptItems (asText : Bool) : List Json → List Json → Prop
  | nil (items : List Json) : KeptItems asText items []
  | cons (item kept : Json) (items others : List Json) : Kept asText item kept →
      KeptItems asText items others → KeptItems asText (item :: items) (kept :: others)

/-- What stands for a prefix of the fields, under their keys. -/
inductive KeptFields (asText : Bool) : List (String × Json) → List (String × Json) → Prop
  | nil (fields : List (String × Json)) : KeptFields asText fields []
  | cons (key : String) (item kept : Json) (fields others : List (String × Json)) :
      Kept asText item kept → KeptFields asText fields others →
      KeptFields asText ((key, item) :: fields) ((key, kept) :: others)
end

variable {floatText} {limit : Int}

theorem longestSlice_slice (fits : Text → Bool) (text best : Text) (low bound : Nat)
    (high : bound ≤ text.length + 1) (found : Slice text best ∧ fits best = true) :
    Slice text (longestSlice fits text best low bound) ∧
      fits (longestSlice fits text best low bound) = true := by
  fun_induction longestSlice fits text best low bound with
  | case1 best low bound inside middle fitting ih =>
    exact ih high ⟨.headTail _ _ (by omega), fitting⟩
  | case2 best low bound inside middle large ih => exact ih (by omega) found
  | case3 best low bound empty => exact found

theorem fitBoundedText_slice (text : Text) (fits : Text → Bool)
    (filled : (fitBoundedText text fits).isEmpty = false) :
    Slice text (fitBoundedText text fits) ∧ fits (fitBoundedText text fits) = true := by
  unfold fitBoundedText at filled ⊢
  split at filled
  · rename_i whole
    rw [if_pos whole]
    have all : Slice text (text.take text.length) := .head text.length
    rw [take_length] at all
    exact ⟨all, whole⟩
  · rename_i large
    rw [if_neg large]
    split at filled
    · cases filled
    · rename_i room
      rw [if_neg room]
      rw [Bool.not_eq_true, Bool.not_eq_false'] at room
      apply longestSlice_slice fits text marker 0 _ le_rfl
      have none : Slice text (text.take 0 ++ marker ++ text.drop (text.length - 0)) :=
        .headTail 0 0 (Nat.zero_le _)
      rw [Nat.sub_zero, drop_length, append_nil] at none
      exact ⟨none, room⟩

/-- What one field adds: nothing, and the rest of the object goes with it, or a value that
still fits. -/
theorem boundFields_cons (limit : Int) (bounded : List (String × Json)) (key : String) (item : Json)
    (rest : List (String × Json)) :
    boundFields floatText limit bounded ((key, item) :: rest) = bounded ∨
      ∃ kept, fits floatText limit (.obj (bounded ++ [(key, kept)])) = true ∧
        boundFields floatText limit bounded ((key, item) :: rest) =
          boundFields floatText limit (bounded ++ [(key, kept)]) rest ∧
        ((∃ left, kept = boundValue floatText left item) ∨
          ∃ text part, item = .str text ∧ Slice text.toList part ∧
            kept = .str (String.ofList part)) := by
  rw [boundFields.eq_def]
  dsimp only
  split
  · exact .inl rfl
  · split
    · exact .inr ⟨_, by assumption, rfl, .inl ⟨_, rfl⟩⟩
    · split
      · rename_i text _
        split
        · exact .inl rfl
        · rename_i filled
          have slice := fitBoundedText_slice _ _ (Bool.eq_false_iff.mpr filled)
          exact .inr ⟨_, slice.2, rfl, .inr ⟨text, _, rfl, slice.1, rfl⟩⟩
      · exact .inl rfl

mutual
theorem kept_value : ∀ (value : Json) (limit : Int),
    Kept floatText true value (boundValue floatText limit value)
  | .arr items, limit => by
    rw [boundValue]
    split
    · exact .whole _
    · rcases kept_items items limit [] with ⟨kept, whole, are⟩
      rw [whole]
      exact .items items kept are
  | .obj fields, limit => by
    rw [boundValue]
    split
    · exact .whole _
    · rcases kept_fields fields limit [] with ⟨kept, whole, are⟩
      rw [whole]
      exact .fields fields kept are
  | .str value, limit => by
    rw [boundValue]
    split
    · exact .whole _
    · exact .slice value _ (.head _)
  | .null, limit | .bool _, limit | .int _, limit | .float _, limit | .nonFinite _, limit => by
    rw [boundValue]
    · split
      · exact .whole _
      · exact .scalar _ _ rfl rfl rfl
    all_goals nofun

theorem kept_items : ∀ (items : List Json) (limit : Int) (bounded : List Json),
    ∃ kept, boundItems floatText limit bounded items = bounded ++ kept ∧
      KeptItems floatText true items kept
  | [], limit, bounded => ⟨[], (append_nil bounded).symm, .nil _⟩
  | item :: rest, limit, bounded => by
    have stop : ∃ kept, bounded = bounded ++ kept ∧ KeptItems floatText true (item :: rest) kept :=
      ⟨[], (append_nil bounded).symm, .nil _⟩
    rw [boundItems]
    dsimp only
    split
    · exact stop
    · split
      · rcases kept_items rest limit _ with ⟨kept, whole, are⟩
        rw [whole, append_assoc]
        exact ⟨_, rfl, .cons item _ rest kept (kept_value item _) are⟩
      · exact stop

theorem kept_fields : ∀ (fields : List (String × Json)) (limit : Int)
    (bounded : List (String × Json)),
    ∃ kept, boundFields floatText limit bounded fields = bounded ++ kept ∧
      KeptFields floatText true fields kept
  | [], limit, bounded => ⟨[], (append_nil bounded).symm, .nil _⟩
  | (key, item) :: rest, limit, bounded => by
    rcases boundFields_cons limit bounded key item rest with stop | ⟨next, -, goes, from'⟩
    · exact ⟨[], by rw [stop, append_nil], .nil _⟩
    · rcases kept_fields rest limit (bounded ++ [(key, next)]) with ⟨kept, whole, are⟩
      refine ⟨(key, next) :: kept, by rw [goes, whole, append_assoc]; rfl, ?_⟩
      rcases from' with ⟨left, rfl⟩ | ⟨text, part, rfl, slice, rfl⟩
      · exact .cons key item _ rest kept (kept_value item left) are
      · exact .cons key _ _ rest kept (.slice text part slice) are
end

theorem boundItems_fits : ∀ items bounded, fits floatText limit (.arr bounded) = true →
    fits floatText limit (.arr (boundItems floatText limit bounded items)) = true := by
  intro items
  induction items with
  | nil =>
    intro bounded small
    exact small
  | cons item rest ih =>
    intro bounded small
    rw [boundItems]
    dsimp only
    split
    · exact small
    · split
      · exact ih _ (by assumption)
      · exact small

theorem boundFields_fits : ∀ fields bounded, fits floatText limit (.obj bounded) = true →
    fits floatText limit (.obj (boundFields floatText limit bounded fields)) = true := by
  intro fields
  induction fields with
  | nil =>
    intro bounded small
    exact small
  | cons field rest ih =>
    intro bounded small
    rcases boundFields_cons limit bounded field.1 field.2 rest with stop | ⟨next, fitting, goes, -⟩
    · rwa [stop]
    · rw [goes]
      exact ih _ fitting

theorem container_fits (atLeast : 2 ≤ limit) (value : Json) (container : isContainer value = true) :
    fits floatText limit (boundValue floatText limit value) = true := by
  have empty : fits floatText limit (.arr []) = true ∧ fits floatText limit (.obj []) = true := by
    constructor
    · exact decide_eq_true atLeast
    · exact decide_eq_true atLeast
  cases value with
  | arr items =>
    rw [boundValue]
    split
    · assumption
    · exact boundItems_fits items [] empty.1
  | obj fields =>
    rw [boundValue]
    split
    · assumption
    · exact boundFields_fits fields [] empty.2
  | _ => cases container

theorem text_fits (atLeast : 2 ≤ limit) (text : String)
    (plain : ∀ c ∈ text.toList, escapeChar c = [c]) :
    fits floatText limit (boundValue floatText limit (.str text)) = true := by
  rw [boundValue]
  split
  · assumption
  · have same : (text.toList.take (limit - 2).toNat).flatMap escapeChar =
        text.toList.take (limit - 2).toNat := by
      rw [flatMap_congr fun c member => plain c (mem_of_mem_take member)]
      exact flatMap_singleton' _
    apply decide_eq_true
    rw [jsonSize, dumps, literal, String.toList_ofList, same]
    simp only [cons_append, length_cons, length_append, length_nil,
      length_take]
    omega

theorem boundValue_self (value : Json) (small : fits floatText limit value = true) :
    boundValue floatText limit value = value := by
  cases value <;> rw [boundValue] <;> first | exact if_pos small | nofun

theorem boundValue_cut (atLeast : 2 ≤ limit) (value : Json) (plain : isText value = false)
    (large : fits floatText limit value = false) : boundValue floatText limit value ≠ value := by
  intro same
  by_cases container : isContainer value = true
  · have small := @container_fits floatText limit atLeast value container
    rw [same, large] at small
    cases small
  · cases value <;> simp_all [isText, isContainer, boundValue]

/-- A result is unchanged where it fits, and so told; else it is cut, and what is cut keeps a
prefix of every list and object and slices of its texts. A list, an object or a text without
escapes is then within the limit. -/
theorem boundMcpResult_bounded (floatText : ℚ → Text) (limit : Int) (atLeast : 2 ≤ limit)
    (value : Json) :
    ((boundMcpResult floatText limit value).2 = false ↔ jsonSize floatText value ≤ limit) ∧
    (jsonSize floatText value ≤ limit → (boundMcpResult floatText limit value).1 = value) ∧
    (isText value = false → (boundMcpResult floatText limit value).1 = value →
      jsonSize floatText value ≤ limit) ∧
    ((isContainer value = true ∨
        ∃ text, value = .str text ∧ ∀ c ∈ text.toList, escapeChar c = [c]) →
      jsonSize floatText (boundMcpResult floatText limit value).1 ≤ limit) ∧
    Kept floatText true value (boundMcpResult floatText limit value).1 := by
  have positive : max limit 0 = limit := by omega
  rw [boundMcpResult, positive]
  refine ⟨by simp [fits], fun small => boundValue_self value (decide_eq_true small), ?_, ?_,
    kept_value value limit⟩
  · intro plain same
    by_contra large
    exact boundValue_cut atLeast value plain (decide_eq_false large) same
  · rintro (container | ⟨text, rfl, plain⟩)
    · exact of_decide_eq_true (container_fits atLeast value container)
    · exact of_decide_eq_true (text_fits atLeast text plain)

def sampleFloat (_ : ℚ) : Text := ['0', '.', '0']

def sampleResult : Json := .obj [("text", .str "a\nb"), ("more", .arr [.null])]

theorem sampleResult_bounded :
    jsonSize sampleFloat (boundMcpResult sampleFloat 20 sampleResult).1 ≤ 20 ∧
      Kept sampleFloat true sampleResult (boundMcpResult sampleFloat 20 sampleResult).1 := by
  have bounded := boundMcpResult_bounded sampleFloat 20 (by decide) sampleResult
  exact ⟨bounded.2.2.2.1 (.inl rfl), bounded.2.2.2.2⟩

theorem kept_number (value kept : Json) (stands : Kept floatText false value kept)
    (inner : isContainer value = false) (plain : isText value = false) : kept = value := by
  cases stands with
  | whole => rfl
  | slice => cases plain
  | items | fields => cases inner
  | scalar _ _ asText => cases asText

/-- The first item of a list is a number that does not fit: its text is cut. -/
theorem leading_number_cut :
    boundMcpResult sampleFloat 8 (.arr [.int 123456789]) = (.arr [.str "1234"], true) ∧
      ¬Kept sampleFloat false (.arr [.int 123456789]) (.arr [.str "1234"]) := by
  constructor
  · have text : boundMcpResult sampleFloat 8 (.arr [.int 123456789]) ==
        (.arr [.str "1234"], true) := by decide +kernel
    exact eq_of_beq text
  · intro kept
    cases kept with
    | items _ _ items =>
      cases items with
      | cons _ _ _ _ item _ => exact absurd (kept_number _ _ item rfl rfl) nofun

end SourceLens.McpResult
