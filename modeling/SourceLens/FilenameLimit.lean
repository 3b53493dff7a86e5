import Mathlib.Data.List.Chain
import SourceLens.Library.Utf8
import SourceLens.PathRules

/-! Safe filenames of at most so many bytes: `safe_filename` with `max_bytes`. -/

namespace SourceLens.PathRules

open List
open PyText (isSpace strip stripRight stripRight_begins strip_within strip_opens stripRight_closes
  strip_self)
open PosixPath (Name lastName suffix)
open Utf8 (encode decodeIgnore)

def truncateFilename (value : Name) (maxBytes : Int) : Name :=
  let limit := (max maxBytes 1).toNat
  if (encode value).length ≤ limit then value
  else
    let ending := suffix (lastName value)
    let kept := if limit ≤ (encode ending).length then [] else ending
    let budget := limit - (encode kept).length
    let stem := value.take (value.length - ending.length)
    let truncated := stripRight dotOrSpace (decodeIgnore ((encode stem).take budget))
    (if truncated = [] then decodeIgnore ((encode fallbackName).take budget) else truncated) ++ kept

/-- `safe_filename` with a limit and the default fallback, on a name in which `none` is a lone
surrogate: the cleaning keeps it, and no encoding of it exists. -/
def safeFilenameWithin (value : List (Option Char)) (maxBytes : Int) : Option Name :=
  (value.mapM id).map fun text => truncateFilename (safeFilename text) maxBytes

/-- A visible path component without separators and C0 control characters. -/
structure Safe (maxBytes : Int) (name : Name) : Prop where
  filled : name ≠ []
  component : name ≠ ['.'] ∧ name ≠ ['.', '.']
  plain : ∀ c ∈ name, c ≠ '/' ∧ c ≠ '\\' ∧ 32 ≤ c.toNat
  short : (encode name).length ≤ (max maxBytes 1).toNat

structure Clean (text : List Char) : Prop where
  valid : ∀ c ∈ text, invalidFilenameChar c = false
  spaces : ∀ c ∈ text, isSpace c = true → c = ' '
  single : text.IsChain fun one other => ¬(isSpace one = true ∧ isSpace other = true)
  opens : ∀ c ∈ text.head?, dotOrSpace c = false
  closes : ∀ c ∈ text.getLast?, dotOrSpace c = false

section Cleaning

variable {drop matching : Char → Bool} {replacement : Char} {text front back : List Char}

theorem subRuns_self (inRun : Bool) (marks : ∀ c ∈ text, matching c = true → c = replacement)
    (single : text.IsChain fun one other => ¬(matching one = true ∧ matching other = true))
    (start : inRun = true → ∀ c ∈ text.head?, matching c = false) :
    subRuns matching replacement inRun text = text := by
  induction text generalizing inRun with
  | nil => rfl
  | cons c rest ih =>
    have later := ih (matching c) (fun d member => marks d (mem_cons_of_mem _ member))
      single.tail fun found d next => by simpa [found] using single.rel_head? next
    rw [subRuns]
    cases marked : matching c with
    | false =>
      rw [marked] at later
      rw [if_neg Bool.false_ne_true, later]
    | true =>
      rw [marked] at later
      cases inRun with
      | false => rw [if_pos rfl, if_neg Bool.false_ne_true, later, marks c mem_cons_self marked]
      | true => exact absurd (start rfl c rfl) (by simp [marked])

theorem subRuns_single (marked : matching replacement = true) (inRun : Bool) (text : List Char) :
    (subRuns matching replacement inRun text).IsChain
        (fun one other => ¬(matching one = true ∧ matching other = true)) ∧
      (inRun = true → ∀ c ∈ (subRuns matching replacement inRun text).head?, matching c = false) := by
  induction text generalizing inRun with
  | nil => exact ⟨.nil, fun _ _ no => by cases no⟩
  | cons c rest ih =>
    rw [subRuns]
    cases found : matching c with
    | false =>
      rw [if_neg Bool.false_ne_true]
      refine ⟨isChain_cons.mpr ⟨fun d _ both => by simp [found] at both, (ih false).1⟩, ?_⟩
      intro _ d first
      cases first
      exact found
    | true =>
      rw [if_pos rfl]
      cases inRun with
      | true => exact ih true
      | false =>
        rw [if_neg Bool.false_ne_true]
        refine ⟨isChain_cons.mpr ⟨?_, (ih true).1⟩, fun no => by cases no⟩
        intro d next both
        exact absurd both.2 (by simp [(ih true).2 rfl d next])

theorem Clean.prefix (clean : Clean text) (begins : front <+: text)
    (closes : ∀ c ∈ front.getLast?, dotOrSpace c = false) : Clean front := by
  refine ⟨fun c member => clean.valid c (begins.subset member),
    fun c member => clean.spaces c (begins.subset member), clean.single.prefix begins, ?_, closes⟩
  intro c first
  obtain ⟨more, rfl⟩ := begins
  cases front with
  | nil => cases first
  | cons d rest => exact clean.opens c first

theorem Clean.append (clean : Clean text) (ends : back <:+ text) (head : Clean front)
    (filled : front ≠ []) : Clean (front ++ back) := by
  constructor
  · intro c member
    rcases mem_append.mp member with early | late
    · exact head.valid c early
    · exact clean.valid c (ends.subset late)
  · intro c member
    rcases mem_append.mp member with early | late
    · exact head.spaces c early
    · exact clean.spaces c (ends.subset late)
  · refine head.single.append (clean.single.suffix ends) ?_
    intro c last d _ both
    have space := head.spaces c (mem_of_getLast? last) both.1
    exact absurd (head.closes c last) (by simp [space, dotOrSpace])
  · intro c first
    rw [List.head?_append_of_ne_nil _ filled] at first
    exact head.opens c first
  · intro c last
    cases back with
    | nil =>
      rw [append_nil] at last
      exact head.closes c last
    | cons d rest =>
      obtain ⟨more, rfl⟩ := ends
      rw [List.getLast?_append_of_ne_nil _ (cons_ne_nil d rest)] at last
      exact clean.closes c (by rwa [List.getLast?_append_of_ne_nil _ (cons_ne_nil d rest)])

theorem fallback_plain : ∀ c ∈ fallbackName,
    isSpace c = false ∧ invalidFilenameChar c = false ∧ dotOrSpace c = false :=
  @of_decide_eq_true _ (List.decidableBAll _ _) rfl

theorem fallback_clean : Clean fallbackName where
  valid c member := (fallback_plain c member).2.1
  spaces c member space := by
    rw [(fallback_plain c member).1] at space
    cases space
  single := by decide
  opens c first := (fallback_plain c (mem_of_head? first)).2.2
  closes c last := (fallback_plain c (mem_of_getLast? last)).2.2

theorem safeFilename_clean (text : List Char) : Clean (safeFilename text) ∧ safeFilename text ≠ [] := by
  rw [safeFilename]
  split
  · exact ⟨fallback_clean, by decide⟩
  · rename_i usual
    refine ⟨⟨?_, ?_, ?_, ?_, stripRight_closes⟩, fun empty => usual (by rw [empty]; decide)⟩
    · intro c member
      rcases mem_subRuns _ _ _ _ _ ((strip_within _ _).subset member) with rfl | ⟨inside, -⟩
      · rfl
      · rcases mem_subRuns _ _ _ _ _ inside with rfl | ⟨-, valid⟩
        · rfl
        · exact valid
    · intro c member space
      rcases mem_subRuns _ _ _ _ _ ((strip_within _ _).subset member) with same | ⟨-, other⟩
      · exact same
      · rw [other] at space
        cases space
    · have single := (@subRuns_single isSpace ' ' rfl false
        (subRuns invalidFilenameChar '-' false (strip isSpace text))).1
      obtain ⟨front, back, whole⟩ := strip_within dotOrSpace (subRuns isSpace ' ' false
        (subRuns invalidFilenameChar '-' false (strip isSpace text)))
      rw [← whole] at single
      exact single.left_of_append.right_of_append
    · exact strip_opens

theorem safeFilename_self (clean : Clean text) (filled : text ≠ []) : safeFilename text = text := by
  have unspaced (c : Char) (member : c ∈ text) (visible : dotOrSpace c = false) : isSpace c = false := by
    cases space : isSpace c with
    | false => rfl
    | true =>
      rw [clean.spaces c member space] at visible
      cases visible
  have stripped : strip isSpace text = text :=
    strip_self (fun c first => unspaced c (mem_of_mem_head? first) (clean.opens c first))
      fun c last => unspaced c (mem_of_getLast? last) (clean.closes c last)
  have replaced : subRuns invalidFilenameChar '-' false text = text := by
    apply subRuns_self
    · intro c member invalid
      rw [clean.valid c member] at invalid
      cases invalid
    · apply clean.single.imp_of_mem_imp
      intro one _ early _ _ both
      rw [clean.valid one early] at both
      cases both.1
    · rintro ⟨⟩
  have spaced : subRuns isSpace ' ' false text = text :=
    subRuns_self false clean.spaces clean.single (by rintro ⟨⟩)
  rw [safeFilename, stripped, replaced, spaced, strip_self clean.opens clean.closes, if_neg]
  intro short
  simp only [mem_cons, not_mem_nil, or_false] at short
  rcases short with rfl | rfl | rfl
  · exact filled rfl
  · exact absurd (clean.opens '.' rfl) (by decide)
  · exact absurd (clean.opens '.' rfl) (by decide)

end Cleaning

theorem encode_append (front back : List Char) : encode (front ++ back) = encode front ++ encode back :=
  flatMap_append

theorem encode_shorter {front text : List Char} (begins : front <+: text) :
    (encode front).length ≤ (encode text).length := by
  obtain ⟨more, rfl⟩ := begins
  rw [encode_append, length_append]
  omega

theorem decodeIgnore_prefix (text : List Char) (count : Nat) :
    decodeIgnore ((encode text).take count) <+: text ∧
      (encode (decodeIgnore ((encode text).take count))).length ≤ count := by
  obtain ⟨front, back, rfl, decoded, short, -⟩ := Utf8.decodeIgnore_take text count
  rw [decoded]
  exact ⟨⟨back, rfl⟩, short⟩

theorem fallback_filled {count : Nat} (some : 0 < count) :
    decodeIgnore ((encode fallbackName).take count) ≠ [] := by
  obtain ⟨front, back, whole, decoded, -, full⟩ := Utf8.decodeIgnore_take fallbackName count
  rw [decoded]
  rintro rfl
  have first : 'd' ∈ back.head? := by
    rw [nil_append] at whole
    rw [← whole]
    rfl
  have beyond := full 'd' first
  have size : Char.utf8Size 'd' = 1 := by decide
  simp only [encode, flatMap_nil, length_nil] at beyond
  omega

theorem suffix_suffix (name : Name) : suffix name <:+ name := by
  rw [suffix]
  split
  · exact drop_suffix _ _
  · exact nil_suffix

theorem lastName_clean {value : Name} (clean : Clean value) (filled : value ≠ []) :
    lastName value = value := by
  have slashless : '/' ∉ value := fun member => absurd (clean.valid '/' member) (by decide)
  have undotted : value ≠ ['.'] := by
    rintro rfl
    exact absurd (clean.opens '.' rfl) (by decide)
  have named : ∀ part ∈ [value], PosixPath.Named part := by
    intro part member
    rw [mem_singleton.mp member]
    exact ⟨filled, slashless, undotted⟩
  have parts := PosixPath.parts_asPosix [value] named (cons_ne_nil _ _)
  have same : PosixPath.asPosix [value] = value := by simp [PosixPath.asPosix]
  rw [same] at parts
  rw [lastName, parts]
  rfl

theorem truncateFilename_clean {value : Name} (clean : Clean value) (filled : value ≠ [])
    (maxBytes : Int) : Clean (truncateFilename value maxBytes) ∧ truncateFilename value maxBytes ≠ [] ∧
      (encode (truncateFilename value maxBytes)).length ≤ (max maxBytes 1).toNat := by
  rw [truncateFilename, lastName_clean clean filled]
  dsimp only
  have positive : 0 < (max maxBytes 1).toNat := by omega
  generalize (max maxBytes 1).toNat = limit at positive ⊢
  split
  · rename_i short
    exact ⟨clean, filled, short⟩
  · -- what is kept of the ending leaves at least one byte for the stem
    obtain ⟨kept, is, ends, room⟩ : ∃ kept, (if limit ≤ (encode (suffix value)).length then []
        else suffix value) = kept ∧ kept <:+ value ∧ (encode kept).length < limit := by
      split
      · exact ⟨[], rfl, nil_suffix, positive⟩
      · rename_i fits
        exact ⟨_, rfl, suffix_suffix value, by omega⟩
    rw [is]
    generalize budgeted : limit - (encode kept).length = budget
    obtain ⟨front, is, begins, nonempty, short⟩ : ∃ front,
        (if stripRight dotOrSpace (decodeIgnore ((encode (value.take
            (value.length - (suffix value).length))).take budget)) = [] then
          decodeIgnore ((encode fallbackName).take budget)
        else stripRight dotOrSpace (decodeIgnore ((encode (value.take
            (value.length - (suffix value).length))).take budget))) = front ∧ Clean front ∧
          front ≠ [] ∧ (encode front).length ≤ budget := by
      split
      · obtain ⟨begins, short⟩ := decodeIgnore_prefix fallbackName budget
        refine ⟨_, rfl, ?_, fallback_filled (by omega), short⟩
        exact fallback_clean.prefix begins fun c last =>
          (fallback_plain c (begins.subset (mem_of_getLast? last))).2.2
      · rename_i filled
        obtain ⟨begins, short⟩ := decodeIgnore_prefix (value.take
          (value.length - (suffix value).length)) budget
        have cut := stripRight_begins dotOrSpace (decodeIgnore ((encode (value.take
          (value.length - (suffix value).length))).take budget))
        refine ⟨_, rfl, ?_, filled, Nat.le_trans (encode_shorter cut) short⟩
        exact clean.prefix (cut.trans (begins.trans (List.take_prefix _ _))) stripRight_closes
    rw [is]
    refine ⟨clean.append ends begins nonempty, append_ne_nil_of_left_ne_nil nonempty _, ?_⟩
    rw [encode_append, length_append]
    omega

theorem Clean.safe {name : Name} (clean : Clean name) (filled : name ≠ []) {maxBytes : Int}
    (short : (encode name).length ≤ (max maxBytes 1).toNat) : Safe maxBytes name := by
  refine ⟨filled, ⟨?_, ?_⟩, ?_, short⟩
  · rintro rfl
    exact absurd (clean.opens '.' rfl) (by decide)
  · rintro rfl
    exact absurd (clean.opens '.' rfl) (by decide)
  · intro c member
    have valid := clean.valid c member
    simp only [invalidFilenameChar, Bool.or_eq_false_iff, decide_eq_false_iff_not, mem_cons,
      not_or] at valid
    exact ⟨valid.1.2.1, valid.1.1, Nat.not_lt.mp valid.2⟩

/-- A name without lone surrogates gets a safe filename within the limit, which stays as it is. -/
theorem safe_within (text : List Char) (maxBytes : Int) : ∃ name,
    safeFilenameWithin (text.map some) maxBytes = some name ∧ Safe maxBytes name ∧
      safeFilenameWithin (name.map some) maxBytes = some name := by
  have scalars (text : List Char) : (text.map some).mapM id = some text := by
    induction text with
    | nil => rfl
    | cons c rest ih => simp [ih]
  obtain ⟨clean, filled⟩ := safeFilename_clean text
  obtain ⟨kept, nonempty, short⟩ := truncateFilename_clean clean filled maxBytes
  have given : safeFilenameWithin (text.map some) maxBytes =
      some (truncateFilename (safeFilename text) maxBytes) := by
    rw [safeFilenameWithin, scalars, Option.map_some]
  generalize truncateFilename (safeFilename text) maxBytes = name at kept nonempty short given
  have again : truncateFilename name maxBytes = name := by
    rw [truncateFilename]
    exact if_pos short
  refine ⟨name, given, kept.safe nonempty short, ?_⟩
  rw [safeFilenameWithin, scalars, Option.map_some, safeFilename_self kept nonempty, again]

def isControl (c : Char) : Bool := c.toNat < 32 || (127 ≤ c.toNat && c.toNat < 160)

/-- DEL stays in a name, and a lone surrogate raises. -/
theorem delete_kept : safeFilenameWithin [some 'a', some '\x7f'] 10 = some ['a', '\x7f'] ∧
    isControl '\x7f' = true ∧ safeFilenameWithin [none] 10 = none := by
  refine ⟨?_, by decide, by decide⟩
  decide +kernel

end SourceLens.PathRules
