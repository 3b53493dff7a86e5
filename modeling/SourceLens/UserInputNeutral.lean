import SourceLens.UserInput

/-! The neutralised texts have no boundary mark and no authority tag left, and a second
neutralisation does not change them. -/

namespace SourceLens.UserInput

open Option List
open TextSub (Text Occurs Reads literal subFrom sub)

variable {words : WordClass} {text rest : Text} {c : Char}

variable {other pattern : Text} {p : Char}

def markChar (c : Char) : Bool := decide (c ≠ '[') && decide (c ≠ '&')

def letters (pattern : Text) (test : Char → Bool) : Bool :=
  pattern.all fun p => (variants p).all test

theorem of_letters {test : Char → Bool} (all : letters pattern test = true) (listed : p ∈ pattern)
    (letter : c ∈ variants p) : test c = true :=
  all_eq_true.mp (all_eq_true.mp all p listed) c letter

theorem literal_mark (fits : letters pattern markChar = true) :
    Reads (literal sameLetter pattern) markChar :=
  TextSub.literal_reads fun _ listed _ same => of_letters fits listed (of_decide_eq_true same)

theorem literal_starts (taken : literal sameLetter (p :: pattern) text = some rest) :
    ∃ c more, text = c :: more ∧ c ∈ variants p := by
  cases text with
  | nil => cases taken
  | cons c text =>
    rw [literal] at taken
    split at taken
    · rename_i same
      exact ⟨c, text, rfl, of_decide_eq_true same⟩
    · cases taken

theorem isSpace_mark (space : PyText.isSpace c = true) : markChar c = true := by
  rw [markChar, Bool.and_eq_true, decide_eq_true_eq, decide_eq_true_eq]
  constructor
  · rintro rfl
    cases space
  · rintro rfl
    cases space

theorem spaced_reads (fits : letters (p :: pattern) markChar = true)
    (solid : letters [p] (fun c => !PyText.isSpace c) = true) :
    Reads (spaced (p :: pattern)) markChar := by
  refine (literal_mark fits).dropWhile (fun _ => isSpace_mark) ?_
  intro text rest taken
  obtain ⟨c, more, is, member⟩ := literal_starts taken
  have stops := of_letters solid mem_cons_self member
  rw [Bool.not_eq_true'] at stops
  exact ⟨c, more, is, stops⟩

theorem space_reads : Reads space markChar := by
  intro text rest taken
  cases text with
  | nil => cases taken
  | cons c text =>
    rw [space] at taken
    split at taken
    · rename_i blank
      cases taken
      refine ⟨[c], rfl, ?_, ?_⟩
      · intro d member
        exact mem_singleton.mp member ▸ isSpace_mark blank
      · intro other
        rw [singleton_append, space, if_pos blank]
    · cases taken

theorem boundaryWord_reads : Reads boundaryWord markChar := by
  intro text rest taken
  rw [boundaryWord] at taken
  cases first : spaced beginWord text with
  | some middle =>
    rw [first] at taken
    cases taken
    obtain ⟨word, rfl, allowed, steady⟩ :=
      spaced_reads (by decide +kernel) (by decide +kernel) text rest first
    refine ⟨word, rfl, allowed, ?_⟩
    intro other
    rw [boundaryWord]
    have again : spaced beginWord (word ++ other) = some other := steady other
    rw [again]
    rfl
  | none =>
    rw [first, none_or] at taken
    obtain ⟨word, rfl, allowed, steady⟩ :=
      spaced_reads (by decide +kernel) (by decide +kernel) text rest taken
    refine ⟨word, rfl, allowed, ?_⟩
    intro other
    have again : spaced endWord (word ++ other) = some other := steady other
    obtain ⟨c, more, begins, letter⟩ := literal_starts again
    have missing : spaced beginWord (word ++ other) = none := by
      rw [spaced, begins, beginWord, literal, if_neg]
      intro same
      have differ : letters ['e'] (fun c => !sameLetter 'b' c) = true := by decide +kernel
      have other := of_letters differ mem_cons_self letter
      rw [same] at other
      cases other
    rw [boundaryWord, missing, again]
    rfl

theorem boundary_reads : Reads boundary markChar := by
  have dash : Reads (spaced dashes) markChar := spaced_reads (by decide +kernel) (by decide +kernel)
  have userInput : Reads (spaced userInputWords) markChar :=
    spaced_reads (by decide +kernel) (by decide +kernel)
  have after : Reads (fun text => (space text).bind fun text =>
      (spaced userInputWords text).bind (spaced dashes)) markChar :=
    space_reads.bind (userInput.bind dash)
  have behind : Reads (fun text => (boundaryWord text).bind fun text => (space text).bind fun text =>
      (spaced userInputWords text).bind (spaced dashes)) markChar := boundaryWord_reads.bind after
  have first : Reads (literal sameLetter dashes) markChar := literal_mark (by decide +kernel)
  exact first.bind behind

theorem boundary_starts (taken : boundary text = some rest) : ∃ more, text = '-' :: more := by
  obtain ⟨middle, first, -⟩ := bind_eq_some_iff.mp taken
  obtain ⟨c, more, rfl, dash⟩ := literal_starts first
  have only : letters ['-'] (fun c => decide (c = '-')) = true := by decide +kernel
  have is := of_decide_eq_true (of_letters only mem_cons_self dash)
  exact ⟨more, by rw [is]⟩

theorem boundaryMatch_isSome : (boundaryMatch text).isSome = (boundary text).isSome :=
  isSome_map

theorem boundaryMatch_none (other : c ≠ '-') (more : Text) : boundaryMatch (c :: more) = none := by
  rw [boundaryMatch, map_eq_none_iff]
  cases taken : boundary (c :: more) with
  | none => rfl
  | some rest =>
    obtain ⟨_, same⟩ := boundary_starts taken
    cases same
    exact absurd rfl other

theorem boundary_none (missing : boundaryMatch text = none) : boundary text = none :=
  map_eq_none_iff.mp missing

theorem literal_take (taken : literal sameLetter pattern text = some rest) :
    rest = text.drop pattern.length ∧
      ∀ c ∈ text.take pattern.length, ∃ p ∈ pattern, c ∈ variants p := by
  induction pattern generalizing text with
  | nil =>
    cases taken
    exact ⟨rfl, fun _ no => (nomatch no)⟩
  | cons p pattern ih =>
    cases text with
    | nil => cases taken
    | cons c text =>
      rw [literal] at taken
      split at taken
      · rename_i same
        obtain ⟨is, letters⟩ := ih taken
        refine ⟨is, ?_⟩
        intro d member
        rw [length_cons, take_succ_cons, mem_cons] at member
        cases member with
        | inl here => exact ⟨p, mem_cons_self, here ▸ of_decide_eq_true same⟩
        | inr there =>
          obtain ⟨q, listed, letter⟩ := letters d there
          exact ⟨q, mem_cons_of_mem _ listed, letter⟩
      · cases taken

theorem boundaryGroup_letters (taken : boundary text = some rest) :
    ∀ c ∈ boundaryGroup text, ∃ p ∈ beginWord ++ endWord, c ∈ variants p := by
  obtain ⟨inner, first, later⟩ := bind_eq_some_iff.mp taken
  obtain ⟨behind, word, -⟩ := bind_eq_some_iff.mp later
  have same : inner = text.drop 3 := (literal_take first).1
  subst same
  intro c member
  rw [boundaryGroup] at member
  split at member
  · rename_i begins
    obtain ⟨after, is⟩ := isSome_iff_exists.mp begins
    obtain ⟨p, listed, letter⟩ := (literal_take is).2 c member
    exact ⟨p, mem_append_left _ listed, letter⟩
  · rename_i begins
    rw [Bool.not_eq_true, isSome_eq_false_iff, isNone_iff_eq_none] at begins
    rw [boundaryWord, spaced, begins, none_or] at word
    obtain ⟨p, listed, letter⟩ := (literal_take word).2 c member
    exact ⟨p, mem_append_right _ listed, letter⟩

theorem replacement_chars {replacement : Text} {length : Nat}
    (found : boundaryMatch text = some (replacement, length)) :
    (∃ more, replacement = '[' :: more) ∧ ∀ c ∈ replacement, c ≠ '-' := by
  obtain ⟨rest, taken, is⟩ := map_eq_some_iff.mp found
  cases is
  refine ⟨⟨_, rfl⟩, ?_⟩
  intro c member
  rw [List.cons_append, List.mem_cons, List.mem_append, List.mem_map] at member
  rcases member with rfl | ⟨d, inside, rfl⟩ | tail
  · decide +kernel
  · obtain ⟨p, listed, letter⟩ := boundaryGroup_letters taken d inside
    have dashless : letters (beginWord ++ endWord) (fun c => decide (upper c ≠ '-')) = true := by
      decide +kernel
    exact of_decide_eq_true (of_letters dashless listed letter)
  · have dashless : " USER INPUT]".toList.all (fun c => decide (c ≠ '-')) = true := by
      decide +kernel
    exact of_decide_eq_true (all_eq_true.mp dashless c tail)

theorem boundaries_replaced (text : Text) : ¬ Occurs boundaryMatch (sub boundaryMatch text) := by
  apply TextSub.sub_clean rfl
  · intro text replacement length found c member more
    exact boundaryMatch_none ((replacement_chars found).2 c member) more
  · intro c rest missing
    rw [boundaryMatch, map_eq_none_iff]
    cases taken : boundary (c :: subFrom boundaryMatch 0 rest) with
    | none => rfl
    | some after =>
      -- the match ends before the first replacement, so it was there before
      obtain ⟨word, whole, allowed, steady⟩ := boundary_reads _ after taken
      rw [← TextSub.subFrom_none missing] at whole
      have marked : ∀ text replacement length, boundaryMatch text = some (replacement, length) →
          ∃ c more, replacement = c :: more ∧ markChar c = false := by
        intro text replacement length found
        obtain ⟨⟨more, is⟩, -⟩ := replacement_chars found
        exact ⟨'[', more, is, by decide⟩
      obtain ⟨other, before⟩ := TextSub.subFrom_leading marked allowed whole
      have there := steady other
      rw [← before, boundary_none missing] at there
      cases there

/-- The text before and after a substitution, up to the first bracket that was escaped. -/
inductive Masked : Text → Text → Prop
  | refl (text : Text) : Masked text text
  | stop (text other : Text) : Masked ('<' :: text) ('&' :: other)
  | cons (c : Char) {text other : Text} (rest : Masked text other) :
      Masked (c :: text) (c :: other)

theorem Masked.dropWhile (masked : Masked text other) (skip : Char → Bool) (lt : skip '<' = false)
    (amp : skip '&' = false) : Masked (text.dropWhile skip) (other.dropWhile skip) := by
  induction masked with
  | refl text => exact .refl _
  | stop text other =>
    rw [dropWhile_cons, dropWhile_cons, lt, amp]
    exact .stop text other
  | cons c rest ih =>
    rw [dropWhile_cons, dropWhile_cons]
    split
    · exact ih
    · exact .cons c rest

theorem Masked.skipSlash (masked : Masked text other) :
    Masked (skipSlash text) (skipSlash other) := by
  cases masked with
  | refl text => exact .refl _
  | stop text other => exact .stop text other
  | cons c rest =>
    rw [UserInput.skipSlash, UserInput.skipSlash]
    split
    · exact rest
    · exact .cons c rest

theorem Masked.literal {after : Text} (masked : Masked text other)
    (plain : letters pattern (fun c => decide (c ≠ '&')) = true)
    (taken : TextSub.literal sameLetter pattern other = some after) :
    ∃ rest, TextSub.literal sameLetter pattern text = some rest ∧ Masked rest after := by
  induction pattern generalizing text other with
  | nil =>
    cases taken
    exact ⟨text, rfl, masked⟩
  | cons p pattern ih =>
    cases masked with
    | refl text => exact ⟨after, taken, .refl after⟩
    | stop text other =>
      rw [TextSub.literal, if_neg] at taken
      · cases taken
      · intro same
        have other := of_letters plain mem_cons_self (of_decide_eq_true same)
        exact of_decide_eq_true other rfl
    | cons c rest =>
      rw [TextSub.literal] at taken ⊢
      split at taken
      · rename_i same
        rw [if_pos same]
        exact ih rest (Bool.and_eq_true_iff.mp plain).2 taken
      · cases taken

theorem Masked.wordEnd (masked : Masked text other) : wordEnd words text = wordEnd words other := by
  cases masked with
  | refl text => rfl
  | stop text other => simp only [UserInput.wordEnd, head?_cons, any_some, words.lt, words.amp]
  | cons c rest => rfl

theorem Masked.tagHead (masked : Masked text other) (head : tagHead words other = true) :
    UserInput.tagHead words text = true := by
  have behind := ((masked.dropWhile PyText.isSpace rfl rfl).skipSlash).dropWhile PyText.isSpace
    rfl rfl
  rw [UserInput.tagHead, authorityWord, List.any_eq_true] at head ⊢
  obtain ⟨word, listed, found⟩ := head
  obtain ⟨after, taken, ends⟩ := (any_eq_true _ _).mp found
  have plain : authorityWords.all (letters · fun c => decide (c ≠ '&')) = true := by decide +kernel
  obtain ⟨rest, takenToo, followed⟩ :=
    behind.literal (all_eq_true.mp plain word listed) taken
  refine ⟨word, listed, ?_⟩
  rw [takenToo, any_some, followed.wordEnd]
  exact ends

theorem tagMatch_none (other : c ≠ '<') (more : Text) : tagMatch words (c :: more) = none := by
  rw [tagMatch]
  rintro rest is
  cases is
  exact other rfl

theorem tagMatch_isSome : (tagMatch words ('<' :: rest)).isSome =
    (tagHead words rest && decide ('>' ∈ rest)) := by
  rw [tagMatch]
  split
  · rename_i both
    rw [both]
    rfl
  · rename_i either
    rw [Bool.not_eq_true] at either
    rw [either]
    rfl

theorem escape_cons (c : Char) (text : Text) : escape (c :: text) = escapeChar c ++ escape text :=
  flatMap_cons

theorem escape_plain : ∀ c ∈ escape text, c ≠ '<' ∧ c ≠ '>' := by
  intro c member
  obtain ⟨d, -, inside⟩ := mem_flatMap.mp member
  rw [escapeChar] at inside
  split at inside
  · simp only [mem_cons, not_mem_nil, or_false] at inside
    rcases inside with rfl | rfl | rfl | rfl <;> decide +kernel
  · split at inside
    · simp only [mem_cons, not_mem_nil, or_false] at inside
      rcases inside with rfl | rfl | rfl | rfl <;> decide +kernel
    · rename_i lt gt
      rw [mem_singleton.mp inside]
      exact ⟨lt, gt⟩

theorem tagMatch_cases {replacement : Text} {length : Nat}
    (found : tagMatch words text = some (replacement, length)) :
    ∃ rest, text = '<' :: rest ∧ replacement = escape (text.take length) ∧ 0 < length := by
  rw [tagMatch.eq_def] at found
  split at found
  · split at found
    · cases found
      exact ⟨_, rfl, rfl, Nat.succ_pos _⟩
    · cases found
  · cases found

theorem tags_masked (text : Text) : Masked text (subFrom (tagMatch words) 0 text) := by
  induction text with
  | nil => exact .refl []
  | cons c rest ih =>
    cases found : tagMatch words (c :: rest) with
    | none =>
      rw [TextSub.subFrom_none found]
      exact .cons c ih
    | some pair =>
      obtain ⟨replacement, length⟩ := pair
      obtain ⟨_, is, escaped, positive⟩ := tagMatch_cases found
      cases is
      obtain ⟨more, rfl⟩ := Nat.exists_eq_succ_of_ne_zero (Nat.ne_of_gt positive)
      rw [TextSub.subFrom_some found, escaped, take_succ_cons, escape_cons]
      exact .stop _ _

theorem tags_replaced (text : Text) : ¬ Occurs (tagMatch words) (sub (tagMatch words) text) := by
  apply TextSub.sub_clean rfl
  · intro text replacement length found c member more
    obtain ⟨_, -, escaped, -⟩ := tagMatch_cases found
    rw [escaped] at member
    exact tagMatch_none (escape_plain c member).1 more
  · intro c rest missing
    by_cases bracket : c = '<'
    · subst bracket
      rw [← isNone_iff_eq_none, ← isSome_eq_false_iff, tagMatch_isSome,
        Bool.and_eq_false_iff] at missing ⊢
      cases missing with
      | inl headless =>
        left
        rw [Bool.eq_false_iff] at headless ⊢
        exact fun head => headless ((tags_masked rest).tagHead head)
      | inr unclosed =>
        right
        rw [decide_eq_false_iff_not] at unclosed ⊢
        intro closed
        rcases TextSub.mem_subFrom closed with before | ⟨_, _, _, found, inside⟩
        · exact unclosed before
        · obtain ⟨_, -, escaped, -⟩ := tagMatch_cases found
          rw [escaped] at inside
          exact (escape_plain _ inside).2 rfl
    · exact tagMatch_none bracket _

inductive Escaped : Text → Text → Prop
  | nil : Escaped [] []
  | same (c : Char) {text other : Text} (rest : Escaped text other) :
      Escaped (c :: text) (c :: other)
  | lt {text other : Text} (rest : Escaped text other) :
      Escaped ('<' :: text) (['&', 'l', 't', ';'] ++ other)
  | gt {text other : Text} (rest : Escaped text other) :
      Escaped ('>' :: text) (['&', 'g', 't', ';'] ++ other)

theorem escaped_append (part : Text) (escaped : Escaped text other) :
    Escaped (part ++ text) (escape part ++ other) := by
  induction part with
  | nil => exact escaped
  | cons c part ih =>
    rw [escape_cons, append_assoc, escapeChar]
    split
    · rename_i is
      subst is
      exact .lt ih
    · split
      · rename_i is
        subst is
        exact .gt ih
      · exact .same c ih

theorem tags_escaped (skip : Nat) (text : Text) :
    Escaped (text.drop skip) (subFrom (tagMatch words) skip text) := by
  induction text generalizing skip with
  | nil =>
    rw [drop_nil]
    cases skip <;> exact .nil
  | cons c rest ih =>
    cases skip with
    | succ skip => exact ih skip
    | zero =>
      cases found : tagMatch words (c :: rest) with
      | none =>
        rw [TextSub.subFrom_none found]
        exact .same c (ih 0)
      | some pair =>
        obtain ⟨replacement, length⟩ := pair
        obtain ⟨_, -, escaped, positive⟩ := tagMatch_cases found
        obtain ⟨more, rfl⟩ := Nat.exists_eq_succ_of_ne_zero (Nat.ne_of_gt positive)
        rw [TextSub.subFrom_some found, escaped]
        have whole := escaped_append ((c :: rest).take (more + 1)) (ih more)
        rw [take_succ_cons, cons_append, take_append_drop] at whole
        exact whole

theorem Escaped.leading {word rest : Text} (escaped : Escaped text other)
    (whole : other = word ++ rest) (allowed : ∀ c ∈ word, markChar c = true) :
    ∃ more, text = word ++ more := by
  induction escaped generalizing word with
  | nil =>
    obtain ⟨rfl, -⟩ := append_eq_nil_iff.mp whole.symm
    exact ⟨[], rfl⟩
  | same c later ih =>
    cases word with
    | nil => exact ⟨_, rfl⟩
    | cons head word =>
      obtain ⟨rfl, behind⟩ := List.cons.inj whole
      obtain ⟨more, rfl⟩ := ih behind fun d member => allowed d (mem_cons_of_mem _ member)
      exact ⟨more, rfl⟩
  | lt later ih | gt later ih =>
    cases word with
    | nil => exact ⟨_, rfl⟩
    | cons head word =>
      obtain ⟨rfl, -⟩ := List.cons.inj whole
      cases allowed '&' mem_cons_self

theorem Escaped.occurs (escaped : Escaped text other) (occurs : Occurs boundaryMatch other) :
    Occurs boundaryMatch text := by
  induction escaped with
  | nil => exact occurs
  | same c later ih =>
    rw [TextSub.occurs_cons] at occurs ⊢
    cases occurs with
    | inr behind => exact .inr (ih behind)
    | inl here =>
      left
      rw [boundaryMatch_isSome] at here ⊢
      obtain ⟨rest, taken⟩ := isSome_iff_exists.mp here
      obtain ⟨word, whole, allowed, steady⟩ := boundary_reads _ rest taken
      obtain ⟨more, before⟩ := (Escaped.same c later).leading whole allowed
      rw [before, steady more]
      rfl
  | lt later ih =>
    rw [TextSub.occurs_cons]
    have inert : ∀ c ∈ ['&', 'l', 't', ';'], ∀ more, boundaryMatch (c :: more) = none := by
      intro c member
      have dashless : ['&', 'l', 't', ';'].all (fun c => decide (c ≠ '-')) = true := by
        decide +kernel
      exact boundaryMatch_none (of_decide_eq_true (all_eq_true.mp dashless c member))
    exact .inr (ih (by_contra fun clean => TextSub.not_occurs_append clean inert occurs))
  | gt later ih =>
    rw [TextSub.occurs_cons]
    have inert : ∀ c ∈ ['&', 'g', 't', ';'], ∀ more, boundaryMatch (c :: more) = none := by
      intro c member
      have dashless : ['&', 'g', 't', ';'].all (fun c => decide (c ≠ '-')) = true := by
        decide +kernel
      exact boundaryMatch_none (of_decide_eq_true (all_eq_true.mp dashless c member))
    exact .inr (ih (by_contra fun clean => TextSub.not_occurs_append clean inert occurs))

/-- A text without marks and tags, which a further neutralisation leaves as it is. -/
structure Neutral (words : WordClass) (text : Text) : Prop where
  boundaries : ¬ Occurs boundaryMatch text
  tags : ¬ Occurs (tagMatch words) text
  fixed : neutralizeUntrustedText words true text = text

theorem neutralizeUntrustedText_neutral (words : WordClass) (text : Text) :
    Neutral words (neutralizeUntrustedText words true text) := by
  have tags : ¬ Occurs (tagMatch words) (neutralizeUntrustedText words true text) :=
    tags_replaced (sub boundaryMatch text)
  have boundaries : ¬ Occurs boundaryMatch (neutralizeUntrustedText words true text) := by
    intro occurs
    exact boundaries_replaced text ((tags_escaped 0 (sub boundaryMatch text)).occurs occurs)
  refine ⟨boundaries, tags, ?_⟩
  have first := TextSub.sub_of_clean boundaries
  calc neutralizeUntrustedText words true (neutralizeUntrustedText words true text)
      = sub (tagMatch words) (sub boundaryMatch (neutralizeUntrustedText words true text)) := rfl
    _ = sub (tagMatch words) (neutralizeUntrustedText words true text) := by rw [first]
    _ = neutralizeUntrustedText words true text := TextSub.sub_of_clean tags

theorem neutralize_neutral (words : WordClass) (text : String) :
    Neutral words (neutralize words text).toList := by
  rw [neutralize, String.toList_ofList]
  exact neutralizeUntrustedText_neutral words text.toList

theorem get?_setText {fields : List (String × Json)} {value : Json} (text : String)
    (present : Json.get? fields "text" = some value) :
    Json.get? (setText fields text) "text" = some (.str text) := by
  induction fields with
  | nil => cases present
  | cons field rest ih =>
    obtain ⟨key, held⟩ := field
    by_cases same : key = "text"
    · subst same
      rfl
    · have other : ("text" == key) = false := beq_eq_false_iff_ne.mpr (Ne.symm same)
      have kept : setText ((key, held) :: rest) text = (key, held) :: setText rest text := by
        rw [setText, map_cons, if_neg same]
        rfl
      rw [Json.get?, lookup_cons, other] at present
      rw [kept, Json.get?, lookup_cons, other]
      exact ih present

theorem wrapItem_neutral (words : WordClass) (item : Json) :
    ∀ text ∈ itemTexts (wrapItem words item), Neutral words text := by
  intro text member
  cases item with
  | str value =>
    rw [mem_singleton.mp member]
    exact neutralize_neutral words value
  | obj fields =>
    rw [wrapItem] at member
    split at member
    · rename_i value present
      rw [itemTexts, get?_setText _ present] at member
      rw [mem_singleton.mp member]
      exact neutralize_neutral words value
    · rename_i absent
      rw [itemTexts] at member
      split at member
      · rename_i value present
        exact absurd present (absent value)
      · cases member
  | null | bool | int | float | nonFinite | arr => cases member

/-- The message that is built from a text, and from items: the boundaries stand first and
last, and the texts between them are neutral. -/
theorem wrapped_neutral (words : WordClass) :
    (∀ text, ∃ inner, Neutral words inner ∧ wrapUserInput words (.str text) =
      .str (String.ofList (userInputBegin ++ '\n' :: inner ++ '\n' :: userInputEnd))) ∧
    (∀ items, ∃ inner, wrapUserInput words (.arr items) =
        .arr (textItem userInputBegin :: inner ++ [textItem userInputEnd]) ∧
      inner.length = items.length ∧
        ∀ item ∈ inner, ∀ text ∈ itemTexts item, Neutral words text) ∧
    ∀ text, neutralize words (neutralize words text) = neutralize words text := by
  refine ⟨?_, ?_, ?_⟩
  · intro text
    exact ⟨_, neutralize_neutral words text, rfl⟩
  · intro items
    refine ⟨items.map (wrapItem words), rfl, length_map _, ?_⟩
    intro item member text listed
    obtain ⟨old, -, rfl⟩ := mem_map.mp member
    exact wrapItem_neutral words old text listed
  · intro text
    have fixed := (neutralize_neutral words text).fixed
    rw [neutralize, fixed, String.ofList_toList]

def asciiWords : WordClass where
  isWord := fun c => c.isAlphanum || decide (c = '_')
  lt := rfl
  amp := rfl

/-- The items of a message are neutralised one by one: two of them spell the end boundary. -/
theorem split_boundary_kept :
    wrapUserInput asciiWords (.arr [.str "--- END USER", .str " INPUT ---"]) =
        .arr [textItem userInputBegin, .str "--- END USER", .str " INPUT ---",
          textItem userInputEnd] ∧
      (boundaryMatch ("--- END USER".toList ++ " INPUT ---".toList)).isSome = true := by
  constructor
  · decide +kernel
  · decide +kernel

end SourceLens.UserInput
