import SourceLens.Library.PyText
import Mathlib.Data.List.Basic

/-! Text files as lists of lines: joining with newlines, reading in universal
newline mode and splitting at every line boundary. -/

namespace SourceLens.TextLines

open List
open PyText (isLineBreak)

/-- What `open(path).read()` makes of the newlines of a file. -/
def universalNewlines : List Char → List Char
  | [] => []
  | '\r' :: '\n' :: rest => '\n' :: universalNewlines rest
  | c :: rest => (if c = '\r' then '\n' else c) :: universalNewlines rest

def pushChar (c : Char) : List (List Char) → List (List Char)
  | [] => [[c]]
  | line :: lines => (c :: line) :: lines

/-- `str.splitlines`. -/
def splitlines : List Char → List (List Char)
  | [] => []
  | '\r' :: '\n' :: rest => [] :: splitlines rest
  | c :: rest => if isLineBreak c then [] :: splitlines rest else pushChar c (splitlines rest)

/-- `"\n".join(lines)`. -/
def joinLines (lines : List (List Char)) : List Char := ['\n'].intercalate lines

def Unbroken (line : List Char) : Prop := ∀ c ∈ line, isLineBreak c = false

instance (line : List Char) : Decidable (Unbroken line) :=
  decidable_of_iff (line.all (fun c => !isLineBreak c) = true) (by simp [Unbroken])

variable (c : Char) (text : List Char) (lines : List (List Char))

theorem unbroken_cons (line : List Char) :
    Unbroken (c :: line) ↔ isLineBreak c = false ∧ Unbroken line := by
  simp [Unbroken]

theorem unbroken_append (first second : List Char) :
    Unbroken (first ++ second) ↔ Unbroken first ∧ Unbroken second := by
  constructor
  · intro whole
    constructor
    · intro c member
      exact whole c (mem_append_left _ member)
    · intro c member
      exact whole c (mem_append_right _ member)
  · intro both c member
    rcases both with ⟨left, right⟩
    rcases mem_append.mp member with before | after
    · exact left c before
    · exact right c after

theorem unbroken_intercalate (separator : Char) (plain : isLineBreak separator = false)
    (pieces : List (List Char)) :
    Unbroken ([separator].intercalate pieces) ↔ ∀ piece ∈ pieces, Unbroken piece := by
  induction pieces with
  | nil => simp [Unbroken]
  | cons piece pieces ih =>
    cases pieces with
    | nil => simp
    | cons next pieces =>
      have mark : Unbroken [separator] := by simp [Unbroken, plain]
      rw [intercalate_cons_cons, unbroken_append, unbroken_append, ih]
      simp [mark]

theorem pushChar_unbroken (plain : isLineBreak c = false)
    (unbroken : ∀ line ∈ lines, Unbroken line) : ∀ line ∈ pushChar c lines, Unbroken line := by
  intro line member
  cases lines with
  | nil =>
    simp only [pushChar, mem_singleton] at member
    subst member
    simp [plain, Unbroken]
  | cons head tail =>
    simp only [pushChar, mem_cons] at member
    rcases member with rfl | later
    · exact (unbroken_cons c head).mpr ⟨plain, unbroken head mem_cons_self⟩
    · exact unbroken line (mem_cons_of_mem _ later)

theorem splitlines_unbroken : ∀ line ∈ splitlines text, Unbroken line := by
  fun_induction splitlines text with
  | case1 => simp
  | case2 rest ih =>
    intro line member
    rcases mem_cons.mp member with rfl | later
    · simp [Unbroken]
    · exact ih line later
  | case3 c rest _ boundary ih =>
    intro line member
    rcases mem_cons.mp member with rfl | later
    · simp [Unbroken]
    · exact ih line later
  | case4 c rest _ plain ih =>
    apply pushChar_unbroken c _ _ ih
    simpa using plain

theorem splitlines_cons_plain (rest : List Char) (plain : isLineBreak c = false) :
    splitlines (c :: rest) = pushChar c (splitlines rest) := by
  have carriage : c ≠ '\r' := by
    intro same
    subst same
    exact absurd plain (by decide)
  rw [splitlines]
  · simp [plain]
  · intro _ same
    exact absurd same carriage

theorem splitlines_newline (rest : List Char) :
    splitlines ('\n' :: rest) = [] :: splitlines rest := by
  rw [splitlines]
  · rw [if_pos (by decide)]
  · intro _ same
    exact absurd same (by decide)

theorem splitlines_line (line rest : List Char) (unbroken : Unbroken line) :
    splitlines (line ++ '\n' :: rest) = line :: splitlines rest := by
  induction line with
  | nil => exact splitlines_newline rest
  | cons c line ih =>
    have parts := (unbroken_cons c line).mp unbroken
    rw [cons_append, splitlines_cons_plain c _ parts.1, ih parts.2]
    rfl

theorem splitlines_break (line rest : List Char) (c : Char) (unbroken : Unbroken line)
    (ends : isLineBreak c = true) (other : c ≠ '\r') :
    splitlines (line ++ c :: rest) = line :: splitlines rest := by
  induction line with
  | nil =>
    rw [nil_append, splitlines]
    · rw [if_pos ends]
    · intro _ same
      exact absurd same other
  | cons d line ih =>
    have parts := (unbroken_cons d line).mp unbroken
    rw [cons_append, splitlines_cons_plain d _ parts.1, ih parts.2]
    rfl

theorem first_break (broken : ¬Unbroken text) :
    ∃ line c rest, text = line ++ c :: rest ∧ Unbroken line ∧ isLineBreak c = true := by
  induction text with
  | nil => exact absurd (by simp [Unbroken]) broken
  | cons d text ih =>
    cases ends : isLineBreak d with
    | true => exact ⟨[], d, text, rfl, by simp [Unbroken], ends⟩
    | false =>
      have later : ¬Unbroken text := fun unbroken => broken ((unbroken_cons d text).mpr ⟨ends, unbroken⟩)
      rcases ih later with ⟨line, c, rest, shape, unbroken, boundary⟩
      exact ⟨d :: line, c, rest, by rw [shape]; rfl, (unbroken_cons d line).mpr ⟨ends, unbroken⟩,
        boundary⟩

theorem splitlines_last (line : List Char) (unbroken : Unbroken line) (filled : line ≠ []) :
    splitlines line = [line] := by
  induction line with
  | nil => exact absurd rfl filled
  | cons c line ih =>
    have parts := (unbroken_cons c line).mp unbroken
    rw [splitlines_cons_plain c _ parts.1]
    cases line with
    | nil => rfl
    | cons d line =>
      rw [ih parts.2 (cons_ne_nil d line)]
      rfl

theorem splitlines_joinLines (filled : ∀ line ∈ lines, line ≠ [])
    (unbroken : ∀ line ∈ lines, Unbroken line) : splitlines (joinLines lines) = lines := by
  induction lines with
  | nil => rfl
  | cons line lines ih =>
    cases lines with
    | nil =>
      have last := splitlines_last line (unbroken line mem_cons_self)
        (filled line mem_cons_self)
      simpa [joinLines] using last
    | cons next lines =>
      have later := ih (fun l member => filled l (mem_cons_of_mem _ member))
        (fun l member => unbroken l (mem_cons_of_mem _ member))
      calc
        splitlines (joinLines (line :: next :: lines))
          = splitlines (line ++ '\n' :: joinLines (next :: lines)) := by
            simp [joinLines, intercalate_cons_cons]
        _ = line :: splitlines (joinLines (next :: lines)) :=
            splitlines_line line _ (unbroken line mem_cons_self)
        _ = line :: next :: lines := by rw [later]

theorem universalNewlines_of_no_return (absent : '\r' ∉ text) :
    universalNewlines text = text := by
  induction text with
  | nil => rfl
  | cons c rest ih =>
    have other : '\r' ≠ c := ne_of_not_mem_cons absent
    rw [universalNewlines]
    · rw [if_neg other.symm, ih (not_mem_of_not_mem_cons absent)]
    · intro _ same
      exact absurd same.symm other

theorem joinLines_no_return (unbroken : ∀ line ∈ lines, Unbroken line) :
    '\r' ∉ joinLines lines := by
  induction lines with
  | nil => simp [joinLines]
  | cons line lines ih =>
    have head : '\r' ∉ line := by
      intro member
      exact absurd (unbroken line mem_cons_self '\r' member) (by decide)
    cases lines with
    | nil => simpa [joinLines] using head
    | cons next lines =>
      have later := ih (fun l member => unbroken l (mem_cons_of_mem _ member))
      simp only [joinLines, intercalate_cons_cons] at later ⊢
      simp [head, later]

theorem read_joined_iff (filled : ∀ line ∈ lines, line ≠ []) :
    splitlines (universalNewlines (joinLines lines)) = lines ↔
      ∀ line ∈ lines, Unbroken line := by
  constructor
  · intro same line member
    rw [← same] at member
    exact splitlines_unbroken _ line member
  · intro unbroken
    rw [universalNewlines_of_no_return _ (joinLines_no_return lines unbroken)]
    exact splitlines_joinLines lines filled unbroken

theorem splitlines_filled (filled : text ≠ []) : splitlines text ≠ [] := by
  fun_cases splitlines text with
  | case1 => exact absurd rfl filled
  | case2 => exact cons_ne_nil _ _
  | case3 => exact cons_ne_nil _ _
  | case4 c rest =>
    cases splitlines rest with
    | nil => exact cons_ne_nil _ _
    | cons line lines => exact cons_ne_nil _ _

theorem splitlines_parted (text rest : List Char) :
    splitlines (text ++ '\n' :: rest) = splitlines (text ++ ['\n']) ++ splitlines rest := by
  fun_induction splitlines text with
  | case1 =>
    rw [nil_append, nil_append, splitlines_newline, splitlines_newline]
    rfl
  | case2 text ih =>
    rw [cons_append, cons_append, cons_append, cons_append, splitlines,
      splitlines, ih, cons_append]
  | case3 c text single ends ih =>
    by_cases last : c = '\r' ∧ text = []
    · obtain ⟨rfl, rfl⟩ := last
      rfl
    · -- The character is no part of a pair, whatever follows the newline.
      have alone (back : List Char) : splitlines (c :: (text ++ '\n' :: back)) =
          [] :: splitlines (text ++ '\n' :: back) := by
        rw [splitlines]
        · rw [if_pos ends]
        · intro other carriage same
          cases text with
          | nil => exact last ⟨carriage, rfl⟩
          | cons d text => exact single text carriage (by rw [(List.cons.inj same).1])
      rw [cons_append, cons_append, alone, alone, ih, cons_append]
  | case4 c text single plain ih =>
    have running : isLineBreak c = false := by simpa using plain
    have filled := splitlines_filled (text ++ ['\n']) (by simp)
    rw [cons_append, cons_append, splitlines_cons_plain c _ running,
      splitlines_cons_plain c _ running, ih]
    cases first : splitlines (text ++ ['\n']) with
    | nil => exact absurd first filled
    | cons line lines => rfl

theorem pushChar_length (filled : lines ≠ []) :
    (pushChar c lines).length = lines.length := by
  cases lines with
  | nil => exact absurd rfl filled
  | cons line lines => rfl

theorem splitlines_cons_break (rest : List Char) (ends : isLineBreak c = true)
    (other : c ≠ '\r') : splitlines (c :: rest) = [] :: splitlines rest :=
  splitlines_break [] rest c (by simp [Unbroken]) ends other

theorem splitlines_length (filled : text ≠ []) (absent : '\r' ∉ text) :
    (splitlines text).length = (text.dropLast.filter isLineBreak).length + 1 := by
  induction text with
  | nil => exact absurd rfl filled
  | cons c rest ih =>
    have other : c ≠ '\r' := (ne_of_not_mem_cons absent).symm
    cases rest with
    | nil =>
      cases ends : isLineBreak c with
      | true => rw [splitlines_cons_break c [] ends other]; rfl
      | false => rw [splitlines_cons_plain c [] ends]; rfl
    | cons d rest =>
      have later := ih (cons_ne_nil d rest) (not_mem_of_not_mem_cons absent)
      rw [dropLast_cons_cons]
      cases ends : isLineBreak c with
      | true =>
        rw [splitlines_cons_break c _ ends other, filter_cons_of_pos ends,
          length_cons, length_cons, later]
      | false =>
        have shown : splitlines (d :: rest) ≠ [] := by
          intro none
          rw [none] at later
          exact absurd later (by simp)
        rw [splitlines_cons_plain c _ ends, pushChar_length c _ shown, later,
          filter_cons_of_neg (by simp [ends])]

end SourceLens.TextLines
