import Mathlib.Data.List.Infix

/-! A text that a reader keeps up to date from a stream of items, and the items that lead
from the text the reader has to the one it should have. -/

namespace SourceLens.TextEdits

variable {Symbol Item : Type*}

variable {item : Item}

inductive Edit (Symbol : Type*)
  | write (text : List Symbol)
  | clear
  | append (more : List Symbol)
  deriving DecidableEq, Repr

def Edit.apply (text : List Symbol) : Edit Symbol → List Symbol
  | .write whole => whole
  | .clear => []
  | .append more => text ++ more

/-- `reads item` is what the item does to the text, `none` for one that leaves it. -/
def taken (reads : Item → Option (Edit Symbol)) (text : List Symbol) (item : Item) :
    List Symbol :=
  match reads item with
  | some edit => edit.apply text
  | none => text

def shown (reads : Item → Option (Edit Symbol)) (text : List Symbol) (items : List Item) :
    List Symbol :=
  items.foldl (taken reads) text

def difference [DecidableEq Symbol] (clear : Item) (append : List Symbol → Item)
    (cursor content : List Symbol) : List Item :=
  let kept := if cursor <+: content then cursor else []
  let delta := content.drop kept.length
  (if cursor <+: content then [] else [clear]) ++ (if delta = [] then [] else [append delta])

/-- `Shows reads held last text items`: behind the item `last` the text is held, and so is
every text on the way through the items to come; only behind a clearing item may it be
empty instead, when more is appended to it at once. -/
inductive Shows (reads : Item → Option (Edit Symbol)) (held : List Symbol → Prop) :
    Option Item → List Symbol → List Item → Prop
  | settled {last : Option Item} {text : List Symbol} (there : held text) :
      Shows reads held last text []
  | step {last : Option Item} {text : List Symbol} {item : Item} {rest : List Item}
      (there : held text) (later : Shows reads held (some item) (taken reads text item) rest) :
      Shows reads held last text (item :: rest)
  | cleared {clear item : Item} {more : List Symbol} {rest : List Item}
      (clears : reads clear = some .clear) (appends : reads item = some (.append more))
      (after : held more) (later : Shows reads held (some item) more rest) :
      Shows reads held (some clear) [] (item :: rest)

variable {reads : Item → Option (Edit Symbol)} {held wider : List Symbol → Prop}
  {last : Option Item} {text cursor content : List Symbol} {items : List Item}

@[simp] theorem shown_nil : shown reads text [] = text := rfl

@[simp] theorem shown_cons (item : Item) :
    shown reads text (item :: items) = shown reads (taken reads text item) items := rfl

theorem shown_append (front back : List Item) :
    shown reads text (front ++ back) = shown reads (shown reads text front) back :=
  List.foldl_append

theorem taken_some {edit : Edit Symbol} (reading : reads item = some edit) :
    taken reads text item = edit.apply text := by
  simp [taken, reading]

theorem taken_none (reading : reads item = none) : taken reads text item = text := by
  simp [taken, reading]

theorem Shows.tail (shows : Shows reads held last text (item :: items)) :
    Shows reads held (some item) (taken reads text item) items := by
  cases shows with
  | step there later => exact later
  | cleared clears appends after later => rwa [taken_some appends]

theorem Shows.weaken (shows : Shows reads held last text items)
    (implied : ∀ text, held text → wider text) : Shows reads wider last text items := by
  induction shows with
  | settled there => exact .settled (implied _ there)
  | step there later ih => exact .step (implied _ there) ih
  | cleared clears appends after later ih => exact .cleared clears appends (implied _ after) ih

theorem Shows.append {more : List Item} (shows : Shows reads held last text items)
    (later : ∀ last, Shows reads held last (shown reads text items) more) :
    Shows reads held last text (items ++ more) := by
  induction shows with
  | settled there => exact later _
  | step there _ ih => exact .step there (ih later)
  | cleared clears appends after _ ih =>
    rw [shown_cons, taken_some appends] at later
    exact .cleared clears appends after (ih later)

theorem Shows.now (shows : Shows reads held last text items) :
    held text ∨ text = [] ∧ ∃ clear item rest more, last = some clear ∧ items = item :: rest ∧
      reads clear = some .clear ∧ reads item = some (.append more) ∧ held more := by
  cases shows with
  | settled there => exact .inl there
  | step there later => exact .inl there
  | cleared clears appends after later =>
    exact .inr ⟨rfl, _, _, _, _, rfl, rfl, clears, appends, after⟩

theorem Shows.last_held (shows : Shows reads held last text items) :
    held (shown reads text items) := by
  induction shows with
  | settled there => exact there
  | step there later ih => exact ih
  | cleared clears appends after later ih =>
    rw [shown_cons, taken_some appends]
    exact ih

variable [DecidableEq Symbol] {clear : Item} {append : List Symbol → Item}

theorem shown_difference (clears : reads clear = some .clear)
    (appends : ∀ more, reads (append more) = some (.append more)) (cursor content : List Symbol) :
    shown reads cursor (difference clear append cursor content) = content := by
  by_cases grown : cursor <+: content
  · obtain ⟨delta, rfl⟩ := grown
    by_cases empty : delta = []
    · simp [difference, empty]
    · simp [difference, empty, taken_some (appends _), Edit.apply]
  · have cleared : taken reads cursor clear = [] := taken_some clears
    by_cases empty : content = []
    · subst empty
      simp only [difference, if_neg grown, List.drop_nil, ↓reduceIte, List.append_nil]
      simpa using cleared
    · simp [difference, grown, empty, cleared, taken_some (appends _), Edit.apply]

theorem shows_difference (clears : reads clear = some .clear)
    (appends : ∀ more, reads (append more) = some (.append more))
    (before : held cursor) (after : held content) :
    Shows reads held last cursor (difference clear append cursor content) := by
  by_cases grown : cursor <+: content
  · obtain ⟨delta, rfl⟩ := grown
    by_cases empty : delta = []
    · simpa [difference, empty] using Shows.settled before
    · have appended : taken reads cursor (append delta) = cursor ++ delta :=
        taken_some (appends delta)
      simpa [difference, empty] using Shows.step before (appended ▸ Shows.settled after)
  · have cleared : taken reads cursor clear = [] := taken_some clears
    by_cases empty : content = []
    · subst empty
      simp only [difference, if_neg grown, List.drop_nil, ↓reduceIte, List.append_nil]
      exact .step before (cleared ▸ Shows.settled after)
    · simp only [difference, if_neg grown, List.drop_zero, List.length_nil, if_neg empty,
        List.singleton_append]
      exact .step before (cleared ▸ .cleared clears (appends content) after (.settled after))

end SourceLens.TextEdits
