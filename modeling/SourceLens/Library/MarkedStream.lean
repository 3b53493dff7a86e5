import Mathlib.Data.List.Forall2

/-! Streams in which pieces of keyed text stand between marks: a stream may be cut into
other pieces as long as every reader finds the same text between the same marks. -/

namespace SourceLens.MarkedStream

open List

variable {Item Key : Type*}

/-- The text of one key: what stood before each mark so far, and what came after the
last one. -/
structure Texts where
  closed : List String
  current : String

/-- `content item` is the key and the text of an item, `none` for a mark. -/
def Texts.take [DecidableEq Key] (content : Item → Option (Key × String)) (key : Key)
    (texts : Texts) (item : Item) : Texts :=
  match content item with
  | none => ⟨texts.closed ++ [texts.current], ""⟩
  | some (owner, text) =>
    if owner = key then ⟨texts.closed, texts.current ++ text⟩ else texts

def texts [DecidableEq Key] (content : Item → Option (Key × String)) (key : Key)
    (items : List Item) : Texts :=
  items.foldl (Texts.take content key) ⟨[], ""⟩

def marks (content : Item → Option (Key × String)) (items : List Item) : List Item :=
  items.filter fun item => (content item).isNone

/-- The second stream has the marks of the first, up to what `Kept` allows, and the same
text of every key between them. -/
structure Agree [DecidableEq Key] (content : Item → Option (Key × String))
    (Kept : Item → Item → Prop) (first second : List Item) : Prop where
  sameMarks : List.Forall₂ Kept (marks content first) (marks content second)
  sameTexts : ∀ key, texts content key first = texts content key second

variable {content : Item → Option (Key × String)} {Kept : Item → Item → Prop}
  {first second : List Item}

theorem marks_append (front back : List Item) :
    marks content (front ++ back) = marks content front ++ marks content back :=
  filter_append ..

variable [DecidableEq Key]

theorem texts_append (key : Key) (front back : List Item) :
    texts content key (front ++ back) = back.foldl (Texts.take content key)
      (texts content key front) :=
  foldl_append

theorem Agree.nil : Agree content Kept [] [] := ⟨.nil, fun _ => rfl⟩

theorem Agree.mark (agree : Agree content Kept first second) {given queued : Item}
    (mark : content given = none) (same : content queued = none) (kept : Kept given queued) :
    Agree content Kept (first ++ [given]) (second ++ [queued]) where
  sameMarks := by
    have one : marks content [given] = [given] := by simp [marks, mark]
    have two : marks content [queued] = [queued] := by simp [marks, same]
    rw [marks_append, marks_append, one, two]
    exact rel_append agree.sameMarks (.cons kept .nil)
  sameTexts key := by
    rw [texts_append, texts_append, agree.sameTexts key]
    simp only [foldl_cons, foldl_nil, Texts.take, mark, same]

theorem Agree.text (agree : Agree content Kept first second) (item : Item)
    (text : (content item).isSome) : Agree content Kept (first ++ [item]) (second ++ [item]) where
  sameMarks := by
    have none : marks content [item] = [] := by
      simpa [marks, Option.isSome_iff_ne_none] using text
    rw [marks_append, marks_append, none, append_nil, append_nil]
    exact agree.sameMarks
  sameTexts key := by rw [texts_append, texts_append, agree.sameTexts key]

theorem Agree.join {left right joined : Item} {key : Key} {early late : String}
    (agree : Agree content Kept first (second ++ [left] ++ [right]))
    (one : content left = some (key, early)) (two : content right = some (key, late))
    (both : content joined = some (key, early ++ late)) :
    Agree content Kept first (second ++ [joined]) where
  sameMarks := by
    have none : marks content [joined] = marks content ([left] ++ [right]) := by
      simp [marks, one, two, both]
    rw [marks_append, none, ← marks_append, ← append_assoc]
    exact agree.sameMarks
  sameTexts other := by
    rw [agree.sameTexts other, append_assoc, texts_append, texts_append]
    simp only [singleton_append, foldl_cons, foldl_nil, Texts.take, one, two, both]
    by_cases mine : key = other
    · simp only [if_pos mine, String.append_assoc]
    · simp only [if_neg mine]

end SourceLens.MarkedStream
