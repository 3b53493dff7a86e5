import Mathlib.Data.List.Induction

/-! Frames ended by a doubled mark, read from a buffer that fills piece by piece. -/

namespace SourceLens.Frames

open List

variable {α σ : Type} [DecidableEq α] (mark : α)

variable {buffer frame rest : List α}

def cut : List α → Option (List α × List α)
  | [] => none
  | [_] => none
  | first :: second :: rest =>
    if first = mark ∧ second = mark then some ([], rest)
    else (cut (second :: rest)).map fun parts => (first :: parts.1, parts.2)

/-- Act on every complete frame of the buffer; what stays is the incomplete one. -/
def drain (act : σ → List α → σ) : Nat → σ → List α → σ × List α
  | 0, state, buffer => (state, buffer)
  | fuel + 1, state, buffer =>
    match cut mark buffer with
    | none => (state, buffer)
    | some (frame, rest) => drain act fuel (act state frame) rest

def feed (act : σ → List α → σ) (held : σ × List α) (piece : List α) : σ × List α :=
  drain mark act (held.2 ++ piece).length held.1 (held.2 ++ piece)

def feedAll (act : σ → List α → σ) (held : σ × List α) (pieces : List (List α)) : σ × List α :=
  pieces.foldl (feed mark act) held

def framed (frame : List α) : List α := frame ++ [mark, mark]

theorem cut_cons_cons (first second : α) (rest : List α)
    (other : ¬(first = mark ∧ second = mark)) :
    cut mark (first :: second :: rest) =
      (cut mark (second :: rest)).map fun parts => (first :: parts.1, parts.2) := by
  rw [cut, if_neg other]

theorem cut_length (found : cut mark buffer = some (frame, rest)) :
    rest.length < buffer.length := by
  induction buffer generalizing frame with
  | nil => simp [cut] at found
  | cons first tail ih =>
    cases tail with
    | nil => simp [cut] at found
    | cons second tail =>
      by_cases doubled : first = mark ∧ second = mark
      · simp only [cut, if_pos doubled, Option.some.injEq, Prod.mk.injEq] at found
        rw [← found.2]
        simp only [length_cons]
        omega
      · rw [cut_cons_cons mark first second tail doubled] at found
        rcases Option.map_eq_some_iff.mp found with ⟨parts, later, same⟩
        rw [Prod.mk.injEq] at same
        have next : cut mark (second :: tail) = some (parts.1, rest) := by
          rw [later, ← same.2]
        have shorter := ih next
        simp only [length_cons] at shorter ⊢
        omega

theorem cut_append (found : cut mark buffer = some (frame, rest)) (more : List α) :
    cut mark (buffer ++ more) = some (frame, rest ++ more) := by
  induction buffer generalizing frame with
  | nil => simp [cut] at found
  | cons first tail ih =>
    cases tail with
    | nil => simp [cut] at found
    | cons second tail =>
      by_cases doubled : first = mark ∧ second = mark
      · simp only [cut, if_pos doubled, Option.some.injEq, Prod.mk.injEq] at found
        rw [cons_append, cons_append, cut, if_pos doubled, ← found.1, ← found.2]
      · rw [cut_cons_cons mark first second tail doubled] at found
        rcases Option.map_eq_some_iff.mp found with ⟨parts, later, same⟩
        have next : cut mark (second :: tail) = some (parts.1, rest) := by
          rw [later, ← (Prod.mk.inj same).2]
        have longer := ih next
        rw [cons_append, cons_append, cut_cons_cons mark first second _ doubled,
          ← cons_append, longer, ← (Prod.mk.inj same).1]
        rfl

theorem cut_framed (frame rest : List α) (absent : mark ∉ frame) :
    cut mark (framed mark frame ++ rest) = some (frame, rest) := by
  induction frame with
  | nil => simp [framed, cut]
  | cons first tail ih =>
    have other : first ≠ mark := fun same => absent (same ▸ mem_cons_self)
    have later := ih (fun member => absent (mem_cons_of_mem _ member))
    have shape : ∃ second others, framed mark tail ++ rest = second :: others := by
      cases tail with
      | nil => exact ⟨mark, mark :: rest, rfl⟩
      | cons second others => exact ⟨second, others ++ [mark, mark] ++ rest, rfl⟩
    rcases shape with ⟨second, others, shape⟩
    have start : framed mark (first :: tail) ++ rest = first :: second :: others := by
      rw [← shape]
      rfl
    rw [shape] at later
    rw [start, cut_cons_cons mark first second others (fun both => other both.1), later]
    rfl

section Reading

variable (act : σ → List α → σ)

theorem drain_fuel (fuel : Nat) (state : σ) (buffer : List α) (enough : buffer.length ≤ fuel) :
    drain mark act fuel state buffer = drain mark act buffer.length state buffer := by
  induction fuel using Nat.strongRecOn generalizing state buffer with
  | ind fuel ih =>
    cases found : cut mark buffer with
    | none => cases fuel <;> cases buffer.length <;> simp [drain, found]
    | some parts =>
      rcases parts with ⟨frame, rest⟩
      have shorter := cut_length mark found
      cases size : buffer.length with
      | zero => omega
      | succ size' =>
        cases fuel with
        | zero => omega
        | succ fuel =>
          simp only [drain, found]
          have left := ih fuel (Nat.lt_succ_self _) (act state frame) rest (by omega)
          rw [left]
          by_cases exact' : size' = fuel
          · rw [exact', left]
          · exact (ih size' (by omega) (act state frame) rest (by omega)).symm

theorem drain_cut (found : cut mark buffer = some (frame, rest)) (state : σ) :
    drain mark act buffer.length state buffer =
      drain mark act rest.length (act state frame) rest := by
  have shorter := cut_length mark found
  cases size : buffer.length with
  | zero => omega
  | succ size' =>
    simp only [drain, found]
    exact drain_fuel mark act size' (act state frame) rest (by omega)

theorem drain_none (absent : cut mark buffer = none) (state : σ) :
    drain mark act buffer.length state buffer = (state, buffer) := by
  cases buffer.length with
  | zero => rfl
  | succ size => simp only [drain, absent]

theorem feed_append (held : σ × List α) (piece more : List α) :
    feed mark act (feed mark act held piece) more = feed mark act held (piece ++ more) := by
  rcases held with ⟨state, buffer⟩
  simp only [feed, ← append_assoc]
  generalize whole : buffer ++ piece = text
  clear whole
  induction size : text.length using Nat.strongRecOn generalizing state text with
  | ind size ih =>
    subst size
    cases found : cut mark text with
    | none => rw [drain_none mark act found]
    | some parts =>
      rcases parts with ⟨frame, rest⟩
      rw [drain_cut mark act found, drain_cut mark act (cut_append mark found more)]
      exact ih rest.length (cut_length mark found) (act state frame) rest rfl

theorem feedAll_flatten (held : σ × List α) (pieces : List (List α))
    (settled : drain mark act held.2.length held.1 held.2 = held) :
    feedAll mark act held pieces = feed mark act held pieces.flatten := by
  induction pieces using List.reverseRecOn with
  | nil => simp [feedAll, feed, settled]
  | append_singleton pieces piece ih =>
    calc
      feedAll mark act held (pieces ++ [piece])
        = feed mark act (feedAll mark act held pieces) piece := by simp [feedAll]
      _ = feed mark act (feed mark act held pieces.flatten) piece := by rw [ih]
      _ = feed mark act held (pieces ++ [piece]).flatten := by simp [feed_append]

theorem feed_framed (state : σ) (frames : List (List α)) (absent : ∀ frame ∈ frames, mark ∉ frame) :
    feed mark act (state, []) (frames.flatMap (framed mark)) = (frames.foldl act state, []) := by
  induction frames generalizing state with
  | nil => rfl
  | cons frame frames ih =>
    have found := cut_framed mark frame (frames.flatMap (framed mark))
      (absent frame mem_cons_self)
    have later := ih (act state frame) (fun f member => absent f (mem_cons_of_mem _ member))
    calc
      _ = drain mark act (framed mark frame ++ frames.flatMap (framed mark)).length state
            (framed mark frame ++ frames.flatMap (framed mark)) := rfl
      _ = drain mark act (frames.flatMap (framed mark)).length (act state frame)
            (frames.flatMap (framed mark)) := drain_cut mark act found state
      _ = (frames.foldl act (act state frame), []) := later

theorem feedAll_framed (state : σ) (frames : List (List α)) (pieces : List (List α))
    (absent : ∀ frame ∈ frames, mark ∉ frame)
    (body : pieces.flatten = frames.flatMap (framed mark)) :
    feedAll mark act (state, []) pieces = (frames.foldl act state, []) := by
  rw [feedAll_flatten mark act (state, []) pieces rfl, body]
  exact feed_framed mark act state frames absent

end Reading

end SourceLens.Frames
