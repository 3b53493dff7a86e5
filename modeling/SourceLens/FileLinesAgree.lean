import SourceLens.FileLines

/-! When the line that a search reports is the line that a read at its number begins with, and
when the window read keeps its lines as its numbers are taken off. -/

namespace SourceLens.FileLines

open LineEnds List
open PyText (isLineBreak stripRight)
open TextLines
open WorkspaceSearch (Match sliceTo)

variable {file front line back : File} {policy : Policy} {path : String} {number : Nat}
  {limit : Option Int}

variable {lines texts : List (List Char)} {text : List Char} {c : Char}

/-- The fallback ends a line at a boundary of `str.splitlines`, which a carriage return is not when
the next character is a newline. -/
def pythonEnds : Ends Decoded := fun item rest =>
  match item with
  | .char c =>
    isLineBreak c && !(decide (c = '\r') && decide ((ignoredText rest).head? = some '\n'))
  | .malformed => false

/-- What `str.splitlines` leaves of a line. -/
def lineContent (line : File) : List Char := (ignoredText line).takeWhile fun c => !isLineBreak c

theorem strictText_ignored : ∀ (file : File) (text : List Char), strictText file = some text →
    text = ignoredText file := by
  intro file
  induction file with
  | nil =>
    intro text decoded
    exact (Option.some.inj decoded).symm
  | cons item rest ih =>
    intro text decoded
    cases item with
    | malformed => cases decoded
    | char c =>
      rw [strictText, Option.map_eq_some_iff] at decoded
      obtain ⟨later, found, same⟩ := decoded
      rw [← same, ih later found]
      rfl

theorem readText_eq (file : File) : readText file = universalNewlines (ignoredText file) := by
  rw [readText]
  cases decoded : strictText file with
  | none => rfl
  | some text => rw [Option.getD_some, strictText_ignored file text decoded]

theorem universalNewlines_other (c : Char) (rest : List Char) (other : c ≠ '\r') :
    universalNewlines (c :: rest) = c :: universalNewlines rest := by
  rw [universalNewlines]
  · rw [if_neg other]
  · intro _ same
    exact absurd same other

theorem universalNewlines_return (rest : List Char) (lone : rest.head? ≠ some '\n') :
    universalNewlines ('\r' :: rest) = '\n' :: universalNewlines rest := by
  rw [universalNewlines]
  · rw [if_pos rfl]
  · intro later _ same
    subst same
    exact lone rfl

/-- The lines are the texts, or there is an empty line behind them. -/
def Covers (lines texts : List (List Char)) : Prop := lines = texts ∨ lines = texts ++ [[]]

theorem Covers.nil (covers : Covers [] texts) : texts = [] := by
  rcases covers with same | longer
  · exact same.symm
  · exact absurd longer.symm (by simp)

theorem Covers.push (c : Char) (covers : Covers lines texts) :
    Covers (pushChar c lines) (pushChar c texts) := by
  rcases covers with same | longer
  · exact .inl (by rw [same])
  · cases texts with
    | nil => exact .inl (by rw [longer]; rfl)
    | cons text texts => exact .inr (by rw [longer]; rfl)

theorem Covers.behind (covers : Covers lines texts) : Covers ([] :: lines) ([] :: texts) := by
  rcases covers with same | longer
  · exact .inl (by rw [same])
  · exact .inr (by rw [longer]; rfl)

theorem map_pushItem (c : Char) (plain : isLineBreak c = false) (lines : List File) :
    (pushItem (.char c) lines).map lineContent = pushChar c (lines.map lineContent) := by
  have content (line : File) : lineContent (.char c :: line) = c :: lineContent line := by
    simp [lineContent, ignoredText, plain]
  cases lines with
  | nil => exact congrArg ([·]) (content [])
  | cons line lines => simp [pushItem, pushChar, content]

theorem lineContent_break (c : Char) (line : File) (ends : isLineBreak c = true) :
    lineContent (.char c :: line) = [] := by
  simp [lineContent, ignoredText, ends]

theorem covers_pair {lines : List File}
    (covers : Covers (lines.map lineContent) (splitlines (universalNewlines ('\n' :: text)))) :
    Covers ((pushItem (.char '\r') lines).map lineContent)
      (splitlines (universalNewlines ('\r' :: '\n' :: text))) := by
  have one : universalNewlines ('\r' :: '\n' :: text) = universalNewlines ('\n' :: text) := by
    rw [universalNewlines_other '\n' text (by decide), universalNewlines]
  rw [one]
  rw [universalNewlines_other '\n' text (by decide), splitlines_newline] at covers ⊢
  cases lines with
  | nil => exact absurd covers.nil (by simp)
  | cons line lines =>
    have first : lineContent line = [] := by
      rcases covers with same | longer
      · exact (List.cons.inj same).1
      · exact (List.cons.inj longer).1
    rw [map_cons, first] at covers
    rw [pushItem, map_cons, lineContent_break '\r' line (by decide)]
    exact covers

theorem linesBy_python (file : File) :
    Covers ((linesBy pythonEnds file).map lineContent) (splitlines (readText file)) := by
  rw [readText_eq]
  induction file with
  | nil => exact .inl rfl
  | cons item rest ih =>
    cases item with
    | malformed =>
      rw [linesBy_running rfl]
      cases lines : linesBy pythonEnds rest with
      | nil =>
        rw [lines] at ih
        rw [ignoredText, ih.nil]
        exact .inr rfl
      | cons line later =>
        rw [lines] at ih
        exact ih
    | char c =>
      cases ends : isLineBreak c with
      | false =>
        have other : c ≠ '\r' := fun same => absurd ends (by rw [same]; decide)
        rw [linesBy_running (by simp [pythonEnds, ends]), map_pushItem c ends, ignoredText,
          universalNewlines_other c _ other, splitlines_cons_plain c _ ends]
        exact ih.push c
      | true =>
        by_cases pair : c = '\r' ∧ (ignoredText rest).head? = some '\n'
        · obtain ⟨rfl, next⟩ := pair
          obtain ⟨text, shape⟩ := head?_eq_some_iff.mp next
          rw [linesBy_running (by simp [pythonEnds, next]), ignoredText, shape]
          rw [shape] at ih
          exact covers_pair ih
        · have ended : pythonEnds (.char c) rest = true := by
            simpa [pythonEnds, ends] using not_and_or.mp pair
          have text : splitlines (universalNewlines (c :: ignoredText rest)) =
              [] :: splitlines (universalNewlines (ignoredText rest)) := by
            by_cases carriage : c = '\r'
            · subst carriage
              have lone : (ignoredText rest).head? ≠ some '\n' := fun next => pair ⟨rfl, next⟩
              rw [universalNewlines_return _ lone, splitlines_newline]
            · rw [universalNewlines_other c _ carriage]
              exact splitlines_break [] _ c (by simp [Unbroken]) ends carriage
          rw [linesBy_ended ended, map_cons, lineContent_break c [] ends, ignoredText, text]
          exact ih.behind

theorem Covers.get (covers : Covers lines texts) {index : Nat} (found : texts[index]? = some text) :
    lines[index]? = some text := by
  rcases covers with same | longer
  · rw [same, found]
  · rw [longer, List.getElem?_append_left (List.getElem?_eq_some_iff.mp found).1, found]

theorem mem_scan_iff {Line : Type} {found : Line → Bool} {cap : Int} {lines : List Line} :
    ∀ {count index number : Nat} {line : Line}, (number, line) ∈ scan found cap count index lines ↔
      ∃ turn, lines[turn]? = some line ∧ number = index + turn + 1 ∧ found line = true ∧
        (count : Int) + (lines.take turn).countP found < cap := by
  induction lines with
  | nil => simp [scan]
  | cons head lines ih =>
    intro count index number line
    rw [scan]
    split
    · constructor
      · exact fun none => absurd none not_mem_nil
      · intro shown
        obtain ⟨turn, -, -, -, room⟩ := shown
        omega
    · split
      · rename_i room fits
        rw [mem_cons, ih]
        constructor
        · intro member
          rcases member with same | ⟨turn, shown, place, found, room⟩
          · cases same
            exact ⟨0, rfl, rfl, fits, by simpa using room⟩
          · refine ⟨turn + 1, shown, by omega, found, ?_⟩
            rw [take_succ_cons, countP_cons_of_pos fits]
            omega
        · intro shown
          obtain ⟨turn, shown, place, found, room⟩ := shown
          cases turn with
          | zero =>
            obtain rfl := Option.some.inj shown
            exact .inl (by rw [place])
          | succ turn =>
            rw [take_succ_cons, countP_cons_of_pos fits] at room
            exact .inr ⟨turn, shown, by omega, found, by omega⟩
      · rename_i room misses
        rw [ih]
        constructor
        · intro member
          obtain ⟨turn, shown, place, found, room⟩ := member
          refine ⟨turn + 1, shown, by omega, found, ?_⟩
          rwa [take_succ_cons, countP_cons_of_neg misses]
        · intro shown
          obtain ⟨turn, shown, place, found, room⟩ := shown
          cases turn with
          | zero =>
            obtain rfl := Option.some.inj shown
            exact absurd found misses
          | succ turn =>
            rw [take_succ_cons, countP_cons_of_neg misses] at room
            exact ⟨turn, shown, by omega, found, room⟩

theorem pythonMatches_line {lower : String → String} {query : Terms} {contextLines : Int} {hit : Match}
    (member : hit ∈ pythonMatches lower query contextLines policy path file) :
    ∃ (index : Nat) (found : File × File), hit.line = index + 1 ∧ lineAt pythonEnds file index = some found ∧
      foundIn lower query (lineContent found.2) = true ∧
      hit.text = String.ofList (truncate (lineContent found.2) policy.maxLineChars) := by
  obtain ⟨⟨number, text⟩, scanned, same⟩ := mem_map.mp member
  obtain ⟨turn, shown, place, fits, -⟩ := mem_scan_iff.mp scanned
  have placed := (linesBy_python file).get shown
  rw [getElem?_map, Option.map_eq_some_iff] at placed
  obtain ⟨line, listed, content⟩ := placed
  refine ⟨turn, (((linesBy pythonEnds file).take turn).flatten, line), ?_, ?_, ?_, ?_⟩
  · rw [← same]
    dsimp only
    omega
  · rw [lineAt, listed]
    rfl
  · rw [content]
    exact fits
  · rw [content, ← same]

theorem window_head {index limit : Nat} :
    (∃ later, window file (index + 1) limit = ⟨index + 1, front, line⟩ :: later) ↔
      0 < limit ∧ lineAt handleEnds file index = some (front, line) := by
  cases limit with
  | zero => simp [window]
  | succ limit =>
    rw [window, Nat.add_sub_cancel]
    cases read : lineAt handleEnds file index with
    | none => simp
    | some found => simp [Prod.ext_iff]

theorem mem_window {raw : Raw} : ∀ {offset limit : Nat}, raw ∈ window file offset limit →
    ∃ index, lineAt handleEnds file index = some (raw.passed, raw.line) := by
  intro offset limit member
  induction limit generalizing offset with
  | zero => cases member
  | succ limit ih =>
    rw [window] at member
    cases read : lineAt handleEnds file (offset - 1) with
    | none =>
      rw [read] at member
      cases member
    | some found =>
      rw [read] at member
      rcases mem_cons.mp member with same | behind
      · rw [same]
        exact ⟨_, read⟩
      · exact ih behind

def NewlineLast (text : List Char) : Prop :=
  ∃ shown, '\n' ∉ shown ∧ (text = shown ∨ text = shown ++ ['\n'])

theorem NewlineLast.behind (last : NewlineLast text) (other : c ≠ '\n') :
    NewlineLast (c :: text) := by
  obtain ⟨shown, absent, shape⟩ := last
  refine ⟨c :: shown, by simp [absent, other.symm], ?_⟩
  rcases shape with whole | ended
  · exact .inl (by rw [whole])
  · exact .inr (by rw [ended]; rfl)

theorem universalNewlines_last (c : Char) : NewlineLast (universalNewlines [c]) := by
  by_cases ends : c = '\n' ∨ c = '\r'
  · refine ⟨[], by simp, .inr ?_⟩
    rcases ends with rfl | rfl <;> rfl
  · rw [not_or] at ends
    rw [universalNewlines_other c [] ends.2]
    exact ⟨[c], by simpa using Ne.symm ends.1, .inl rfl⟩

theorem handle_newlineLast (inner : InnerHave (fun item rest => !handleEnds item rest) line back) :
    NewlineLast (universalNewlines (replacedText line)) := by
  induction line with
  | nil => exact ⟨[], by simp, .inl rfl⟩
  | cons item line ih =>
    cases line with
    | nil =>
      cases item with
      | malformed => exact universalNewlines_last '\uFFFD'
      | char c => exact universalNewlines_last c
    | cons next line =>
      have later := ih inner.2
      have running : handleEnds item (next :: line ++ back) = false := by simpa using inner.1
      cases item with
      | malformed =>
        rw [replacedText, universalNewlines_other _ _ (by decide)]
        exact later.behind (by decide)
      | char c =>
        simp only [handleEnds, cons_append, head?_cons, Option.some.injEq,
          Decoded.char.injEq, Bool.or_eq_false_iff, decide_eq_false_iff_not, Bool.and_eq_false_imp,
          decide_eq_true_eq, Bool.not_eq_false'] at running
        by_cases carriage : c = '\r'
        · -- the newline after the carriage return ends the line
          have newline := running.2 carriage
          subst carriage newline
          cases line with
          | nil => exact universalNewlines_last '\n'
          | cons third line => exact absurd inner.2.1 (by simp [handleEnds])
        · rw [replacedText, universalNewlines_other c _ carriage]
          exact later.behind running.1

theorem stripRight_newline (last : NewlineLast text) :
    '\n' ∉ stripRight (fun c => decide (c = '\n')) text := by
  obtain ⟨shown, absent, shape⟩ := last
  intro member
  rw [stripRight, mem_reverse] at member
  apply absent
  rw [← mem_reverse]
  rcases shape with whole | ended
  · rw [whole] at member
    exact (dropWhile_sublist _).subset member
  · rw [ended, reverse_append] at member
    exact (dropWhile_sublist _).subset member

theorem mem_truncate {maxChars : Int} (member : c ∈ truncate text maxChars) :
    c ∈ text ∨ c ∈ "…[truncated]".toList := by
  rw [truncate] at member
  split at member
  · exact .inl member
  · exact (mem_append.mp member).imp_left fun kept => (take_sublist _ _).subset kept

theorem lineText_newline {raw : Raw} {offset count : Nat} (member : raw ∈ window file offset count) :
    '\n' ∉ lineText policy raw.line := by
  obtain ⟨index, read⟩ := mem_window member
  obtain ⟨back, -, isLine⟩ := lineAt_iff.mp read
  intro newline
  rcases mem_truncate newline with shown | mark
  · exact stripRight_newline (handle_newlineLast isLine.inner) shown
  · exact absurd mark (by decide)

def numbered (policy : Policy) (raw : Raw) : List Char :=
  numberPrefix raw.number ++ lineText policy raw.line

theorem digit_plain (digit : c.isDigit = true) : isLineBreak c = false := by
  simp only [Char.isDigit, Bool.and_eq_true, decide_eq_true_eq, UInt32.le_iff_toNat_le] at digit
  have low : 48 ≤ c.toNat := digit.1
  have high : c.toNat ≤ 57 := digit.2
  simp only [isLineBreak, Bool.or_eq_false_iff, Bool.and_eq_false_imp, decide_eq_true_eq,
    decide_eq_false_iff_not, beq_eq_false_iff_ne]
  omega

theorem numberPrefix_unbroken (number : Nat) : Unbroken (numberPrefix number) := by
  rw [numberPrefix, unbroken_append]
  constructor
  · intro c member
    have digits : c ∈ Nat.toDigits 10 number := by simpa [Nat.repr] using member
    exact digit_plain (Nat.isDigit_of_mem_toDigits (by decide) (by decide) digits)
  · simp [Unbroken, isLineBreak]

theorem numbered_filled (raw : Raw) : numbered policy raw ≠ [] := by
  simp [numbered, numberPrefix]

theorem numbered_unbroken (raw : Raw) :
    Unbroken (numbered policy raw) ↔ Unbroken (lineText policy raw.line) := by
  rw [numbered, unbroken_append]
  exact and_iff_right (numberPrefix_unbroken raw.number)

theorem unnumberedLine_numbered (number : Nat) (text : List Char) :
    unnumberedLine number (numberPrefix number ++ text) = text := by
  have begins : (numberPrefix number).isPrefixOf (numberPrefix number ++ text) = true :=
    isPrefixOf_iff_prefix.mpr (prefix_append _ _)
  rw [unnumberedLine, if_pos begins, drop_left]

theorem unnumberedLines_window (offset count : Nat) :
    unnumberedLines offset ((window file offset count).map (numbered policy)) =
      (window file offset count).map fun raw => lineText policy raw.line := by
  induction count generalizing offset with
  | zero => rfl
  | succ count ih =>
    rw [window]
    cases lineAt handleEnds file (offset - 1) with
    | none => rfl
    | some found =>
      simp only [map_cons, unnumberedLines, ih]
      rw [numbered, unnumberedLine_numbered]

theorem unnumberedLines_unbroken (number : Nat) (lines : List (List Char))
    (unbroken : ∀ line ∈ lines, Unbroken line) :
    ∀ line ∈ unnumberedLines number lines, Unbroken line := by
  induction lines generalizing number with
  | nil => nofun
  | cons first lines ih =>
    intro line member
    rcases mem_cons.mp member with same | behind
    · have whole := unbroken first mem_cons_self
      rw [same, unnumberedLine]
      split
      · exact fun c inside => whole c (mem_of_mem_drop inside)
      · exact whole
    · exact ih (number + 1) (fun line member => unbroken line (mem_cons_of_mem _ member)) line behind

theorem mem_joinLines (member : c ∈ joinLines lines) : c = '\n' ∨ ∃ line ∈ lines, c ∈ line := by
  induction lines with
  | nil => cases member
  | cons line lines ih =>
    cases lines with
    | nil => exact .inr ⟨line, mem_singleton_self _, by simpa [joinLines] using member⟩
    | cons next lines =>
      rw [joinLines, intercalate_cons_cons] at member
      simp only [mem_append, mem_singleton] at member
      rcases member with (inside | mark) | behind
      · exact .inr ⟨line, mem_cons_self, inside⟩
      · exact .inl mark
      · rcases ih behind with mark | ⟨other, listed, inside⟩
        · exact .inl mark
        · exact .inr ⟨other, mem_cons_of_mem _ listed, inside⟩

theorem joinLines_mem {line : List Char} (listed : line ∈ lines) (inside : c ∈ line) :
    c ∈ joinLines lines := by
  induction lines with
  | nil => cases listed
  | cons first lines ih =>
    cases lines with
    | nil =>
      have same := mem_singleton.mp listed
      subst same
      simpa [joinLines] using inside
    | cons next lines =>
      rw [joinLines, intercalate_cons_cons]
      rcases mem_cons.mp listed with same | behind
      · subst same
        simp [inside]
      · exact mem_append_right _ (ih behind)

theorem unnumberedSource_iff {result : Window} {offset count : Nat}
    (content : result.content = joinLines ((window file offset count).map (numbered policy)))
    (start : window file offset count ≠ [] → result.startLine = offset) :
    unnumberedSource result = joinLines ((window file offset count).map fun raw => lineText policy raw.line) ↔
      ∀ raw ∈ window file offset count, Unbroken (lineText policy raw.line) := by
  constructor
  · intro same raw member c inside
    have listed : lineText policy raw.line ∈
        (window file offset count).map fun raw => lineText policy raw.line :=
      mem_map.mpr ⟨raw, member, rfl⟩
    have joined := joinLines_mem listed inside
    rw [← same, unnumberedSource] at joined
    split at joined
    · cases joined
    · have plain := unnumberedLines_unbroken result.startLine _ (splitlines_unbroken result.content)
      rcases mem_joinLines joined with newline | ⟨line, listed, within⟩
      · rw [newline] at inside
        exact absurd inside (lineText_newline member)
      · exact plain line listed c within
  · intro unbroken
    cases lines : window file offset count with
    | nil =>
      rw [lines] at content
      rw [unnumberedSource, content]
      rfl
    | cons raw later =>
      have filled : window file offset count ≠ [] := by
        rw [lines]
        exact cons_ne_nil _ _
      have split : splitlines result.content = (window file offset count).map (numbered policy) := by
        rw [content]
        apply splitlines_joinLines
        · intro line listed
          obtain ⟨raw, -, rfl⟩ := mem_map.mp listed
          exact numbered_filled raw
        · intro line listed
          obtain ⟨raw, member, rfl⟩ := mem_map.mp listed
          exact (numbered_unbroken raw).mpr (unbroken raw member)
      have shown : result.content.isEmpty = false := by
        cases text : result.content with
        | nil =>
          rw [text, splitlines] at split
          exact absurd (map_eq_nil_iff.mp split.symm) filled
        | cons c rest => rfl
      rw [unnumberedSource, shown, split, start filled, unnumberedLines_window, lines]
      rfl

inductive Search
  /-- ripgrep, with the lines that its patterns match. -/
  | rg (found : File → Bool)
  | python (lower : String → String) (query : Terms) (contextLines : Int)

def Search.numbers (search : Search) (policy : Policy) (path : String) (file : File) : List Int :=
  match search with
  | .rg found => (rgMatches found policy file).map fun (number : Nat) => (number : Int)
  | .python lower query contextLines =>
    (pythonMatches lower query contextLines policy path file).map Match.line

def Search.ends : Search → Ends Decoded
  | .rg _ => rgEnds
  | .python .. => pythonEnds

/-- What only the read takes for the end of a line: a carriage return that no newline follows,
which the fallback does not take for one when malformed bytes and a newline follow. -/
def Search.readOnly : Search → Ends Decoded
  | .rg _ => fun item rest =>
    decide (item = .char '\r') && !decide (rest.head? = some (.char '\n'))
  | .python .. => fun item rest =>
    decide (item = .char '\r') && !decide (rest.head? = some (.char '\n')) &&
      decide ((ignoredText rest).head? = some '\n')

/-- What only the search takes for the end of a line: the other boundaries of `str.splitlines`. -/
def Search.searchOnly : Search → Ends Decoded
  | .rg _ => fun _ _ => false
  | .python .. => fun item _ =>
    match item with
    | .char c => isLineBreak c && !decide (c = '\n') && !decide (c = '\r')
    | .malformed => false

/-- The read at the number begins with the line of the search, and its lines are what is left
when the numbers are taken off. -/
def ReadsBack (search : Search) (policy : Policy) (path : String) (file : File) (number : Nat)
    (limit : Option Int) : Prop :=
  let raws := window file number (boundedLimit limit policy).toNat
  (∃ found later, lineAt search.ends file (number - 1) = some found ∧
    raws = ⟨number, found.1, found.2⟩ :: later) ∧
  ∃ result, readWorkspaceWindow path file number limit policy = some result ∧
    unnumberedSource result = joinLines (raws.map fun raw => lineText policy raw.line)

/-- There is room for a line; up to the line of the search nothing ends lines in one way and not in
the other, or as often in each; and no line shown holds a boundary. -/
structure InStep (search : Search) (policy : Policy) (file : File) (number : Nat)
    (limit : Option Int) : Prop where
  room : 0 < boundedLimit limit policy
  aligned : ∀ front line, lineAt search.ends file (number - 1) = some (front, line) →
    Aligned search.readOnly search.searchOnly front line (file.drop (front.length + line.length))
  plain : ∀ raw ∈ window file number (boundedLimit limit policy).toNat,
    Unbroken (lineText policy raw.line)

theorem onlyIn_read (search : Search) : onlyIn handleEnds search.ends = search.readOnly := by
  funext item rest
  cases search with
  | rg found =>
    simp only [onlyIn, handleEnds, Search.ends, Search.readOnly, rgEnds]
    by_cases newline : item = .char '\n'
    · simp [newline]
    · simp [newline]
  | python lower query contextLines =>
    simp only [onlyIn, handleEnds, Search.ends, Search.readOnly]
    cases item with
    | malformed => simp [pythonEnds]
    | char c =>
      by_cases newline : c = '\n'
      · subst newline
        simp [pythonEnds, isLineBreak]
      · by_cases carriage : c = '\r'
        · subst carriage
          simp [pythonEnds, isLineBreak]
        · simp [newline, carriage]

theorem onlyIn_search (search : Search) : onlyIn search.ends handleEnds = search.searchOnly := by
  funext item rest
  cases search with
  | rg found =>
    by_cases newline : item = .char '\n'
    · simp [onlyIn, handleEnds, Search.ends, Search.searchOnly, rgEnds, newline]
    · simp [onlyIn, handleEnds, Search.ends, Search.searchOnly, rgEnds, newline]
  | python lower query contextLines =>
    simp only [onlyIn, handleEnds, Search.ends, Search.searchOnly]
    cases item with
    | malformed => rfl
    | char c =>
      by_cases newline : c = '\n'
      · subst newline
        simp
      · by_cases carriage : c = '\r'
        · subst carriage
          have next : rest.head? = some (.char '\n') → (ignoredText rest).head? = some '\n' := by
            intro first
            obtain ⟨later, shape⟩ := head?_eq_some_iff.mp first
            rw [shape]
            rfl
          simpa [pythonEnds, isLineBreak, or_comm, imp_iff_or_not] using next
        · simp [pythonEnds, newline, carriage]

theorem numbers_line {search : Search} {reported : Int}
    (member : reported ∈ search.numbers policy path file) :
    ∃ (index : Nat) (found : File × File), reported = index + 1 ∧
      lineAt search.ends file index = some found := by
  cases search with
  | rg found =>
    obtain ⟨number, listed, same⟩ := mem_map.mp member
    obtain ⟨⟨other, line⟩, scanned, equal⟩ := mem_map.mp listed
    obtain ⟨turn, shown, place, -⟩ := mem_scan_iff.mp scanned
    refine ⟨turn, (((linesBy rgEnds file).take turn).flatten, line), ?_, ?_⟩
    · rw [← same, ← equal]
      dsimp only
      omega
    · rw [Search.ends, lineAt, shown]
      rfl
  | python lower query contextLines =>
    obtain ⟨hit, listed, same⟩ := mem_map.mp member
    obtain ⟨index, found, place, read, -⟩ := pythonMatches_line listed
    exact ⟨index, found, by rw [← same, place], read⟩

theorem readWorkspaceWindow_eq (path : String) (file : File) (index : Nat) (limit : Option Int)
    (policy : Policy) (room : 0 < boundedLimit limit policy) :
    ∃ result, readWorkspaceWindow path file (index + 1 : Nat) limit policy = some result ∧
      result.content = joinLines
        ((window file (index + 1) (boundedLimit limit policy).toNat).map (numbered policy)) ∧
      (window file (index + 1) (boundedLimit limit policy).toNat ≠ [] →
        result.startLine = index + 1) := by
  have offset : (max 1 ((index + 1 : Nat) : Int)).toNat = index + 1 := by omega
  have stop : ¬(((index + 1 : Nat) : Int) - 1 + boundedLimit limit policy < 0) := by omega
  simp only [readWorkspaceWindow, offset, if_neg stop]
  refine ⟨_, rfl, ?_, ?_⟩
  · rw [map_map]
    rfl
  · intro filled
    simp [filled]

theorem readsBack_iff (search : Search) (policy : Policy) (path : String) (file : File) (number : Nat)
    (limit : Option Int) (reported : (number : Int) ∈ search.numbers policy path file) :
    ReadsBack search policy path file number limit ↔ InStep search policy file number limit := by
  obtain ⟨index, ⟨front, line⟩, place, found⟩ := numbers_line reported
  obtain rfl : number = index + 1 := by omega
  obtain ⟨back, whole, isLine⟩ := lineAt_iff.mp found
  have behind : file.drop (front.length + line.length) = back := by
    rw [whole, ← append_assoc, ← length_append, drop_left]
  have same : lineAt handleEnds file index = some (front, line) ↔
      Aligned search.readOnly search.searchOnly front line back := by
    have compared := lineAt_same_iff handleEnds isLine
    rwa [← whole, onlyIn_read, onlyIn_search] at compared
  constructor
  · intro reads
    obtain ⟨⟨other, later, placed, begins⟩, result, read, stays⟩ := reads
    rw [Nat.add_sub_cancel, found] at placed
    obtain rfl := Option.some.inj placed
    have head := window_head.mp ⟨later, begins⟩
    have room : 0 < boundedLimit limit policy := by
      have positive := head.1
      omega
    obtain ⟨other, again, content, start⟩ := readWorkspaceWindow_eq path file index limit policy room
    obtain rfl := Option.some.inj (again.symm.trans read)
    constructor
    · exact room
    · intro before own placed
      rw [Nat.add_sub_cancel, found] at placed
      obtain ⟨rfl, rfl⟩ := Prod.mk.inj (Option.some.inj placed)
      rw [behind]
      exact same.mp head.2
    · exact (unnumberedSource_iff content start).mp stays
  · intro inStep
    have room := inStep.room
    have aligned := inStep.aligned front line found
    rw [behind] at aligned
    obtain ⟨later, begins⟩ := window_head.mpr
      ⟨(by omega : 0 < (boundedLimit limit policy).toNat), same.mpr aligned⟩
    obtain ⟨result, read, content, start⟩ := readWorkspaceWindow_eq path file index limit policy room
    exact ⟨⟨(front, line), later, found, begins⟩, result, read,
      (unnumberedSource_iff content start).mpr inStep.plain⟩

def letters (text : String) : File := text.toList.map Decoded.char

def plainPolicy : Policy := ⟨500, 250, 15⟩

def letterSearch : Search := .rg fun line => line.any fun item => decide (item = .char 'c')

/-- In a file with two kinds of line ends the third line is found and read. -/
theorem newlines_readsBack :
    ReadsBack letterSearch plainPolicy "f" (letters "a\r\nb\nc") 3 (some 1) := by
  apply (readsBack_iff letterSearch plainPolicy "f" _ 3 (some 1) (by decide)).mpr
  constructor
  · decide
  · intro front line found
    have place : lineAt letterSearch.ends (letters "a\r\nb\nc") 2 =
        some (letters "a\r\nb\n", letters "c") := by decide
    obtain ⟨rfl, rfl⟩ := Prod.mk.inj (Option.some.inj (place.symm.trans found))
    exact ⟨by decide, by decide, by decide, by decide⟩
  · decide

/-- The read takes a lone carriage return for the end of a line and begins with another line. -/
theorem lone_return_misread :
    2 ∈ letterSearch.numbers plainPolicy "f" (letters "a\rb\nc") ∧
      ¬ReadsBack letterSearch plainPolicy "f" (letters "a\rb\nc") 2 none := by
  refine ⟨by decide, ?_⟩
  intro reads
  obtain ⟨⟨found, later, placed, begins⟩, -⟩ := reads
  have place : lineAt letterSearch.ends (letters "a\rb\nc") 1 =
      some (letters "a\rb\n", letters "c") := by decide
  obtain rfl := Option.some.inj (place.symm.trans placed)
  have other := (window_head.mp ⟨later, begins⟩).2
  exact absurd other (by decide)

end SourceLens.FileLines
