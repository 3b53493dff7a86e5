import SourceLens.EvidenceBundle
import SourceLens.FileLinesAgree

/-! What a citation that passes the checks says of the window its item was read from: the item may
have been cut at the budget, in the last line of its range. -/

namespace SourceLens.EvidenceBundle

open List
open FileLines (File readWorkspaceWindow numbered numberPrefix lineText window)
open PosixPath (Path)
open PyText (isLineBreak)
open TextLines (joinLines splitlines universalNewlines)

variable {env : Env} {context : Context} {bundle : Bundle} {item : EvidenceItem}
  {raw : List RawItem} {maxTokens used : Int} {id supports : String} {cited : Citation}

theorem universalNewlines_no_return (text : List Char) : '\r' ∉ universalNewlines text := by
  fun_induction universalNewlines text with
  | case1 => simp
  | case2 rest ih => simp [ih]
  | case3 c rest _ ih =>
    rw [mem_cons, not_or]
    constructor
    · split
      · decide
      · rename_i other
        exact Ne.symm other
    · exact ih

theorem lineText_no_return (policy : FileLines.Policy) (line : File) : '\r' ∉ lineText policy line := by
  intro member
  rcases FileLines.mem_truncate member with kept | mark
  · rw [PyText.stripRight, mem_reverse] at kept
    have shown := (dropWhile_sublist _).subset kept
    rw [mem_reverse] at shown
    exact universalNewlines_no_return _ shown
  · exact absurd mark (by decide)

theorem window_no_return (policy : FileLines.Policy) (file : File) (offset count : Nat) :
    '\r' ∉ joinLines ((window file offset count).map (numbered policy)) := by
  intro member
  rcases FileLines.mem_joinLines member with newline | ⟨line, listed, inside⟩
  · exact absurd newline (by decide)
  · obtain ⟨raw, -, rfl⟩ := mem_map.mp listed
    rcases mem_append.mp inside with number | text
    · exact absurd (FileLines.numberPrefix_unbroken raw.number _ number) (by decide)
    · exact lineText_no_return policy raw.line text

theorem readWorkspaceWindow_range {path : String} {file : File} {offset : Int} {limit : Option Int}
    {policy : FileLines.Policy} {shown : FileLines.Window}
    (read : readWorkspaceWindow path file offset limit policy = some shown) :
    '\r' ∉ shown.content ∧
      (shown.content ≠ [] → 1 ≤ shown.startLine ∧ shown.startLine ≤ shown.endLine) := by
  rw [readWorkspaceWindow] at read
  split at read
  · cases read
  · obtain rfl := Option.some.inj read
    simp only [map_map]
    constructor
    · exact window_no_return policy file _ _
    · intro filled
      have lines : window file (max 1 offset).toNat (FileLines.boundedLimit limit policy).toNat ≠ [] := by
        intro none
        exact filled (by rw [none]; rfl)
      have positive := length_pos_of_ne_nil lines
      simp only [isEmpty_map, isEmpty_eq_false_iff.mpr lines, length_map]
      constructor
      · simp only [Bool.false_eq_true, if_false]
        omega
      · simp only [Bool.false_eq_true, if_false]
        omega

theorem mem_uniqueItems (seen : List Key) (items : List EvidenceItem) :
    ∀ item ∈ uniqueItems seen items, item ∈ items := by
  induction items generalizing seen with
  | nil => exact fun _ member => member
  | cons first rest ih =>
    intro item member
    rw [uniqueItems] at member
    split at member
    · exact mem_cons_of_mem _ (ih seen item member)
    · rcases mem_cons.mp member with same | later
      · exact same ▸ mem_cons_self
      · exact mem_cons_of_mem _ (ih _ item later)

/-- The item is the other one, with the beginning of its content. -/
structure CutOf (item source : EvidenceItem) : Prop where
  same : item = { source with content := item.content }
  begins : item.content <+: source.content
  filled : item.content ≠ []

theorem mem_selectItems (items : List EvidenceItem) :
    ∀ used, ∀ item ∈ selectItems maxTokens used items, ∃ source ∈ items, CutOf item source := by
  induction items with
  | nil => exact fun _ _ member => absurd member not_mem_nil
  | cons source rest ih =>
    intro used item member
    have later {used : Int} (member : item ∈ selectItems maxTokens used rest) :
        ∃ other ∈ source :: rest, CutOf item other := by
      obtain ⟨other, listed, cut⟩ := ih used item member
      exact ⟨other, mem_cons_of_mem _ listed, cut⟩
    rw [selectItems] at member
    dsimp only at member
    split at member
    · cases member
    · split at member
      · exact later member
      · rename_i shown
        rcases mem_cons.mp member with same | behind
        · refine ⟨source, mem_cons_self, ?_⟩
          subst same
          exact ⟨rfl, take_prefix _ _, by simpa using shown⟩
        · exact later behind

theorem mem_bundle (member : item ∈ (buildEvidenceBundle raw maxTokens).items) :
    ∃ source ∈ raw.map evidenceItem, CutOf item source := by
  obtain ⟨source, listed, cut⟩ := mem_selectItems _ 0 item member
  have unique : source ∈ uniqueItems [] (raw.map evidenceItem) :=
    (perm_insertionSort Ranks _).mem_iff.mp listed
  exact ⟨source, mem_uniqueItems [] _ source unique, cut⟩

/-- The item is of a window that was read, or of what an earlier bundle kept of it. -/
structure FromWindow (item : EvidenceItem) : Prop where
  read : ∃ path file offset limit policy shown,
    readWorkspaceWindow path file offset limit policy = some shown ∧ item.whole = shown.content ∧
      item.startLine = some (shown.startLine : Int) ∧ item.endLine = some (shown.endLine : Int)
  begins : item.content <+: item.whole

/-- The citation names a source item that holds the whole window, and its path lies below the root. -/
def Supported (env : Env) (bundle : Bundle) (cited : Citation) : Prop :=
  ∃ item, sourceItem env bundle cited.evidenceId = some item ∧ cited.source = item.content ∧
    item.startLine = some cited.startLine ∧ item.endLine = some cited.endLine ∧
    item.whole <:+: item.content ∧
    ∃ path, env.resolve (PosixPath.join env.root item.path.toList) = some (env.root ++ path) ∧
      cited.path = PosixPath.asPosix path

def AllSupported (env : Env) (context : Context) (citations : List Json) (bundle : Bundle) : Prop :=
  ∀ cited ∈ (validateCitations env context citations bundle).1, Supported env bundle cited

/-- An item that is cited and was cut has fewer line boundaries in front of its last character than
its window has line ends. -/
def CutsShow (env : Env) (bundle : Bundle) (citations : List Json) : Prop :=
  ∀ citation ∈ citations, ∀ item start stop,
    sourceItem env bundle (textField env citation "evidence_id") = some item →
    textField env citation "supports" ≠ "" → (relativePath env item).isSome →
    item.startLine = some start → item.endLine = some stop → item.content ≠ item.whole →
    ((item.content.dropLast.filter isLineBreak).length : Int) < stop - start

theorem sourceItem_mem (found : sourceItem env bundle id = some item) :
    item ∈ bundle.items ∧ item.evidenceType = "source" := by
  have listed := mem_of_find?_eq_some found
  rw [mem_reverse, mem_filter, decide_eq_true_eq] at listed
  exact listed

theorem relativePath_inside {path : Path} (found : relativePath env item = some path) :
    env.resolve (PosixPath.join env.root item.path.toList) = some (env.root ++ path) := by
  rw [relativePath, Option.bind_eq_some_iff] at found
  obtain ⟨whole, resolved, inside⟩ := found
  split at inside
  · rename_i below
    obtain ⟨rest, shape⟩ := below
    split at inside
    · rw [← shape, drop_left] at inside
      rw [resolved, ← shape, Option.some.inj inside]
    · cases inside
  · cases inside

theorem citationOf_some (passed : citationOf env context id supports item = some cited) :
    ∃ path, relativePath env item = some path ∧ item.startLine = some cited.startLine ∧
      item.endLine = some cited.endLine ∧ cited.path = PosixPath.asPosix path ∧
      cited.evidenceId = id ∧ cited.source = item.content ∧
      cited.endLine - cited.startLine + 1 ≤ ((splitlines item.content).length : Int) := by
  rw [citationOf] at passed
  split at passed
  · rename_i path start stop below first last
    split at passed
    · cases passed
    · rename_i complete
      obtain rfl := Option.some.inj passed
      simp only [not_or, not_lt] at complete
      exact ⟨path, below, first, last, rfl, rfl, rfl, complete.2.2⟩
  · cases passed

theorem citationOf_isSome (env : Env) (context : Context) (id supports : String) {start stop : Int}
    (below : (relativePath env item).isSome)
    (first : item.startLine = some start) (last : item.endLine = some stop) (positive : 1 ≤ start)
    (ordered : start ≤ stop)
    (complete : stop - start + 1 ≤ ((splitlines item.content).length : Int)) :
    ∃ cited, citationOf env context id supports item = some cited := by
  obtain ⟨path, below⟩ := Option.isSome_iff_exists.mp below
  rw [citationOf, below, first, last]
  dsimp only
  rw [if_neg (by omega)]
  exact ⟨_, rfl⟩

theorem validateCitation_eq_some {citation : Json} :
    validateCitation env context bundle citation = some cited ↔
      ∃ item, sourceItem env bundle (textField env citation "evidence_id") = some item ∧
        textField env citation "supports" ≠ "" ∧
        citationOf env context (textField env citation "evidence_id")
          (textField env citation "supports") item = some cited := by
  rw [validateCitation, Option.bind_eq_some_iff]
  constructor
  · intro passed
    obtain ⟨item, found, passed⟩ := passed
    split at passed
    · cases passed
    · rename_i filled
      exact ⟨item, found, filled, passed⟩
  · intro passed
    obtain ⟨item, found, filled, passed⟩ := passed
    exact ⟨item, found, by rw [if_neg filled, passed]⟩

theorem CutOf.fromWindow {source : EvidenceItem} (cut : CutOf item source)
    (windowed : FromWindow source) : FromWindow item where
  read := by
    rw [cut.same]
    exact windowed.read
  begins := by
    have whole : item.whole = source.whole := by rw [cut.same]
    rw [whole]
    exact cut.begins.trans windowed.begins

theorem FromWindow.lines (windowed : FromWindow item) (filled : item.content ≠ []) :
    (splitlines item.content).length = (item.content.dropLast.filter isLineBreak).length + 1 ∧
      ∃ start stop : Int, item.startLine = some start ∧ item.endLine = some stop ∧ 1 ≤ start ∧
        start ≤ stop := by
  obtain ⟨path, file, offset, limit, policy, shown, read, whole, first, last⟩ := windowed.read
  obtain ⟨plain, range⟩ := readWorkspaceWindow_range read
  have begins := windowed.begins
  rw [whole] at begins
  constructor
  · apply TextLines.splitlines_length _ filled
    exact fun member => plain (begins.subset member)
  · have some_ : shown.content ≠ [] := by
      intro none
      rw [none, prefix_nil] at begins
      exact filled begins
    have ordered := range some_
    exact ⟨_, _, first, last, by omega, by omega⟩

/-- Every citation that passes is supported exactly when no cited item is cut in the last line of
its range, or behind as many other boundaries as lines are missing. -/
theorem citations_supported_iff (env : Env) (context : Context) (citations : List Json)
    (raw : List RawItem) (maxTokens : Int)
    (windowed : ∀ item ∈ raw.map evidenceItem, item.evidenceType = "source" → FromWindow item) :
    AllSupported env context citations (buildEvidenceBundle raw maxTokens) ↔
      CutsShow env (buildEvidenceBundle raw maxTokens) citations := by
  have kept {id : String} {item : EvidenceItem}
      (found : sourceItem env (buildEvidenceBundle raw maxTokens) id = some item) :
      FromWindow item ∧ item.content ≠ [] := by
    obtain ⟨member, kind⟩ := sourceItem_mem found
    obtain ⟨source, listed, cut⟩ := mem_bundle member
    have same : source.evidenceType = "source" := by
      rw [← kind, cut.same]
    exact ⟨cut.fromWindow (windowed source listed same), cut.filled⟩
  constructor
  · intro supported citation listed item start stop found filled below first last cut
    by_contra many
    obtain ⟨windowed, shown⟩ := kept found
    obtain ⟨counted, start', stop', first', last', positive, ordered⟩ := windowed.lines shown
    obtain rfl := Option.some.inj (first.symm.trans first')
    obtain rfl := Option.some.inj (last.symm.trans last')
    obtain ⟨cited, passed⟩ := citationOf_isSome env context (textField env citation "evidence_id")
      (textField env citation "supports") below first last positive ordered (by omega)
    have valid := validateCitation_eq_some.mpr ⟨item, found, filled, passed⟩
    obtain ⟨_, _, _, _, _, named, _⟩ := citationOf_some passed
    obtain ⟨other, again, _, _, _, inside, _⟩ :=
      supported cited (mem_filterMap.mpr ⟨citation, listed, valid⟩)
    rw [named, found] at again
    obtain rfl := Option.some.inj again
    exact cut (windowed.begins.eq_of_length_le inside.length_le)
  · intro cutsShow cited valid
    obtain ⟨citation, listed, passed⟩ := mem_filterMap.mp valid
    obtain ⟨item, found, filled, passed⟩ := validateCitation_eq_some.mp passed
    obtain ⟨path, below, first, last, placed, named, source, complete⟩ := citationOf_some passed
    obtain ⟨windowed, shown⟩ := kept found
    have counted := (windowed.lines shown).1
    have whole : item.content = item.whole := by
      by_contra cut
      have few := cutsShow citation listed item cited.startLine cited.endLine found filled
        (Option.isSome_iff_exists.mpr ⟨path, below⟩) first last cut
      omega
    have inside : item.whole <:+: item.content := ⟨[], [], by simp [whole]⟩
    exact ⟨item, by rw [named, found], source, first, last, inside, path, relativePath_inside below,
      placed⟩

def twoLines : FileLines.Window where
  path := "a"
  startLine := 1
  endLine := 2
  returnedLines := 2
  hasMore := false
  content := "1\tab\n2\tcdef".toList

def windowItem : RawItem := .fields {
  evidenceType := "source"
  content := twoLines.content
  path := "a"
  symbol := ""
  startLine := some twoLines.startLine
  endLine := some twoLines.endLine
  provenance := "read_workspace_file"
  whole := twoLines.content }

def plainEnv : Env where
  root := []
  resolve := some
  isFile _ := true
  digest _ := "0"
  str
    | .str text => text
    | _ => ""

def plainCitation : Json := .obj [("evidence_id", .str "evidence-0"), ("supports", .str "x")]

theorem twoLines_read :
    readWorkspaceWindow "a" (FileLines.letters "ab\ncdef") 1 none FileLines.plainPolicy = some twoLines := by
  decide

/-- Within a budget that holds the window, the citation that passes is supported. -/
theorem twoLines_supported :
    AllSupported plainEnv ⟨"", "", ""⟩ [plainCitation] (buildEvidenceBundle [windowItem] 100) := by
  apply (citations_supported_iff plainEnv ⟨"", "", ""⟩ [plainCitation] [windowItem] 100 _).mpr
  · intro citation listed item start stop found filled below first last cut
    have kept : item ∈ (buildEvidenceBundle [windowItem] 100).items := (sourceItem_mem found).1
    have same : (buildEvidenceBundle [windowItem] 100).items = [evidenceItem windowItem] := by decide
    rw [same, mem_singleton] at kept
    exact absurd (by rw [kept]; rfl) cut
  · intro item listed kind
    obtain rfl := mem_singleton.mp listed
    exact ⟨⟨_, _, _, _, _, _, twoLines_read, rfl, rfl, rfl⟩, prefix_refl _⟩

/-- The budget cuts the second line, and the citation of both lines passes. -/
theorem cut_accepted :
    readWorkspaceWindow "a" (FileLines.letters "ab\ncdef") 1 none FileLines.plainPolicy = some twoLines ∧
      ∃ cited ∈ (validateCitations plainEnv ⟨"", "", ""⟩ [plainCitation]
        (buildEvidenceBundle [windowItem] 2)).1,
        cited.startLine = 1 ∧ cited.endLine = 2 ∧ cited.source = "1\tab\n2\tc".toList ∧
          ¬Supported plainEnv (buildEvidenceBundle [windowItem] 2) cited := by
  refine ⟨twoLines_read, ⟨"evidence-0", "evidence-0", "workspace", "workspace", "workspace",
    "a".toList, "", 1, 2, "x", "1\tab\n2\tc".toList⟩, by decide, rfl, rfl, rfl, ?_⟩
  intro supported
  obtain ⟨item, found, -, -, -, inside, -⟩ := supported
  have same : (buildEvidenceBundle [windowItem] 2).items =
      [{ evidenceItem windowItem with content := "1\tab\n2\tc".toList }] := by decide
  have kept := (sourceItem_mem found).1
  rw [same, mem_singleton] at kept
  subst kept
  exact absurd inside.length_le (by decide)

end SourceLens.EvidenceBundle
