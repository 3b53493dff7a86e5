import Mathlib
import SourceLens.Library.FreshName
import SourceLens.PathRules

/-! The names of the tools of remote servers within one load (`mcp_tools.py`). -/

namespace SourceLens.McpTools

open FreshName List

abbrev Text := List Char

def mcpToolPrefix : Text := ['m', 'c', 'p', '_', '_']
def mcpToolNameMaxChars : Nat := 64
def mcpMaxServers : Nat := 20
def mcpMaxTools : Nat := 100

def identifierChar (c : Char) : Bool := c.isAlphanum || c == '_' || c == '-'

/-- `_identifier` -/
def identifier (value : Text) : Text :=
  let normalized := PyText.strip (fun c => c == '_' || c == '-')
    (PathRules.subRuns (fun c => !identifierChar c) '_' false value)
  if normalized.isEmpty then ['t', 'o', 'o', 'l'] else normalized.map Char.toLower

def suffixText (number : Nat) : Text := '_' :: Nat.toDigits 10 number

/-- A name as it is, then its head with the suffixes from 2 on. -/
def numbered (base : Text) (room : Nat → Nat) : Nat → Text
  | 0 => base
  | index + 1 => base.take (room (suffixText (index + 2)).length) ++ suffixText (index + 2)

/-- `_unique_identifier` -/
def uniqueIdentifier (value : Text) (used : List Text) : Text :=
  fresh (numbered ((identifier value).take 24) fun _ => 20) used

/-- `_unique_tool_name` -/
def uniqueToolName (value : Text) (used : List Text) : Text :=
  fresh (numbered (value.take mcpToolNameMaxChars) (mcpToolNameMaxChars - ·)) used

/-- A server that passes the checks of its transport, with the names of its tools; `none` where
its client or its discovery fails. -/
structure Server where
  name : Text
  discovered : Option (List Text)

def prepare : List Server → List Text → List (Text × Server)
  | [], _ => []
  | server :: rest, used =>
    let name := uniqueIdentifier server.name used
    (name, server) :: prepare rest (name :: used)

/-- The name of a tool without the prefix of its adapter. -/
def bareName (serverName rawName : Text) : Text :=
  let name := if rawName.isEmpty then ['t', 'o', 'o', 'l'] else rawName
  if (serverName ++ ['_']).isPrefixOf name then name.drop (serverName.length + 1) else name

def wrapMcpTool (serverName : Text) (names : List Text) (rawName : Text) : List Text :=
  if mcpMaxTools ≤ names.length then names
  else names ++ [uniqueToolName
    (mcpToolPrefix ++ serverName ++ ['_', '_'] ++ identifier (bareName serverName rawName)) names]

/-- The names of the tools that `load_mcp_tools` returns; `none` is a server that it skips. -/
def loadMcpTools (configs : List (Option Server)) : List Text :=
  (prepare ((configs.take mcpMaxServers).filterMap id) []).foldl
    (fun names entry => (entry.2.discovered.getD []).foldl (wrapMcpTool entry.1) names) []

/-- A name that a model provider takes and that is told as a remote tool's. -/
def Fits (name : Text) : Prop :=
  mcpToolPrefix <+: name ∧ name.length ≤ mcpToolNameMaxChars ∧ name.all identifierChar = true

structure Named (names : List Text) : Prop where
  distinct : names.Nodup
  few : names.length ≤ mcpMaxTools
  fits : ∀ name ∈ names, Fits name

variable {base value serverName : Text} {names : List Text}

/-- The number of a suffix is what stands behind the last underscore. -/
theorem numbered_injective (room : Nat → Nat) :
    Function.Injective fun index => numbered base room (index + 1) := by
  have behind (front : Text) (number : Nat) : (front ++ suffixText number).reverse.takeWhile
      (· != '_') = (Nat.toDigits 10 number).reverse := by
    have digits : ∀ c ∈ (Nat.toDigits 10 number).reverse, (c != '_') = true := by
      intro c member
      rw [bne_iff_ne]
      rintro rfl
      exact Nat.underscore_not_in_toDigits (mem_reverse.mp member)
    rw [reverse_append, suffixText, reverse_cons, append_assoc, takeWhile_append_of_pos digits]
    simp
  intro first second same
  have digits := congrArg (fun text => text.reverse.takeWhile (· != '_')) same
  simp only [numbered, behind, reverse_inj] at digits
  have numbers := congrArg (Nat.ofDigitChars 10 · 0) digits
  simp only [@Nat.ofDigitChars_toDigits 10 _ (by decide) (by decide)] at numbers
  omega

theorem identifierChar_toLower (c : Char) (plain : identifierChar c = true) :
    identifierChar c.toLower = true := by
  by_cases upper : 'A'.val ≤ c.val ∧ c.val ≤ 'Z'.val
  · have lower : c.toLower.isLower = true := by
      have low : 65 ≤ c.toNat := upper.1
      have high : c.toNat ≤ 90 := upper.2
      simp only [Char.toLower, upper, Char.isLower, and_self, dite_true, Bool.and_eq_true,
        decide_eq_true_eq, UInt32.le_iff_toNat_le, ge_iff_le, UInt32.toNat_add]
      simp
      omega
    simp [identifierChar, Char.isAlphanum, Char.isAlpha, lower]
  · rwa [Char.toLower, dif_neg upper]

theorem identifier_plain : (identifier value).all identifierChar = true := by
  rw [identifier]
  split
  · rfl
  · rw [all_map, all_eq_true]
    intro c inside
    apply identifierChar_toLower
    rcases PathRules.mem_subRuns _ _ _ _ _ ((PyText.strip_within _ _).subset inside) with rfl | kept
    · rfl
    · simpa using kept.2

theorem take_plain (plain : base.all identifierChar = true) (count : Nat) :
    (base.take count).all identifierChar = true :=
  all_eq_true.mpr fun c member => all_eq_true.mp plain c (mem_of_mem_take member)

theorem numbered_plain (plain : base.all identifierChar = true) (room : Nat → Nat) (index : Nat) :
    (numbered base room index).all identifierChar = true := by
  cases index with
  | zero => exact plain
  | succ index =>
    have digits : (Nat.toDigits 10 (index + 2)).all identifierChar = true := by
      rw [all_eq_true]
      intro c member
      have digit := Nat.isDigit_of_mem_toDigits (by decide) (by decide) member
      simp [identifierChar, Char.isAlphanum, digit]
    rw [numbered, all_append, take_plain plain, suffixText, all_cons, digits]
    rfl

theorem uniqueToolName_fits (start : mcpToolPrefix <+: base) (plain : base.all identifierChar = true)
    (room : names.length < mcpMaxTools) : Fits (uniqueToolName base names) := by
  rcases @fresh_eq _ _ (numbered (base.take mcpToolNameMaxChars) (mcpToolNameMaxChars - ·)) names
    with ⟨index, early, same⟩
  have opens : mcpToolPrefix <+: base.take mcpToolNameMaxChars :=
    prefix_take_iff.mpr ⟨start, by decide⟩
  have spelled := numbered_plain (take_plain plain mcpToolNameMaxChars) (mcpToolNameMaxChars - ·)
  rw [uniqueToolName, same]
  cases index with
  | zero => exact ⟨opens, length_take_le .., spelled 0⟩
  | succ index =>
    -- Less than a hundred names are in use, so the number has at most three digits.
    have digits : (Nat.toDigits 10 (index + 2)).length ≤ 3 := by
      rw [Nat.length_toDigits_le_iff (by decide) (by decide)]
      simp only [mcpMaxTools] at room
      omega
    refine ⟨IsPrefix.trans (prefix_take_iff.mpr ⟨opens, ?_⟩) (prefix_append ..), ?_, spelled _⟩
    · simp only [suffixText, mcpToolPrefix, mcpToolNameMaxChars, length_cons, length_nil]
      omega
    · simp only [numbered, suffixText, mcpToolNameMaxChars, length_append, length_take, length_cons]
      omega

theorem Named.wrap (named : Named names) (plain : serverName.all identifierChar = true)
    (rawName : Text) : Named (wrapMcpTool serverName names rawName) := by
  rw [wrapMcpTool]
  split
  · exact named
  · rename_i room
    rw [Nat.not_le] at room
    refine ⟨?_, ?_, fun name member => ?_⟩
    · rw [nodup_append_comm]
      exact named.distinct.cons (fresh_not_mem (numbered_injective _))
    · rwa [length_append]
    · rcases mem_append.mp member with old | new
      · exact named.fits name old
      · rw [mem_singleton.mp new]
        apply uniqueToolName_fits _ _ room
        · rw [append_assoc, append_assoc]
          exact prefix_append ..
        · rw [all_append, all_append, all_append, plain, identifier_plain]
          rfl

theorem prepare_plain (servers : List Server) (used : List Text) :
    ∀ entry ∈ prepare servers used, entry.1.all identifierChar = true := by
  induction servers generalizing used with
  | nil => simp [prepare]
  | cons server rest ih =>
    intro entry member
    rcases mem_cons.mp member with rfl | later
    · rcases @fresh_eq _ _ (numbered ((identifier server.name).take 24) fun _ => 20) used with
        ⟨index, -, same⟩
      simp only [uniqueIdentifier, same]
      exact numbered_plain (take_plain identifier_plain 24) _ _
    · exact ih _ entry later

theorem Named.load (named : Named names) (entries : List (Text × Server))
    (plain : ∀ entry ∈ entries, entry.1.all identifierChar = true) :
    Named (entries.foldl
      (fun names entry => (entry.2.discovered.getD []).foldl (wrapMcpTool entry.1) names) names) := by
  induction entries generalizing names with
  | nil => exact named
  | cons entry rest ih =>
    rw [foldl_cons]
    refine ih ?_ fun other member => plain other (mem_cons_of_mem _ member)
    generalize entry.2.discovered.getD [] = rawNames
    induction rawNames generalizing names with
    | nil => exact named
    | cons rawName rawNames inner => exact inner (named.wrap (plain entry mem_cons_self) rawName)

/-- For every list of servers, whatever tools they offer: the tools of one load have names of
their own, within the limits of a model provider. -/
theorem loadMcpTools_named (configs : List (Option Server)) : Named (loadMcpTools configs) :=
  Named.load ⟨.nil, Nat.zero_le _, by simp⟩ _ (prepare_plain _ [])

end SourceLens.McpTools
