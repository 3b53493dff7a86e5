import Mathlib.Data.List.Nodup

/-! Insertion-ordered dictionaries. Each key occurs once: the entries carry the
proof, so membership of an entry determines the value of its key. -/

namespace SourceLens

open List

structure OrderedDict (Key Value : Type*) where
  entries : List (Key × Value)
  distinct : (entries.map Prod.fst).Nodup

namespace OrderedDict

variable {Key Value : Type*}

def empty : OrderedDict Key Value := ⟨[], nodup_nil⟩

def keys (dict : OrderedDict Key Value) : List Key := dict.entries.map Prod.fst

def values (dict : OrderedDict Key Value) : List Value := dict.entries.map Prod.snd

def length (dict : OrderedDict Key Value) : Nat := dict.entries.length

def filterKeys (dict : OrderedDict Key Value) (keep : Key → Bool) : OrderedDict Key Value :=
  ⟨dict.entries.filter fun entry => keep entry.1, dict.distinct.sublist (filter_sublist.map _)⟩

theorem filterMapValues_distinct (entries : List (Key × Value))
    (keep : Key → Value → Option Value) (distinct : (entries.map Prod.fst).Nodup) :
    ((entries.filterMap fun entry =>
      (keep entry.1 entry.2).map fun value => (entry.1, value)).map Prod.fst).Nodup := by
  induction entries with
  | nil => exact nodup_nil
  | cons entry rest ih =>
    rw [map_cons, nodup_cons] at distinct
    have later := ih distinct.2
    cases kept : keep entry.1 entry.2 with
    | none => simpa [kept] using later
    | some value =>
      simp only [filterMap_cons, kept, Option.map_some, map_cons, nodup_cons]
      refine ⟨?_, later⟩
      intro member
      apply distinct.1
      rcases mem_map.mp member with ⟨made, inside, named⟩
      rcases mem_filterMap.mp inside with ⟨other, listed, shape⟩
      rcases Option.map_eq_some_iff.mp shape with ⟨value, _, rfl⟩
      exact mem_map.mpr ⟨other, listed, named⟩

/-- `while len(dict) > limit: dict.popitem(last=False)`. -/
def trim (dict : OrderedDict Key Value) (limit : Nat) : OrderedDict Key Value :=
  ⟨dict.entries.drop (dict.length - limit), dict.distinct.sublist ((drop_sublist _ _).map _)⟩

/-- Each value as `keep` leaves it; an entry without a value goes. -/
def filterMapValues (dict : OrderedDict Key Value) (keep : Key → Value → Option Value) :
    OrderedDict Key Value :=
  ⟨dict.entries.filterMap fun entry => (keep entry.1 entry.2).map fun value => (entry.1, value),
    filterMapValues_distinct dict.entries keep dict.distinct⟩

variable {dict : OrderedDict Key Value}

theorem mem_filterMapValues {keep : Key → Value → Option Value}
    {key : Key} {value : Value} :
    (key, value) ∈ (dict.filterMapValues keep).entries ↔
      ∃ old, (key, old) ∈ dict.entries ∧ keep key old = some value := by
  simp only [filterMapValues, mem_filterMap, Option.map_eq_some_iff, Prod.mk.injEq]
  constructor
  · intro held
    rcases held with ⟨entry, member, other, kept, rfl, rfl⟩
    exact ⟨entry.2, member, kept⟩
  · intro held
    rcases held with ⟨old, member, kept⟩
    exact ⟨(key, old), member, value, kept, rfl, rfl⟩

@[simp] theorem mem_filterKeys {dict : OrderedDict Key Value} {keep : Key → Bool}
    {entry : Key × Value} :
    entry ∈ (dict.filterKeys keep).entries ↔ entry ∈ dict.entries ∧ keep entry.1 = true := by
  simp [filterKeys]

theorem trim_within {limit : Nat}
    (within : dict.length ≤ limit) : (dict.trim limit).entries = dict.entries := by
  simp [trim, Nat.sub_eq_zero_of_le within]

theorem trim_subset {limit : Nat} {entry : Key × Value}
    (member : entry ∈ (dict.trim limit).entries) : entry ∈ dict.entries :=
  mem_of_mem_drop member

variable [DecidableEq Key]

theorem set_distinct (entries : List (Key × Value)) (key : Key) (value : Value)
    (distinct : (entries.map Prod.fst).Nodup) :
    ((if key ∈ entries.map Prod.fst then
        entries.map fun entry => if entry.1 = key then (key, value) else entry
      else entries ++ [(key, value)]).map Prod.fst).Nodup := by
  split
  · rw [map_map]
    have same : ∀ entry ∈ entries,
        (Prod.fst ∘ fun entry => if entry.1 = key then (key, value) else entry) entry =
          entry.1 := by
      intro entry _
      by_cases found : entry.1 = key <;> simp [found]
    rwa [map_congr_left same]
  · rename_i missing
    rw [map_append, nodup_append]
    refine ⟨distinct, nodup_singleton _, ?_⟩
    rintro other inside _ (_ | ⟨_, ⟨⟩⟩) same
    rw [show other = key from same] at inside
    exact missing inside

/-- `dict[key] = value`: an existing key keeps its place. -/
def set (dict : OrderedDict Key Value) (key : Key) (value : Value) : OrderedDict Key Value :=
  ⟨if key ∈ dict.entries.map Prod.fst then
      dict.entries.map fun entry => if entry.1 = key then (key, value) else entry
    else dict.entries ++ [(key, value)],
    set_distinct dict.entries key value dict.distinct⟩

/-- `dict.get(key)`. -/
def get? (dict : OrderedDict Key Value) (key : Key) : Option Value :=
  dict.entries.lookup key

/-- `dict.pop(key, None)`. -/
def pop (dict : OrderedDict Key Value) (key : Key) : OrderedDict Key Value :=
  dict.filterKeys fun other => other ≠ key

theorem moveToEnd_distinct (dict : OrderedDict Key Value) (key : Key) :
    ((dict.entries.filter (fun entry => entry.1 ≠ key) ++
      dict.entries.filter (fun entry => entry.1 = key)).map Prod.fst).Nodup := by
  have permuted := filter_append_perm (fun entry : Key × Value => entry.1 ≠ key) dict.entries
  simp only [decide_not, Bool.not_not] at permuted ⊢
  exact ((permuted.map Prod.fst).nodup_iff).mpr dict.distinct

/-- `dict.move_to_end(key)`. -/
def moveToEnd (dict : OrderedDict Key Value) (key : Key) : OrderedDict Key Value :=
  ⟨dict.entries.filter (fun entry => entry.1 ≠ key) ++
      dict.entries.filter (fun entry => entry.1 = key), moveToEnd_distinct dict key⟩

/-- `dict.setdefault(key, value)`. -/
def setDefault (dict : OrderedDict Key Value) (key : Key) (value : Value) :
    OrderedDict Key Value :=
  if key ∈ dict.keys then dict else dict.set key value

/-- `dict.update(other)`. -/
def update (dict other : OrderedDict Key Value) : OrderedDict Key Value :=
  other.entries.foldl (fun merged entry => merged.set entry.1 entry.2) dict

@[simp] theorem mem_moveToEnd {dict : OrderedDict Key Value} {key : Key} {entry : Key × Value} :
    entry ∈ (dict.moveToEnd key).entries ↔ entry ∈ dict.entries := by
  by_cases found : entry.1 = key <;> simp [moveToEnd, found]

variable {key : Key} {value : Value}

theorem mem_set {entry : Key × Value} :
    entry ∈ (dict.set key value).entries ↔
      entry = (key, value) ∨ (entry ∈ dict.entries ∧ entry.1 ≠ key) := by
  unfold set
  split
  · rename_i present
    rcases mem_map.mp present with ⟨old, inside, rfl⟩
    rw [mem_map]
    constructor
    · intro replaced
      rcases replaced with ⟨before, member, rfl⟩
      by_cases found : before.1 = old.1
      · exact .inl (by simp [found])
      · exact .inr (by simpa [found] using member)
    · intro held
      rcases held with rfl | ⟨member, other⟩
      · exact ⟨old, inside, by simp⟩
      · exact ⟨entry, member, by simp [other]⟩
  · rename_i missing
    rw [mem_append, mem_singleton]
    constructor
    · intro held
      rcases held with member | rfl
      · refine .inr ⟨member, ?_⟩
        rintro rfl
        exact missing (mem_map_of_mem member)
      · exact .inl rfl
    · intro held
      rcases held with rfl | ⟨member, -⟩
      · exact .inr rfl
      · exact .inl member

theorem mem_of_get? (found : dict.get? key = some value) : (key, value) ∈ dict.entries := by
  rcases lookup_eq_some_iff.mp found with ⟨before, after, whole, _⟩
  rw [whole]
  exact mem_append_right _ mem_cons_self

theorem get?_of_mem (member : (key, value) ∈ dict.entries) : dict.get? key = some value := by
  cases found : dict.get? key with
  | none =>
    have apart := lookup_eq_none_iff.mp found (key, value) member
    simp at apart
  | some other =>
    have same := inj_on_of_nodup_map dict.distinct (mem_of_get? found) member rfl
    rw [(Prod.mk.inj same).2]

theorem get?_eq_some_iff :
    dict.get? key = some value ↔ (key, value) ∈ dict.entries :=
  ⟨mem_of_get?, get?_of_mem⟩

theorem get?_set (dict : OrderedDict Key Value) (key other : Key) (value : Value) :
    (dict.set key value).get? other = if other = key then some value else dict.get? other := by
  apply Option.ext
  intro found
  rw [get?_eq_some_iff, mem_set]
  split
  · rename_i same
    simp [same, eq_comm]
  · rename_i apart
    simp [apart, get?_eq_some_iff]

theorem mem_keys_set {key other : Key} {value : Value} :
    other ∈ (dict.set key value).keys ↔ other = key ∨ other ∈ dict.keys := by
  simp only [keys, mem_map, mem_set]
  constructor
  · intro named
    rcases named with ⟨entry, rfl | ⟨old, -⟩, rfl⟩
    · exact .inl rfl
    · exact .inr ⟨entry, old, rfl⟩
  · intro named
    rcases named with rfl | ⟨entry, old, rfl⟩
    · exact ⟨(other, value), .inl rfl, rfl⟩
    · by_cases same : entry.1 = key
      · exact ⟨(key, value), .inl rfl, same.symm⟩
      · exact ⟨entry, .inr ⟨old, same⟩, rfl⟩

theorem get?_eq_none_iff :
    dict.get? key = none ↔ key ∉ dict.keys := by
  unfold get? keys
  rw [lookup_eq_none_iff]
  constructor
  · intro apart member
    rcases mem_map.mp member with ⟨entry, inside, rfl⟩
    have different := apart entry inside
    simp at different
  · intro missing entry inside
    have different : key ≠ entry.1 := fun same => missing (same ▸ mem_map_of_mem inside)
    simpa using different

theorem get?_pop (dict : OrderedDict Key Value) (key other : Key) :
    (dict.pop key).get? other = if other = key then none else dict.get? other := by
  apply Option.ext
  intro found
  rw [get?_eq_some_iff, pop, mem_filterKeys]
  split
  · rename_i same
    simp [same]
  · rename_i apart
    simp [apart, get?_eq_some_iff]

theorem mem_keys_pop {key other : Key} :
    other ∈ (dict.pop key).keys ↔ other ∈ dict.keys ∧ other ≠ key := by
  simp only [keys, pop, mem_map, mem_filterKeys, decide_eq_true_eq]
  constructor
  · intro named
    rcases named with ⟨entry, ⟨member, apart⟩, rfl⟩
    exact ⟨⟨entry, member, rfl⟩, apart⟩
  · intro named
    rcases named with ⟨⟨entry, member, rfl⟩, apart⟩
    exact ⟨entry, ⟨member, apart⟩, rfl⟩

theorem mem_keys_moveToEnd {key other : Key} :
    other ∈ (dict.moveToEnd key).keys ↔ other ∈ dict.keys := by
  simp only [keys, mem_map, mem_moveToEnd]

theorem length_set_le (dict : OrderedDict Key Value) (key : Key) (value : Value) :
    (dict.set key value).length ≤ dict.length + 1 := by
  unfold set length
  split
  · rw [length_map]
    exact Nat.le_succ _
  · exact Nat.le_of_eq length_append

@[simp] theorem length_moveToEnd (dict : OrderedDict Key Value) (key : Key) :
    (dict.moveToEnd key).length = dict.length := by
  have permuted := filter_append_perm (fun entry : Key × Value => entry.1 ≠ key) dict.entries
  simp only [decide_not, Bool.not_not] at permuted
  simp only [length, moveToEnd, decide_not]
  exact permuted.length_eq

theorem get?_moveToEnd (dict : OrderedDict Key Value) (key other : Key) :
    (dict.moveToEnd key).get? other = dict.get? other := by
  apply Option.ext
  intro found
  rw [get?_eq_some_iff, get?_eq_some_iff, mem_moveToEnd]

theorem get?_trim_within {limit : Nat}
    (within : dict.length ≤ limit) (key : Key) : (dict.trim limit).get? key = dict.get? key := by
  rw [get?, get?, trim_within within]

end OrderedDict

end SourceLens
