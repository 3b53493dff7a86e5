import SourceLens.Library.OrderedDict
import Mathlib.Data.List.Pairwise

/-! Dictionaries merged from entries in any order: an entry whose key is held has to agree with the
value that is held, and replaces it. -/

namespace SourceLens

structure Agreement (Value : Type*) where
  agrees : Value → Value → Bool
  symm : ∀ {left right : Value}, agrees left right = true → agrees right left = true
  trans : ∀ {left middle right : Value}, agrees left middle = true → agrees middle right = true →
    agrees left right = true

namespace Agreement

variable {Key Value : Type*} [DecidableEq Key] (agreement : Agreement Value)
  {held merged other : OrderedDict Key Value} {entries others : List (Key × Value)} {key : Key}

def Compatible (left right : Key × Value) : Prop :=
  left.1 = right.1 → agreement.agrees left.2 right.2 = true

instance : DecidableRel (agreement.Compatible : Key × Value → Key × Value → Prop) := fun left right =>
  inferInstanceAs (Decidable (left.1 = right.1 → agreement.agrees left.2 right.2 = true))

def clashes (held : OrderedDict Key Value) (entry : Key × Value) : Bool :=
  (held.get? entry.1).any fun value => !agreement.agrees value entry.2

def merge (held : OrderedDict Key Value) : List (Key × Value) → Option (OrderedDict Key Value)
  | [] => some held
  | entry :: rest =>
    if agreement.clashes held entry then none else merge (held.set entry.1 entry.2) rest

def Alike (left right : Value) : Prop := left = right ∨ agreement.agrees left right = true

def AlikeAt (left right : OrderedDict Key Value) : Prop :=
  ∀ key, Option.Rel agreement.Alike (left.get? key) (right.get? key)

variable {agreement}

instance : Std.Symm (agreement.Compatible : Key × Value → Key × Value → Prop) where
  symm _ _ compatible same := agreement.symm (compatible same.symm)

theorem clashes_eq_false {entry : Key × Value} : agreement.clashes held entry = false ↔
    ∀ value, held.get? entry.1 = some value → agreement.agrees value entry.2 = true := by
  cases found : held.get? entry.1 <;> simp [clashes, found]

theorem merge_append : agreement.merge held (entries ++ others) =
    (agreement.merge held entries).bind fun merged => agreement.merge merged others := by
  induction entries generalizing held with
  | nil => rfl
  | cons entry rest ih =>
    rw [List.cons_append, merge, merge]
    split
    · rfl
    · exact ih

theorem merge_isSome_iff : (agreement.merge held entries).isSome ↔
    entries.Pairwise agreement.Compatible ∧ ∀ entry ∈ entries, ∀ value,
      held.get? entry.1 = some value → agreement.agrees value entry.2 = true := by
  induction entries generalizing held with
  | nil => simp [merge]
  | cons entry rest ih =>
    rw [merge, List.pairwise_cons, List.forall_mem_cons]
    cases clash : agreement.clashes held entry with
    | true =>
      simp only [if_true, Option.isSome_none, Bool.false_eq_true, false_iff]
      intro all
      exact absurd (clash.symm.trans (clashes_eq_false.mpr all.2.1)) (by decide)
    | false =>
      have first := clashes_eq_false.mp clash
      rw [if_neg Bool.false_ne_true, ih]
      constructor
      · intro merged
        have later : ∀ following ∈ rest, agreement.Compatible entry following := by
          intro following member same
          apply merged.2 following member
          rw [OrderedDict.get?_set, if_pos same.symm]
        refine ⟨⟨later, merged.1⟩, first, ?_⟩
        intro following member value found
        by_cases same : following.1 = entry.1
        · rw [same] at found
          exact agreement.trans (first value found) (later following member same.symm)
        · apply merged.2 following member
          rw [OrderedDict.get?_set, if_neg same]
          exact found
      · intro all
        refine ⟨all.1.2, ?_⟩
        intro following member value found
        rw [OrderedDict.get?_set] at found
        split at found
        · rename_i same
          obtain rfl := Option.some.inj found
          exact all.1.1 following member same.symm
        · exact all.2.2 following member value found

theorem merge_keys (whole : agreement.merge held entries = some merged) :
    key ∈ merged.keys ↔ key ∈ held.keys ∨ key ∈ entries.map Prod.fst := by
  induction entries generalizing held with
  | nil =>
    obtain rfl := Option.some.inj whole
    simp
  | cons entry rest ih =>
    rw [merge] at whole
    split at whole
    · cases whole
    · rw [ih whole, OrderedDict.mem_keys_set, List.map_cons, List.mem_cons]
      tauto

theorem merge_get? {value : Value} (whole : agreement.merge held entries = some merged)
    (found : merged.get? key = some value) : held.get? key = some value ∨ (key, value) ∈ entries := by
  induction entries generalizing held with
  | nil =>
    obtain rfl := Option.some.inj whole
    exact .inl found
  | cons entry rest ih =>
    rw [merge] at whole
    split at whole
    · cases whole
    · rcases ih whole with before | later
      · rw [OrderedDict.get?_set] at before
        split at before
        · rename_i same
          obtain rfl := Option.some.inj before
          exact .inr (List.mem_cons.mpr (.inl (Prod.ext same rfl)))
        · exact .inl before
      · exact .inr (List.mem_cons_of_mem _ later)

theorem merge_perm (order : others.Perm entries)
    (whole : agreement.merge .empty entries = some merged) :
    ∃ other, agreement.merge .empty others = some other ∧ agreement.AlikeAt other merged := by
  have compatible := (merge_isSome_iff.mp (Option.isSome_of_eq_some whole)).1
  have nothing : ∀ entry ∈ others, ∀ value, (OrderedDict.empty : OrderedDict Key Value).get? entry.1 =
      some value → agreement.agrees value entry.2 = true := by
    intro entry _ value found
    cases found
  obtain ⟨other, same⟩ := Option.isSome_iff_exists.mp (merge_isSome_iff.mpr
    ⟨(order.pairwise_iff (Std.Symm.symm _ _)).mpr compatible, nothing⟩)
  refine ⟨other, same, ?_⟩
  intro key
  have keys : key ∈ other.keys ↔ key ∈ merged.keys := by
    rw [merge_keys same, merge_keys whole, (order.map Prod.fst).mem_iff]
  cases left : other.get? key with
  | none =>
    have missing := OrderedDict.get?_eq_none_iff.mpr (mt keys.mpr (OrderedDict.get?_eq_none_iff.mp left))
    rw [missing]
    exact .none
  | some value =>
    cases right : merged.get? key with
    | none =>
      have missing := OrderedDict.get?_eq_none_iff.mpr (mt keys.mp (OrderedDict.get?_eq_none_iff.mp right))
      rw [missing] at left
      cases left
    | some found =>
      apply Option.Rel.some
      rcases merge_get? same left with none | first
      · cases none
      · rcases merge_get? whole right with none | second
        · cases none
        · by_cases apart : value = found
          · exact .inl apart
          · have related := compatible.forall (order.mem_iff.mp first) second (fun pair => apart (Prod.mk.inj pair).2)
            exact .inr (related rfl)

end Agreement

end SourceLens
