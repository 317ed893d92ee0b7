import Mathlib.Algebra.Ring.Nat
import Mathlib.Tactic.Common

namespace SimpleSSD.Data

/-! Maps with 64-bit keys, kept in the order of the keys. -/

abbrev InKeyOrder (entries : List (UInt64 × ν)) : Prop :=
  entries.Pairwise fun entry later => entry.1 < later.1

structure SortedMap (ν : Type) where
  entries : List (UInt64 × ν)
  sorted : InKeyOrder entries

/-- An entry goes to its place, unless there is one with its key. -/
def enter (key : UInt64) (value : ν) : List (UInt64 × ν) → List (UInt64 × ν)
  | [] => [(key, value)]
  | entry :: entries =>
      if key < entry.1 then
        (key, value) :: entry :: entries
      else if key = entry.1 then
        entry :: entries
      else
        entry :: enter key value entries

section

variable {key : UInt64} {value : ν} {entry : UInt64 × ν}
  {entries : List (UInt64 × ν)}

theorem mem_enter (member : entry ∈ enter key value entries) :
    entry = (key, value) ∨ entry ∈ entries := by
  induction entries with
  | nil => exact .inl (List.mem_singleton.mp member)
  | cons first entries induction =>
      unfold enter at member
      split at member
      · exact List.mem_cons.mp member
      · split at member
        · exact .inr member
        · rcases List.mem_cons.mp member with same | member
          · exact .inr (same ▸ List.mem_cons_self)
          · exact (induction member).imp_right (List.mem_cons_of_mem _)

theorem mem_enter_of_mem (member : entry ∈ entries) :
    entry ∈ enter key value entries := by
  induction entries with
  | nil => cases member
  | cons first entries induction =>
      unfold enter
      split
      · exact List.mem_cons_of_mem _ member
      · split
        · exact member
        · rcases List.mem_cons.mp member with same | member
          · exact same ▸ List.mem_cons_self
          · exact List.mem_cons_of_mem _ (induction member)

theorem mem_enter_self (absent : ∀ entry ∈ entries, entry.1 ≠ key) :
    (key, value) ∈ enter key value entries := by
  induction entries with
  | nil => exact List.mem_singleton.mpr rfl
  | cons first entries induction =>
      unfold enter
      split
      · exact List.mem_cons_self
      · split
        · next same => exact absurd same.symm (absent first List.mem_cons_self)
        · exact List.mem_cons_of_mem _ (induction fun entry member =>
            absent entry (List.mem_cons_of_mem _ member))

theorem exists_mem_enter (key : UInt64) (value : ν)
    (entries : List (UInt64 × ν)) :
    ∃ entry ∈ enter key value entries, entry.1 = key := by
  by_cases absent : ∀ entry ∈ entries, entry.1 ≠ key
  · exact ⟨_, mem_enter_self absent, rfl⟩
  · simp only [ne_eq, not_forall, not_not] at absent
    obtain ⟨entry, listed, same⟩ := absent
    exact ⟨entry, mem_enter_of_mem listed, same⟩

theorem enter_inKeyOrder (sorted : InKeyOrder entries) :
    InKeyOrder (enter key value entries) := by
  induction entries with
  | nil => exact List.pairwise_singleton _ _
  | cons first entries induction =>
      obtain ⟨before, rest⟩ := List.pairwise_cons.mp sorted
      unfold enter
      split
      · next less =>
          refine List.pairwise_cons.mpr ⟨fun later member => ?_, sorted⟩
          rcases List.mem_cons.mp member with rfl | member
          · exact less
          · exact UInt64.lt_trans less (before later member)
      · next notLess =>
          split
          · exact sorted
          · next different =>
              refine List.pairwise_cons.mpr
                ⟨fun later member => ?_, induction rest⟩
              rcases mem_enter member with rfl | member
              · exact UInt64.lt_of_le_of_ne (UInt64.not_lt.mp notLess)
                  (Ne.symm different)
              · exact before later member

theorem InKeyOrder.unique {other : UInt64 × ν} (sorted : InKeyOrder entries)
    (first : entry ∈ entries) (second : other ∈ entries)
    (same : entry.1 = other.1) : entry = other := by
  induction entries with
  | nil => cases first
  | cons head entries induction =>
      obtain ⟨before, rest⟩ := List.pairwise_cons.mp sorted
      rcases List.mem_cons.mp first with rfl | left
      · rcases List.mem_cons.mp second with rfl | right
        · rfl
        · exact absurd (before other right) (same ▸ UInt64.lt_irrefl _)
      · rcases List.mem_cons.mp second with rfl | right
        · exact absurd (before entry left) (same ▸ UInt64.lt_irrefl _)
        · exact induction rest left right

end

namespace SortedMap

def empty : SortedMap ν := ⟨[], .nil⟩

def insert (map : SortedMap ν) (key : UInt64) (value : ν) : SortedMap ν :=
  ⟨enter key value map.entries, enter_inKeyOrder map.sorted⟩

def erase (map : SortedMap ν) (key : UInt64) : SortedMap ν :=
  ⟨map.entries.filter fun entry => entry.1 ≠ key, map.sorted.filter _⟩

def lookup (map : SortedMap ν) (key : UInt64) : Option ν :=
  (map.entries.find? fun entry => entry.1 = key).map (·.2)

/-- The entries before `upper_bound(key)`. -/
def upTo (map : SortedMap ν) (key : UInt64) : List (UInt64 × ν) :=
  map.entries.takeWhile fun entry => entry.1 ≤ key

/-- The entries from `upper_bound(key)` on. -/
def beyond (map : SortedMap ν) (key : UInt64) : List (UInt64 × ν) :=
  map.entries.dropWhile fun entry => entry.1 ≤ key

def mapValues (f : UInt64 → ν → μ) (map : SortedMap ν) : SortedMap μ :=
  ⟨map.entries.map fun entry => (entry.1, f entry.1 entry.2),
    List.pairwise_map.mpr map.sorted⟩

def modify (map : SortedMap ν) (key : UInt64) (f : ν → ν) : SortedMap ν :=
  map.mapValues fun other value => if other = key then f value else value

def dropWhile (map : SortedMap ν) (test : UInt64 × ν → Bool) : SortedMap ν :=
  ⟨map.entries.dropWhile test,
    map.sorted.sublist (List.dropWhile_sublist test)⟩

section

variable {map : SortedMap ν} {key : UInt64} {entry : UInt64 × ν}

theorem mem_of_upTo (member : entry ∈ map.upTo key) :
    entry ∈ map.entries ∧ entry.1 ≤ key := by
  refine ⟨(List.takeWhile_prefix _).subset member, ?_⟩
  have passed := List.all_eq_true.mp List.all_takeWhile entry member
  exact of_decide_eq_true passed

theorem mem_of_beyond (member : entry ∈ map.beyond key) :
    entry ∈ map.entries ∧ key < entry.1 := by
  obtain ⟨entries, sorted⟩ := map
  unfold beyond at member
  dsimp only at member ⊢
  induction entries with
  | nil => cases member
  | cons first entries induction =>
      obtain ⟨before, rest⟩ := List.pairwise_cons.mp sorted
      rw [List.dropWhile_cons] at member
      split at member
      · obtain ⟨listed, less⟩ := induction rest member
        exact ⟨List.mem_cons_of_mem _ listed, less⟩
      · next above =>
          have above : key < first.1 :=
            UInt64.not_le.mp fun le => above (decide_eq_true le)
          refine ⟨member, ?_⟩
          rcases List.mem_cons.mp member with rfl | member
          · exact above
          · exact UInt64.lt_trans above (before entry member)

theorem mem_upTo (member : entry ∈ map.entries) (le : entry.1 ≤ key) :
    entry ∈ map.upTo key := by
  have split : map.upTo key ++ map.beyond key = map.entries :=
    List.takeWhile_append_dropWhile
  rw [← split] at member
  rcases List.mem_append.mp member with member | later
  · exact member
  · exact absurd (mem_of_beyond later).2 (UInt64.not_lt.mpr le)

theorem mem_beyond (member : entry ∈ map.entries) (less : key < entry.1) :
    entry ∈ map.beyond key := by
  have split : map.upTo key ++ map.beyond key = map.entries :=
    List.takeWhile_append_dropWhile
  rw [← split] at member
  rcases List.mem_append.mp member with early | member
  · exact absurd less (UInt64.not_lt.mpr (mem_of_upTo early).2)
  · exact member

/-- `--upper_bound(key)` is the entry with the greatest key up to `key`. -/
theorem exists_last (member : entry ∈ map.upTo key) :
    ∃ last, (map.upTo key).getLast? = some last ∧ entry.1 ≤ last.1 := by
  have sorted : InKeyOrder (map.upTo key) :=
    map.sorted.sublist (List.takeWhile_prefix _).sublist
  obtain ⟨last, found⟩ : ∃ last, (map.upTo key).getLast? = some last :=
    ⟨_, List.getLast?_eq_some_getLast (List.ne_nil_of_mem member)⟩
  refine ⟨last, found, ?_⟩
  obtain ⟨before, split⟩ := List.getLast?_eq_some_iff.mp found
  rw [split] at sorted member
  rcases List.mem_append.mp member with early | same
  · exact UInt64.le_of_lt
      ((List.pairwise_append.mp sorted).2.2 entry early last
        List.mem_cons_self)
  · rw [List.mem_singleton.mp same]
    exact UInt64.le_refl _

theorem lookup_of_mem {value : ν} (member : (key, value) ∈ map.entries) :
    map.lookup key = some value := by
  unfold lookup
  cases found : map.entries.find? fun entry => entry.1 = key with
  | none =>
      have absent := List.find?_eq_none.mp found _ member
      exact absurd (decide_eq_true rfl) absent
  | some entry =>
      have passed := List.find?_some found
      have same := of_decide_eq_true passed
      have listed := List.mem_of_find?_eq_some found
      rw [map.sorted.unique listed member same]
      rfl

theorem mem_of_lookup {value : ν} (found : map.lookup key = some value) :
    (key, value) ∈ map.entries := by
  obtain ⟨entry, first, rfl⟩ := Option.map_eq_some_iff.mp found
  have same := List.find?_some first
  have member := List.mem_of_find?_eq_some first
  rw [← of_decide_eq_true same]
  exact member

theorem mem_of_mapValues {f : UInt64 → ν → μ} {value : μ}
    (member : (key, value) ∈ (map.mapValues f).entries) :
    ∃ before, (key, before) ∈ map.entries ∧ value = f key before := by
  obtain ⟨entry, listed, same⟩ := List.mem_map.mp member
  obtain ⟨rfl, rfl⟩ := Prod.mk.inj same
  exact ⟨entry.2, listed, rfl⟩

theorem upTo_mapValues {f : UInt64 → ν → μ} :
    (map.mapValues f).upTo key =
      (map.upTo key).map fun entry => (entry.1, f entry.1 entry.2) := by
  unfold upTo mapValues
  dsimp only
  rw [List.takeWhile_map]
  rfl

end

end SortedMap

end SimpleSSD.Data
