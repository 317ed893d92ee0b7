import Mathlib.Algebra.BigOperators.Group.List.Basic
import Mathlib.Algebra.Ring.Nat
import Mathlib.Data.Nat.Cast.Basic
import Mathlib.Logic.Function.Basic
import Mathlib.Data.List.Nodup

namespace SimpleSSD.Data

/-! Numbers in a mixed radix.  The places are of any type; an assignment gives
each place its digit. -/

section

variable [DecidableEq ι] (size : ι → Nat)

def capacity (places : List ι) : Nat :=
  (places.map size).prod

/-- Takes the digits of the places off the number, the first place first, and
leaves the quotient. -/
def split : List ι → Nat → (ι → Nat) → Nat × (ι → Nat)
  | [], number, digits => (number, digits)
  | place :: places, number, digits =>
      split places (number / size place)
        (Function.update digits place (number % size place))

def join (digits : ι → Nat) : List ι → Nat → Nat
  | [], quotient => quotient
  | place :: places, quotient =>
      digits place + size place * join digits places quotient

def odometer : List ι → (ι → Nat) → List (ι → Nat)
  | [], digits => [digits]
  | place :: places, digits =>
      (List.range (size place)).flatMap fun digit =>
        odometer places (Function.update digits place digit)

end

section

variable {size : ι → Nat}

theorem capacity_pos {places : List ι}
    (hsize : ∀ place ∈ places, 0 < size place) : 0 < capacity size places := by
  induction places with
  | nil => exact Nat.one_pos
  | cons place places ih =>
      have hrest := ih fun other hother =>
        hsize other (List.mem_cons_of_mem _ hother)
      simpa [capacity] using Nat.mul_pos (hsize place List.mem_cons_self) hrest

theorem join_congr {first second : ι → Nat} {places : List ι}
    (hsame : ∀ place ∈ places, first place = second place) (quotient : Nat) :
    join size first places quotient = join size second places quotient := by
  induction places with
  | nil => rfl
  | cons place places ih =>
      simp only [join]
      rw [hsame place List.mem_cons_self,
        ih fun other hother => hsame other (List.mem_cons_of_mem _ hother)]

theorem join_lt {places : List ι} {digits : ι → Nat} {quotient bound : Nat}
    (hdigits : ∀ place ∈ places, digits place < size place)
    (hquotient : quotient < bound) :
    join size digits places quotient < capacity size places * bound := by
  induction places with
  | nil => simpa [join, capacity] using hquotient
  | cons place places ih =>
      have hrest := ih fun other hother =>
        hdigits other (List.mem_cons_of_mem _ hother)
      have hdigit := hdigits place List.mem_cons_self
      have hcapacity : capacity size (place :: places) * bound =
          size place * (capacity size places * bound) := by
        simp [capacity, Nat.mul_assoc]
      rw [hcapacity]
      calc digits place + size place * join size digits places quotient
          < size place + size place * join size digits places quotient := by
            omega
        _ = size place * (join size digits places quotient + 1) := by
            rw [Nat.mul_succ, Nat.add_comm]
        _ ≤ size place * (capacity size places * bound) :=
            Nat.mul_le_mul_left _ hrest

end

section

variable [DecidableEq ι] {size : ι → Nat}

theorem split_outside {places : List ι} {place : ι} (hout : place ∉ places)
    (number : Nat) (digits : ι → Nat) :
    (split size places number digits).2 place = digits place := by
  induction places generalizing number digits with
  | nil => rfl
  | cons other places ih =>
      obtain ⟨hne, hout⟩ := List.ne_and_not_mem_of_not_mem_cons hout
      simp only [split]
      rw [ih hout, Function.update_of_ne hne]

theorem join_split {places : List ι} (hnodup : places.Nodup) (number : Nat)
    (digits : ι → Nat) :
    join size (split size places number digits).2 places
      (split size places number digits).1 = number := by
  induction places generalizing number digits with
  | nil => rfl
  | cons place places ih =>
      obtain ⟨hout, hnodup⟩ := List.nodup_cons.mp hnodup
      simp only [split, join]
      rw [split_outside hout, ih hnodup, Function.update_self]
      exact Nat.mod_add_div number (size place)

theorem split_join {places : List ι} (hnodup : places.Nodup)
    {digits : ι → Nat} (hdigits : ∀ place ∈ places, digits place < size place)
    (quotient : Nat) (start : ι → Nat) :
    (split size places (join size digits places quotient) start).1 =
        quotient ∧
      ∀ place ∈ places,
        (split size places (join size digits places quotient) start).2 place =
          digits place := by
  induction places generalizing start with
  | nil => exact ⟨rfl, nofun⟩
  | cons place places ih =>
      obtain ⟨hout, hnodup⟩ := List.nodup_cons.mp hnodup
      have hdigit := hdigits place List.mem_cons_self
      have hdiv : (digits place + size place * join size digits places quotient) /
          size place = join size digits places quotient := by
        rw [Nat.add_mul_div_left _ _ (Nat.zero_lt_of_lt hdigit),
          Nat.div_eq_of_lt hdigit, Nat.zero_add]
      have hmod : (digits place + size place * join size digits places quotient) %
          size place = digits place := by
        rw [Nat.add_mul_mod_self_left, Nat.mod_eq_of_lt hdigit]
      simp only [split, join]
      rw [hdiv, hmod]
      obtain ⟨hquotient, hplaces⟩ := ih hnodup
        (fun other hother => hdigits other (List.mem_cons_of_mem _ hother))
        (Function.update start place (digits place))
      refine ⟨hquotient, fun other hother => ?_⟩
      rcases List.mem_cons.mp hother with rfl | hother
      · rw [split_outside hout, Function.update_self]
      · exact hplaces other hother

theorem split_digit_lt {places : List ι} (hnodup : places.Nodup)
    (hsize : ∀ place ∈ places, 0 < size place) (number : Nat)
    (digits : ι → Nat) :
    ∀ place ∈ places,
      (split size places number digits).2 place < size place := by
  induction places generalizing number digits with
  | nil => nofun
  | cons place places ih =>
      obtain ⟨hout, hnodup⟩ := List.nodup_cons.mp hnodup
      intro other hother
      simp only [split]
      rcases List.mem_cons.mp hother with rfl | hother
      · rw [split_outside hout, Function.update_self]
        exact Nat.mod_lt _ (hsize other List.mem_cons_self)
      · exact ih hnodup
          (fun next hnext => hsize next (List.mem_cons_of_mem _ hnext))
          _ _ other hother

theorem split_quotient_lt {places : List ι} {number bound : Nat}
    (hnumber : number < capacity size places * bound) (digits : ι → Nat) :
    (split size places number digits).1 < bound := by
  induction places generalizing number digits with
  | nil => simpa [split, capacity] using hnumber
  | cons place places ih =>
      apply ih
      apply Nat.div_lt_of_lt_mul
      simpa [capacity, Nat.mul_assoc] using hnumber

theorem length_odometer (places : List ι) (digits : ι → Nat) :
    (odometer size places digits).length = capacity size places := by
  induction places generalizing digits with
  | nil => rfl
  | cons place places ih =>
      simp [odometer, capacity, List.length_flatMap, ih]

theorem mem_odometer {places : List ι} {digits result : ι → Nat} :
    result ∈ odometer size places digits ↔
      (∀ place ∈ places, result place < size place) ∧
        ∀ place, place ∉ places → result place = digits place := by
  induction places generalizing digits with
  | nil =>
      simp [odometer, funext_iff]
  | cons place places ih =>
      simp only [odometer, List.mem_flatMap, List.mem_range, ih]
      constructor
      · rintro ⟨digit, hdigit, hsizes, hrest⟩
        refine ⟨fun other hother => ?_, fun other hother => ?_⟩
        · by_cases hin : other ∈ places
          · exact hsizes other hin
          · rcases List.mem_cons.mp hother with rfl | hother
            · rw [hrest other hin, Function.update_self]
              exact hdigit
            · exact absurd hother hin
        · obtain ⟨hne, hout⟩ := List.ne_and_not_mem_of_not_mem_cons hother
          rw [hrest other hout, Function.update_of_ne hne]
      · rintro ⟨hsizes, hrest⟩
        refine ⟨result place, hsizes place List.mem_cons_self,
          fun other hother => hsizes other (List.mem_cons_of_mem _ hother),
          fun other hout => ?_⟩
        by_cases heq : other = place
        · rw [heq, Function.update_self]
        · rw [Function.update_of_ne heq]
          exact hrest other (by simp [heq, hout])

theorem odometer_nodup {places : List ι} (hnodup : places.Nodup)
    (digits : ι → Nat) : (odometer size places digits).Nodup := by
  induction places generalizing digits with
  | nil => exact List.nodup_singleton digits
  | cons place places ih =>
      obtain ⟨hout, hnodup⟩ := List.nodup_cons.mp hnodup
      refine List.nodup_flatMap.mpr ⟨fun digit _ => ih hnodup _, ?_⟩
      refine List.nodup_range.imp ?_
      intro first second hne result hfirst hsecond
      have hfirst' := (mem_odometer.mp hfirst).2 place hout
      have hsecond' := (mem_odometer.mp hsecond).2 place hout
      rw [Function.update_self] at hfirst' hsecond'
      exact hne (hfirst'.symm.trans hsecond')

end

end SimpleSSD.Data
