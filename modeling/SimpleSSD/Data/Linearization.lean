import Mathlib.Data.List.Nodup
import Mathlib.Tactic.Common

namespace SimpleSSD.Data

/-! Calls that overlap, as if each had its effect at once. -/

inductive Event (κ ι ρ : Type) where
  | call (id : κ) (op : ι)
  | answer (id : κ) (result : ρ)
  deriving DecidableEq, Repr

/-- An operation at the moment it takes effect, with the data it has then. -/
structure Effect (κ ι δ : Type) where
  id : κ
  op : ι
  data : δ
  deriving DecidableEq, Repr

def Before (trace : List α) (first second : α) : Prop :=
  ∃ earlier later, trace = earlier ++ later ∧ first ∈ earlier ∧ second ∈ later

theorem Before.of_concat {trace : List α} {event first second : α}
    (before : Before (trace ++ [event]) first second) :
    Before trace first second ∨ first ∈ trace ∧ second = event := by
  obtain ⟨earlier, later, same, from_first, to_second⟩ := before
  rcases List.eq_nil_or_concat later with rfl | ⟨middle, last, rfl⟩
  · cases to_second
  · rw [List.concat_eq_append, ← List.append_assoc] at same
    obtain ⟨rfl, ends⟩ := List.append_inj' same rfl
    cases ends
    rw [List.concat_eq_append, List.mem_append, List.mem_singleton] at to_second
    rcases to_second with inside | at_end
    · exact .inl ⟨earlier, middle, rfl, from_first, inside⟩
    · exact .inr ⟨List.mem_append_left _ from_first, at_end⟩

theorem Before.mem_left {trace : List α} {first second : α}
    (before : Before trace first second) : first ∈ trace := by
  obtain ⟨earlier, later, rfl, from_first, _⟩ := before
  exact List.mem_append_left _ from_first

section

variable {κ ι δ ρ σ : Type} (Applies : σ → ι → δ → σ → Prop)

def Legal : σ → List (Effect κ ι δ) → σ → Prop
  | start, [], reached => start = reached
  | start, effect :: rest, reached =>
      ∃ middle, Applies start effect.op effect.data middle ∧
        Legal middle rest reached

variable {Applies} {start reached : σ}

theorem Legal.append {order more : List (Effect κ ι δ)} {middle : σ}
    (first : Legal Applies start order middle)
    (second : Legal Applies middle more reached) :
    Legal Applies start (order ++ more) reached := by
  induction order generalizing start with
  | nil =>
      cases first
      exact second
  | cons effect rest induction =>
      obtain ⟨next, applies, remaining⟩ := first
      exact ⟨next, applies, induction remaining⟩

theorem Legal.filter {order : List (Effect κ ι δ)}
    {keeps : Effect κ ι δ → Bool}
    (pure : ∀ effect ∈ order, keeps effect = false → ∀ before after,
      Applies before effect.op effect.data after → after = before)
    (legal : Legal Applies start order reached) :
    Legal Applies start (order.filter keeps) reached := by
  induction order generalizing start with
  | nil => exact legal
  | cons effect rest induction =>
      obtain ⟨next, applies, remaining⟩ := legal
      have filtered := induction
        (fun other member => pure other (List.mem_cons_of_mem _ member))
        remaining
      rw [List.filter_cons]
      split
      · exact ⟨next, applies, filtered⟩
      · next dropped =>
          have same := pure effect List.mem_cons_self
            (Bool.eq_false_iff.mpr dropped) start next applies
          rw [same] at filtered
          exact filtered

variable (Applies) (Answers : ι → δ → ρ → Prop) (start)

/-- An order of effects explains a trace: it is legal, what was answered is in
it, and of two effects the second was not answered before the first was
called. -/
structure Linearization (trace : List (Event κ ι ρ))
    (order : List (Effect κ ι δ)) (reached : σ) : Prop where
  legal : Legal Applies start order reached
  once : order.Pairwise fun first second => first.id ≠ second.id
  called : ∀ effect ∈ order, .call effect.id effect.op ∈ trace
  answered : ∀ id result, .answer id result ∈ trace →
    ∃ effect ∈ order, effect.id = id ∧ Answers effect.op effect.data result
  ordered : order.Pairwise fun first second => ∀ result,
    ¬ Before trace (.answer second.id result) (.call first.id first.op)

variable {Applies Answers start} {trace : List (Event κ ι ρ)}
  {order : List (Effect κ ι δ)} {id : κ} {op : ι} {data : δ}

namespace Linearization

theorem empty : Linearization Applies start Answers
    ([] : List (Event κ ι ρ)) ([] : List (Effect κ ι δ)) start where
  legal := rfl
  once := .nil
  called := fun _ member => nomatch member
  answered := fun _ _ member => nomatch member
  ordered := .nil

theorem unique (linear : Linearization Applies start Answers trace order reached)
    {first second : Effect κ ι δ} (first_member : first ∈ order)
    (second_member : second ∈ order) (same : first.id = second.id) :
    first = second :=
  List.inj_on_of_nodup_map (List.pairwise_map.mpr linear.once) first_member
    second_member same

theorem call (linear : Linearization Applies start Answers trace order reached)
    (fresh : ∀ other, .call id other ∉ trace) :
    Linearization Applies start Answers (trace ++ [.call id op]) order
      reached where
  legal := linear.legal
  once := linear.once
  called := fun effect member =>
    List.mem_append_left _ (linear.called effect member)
  answered := by
    intro other result member
    rcases List.mem_append.mp member with old | new
    · exact linear.answered other result old
    · cases List.mem_singleton.mp new
  ordered := by
    apply linear.ordered.imp_of_mem
    intro first second first_member _ apart result before
    rcases before.of_concat with old | ⟨_, same⟩
    · exact apart result old
    · cases same
      exact fresh _ (linear.called first first_member)

theorem effect {after : σ}
    (linear : Linearization Applies start Answers trace order reached)
    (called : .call id op ∈ trace) (absent : ∀ other ∈ order, other.id ≠ id)
    (applies : Applies reached op data after) :
    Linearization Applies start Answers trace (order ++ [⟨id, op, data⟩])
      after where
  legal := linear.legal.append ⟨after, applies, rfl⟩
  once := by
    apply List.pairwise_append.mpr
    refine ⟨linear.once, List.pairwise_singleton _ _, ?_⟩
    intro first first_member second second_member
    cases List.mem_singleton.mp second_member
    exact absent first first_member
  called := by
    intro other member
    rcases List.mem_append.mp member with old | new
    · exact linear.called other old
    · cases List.mem_singleton.mp new
      exact called
  answered := by
    intro other result member
    obtain ⟨found, inside, same⟩ := linear.answered other result member
    exact ⟨found, List.mem_append_left _ inside, same⟩
  ordered := by
    apply List.pairwise_append.mpr
    refine ⟨linear.ordered, List.pairwise_singleton _ _, ?_⟩
    intro first _ second second_member result before
    cases List.mem_singleton.mp second_member
    obtain ⟨found, inside, same, _⟩ :=
      linear.answered id result before.mem_left
    exact absent found inside same

theorem answer {effect : Effect κ ι δ} {result : ρ}
    (linear : Linearization Applies start Answers trace order reached)
    (member : effect ∈ order)
    (answers : Answers effect.op effect.data result) :
    Linearization Applies start Answers
      (trace ++ [.answer effect.id result]) order reached where
  legal := linear.legal
  once := linear.once
  called := fun other inside =>
    List.mem_append_left _ (linear.called other inside)
  answered := by
    intro other found inside
    rcases List.mem_append.mp inside with old | new
    · exact linear.answered other found old
    · cases List.mem_singleton.mp new
      exact ⟨effect, member, rfl, answers⟩
  ordered := by
    apply linear.ordered.imp
    intro first second apart found before
    rcases before.of_concat with old | ⟨_, same⟩
    · exact apart found old
    · cases same

/-- An effect that changed nothing and was not answered is taken back. -/
theorem retract [DecidableEq κ]
    (linear : Linearization Applies start Answers trace order reached)
    (silent : ∀ result, .answer id result ∉ trace)
    (pure : ∀ effect ∈ order, effect.id = id → ∀ before after,
      Applies before effect.op effect.data after → after = before) :
    Linearization Applies start Answers trace
      (order.filter fun effect => effect.id ≠ id) reached where
  legal := by
    apply linear.legal.filter
    intro effect member dropped
    exact pure effect member (by simpa using dropped)
  once := linear.once.filter _
  called := fun effect member =>
    linear.called effect (List.mem_filter.mp member).1
  answered := by
    intro other result member
    obtain ⟨effect, inside, same, answers⟩ :=
      linear.answered other result member
    refine ⟨effect, List.mem_filter.mpr ⟨inside, ?_⟩, same, answers⟩
    apply decide_eq_true
    intro taken
    rw [← same, taken] at member
    exact silent result member
  ordered := linear.ordered.filter _

end Linearization

end

end SimpleSSD.Data
