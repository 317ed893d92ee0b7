import Mathlib.Logic.Function.Basic
import Mathlib.Logic.Function.Iterate
import Mathlib.Tactic.Common

namespace SimpleSSD.Data

/-! Tickets that go round a circuit of stations. -/

variable {κ σ : Type*} [DecidableEq κ]

/-- A history of the stations that tickets have left, and the places of the
tickets after it. -/
inductive Circuit (next : σ → σ) (home : σ) :
    List (κ × σ) → (κ → σ) → Prop where
  | start : Circuit next home [] fun _ => home
  | move {history place} (earlier : Circuit next home history place)
      (ticket : κ) : Circuit next home (history ++ [(ticket, place ticket)])
        (Function.update place ticket (next (place ticket)))

namespace Circuit

variable {next : σ → σ} {home : σ} {history : List (κ × σ)} {place : κ → σ}

def left (ticket : κ) (history : List (κ × σ)) : List σ :=
  history.filterMap fun (other, station) =>
    if other = ticket then some station else none

theorem left_concat (ticket other : κ) (station : σ)
    (history : List (κ × σ)) :
    left ticket (history ++ [(other, station)]) =
      left ticket history ++ if other = ticket then [station] else [] := by
  simp only [left, List.filterMap_append, List.filterMap_cons,
    List.filterMap_nil]
  split <;> simp_all

/-- Each ticket goes round, one station after the other. -/
theorem in_turn (circuit : Circuit next home history place) (ticket : κ) :
    left ticket history =
        (List.range (left ticket history).length).map (next^[·] home) ∧
      place ticket = next^[(left ticket history).length] home := by
  induction circuit with
  | start => exact ⟨rfl, rfl⟩
  | @move history place earlier other induction =>
      obtain ⟨stations, here⟩ := induction
      rw [left_concat]
      by_cases same : other = ticket
      · subst same
        rw [if_pos rfl, Function.update_self, List.length_append,
          List.length_singleton, List.range_succ, List.map_append,
          ← stations, Function.iterate_succ_apply', ← here]
        simp [here]
      · rw [if_neg same, List.append_nil, Function.update_of_ne (Ne.symm same)]
        exact ⟨stations, here⟩

end Circuit

/-- The place of a ticket by the list of those that are not at home. -/
def placeOf (home : σ) (held : List (κ × σ)) (ticket : κ) : σ :=
  (held.lookup ticket).getD home

structure Ledger (next : σ → σ) (home : σ) (history : List (κ × σ))
    (held : List (κ × σ)) : Prop where
  once : (held.map Prod.fst).Nodup
  circuit : Circuit next home history (placeOf home held)

section

variable {next : σ → σ} {home station : σ} {history : List (κ × σ)}
  {held others rest : List (κ × σ)} {ticket : κ}

@[simp] theorem placeOf_cons (home : σ) (ticket other : κ) (station : σ)
    (held : List (κ × σ)) :
    placeOf home ((ticket, station) :: held) other =
      if other = ticket then station else placeOf home held other := by
  by_cases same : other = ticket
  · simp [placeOf, same]
  · rw [placeOf, List.lookup_cons, beq_false_of_ne same, if_neg same]
    rfl

theorem placeOf_none (home : σ) (absent : ticket ∉ held.map Prod.fst) :
    placeOf home held ticket = home := by
  induction held with
  | nil => rfl
  | cons entry held induction =>
      obtain ⟨other, station⟩ := entry
      simp only [List.map_cons, List.mem_cons, not_or] at absent
      rw [placeOf_cons, if_neg absent.1, induction absent.2]

theorem placeOf_mem (home : σ) (once : (held.map Prod.fst).Nodup)
    (member : (ticket, station) ∈ held) :
    placeOf home held ticket = station := by
  induction held with
  | nil => cases member
  | cons entry held induction =>
      obtain ⟨other, there⟩ := entry
      rw [List.map_cons, List.nodup_cons] at once
      rw [placeOf_cons]
      rcases List.mem_cons.mp member with same | later
      · cases same
        rw [if_pos rfl]
      · have inside : ticket ∈ held.map Prod.fst :=
          List.mem_map.mpr ⟨_, later, rfl⟩
        have different : ticket ≠ other := by
          rintro rfl
          exact once.1 inside
        rw [if_neg different, induction once.2 later]

theorem placeOf_perm (same : held.Perm others)
    (once : (held.map Prod.fst).Nodup) (home : σ) :
    placeOf home held = placeOf home others := by
  induction same with
  | nil => rfl
  | cons entry same induction =>
      rw [List.map_cons, List.nodup_cons] at once
      funext ticket
      rw [placeOf_cons, placeOf_cons, induction once.2]
  | swap first second tail =>
      simp only [List.map_cons, List.nodup_cons, List.mem_cons, not_or] at once
      obtain ⟨one, station⟩ := first
      obtain ⟨two, other⟩ := second
      funext ticket
      simp only [placeOf_cons]
      split
      · next here =>
          subst here
          rw [if_neg once.1.1]
      · rfl
  | trans first second before after =>
      rw [before once, after ((first.map Prod.fst).nodup_iff.mp once)]

namespace Ledger

theorem start (next : σ → σ) (home : σ) :
    Ledger (κ := κ) next home [] [] where
  once := List.nodup_nil
  circuit := .start

theorem perm (ledger : Ledger next home history held)
    (same : held.Perm others) : Ledger next home history others where
  once := (same.map Prod.fst).nodup_iff.mp ledger.once
  circuit := placeOf_perm same ledger.once home ▸ ledger.circuit

theorem enter (ledger : Ledger next home history held)
    (absent : ticket ∉ held.map Prod.fst)
    (after : others.Perm ((ticket, next home) :: held)) :
    Ledger next home (history ++ [(ticket, home)]) others := by
  apply perm _ after.symm
  constructor
  · exact List.nodup_cons.mpr ⟨absent, ledger.once⟩
  · have moved := ledger.circuit.move ticket
    rw [placeOf_none home absent] at moved
    convert moved using 1
    funext other
    rw [placeOf_cons, Function.update_apply]

theorem advance (ledger : Ledger next home history held)
    (before : held.Perm ((ticket, station) :: rest))
    (after : others.Perm ((ticket, next station) :: rest)) :
    Ledger next home (history ++ [(ticket, station)]) others := by
  apply perm _ after.symm
  have ledger := ledger.perm before
  constructor
  · exact ledger.once
  · have moved := ledger.circuit.move ticket
    rw [placeOf_cons, if_pos rfl] at moved
    convert moved using 1
    funext other
    rw [placeOf_cons, Function.update_apply, placeOf_cons]
    split <;> rfl

theorem leave (ledger : Ledger next home history held)
    (before : held.Perm ((ticket, station) :: rest))
    (last : next station = home) (after : others.Perm rest) :
    Ledger next home (history ++ [(ticket, station)]) others := by
  apply perm _ after.symm
  have ledger := ledger.perm before
  have once := List.nodup_cons.mp ledger.once
  constructor
  · exact once.2
  · have moved := ledger.circuit.move ticket
    rw [placeOf_cons, if_pos rfl, last] at moved
    convert moved using 1
    funext other
    rw [Function.update_apply, placeOf_cons]
    split
    · next here => rw [here, placeOf_none home once.1]
    · rfl

end Ledger

end

end SimpleSSD.Data
