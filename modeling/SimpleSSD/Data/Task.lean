import Mathlib.Data.List.Basic
import Mathlib.Order.Lattice
import Mathlib.Algebra.BigOperators.Group.List.Basic
import Mathlib.Algebra.Ring.Nat

namespace SimpleSSD.Data

/-! A server that does one task after the other, in the order they came. -/

/-- A task begins when it is ready and the server is free. -/
structure Task where
  ready : Nat
  length : Nat
  deriving DecidableEq, Repr

namespace Task

def finish (free : Nat) (task : Task) : Nat :=
  max free task.ready + task.length

def finishes (free : Nat) : List Task → List Nat
  | [] => []
  | task :: rest => task.finish free :: finishes (task.finish free) rest

def freeAfter (free : Nat) (tasks : List Task) : Nat :=
  tasks.foldl finish free

variable {free : Nat} {tasks : List Task}

@[simp] theorem freeAfter_nil : freeAfter free [] = free := rfl

@[simp] theorem freeAfter_concat (task : Task) :
    freeAfter free (tasks ++ [task]) = task.finish (freeAfter free tasks) := by
  simp [freeAfter]

theorem le_finish (free : Nat) (task : Task) : free ≤ task.finish free :=
  (Nat.le_max_left _ _).trans (Nat.le_add_right _ _)

@[simp] theorem length_finishes (free : Nat) (tasks : List Task) :
    (finishes free tasks).length = tasks.length := by
  induction tasks generalizing free with
  | nil => rfl
  | cons task rest induction => simp [finishes, induction]

theorem finishes_append (free : Nat) (before after : List Task) :
    finishes free (before ++ after) =
      finishes free before ++ finishes (freeAfter free before) after := by
  induction before generalizing free with
  | nil => rfl
  | cons task rest induction => simp [finishes, freeAfter, induction]

/-- The tasks that came earlier settle when a task is finished. -/
theorem finishes_eq {before after : List Task} {task : Task}
    (parts : tasks = before ++ task :: after) :
    (finishes free tasks)[before.length]? =
      some (task.finish (freeAfter free before)) := by
  rw [parts, finishes_append, List.getElem?_append_right (by simp)]
  simp [finishes]

theorem free_le_finishes {time : Nat} (member : time ∈ finishes free tasks) :
    free ≤ time := by
  induction tasks generalizing free with
  | nil => cases member
  | cons task rest induction =>
      rcases List.mem_cons.mp member with same | later
      · rw [same]
        exact le_finish free task
      · exact (le_finish free task).trans (induction later)

theorem sum_le_freeAfter (free : Nat) (tasks : List Task) :
    free + (tasks.map length).sum ≤ freeAfter free tasks := by
  induction tasks generalizing free with
  | nil => simp
  | cons task rest induction =>
      have later := induction (task.finish free)
      have here := Nat.le_max_left free task.ready
      simp only [List.map_cons, List.sum_cons, freeAfter, List.foldl_cons]
      simp only [finish, freeAfter] at later ⊢
      omega

end Task

end SimpleSSD.Data
