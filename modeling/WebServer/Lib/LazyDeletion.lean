import Mathlib.Data.List.Perm.Basic
import Mathlib.Order.Lattice

/-! # Lazy deletion from a priority queue

A deleted item stays in the queue until it is on top. A sweep takes dead items off the top for
nothing and reads a clock for each living one, until the queue is empty or the living item on top is
not due. If the readings do not decrease, it takes out exactly the living items that are due at the
last one, as if the dead ones had left the queue when they were deleted.
-/

namespace WebServer.Lib

variable {ν κ : Type} [LinearOrder κ]

/-- `Sweeps key live queue readings popped rest`: a sweep of `queue` that makes the readings
    `readings` takes out `popped` and leaves `rest`. Any item with the least key may be on top. -/
inductive Sweeps (key : ν → κ) (live : ν → Bool) :
    List ν → List κ → List ν → List ν → Prop where
  | empty : Sweeps key live [] [] [] []
  | dead {queue top others readings popped rest} : queue.Perm (top :: others) →
      (∀ m ∈ queue, key top ≤ key m) → live top = false →
      Sweeps key live others readings popped rest →
      Sweeps key live queue readings (top :: popped) rest
  | due {queue top others readings popped rest reading} : queue.Perm (top :: others) →
      (∀ m ∈ queue, key top ≤ key m) → live top = true → key top ≤ reading →
      Sweeps key live others readings popped rest →
      Sweeps key live queue (reading :: readings) (top :: popped) rest
  | stop {queue top reading} : top ∈ queue → (∀ m ∈ queue, key top ≤ key m) → live top = true →
      reading < key top → Sweeps key live queue [reading] [] queue

/-- Due at the last reading; nothing is without one. -/
def dueAt (last : Option κ) (key : κ) : Bool := last.any fun reading => decide (key ≤ reading)

namespace Sweeps

variable {key : ν → κ} {live : ν → Bool} {queue popped rest : List ν} {readings : List κ}

theorem perm (sweeps : Sweeps key live queue readings popped rest) :
    queue.Perm (popped ++ rest) := by
  induction sweeps with
  | empty => exact .refl _
  | dead split _ _ _ ih => exact split.trans (ih.cons _)
  | due split _ _ _ _ ih => exact split.trans (ih.cons _)
  | stop => exact .refl _

/-- A living item is only taken out when it is due. -/
theorem popped_due (sweeps : Sweeps key live queue readings popped rest) {n : ν} (out : n ∈ popped)
    (living : live n = true) : ∃ reading ∈ readings, key n ≤ reading := by
  induction sweeps with
  | empty => cases out
  | dead _ _ dead _ ih =>
      rcases List.mem_cons.mp out with rfl | later
      · rw [living] at dead
        cases dead
      · exact ih later
  | due _ _ _ reached _ ih =>
      rcases List.mem_cons.mp out with rfl | later
      · exact ⟨_, List.mem_cons_self, reached⟩
      · obtain ⟨reading, made, due⟩ := ih later
        exact ⟨reading, List.mem_cons_of_mem _ made, due⟩
  | stop => cases out

theorem readings_ne_nil (sweeps : Sweeps key live queue readings popped rest) (left : rest ≠ []) :
    readings ≠ [] := by
  induction sweeps with
  | empty => exact absurd rfl left
  | dead _ _ _ _ ih => exact ih left
  | due => exact List.cons_ne_nil _ _
  | stop => exact List.cons_ne_nil _ _

/-- Whatever is left is not due at any of the readings. -/
theorem rest_not_due (sweeps : Sweeps key live queue readings popped rest)
    (ordered : readings.Pairwise (· ≤ ·)) {n : ν} (left : n ∈ rest) {reading : κ}
    (made : reading ∈ readings) : reading < key n := by
  induction sweeps generalizing reading with
  | empty => cases left
  | dead _ _ _ _ ih => exact ih ordered left made
  | due _ _ _ _ sweeps ih =>
      obtain ⟨least, sorted⟩ := List.pairwise_cons.mp ordered
      rcases List.mem_cons.mp made with rfl | later
      · obtain ⟨next, here⟩ := List.exists_mem_of_ne_nil _
          (sweeps.readings_ne_nil (List.ne_nil_of_mem left))
        exact (least next here).trans_lt (ih sorted left here)
      · exact ih sorted left later
  | stop _ least _ early =>
      rw [List.mem_singleton.mp made]
      exact early.trans_le (least n left)

theorem last_greatest (ordered : readings.Pairwise (· ≤ ·)) {reading : κ} (made : reading ∈ readings) :
    ∃ last, readings.getLast? = some last ∧ reading ≤ last := by
  induction readings generalizing reading with
  | nil => cases made
  | cons first later ih =>
      obtain ⟨least, sorted⟩ := List.pairwise_cons.mp ordered
      cases later with
      | nil => exact ⟨first, rfl, (List.mem_singleton.mp made).le⟩
      | cons second more =>
          rw [List.getLast?_cons_cons]
          rcases List.mem_cons.mp made with rfl | here
          · obtain ⟨last, same, below⟩ := ih sorted List.mem_cons_self
            exact ⟨last, same, (least second List.mem_cons_self).trans below⟩
          · exact ih sorted here

/-- A sweep takes out the living items that are due at its last reading and leaves the others. -/
theorem splits (sweeps : Sweeps key live queue readings popped rest)
    (ordered : readings.Pairwise (· ≤ ·)) :
    (popped.filter live).Perm
        ((queue.filter live).filter fun n => dueAt readings.getLast? (key n)) ∧
      (rest.filter live).Perm
        ((queue.filter live).filter fun n => !dueAt readings.getLast? (key n)) := by
  have out : ∀ n ∈ popped.filter live, dueAt readings.getLast? (key n) = true := by
    intro n here
    obtain ⟨out, living⟩ := List.mem_filter.mp here
    obtain ⟨reading, made, due⟩ := sweeps.popped_due out living
    obtain ⟨last, same, below⟩ := last_greatest ordered made
    rw [same]
    exact decide_eq_true (due.trans below)
  have left : ∀ n ∈ rest.filter live, dueAt readings.getLast? (key n) = false := by
    intro n here
    cases same : readings.getLast? with
    | none => rfl
    | some last =>
        have early := sweeps.rest_not_due ordered (List.mem_filter.mp here).1
          (List.mem_of_getLast? same)
        exact decide_eq_false (not_le.mpr early)
  have parts : (queue.filter live).Perm (popped.filter live ++ rest.filter live) := by
    rw [← List.filter_append]
    exact sweeps.perm.filter live
  have none_left : (rest.filter live).filter (fun n => dueAt readings.getLast? (key n)) = [] :=
    List.filter_eq_nil_iff.mpr fun n here => Bool.eq_false_iff.mp (left n here)
  have none_out : (popped.filter live).filter (fun n => !dueAt readings.getLast? (key n)) = [] :=
    List.filter_eq_nil_iff.mpr fun n here => by simp [out n here]
  have all_left : (rest.filter live).filter (fun n => !dueAt readings.getLast? (key n)) =
      rest.filter live := List.filter_eq_self.mpr fun n here => by simp [left n here]
  constructor
  · have due := (parts.filter fun n => dueAt readings.getLast? (key n)).symm
    rwa [List.filter_append, List.filter_eq_self.mpr out, none_left, List.append_nil] at due
  · have kept := (parts.filter fun n => !dueAt readings.getLast? (key n)).symm
    rwa [List.filter_append, none_out, all_left, List.nil_append] at kept

end Sweeps

end WebServer.Lib
