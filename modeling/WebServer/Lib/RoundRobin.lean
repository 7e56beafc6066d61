import Mathlib.Algebra.Group.Action.Defs
import Mathlib.Algebra.BigOperators.Group.Finset.Basic
import Mathlib.Algebra.Order.BigOperators.Group.Finset
import Mathlib.Data.List.Perm.Subperm
import Mathlib.Data.Nat.ModEq

/-! # Turns in rotation

Turn `t` is the turn of member `t % n`. Where members may let their turns pass, rotation alone does
not share the work out evenly: the loads stay within one of each other exactly if no member works
twice in a round, the rounds being counted by the turns that were used.
-/

namespace WebServer.Lib

/-- No member is more than one ahead of another. -/
def Level (n : Nat) (loads : List Nat) : Prop :=
  ∀ i < n, ∀ j < n, loads.count i ≤ loads.count j + 1

/-- The numbers of the turns that are used, the first turn being `t`. -/
def usedTurns (t : Nat) : List Bool → List Nat
  | [] => []
  | used :: turns => if used then t :: usedTurns (t + 1) turns else usedTurns (t + 1) turns

/-- The members that the used turns fall to. -/
def workers (n t : Nat) (turns : List Bool) : List Nat := (usedTurns t turns).map (· % n)

/-- Among any `n` successive used turns from the beginning of a round on, no two are a multiple of
    `n` apart. -/
def Spread (n : Nat) (numbers : List Nat) : Prop :=
  ∀ round, (((numbers.drop (round * n)).take n).map (· % n)).Nodup

theorem usedTurns_append (t : Nat) (front back : List Bool) :
    usedTurns t (front ++ back) = usedTurns t front ++ usedTurns (t + front.length) back := by
  induction front generalizing t with
  | nil => rfl
  | cons used front ih =>
      have shift : t + 1 + front.length = t + (used :: front).length := by
        rw [List.length_cons]
        omega
      rw [List.cons_append, usedTurns, usedTurns, ih, shift]
      split_ifs <;> rfl

theorem workers_append (n t : Nat) (front back : List Bool) :
    workers n t (front ++ back) = workers n t front ++ workers n (t + front.length) back := by
  rw [workers, usedTurns_append, List.map_append]
  rfl

theorem workers_front {n t : Nat} {front turns : List Bool} (within : front <+: turns) :
    workers n t front <+: workers n t turns := by
  obtain ⟨back, rfl⟩ := within
  rw [workers_append]
  exact List.prefix_append _ _

/-- The work done at any time is that of some first turns. -/
theorem prefix_workers {n t : Nat} {turns : List Bool} {loads : List Nat}
    (within : loads <+: workers n t turns) :
    ∃ front, front <+: turns ∧ workers n t front = loads := by
  induction turns generalizing t loads with
  | nil => exact ⟨[], List.nil_prefix, (List.prefix_nil.mp within).symm⟩
  | cons used turns ih =>
      cases used with
      | false =>
          obtain ⟨front, before, done⟩ := ih (t := t + 1) within
          exact ⟨false :: front, (List.prefix_cons_inj false).mpr before, done⟩
      | true =>
          cases loads with
          | nil => exact ⟨[], List.nil_prefix, rfl⟩
          | cons load loads =>
              obtain ⟨rfl, rest⟩ := List.cons_prefix_cons.mp within
              obtain ⟨front, before, done⟩ := ih (t := t + 1) rest
              refine ⟨true :: front, (List.prefix_cons_inj true).mpr before, ?_⟩
              exact congrArg (t % n :: ·) done

theorem workers_lt {n t : Nat} (positive : 0 < n) (turns : List Bool) :
    ∀ i ∈ workers n t turns, i < n := by
  intro i there
  obtain ⟨turn, -, rfl⟩ := List.mem_map.mp there
  exact Nat.mod_lt turn positive

section Level

variable {n : Nat} {loads : List Nat}

theorem sum_count (members : ∀ i ∈ loads, i < n) :
    ∑ j ∈ Finset.range n, loads.count j = loads.length := by
  have all : ∀ i ∈ (loads : Multiset Nat), i ∈ Finset.range n := fun i there =>
    Finset.mem_range.mpr (members i there)
  have total := Multiset.sum_count_eq_card all
  simpa only [Multiset.coe_count, Multiset.coe_card] using total

theorem Level.count_le (level : Level n loads) (members : ∀ i ∈ loads, i < n) {i : Nat} (member : i < n) :
    n * loads.count i < loads.length + n := by
  have here : i ∈ Finset.range n := Finset.mem_range.mpr member
  have more : ∑ _j ∈ Finset.range n, loads.count i < ∑ j ∈ Finset.range n, (loads.count j + 1) := by
    refine Finset.sum_lt_sum (fun j there => ?_) ⟨i, here, Nat.lt_succ_self _⟩
    exact level i member j (Finset.mem_range.mp there)
  rwa [Finset.sum_const, Finset.card_range, smul_eq_mul, Finset.sum_add_distrib, sum_count members,
    Finset.sum_const, Finset.card_range, smul_eq_mul, Nat.mul_one] at more

theorem Level.le_count (level : Level n loads) (members : ∀ i ∈ loads, i < n) {i : Nat} (member : i < n) :
    loads.length < n * loads.count i + n := by
  have here : i ∈ Finset.range n := Finset.mem_range.mpr member
  have more : ∑ j ∈ Finset.range n, loads.count j < ∑ _j ∈ Finset.range n, (loads.count i + 1) := by
    refine Finset.sum_lt_sum (fun j there => ?_) ⟨i, here, Nat.lt_succ_self _⟩
    exact level j (Finset.mem_range.mp there) i member
  rwa [sum_count members, Finset.sum_const, Finset.card_range, smul_eq_mul, Nat.mul_add,
    Nat.mul_one] at more

theorem count_round (nodup : loads.Nodup) (members : ∀ i ∈ loads, i < n) (whole : n ≤ loads.length)
    {i : Nat} (member : i < n) : loads.count i = 1 := by
  have inside : loads.Subperm (List.range n) :=
    nodup.subperm fun i there => List.mem_range.mpr (members i there)
  have all : loads.Perm (List.range n) := inside.perm_of_length_le (by simpa using whole)
  rw [all.count_eq, List.count_eq_one_of_mem List.nodup_range (List.mem_range.mpr member)]

theorem take_round (loads : List Nat) (round : Nat) :
    loads.take ((round + 1) * n) =
      loads.take (round * n) ++ (loads.drop (round * n)).take n := by
  rw [Nat.succ_mul, List.take_add]

/-- After some whole rounds everybody has worked that often. -/
theorem count_rounds (nodup : ∀ round, ((loads.drop (round * n)).take n).Nodup)
    (members : ∀ i ∈ loads, i < n) {rounds : Nat} (whole : rounds * n ≤ loads.length) {i : Nat}
    (member : i < n) : (loads.take (rounds * n)).count i = rounds := by
  induction rounds with
  | zero => simp
  | succ rounds ih =>
      rw [Nat.succ_mul] at whole
      have last : ((loads.drop (rounds * n)).take n).count i = 1 := by
        refine count_round (nodup rounds) (fun j there => ?_) ?_ member
        · exact members j (List.mem_of_mem_drop (List.mem_of_mem_take there))
        · rw [List.length_take, List.length_drop]
          omega
      rw [take_round, List.count_append, ih (by omega), last]

/-- In the last round, which may be over early, nobody has worked twice. -/
theorem level_of_rounds (nodup : ∀ round, ((loads.drop (round * n)).take n).Nodup)
    (members : ∀ i ∈ loads, i < n) (positive : 0 < n) : Level n loads := by
  have split : loads = loads.take (loads.length / n * n) ++
      (loads.drop (loads.length / n * n)).take n := by
    rw [← take_round, List.take_of_length_le]
    exact (Nat.lt_mul_of_div_lt (Nat.lt_succ_self _) positive).le
  have level {i : Nat} (member : i < n) :
      loads.length / n ≤ loads.count i ∧ loads.count i ≤ loads.length / n + 1 := by
    have before := count_rounds nodup members (Nat.div_mul_le_self loads.length n) member
    have last := List.nodup_iff_count_le_one.mp (nodup (loads.length / n)) i
    rw [split, List.count_append, ← split, before]
    omega
  intro i member j member'
  have := level member
  have := level member'
  omega

theorem level_prefixes_iff (members : ∀ i ∈ loads, i < n) (positive : 0 < n) :
    (∀ front, front <+: loads → Level n front) ↔
      ∀ round, ((loads.drop (round * n)).take n).Nodup := by
  constructor
  · intro level round
    refine List.nodup_iff_count_le_one.mpr fun i => ?_
    by_contra twice
    have there : i ∈ (loads.drop (round * n)).take n := List.count_pos_iff.mp (by omega)
    have member : i < n := members i (List.mem_of_mem_drop (List.mem_of_mem_take there))
    have inside (k : Nat) : ∀ j ∈ loads.take k, j < n := fun j here =>
      members j (List.mem_of_mem_take here)
    have long : round * n ≤ loads.length := by
      by_contra short
      rw [List.drop_of_length_le (by omega), List.take_nil] at there
      cases there
    have before := (level _ (List.take_prefix (round * n) loads)).le_count (inside _) member
    have after := (level _ (List.take_prefix ((round + 1) * n) loads)).count_le (inside _) member
    rw [List.length_take, Nat.min_eq_left long] at before
    have least : round ≤ (loads.take (round * n)).count i := by
      by_contra less
      have := Nat.mul_le_mul_left n (show (loads.take (round * n)).count i + 1 ≤ round by omega)
      rw [Nat.mul_add, Nat.mul_comm n round] at this
      omega
    have most : round * n + 2 * n ≤ n * (loads.take ((round + 1) * n)).count i := by
      rw [take_round, List.count_append, Nat.mul_comm n, ← Nat.add_mul]
      exact Nat.mul_le_mul_right n (by omega)
    have length : (loads.take ((round + 1) * n)).length ≤ round * n + n := by
      rw [← Nat.succ_mul]
      exact List.length_take_le _ _
    omega
  · intro nodup front within
    obtain ⟨back, rfl⟩ := within
    refine level_of_rounds (fun round => ?_) (fun i there => members i (List.mem_append_left _ there))
      positive
    apply List.Nodup.sublist _ (nodup round)
    rw [List.drop_append, List.take_append]
    exact List.sublist_append_left _ _

theorem workers_level_iff (positive : 0 < n) (t : Nat) (turns : List Bool) :
    (∀ front, front <+: turns → Level n (workers n t front)) ↔ Spread n (usedTurns t turns) := by
  have rounds : Spread n (usedTurns t turns) ↔
      ∀ round, (((workers n t turns).drop (round * n)).take n).Nodup := by
    simp only [Spread, workers, List.map_drop, List.map_take]
  rw [rounds, ← level_prefixes_iff (workers_lt positive turns) positive]
  constructor
  · intro level loads within
    obtain ⟨front, before, rfl⟩ := prefix_workers within
    exact level front before
  · exact fun level front within => level _ (workers_front within)

end Level

theorem usedTurns_all (t k : Nat) : usedTurns t (List.replicate k true) = List.range' t k := by
  induction k generalizing t with
  | zero => rfl
  | succ k ih =>
      rw [List.replicate_succ, usedTurns, if_pos rfl, ih, List.range'_succ]

/-- Plain rotation is spread. -/
theorem spread_all (n t k : Nat) : Spread n (usedTurns t (List.replicate k true)) := by
  intro round
  have window : ∃ first size, size ≤ n ∧
      ((usedTurns t (List.replicate k true)).drop (round * n)).take n = List.range' first size := by
    rw [usedTurns_all, List.drop_range']
    rcases Nat.le_total (k - round * n) n with short | long
    · exact ⟨_, _, short, List.take_range'_of_length_le short⟩
    · exact ⟨_, _, Nat.le_refl n, List.take_range'_of_length_ge long⟩
  obtain ⟨first, size, small, same⟩ := window
  rw [same]
  apply (List.nodup_map_iff_inj_on List.nodup_range').mpr
  intro u here v there congruent
  rw [List.mem_range'_1] at here there
  by_contra differ
  rcases Nat.lt_or_gt_of_ne differ with less | less
  · have := Nat.le_of_dvd (by omega) ((Nat.modEq_iff_dvd' less.le).mp congruent)
    omega
  · have := Nat.le_of_dvd (by omega) ((Nat.modEq_iff_dvd' less.le).mp congruent.symm)
    omega

end WebServer.Lib
