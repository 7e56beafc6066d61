import Mathlib.Data.List.Nodup
import Mathlib.Data.List.Range
import Mathlib.Tactic.Tauto

/-! # Ordered streams with losses

Records are accepted one after another and delivered in that order, except for those given up on
the way. A record is named by its position in the log of all accepted records, so equal records
stay apart.
-/

namespace WebServer.Lib

structure RecordStream (α : Type) where
  /-- The accepted records, oldest first. -/
  log : List α
  /-- The positions delivered, in the order of delivery. -/
  delivered : List Nat
  /-- The positions still to be delivered, next one first. -/
  pending : List Nat
  /-- The positions given up. -/
  lost : List Nat

namespace RecordStream

variable {α : Type}

/-- The positions that are not given up, in order. -/
def kept (s : RecordStream α) : List Nat := (List.range s.log.length).filter (· ∉ s.lost)

/-- The records at some positions. -/
def records (s : RecordStream α) (positions : List Nat) : List α :=
  positions.filterMap (s.log[·]?)

/-- Every accepted record is delivered in order, waits in order or is given up. -/
structure Sound (s : RecordStream α) : Prop where
  order : s.delivered ++ s.pending = s.kept
  accepted : ∀ i ∈ s.lost, i < s.log.length

variable {s : RecordStream α}

theorem kept_nodup (s : RecordStream α) : s.kept.Nodup := List.nodup_range.filter _

theorem mem_kept {i : Nat} : i ∈ s.kept ↔ i < s.log.length ∧ i ∉ s.lost := by
  simp [kept]

namespace Sound

theorem nodup (sound : s.Sound) : (s.delivered ++ s.pending).Nodup :=
  sound.order ▸ s.kept_nodup

theorem inside (sound : s.Sound) {i : Nat} (known : i ∈ s.delivered ++ s.pending) :
    i < s.log.length :=
  (mem_kept.mp (sound.order ▸ known)).1

theorem accept (sound : s.Sound) (r : α) :
    Sound { s with log := s.log ++ [r], pending := s.pending ++ [s.log.length] } where
  order := by
    have newest : s.log.length ∉ s.lost := fun lost => Nat.lt_irrefl _ (sound.accepted _ lost)
    simp only [kept, List.length_append, List.length_singleton, List.range_succ, List.filter_append]
    rw [← List.append_assoc, sound.order]
    simp [kept, newest]
  accepted i lost := by
    have := sound.accepted i lost
    simp only [List.length_append, List.length_singleton]
    omega

theorem deliver (sound : s.Sound) {front back : List Nat} (waiting : s.pending = front ++ back) :
    Sound { s with delivered := s.delivered ++ front, pending := back } where
  order := by
    have order := sound.order
    rw [waiting, ← List.append_assoc] at order
    exact order
  accepted := sound.accepted

/-- Some waiting records are given up. -/
theorem lose (sound : s.Sound) {front mid back : List Nat}
    (waiting : s.pending = front ++ mid ++ back) :
    Sound { s with pending := front ++ back, lost := s.lost ++ mid } where
  order := by
    have distinct := sound.nodup
    rw [waiting] at distinct
    have split : s.kept.filter (· ∉ mid) = s.delivered ++ (front ++ back) := by
      rw [← sound.order, waiting]
      simp only [List.nodup_append, List.mem_append] at distinct
      simp only [List.filter_append]
      have self : ∀ l : List Nat, (∀ i ∈ l, i ∉ mid) → l.filter (· ∉ mid) = l := fun l apart =>
        List.filter_eq_self.mpr fun i here => by simpa using apart i here
      have none_left : mid.filter (· ∉ mid) = [] := List.filter_eq_nil_iff.mpr (by simp)
      obtain ⟨-, ⟨⟨-, -, front_mid⟩, -, mid_back⟩, older⟩ := distinct
      rw [self s.delivered fun i here there => older i here i (.inl (.inr there)) rfl,
        self front fun i here there => front_mid i here i there rfl, none_left,
        self back fun i here there => mid_back i (.inr there) i here rfl]
      simp
    rw [← split]
    simp only [kept, List.filter_filter, List.mem_append]
    congr 1
    funext i
    by_cases i ∈ s.lost <;> by_cases i ∈ mid <;> simp_all
  accepted i lost := by
    rcases List.mem_append.mp lost with before | now
    · exact sound.accepted i before
    · exact sound.inside (List.mem_append_right _ (by simp [waiting, now]))

end Sound

end RecordStream

end WebServer.Lib
