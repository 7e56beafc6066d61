import Mathlib.Tactic.SplitIfs
import WebServer.Lib.CondVar
import WebServer.Lib.Transition

/-! # `CountDownLatch`

`Wait` returns once `CountDown` has been called as often as the latch was told, whoever calls them and
in whatever order. `CountDown` broadcasts only when the count becomes zero, which is enough: nobody
begins to wait afterwards.
-/

namespace WebServer

open Lib

structure CountDownLatch (Thread : Type) where
  count : Int
  condition : CondVar Thread

namespace CountDownLatch

variable {Thread : Type} {l l' : CountDownLatch Thread} {t u : Thread}

/-- The constructor. -/
def new (count : Int) : CountDownLatch Thread := { count, condition := .new }

/-- `CountDown`. -/
def countDown (l : CountDownLatch Thread) : CountDownLatch Thread :=
  let count := l.count - 1
  { count, condition := if count = 0 then l.condition.broadcast else l.condition }

/-- No thread sleeps at an open latch. -/
def Sound (l : CountDownLatch Thread) : Prop := l.condition.NoneAsleep (l.count ≤ 0)

theorem new_sound (count : Int) : Sound (new count : CountDownLatch Thread) :=
  fun _ _ asleep => by cases asleep

theorem Sound.countDown (sound : Sound l) : Sound l.countDown := by
  unfold Sound CountDownLatch.countDown
  dsimp only
  split_ifs with last
  · exact .broadcast
  · exact sound.step (fun opened => by omega) fun _ asleep => asleep

variable [DecidableEq Thread]

/-- `Wait` from an acquisition of `mutex_` to its release, and whether it returns. -/
def wait (l : CountDownLatch Thread) (t : Thread) : Bool × CountDownLatch Thread :=
  if l.count > 0 then (false, { l with condition := l.condition.sleep t })
  else (true, { l with condition := l.condition.leave t })

/-- `pthread_cond_wait` returns for no reason. -/
def spurious (l : CountDownLatch Thread) (t : Thread) : CountDownLatch Thread :=
  { l with condition := l.condition.leave t }

theorem Sound.wait (sound : Sound l) (t : Thread) : Sound (l.wait t).2 := by
  unfold CountDownLatch.wait
  split_ifs with closed
  · exact fun opened => absurd closed (Int.not_lt.mpr opened)
  · exact CondVar.NoneAsleep.step sound id fun _ => CondVar.leave_asleep

theorem Sound.spurious (sound : Sound l) (t : Thread) : Sound (l.spurious t) :=
  CondVar.NoneAsleep.step sound id fun _ => CondVar.leave_asleep

end CountDownLatch

/-- A latch and the calls made on it. -/
structure LatchUse (Thread : Type) where
  latch : CountDownLatch Thread
  /-- The calls of `CountDown`. -/
  countDowns : Nat
  /-- The threads whose `Wait` has returned. -/
  returned : Thread → Bool

inductive LatchAction (Thread : Type) where
  /-- A thread in `Wait` gets `mutex_`. -/
  | wait (t : Thread)
  | countDown
  | spurious (t : Thread)
  deriving Repr, DecidableEq

namespace LatchUse

variable {Thread : Type} [DecidableEq Thread] {s s' : LatchUse Thread} {count : Int}

/-- A `CountDown` that would take `count_` below the smallest `int` is no step. -/
def step (s : LatchUse Thread) : LatchAction Thread → Option (LatchUse Thread)
  | .wait t =>
      if s.returned t ∨ s.latch.condition t = .asleep then none
      else
        let (returns, latch) := s.latch.wait t
        some { s with latch, returned := Function.update s.returned t returns }
  | .countDown =>
      if -2147483648 < s.latch.count then
        some { s with latch := s.latch.countDown, countDowns := s.countDowns + 1 }
      else none
  | .spurious t =>
      if s.latch.condition t = .asleep then some { s with latch := s.latch.spurious t } else none

end LatchUse

/-- A latch that is told `count`, with any number of threads that wait and that count down. -/
def latchUse (Thread : Type) [DecidableEq Thread] (count : Int) :
    System (LatchUse Thread) (LatchAction Thread) where
  init s := s = { latch := .new count, countDowns := 0, returned := fun _ => false }
  step := LatchUse.step

namespace LatchUse

variable {Thread : Type} [DecidableEq Thread] {s s' : LatchUse Thread} {count : Int}

/-- What holds in every reachable state. -/
structure Counts (count : Int) (s : LatchUse Thread) : Prop where
  sound : s.latch.Sound
  counted : s.latch.count = count - s.countDowns
  returned : ∀ t, s.returned t = true → s.latch.count ≤ 0

theorem step_counts {a : LatchAction Thread} (counts : Counts count s) (moved : s.step a = some s') :
    Counts count s' := by
  cases a with
  | wait t =>
      simp only [step] at moved
      split_ifs at moved
      cases moved
      refine ⟨counts.sound.wait t, ?_, fun u gone => ?_⟩
      · unfold CountDownLatch.wait
        split_ifs <;> exact counts.counted
      · have same : (s.latch.wait t).2.count = s.latch.count := by
          unfold CountDownLatch.wait
          split_ifs <;> rfl
        show (s.latch.wait t).2.count ≤ 0
        rw [same]
        by_cases other : u = t
        · subst other
          dsimp only at gone
          rw [Function.update_self] at gone
          by_contra closed
          simp [CountDownLatch.wait, Int.not_le.mp closed] at gone
        · dsimp only at gone
          rw [Function.update_of_ne other] at gone
          exact counts.returned u gone
  | countDown =>
      simp only [step] at moved
      split_ifs at moved
      cases moved
      refine ⟨counts.sound.countDown, ?_, fun t gone => ?_⟩
      · show s.latch.count - 1 = count - ((s.countDowns + 1 : Nat) : Int)
        have counted := counts.counted
        omega
      · have opened := counts.returned t gone
        show s.latch.count - 1 ≤ 0
        omega
  | spurious t =>
      simp only [step] at moved
      split_ifs at moved
      cases moved
      exact ⟨counts.sound.spurious t, counts.counted, counts.returned⟩

/-- `Wait` returns to nobody before `count` calls of `CountDown`; after as many nobody sleeps, and
    each thread that gets `mutex_` in `Wait` returns. -/
theorem latch_opens (reached : (latchUse Thread count).Reachable s) :
    (∀ t, s.returned t = true → count ≤ s.countDowns) ∧
      (count ≤ s.countDowns → ∀ t, s.latch.condition t ≠ .asleep ∧
        (s.returned t = false →
          ∃ s', s.step (.wait t) = some s' ∧ s'.returned t = true)) := by
  have counts : Counts count s := by
    apply reached.invariant (P := Counts count)
    · rintro s rfl
      exact ⟨CountDownLatch.new_sound count, by simp [CountDownLatch.new], nofun⟩
    · intro s a s' counts _ moved
      exact step_counts counts moved
  have counted := counts.counted
  refine ⟨fun t gone => ?_, fun enough t => ?_⟩
  · have opened := counts.returned t gone
    omega
  · have opened : s.latch.count ≤ 0 := by omega
    have awake := counts.sound opened t
    refine ⟨awake, fun waits => ?_⟩
    have returns : (s.latch.wait t).1 = true := by
      simp [CountDownLatch.wait, Int.not_lt.mpr opened]
    refine ⟨{ s with
      latch := (s.latch.wait t).2, returned := Function.update s.returned t (s.latch.wait t).1 }, ?_, ?_⟩
    · simp [step, waits, awake]
    · dsimp only
      rw [Function.update_self, returns]

/-- Two threads wait at a latch of two; one wakes up too early, and the second `CountDown` wakes both. -/
def twoWaiting : List (LatchAction Bool) :=
  [.wait true, .wait false, .countDown, .spurious true, .wait true, .countDown]

theorem latch_opens_two : ∃ s : LatchUse Bool,
    (latchUse Bool 2).replay { latch := .new 2, countDowns := 0, returned := fun _ => false }
        twoWaiting = some s ∧ ∀ t, s.latch.condition t ≠ .asleep ∧
      ∃ s', s.step (.wait t) = some s' ∧ s'.returned t = true := by
  obtain ⟨s, ran, waits, calls⟩ : ∃ s : LatchUse Bool,
      (latchUse Bool 2).replay { latch := .new 2, countDowns := 0, returned := fun _ => false }
          twoWaiting = some s ∧ (∀ t, s.returned t = false) ∧ s.countDowns = 2 :=
    ⟨_, rfl, by decide, rfl⟩
  have reached : (latchUse Bool 2).Reachable s := .replay (fun _ _ _ => trivial) (.init rfl) ran
  have enough : (2 : Int) ≤ s.countDowns := by
    rw [calls]
    exact Int.le_refl _
  refine ⟨s, ran, fun t => ?_⟩
  obtain ⟨awake, opens⟩ := (latch_opens reached).2 enough t
  exact ⟨awake, opens (waits t)⟩

end LatchUse

end WebServer
