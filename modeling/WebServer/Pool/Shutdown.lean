import Mathlib.Algebra.BigOperators.Group.Finset.Basic
import WebServer.Pool.PoolLock
import WebServer.Pool.TaskQueue

/-! # What a shutdown leaves behind

`started_` counts the workers that have not ended. So `ThreadPoolFree`, which comes after the joins,
never finds one alive: it destroys `lock_`, and no worker is left that could still ask for it.
-/

namespace WebServer

open Lib

variable {F A : Type}

/-- One for a worker that has not ended. -/
def Worker.living : Worker F A → Nat
  | .exited => 0
  | .lock | .test | .wait | .execute _ => 1

theorem Worker.living_eq {w : Worker F A} (present : w ≠ .exited) : w.living = 1 := by
  cases w with
  | exited => exact absurd rfl present
  | lock | test | wait | execute => rfl

theorem sum_change {n i : Nat} {f g : Nat → Nat} (inside : i < n) (others : ∀ j, j ≠ i → g j = f j) :
    ∑ j ∈ Finset.range n, g j + f i = ∑ j ∈ Finset.range n, f j + g i := by
  have here : i ∈ Finset.range n := Finset.mem_range.mpr inside
  have rest : ∑ j ∈ (Finset.range n).erase i, g j = ∑ j ∈ (Finset.range n).erase i, f j :=
    Finset.sum_congr rfl fun j there => others j (Finset.ne_of_mem_erase there)
  have before := Finset.add_sum_erase (Finset.range n) f here
  have after := Finset.add_sum_erase (Finset.range n) g here
  omega

namespace ThreadPool

variable {p p' : ThreadPool F A}

/-- The number of workers that have not ended. -/
def alive (p : ThreadPool F A) : Nat := ∑ i ∈ Finset.range p.threadCount, (p.workers i).living

/-- `started_` counts the workers alive, what a call has joined has ended, and `lock_` is destroyed
    exactly by the calls that return `0`, after all workers have ended. -/
structure Counted (p : ThreadPool F A) : Prop where
  guarded : Guarded p.lock.holder p.Inside
  started : p.started = p.alive
  joined : ∀ c, p.Joined (p.calls c)
  returned : ∀ c, p.calls c = .destroyReturned 0 → p.lock = .destroyed
  freeing : ∀ c, p.calls c = .freeing → p.alive = 0
  destroyed : p.lock = .destroyed → p.alive = 0

theorem alive_setWorker {i : Nat} (there : i < p.threadCount) (w : Worker F A) :
    (p.setWorker i w).alive + (p.workers i).living = p.alive + w.living := by
  have change := sum_change (f := fun j => (p.workers j).living)
    (g := fun j => ((p.setWorker i w).workers j).living) there fun j apart => by
      rw [setWorker_ne p w apart]
  rw [setWorker_self] at change
  exact change

theorem alive_eq_zero : p.alive = 0 ↔ ∀ i < p.threadCount, p.workers i = .exited := by
  rw [alive, Finset.sum_eq_zero_iff]
  refine forall_congr' fun i => ?_
  rw [Finset.mem_range]
  refine imp_congr_right fun _ => ?_
  cases p.workers i <;> simp [Worker.living]

theorem Guarded.not_destroyed {o : Owner} (guarded : Guarded p.lock.holder p.Inside)
    (inside : p.Inside o) : p.lock ≠ .destroyed := by
  intro gone
  have owned := (guarded o).mp inside
  rw [gone] at owned
  cases owned

/-- The mutex is not destroyed by the step, nor is it already. -/
def SteadyLock (p p' : ThreadPool F A) : Prop :=
  p'.lock = p.lock ∨ p.lock ≠ .destroyed ∧ p'.lock ≠ .destroyed

namespace Counted

/-- A worker moves on. -/
theorem worker {i : Nat} {w : Worker F A} (counted : Counted p) (there : i < p.threadCount)
    (present : p.workers i ≠ .exited) (workers : p'.workers = (p.setWorker i w).workers)
    (calls : p'.calls = p.calls) (threads : p'.threadCount = p.threadCount)
    (started : p'.started + 1 = p.started + w.living) (lock : SteadyLock p p')
    (guarded : Guarded p'.lock.holder p'.Inside) : Counted p' := by
  have change := alive_setWorker there w
  have alive : p'.alive = (p.setWorker i w).alive := by
    simp only [ThreadPool.alive, workers, threads]
    rfl
  rw [Worker.living_eq present] at change
  have before := counted.started
  have positive : p.alive ≠ 0 := fun none => present (alive_eq_zero.mp none i there)
  refine ⟨guarded, ?_, ?_, ?_, ?_, ?_⟩
  · omega
  · intro c j below inside
    rw [calls, threads] at below
    rw [threads] at inside
    rw [workers]
    exact stays_exited w present (counted.joined c j below inside)
  · intro c returned
    rw [calls] at returned
    exact absurd (counted.destroyed (counted.returned c returned)) positive
  · intro c freeing
    rw [calls] at freeing
    exact absurd (counted.freeing c freeing) positive
  · intro gone
    rcases lock with same | ⟨-, not_gone⟩
    · exact absurd (counted.destroyed (same ▸ gone)) positive
    · exact absurd gone not_gone

/-- A call moves on. -/
theorem call {c : Nat} {call : Call F A} (counted : Counted p)
    (workers : p'.workers = p.workers) (calls : p'.calls = (p.setCall c call).calls)
    (threads : p'.threadCount = p.threadCount) (started : p'.started = p.started)
    (lock : SteadyLock p p') (guarded : Guarded p'.lock.holder p'.Inside) (joined : p.Joined call)
    (returned : call ≠ .destroyReturned 0) (freeing : call = .freeing → p.alive = 0) :
    Counted p' := by
  have alive : p'.alive = p.alive := by simp only [ThreadPool.alive, workers, threads]
  refine ⟨guarded, ?_, ?_, ?_, ?_, ?_⟩
  · rw [started, alive, counted.started]
  · intro d j below inside
    rw [calls, threads] at below
    rw [workers]
    exact setCall_all p.Joined joined counted.joined d j below (threads ▸ inside)
  · intro d gone
    rw [calls] at gone
    by_cases same : d = c
    · rw [same, setCall_self] at gone
      exact absurd gone returned
    · rw [setCall_ne p call same] at gone
      rcases lock with kept | ⟨not_gone, -⟩
      · exact kept.trans (counted.returned d gone)
      · exact absurd (counted.returned d gone) not_gone
  · intro d ends
    rw [calls] at ends
    rw [alive]
    by_cases same : d = c
    · rw [same, setCall_self] at ends
      exact freeing ends
    · rw [setCall_ne p call same] at ends
      exact counted.freeing d ends
  · intro gone
    rw [alive]
    rcases lock with kept | ⟨-, not_gone⟩
    · exact counted.destroyed (kept ▸ gone)
    · exact absurd gone not_gone

theorem joined_all {c i : Nat} {err : Int} (counted : Counted p)
    (joining : p.calls c = .joining i err) (past : p.threadCount ≤ i) : p.alive = 0 := by
  have joined := counted.joined c
  rw [joining] at joined
  exact alive_eq_zero.mpr fun j there => joined j (Nat.lt_of_lt_of_le there past) there

/-- The end of the joins: `ThreadPoolFree` finds no worker alive. -/
theorem free {c : Nat} (counted : Counted p) (moved : p.step (.free c) = some p') :
    Counted p' := by
  have effect := step_effect (l := .free c) trivial moved
  have guarded := effect_guarded counted.guarded (l := .free c) trivial effect
  simp only [step] at moved
  split at moved
  · rename_i i err joining
    unfold threadPoolFree at moved
    split_ifs at moved with more wrong alive
    · cases moved
      refine counted.call rfl rfl rfl rfl (.inl rfl) guarded ?_ (by simpa using wrong) (by simp)
      intro j below
      simp [Call.joined, wrong] at below
    · have none := counted.joined_all joining (Nat.le_of_not_lt more)
      have started := counted.started
      omega
    · obtain ⟨free, rfl⟩ := acquire_some moved
      have none := counted.joined_all joining (Nat.le_of_not_lt more)
      refine counted.call rfl rfl rfl rfl ?_ guarded ?_ (by simp) fun _ => none
      · exact .inr ⟨by simp [free], by simp [setCall]⟩
      · exact fun j _ there => alive_eq_zero.mp none j there
  · cases moved

theorem step {l : PoolStep F A} (counted : Counted p) (succeeds : l.Succeeds)
    (proceeds : p.Proceeds l) (moved : p.step l = some p') : Counted p' := by
  have effect := step_effect succeeds moved
  have guarded := effect_guarded counted.guarded proceeds effect
  have nobody {call : Call F A} (none : call.joined p.threadCount = 0) : p.Joined call :=
    fun j below => absurd below (none ▸ Nat.not_lt_zero j)
  have released {o : Owner} (inside : p.Inside o) (lock : p'.lock = .free) : SteadyLock p p' :=
    .inr ⟨Guarded.not_destroyed counted.guarded inside, by simp [lock]⟩
  cases effect with
  | @workerLock _ i there waiting free =>
      have present : p.workers i ≠ .exited := by rcases waiting with here | here <;> simp [here]
      refine counted.worker there present rfl rfl rfl rfl ?_ guarded
      exact .inr ⟨by simp [free], by simp [setWorker]⟩
  | @workerTest i there testing =>
      have present : p.workers i ≠ .exited := by simp [testing]
      have inside : p.Inside (.worker i) := (inside_worker testing).mpr trivial
      unfold threadPoolThread at released guarded ⊢
      split_ifs at released guarded ⊢
      · exact counted.worker there present rfl rfl rfl rfl (released inside rfl) guarded
      · refine counted.worker (w := .exited) there present rfl rfl rfl ?_ (released inside rfl) guarded
        show p.started - 1 + 1 = p.started + 0
        omega
      · exact counted.worker there present rfl rfl rfl rfl (released inside rfl) guarded
  | @workerExecute i task there executing =>
      have present : p.workers i ≠ .exited := by simp [executing]
      exact counted.worker there present rfl rfl rfl rfl (.inl rfl) guarded
  | add fresh | destroy fresh =>
      exact counted.call rfl rfl rfl rfl (.inl rfl) guarded (nobody rfl) (by simp) (by simp)
  | addLock entered free | destroyLock entered free =>
      refine counted.call rfl rfl rfl rfl ?_ guarded (nobody rfl) (by simp) (by simp)
      exact .inr ⟨by simp [free], by simp [setCall]⟩
  | @addTask c task adding =>
      have inside : p.Inside (.call c) := (inside_call adding).mpr trivial
      rcases p.threadPoolAdd_cases c task with ⟨err, -, same⟩ | ⟨-, -, same⟩
      · rw [same] at released guarded ⊢
        exact counted.call rfl rfl rfl rfl (released inside rfl) guarded (nobody rfl) (by simp)
          (by simp)
      · rw [same] at released guarded ⊢
        exact counted.call rfl rfl rfl rfl (released inside rfl) guarded (nobody rfl) (by simp)
          (by simp)
  | @shutDown c o locked =>
      have inside : p.Inside (.call c) := (inside_call locked).mpr trivial
      have opened : p.shutdown = 0 := proceeds
      have same : p.threadPoolDestroy c o true true =
          ({ p with shutdown := o.toInt }.setCall c (.joining 0 0)).release := by
        unfold threadPoolDestroy
        rw [if_neg (not_not.mpr opened)]
        rfl
      rw [same] at released guarded ⊢
      exact counted.call rfl rfl rfl rfl (released inside rfl) guarded (nobody rfl) (by simp)
        (by simp)
  | @join c i err joining inside gone =>
      refine counted.call rfl rfl rfl rfl (.inl rfl) guarded ?_ (by simp) (by simp)
      intro j below there
      have before := counted.joined c j
      rw [joining] at before
      rcases Nat.lt_or_eq_of_le (Nat.le_of_lt_succ below) with earlier | rfl
      · exact before earlier there
      · exact gone
  | failed joining | kept joining | free joining => exact counted.free moved
  | @destroyMutex c freeing =>
      have none := counted.freeing c freeing
      refine ⟨guarded, counted.started, ?_, fun _ _ => rfl, fun d ends => ?_, fun _ => none⟩
      · apply setCall_all p.Joined _ counted.joined
        exact fun j _ there => alive_eq_zero.mp none j there
      · exact none

theorem created (threads size : Nat) (queue : List (ThreadPoolTask F A)) :
    Counted (created threads size queue) where
  guarded := by rintro (i | c) <;> exact iff_of_false id nofun
  started := by
    have living : (ThreadPool.created threads size queue).alive =
        ∑ _ ∈ Finset.range threads, 1 := rfl
    rw [living, ← Finset.card_eq_sum_ones, Finset.card_range]
    rfl
  joined c j below := absurd below (Nat.not_lt_zero j)
  returned c returned := by cases returned
  freeing c ends := by cases ends
  destroyed gone := by cases gone

theorem threadPoolCreate (threadCount queueSize : Int) (queue : List (ThreadPoolTask F A)) :
    Counted (threadPoolCreate threadCount queueSize queue) := by
  unfold ThreadPool.threadPoolCreate
  split_ifs
  · exact created _ _ queue
  · exact created _ _ queue

end Counted

/-- In a run in which no `ThreadPoolDestroy` finds the pool shut down. -/
def Single (p : ThreadPool F A) (l : PoolStep F A) : Prop := l.Succeeds ∧ p.Proceeds l

theorem reachable_counted (reached : (threadPool F A).Reached Single p) : p.Counted := by
  apply reached.invariant (P := Counted)
  · rintro p ⟨threadCount, queueSize, queue, rfl⟩
    exact .threadPoolCreate threadCount queueSize queue
  · rintro p l p' counted ⟨succeeds, proceeds⟩ moved
    exact counted.step succeeds proceeds moved

/-- Whichever way the pool is shut down, `started_` is the number of the workers that have not ended,
    a `ThreadPoolDestroy` that returns `0` has destroyed `lock_`, and then no worker is left and
    nobody is inside a section of `lock_`. -/
theorem reachable_freed (reached : (threadPool F A).Reached Single p) :
    p.started = p.alive ∧ (∀ c, p.calls c = .destroyReturned 0 → p.lock = .destroyed) ∧
      (p.lock = .destroyed →
        (∀ i < p.threadCount, p.workers i = .exited) ∧ ∀ o, ¬ p.Inside o) := by
  have counted := reachable_counted reached
  refine ⟨counted.started, counted.returned, fun gone => ⟨?_, fun o inside => ?_⟩⟩
  · exact alive_eq_zero.mp (counted.destroyed gone)
  · exact Guarded.not_destroyed counted.guarded inside gone

/-- The pool is shut down at once, with a task in its queue. -/
def immediately : List (PoolStep Unit Unit) :=
  [.add 0 ⟨some (), none⟩, .addLock 0 true, .addTask 0 true true, .destroy 1 .immediateShutdown,
    .destroyLock 1 true]

def afterwards : List (PoolStep Unit Unit) :=
  [.workerLock 0, .workerTest 0, .join 1 true, .free 1, .destroyMutex 1 true]

theorem reachable_freed_immediately : ∃ p q r : ThreadPool Unit Unit,
    (threadPool Unit Unit).replay (.threadPoolCreate 1 1 []) immediately = some p ∧
      p.step (.shutDown 1 true true) = some q ∧
      (threadPool Unit Unit).replay q afterwards = some r ∧ r.calls 1 = .destroyReturned 0 ∧
      (∀ i < r.threadCount, r.workers i = .exited) ∧ ∀ o, ¬ r.Inside o := by
  obtain ⟨p, q, r, before, opened, moved, after, returned⟩ : ∃ p q r : ThreadPool Unit Unit,
      (threadPool Unit Unit).replay (.threadPoolCreate 1 1 []) immediately = some p ∧
        p.shutdown = 0 ∧ p.step (.shutDown 1 true true) = some q ∧
        (threadPool Unit Unit).replay q afterwards = some r ∧ r.calls 1 = .destroyReturned 0 :=
    ⟨_, _, _, rfl, rfl, rfl, rfl, rfl⟩
  have quiet : ∀ l ∈ immediately ++ afterwards, ∀ p : ThreadPool Unit Unit, Single p l := by
    simp [immediately, afterwards, Single, PoolStep.Succeeds, Proceeds]
  have reached : (threadPool Unit Unit).Reached Single r := by
    apply System.Reached.replay (fun l there => quiet l (List.mem_append_right _ there)) _ after
    have first : Single p (.shutDown 1 true true) := ⟨⟨rfl, rfl⟩, opened⟩
    apply System.Reached.step _ first moved
    apply System.Reached.replay (fun l there => quiet l (List.mem_append_left _ there)) _ before
    exact .init ⟨1, 1, [], rfl⟩
  obtain ⟨-, destroyed, empty⟩ := reachable_freed reached
  obtain ⟨gone, outside⟩ := empty (destroyed 1 returned)
  exact ⟨p, q, r, before, moved, after, returned, gone, outside⟩

end ThreadPool

end WebServer
