import WebServer.Lib.CondVar
import WebServer.Pool.Shutdown

/-! # The wake-ups of the pool

The pool with its condition variable `notify_`: a worker that waits goes on because it was woken, or
for no reason. `ThreadPoolAdd` signals and `ThreadPoolDestroy` broadcasts, so no worker misses a task
or a shutdown.
-/

namespace WebServer

open Lib

variable {F A : Type}

structure SignalledPool (F A : Type) where
  pool : ThreadPool F A
  notify : CondVar Nat

inductive SignalledStep (F A : Type) where
  /-- A step of the pool that is no wake-up, with the worker that its signal picks. -/
  | pool (l : PoolStep F A) (picked : Option Nat)
  /-- A worker that was woken returns from `pthread_cond_wait`. -/
  | wake (i : Nat)
  /-- One that was not does so too. -/
  | spurious (i : Nat)

namespace SignalledPool

/-- What a step does to `notify_`. -/
def notified (s : SignalledPool F A) (picked : Option Nat) : PoolStep F A → Option (CondVar Nat)
  | .workerTest i =>
      some (if s.pool.count = 0 ∧ s.pool.shutdown = 0 then s.notify.sleep i else s.notify)
  | .addTask _ signals _ =>
      if s.pool.count ≠ s.pool.queueSize ∧ s.pool.shutdown = 0 ∧ signals then
        if s.notify.Picks (List.range s.pool.threadCount) picked then some (s.notify.signal picked)
        else none
      else some s.notify
  | .shutDown _ broadcasts _ =>
      some (if s.pool.shutdown = 0 ∧ broadcasts then s.notify.broadcast else s.notify)
  | .workerWake _ => none
  | _ => some s.notify

def step (s : SignalledPool F A) : SignalledStep F A → Option (SignalledPool F A)
  | .pool l picked =>
      (s.notified picked l).bind fun notify => (s.pool.step l).map fun pool => { pool, notify }
  | .wake i =>
      if s.notify i = .woken then
        (s.pool.step (.workerWake i)).map fun pool => { pool, notify := s.notify.leave i }
      else none
  | .spurious i =>
      if s.notify i = .asleep then
        (s.pool.step (.workerWake i)).map fun pool => { pool, notify := s.notify.leave i }
      else none

end SignalledPool

/-- The pool with its condition variable, after a successful `ThreadPoolCreate`. -/
def signalledPool (F A : Type) : System (SignalledPool F A) (SignalledStep F A) where
  init s := (threadPool F A).init s.pool ∧ s.notify = .new
  step := SignalledPool.step

/-- Only call `d` shuts the pool down, gracefully, every task has a function, and the pthread calls
    succeed. -/
def PoolStep.Admitted (d : Nat) : PoolStep F A → Prop
  | .add _ task => task.func.isSome
  | .destroy c shutdownOption => c = d ∧ shutdownOption = .gracefulShutdown
  | l => l.Succeeds

def SignalledStep.Admitted (d : Nat) : SignalledStep F A → Prop
  | .pool l _ => l.Admitted d
  | .wake _ | .spurious _ => True

/-- What a call can be then; `shuts` tells that it is the one that shuts the pool down. -/
def Call.Expected (shuts : Prop) : Call F A → Prop
  | .notMade | .addReturned _ => True
  | .addEntered task | .addLocked task => task.func.isSome
  | .destroyEntered _ | .destroyLocked _ | .freeing => shuts
  | .joining _ err | .destroyReturned err => shuts ∧ err = 0

/-- The call is one of `ThreadPoolDestroy`. -/
def Call.Shuts : Call F A → Prop
  | .destroyEntered _ | .destroyLocked _ | .joining _ _ | .freeing | .destroyReturned _ => True
  | .notMade | .addEntered _ | .addLocked _ | .addReturned _ => False

/-- The call has shut the pool down. -/
def Call.Past : Call F A → Prop
  | .joining _ _ | .freeing | .destroyReturned _ => True
  | _ => False

theorem PoolStep.Admitted.succeeds {l : PoolStep F A} (admitted : l.Admitted d) :
    l.Succeeds ∧ l.Graceful := by
  cases l with
  | add | workerLock | workerTest | workerWake | workerExecute | free => exact ⟨trivial, trivial⟩
  | destroy c o => exact ⟨trivial, admitted.2⟩
  | addLock | addTask | destroyLock | shutDown | join | destroyMutex => exact ⟨admitted, trivial⟩

namespace ThreadPool

variable {p p' : ThreadPool F A} {d : Nat}

/-- What holds of a pool that call `d` alone shuts down. -/
structure Orderly (d : Nat) (p : ThreadPool F A) : Prop where
  sound : ∃ items, Sound p items
  counted : p.Counted
  expected : ∀ c, (p.calls c).Expected (c = d)
  past : (p.calls d).Past ↔ p.shutdown ≠ 0
  functions : ∀ task ∈ p.added.map Prod.snd, task.func.isSome
  beyond : ∀ i, p.threadCount ≤ i → p.workers i = .lock
  freed : p.lock = .destroyed → p.calls d = .destroyReturned 0

theorem setCall_each (Q : Nat → Call F A → Prop) {c : Nat} {call : Call F A} (here : Q c call)
    (others : ∀ e, Q e (p.calls e)) (e : Nat) : Q e ((p.setCall c call).calls e) := by
  by_cases same : e = c
  · rw [same, setCall_self]
    exact here
  · rw [setCall_ne p call same]
    exact others e

namespace Orderly

theorem opened {c : Nat} {o : ShutDownOption} (orderly : Orderly d p)
    (locked : p.calls c = .destroyLocked o) : c = d ∧ p.shutdown = 0 := by
  have shuts := orderly.expected c
  rw [locked] at shuts
  obtain rfl : c = d := shuts
  refine ⟨rfl, not_not.mp fun closed => ?_⟩
  have past := orderly.past.mpr closed
  rw [locked] at past
  exact past

theorem proceeds {l : PoolStep F A} (orderly : Orderly d p) (succeeds : l.Succeeds)
    (moved : p.step l = some p') : p.Proceeds l := by
  cases step_effect succeeds moved with
  | shutDown locked => exact (orderly.opened locked).2
  | workerLock _ _ _ worker => cases l <;> trivial
  | _ => trivial

theorem worker {i : Nat} {w : Worker F A} (orderly : Orderly d p) (there : i < p.threadCount)
    (sound : ∃ items, Sound p' items) (counted : p'.Counted)
    (workers : p'.workers = (p.setWorker i w).workers) (calls : p'.calls = p.calls)
    (threads : p'.threadCount = p.threadCount) (shutdown : p'.shutdown = p.shutdown)
    (added : p'.added = p.added) (lock : p'.lock ≠ .destroyed ∨ p'.lock = p.lock) :
    Orderly d p' := by
  refine ⟨sound, counted, ?_, ?_, ?_, fun j beyond => ?_, fun gone => ?_⟩
  · rw [calls]
    exact orderly.expected
  · rw [calls, shutdown]
    exact orderly.past
  · rw [added]
    exact orderly.functions
  · rw [threads] at beyond
    rw [workers, setWorker_ne p w (by omega)]
    exact orderly.beyond j beyond
  · rw [calls]
    exact orderly.freed ((lock.resolve_left fun other => other gone) ▸ gone)

/-- A call moves on that neither adds a task nor shuts the pool down. -/
theorem call {c : Nat} {call : Call F A} (orderly : Orderly d p) (sound : ∃ items, Sound p' items)
    (counted : p'.Counted) (workers : p'.workers = p.workers)
    (calls : p'.calls = (p.setCall c call).calls) (threads : p'.threadCount = p.threadCount)
    (shutdown : p'.shutdown = p.shutdown) (added : ∀ task ∈ p'.added.map Prod.snd, task.func.isSome)
    (lock : p'.lock ≠ .destroyed ∨ p'.lock = p.lock ∧ (p.calls c ≠ .destroyReturned 0))
    (expected : call.Expected (c = d)) (past : call.Past ↔ (p.calls c).Past) : Orderly d p' := by
  refine ⟨sound, counted, ?_, ?_, added, ?_, fun gone => ?_⟩
  · rw [calls]
    exact setCall_each (fun e call => call.Expected (e = d)) expected orderly.expected
  · rw [calls, shutdown, ← orderly.past]
    by_cases same : d = c
    · rw [same, setCall_self]
      exact past
    · rw [setCall_ne p call same]
  · rw [workers, threads]
    exact orderly.beyond
  · obtain ⟨same, going⟩ := lock.resolve_left fun other => other gone
    have freed := orderly.freed (same ▸ gone)
    have other : d ≠ c := fun same => going (same ▸ freed)
    rw [calls, setCall_ne p call other]
    exact freed

theorem step {l : PoolStep F A} (orderly : Orderly d p) (admitted : l.Admitted d)
    (moved : p.step l = some p') : Orderly d p' := by
  obtain ⟨succeeds, graceful⟩ := admitted.succeeds
  have proceeds := orderly.proceeds succeeds moved
  have effect := step_effect succeeds moved
  have counted := orderly.counted.step succeeds proceeds moved
  obtain ⟨items, queued⟩ := orderly.sound
  have sound := queued.step graceful effect
  cases effect with
  | workerLock there waiting free =>
      exact orderly.worker there sound counted rfl rfl rfl rfl rfl (.inl (by simp [setWorker]))
  | @workerTest i there testing =>
      unfold threadPoolThread at sound counted ⊢
      split_ifs at sound counted ⊢
      · exact orderly.worker there sound counted rfl rfl rfl rfl rfl (.inl (by simp [release]))
      · exact orderly.worker (w := .exited) there sound counted rfl rfl rfl rfl rfl
          (.inl (by simp [release]))
      · exact orderly.worker there sound counted rfl rfl rfl rfl rfl (.inl (by simp [release]))
  | workerExecute there executing =>
      exact orderly.worker there sound counted rfl rfl rfl rfl rfl (.inr rfl)
  | @add c task fresh =>
      exact orderly.call sound counted rfl rfl rfl rfl orderly.functions
        (.inr ⟨rfl, by simp [fresh]⟩) admitted (by simp [fresh, Call.Past])
  | @addLock c task entered free =>
      have some_function := orderly.expected c
      rw [entered] at some_function
      exact orderly.call sound counted rfl rfl rfl rfl orderly.functions (.inl (by simp [setCall]))
        some_function (by simp [entered, Call.Past])
  | @addTask c task adding =>
      have some_function := orderly.expected c
      rw [adding] at some_function
      rcases p.threadPoolAdd_cases c task with ⟨err, -, same⟩ | ⟨-, -, same⟩
      · rw [same] at sound counted ⊢
        exact orderly.call sound counted rfl rfl rfl rfl orderly.functions
          (.inl (by simp [release])) trivial (by simp [adding, Call.Past])
      · rw [same] at sound counted ⊢
        refine orderly.call sound counted rfl rfl rfl rfl
          (fun t there => ?_) (.inl (by simp [release])) trivial (by simp [adding, Call.Past])
        have listed : t ∈ (p.added ++ [(c, task)]).map Prod.snd := there
        rw [List.map_append, List.mem_append] at listed
        rcases listed with older | newest
        · exact orderly.functions t older
        · obtain rfl : t = task := by simpa using newest
          exact some_function
  | @destroy c o fresh =>
      exact orderly.call sound counted rfl rfl rfl rfl orderly.functions
        (.inr ⟨rfl, by simp [fresh]⟩) admitted.1 (by simp [fresh, Call.Past])
  | @destroyLock c o entered free =>
      have shuts := orderly.expected c
      rw [entered] at shuts
      exact orderly.call sound counted rfl rfl rfl rfl orderly.functions (.inl (by simp [setCall]))
        shuts (by simp [entered, Call.Past])
  | @shutDown c o locked =>
      obtain ⟨rfl, opened⟩ := orderly.opened locked
      have option := queued.graceful c
      rw [locked] at option
      obtain rfl : o = .gracefulShutdown := option
      have same : p.threadPoolDestroy c .gracefulShutdown true true =
          ({ p with shutdown := 2 }.setCall c (.joining 0 0)).release := by
        unfold threadPoolDestroy
        rw [if_neg (not_not.mpr opened)]
        rfl
      rw [same] at sound counted ⊢
      refine ⟨sound, counted, ?_, ?_, orderly.functions, orderly.beyond, fun gone => ?_⟩
      · exact setCall_each (fun e call => call.Expected (e = c)) ⟨rfl, rfl⟩ orderly.expected
      · show ((p.setCall c (.joining 0 0)).calls c).Past ↔ (2 : Int) ≠ 0
        rw [setCall_self]
        exact iff_of_true trivial (by decide)
      · cases gone
  | @join c i err joining inside gone =>
      have shuts := orderly.expected c
      rw [joining] at shuts
      exact orderly.call sound counted rfl rfl rfl rfl orderly.functions
        (.inr ⟨rfl, by simp [joining]⟩) shuts (by simp [joining, Call.Past])
  | @failed c i err joining past wrong =>
      have shuts := orderly.expected c
      rw [joining] at shuts
      exact absurd shuts.2 wrong
  | @kept c i joining past =>
      have shuts := orderly.expected c
      rw [joining] at shuts
      exact orderly.call sound counted rfl rfl rfl rfl orderly.functions
        (.inr ⟨rfl, by simp [joining]⟩) shuts (by simp [joining, Call.Past])
  | @free c i joining past free =>
      have shuts := orderly.expected c
      rw [joining] at shuts
      exact orderly.call sound counted rfl rfl rfl rfl orderly.functions (.inl (by simp [setCall]))
        shuts.1 (by simp [joining, Call.Past])
  | @destroyMutex c freeing =>
      have shuts := orderly.expected c
      rw [freeing] at shuts
      obtain rfl : c = d := shuts
      have past := orderly.past
      rw [freeing] at past
      refine ⟨sound, counted, ?_, ?_, orderly.functions, orderly.beyond, fun _ => ?_⟩
      · exact setCall_each (fun e call => call.Expected (e = c)) ⟨rfl, rfl⟩ orderly.expected
      · show ((p.setCall c (.destroyReturned 0)).calls c).Past ↔ p.shutdown ≠ 0
        rw [setCall_self]
        exact past
      · exact setCall_self p _

theorem created {threads size : Nat} (some_thread : 0 < threads) (room : 0 < size)
    (queue : List (ThreadPoolTask F A)) : Orderly d (created threads size queue) where
  sound := ⟨[], .created some_thread room queue⟩
  counted := .created threads size queue
  expected _ := trivial
  past := iff_of_false id fun closed => closed rfl
  functions := nofun
  beyond _ _ := rfl
  freed := nofun

theorem threadPoolCreate (threadCount queueSize : Int) (queue : List (ThreadPoolTask F A)) :
    Orderly d (threadPoolCreate threadCount queueSize queue) := by
  unfold ThreadPool.threadPoolCreate
  split_ifs with wrong
  · exact created (by decide) (by decide) queue
  · exact created (by omega) (by omega) queue

end Orderly

theorem call_frame {l : PoolStep F A} {c : Nat} (effect : Effect p l p') (caller : l.caller = some c)
    (no_add : ∀ e signals unlocks, l ≠ .addTask e signals unlocks)
    (no_shut : ∀ e broadcasts unlocks, l ≠ .shutDown e broadcasts unlocks) :
    p'.workers = p.workers ∧ p'.shutdown = p.shutdown ∧ p'.count = p.count ∧
      p'.threadCount = p.threadCount := by
  cases effect with
  | workerLock _ _ _ worker => simp [worker] at caller
  | workerTest | workerExecute => cases caller
  | addTask => exact absurd rfl (no_add _ _ _)
  | shutDown => exact absurd rfl (no_shut _ _ _)
  | _ => exact ⟨rfl, rfl, rfl, rfl⟩

theorem workerLock_some {i : Nat} (moved : p.step (.workerLock i) = some p') :
    i < p.threadCount ∧ p.workers i = .lock ∧ p.lock = .free ∧
      p' = { p with lock := .held (.worker i) }.setWorker i .test := by
  obtain ⟨there, moved⟩ := workerStep_some (by simpa only [step] using moved)
  split at moved
  · obtain ⟨free, rfl⟩ := acquire_some moved
    exact ⟨there, ‹_›, free, rfl⟩
  · cases moved

theorem workerWake_some {i : Nat} (moved : p.step (.workerWake i) = some p') :
    i < p.threadCount ∧ p.workers i = .wait ∧ p.lock = .free ∧
      p' = { p with lock := .held (.worker i) }.setWorker i .test := by
  obtain ⟨there, moved⟩ := workerStep_some (by simpa only [step] using moved)
  split at moved
  · obtain ⟨free, rfl⟩ := acquire_some moved
    exact ⟨there, ‹_›, free, rfl⟩
  · cases moved

theorem workerTest_some {i : Nat} (moved : p.step (.workerTest i) = some p') :
    i < p.threadCount ∧ p.workers i = .test ∧ p' = p.threadPoolThread i := by
  obtain ⟨there, moved⟩ := workerStep_some (by simpa only [step] using moved)
  split at moved
  · exact ⟨there, ‹_›, (Option.some.inj moved).symm⟩
  · cases moved

theorem workerExecute_some {i : Nat} (moved : p.step (.workerExecute i) = some p') :
    i < p.threadCount ∧ ∃ task, p.workers i = .execute task ∧
      p' = { p with executed := p.executed ++ [task] }.setWorker i .lock := by
  obtain ⟨there, moved⟩ := workerStep_some (by simpa only [step] using moved)
  split at moved
  · rename_i task executing
    unfold finishTask at moved
    split_ifs at moved
    exact ⟨there, task, executing, (Option.some.inj moved).symm⟩
  · cases moved

end ThreadPool

namespace SignalledPool

open ThreadPool

variable {s s' : SignalledPool F A} {d : Nat}

/-- Nobody misses a task or a shutdown. -/
structure Alert (d : Nat) (s : SignalledPool F A) : Prop where
  orderly : s.pool.Orderly d
  waiting : ∀ i, s.notify i = .away ↔ s.pool.workers i ≠ .wait
  closing : s.notify.NoneAsleep (s.pool.shutdown ≠ 0)
  serving : s.notify.SomeAwake (List.range s.pool.threadCount) (0 < s.pool.count)

namespace Alert

theorem quiet {p' : ThreadPool F A} (alert : Alert d s) (orderly : p'.Orderly d)
    (waits : ∀ i, p'.workers i = .wait ↔ s.pool.workers i = .wait)
    (shutdown : p'.shutdown = s.pool.shutdown) (count : p'.count ≤ s.pool.count)
    (threads : p'.threadCount = s.pool.threadCount) : Alert d ⟨p', s.notify⟩ where
  orderly := orderly
  waiting i := (alert.waiting i).trans (not_congr (waits i).symm)
  closing := by
    rw [shutdown]
    exact alert.closing
  serving := by
    rw [threads]
    exact alert.serving.step (fun positive => Nat.lt_of_lt_of_le positive count) fun _ asleep => asleep

theorem setWorker_waits {p : ThreadPool F A} {i : Nat} {w : Worker F A} (before : p.workers i ≠ .wait)
    (after : w ≠ .wait) (j : Nat) : (p.setWorker i w).workers j = .wait ↔ p.workers j = .wait := by
  by_cases same : j = i
  · rw [same, setWorker_self]
    exact iff_of_false after before
  · rw [setWorker_ne p w same]

theorem wakes {i : Nat} {p' : ThreadPool F A} (alert : Alert d s)
    (moved : s.pool.step (.workerWake i) = some p') : Alert d ⟨p', s.notify.leave i⟩ := by
  have orderly := alert.orderly.step (l := .workerWake i) trivial moved
  obtain ⟨there, waiting, free, rfl⟩ := workerWake_some moved
  refine ⟨orderly, fun j => ?_, ?_, ?_⟩
  · by_cases same : j = i
    · subst same
      simp [CondVar.leave]
    · simp only [CondVar.leave, Function.update_of_ne same]
      rw [setWorker_ne _ _ same]
      exact alert.waiting j
  · exact alert.closing.step id fun _ => CondVar.leave_asleep
  · exact alert.serving.step id fun _ => CondVar.leave_asleep

/-- `ThreadPoolThread`, from the test of its inner loop on. -/
theorem tests {i : Nat} (alert : Alert d s) (testing : s.pool.workers i = .test)
    (orderly : (s.pool.threadPoolThread i).Orderly d) :
    Alert d ⟨s.pool.threadPoolThread i,
      if s.pool.count = 0 ∧ s.pool.shutdown = 0 then s.notify.sleep i else s.notify⟩ := by
  have busy : s.pool.workers i ≠ .wait := by simp [testing]
  unfold threadPoolThread at orderly ⊢
  by_cases idle : s.pool.count = 0 ∧ s.pool.shutdown = 0
  · rw [if_pos idle] at orderly ⊢
    rw [if_pos idle]
    refine ⟨orderly, fun j => ?_, fun closed => absurd idle.2 closed, fun positive => ?_⟩
    · show s.notify.sleep i j = .away ↔ (s.pool.setWorker i .wait).workers j ≠ .wait
      by_cases same : j = i
      · subst same
        simp [CondVar.sleep]
      · simp only [CondVar.sleep, Function.update_of_ne same]
        rw [setWorker_ne _ _ same]
        exact alert.waiting j
    · have positive : 0 < s.pool.count := positive
      omega
  · rw [if_neg idle] at orderly ⊢
    rw [if_neg idle]
    split_ifs at orderly ⊢
    · exact alert.quiet orderly (setWorker_waits busy (by simp)) rfl (Nat.le_refl _) rfl
    · exact alert.quiet orderly (setWorker_waits busy (by simp)) rfl (Nat.sub_le _ _) rfl

/-- `ThreadPoolAdd`, once it owns `lock_`. -/
theorem adds {c : Nat} {task : ThreadPoolTask F A} {picked : Option Nat} {notify : CondVar Nat}
    (alert : Alert d s) (orderly : (s.pool.threadPoolAdd c task true true).Orderly d)
    (notified : s.notified picked (.addTask c true true) = some notify) :
    Alert d ⟨s.pool.threadPoolAdd c task true true, notify⟩ := by
  have some_thread : List.range s.pool.threadCount ≠ [] := by
    obtain ⟨items, sound⟩ := alert.orderly.sound
    have positive := sound.threads
    simp only [ne_eq, List.range_eq_nil]
    omega
  simp only [SignalledPool.notified] at notified
  unfold threadPoolAdd enqueue at orderly ⊢
  by_cases full : s.pool.count = s.pool.queueSize
  · rw [if_pos full] at orderly ⊢
    rw [if_neg (by simp [full])] at notified
    cases notified
    exact alert.quiet orderly (fun _ => Iff.rfl) rfl (Nat.le_refl _) rfl
  · by_cases opened : s.pool.shutdown = 0
    · rw [if_neg full, if_neg (not_not.mpr opened)] at orderly ⊢
      rw [if_pos ⟨full, opened, trivial⟩] at notified
      split_ifs at notified with picks
      cases notified
      refine ⟨orderly, fun i => ?_, fun closed => absurd opened closed, ?_⟩
      · exact (CondVar.signal_away picks).trans (alert.waiting i)
      · exact CondVar.SomeAwake.signal some_thread picks
    · rw [if_neg full, if_pos opened] at orderly ⊢
      rw [if_neg (by simp [opened])] at notified
      cases notified
      exact alert.quiet orderly (fun _ => Iff.rfl) rfl (Nat.le_refl _) rfl

theorem shuts {c : Nat} {o : ShutDownOption} (alert : Alert d s)
    (locked : s.pool.calls c = .destroyLocked o)
    (orderly : (s.pool.threadPoolDestroy c o true true).Orderly d) :
    Alert d ⟨s.pool.threadPoolDestroy c o true true, s.notify.broadcast⟩ := by
  have opened := (alert.orderly.opened locked).2
  unfold threadPoolDestroy at orderly ⊢
  rw [if_neg (not_not.mpr opened)] at orderly ⊢
  refine ⟨orderly, fun i => ?_, .broadcast, ?_⟩
  · exact CondVar.broadcast_away.trans (alert.waiting i)
  · exact alert.serving.step id fun i asleep => absurd asleep (s.notify.broadcast_awake i)

theorem step {l : SignalledStep F A} (alert : Alert d s) (admitted : l.Admitted d)
    (moved : s.step l = some s') : Alert d s' := by
  cases l with
  | wake i | spurious i =>
      simp only [SignalledPool.step] at moved
      split_ifs at moved
      obtain ⟨p', woken, rfl⟩ := Option.map_eq_some_iff.mp moved
      exact alert.wakes woken
  | pool l picked =>
      obtain ⟨notify, notified, rest⟩ := Option.bind_eq_some_iff.mp moved
      obtain ⟨p', ran, rfl⟩ := Option.map_eq_some_iff.mp rest
      have succeeds := PoolStep.Admitted.succeeds (l := l) admitted
      have orderly := alert.orderly.step admitted ran
      cases l with
      | workerLock i =>
          cases notified
          obtain ⟨there, waiting, free, rfl⟩ := workerLock_some ran
          apply alert.quiet orderly _ rfl (Nat.le_refl _) rfl
          exact setWorker_waits (by simp [waiting]) (by simp)
      | workerTest i =>
          cases notified
          obtain ⟨there, testing, rfl⟩ := workerTest_some ran
          exact alert.tests testing orderly
      | workerExecute i =>
          cases notified
          obtain ⟨there, task, executing, rfl⟩ := workerExecute_some ran
          apply alert.quiet orderly _ rfl (Nat.le_refl _) rfl
          exact setWorker_waits (by simp [executing]) (by simp)
      | workerWake i => cases notified
      | addTask c signals unlocks =>
          obtain ⟨rfl, rfl⟩ := admitted
          cases step_effect (l := .addTask c true true) ⟨rfl, rfl⟩ ran with
          | workerLock _ _ _ worker => cases worker
          | addTask adding => exact alert.adds orderly notified
      | shutDown c broadcasts unlocks =>
          obtain ⟨rfl, rfl⟩ := admitted
          cases step_effect (l := .shutDown c true true) ⟨rfl, rfl⟩ ran with
          | workerLock _ _ _ worker => cases worker
          | shutDown locked =>
              have opened := (alert.orderly.opened locked).2
              simp only [SignalledPool.notified, opened, true_and, if_true] at notified
              cases notified
              exact alert.shuts locked orderly
      | add c | addLock c | destroy c | destroyLock c | join c | free c | destroyMutex c =>
          cases notified
          have effect := step_effect succeeds.1 ran
          obtain ⟨workers, shutdown, count, threads⟩ := call_frame (c := c) effect rfl
            (by simp) (by simp)
          exact alert.quiet orderly (fun i => by rw [workers]) shutdown (Nat.le_of_eq count) threads

end Alert

theorem reached_alert (reached : (signalledPool F A).Reached (fun _ l => l.Admitted d) s) :
    Alert d s := by
  apply reached.invariant (P := Alert d)
  · rintro ⟨p, notify⟩ ⟨⟨threadCount, queueSize, queue, rfl⟩, rfl⟩
    have orderly := Orderly.threadPoolCreate (d := d) threadCount queueSize queue
    have locked : ∀ i, (threadPoolCreate threadCount queueSize queue).workers i = .lock := by
      intro i
      unfold threadPoolCreate
      split_ifs <;> rfl
    have nobody : ∀ i : Nat, CondVar.new i ≠ .asleep := fun _ => nofun
    refine ⟨orderly, fun i => ?_, fun _ => nobody, fun _ => ?_⟩
    · exact iff_of_true rfl (by simp [locked i])
    · obtain ⟨items, sound⟩ := orderly.sound
      exact ⟨0, List.mem_range.mpr sound.threads, nobody 0⟩
  · intro s l s' alert admitted moved
    exact alert.step admitted moved

/-- The worker waits and nobody has woken it. -/
def Sleeps (s : SignalledPool F A) (i : Nat) : Prop :=
  s.pool.workers i = .wait ∧ s.notify i = .asleep

/-- No wake-up is lost: while a task is in the queue some worker is there that does not sleep, and
    once the pool is shut down no worker sleeps. -/
theorem reachable_awake (reached : (signalledPool F A).Reached (fun _ l => l.Admitted d) s) :
    (0 < s.pool.count →
      ∃ i < s.pool.threadCount, s.pool.workers i ≠ .exited ∧ ¬ s.Sleeps i) ∧
    (s.pool.shutdown ≠ 0 → ∀ i, ¬ s.Sleeps i) := by
  have alert := reached_alert reached
  refine ⟨fun positive => ?_, fun closed i sleeps => alert.closing closed i sleeps.2⟩
  obtain ⟨i, here, awake⟩ := alert.serving positive
  refine ⟨i, List.mem_range.mp here, fun gone => ?_, fun sleeps => awake sleeps.2⟩
  obtain ⟨items, sound⟩ := alert.orderly.sound
  have counted := sound.counted
  rw [(sound.exited i gone).2] at counted
  rw [counted] at positive
  exact Nat.lt_irrefl 0 positive

/-- The only worker falls asleep, then a task is added. -/
def sleeper : List (SignalledStep Unit Unit) :=
  [.pool (.workerLock 0) none, .pool (.workerTest 0) none, .pool (.add 0 ⟨some (), none⟩) none,
    .pool (.addLock 0 true) none, .pool (.addTask 0 true true) (some 0)]

def oneWorker : SignalledPool Unit Unit := ⟨.threadPoolCreate 1 1 [], .new⟩

theorem oneWorker_reached {steps : List (SignalledStep Unit Unit)} {s : SignalledPool Unit Unit}
    (admitted : ∀ l ∈ steps, l.Admitted 1)
    (ran : (signalledPool Unit Unit).replay oneWorker steps = some s) :
    (signalledPool Unit Unit).Reached (fun _ l => l.Admitted 1) s := by
  apply System.Reached.replay (fun l there _ => admitted l there) _ ran
  exact .init ⟨⟨1, 1, [], rfl⟩, rfl⟩

theorem reachable_awake_sleeper : ∃ s,
    (signalledPool Unit Unit).replay oneWorker sleeper = some s ∧ s.pool.workers 0 = .wait ∧
      (0 < s.pool.count →
        ∃ i < s.pool.threadCount, s.pool.workers i ≠ .exited ∧ ¬ s.Sleeps i) ∧
      (s.pool.shutdown ≠ 0 → ∀ i, ¬ s.Sleeps i) := by
  obtain ⟨s, ran, waiting⟩ : ∃ s, (signalledPool Unit Unit).replay oneWorker sleeper = some s ∧
      s.pool.workers 0 = .wait := ⟨_, rfl, rfl⟩
  have admitted : ∀ l ∈ sleeper, l.Admitted 1 := by
    simp [sleeper, SignalledStep.Admitted, PoolStep.Admitted, PoolStep.Succeeds]
  exact ⟨s, ran, waiting, reachable_awake (oneWorker_reached admitted ran)⟩

end SignalledPool

end WebServer
