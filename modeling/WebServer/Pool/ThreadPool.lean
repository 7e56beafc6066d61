import Mathlib.Logic.Function.Basic
import Mathlib.Tactic.SplitIfs
import WebServer.Lib.Transition

/-! # The thread pool

`ThreadPool`: its workers and any number of calls of `ThreadPoolAdd` and `ThreadPoolDestroy`, one
step at a time. What a thread does between acquiring `lock_` and releasing it is one step, since no
other thread comes to the members meanwhile. A thread in `pthread_cond_wait` may return from it at
any time, as it may without a signal too.
-/

namespace WebServer

open Lib

def kThreadPoolLockFailure : Int := -2

def kThreadPoolQueueFull : Int := -3

def kThreadPoolShutdown : Int := -4

def kThreadPoolThreadFailure : Int := -5

def kMaxThreads : Int := 1024

def kMaxQueue : Int := 65535

inductive ShutDownOption where
  | immediateShutdown
  | gracefulShutdown
  deriving Repr, DecidableEq

/-- `static_cast<int>`. -/
def ShutDownOption.toInt : ShutDownOption → Int
  | .immediateShutdown => 1
  | .gracefulShutdown => 2

/-- The function and its argument, either of which may be empty. -/
structure ThreadPoolTask (F A : Type) where
  func : Option F
  args : Option A
  deriving Repr, DecidableEq

/-- A `ThreadPoolTask` as it is constructed, or once it has been taken. -/
def ThreadPoolTask.null {F A : Type} : ThreadPoolTask F A := ⟨none, none⟩

/-- A thread that can own `lock_`: a worker or the caller of a member function. -/
inductive Owner where
  | worker (i : Nat)
  | call (c : Nat)
  deriving Repr, DecidableEq

/-- `lock_`. -/
inductive Mutex where
  | free
  | held (o : Owner)
  /-- After `pthread_mutex_destroy`. -/
  | destroyed
  deriving Repr, DecidableEq

/-- Where a worker is in `ThreadPoolThread`. -/
inductive Worker (F A : Type) where
  /-- Before `pthread_mutex_lock`. -/
  | lock
  /-- Owning `lock_`, before the test of the loop. -/
  | test
  /-- In `pthread_cond_wait`. -/
  | wait
  /-- In `(task.func)(task.args)`. -/
  | execute (task : ThreadPoolTask F A)
  | exited
  deriving Repr, DecidableEq

/-- Where a call of `ThreadPoolAdd` or `ThreadPoolDestroy` is. -/
inductive Call (F A : Type) where
  | notMade
  /-- Before `pthread_mutex_lock`. -/
  | addEntered (task : ThreadPoolTask F A)
  | addLocked (task : ThreadPoolTask F A)
  | addReturned (err : Int)
  | destroyEntered (shutdownOption : ShutDownOption)
  | destroyLocked (shutdownOption : ShutDownOption)
  /-- Before the test `i < thread_count_`. -/
  | joining (i : Nat) (err : Int)
  /-- In `ThreadPoolFree`, owning `lock_`. -/
  | freeing
  | destroyReturned (err : Int)
  deriving Repr, DecidableEq

structure ThreadPool (F A : Type) where
  lock : Mutex
  queue : List (ThreadPoolTask F A)
  threadCount : Nat
  queueSize : Nat
  begin_ : Nat
  end_ : Nat
  count : Nat
  shutdown : Int
  started : Int
  workers : Nat → Worker F A
  calls : Nat → Call F A
  /-- Ghost: the calls that have put a task into the queue, with the task. -/
  added : List (Nat × ThreadPoolTask F A)
  /-- Ghost: the tasks taken from the queue. -/
  taken : List (ThreadPoolTask F A)
  /-- Ghost: the tasks whose functions have returned. -/
  executed : List (ThreadPoolTask F A)

/-- A step of a worker `i` or of a call `c`. The truth values are the success of the calls of pthread
    functions whose results are tested. -/
inductive PoolStep (F A : Type) where
  | workerLock (i : Nat)
  | workerTest (i : Nat)
  | workerWake (i : Nat)
  | workerExecute (i : Nat)
  | add (c : Nat) (task : ThreadPoolTask F A)
  | addLock (c : Nat) (locks : Bool)
  | addTask (c : Nat) (signals unlocks : Bool)
  | destroy (c : Nat) (shutdownOption : ShutDownOption)
  | destroyLock (c : Nat) (locks : Bool)
  | shutDown (c : Nat) (broadcasts unlocks : Bool)
  | join (c : Nat) (joins : Bool)
  | free (c : Nat)
  | destroyMutex (c : Nat) (destroys : Bool)
  deriving Repr, DecidableEq

/-- The calls of pthread functions succeed. -/
def PoolStep.Succeeds {F A : Type} : PoolStep F A → Prop
  | .addLock _ locks | .destroyLock _ locks => locks = true
  | .addTask _ signals unlocks => signals = true ∧ unlocks = true
  | .shutDown _ broadcasts unlocks => broadcasts = true ∧ unlocks = true
  | .join _ joins => joins = true
  | .destroyMutex _ destroys => destroys = true
  | _ => True

/-- The call whose step it is. -/
def PoolStep.caller {F A : Type} : PoolStep F A → Option Nat
  | .add c _ | .addLock c _ | .addTask c _ _ | .destroy c _ | .destroyLock c _ | .shutDown c _ _
  | .join c _ | .free c | .destroyMutex c _ => some c
  | _ => none

namespace ThreadPool

variable {F A : Type}

/-- `vector::resize`. -/
def resize (queue : List (ThreadPoolTask F A)) (size : Nat) : List (ThreadPoolTask F A) :=
  queue.take size ++ List.replicate (size - queue.length) .null

/-- The members as `ThreadPoolCreate` sets them, with every thread created. -/
def created (threadCount queueSize : Nat) (queue : List (ThreadPoolTask F A)) :
    ThreadPool F A where
  lock := .free
  queue := resize queue queueSize
  threadCount
  queueSize
  begin_ := 0
  end_ := 0
  count := 0
  shutdown := 0
  started := threadCount
  workers := fun _ => .lock
  calls := fun _ => .notMade
  added := []
  taken := []
  executed := []

/-- `ThreadPoolCreate`, when every `pthread_create` succeeds; `queue_` may hold anything before. -/
def threadPoolCreate (threadCount queueSize : Int) (queue : List (ThreadPoolTask F A)) :
    ThreadPool F A :=
  if threadCount ≤ 0 ∨ threadCount > kMaxThreads ∨ queueSize ≤ 0 ∨ queueSize > kMaxQueue then
    created 4 1024 queue
  else created threadCount.toNat queueSize.toNat queue

def setWorker (p : ThreadPool F A) (i : Nat) (w : Worker F A) : ThreadPool F A :=
  { p with workers := Function.update p.workers i w }

def setCall (p : ThreadPool F A) (c : Nat) (call : Call F A) : ThreadPool F A :=
  { p with calls := Function.update p.calls c call }

section Set

variable (p : ThreadPool F A) {i j c d : Nat}

@[simp] theorem setWorker_self (w : Worker F A) : (p.setWorker i w).workers i = w := by
  simp [setWorker]

@[simp] theorem setWorker_ne (w : Worker F A) (apart : j ≠ i) :
    (p.setWorker i w).workers j = p.workers j := by
  simp [setWorker, apart]

@[simp] theorem setCall_self (call : Call F A) : (p.setCall c call).calls c = call := by
  simp [setCall]

@[simp] theorem setCall_ne (call : Call F A) (apart : d ≠ c) :
    (p.setCall c call).calls d = p.calls d := by
  simp [setCall, apart]

end Set

/-- `pthread_mutex_lock` returns `0` to a thread. -/
def acquire (p : ThreadPool F A) (o : Owner) : Option (ThreadPool F A) :=
  if p.lock = .free then some { p with lock := .held o } else none

/-- `pthread_mutex_unlock`, or the beginning of `pthread_cond_wait`. -/
def release (p : ThreadPool F A) : ThreadPool F A := { p with lock := .free }

/-- Take the task at `begin_` out of the queue. -/
def takeTask (p : ThreadPool F A) : ThreadPoolTask F A × ThreadPool F A :=
  let task := p.queue.getD p.begin_ .null
  (task, { p with
    queue := p.queue.set p.begin_ .null
    begin_ := (p.begin_ + 1) % p.queueSize
    count := p.count - 1
    taken := p.taken ++ [task] })

/-- Put a task into the queue, at `end_`. -/
def putTask (p : ThreadPool F A) (c : Nat) (task : ThreadPoolTask F A) : ThreadPool F A :=
  let next := (p.end_ + 1) % p.queueSize
  { p with
    queue := p.queue.set p.end_ task
    end_ := next
    count := p.count + 1
    added := p.added ++ [(c, task)] }

/-- `ThreadPoolThread` from the test of its inner loop to the next release of `lock_`. -/
def threadPoolThread (p : ThreadPool F A) (i : Nat) : ThreadPool F A :=
  if p.count = 0 ∧ p.shutdown = 0 then (p.setWorker i .wait).release
  else if p.shutdown = ShutDownOption.immediateShutdown.toInt ∨
      (p.shutdown = ShutDownOption.gracefulShutdown.toInt ∧ p.count = 0) then
    ({ p with started := p.started - 1 }.setWorker i .exited).release
  else
    let (task, p) := p.takeTask
    (p.setWorker i (.execute task)).release

/-- The `do` block of `ThreadPoolAdd`, and the error it ends with. -/
def enqueue (p : ThreadPool F A) (c : Nat) (task : ThreadPoolTask F A) (signals : Bool) :
    ThreadPool F A × Int :=
  if p.count = p.queueSize then (p, kThreadPoolQueueFull)
  else if p.shutdown ≠ 0 then (p, kThreadPoolShutdown)
  else (p.putTask c task, if signals then 0 else kThreadPoolLockFailure)

/-- `ThreadPoolAdd` from the acquisition of `lock_` on. -/
def threadPoolAdd (p : ThreadPool F A) (c : Nat) (task : ThreadPoolTask F A)
    (signals unlocks : Bool) : ThreadPool F A :=
  let (p, err) := p.enqueue c task signals
  if unlocks then (p.setCall c (.addReturned err)).release
  else p.setCall c (.addReturned kThreadPoolLockFailure)

/-- `ThreadPoolDestroy` from the acquisition of `lock_` to the loop of joins. The `break`s lead past
    the `pthread_mutex_unlock`. -/
def threadPoolDestroy (p : ThreadPool F A) (c : Nat) (shutdownOption : ShutDownOption)
    (broadcasts unlocks : Bool) : ThreadPool F A :=
  if p.shutdown ≠ 0 then p.setCall c (.destroyReturned kThreadPoolShutdown)
  else
    let p := { p with shutdown := shutdownOption.toInt }
    if !broadcasts || !unlocks then p.setCall c (.destroyReturned kThreadPoolLockFailure)
    else (p.setCall c (.joining 0 0)).release

/-- One `pthread_join` of `ThreadPoolDestroy`; it succeeds once the worker has ended. -/
def joinWorker (p : ThreadPool F A) (c i : Nat) (err : Int) (joins : Bool) :
    Option (ThreadPool F A) :=
  if p.threadCount ≤ i then none
  else if !joins then some (p.setCall c (.joining (i + 1) kThreadPoolThreadFailure))
  else
    match p.workers i with
    | .exited => some (p.setCall c (.joining (i + 1) err))
    | _ => none

/-- After the joins: `ThreadPoolFree` up to its acquisition of `lock_`. -/
def threadPoolFree (p : ThreadPool F A) (c i : Nat) (err : Int) : Option (ThreadPool F A) :=
  if i < p.threadCount then none
  else if err ≠ 0 then some (p.setCall c (.destroyReturned err))
  else if p.started > 0 then some (p.setCall c (.destroyReturned 0))
  else (p.acquire (.call c)).map fun p => p.setCall c .freeing

/-- The end of `ThreadPoolFree`, which does not look at the result. -/
def destroyMutex (p : ThreadPool F A) (c : Nat) (destroys : Bool) : ThreadPool F A :=
  { p with lock := if destroys then .destroyed else p.lock }.setCall c (.destroyReturned 0)

/-- `(task.func)(task.args)` has returned; an empty function would have thrown. -/
def finishTask (p : ThreadPool F A) (i : Nat) (task : ThreadPoolTask F A) :
    Option (ThreadPool F A) :=
  if task.func.isSome then some ({ p with executed := p.executed ++ [task] }.setWorker i .lock)
  else none

/-- A step of worker `i`, which there is. -/
def workerStep (p : ThreadPool F A) (i : Nat) (step : Worker F A → Option (ThreadPool F A)) :
    Option (ThreadPool F A) :=
  if i < p.threadCount then step (p.workers i) else none

def step (p : ThreadPool F A) : PoolStep F A → Option (ThreadPool F A)
  | .workerLock i => p.workerStep i fun
      | .lock => (p.acquire (.worker i)).map fun p => p.setWorker i .test
      | _ => none
  | .workerTest i => p.workerStep i fun
      | .test => some (p.threadPoolThread i)
      | _ => none
  | .workerWake i => p.workerStep i fun
      | .wait => (p.acquire (.worker i)).map fun p => p.setWorker i .test
      | _ => none
  | .workerExecute i => p.workerStep i fun
      | .execute task => p.finishTask i task
      | _ => none
  | .add c task =>
      match p.calls c with
      | .notMade => some (p.setCall c (.addEntered task))
      | _ => none
  | .addLock c locks =>
      match p.calls c with
      | .addEntered task =>
          if locks then (p.acquire (.call c)).map fun p => p.setCall c (.addLocked task)
          else some (p.setCall c (.addReturned kThreadPoolThreadFailure))
      | _ => none
  | .addTask c signals unlocks =>
      match p.calls c with
      | .addLocked task => some (p.threadPoolAdd c task signals unlocks)
      | _ => none
  | .destroy c shutdownOption =>
      match p.calls c with
      | .notMade => some (p.setCall c (.destroyEntered shutdownOption))
      | _ => none
  | .destroyLock c locks =>
      match p.calls c with
      | .destroyEntered shutdownOption =>
          if locks then (p.acquire (.call c)).map fun p => p.setCall c (.destroyLocked shutdownOption)
          else some (p.setCall c (.destroyReturned kThreadPoolLockFailure))
      | _ => none
  | .shutDown c broadcasts unlocks =>
      match p.calls c with
      | .destroyLocked shutdownOption =>
          some (p.threadPoolDestroy c shutdownOption broadcasts unlocks)
      | _ => none
  | .join c joins =>
      match p.calls c with
      | .joining i err => p.joinWorker c i err joins
      | _ => none
  | .free c =>
      match p.calls c with
      | .joining i err => p.threadPoolFree c i err
      | _ => none
  | .destroyMutex c destroys =>
      match p.calls c with
      | .freeing => some (p.destroyMutex c destroys)
      | _ => none

/-- The state that a step leaves when its pthread calls succeed. -/
inductive Effect (p : ThreadPool F A) : PoolStep F A → ThreadPool F A → Prop where
  | workerLock {l i} : i < p.threadCount → p.workers i = .lock ∨ p.workers i = .wait →
      p.lock = .free → l.caller = none →
      Effect p l ({ p with lock := .held (.worker i) }.setWorker i .test)
  | workerTest {i} : i < p.threadCount → p.workers i = .test →
      Effect p (.workerTest i) (p.threadPoolThread i)
  | workerExecute {i task} : i < p.threadCount → p.workers i = .execute task →
      Effect p (.workerExecute i) ({ p with executed := p.executed ++ [task] }.setWorker i .lock)
  | add {c task} : p.calls c = .notMade → Effect p (.add c task) (p.setCall c (.addEntered task))
  | addLock {c task} : p.calls c = .addEntered task → p.lock = .free →
      Effect p (.addLock c true) ({ p with lock := .held (.call c) }.setCall c (.addLocked task))
  | addTask {c task} : p.calls c = .addLocked task →
      Effect p (.addTask c true true) (p.threadPoolAdd c task true true)
  | destroy {c o} : p.calls c = .notMade →
      Effect p (.destroy c o) (p.setCall c (.destroyEntered o))
  | destroyLock {c o} : p.calls c = .destroyEntered o → p.lock = .free →
      Effect p (.destroyLock c true)
        ({ p with lock := .held (.call c) }.setCall c (.destroyLocked o))
  | shutDown {c o} : p.calls c = .destroyLocked o →
      Effect p (.shutDown c true true) (p.threadPoolDestroy c o true true)
  | join {c i err} : p.calls c = .joining i err → i < p.threadCount → p.workers i = .exited →
      Effect p (.join c true) (p.setCall c (.joining (i + 1) err))
  | failed {c i err} : p.calls c = .joining i err → p.threadCount ≤ i → err ≠ 0 →
      Effect p (.free c) (p.setCall c (.destroyReturned err))
  | kept {c i} : p.calls c = .joining i 0 → p.threadCount ≤ i →
      Effect p (.free c) (p.setCall c (.destroyReturned 0))
  | free {c i} : p.calls c = .joining i 0 → p.threadCount ≤ i → p.lock = .free →
      Effect p (.free c) ({ p with lock := .held (.call c) }.setCall c .freeing)
  | destroyMutex {c} : p.calls c = .freeing →
      Effect p (.destroyMutex c true) ({ p with lock := .destroyed }.setCall c (.destroyReturned 0))

variable {p p' : ThreadPool F A}

theorem acquire_some {o : Owner} {next : ThreadPool F A → ThreadPool F A}
    (moved : (p.acquire o).map next = some p') :
    p.lock = .free ∧ next { p with lock := .held o } = p' := by
  obtain ⟨locked, acquired, rfl⟩ := Option.map_eq_some_iff.mp moved
  unfold acquire at acquired
  split_ifs at acquired with free
  exact ⟨free, congrArg next (Option.some.inj acquired)⟩

theorem workerStep_some {i : Nat} {step : Worker F A → Option (ThreadPool F A)}
    (moved : p.workerStep i step = some p') : i < p.threadCount ∧ step (p.workers i) = some p' := by
  unfold workerStep at moved
  split_ifs at moved with there
  exact ⟨there, moved⟩

theorem worker_effect {i : Nat} {l : PoolStep F A}
    (which : l = .workerLock i ∨ l = .workerWake i ∨ l = .workerTest i ∨ l = .workerExecute i)
    (moved : p.step l = some p') : Effect p l p' := by
  rcases which with rfl | rfl | rfl | rfl
  · obtain ⟨there, moved⟩ := workerStep_some (by simpa only [step] using moved)
    split at moved
    · rename_i here
      obtain ⟨free, rfl⟩ := acquire_some moved
      exact .workerLock there (.inl here) free rfl
    · cases moved
  · obtain ⟨there, moved⟩ := workerStep_some (by simpa only [step] using moved)
    split at moved
    · rename_i here
      obtain ⟨free, rfl⟩ := acquire_some moved
      exact .workerLock there (.inr here) free rfl
    · cases moved
  · obtain ⟨there, moved⟩ := workerStep_some (by simpa only [step] using moved)
    split at moved
    · rename_i here
      cases moved
      exact .workerTest there here
    · cases moved
  · obtain ⟨there, moved⟩ := workerStep_some (by simpa only [step] using moved)
    split at moved
    · rename_i task here
      unfold finishTask at moved
      split_ifs at moved
      cases moved
      exact .workerExecute there here
    · cases moved

theorem free_effect {c i : Nat} {err : Int} (joining : p.calls c = .joining i err)
    (moved : p.threadPoolFree c i err = some p') : Effect p (.free c) p' := by
  unfold threadPoolFree at moved
  split_ifs at moved with more wrong alive
  · cases moved
    exact .failed joining (Nat.le_of_not_lt more) wrong
  · cases moved
    obtain rfl : err = 0 := not_not.mp wrong
    exact .kept joining (Nat.le_of_not_lt more)
  · obtain rfl : err = 0 := not_not.mp wrong
    obtain ⟨free, rfl⟩ := acquire_some moved
    exact .free joining (Nat.le_of_not_lt more) free

theorem step_effect {l : PoolStep F A} (succeeds : l.Succeeds) (moved : p.step l = some p') :
    Effect p l p' := by
  cases l with
  | workerLock i => exact worker_effect (.inl rfl) moved
  | workerWake i => exact worker_effect (.inr (.inl rfl)) moved
  | workerTest i => exact worker_effect (.inr (.inr (.inl rfl))) moved
  | workerExecute i => exact worker_effect (.inr (.inr (.inr rfl))) moved
  | add c task =>
      simp only [step] at moved
      split at moved
      · cases moved
        exact .add ‹_›
      · cases moved
  | addLock c locks =>
      obtain rfl : locks = true := succeeds
      simp only [step] at moved
      split at moved
      · obtain ⟨free, rfl⟩ := acquire_some moved
        exact .addLock ‹_› free
      · cases moved
  | addTask c signals unlocks =>
      obtain ⟨rfl, rfl⟩ := succeeds
      simp only [step] at moved
      split at moved
      · cases moved
        exact .addTask ‹_›
      · cases moved
  | destroy c o =>
      simp only [step] at moved
      split at moved
      · cases moved
        exact .destroy ‹_›
      · cases moved
  | destroyLock c locks =>
      obtain rfl : locks = true := succeeds
      simp only [step] at moved
      split at moved
      · obtain ⟨free, rfl⟩ := acquire_some moved
        exact .destroyLock ‹_› free
      · cases moved
  | shutDown c broadcasts unlocks =>
      obtain ⟨rfl, rfl⟩ := succeeds
      simp only [step] at moved
      split at moved
      · cases moved
        exact .shutDown ‹_›
      · cases moved
  | join c joins =>
      obtain rfl : joins = true := succeeds
      simp only [step] at moved
      split at moved
      · rename_i i err joining
        unfold joinWorker at moved
        split_ifs at moved with past fails
        · exact absurd fails (by decide)
        · split at moved
          · cases moved
            exact .join joining (Nat.lt_of_not_le past) ‹_›
          · cases moved
      · cases moved
  | free c =>
      simp only [step] at moved
      split at moved
      · exact free_effect ‹_› moved
      · cases moved
  | destroyMutex c destroys =>
      obtain rfl : destroys = true := succeeds
      simp only [step] at moved
      split at moved
      · cases moved
        exact .destroyMutex ‹_›
      · cases moved

/-- With its pthread calls succeeding `ThreadPoolAdd` either refuses the task or puts it into the
    queue. -/
theorem threadPoolAdd_cases (p : ThreadPool F A) (c : Nat) (task : ThreadPoolTask F A) :
    (∃ err, err ≠ 0 ∧
      p.threadPoolAdd c task true true = (p.setCall c (.addReturned err)).release) ∨
    (p.count ≠ p.queueSize ∧ p.shutdown = 0 ∧
      p.threadPoolAdd c task true true = ((p.putTask c task).setCall c (.addReturned 0)).release) := by
  unfold threadPoolAdd enqueue
  by_cases full : p.count = p.queueSize
  · exact .inl ⟨kThreadPoolQueueFull, by decide, by rw [if_pos full]; rfl⟩
  by_cases closed : p.shutdown = 0
  · exact .inr ⟨full, closed, by rw [if_neg full, if_neg (not_not.mpr closed)]; rfl⟩
  · exact .inl ⟨kThreadPoolShutdown, by decide, by rw [if_neg full, if_pos closed]; rfl⟩

end ThreadPool

/-- The pool after a successful `ThreadPoolCreate`, with any number of callers. -/
def threadPool (F A : Type) : System (ThreadPool F A) (PoolStep F A) where
  init p := ∃ threadCount queueSize queue, p = .threadPoolCreate threadCount queueSize queue
  step := ThreadPool.step

end WebServer
