import WebServer.Pool.Wakeups

/-! # The pool comes to rest

Left to itself a pool with one graceful shutdown executes what it has accepted and ends, without
wake-ups that nobody sent. A rank counts the steps that are still to come: of the workers, of the tasks
in the queue, of the owner of `lock_` and of the call that shuts the pool down.
-/

namespace WebServer

open Lib

variable {F A : Type}

/-- A bound on the steps of a worker until it takes the next task, sleeps or ends. -/
def Worker.weight (standing : Lib.Standing) : Worker F A → Nat
  | .execute _ => 3
  | .lock => 2
  | .test => 1
  | .wait =>
      match standing with
      | .asleep => 0
      | .away | .woken => 2
  | .exited => 0

/-- A bound on the steps of a call that owns `lock_` or shuts the pool down, and on those it causes
    in the workers. -/
def Call.weight (threads : Nat) : Call F A → Nat
  | .addLocked _ => 6
  | .destroyEntered _ => 3 * threads + 6
  | .destroyLocked _ => 3 * threads + 5
  | .joining i _ => threads - i + 2
  | .freeing => 1
  | .notMade | .addEntered _ | .addReturned _ | .destroyReturned _ => 0

/-- The steps that go on by themselves: no call is made, none begins that adds a task, and no worker
    wakes up without reason. -/
def SignalledStep.Internal : SignalledStep F A → Prop
  | .pool (.add _ _) _ | .pool (.destroy _ _) _ | .pool (.addLock _ _) _ | .spurious _ => False
  | .pool l _ => l.Succeeds
  | .wake _ => True

namespace SignalledPool

open ThreadPool

variable {s s' : SignalledPool F A} {d : Nat}

def load (s : SignalledPool F A) : Nat :=
  ∑ i ∈ Finset.range s.pool.threadCount, (s.pool.workers i).weight (s.notify i)

/-- The weight of the owner of `lock_`, unless that is call `d`. -/
def holderWeight (d : Nat) (p : ThreadPool F A) : Nat :=
  match p.lock with
  | .held (.call c) => if c = d then 0 else (p.calls c).weight p.threadCount
  | _ => 0

def rank (d : Nat) (s : SignalledPool F A) : Nat :=
  s.load + 3 * s.pool.count + holderWeight d s.pool + (s.pool.calls d).weight s.pool.threadCount

/-- Something goes on that brings the pool nearer to rest. -/
def Progresses (d : Nat) (s : SignalledPool F A) : Prop :=
  ∃ l s', SignalledStep.Internal l ∧ s.step l = some s' ∧ rank d s' < rank d s

theorem load_change {i : Nat} {w : Worker F A} {p : ThreadPool F A} (notify : CondVar Nat)
    (there : i < s.pool.threadCount) (threads : p.threadCount = s.pool.threadCount)
    (workers : p.workers = (s.pool.setWorker i w).workers)
    (others : ∀ j, j ≠ i → notify j = s.notify j) :
    load ⟨p, notify⟩ + (s.pool.workers i).weight (s.notify i) = s.load + w.weight (notify i) := by
  have change := sum_change (f := fun j => (s.pool.workers j).weight (s.notify j))
    (g := fun j => (p.workers j).weight (notify j)) there fun j apart => by
      rw [workers, setWorker_ne _ _ apart, others j apart]
  simp only [workers, setWorker_self] at change
  simp only [load, threads, workers]
  exact change

theorem rank_worker {i : Nat} {w : Worker F A} {p : ThreadPool F A} {notify : CondVar Nat}
    (there : i < s.pool.threadCount) (threads : p.threadCount = s.pool.threadCount)
    (workers : p.workers = (s.pool.setWorker i w).workers) (calls : p.calls = s.pool.calls)
    (holder : holderWeight d p = 0) (others : ∀ j, j ≠ i → notify j = s.notify j)
    (less : 3 * p.count + w.weight (notify i) <
      3 * s.pool.count + (s.pool.workers i).weight (s.notify i)) :
    rank d ⟨p, notify⟩ < rank d s := by
  have change := load_change _ there threads workers others
  simp only [rank, calls, threads, holder]
  omega

/-- A worker outside the sections of `lock_` that neither sleeps nor has ended goes on. -/
theorem Alert.busy {i : Nat} (alert : Alert d s) (free : s.pool.lock = .free)
    (there : i < s.pool.threadCount) (present : s.pool.workers i ≠ .exited)
    (awake : ¬ s.Sleeps i) : Progresses d s := by
  cases worker : s.pool.workers i with
  | exited => exact absurd worker present
  | test =>
      have owned := (alert.orderly.counted.guarded (.worker i)).mp ((inside_worker worker).mpr trivial)
      rw [free] at owned
      cases owned
  | lock =>
      have moved : s.step (.pool (.workerLock i) none) = some
          ⟨{ s.pool with lock := .held (.worker i) }.setWorker i .test, s.notify⟩ := by
        simp [SignalledPool.step, notified, ThreadPool.step, workerStep, there, worker, acquire, free]
      refine ⟨.pool (.workerLock i) none, _, trivial, moved, ?_⟩
      refine rank_worker there rfl rfl rfl rfl (fun _ _ => rfl) ?_
      rw [worker]
      exact Nat.lt_succ_self _
  | wait =>
      have woken : s.notify i = .woken := by
        cases standing : s.notify i with
        | woken => rfl
        | asleep => exact absurd ⟨worker, standing⟩ awake
        | away => exact absurd worker ((alert.waiting i).mp standing)
      have moved : s.step (.wake i) = some
          ⟨{ s.pool with lock := .held (.worker i) }.setWorker i .test, s.notify.leave i⟩ := by
        simp [SignalledPool.step, ThreadPool.step, workerStep, there, worker, acquire, free, woken]
      refine ⟨.wake i, _, trivial, moved, ?_⟩
      refine rank_worker there rfl rfl rfl rfl (fun j apart => Function.update_of_ne apart _ _) ?_
      rw [worker, woken]
      exact Nat.lt_succ_self _
  | execute task =>
      obtain ⟨items, sound⟩ := alert.orderly.sound
      have running : task ∈ s.pool.running :=
        List.mem_filterMap.mpr ⟨i, List.mem_range.mpr there, by rw [worker]; rfl⟩
      have taken : task ∈ s.pool.taken :=
        sound.executed.mem_iff.mpr (List.mem_append_right _ running)
      have function : task.func.isSome = true := by
        apply alert.orderly.functions
        rw [sound.order]
        exact List.mem_append_left _ taken
      have moved : s.step (.pool (.workerExecute i) none) = some
          ⟨{ s.pool with executed := s.pool.executed ++ [task] }.setWorker i .lock, s.notify⟩ := by
        simp [SignalledPool.step, notified, ThreadPool.step, workerStep, there, worker, finishTask,
          function]
      refine ⟨.pool (.workerExecute i) none, _, trivial, moved, ?_⟩
      refine rank_worker there rfl rfl rfl ?_ (fun _ _ => rfl) ?_
      · simp [holderWeight, setWorker, free]
      · rw [worker]
        exact Nat.lt_succ_self _

/-- A worker that owns `lock_` waits, takes a task or ends. -/
theorem Alert.workerOwns {i : Nat} (alert : Alert d s) (testing : s.pool.workers i = .test) :
    Progresses d s := by
  have there : i < s.pool.threadCount := by
    by_contra beyond
    have idle := alert.orderly.beyond i (Nat.le_of_not_lt beyond)
    rw [testing] at idle
    cases idle
  have moved : s.step (.pool (.workerTest i) none) = some ⟨s.pool.threadPoolThread i,
      if s.pool.count = 0 ∧ s.pool.shutdown = 0 then s.notify.sleep i else s.notify⟩ := by
    simp [SignalledPool.step, notified, ThreadPool.step, workerStep, there, testing]
  refine ⟨.pool (.workerTest i) none, _, trivial, moved, ?_⟩
  unfold threadPoolThread
  by_cases idle : s.pool.count = 0 ∧ s.pool.shutdown = 0
  · rw [if_pos idle, if_pos idle]
    refine rank_worker (w := .wait) there rfl rfl rfl rfl
      (fun j apart => Function.update_of_ne apart _ _) ?_
    rw [testing, CondVar.sleep, Function.update_self]
    exact Nat.lt_succ_self _
  · rw [if_neg idle, if_neg idle]
    split_ifs with past
    · refine rank_worker (w := .exited) there rfl rfl rfl rfl (fun _ _ => rfl) ?_
      rw [testing]
      exact Nat.lt_succ_self _
    · have some_task : 0 < s.pool.count := by
        obtain ⟨items, sound⟩ := alert.orderly.sound
        refine Nat.pos_of_ne_zero fun none => ?_
        rcases sound.shutdown with opened | closed
        · exact idle ⟨none, opened⟩
        · exact past (.inr ⟨closed, none⟩)
      refine rank_worker (w := .execute s.pool.takeTask.1) there rfl rfl rfl rfl (fun _ _ => rfl) ?_
      show 3 * (s.pool.count - 1) + 3 < 3 * s.pool.count + (s.pool.workers i).weight _
      rw [testing]
      show 3 * (s.pool.count - 1) + 3 < 3 * s.pool.count + 1
      omega

theorem holderWeight_call {c : Nat} {p : ThreadPool F A} (owned : p.lock = .held (.call c)) :
    holderWeight d p + (p.calls d).weight p.threadCount =
      (p.calls c).weight p.threadCount + if c = d then 0 else (p.calls d).weight p.threadCount := by
  simp only [holderWeight, owned]
  split_ifs with same
  · rw [same, Nat.zero_add, Nat.add_zero]
  · rfl

theorem rank_call {c : Nat} (call : Call F A) {p : ThreadPool F A} {notify : CondVar Nat}
    (owned : s.pool.lock = .held (.call c)) (threads : p.threadCount = s.pool.threadCount)
    (calls : p.calls = (s.pool.setCall c call).calls) (holder : holderWeight d p = 0)
    (less : load ⟨p, notify⟩ + 3 * p.count + call.weight s.pool.threadCount <
      s.load + 3 * s.pool.count + (s.pool.calls c).weight s.pool.threadCount) :
    rank d ⟨p, notify⟩ < rank d s := by
  have before := holderWeight_call (d := d) owned
  have after : (p.calls d).weight s.pool.threadCount ≤ call.weight s.pool.threadCount +
      if c = d then 0 else (s.pool.calls d).weight s.pool.threadCount := by
    rw [calls]
    by_cases same : d = c
    · rw [same, setCall_self]
      exact Nat.le_add_right _ _
    · rw [setCall_ne _ _ same, if_neg (Ne.symm same)]
      exact Nat.le_add_left _ _
  simp only [rank, threads, holder]
  omega

/-- A signal wakes at most one worker. -/
theorem load_signal {p : ThreadPool F A} {picked : Option Nat} (alert : Alert d s)
    (workers : p.workers = s.pool.workers) (threads : p.threadCount = s.pool.threadCount)
    (picks : s.notify.Picks (List.range s.pool.threadCount) picked) :
    load ⟨p, s.notify.signal picked⟩ ≤ s.load + 2 := by
  cases picked with
  | none =>
      simp only [load, workers, threads, CondVar.signal]
      exact Nat.le_add_right _ _
  | some i =>
      have there : i < s.pool.threadCount := List.mem_range.mp picks.1
      have waits : s.pool.workers i = .wait := by
        by_contra busy
        have away := (alert.waiting i).mpr busy
        rw [picks.2] at away
        cases away
      have same : p.workers = (s.pool.setWorker i .wait).workers := by
        rw [workers, setWorker, ← waits, Function.update_eq_self]
      have change := load_change (s.notify.signal (some i)) there threads same
        fun j apart => Function.update_of_ne apart _ _
      simp only [waits, picks.2, CondVar.signal, Function.update_self, Worker.weight] at change
      exact Nat.le_of_eq change

theorem sum_raise {f g : Nat → Nat} {k : Nat} (bound : ∀ i, g i ≤ f i + k) (n : Nat) :
    ∑ i ∈ Finset.range n, g i ≤ ∑ i ∈ Finset.range n, f i + k * n := by
  induction n with
  | zero => exact Nat.le_refl _
  | succ n ih =>
      have last := bound n
      rw [Finset.sum_range_succ, Finset.sum_range_succ, Nat.mul_succ]
      omega

theorem load_broadcast {p : ThreadPool F A} (workers : p.workers = s.pool.workers)
    (threads : p.threadCount = s.pool.threadCount) :
    load ⟨p, s.notify.broadcast⟩ ≤ s.load + 2 * s.pool.threadCount := by
  simp only [load, workers, threads]
  refine sum_raise (fun i => ?_) s.pool.threadCount
  cases s.pool.workers i with
  | wait => cases standing : s.notify i <;> simp [Worker.weight, CondVar.broadcast, standing]
  | lock | test | execute | exited => exact Nat.le_add_right _ _

/-- `ThreadPoolAdd` releases `lock_`, with a task more in the queue or with an error. -/
theorem Alert.addOwns {c : Nat} {task : ThreadPoolTask F A} (alert : Alert d s)
    (owned : s.pool.lock = .held (.call c)) (adding : s.pool.calls c = .addLocked task) :
    Progresses d s := by
  obtain ⟨picked, picks⟩ := s.notify.picks_exists (List.range s.pool.threadCount)
  by_cases accepts : s.pool.count ≠ s.pool.queueSize ∧ s.pool.shutdown = 0
  · have added : s.pool.threadPoolAdd c task true true =
        ((s.pool.putTask c task).setCall c (.addReturned 0)).release := by
      unfold threadPoolAdd enqueue
      rw [if_neg accepts.1, if_neg (not_not.mpr accepts.2)]
      rfl
    have moved : s.step (.pool (.addTask c true true) picked) =
        some ⟨s.pool.threadPoolAdd c task true true, s.notify.signal picked⟩ := by
      simp [SignalledPool.step, notified, ThreadPool.step, accepts, picks, adding]
    refine ⟨.pool (.addTask c true true) picked, _, ⟨rfl, rfl⟩, moved, ?_⟩
    rw [added]
    have woken := load_signal (p := ((s.pool.putTask c task).setCall c (.addReturned 0)).release) alert
      rfl rfl picks
    refine rank_call (.addReturned 0) owned rfl rfl rfl ?_
    rw [adding]
    show _ + 3 * (s.pool.count + 1) + 0 < _ + 3 * s.pool.count + 6
    omega
  · have refused : ∃ err, s.pool.threadPoolAdd c task true true =
        (s.pool.setCall c (.addReturned err)).release := by
      unfold threadPoolAdd enqueue
      by_cases full : s.pool.count = s.pool.queueSize
      · exact ⟨_, by rw [if_pos full]; rfl⟩
      · exact ⟨_, by rw [if_neg full, if_pos fun opened => accepts ⟨full, opened⟩]; rfl⟩
    obtain ⟨err, refused⟩ := refused
    have moved : s.step (.pool (.addTask c true true) picked) =
        some ⟨s.pool.threadPoolAdd c task true true, s.notify⟩ := by
      simp only [SignalledPool.step, notified, and_true, if_neg accepts, Option.bind_some,
        ThreadPool.step, adding, Option.map_some]
    refine ⟨.pool (.addTask c true true) picked, _, ⟨rfl, rfl⟩, moved, ?_⟩
    rw [refused]
    refine rank_call (.addReturned err) owned rfl rfl rfl ?_
    rw [adding]
    show s.load + 3 * s.pool.count + 0 < s.load + 3 * s.pool.count + 6
    omega

/-- `ThreadPoolDestroy` shuts the pool down and wakes everybody. -/
theorem Alert.shutOwns {c : Nat} {o : ShutDownOption} (alert : Alert d s)
    (owned : s.pool.lock = .held (.call c)) (locked : s.pool.calls c = .destroyLocked o) :
    Progresses d s := by
  have opened := (alert.orderly.opened locked).2
  have shut : s.pool.threadPoolDestroy c o true true =
      ({ s.pool with shutdown := o.toInt }.setCall c (.joining 0 0)).release := by
    unfold threadPoolDestroy
    rw [if_neg (not_not.mpr opened)]
    rfl
  have moved : s.step (.pool (.shutDown c true true) none) =
      some ⟨s.pool.threadPoolDestroy c o true true, s.notify.broadcast⟩ := by
    simp [SignalledPool.step, notified, ThreadPool.step, opened, locked]
  refine ⟨.pool (.shutDown c true true) none, _, ⟨rfl, rfl⟩, moved, ?_⟩
  rw [shut]
  have woken := load_broadcast (s := s)
    (p := ({ s.pool with shutdown := o.toInt }.setCall c (.joining 0 0)).release) rfl rfl
  refine rank_call (.joining 0 0) owned rfl rfl rfl ?_
  rw [locked]
  show _ + 3 * s.pool.count + (s.pool.threadCount - 0 + 2) <
    s.load + 3 * s.pool.count + (3 * s.pool.threadCount + 5)
  omega

/-- The owner of `lock_` goes on. -/
theorem Alert.owned {o : Owner} (alert : Alert d s) (owned : s.pool.lock = .held o) :
    Progresses d s := by
  have inside : s.pool.Inside o := by
    apply (alert.orderly.counted.guarded o).mpr
    rw [owned]
    rfl
  cases o with
  | worker i =>
      cases worker : s.pool.workers i with
      | test => exact alert.workerOwns worker
      | lock | wait | execute | exited => exact absurd ((inside_worker worker).mp inside) id
  | call c =>
      cases call : s.pool.calls c with
      | addLocked task => exact alert.addOwns owned call
      | destroyLocked o => exact alert.shutOwns owned call
      | freeing =>
          have moved : s.step (.pool (.destroyMutex c true) none) =
              some ⟨s.pool.destroyMutex c true, s.notify⟩ := by
            simp [SignalledPool.step, notified, ThreadPool.step, call]
          refine ⟨.pool (.destroyMutex c true) none, _, rfl, moved, ?_⟩
          refine rank_call (.destroyReturned 0) owned rfl rfl rfl ?_
          rw [call]
          exact Nat.lt_succ_self _
      | notMade | addEntered | addReturned | destroyEntered | joining | destroyReturned =>
          exact absurd ((inside_call call).mp inside) id

/-- Every worker sleeps or has ended. -/
def AtRest (s : SignalledPool F A) : Prop :=
  ∀ i < s.pool.threadCount, s.pool.workers i = .exited ∨ s.Sleeps i

theorem Alert.progress (alert : Alert d s) :
    Progresses d s ∨ s.AtRest ∧ (s.pool.lock = .free ∨ s.pool.lock = .destroyed) := by
  cases lock : s.pool.lock with
  | held o => exact .inl (alert.owned lock)
  | destroyed =>
      have gone := alive_eq_zero.mp (alert.orderly.counted.destroyed lock)
      exact .inr ⟨fun i there => .inl (gone i there), .inr rfl⟩
  | free =>
      by_cases busy : ∃ i < s.pool.threadCount, s.pool.workers i ≠ .exited ∧ ¬ s.Sleeps i
      · obtain ⟨i, there, present, awake⟩ := busy
        exact .inl (alert.busy lock there present awake)
      · refine .inr ⟨fun i there => ?_, .inl rfl⟩
        by_contra going
        rw [not_or] at going
        exact busy ⟨i, there, going⟩

/-- At rest there is nothing left to execute. -/
theorem Alert.drained (alert : Alert d s) (rest : s.AtRest) :
    s.pool.executed.Perm (s.pool.added.map Prod.snd) := by
  obtain ⟨items, sound⟩ := alert.orderly.sound
  have idle : s.pool.running = [] := List.filterMap_eq_nil_iff.mpr fun i there => by
    rcases rest i (List.mem_range.mp there) with gone | sleeps
    · rw [gone]
      rfl
    · rw [sleeps.1]
      rfl
  have empty : items = [] := by
    rcases rest 0 sound.threads with gone | sleeps
    · exact (sound.exited 0 gone).2
    · have opened : s.pool.shutdown = 0 := not_not.mp fun closed => alert.closing closed 0 sleeps.2
      by_contra some_item
      have positive : 0 < s.pool.count := by
        rw [sound.counted]
        exact List.length_pos_iff.mpr some_item
      obtain ⟨i, here, awake⟩ := alert.serving positive
      rcases rest i (List.mem_range.mp here) with gone | asleep
      · exact (sound.exited i gone).1 opened
      · exact awake asleep.2
  have order := sound.order
  have executed := sound.executed
  rw [empty, List.append_nil] at order
  rw [idle, List.append_nil] at executed
  rw [order]
  exact executed.symm

theorem Internal.admitted {l : SignalledStep F A} (internal : l.Internal) : l.Admitted d := by
  cases l with
  | wake | spurious => trivial
  | pool l picked => cases l <;> first | exact internal | exact absurd internal id

theorem rank_shuts (call : Call F A) {p : ThreadPool F A} (workers : p.workers = s.pool.workers)
    (threads : p.threadCount = s.pool.threadCount) (count : p.count = s.pool.count)
    (calls : p.calls = (s.pool.setCall d call).calls) (holder : holderWeight d p = 0)
    (less : call.weight s.pool.threadCount < (s.pool.calls d).weight s.pool.threadCount) :
    rank d ⟨p, s.notify⟩ < rank d s := by
  have load : load ⟨p, s.notify⟩ = s.load := by simp only [SignalledPool.load, workers, threads]
  simp only [rank, load, threads, count, holder, calls, setCall_self]
  omega

/-- A `ThreadPoolDestroy` that waits for `lock_` or for the workers goes on when the pool is at
    rest. -/
theorem Alert.ends (alert : Alert d s) (rest : s.AtRest) (free : s.pool.lock = .free)
    (shuts : (s.pool.calls d).Shuts) (going : s.pool.calls d ≠ .destroyReturned 0) :
    Progresses d s := by
  have expected := alert.orderly.expected d
  have unowned (inside : s.pool.Inside (.call d)) : False := by
    have owned := (alert.orderly.counted.guarded _).mp inside
    rw [free] at owned
    cases owned
  cases call : s.pool.calls d with
  | notMade | addEntered | addLocked | addReturned =>
      rw [call] at shuts
      exact absurd shuts id
  | destroyEntered o =>
      have moved : s.step (.pool (.destroyLock d true) none) = some
          ⟨{ s.pool with lock := .held (.call d) }.setCall d (.destroyLocked o), s.notify⟩ := by
        simp [SignalledPool.step, notified, ThreadPool.step, call, acquire, free]
      refine ⟨.pool (.destroyLock d true) none, _, rfl, moved, ?_⟩
      refine rank_shuts (.destroyLocked o) rfl rfl rfl rfl ?_ ?_
      · simp [holderWeight, setCall]
      · rw [call]
        exact Nat.lt_succ_self _
  | destroyLocked o => exact absurd ((inside_call call).mpr trivial) unowned
  | freeing => exact absurd ((inside_call call).mpr trivial) unowned
  | joining i err =>
      rw [call] at expected
      obtain rfl : err = 0 := expected.2
      have closed : s.pool.shutdown ≠ 0 := by
        apply alert.orderly.past.mp
        rw [call]
        trivial
      have gone : ∀ j < s.pool.threadCount, s.pool.workers j = .exited := fun j there =>
        (rest j there).resolve_right fun sleeps => alert.closing closed j sleeps.2
      by_cases there : i < s.pool.threadCount
      · have moved : s.step (.pool (.join d true) none) =
            some ⟨s.pool.setCall d (.joining (i + 1) 0), s.notify⟩ := by
          simp [SignalledPool.step, notified, ThreadPool.step, call, joinWorker, there, gone i there]
        refine ⟨.pool (.join d true) none, _, rfl, moved, ?_⟩
        refine rank_shuts (.joining (i + 1) 0) rfl rfl rfl rfl ?_ ?_
        · simp [holderWeight, setCall, free]
        · rw [call]
          show s.pool.threadCount - (i + 1) + 2 < s.pool.threadCount - i + 2
          omega
      · have none_alive : ¬ s.pool.started > 0 := by
          rw [alert.orderly.counted.started, alive_eq_zero.mpr gone]
          exact Int.lt_irrefl 0
        have moved : s.step (.pool (.free d) none) = some
            ⟨{ s.pool with lock := .held (.call d) }.setCall d .freeing, s.notify⟩ := by
          simp [SignalledPool.step, notified, ThreadPool.step, call, threadPoolFree, there,
            none_alive, acquire, free]
        refine ⟨.pool (.free d) none, _, trivial, moved, ?_⟩
        refine rank_shuts .freeing rfl rfl rfl rfl ?_ ?_
        · simp [holderWeight, setCall]
        · rw [call]
          show 1 < s.pool.threadCount - i + 2
          omega
  | destroyReturned err =>
      rw [call] at expected
      exact absurd (call.trans (congrArg Call.destroyReturned expected.2)) going

end SignalledPool

end WebServer
