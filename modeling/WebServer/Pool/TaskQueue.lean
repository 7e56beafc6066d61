import WebServer.Lib.Ring
import WebServer.Pool.ThreadPool

/-! # The tasks of the pool

The queue is a ring of the tasks that were added and not yet taken. A worker leaves only when the
pool is shut down and the ring is empty, so a graceful shutdown that has joined the workers leaves no
task behind.
-/

namespace WebServer

open Lib

variable {F A : Type}

/-- The task that a worker is executing. -/
def Worker.task : Worker F A → Option (ThreadPoolTask F A)
  | .execute task => some task
  | _ => none

/-- How many of `threadCount` workers a call of `ThreadPoolDestroy` has joined. -/
def Call.joined (threadCount : Nat) : Call F A → Nat
  | .joining i _ => i
  | .freeing => threadCount
  | .destroyReturned err => if err = 0 then threadCount else 0
  | _ => 0

/-- A shutdown that is still to come is a graceful one. -/
def Call.Graceful : Call F A → Prop
  | .destroyEntered shutdownOption | .destroyLocked shutdownOption =>
      shutdownOption = .gracefulShutdown
  | _ => True

/-- The pool is only shut down gracefully. -/
def PoolStep.Graceful : PoolStep F A → Prop
  | .destroy _ shutdownOption => shutdownOption = .gracefulShutdown
  | _ => True

namespace ThreadPool

/-- The tasks being executed. -/
def running (p : ThreadPool F A) : List (ThreadPoolTask F A) :=
  (List.range p.threadCount).filterMap fun i => (p.workers i).task

/-- The workers that such a call has joined have ended. -/
def Joined (p : ThreadPool F A) (call : Call F A) : Prop :=
  ∀ j < call.joined p.threadCount, j < p.threadCount → p.workers j = .exited

/-- The call has joined all workers. -/
def HasJoined (p : ThreadPool F A) (c : Nat) : Prop :=
  p.threadCount ≤ (p.calls c).joined p.threadCount

/-- What the queue consists of is the same in both states. -/
structure SameQueue (p p' : ThreadPool F A) : Prop where
  queue : p'.queue = p.queue
  begin_ : p'.begin_ = p.begin_
  end_ : p'.end_ = p.end_
  count : p'.count = p.count

/-- Every task added is taken in its turn, executed once, and executed when the workers are
    joined. -/
structure Served (p : ThreadPool F A) : Prop where
  order : p.taken <+: p.added.map Prod.snd
  once : (p.added.map Prod.fst).Nodup
  accepted : ∀ c, c ∈ p.added.map Prod.fst ↔ p.calls c = .addReturned 0
  executed : p.taken.Perm (p.executed ++ p.running)
  drained : ∀ c, p.HasJoined c →
    p.taken = p.added.map Prod.snd ∧ p.executed.Perm (p.added.map Prod.snd)

/-- The queue holds `items`, and nobody has left while there were any. -/
structure Sound (p : ThreadPool F A) (items : List (ThreadPoolTask F A)) : Prop where
  threads : 0 < p.threadCount
  size : p.queue.length = p.queueSize
  begin_lt : p.begin_ < p.queueSize
  ring : Ring p.queue p.begin_ items
  counted : p.count = items.length
  behind : p.end_ = (p.begin_ + items.length) % p.queueSize
  order : p.added.map Prod.snd = p.taken ++ items
  executed : p.taken.Perm (p.executed ++ p.running)
  once : (p.added.map Prod.fst).Nodup
  accepted : ∀ c, c ∈ p.added.map Prod.fst ↔ p.calls c = .addReturned 0
  shutdown : p.shutdown = 0 ∨ p.shutdown = ShutDownOption.gracefulShutdown.toInt
  graceful : ∀ c, (p.calls c).Graceful
  exited : ∀ i, p.workers i = .exited → p.shutdown ≠ 0 ∧ items = []
  joined : ∀ c, p.Joined (p.calls c)

variable {p p' : ThreadPool F A} {items : List (ThreadPoolTask F A)}

theorem running_setWorker {i : Nat} (there : i < p.threadCount) (w : Worker F A) :
    ((p.workers i).task.toList ++ (p.setWorker i w).running).Perm (w.task.toList ++ p.running) := by
  have split : (List.range p.threadCount).Perm (i :: (List.range p.threadCount).erase i) :=
    List.perm_cons_erase (List.mem_range.mpr there)
  have others (w : Worker F A) : (p.setWorker i w).running.Perm (w.task.toList ++
      ((List.range p.threadCount).erase i).filterMap fun j => (p.workers j).task) := by
    have same : (((List.range p.threadCount).erase i).filterMap fun j =>
        ((p.setWorker i w).workers j).task) =
          ((List.range p.threadCount).erase i).filterMap fun j => (p.workers j).task := by
      refine List.filterMap_congr fun j other => ?_
      have apart : j ≠ i := ((List.nodup_range.mem_erase_iff).mp other).1
      rw [setWorker_ne p w apart]
    apply (split.filterMap _).trans
    rw [List.filterMap_cons, setWorker_self, same]
    cases w.task with
    | none => exact .refl _
    | some task => exact .refl _
  have self : p.setWorker i (p.workers i) = p := by
    rw [setWorker, Function.update_eq_self]
  have before := others (p.workers i)
  rw [self] at before
  refine ((others w).append_left _).trans (List.Perm.trans ?_ (before.symm.append_left _))
  rw [← List.append_assoc, ← List.append_assoc]
  exact List.perm_append_comm.append_right _

theorem running_idle {i : Nat} {w : Worker F A} (there : i < p.threadCount)
    (before : (p.workers i).task = none) (after : w.task = none) :
    (p.setWorker i w).running.Perm p.running := by
  have perm := running_setWorker there w
  rwa [before, after] at perm

theorem setWorker_exited {P : Prop} {i j : Nat} {w : Worker F A}
    (known : ∀ j, p.workers j = .exited → P) (leaving : w = .exited → P)
    (gone : (p.setWorker i w).workers j = .exited) : P := by
  by_cases same : j = i
  · rw [same, setWorker_self] at gone
    exact leaving gone
  · rw [setWorker_ne p w same] at gone
    exact known j gone

theorem stays_exited {i j : Nat} (w : Worker F A) (present : p.workers i ≠ .exited)
    (gone : p.workers j = .exited) : (p.setWorker i w).workers j = .exited := by
  have apart : j ≠ i := fun same => present (same ▸ gone)
  rw [setWorker_ne p w apart]
  exact gone

theorem setCall_all (Q : Call F A → Prop) {c : Nat} {call : Call F A} (here : Q call)
    (others : ∀ d, Q (p.calls d)) (d : Nat) : Q ((p.setCall c call).calls d) := by
  by_cases same : d = c
  · rw [same, setCall_self]
    exact here
  · rw [setCall_ne p call same]
    exact others d

namespace Sound

theorem withLock (sound : Sound p items) (lock : Mutex) : Sound { p with lock } items :=
  { sound with }

theorem move {i : Nat} {w : Worker F A} (sound : Sound p items) (there : i < p.threadCount)
    (present : p.workers i ≠ .exited) (before : (p.workers i).task = none) (after : w.task = none)
    (leaving : w = .exited → p.shutdown ≠ 0 ∧ items = []) : Sound (p.setWorker i w) items :=
  { sound with
    executed := sound.executed.trans ((running_idle there before after).symm.append_left _)
    exited := fun _ => setWorker_exited sound.exited leaving
    joined := fun c j below inside => stays_exited w present (sound.joined c j below inside) }

/-- The first task is taken out of the queue. -/
theorem take {i : Nat} {task : ThreadPoolTask F A} (sound : Sound p (task :: items))
    (there : i < p.threadCount) (testing : p.workers i = .test) :
    p.takeTask.1 = task ∧ Sound (p.takeTask.2.setWorker i (.execute task)) items := by
  have first : p.begin_ % p.queue.length = p.begin_ := by
    rw [sound.size, Nat.mod_eq_of_lt sound.begin_lt]
  have ring := sound.ring.pop .null
  rw [first, sound.size] at ring
  have head : p.takeTask.1 = task := by
    have head := sound.ring.head
    rw [first] at head
    show p.queue.getD p.begin_ .null = task
    rw [List.getD_eq_getElem?_getD, head, Option.getD_some]
  have running := running_setWorker there (.execute task)
  rw [testing] at running
  have present : p.workers i ≠ .exited := by simp [testing]
  refine ⟨head, ?_⟩
  exact { sound with
    size := (List.length_set ..).trans sound.size
    begin_lt := Nat.mod_lt _ (Nat.zero_lt_of_lt sound.begin_lt)
    ring
    counted := by
      show p.count - 1 = items.length
      rw [sound.counted]
      rfl
    behind := by
      show p.end_ = ((p.begin_ + 1) % p.queueSize + items.length) % p.queueSize
      rw [sound.behind, List.length_cons, Nat.mod_add_mod, Nat.add_assoc, Nat.add_comm 1]
    order := by
      show p.added.map Prod.snd = p.taken ++ [p.takeTask.1] ++ items
      rw [head, sound.order, List.append_assoc]
      rfl
    executed := by
      show (p.taken ++ [p.takeTask.1]).Perm _
      rw [head]
      apply (sound.executed.append_right [task]).trans
      rw [List.append_assoc]
      exact (List.perm_append_comm.trans running.symm).append_left p.executed
    exited := fun _ => setWorker_exited
      (fun j gone => absurd (sound.exited j gone).2 (List.cons_ne_nil _ _)) (by simp)
    joined := fun c j below inside => stays_exited _ present (sound.joined c j below inside) }

theorem finish {i : Nat} {task : ThreadPoolTask F A} (sound : Sound p items)
    (there : i < p.threadCount) (executing : p.workers i = .execute task) :
    Sound ({ p with executed := p.executed ++ [task] }.setWorker i .lock) items := by
  have running := running_setWorker there .lock
  rw [executing] at running
  have present : p.workers i ≠ .exited := by simp [executing]
  exact { sound with
    executed := by
      apply sound.executed.trans
      show (p.executed ++ p.running).Perm (p.executed ++ [task] ++ (p.setWorker i .lock).running)
      rw [List.append_assoc]
      exact running.symm.append_left p.executed
    exited := fun _ => setWorker_exited sound.exited (by simp)
    joined := fun c j below inside => stays_exited _ present (sound.joined c j below inside) }

theorem call {c : Nat} {call : Call F A} (sound : Sound p items)
    (before : p.calls c ≠ .addReturned 0) (after : call ≠ .addReturned 0)
    (graceful : call.Graceful) (joined : p.Joined call) : Sound (p.setCall c call) items := by
  exact { sound with
    accepted := fun d => by
      show d ∈ p.added.map Prod.fst ↔ (p.setCall c call).calls d = .addReturned 0
      by_cases same : d = c
      · rw [same, setCall_self, sound.accepted]
        exact iff_of_false before after
      · rw [setCall_ne p call same, sound.accepted]
    graceful := setCall_all Call.Graceful graceful sound.graceful
    joined := setCall_all p.Joined joined sound.joined }

/-- `ThreadPoolAdd` accepts a task. -/
theorem add {c : Nat} {task : ThreadPoolTask F A} (sound : Sound p items)
    (adding : p.calls c = .addLocked task) (room : p.count ≠ p.queueSize) (open_ : p.shutdown = 0) :
    Sound ((p.putTask c task).setCall c (.addReturned 0)) (items ++ [task]) := by
  have full := sound.ring.room
  rw [sound.size, ← sound.counted] at full
  have ring := sound.ring.push (by
    rw [sound.size, ← sound.counted]
    omega) task
  rw [sound.size, ← sound.behind] at ring
  have fresh : c ∉ p.added.map Prod.fst := by
    rw [sound.accepted, adding]
    simp
  exact { sound with
    size := (List.length_set ..).trans sound.size
    ring
    counted := by
      rw [List.length_append, List.length_singleton, ← sound.counted]
      rfl
    behind := by
      show (p.end_ + 1) % p.queueSize = (p.begin_ + (items ++ [task]).length) % p.queueSize
      rw [sound.behind, Nat.mod_add_mod, List.length_append, List.length_singleton, Nat.add_assoc]
    order := by
      show (p.added ++ [(c, task)]).map Prod.snd = p.taken ++ (items ++ [task])
      rw [List.map_append, sound.order, List.append_assoc]
      rfl
    once := by
      show ((p.added ++ [(c, task)]).map Prod.fst).Nodup
      rw [List.map_append]
      refine List.nodup_append.mpr ⟨sound.once, List.pairwise_singleton _ c, ?_⟩
      rintro d there e last rfl
      obtain rfl : d = c := List.mem_singleton.mp last
      exact fresh there
    accepted := fun d => by
      show d ∈ (p.added ++ [(c, task)]).map Prod.fst ↔ (p.setCall c (.addReturned 0)).calls d = _
      rw [List.map_append, List.mem_append]
      by_cases same : d = c
      · rw [same, setCall_self]
        simp
      · rw [setCall_ne p _ same, sound.accepted]
        simp [same]
    graceful := setCall_all Call.Graceful trivial sound.graceful
    exited := fun i gone => absurd open_ (sound.exited i gone).1
    joined := setCall_all p.Joined (fun _ none => absurd none (Nat.not_lt_zero _)) sound.joined }

theorem shutDown {c : Nat} (sound : Sound p items)
    (before : p.calls c = .destroyLocked .gracefulShutdown) :
    Sound ({ p with shutdown := ShutDownOption.gracefulShutdown.toInt }.setCall c (.joining 0 0))
      items := by
  have closed : Sound { p with shutdown := ShutDownOption.gracefulShutdown.toInt } items :=
    { sound with
      shutdown := .inr rfl
      exited := fun i gone => ⟨(by decide : (2 : Int) ≠ 0), (sound.exited i gone).2⟩ }
  refine closed.call ?_ (by simp) trivial fun _ none => absurd none (Nat.not_lt_zero _)
  show p.calls c ≠ _
  simp [before]

/-- `ThreadPoolThread`, from the test of its inner loop on. -/
theorem threadPoolThread {i : Nat} (sound : Sound p items) (there : i < p.threadCount)
    (testing : p.workers i = .test) : ∃ items', Sound (p.threadPoolThread i) items' := by
  have present : p.workers i ≠ .exited := by simp [testing]
  have before : (p.workers i).task = none := by simp [testing, Worker.task]
  unfold ThreadPool.threadPoolThread
  split_ifs with idle past
  · exact ⟨items, (sound.move there present before rfl (by simp)).withLock _⟩
  · have gone : p.shutdown ≠ 0 ∧ items = [] := by
      have closed : p.shutdown ≠ 0 := by
        rcases past with now | ⟨drained, -⟩
        · simp [now, ShutDownOption.toInt]
        · simp [drained, ShutDownOption.toInt]
      refine ⟨closed, List.length_eq_zero_iff.mp ?_⟩
      rw [← sound.counted]
      rcases past with now | ⟨-, none⟩
      · rcases sound.shutdown with still | drained
        · exact absurd still closed
        · rw [drained] at now
          cases now
      · exact none
    have left := sound.move (w := .exited) there present before rfl fun _ => gone
    exact ⟨items, { left with }⟩
  · cases items with
    | nil =>
        have none := sound.counted
        rw [List.length_nil] at none
        rcases sound.shutdown with still | drained
        · exact absurd ⟨none, still⟩ idle
        · exact absurd (.inr ⟨drained, none⟩) past
    | cons task items =>
        obtain ⟨head, sound⟩ := sound.take there testing
        dsimp only
        rw [head]
        exact ⟨items, sound.withLock _⟩

theorem threadPoolAdd {c : Nat} {task : ThreadPoolTask F A} (sound : Sound p items)
    (adding : p.calls c = .addLocked task) :
    ∃ items', Sound (p.threadPoolAdd c task true true) items' := by
  rcases p.threadPoolAdd_cases c task with ⟨err, wrong, same⟩ | ⟨room, opened, same⟩
  · rw [same]
    refine ⟨items, (sound.call ?_ (by simpa using wrong) ?_ ?_).withLock _⟩
    · simp [adding]
    · trivial
    · exact fun _ none => absurd none (Nat.not_lt_zero _)
  · rw [same]
    exact ⟨items ++ [task], (sound.add adding room opened).withLock _⟩

theorem step {l : PoolStep F A} (sound : Sound p items) (graceful : l.Graceful)
    (effect : Effect p l p') : ∃ items', Sound p' items' := by
  have nobody {call : Call F A} (none : call.joined p.threadCount = 0) : p.Joined call :=
    fun j below => absurd below (none ▸ Nat.not_lt_zero j)
  cases effect with
  | workerLock there waiting free =>
      refine ⟨items, (sound.withLock _).move there ?_ ?_ rfl (by simp)⟩
      · rcases waiting with here | here <;> simp [here]
      · rcases waiting with here | here <;> simp [here, Worker.task]
  | workerTest there testing => exact sound.threadPoolThread there testing
  | workerExecute there executing => exact ⟨items, sound.finish there executing⟩
  | add fresh => exact ⟨items, sound.call (by simp [fresh]) (by simp) trivial (nobody rfl)⟩
  | addLock entered =>
      exact ⟨items, (sound.withLock _).call (by simp [entered]) (by simp) trivial (nobody rfl)⟩
  | addTask adding => exact sound.threadPoolAdd adding
  | destroy fresh => exact ⟨items, sound.call (by simp [fresh]) (by simp) graceful (nobody rfl)⟩
  | @destroyLock c o entered free =>
      have option := sound.graceful c
      rw [entered] at option
      exact ⟨items, (sound.withLock _).call (by simp [entered]) (by simp) option (nobody rfl)⟩
  | @shutDown c o locked =>
      have option := sound.graceful c
      rw [locked] at option
      obtain rfl : o = .gracefulShutdown := option
      unfold threadPoolDestroy
      split_ifs with closed fails
      · exact ⟨items, sound.call (by simp [locked]) (by simp) trivial (nobody rfl)⟩
      · exact absurd fails (by decide)
      · exact ⟨items, (sound.shutDown locked).withLock _⟩
  | @join c i err joining inside gone =>
      refine ⟨items, sound.call (by simp [joining]) (by simp) trivial fun j below there => ?_⟩
      have before := sound.joined c j
      rw [joining] at before
      rcases Nat.lt_or_eq_of_le (Nat.le_of_lt_succ below) with earlier | rfl
      · exact before earlier there
      · exact gone
  | @failed c i err joining past wrong =>
      exact ⟨items, sound.call (by simp [joining]) (by simp) trivial
        (nobody (by simp [Call.joined, wrong]))⟩
  | @kept c i joining past =>
      refine ⟨items, sound.call (by simp [joining]) (by simp) trivial fun j below there => ?_⟩
      have before := sound.joined c j
      rw [joining] at before
      exact before (Nat.lt_of_lt_of_le there past) there
  | @free c i joining past free =>
      refine ⟨items, (sound.withLock _).call (by simp [joining]) (by simp) trivial
        fun j below there => ?_⟩
      have before := sound.joined c j
      rw [joining] at before
      exact before (Nat.lt_of_lt_of_le there past) there
  | @destroyMutex c freeing =>
      refine ⟨items, (sound.withLock _).call (by simp [freeing]) (by simp) trivial
        fun j below there => ?_⟩
      have before := sound.joined c j
      rw [freeing] at before
      exact before there there

theorem created {threadCount queueSize : Nat} (threads : 0 < threadCount) (room : 0 < queueSize)
    (queue : List (ThreadPoolTask F A)) : Sound (created threadCount queueSize queue) [] where
  threads := threads
  size := by
    simp [ThreadPool.created, resize]
    omega
  begin_lt := room
  ring := .empty _ _
  counted := rfl
  behind := (Nat.zero_mod _).symm
  order := rfl
  executed := by
    have none : (ThreadPool.created threadCount queueSize queue).running = [] :=
      List.filterMap_eq_nil_iff.mpr fun _ _ => rfl
    rw [none]
    exact .refl _
  once := List.nodup_nil
  accepted c := iff_of_false List.not_mem_nil (by simp [ThreadPool.created])
  shutdown := .inl rfl
  graceful _ := trivial
  exited i gone := by cases gone
  joined c j below := absurd below (Nat.not_lt_zero j)

theorem threadPoolCreate (threadCount queueSize : Int) (queue : List (ThreadPoolTask F A)) :
    Sound (threadPoolCreate threadCount queueSize queue) [] := by
  unfold ThreadPool.threadPoolCreate
  split_ifs with wrong
  · exact created (by decide) (by decide) queue
  · exact created (by omega) (by omega) queue

theorem drained {c : Nat} (sound : Sound p items) (joined : p.HasJoined c) :
    p.taken = p.added.map Prod.snd ∧ p.executed.Perm (p.added.map Prod.snd) := by
  have gone : ∀ j < p.threadCount, p.workers j = .exited := fun j there =>
    sound.joined c j (Nat.lt_of_lt_of_le there joined) there
  have empty : items = [] := (sound.exited 0 (gone 0 sound.threads)).2
  have idle : p.running = [] := List.filterMap_eq_nil_iff.mpr fun j there => by
    rw [gone j (List.mem_range.mp there)]
    rfl
  have executed := sound.executed
  have order := sound.order
  rw [idle, List.append_nil] at executed
  rw [empty, List.append_nil] at order
  exact ⟨order.symm, order ▸ executed.symm⟩

theorem served (sound : Sound p items) : Served p where
  order := sound.order ▸ List.prefix_append _ _
  once := sound.once
  accepted := sound.accepted
  executed := sound.executed
  drained _ := sound.drained

end Sound

theorem caller_sameQueue {l : PoolStep F A} {c : Nat} (effect : Effect p l p')
    (caller : l.caller = some c) (refused : p'.calls c ≠ .addReturned 0) : SameQueue p p' := by
  cases effect with
  | workerLock _ _ _ worker => simp [worker] at caller
  | workerTest | workerExecute => cases caller
  | @addTask d task adding =>
      obtain rfl : d = c := Option.some.inj caller
      rcases p.threadPoolAdd_cases d task with ⟨err, wrong, same⟩ | ⟨room, opened, same⟩
      · rw [same]
        exact ⟨rfl, rfl, rfl, rfl⟩
      · rw [same] at refused
        exact absurd (setCall_self _ _) refused
  | @shutDown d o locked =>
      unfold threadPoolDestroy
      split_ifs <;> exact ⟨rfl, rfl, rfl, rfl⟩
  | _ => exact ⟨rfl, rfl, rfl, rfl⟩

theorem reachable_sound
    (reached : (threadPool F A).Reached (fun _ l => l.Succeeds ∧ l.Graceful) p) :
    ∃ items, Sound p items := by
  apply reached.invariant (P := fun p => ∃ items, Sound p items)
  · rintro p ⟨threadCount, queueSize, queue, rfl⟩
    exact ⟨[], .threadPoolCreate threadCount queueSize queue⟩
  · rintro p l p' ⟨items, sound⟩ ⟨succeeds, graceful⟩ moved
    exact sound.step graceful (step_effect succeeds moved)

/-- Tasks are taken in the order in which they were accepted, each of them once; a refused task
    leaves no trace; and when `ThreadPoolDestroy` has joined the workers all are executed. -/
theorem reachable_served
    (reached : (threadPool F A).Reached (fun _ l => l.Succeeds ∧ l.Graceful) p) :
    p.Served ∧ ∀ l c p', l.Succeeds → l.caller = some c → p.step l = some p' →
      p'.calls c ≠ .addReturned 0 → p.SameQueue p' := by
  obtain ⟨items, sound⟩ := reachable_sound reached
  refine ⟨sound.served, fun l c p' succeeds caller moved => ?_⟩
  exact caller_sameQueue (step_effect succeeds moved) caller

/-- One worker executes the task of call `0`; then call `1` shuts the pool down and joins it. -/
def oneTask : List (PoolStep Unit Unit) :=
  [.add 0 ⟨some (), none⟩, .addLock 0 true, .addTask 0 true true, .workerLock 0, .workerTest 0,
    .workerExecute 0, .destroy 1 .gracefulShutdown, .destroyLock 1 true, .shutDown 1 true true,
    .workerLock 0, .workerTest 0, .join 1 true]

theorem oneTask_served :
    ∃ p, (threadPool Unit Unit).replay (.threadPoolCreate 1 1 []) oneTask = some p ∧
      p.HasJoined 1 ∧ p.Served ∧ ∀ l c p', l.Succeeds → l.caller = some c → p.step l = some p' →
        p'.calls c ≠ .addReturned 0 → p.SameQueue p' := by
  obtain ⟨p, done⟩ := Option.isSome_iff_exists.mp
    (show ((threadPool Unit Unit).replay (.threadPoolCreate 1 1 []) oneTask).isSome = true from rfl)
  have joined : ((threadPool Unit Unit).replay (.threadPoolCreate 1 1 []) oneTask).map
      (fun p => (p.threadCount, p.calls 1)) = some (1, .joining 1 0) := rfl
  rw [done, Option.map_some, Option.some.injEq, Prod.mk.injEq] at joined
  have allowed : ∀ l ∈ oneTask, ∀ _p : ThreadPool Unit Unit, l.Succeeds ∧ l.Graceful := by
    simp [oneTask, PoolStep.Succeeds, PoolStep.Graceful]
  refine ⟨p, done, ?_, reachable_served (.replay allowed (.init ⟨1, 1, [], rfl⟩) done)⟩
  rw [HasJoined, joined.1, joined.2]
  exact Nat.le_refl 1

end ThreadPool

end WebServer
