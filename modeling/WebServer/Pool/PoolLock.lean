import WebServer.Lib.Lock
import WebServer.Pool.ThreadPool

/-! # Who owns `lock_`

Every function of the pool releases `lock_` on its way out but for one: a `ThreadPoolDestroy` that
finds the pool shut down breaks out of its block past the `pthread_mutex_unlock`.
-/

namespace WebServer

open Lib

variable {F A : Type}

def Mutex.holder : Mutex → Option Owner
  | .held o => some o
  | _ => none

/-- A worker is between acquiring `lock_` and releasing it. -/
def Worker.Inside : Worker F A → Prop
  | .test => True
  | _ => False

/-- So is a call. -/
def Call.Inside : Call F A → Prop
  | .addLocked _ | .destroyLocked _ | .freeing => True
  | _ => False

def Call.HasReturned : Call F A → Prop
  | .addReturned _ | .destroyReturned _ => True
  | _ => False

namespace ThreadPool

def Inside (p : ThreadPool F A) : Owner → Prop
  | .worker i => (p.workers i).Inside
  | .call c => (p.calls c).Inside

/-- The thread is still in `ThreadPoolThread`, `ThreadPoolAdd` or `ThreadPoolDestroy`. -/
def StillIn (p : ThreadPool F A) : Owner → Prop
  | .worker i => p.workers i ≠ .exited
  | .call c => p.calls c ≠ .notMade ∧ ¬ (p.calls c).HasReturned

/-- Calls that have returned have released `lock_`: only a thread that is still in a function of the
    pool owns it. -/
structure Released (p : ThreadPool F A) : Prop where
  returned : ∀ c, (p.calls c).HasReturned → p.lock ≠ .held (.call c)
  held : ∀ o, p.lock = .held o → p.StillIn o

/-- A call that has returned owns `lock_`, and nobody will release it. -/
structure Leaked (p : ThreadPool F A) (c : Nat) : Prop where
  returned : (p.calls c).HasReturned
  owned : p.lock = .held (.call c)
  outside : ∀ o, ¬ p.Inside o

/-- The step is not that of a `ThreadPoolDestroy` that finds `shutdown_` set. -/
def Proceeds (p : ThreadPool F A) : PoolStep F A → Prop
  | .shutDown _ _ _ => p.shutdown = 0
  | _ => True

variable {p p' : ThreadPool F A}

theorem setWorker_moves (p : ThreadPool F A) (i : Nat) (w : Worker F A) :
    OnlyMoves (.worker i) p.Inside (p.setWorker i w).Inside := by
  rintro (j | c) apart
  · have other : j ≠ i := fun same => apart (congrArg Owner.worker same)
    show ((p.setWorker i w).workers j).Inside ↔ (p.workers j).Inside
    rw [setWorker_ne p w other]
  · exact Iff.rfl

theorem setCall_moves (p : ThreadPool F A) (c : Nat) (call : Call F A) :
    OnlyMoves (.call c) p.Inside (p.setCall c call).Inside := by
  rintro (j | d) apart
  · exact Iff.rfl
  · have other : d ≠ c := fun same => apart (congrArg Owner.call same)
    show ((p.setCall c call).calls d).Inside ↔ (p.calls d).Inside
    rw [setCall_ne p call other]

theorem inside_worker {i : Nat} {w : Worker F A} (here : p.workers i = w) :
    p.Inside (.worker i) ↔ w.Inside := by
  rw [← here]
  exact Iff.rfl

theorem inside_call {c : Nat} {call : Call F A} (here : p.calls c = call) :
    p.Inside (.call c) ↔ call.Inside := by
  rw [← here]
  exact Iff.rfl

section Moves

variable {holder : Option Owner} {i c : Nat} {w w' : Worker F A} {call call' : Call F A}

theorem worker_acquires (guarded : Guarded none p.Inside) (enters : w.Inside) :
    Guarded (some (.worker i)) (p.setWorker i w).Inside := by
  apply guarded.acquire (setWorker_moves p i w)
  exact (inside_worker (setWorker_self p w)).mpr enters

theorem call_acquires (guarded : Guarded none p.Inside) (enters : call.Inside) :
    Guarded (some (.call c)) (p.setCall c call).Inside := by
  apply guarded.acquire (setCall_moves p c call)
  exact (inside_call (setCall_self p call)).mpr enters

theorem worker_releases (guarded : Guarded holder p.Inside) (here : p.workers i = w)
    (was : w.Inside) (leaves : ¬ w'.Inside) : Guarded none (p.setWorker i w').Inside := by
  apply guarded.release (setWorker_moves p i w') ((inside_worker here).mpr was)
  exact mt (inside_worker (setWorker_self p w')).mp leaves

theorem call_releases (guarded : Guarded holder p.Inside) (here : p.calls c = call)
    (was : call.Inside) (leaves : ¬ call'.Inside) : Guarded none (p.setCall c call').Inside := by
  apply guarded.release (setCall_moves p c call') ((inside_call here).mpr was)
  exact mt (inside_call (setCall_self p call')).mp leaves

theorem worker_stays (guarded : Guarded holder p.Inside) (here : p.workers i = w)
    (outside : ¬ w.Inside) (outside' : ¬ w'.Inside) : Guarded holder (p.setWorker i w').Inside := by
  apply guarded.stay (setWorker_moves p i w') (mt (inside_worker here).mp outside)
  exact mt (inside_worker (setWorker_self p w')).mp outside'

theorem call_stays (guarded : Guarded holder p.Inside) (here : p.calls c = call)
    (outside : ¬ call.Inside) (outside' : ¬ call'.Inside) :
    Guarded holder (p.setCall c call').Inside := by
  apply guarded.stay (setCall_moves p c call') (mt (inside_call here).mp outside)
  exact mt (inside_call (setCall_self p call')).mp outside'

end Moves

section Steps

variable (guarded : Guarded p.lock.holder p.Inside)
include guarded

theorem guarded_free (free : p.lock = .free) : Guarded none p.Inside := by
  rwa [free] at guarded

/-- Whoever owns `lock_` is between its acquisition and its release, as long as no
    `ThreadPoolDestroy` finds the pool shut down. -/
theorem effect_guarded {l : PoolStep F A} (proceeds : p.Proceeds l) (effect : Effect p l p') :
    Guarded p'.lock.holder p'.Inside := by
  cases effect with
  | workerLock there waiting free =>
      have unheld := guarded_free guarded free
      exact worker_acquires unheld trivial
  | workerTest there testing =>
      unfold threadPoolThread
      split_ifs
      · exact worker_releases guarded testing trivial id
      · exact worker_releases guarded testing trivial id
      · exact worker_releases guarded testing trivial id
  | workerExecute there executing => exact worker_stays guarded executing id id
  | add fresh | destroy fresh => exact call_stays guarded fresh id id
  | addLock entered free | destroyLock entered free =>
      have unheld := guarded_free guarded free
      exact call_acquires unheld trivial
  | @addTask c task adding =>
      rcases p.threadPoolAdd_cases c task with ⟨err, -, same⟩ | ⟨-, -, same⟩
      · rw [same]
        exact call_releases guarded adding trivial id
      · rw [same]
        exact call_releases guarded adding trivial id
  | @shutDown c o locked =>
      unfold threadPoolDestroy
      split_ifs with closed fails
      · exact absurd proceeds closed
      · exact absurd fails (by decide)
      · exact call_releases guarded locked trivial id
  | join joining | failed joining | kept joining => exact call_stays guarded joining id id
  | free joining past free =>
      have unheld := guarded_free guarded free
      exact call_acquires unheld trivial
  | destroyMutex freeing => exact call_releases guarded freeing trivial id

/-- A `ThreadPoolDestroy` that finds the pool shut down returns as the owner of `lock_`. -/
theorem effect_leaks {l : PoolStep F A} (stops : ¬ p.Proceeds l) (effect : Effect p l p') :
    ∃ c, p'.Leaked c := by
  cases effect with
  | @shutDown c o locked =>
      have inside : p.Inside (.call c) := (inside_call locked).mpr trivial
      have owned : p.lock = .held (.call c) := by
        have holder := (guarded (.call c)).mp inside
        cases lock : p.lock with
        | held o' =>
            rw [lock] at holder
            exact congrArg Mutex.held (Option.some.inj holder)
        | free | destroyed =>
            rw [lock] at holder
            cases holder
      have same : p.threadPoolDestroy c o true true =
          p.setCall c (.destroyReturned kThreadPoolShutdown) := if_pos stops
      have left : Guarded none (p.setCall c (.destroyReturned kThreadPoolShutdown)).Inside :=
        call_releases guarded locked trivial id
      rw [same]
      refine ⟨c, ?_, owned, Guarded.none_iff.mp left⟩
      rw [setCall_self]
      trivial
  | workerLock _ _ _ worker =>
      cases l with
      | shutDown => cases worker
      | _ => exact absurd trivial stops
  | _ => exact absurd trivial stops

theorem guarded_released : p.Released where
  returned c returned owned := by
    have inside : p.Inside (.call c) := (guarded _).mpr (by rw [owned]; rfl)
    cases call : p.calls c <;> simp [Inside, call, Call.Inside, Call.HasReturned] at inside returned
  held o owned := by
    have inside : p.Inside o := (guarded o).mpr (by rw [owned]; rfl)
    cases o with
    | worker i =>
        intro gone
        simp [Inside, gone, Worker.Inside] at inside
    | call c =>
        cases call : p.calls c <;>
          simp_all [Inside, Call.Inside, StillIn, Call.HasReturned]

end Steps

namespace Leaked

variable {c : Nat}

theorem not_released (leaked : p.Leaked c) : ¬ p.Released :=
  fun released => released.returned c leaked.returned leaked.owned

/-- No worker and no call gets `lock_`. -/
theorem step {l : PoolStep F A} (leaked : p.Leaked c) (effect : Effect p l p') : p'.Leaked c := by
  have taken : p.lock ≠ .free := by
    rw [leaked.owned]
    nofun
  have nobody : Guarded none p.Inside := Guarded.none_iff.mpr leaked.outside
  have call_step {d : Nat} {call call' : Call F A} (here : p.calls d = call)
      (going : ¬ call.HasReturned) (outside : ¬ call.Inside) (outside' : ¬ call'.Inside) :
      (p.setCall d call').Leaked c := by
    have apart : c ≠ d := fun same => going (here ▸ same ▸ leaked.returned)
    refine ⟨?_, leaked.owned, Guarded.none_iff.mp (call_stays nobody here outside outside')⟩
    rw [setCall_ne p call' apart]
    exact leaked.returned
  cases effect with
  | workerLock there waiting free => exact absurd free taken
  | workerTest there testing =>
      exact absurd ((inside_worker testing).mpr trivial) (leaked.outside _)
  | workerExecute there executing =>
      exact ⟨leaked.returned, leaked.owned,
        Guarded.none_iff.mp (worker_stays nobody executing id id)⟩
  | add fresh | destroy fresh => exact call_step fresh id id id
  | addLock entered free | destroyLock entered free => exact absurd free taken
  | addTask adding => exact absurd ((inside_call adding).mpr trivial) (leaked.outside _)
  | shutDown locked => exact absurd ((inside_call locked).mpr trivial) (leaked.outside _)
  | join joining | failed joining | kept joining => exact call_step joining id id id
  | free joining past free => exact absurd free taken
  | destroyMutex freeing => exact absurd ((inside_call freeing).mpr trivial) (leaked.outside _)

theorem forever (leaked : p.Leaked c)
    (reached : ((threadPool F A).restart p).Reached (fun _ l => l.Succeeds) p') : p'.Leaked c := by
  apply reached.invariant (P := fun p => p.Leaked c)
  · rintro p rfl
    exact leaked
  · intro p l p' leaked succeeds moved
    exact leaked.step (step_effect succeeds moved)

end Leaked

theorem created_guarded (threadCount queueSize : Int) (queue : List (ThreadPoolTask F A)) :
    Guarded (threadPoolCreate threadCount queueSize queue).lock.holder
      (threadPoolCreate threadCount queueSize queue).Inside := by
  have outside (threads size : Nat) : Guarded (created threads size queue).lock.holder
      (created threads size queue).Inside := by
    rintro (i | c) <;> exact iff_of_false id nofun
  unfold threadPoolCreate
  split_ifs
  · exact outside _ _
  · exact outside _ _

/-- With pthread calls that succeed, `lock_` is released through a whole run exactly if no
    `ThreadPoolDestroy` of the run finds the pool shut down. -/
theorem released_iff (threadCount queueSize : Int) (queue : List (ThreadPoolTask F A))
    {steps : List (PoolStep F A)} {last : ThreadPool F A} (succeed : ∀ l ∈ steps, l.Succeeds)
    (ran : (threadPool F A).replay (.threadPoolCreate threadCount queueSize queue) steps =
      some last) :
    (∀ done p, done <+: steps →
      (threadPool F A).replay (.threadPoolCreate threadCount queueSize queue) done = some p →
      p.Released) ↔
      ∀ done l p, done ++ [l] <+: steps →
        (threadPool F A).replay (.threadPoolCreate threadCount queueSize queue) done = some p →
        p.Proceeds l := by
  refine System.safe_iff (fun p => guarded_released) (fun p l p' guarded ok proceeds moved => ?_)
    (fun p l p' guarded ok stops moved => ?_) succeed
    (created_guarded threadCount queueSize queue) ran
  · exact effect_guarded guarded proceeds (step_effect ok moved)
  · obtain ⟨c, leaked⟩ := effect_leaks guarded stops (step_effect ok moved)
    exact leaked.not_released

/-- The pool is shut down while its worker is still to get `lock_`. -/
def oneShutdown : List (PoolStep Unit Unit) :=
  [.destroy 0 .gracefulShutdown, .destroyLock 0 true, .shutDown 0 true true]

/-- A second request comes while the first one waits for the worker. -/
def twoShutdowns : List (PoolStep Unit Unit) :=
  oneShutdown ++ [.destroy 1 .gracefulShutdown, .destroyLock 1 true, .shutDown 1 true true]

theorem oneShutdown_released :
    (∀ done p, done <+: oneShutdown →
      (threadPool Unit Unit).replay (.threadPoolCreate 1 1 []) done = some p → p.Released) ↔
      ∀ done l p, done ++ [l] <+: oneShutdown →
        (threadPool Unit Unit).replay (.threadPoolCreate 1 1 []) done = some p → p.Proceeds l := by
  obtain ⟨last, ran⟩ := Option.isSome_iff_exists.mp
    (show ((threadPool Unit Unit).replay (.threadPoolCreate 1 1 []) oneShutdown).isSome = true
      from rfl)
  exact released_iff 1 1 [] (by simp [oneShutdown, PoolStep.Succeeds]) ran

theorem twoShutdowns_not_released :
    ¬ ∀ steps : List (PoolStep Unit Unit), (∀ l ∈ steps, l.Succeeds) →
      ∀ p, (threadPool Unit Unit).replay (.threadPoolCreate 1 1 []) steps = some p → p.Released := by
  intro released
  obtain ⟨p, ran⟩ := Option.isSome_iff_exists.mp
    (show ((threadPool Unit Unit).replay (.threadPoolCreate 1 1 []) twoShutdowns).isSome = true
      from rfl)
  have left : ((threadPool Unit Unit).replay (.threadPoolCreate 1 1 []) twoShutdowns).map
      (fun p => (p.lock, p.calls 1)) =
        some (.held (.call 1), .destroyReturned kThreadPoolShutdown) := rfl
  rw [ran, Option.map_some, Option.some.injEq, Prod.mk.injEq] at left
  have succeed : ∀ l ∈ twoShutdowns, l.Succeeds := by
    simp [twoShutdowns, oneShutdown, PoolStep.Succeeds]
  refine (released twoShutdowns succeed p ran).returned 1 ?_ left.1
  rw [left.2]
  trivial

end ThreadPool

end WebServer
