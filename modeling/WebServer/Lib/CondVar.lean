import Mathlib.Logic.Function.Basic

/-! # Condition variables

A thread that waits at a condition variable sleeps until a signal picks it or a broadcast comes. Two
rules say that no wake-up is lost. If threads fall asleep only while `P` does not hold and whatever
makes it hold broadcasts, nobody sleeps while it holds; if whatever makes it hold signals, somebody is
awake.
-/

namespace WebServer.Lib

/-- Where a thread stands at a condition variable. -/
inductive Standing where
  /-- It does not wait. -/
  | away
  | asleep
  /-- It waits and may go on. -/
  | woken
  deriving Repr, DecidableEq

/-- A condition variable, by what it is to each thread. -/
abbrev CondVar (Thread : Type) := Thread → Standing

namespace CondVar

variable {Thread : Type} {v v' : CondVar Thread} {threads : List Thread} {t u : Thread}
  {P P' : Prop}

/-- Nobody waits. -/
def new : CondVar Thread := fun _ => .away

def broadcast (v : CondVar Thread) : CondVar Thread := fun t =>
  match v t with
  | .away => .away
  | .asleep | .woken => .woken

/-- A signal picks a thread that sleeps, if one does. -/
def Picks (v : CondVar Thread) (threads : List Thread) : Option Thread → Prop
  | none => ∀ t ∈ threads, v t ≠ .asleep
  | some t => t ∈ threads ∧ v t = .asleep

/-- Nobody sleeps while `P` holds. -/
def NoneAsleep (v : CondVar Thread) (P : Prop) : Prop := P → ∀ t, v t ≠ .asleep

/-- Somebody is awake while `P` holds. -/
def SomeAwake (v : CondVar Thread) (threads : List Thread) (P : Prop) : Prop :=
  P → ∃ t ∈ threads, v t ≠ .asleep

theorem picks_exists (v : CondVar Thread) (threads : List Thread) :
    ∃ picked, v.Picks threads picked := by
  by_cases sleeper : ∃ t ∈ threads, v t = .asleep
  · obtain ⟨t, here, asleep⟩ := sleeper
    exact ⟨some t, here, asleep⟩
  · exact ⟨none, fun t here asleep => sleeper ⟨t, here, asleep⟩⟩

theorem broadcast_awake (v : CondVar Thread) (t : Thread) : v.broadcast t ≠ .asleep := by
  unfold broadcast
  cases v t <;> simp

theorem broadcast_away : v.broadcast t = .away ↔ v t = .away := by
  unfold broadcast
  cases v t <;> simp

theorem NoneAsleep.broadcast : v.broadcast.NoneAsleep P := fun _ => v.broadcast_awake

theorem NoneAsleep.step (safe : v.NoneAsleep P) (weaker : P' → P)
    (asleep : ∀ t, v' t = .asleep → v t = .asleep) : v'.NoneAsleep P' :=
  fun holds t sleeps => safe (weaker holds) t (asleep t sleeps)

theorem SomeAwake.step (safe : v.SomeAwake threads P) (weaker : P' → P)
    (asleep : ∀ t, v' t = .asleep → v t = .asleep) : v'.SomeAwake threads P' := by
  intro holds
  obtain ⟨t, here, awake⟩ := safe (weaker holds)
  exact ⟨t, here, fun sleeps => awake (asleep t sleeps)⟩

variable [DecidableEq Thread]

/-- A thread begins to wait. -/
def sleep (v : CondVar Thread) (t : Thread) : CondVar Thread := Function.update v t .asleep

/-- A thread's wait is over. -/
def leave (v : CondVar Thread) (t : Thread) : CondVar Thread := Function.update v t .away

/-- A signal wakes the thread it picks. -/
def signal (v : CondVar Thread) : Option Thread → CondVar Thread
  | none => v
  | some t => Function.update v t .woken

instance (v : CondVar Thread) (threads : List Thread) (picked : Option Thread) :
    Decidable (v.Picks threads picked) :=
  match picked with
  | none => inferInstanceAs (Decidable (∀ t ∈ threads, v t ≠ .asleep))
  | some t => inferInstanceAs (Decidable (t ∈ threads ∧ v t = .asleep))

theorem leave_asleep (asleep : v.leave u t = .asleep) : v t = .asleep := by
  by_cases same : t = u
  · rw [leave, same, Function.update_self] at asleep
    cases asleep
  · rwa [leave, Function.update_of_ne same] at asleep

theorem signal_away {picked : Option Thread} (picks : v.Picks threads picked) :
    v.signal picked t = .away ↔ v t = .away := by
  cases picked with
  | none => exact Iff.rfl
  | some u =>
      by_cases same : t = u
      · rw [signal, same, Function.update_self, picks.2]
        exact iff_of_false nofun nofun
      · rw [signal, Function.update_of_ne same]

theorem SomeAwake.signal {picked : Option Thread} (some_thread : threads ≠ [])
    (picks : v.Picks threads picked) : (v.signal picked).SomeAwake threads P := by
  intro _
  cases picked with
  | none =>
      obtain ⟨t, here⟩ := List.exists_mem_of_ne_nil threads some_thread
      exact ⟨t, here, picks t here⟩
  | some t =>
      refine ⟨t, picks.1, ?_⟩
      rw [CondVar.signal, Function.update_self]
      nofun

end CondVar

end WebServer.Lib
