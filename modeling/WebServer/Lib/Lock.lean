import Mathlib.Logic.Basic

/-! # Locks

A lock has at most one holder, and a thread is inside a section that the lock guards exactly while it
is the holder. The rules say how that is kept when a thread acquires the lock and enters, when it
leaves and releases, and when nobody does either.
-/

namespace WebServer.Lib

variable {Thread : Type}

/-- Whoever holds the lock is inside, and nobody else. -/
def Guarded (holder : Option Thread) (inside : Thread → Prop) : Prop :=
  ∀ o, inside o ↔ holder = some o

/-- Only `o` can have entered or left. -/
def OnlyMoves (o : Thread) (inside inside' : Thread → Prop) : Prop :=
  ∀ o', o' ≠ o → (inside' o' ↔ inside o')

namespace Guarded

variable {holder : Option Thread} {inside inside' : Thread → Prop} {o : Thread}

theorem none_iff : Guarded none inside ↔ ∀ o, ¬ inside o :=
  forall_congr' fun _ => iff_false_right nofun

theorem acquire (guarded : Guarded none inside) (others : OnlyMoves o inside inside')
    (enters : inside' o) : Guarded (some o) inside' := by
  intro o'
  by_cases same : o' = o
  · subst same
    exact iff_of_true enters rfl
  · rw [others o' same, guarded o']
    exact iff_of_false nofun fun here => same (Option.some.inj here).symm

theorem release (guarded : Guarded holder inside) (others : OnlyMoves o inside inside')
    (was : inside o) (leaves : ¬ inside' o) : Guarded none inside' := by
  intro o'
  by_cases same : o' = o
  · subst same
    exact iff_of_false leaves nofun
  · rw [others o' same, guarded o', (guarded o).mp was]
    exact iff_of_false (fun here => same (Option.some.inj here).symm) nofun

theorem stay (guarded : Guarded holder inside) (others : OnlyMoves o inside inside')
    (outside : ¬ inside o) (outside' : ¬ inside' o) : Guarded holder inside' := by
  intro o'
  by_cases same : o' = o
  · subst same
    rw [← guarded o']
    exact iff_of_false outside' outside
  · rw [others o' same, guarded o']

end Guarded

end WebServer.Lib
