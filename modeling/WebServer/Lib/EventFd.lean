import Mathlib.Algebra.Group.Nat.Defs

/-! # Edge-triggered event counters

A non-blocking event counter that an edge-triggered poller watches for reading. A write adds one and
raises an edge, a read takes the whole count, and the poller reports an edge only while the counter
is positive. A counter whose every count has an edge that is not yet reported is `Armed`.
-/

namespace WebServer.Lib

structure EventFd where
  counter : Nat
  /-- An edge was raised that the poller has not reported yet. -/
  edge : Bool
  deriving Repr, DecidableEq

namespace EventFd

/-- The largest value that the counter takes. -/
def limit : Nat := 2 ^ 64 - 2

def new : EventFd := ⟨0, false⟩

/-- Add one. At the limit the write fails with `EAGAIN`. -/
def write (e : EventFd) : EventFd :=
  if e.counter < limit then ⟨e.counter + 1, true⟩ else e

/-- Take the count. A raised edge stays on the poller's list. -/
def read (e : EventFd) : EventFd := { e with counter := 0 }

/-- The poller reports the edge, if there is something to read. -/
def report (e : EventFd) : Option EventFd :=
  if e.edge && 0 < e.counter then some { e with edge := false } else none

/-- A new registration looks at the counter again. -/
def register (e : EventFd) : EventFd := { e with edge := e.edge || 0 < e.counter }

/-- Something can be read and the poller is going to say so. -/
def Signalled (e : EventFd) : Prop := 0 < e.counter ∧ e.edge = true

/-- The poller is going to report whatever can be read. -/
def Armed (e : EventFd) : Prop := 0 < e.counter → e.edge = true

instance (e : EventFd) : Decidable e.Signalled := inferInstanceAs (Decidable (_ ∧ _))

variable {e e' : EventFd}

theorem armed_new : new.Armed := fun positive => absurd positive (Nat.lt_irrefl 0)

theorem armed_read (e : EventFd) : e.read.Armed := fun positive => absurd positive (Nat.lt_irrefl 0)

theorem Armed.write (armed : e.Armed) : e.write.Armed := by
  unfold EventFd.write
  split
  · intro _
    rfl
  · exact armed

theorem write_positive (e : EventFd) : 0 < e.write.counter := by
  unfold write
  split
  · exact Nat.succ_pos _
  · rename_i full
    have := Nat.not_lt.mp full
    unfold limit at this
    omega

theorem report_isSome : e.report.isSome ↔ e.Signalled := by
  unfold report Signalled
  grind

theorem Armed.signalled (armed : e.Armed) (positive : 0 < e.counter) : e.Signalled :=
  ⟨positive, armed positive⟩

end EventFd

end WebServer.Lib
