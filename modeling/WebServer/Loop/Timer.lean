import Mathlib.Tactic.Linarith
import WebServer.Http.State

/-! # Timers

A timer node notes the clock when it is made, in milliseconds within a period of 10000 seconds. It
is never searched for: a node whose connection no longer wants it is neutralised in place and leaves
the queue when it gets to the top.
-/

namespace WebServer

/-- The address of an `HttpData` object, never reused for another one. -/
abbrev ConnId := Nat

/-- `struct timeval`. -/
structure Timeval where
  sec : Nat
  usec : Nat
  normal : usec < 1000000
  deriving Repr, DecidableEq

namespace Timeval

/-- The time in whole milliseconds. -/
def milliseconds (t : Timeval) : Nat := t.sec * 1000 + t.usec / 1000

/-- What a timer node reads off the clock. -/
def reading (t : Timeval) : Nat := t.sec % 10000 * 1000 + t.usec / 1000

/-- The clock does not go back. -/
def Before (t u : Timeval) : Prop := t.sec < u.sec ∨ t.sec = u.sec ∧ t.usec ≤ u.usec

instance (t u : Timeval) : Decidable (t.Before u) := inferInstanceAs (Decidable (_ ∨ _))

variable {t u v : Timeval}

theorem Before.refl (t : Timeval) : t.Before t := .inr ⟨rfl, le_rfl⟩

theorem Before.trans (first : t.Before u) (second : u.Before v) : t.Before v := by
  unfold Before at *
  omega

theorem Before.milliseconds (before : t.Before u) : t.milliseconds ≤ u.milliseconds := by
  have small := t.normal
  unfold Before at before
  unfold Timeval.milliseconds
  omega

theorem reading_eq (t : Timeval) : t.reading = t.milliseconds % 10000000 := by
  have small := t.normal
  unfold reading milliseconds
  omega

/-- A reading that has grown by `timeout` shows that at least `timeout` has passed, even when the
    period has wrapped in between. -/
theorem Before.elapsed (before : t.Before u) {timeout : Nat}
    (due : t.reading + timeout ≤ u.reading) : t.milliseconds + timeout ≤ u.milliseconds := by
  have order := before.milliseconds
  rw [reading_eq, reading_eq] at due
  omega

end Timeval

/-- `TimerNode`, known by its address. -/
structure TimerNode where
  id : Nat
  deleted : Bool
  expiredTime : Nat
  spHttpData : Option ConnId
  deriving Repr, DecidableEq

namespace TimerNode

/-- `TimerNode(request_data, timeout)`. -/
def new (id : Nat) (requestData : ConnId) (timeout : Nat) (now : Timeval) : TimerNode where
  id
  deleted := false
  expiredTime := now.reading + timeout
  spHttpData := some requestData

/-- `IsValid`; a node that is no longer valid gets deleted. -/
def isValid (n : TimerNode) (now : Timeval) : Bool × TimerNode :=
  if now.reading < n.expiredTime then (true, n) else (false, { n with deleted := true })

/-- `ClearReq`. -/
def clearReq (n : TimerNode) : TimerNode := { n with spHttpData := none, deleted := true }

/-- `ClearReq` on those of some nodes. -/
def clearReqs (cleared : List Nat) (queue : List TimerNode) : List TimerNode :=
  queue.map fun n => if n.id ∈ cleared then n.clearReq else n

/-- `timer_node_queue_.top()` may return this node. -/
def IsTop (queue : List TimerNode) (n : TimerNode) : Prop :=
  ∀ m ∈ queue, n.expiredTime ≤ m.expiredTime

instance (queue : List TimerNode) (n : TimerNode) : Decidable (IsTop queue n) :=
  inferInstanceAs (Decidable (∀ m ∈ queue, _))

theorem clearReqs_nil (queue : List TimerNode) : clearReqs [] queue = queue := by
  simp [clearReqs]

theorem clearReqs_ids (cleared : List Nat) (queue : List TimerNode) :
    (clearReqs cleared queue).map id = queue.map id := by
  unfold clearReqs
  rw [List.map_map]
  apply List.map_congr_left
  intro n _
  simp only [Function.comp_apply]
  split <;> rfl

theorem mem_clearReqs_holding {cleared : List Nat} {queue : List TimerNode} {n : TimerNode}
    {c : ConnId} (here : n ∈ clearReqs cleared queue) (holds : n.spHttpData = some c) :
    n ∈ queue ∧ n.id ∉ cleared := by
  obtain ⟨m, before, same⟩ := List.mem_map.mp here
  split at same
  · subst same
    cases holds
  · rename_i kept
    subst same
    exact ⟨before, kept⟩

theorem mem_clearReqs_kept {cleared : List Nat} {queue : List TimerNode} {n : TimerNode}
    (here : n ∈ queue) (kept : n.id ∉ cleared) : n ∈ clearReqs cleared queue :=
  List.mem_map.mpr ⟨n, here, if_neg kept⟩

/-- The period of the clock's readings, in milliseconds. -/
def period : Nat := 10000 * 1000

/-- How often the readings have started again from zero since `t`, at `u`. -/
def wraps (t u : Timeval) : Nat := u.sec / 10000 - t.sec / 10000

variable {created now : Timeval}

theorem wraps_eq (t u : Timeval) : wraps t u = u.milliseconds / period - t.milliseconds / period := by
  have := t.normal
  have := u.normal
  unfold wraps Timeval.milliseconds period
  omega

theorem isValid_iff (n : TimerNode) (now : Timeval) :
    (n.isValid now).1 = false ↔ n.expiredTime ≤ now.reading := by
  unfold isValid
  split_ifs with early
  · exact iff_of_false (by simp) (Nat.not_le.mpr early)
  · exact iff_of_true rfl (Nat.not_lt.mp early)

theorem isValid_new (id : Nat) (c : ConnId) (timeout : Nat) (created now : Timeval) :
    ((new id c timeout created).isValid now).1 = false ↔
      created.reading + timeout ≤ now.reading :=
  isValid_iff (new id c timeout created) now

theorem reading_grown_iff (order : created.Before now) (timeout : Nat) :
    created.reading + timeout ≤ now.reading ↔
      timeout + period * wraps created now ≤ now.milliseconds - created.milliseconds := by
  have elapsed := order.milliseconds
  have ordered := Nat.div_le_div_right elapsed (c := period)
  have before := Nat.div_add_mod created.milliseconds period
  have after := Nat.div_add_mod now.milliseconds period
  have wrapped : period * wraps created now + period * (created.milliseconds / period) =
      period * (now.milliseconds / period) := by
    rw [wraps_eq, ← Nat.mul_add, Nat.sub_add_cancel ordered]
  rw [Timeval.reading_eq, Timeval.reading_eq, show (10000000 : Nat) = period from rfl]
  omega

/-- `IsValid` reports a node expired exactly when its timeout has passed, exactly if the timeout has
    not passed or the time beyond it makes up for every wrap of the readings. -/
theorem expires_iff (id : Nat) (c : ConnId) (timeout : Nat) (created now : Timeval)
    (order : created.Before now) :
    (((new id c timeout created).isValid now).1 = false ↔
        timeout ≤ now.milliseconds - created.milliseconds) ↔
      now.milliseconds - created.milliseconds < timeout ∨
        timeout + period * wraps created now ≤ now.milliseconds - created.milliseconds := by
  rw [isValid_new, reading_grown_iff order]
  omega

/-- A full second. -/
def second (sec : Nat) : Timeval := ⟨sec, 0, by decide⟩

theorem expires_iff_later :
    (((new 0 7 2000 (second 100)).isValid (second 103)).1 = false ↔
        2000 ≤ (second 103).milliseconds - (second 100).milliseconds) ↔
      (second 103).milliseconds - (second 100).milliseconds < 2000 ∨
        2000 + period * wraps (second 100) (second 103) ≤
          (second 103).milliseconds - (second 100).milliseconds :=
  expires_iff 0 7 2000 (second 100) (second 103) (by decide)

/-- A node made a second before the readings wrap is still valid a second after its timeout. -/
theorem wrapped_stays_valid :
    ¬ (((new 0 7 2000 (second 9999)).isValid (second 10002)).1 = false ↔
      2000 ≤ (second 10002).milliseconds - (second 9999).milliseconds) := by
  decide

end TimerNode

end WebServer
