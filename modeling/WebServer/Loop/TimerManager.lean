import Mathlib.Data.List.MinMax
import WebServer.Lib.LazyDeletion
import WebServer.Loop.Server

/-! # Timers that are cleared but stay in the queue

`TimerManager` never removes a cleared node: it waits until it is on top. A manager that removes a
timer as soon as it is cleared, and on a sweep closes what is due at the last reading of the clock,
closes the same connections.
-/

namespace WebServer

open Lib

/-- `TimerManager`, with the `timer_` of every connection. -/
structure TimerManager where
  timerNodeQueue : List TimerNode
  /-- The number of timer nodes made. -/
  nodes : Nat
  timer : ConnId → Option Nat

/-- What one run of `HandleExpiredEvent` did. -/
structure Expiry where
  timerNodeQueue : List TimerNode
  /-- What `IsValid` read off the clock, oldest first. -/
  readings : List Nat
  /-- The nodes taken out, as they were in the queue. -/
  popped : List TimerNode

namespace TimerManager

def new : TimerManager where
  timerNodeQueue := []
  nodes := 0
  timer _ := none

/-- `AddTimer`, with `LinkTimer`. -/
def addTimer (m : TimerManager) (c : ConnId) (timeout : Nat) (now : Timeval) : TimerManager where
  timerNodeQueue := m.timerNodeQueue ++ [.new m.nodes c timeout now]
  nodes := m.nodes + 1
  timer := Function.update m.timer c (some m.nodes)

/-- `SeperateTimer` of a connection, which `Reset` repeats: `ClearReq` on the node it is linked to, if
    that still exists. -/
def seperateTimer (m : TimerManager) (c : ConnId) : TimerManager where
  timerNodeQueue := TimerNode.clearReqs (m.timer c).toList m.timerNodeQueue
  nodes := m.nodes
  timer := Function.update m.timer c none

/-- `HandleExpiredEvent`. Each turn of the loop comes with the position of the node on top and with
    the clock that `IsValid` meets in it. -/
def handleExpiredEvent : List TimerNode → (turns : List (Nat × Timeval)) → Option Expiry
  | queue, [] => if queue = [] then some ⟨[], [], []⟩ else none
  | queue, (i, now) :: turns =>
      match queue[i]? with
      | none => none
      | some top =>
          if TimerNode.IsTop queue top then
            if top.deleted then
              (handleExpiredEvent (queue.eraseIdx i) turns).map fun e =>
                { e with popped := top :: e.popped }
            else if (top.isValid now).1 then
              if turns = [] then some ⟨queue, [now.reading], []⟩ else none
            else
              (handleExpiredEvent (queue.eraseIdx i) turns).map fun e =>
                { e with readings := now.reading :: e.readings, popped := top :: e.popped }
          else none

end TimerManager

/-- The connections whose `HandleClose` the destructors of the popped nodes run. -/
def Expiry.closed (e : Expiry) : List ConnId := e.popped.filterMap TimerNode.spHttpData

/-- A timer that was not cleared. -/
structure EagerTimer where
  id : Nat
  conn : ConnId
  deadline : Nat
  deriving Repr, DecidableEq

/-- A manager that removes a timer when it is cleared. -/
structure EagerManager where
  timers : List EagerTimer
  nodes : Nat
  timer : ConnId → Option Nat

namespace EagerManager

def new : EagerManager where
  timers := []
  nodes := 0
  timer _ := none

def addTimer (e : EagerManager) (c : ConnId) (deadline : Nat) : EagerManager where
  timers := e.timers ++ [⟨e.nodes, c, deadline⟩]
  nodes := e.nodes + 1
  timer := Function.update e.timer c (some e.nodes)

def clear (e : EagerManager) (c : ConnId) : EagerManager where
  timers := e.timers.filter fun t => t.id ∉ (e.timer c).toList
  nodes := e.nodes
  timer := Function.update e.timer c none

/-- The connections that a sweep closes, given its last reading of the clock. -/
def closed (e : EagerManager) (last : Option Nat) : List ConnId :=
  (e.timers.filter fun t => dueAt last t.deadline).map EagerTimer.conn

def sweep (e : EagerManager) (last : Option Nat) : EagerManager :=
  { e with timers := e.timers.filter fun t => !dueAt last t.deadline }

end EagerManager

/-- An operation of the loop's thread on its timers. -/
inductive TimerOp where
  | addTimer (c : ConnId) (timeout : Nat) (now : Timeval)
  | seperateTimer (c : ConnId)
  | handleExpiredEvent (turns : List (Nat × Timeval))

/-- The times an operation meets. -/
def TimerOp.times : TimerOp → List Timeval
  | .addTimer _ _ now => [now]
  | .seperateTimer _ => []
  | .handleExpiredEvent turns => turns.map Prod.snd

structure SideBySide where
  lazy : TimerManager
  eager : EagerManager
  /-- The latest time met. -/
  now : Timeval

namespace SideBySide

def step (s : SideBySide) (op : TimerOp) : Option SideBySide :=
  let now := op.times.getLastD s.now
  match op with
  | .addTimer c timeout created =>
      some ⟨s.lazy.addTimer c timeout created, s.eager.addTimer c (created.reading + timeout), now⟩
  | .seperateTimer c => some ⟨s.lazy.seperateTimer c, s.eager.clear c, now⟩
  | .handleExpiredEvent turns =>
      (TimerManager.handleExpiredEvent s.lazy.timerNodeQueue turns).map fun e =>
        ⟨{ s.lazy with timerNodeQueue := e.timerNodeQueue },
          s.eager.sweep e.readings.getLast?, now⟩

/-- The times of an operation do not decrease and stay in the period of the last one. -/
def InOrder (s : SideBySide) (op : TimerOp) : Prop :=
  (s.now :: op.times).Pairwise Timeval.Before ∧ ∀ t ∈ op.times, t.sec / 10000 = s.now.sec / 10000

end SideBySide

/-- The timers of a loop, over all sequences of operations. -/
def sideBySide : System SideBySide TimerOp where
  init s := ∃ now, s = ⟨.new, .new, now⟩
  step := SideBySide.step

namespace TimerManager

/-- A run of `HandleExpiredEvent` is a sweep of a queue with dead items. -/
theorem handleExpiredEvent_sweeps {queue : List TimerNode} {turns : List (Nat × Timeval)} {e : Expiry}
    (ran : handleExpiredEvent queue turns = some e) :
    Sweeps TimerNode.expiredTime (fun n => !n.deleted) queue e.readings e.popped e.timerNodeQueue ∧
      e.readings.Sublist (turns.map fun turn => turn.2.reading) := by
  induction turns generalizing queue e with
  | nil =>
      rw [handleExpiredEvent] at ran
      split_ifs at ran with none
      cases ran
      subst none
      exact ⟨.empty, .slnil⟩
  | cons turn turns ih =>
      obtain ⟨i, now⟩ := turn
      rw [handleExpiredEvent] at ran
      cases found : queue[i]? with
      | none => simp [found] at ran
      | some top =>
          simp only [found] at ran
          have here := List.mem_of_getElem? found
          have split : queue.Perm (top :: queue.eraseIdx i) := by
            obtain ⟨inside, same⟩ := List.getElem?_eq_some_iff.mp found
            exact same ▸ (List.getElem_cons_eraseIdx_perm inside).symm
          split_ifs at ran with least dead valid last
          · obtain ⟨later, rest, rfl⟩ := Option.map_eq_some_iff.mp ran
            obtain ⟨sweeps, made⟩ := ih rest
            exact ⟨.dead split least (by simp [dead]) sweeps, made.cons _⟩
          · cases ran
            rw [TimerNode.isValid] at valid
            split_ifs at valid with early
            refine ⟨.stop here least (by simp [dead]) early, ?_⟩
            simp [last]
          · obtain ⟨later, rest, rfl⟩ := Option.map_eq_some_iff.mp ran
            obtain ⟨sweeps, made⟩ := ih rest
            have due := (TimerNode.isValid_iff top now).mp (Bool.eq_false_iff.mpr valid)
            exact ⟨.due split least (by simp [dead]) due sweeps, made.cons_cons _⟩

theorem exists_top {queue : List TimerNode} (some_node : queue ≠ []) :
    ∃ (i : Nat) (top : TimerNode), queue[i]? = some top ∧ TimerNode.IsTop queue top := by
  obtain ⟨top, least⟩ := Option.ne_none_iff_exists'.mp
    (mt (List.argmin_eq_none (f := TimerNode.expiredTime)).mp some_node)
  obtain ⟨i, found⟩ := List.mem_iff_getElem?.mp (List.argmin_mem least)
  exact ⟨i, top, found, fun m here => List.le_of_mem_argmin here least⟩

/-- Whatever the clock shows, `HandleExpiredEvent` comes to its end. -/
theorem handleExpiredEvent_ends (clock : Nat → Timeval) (queue : List TimerNode) :
    ∃ turns, (handleExpiredEvent queue turns).isSome = true ∧
      turns.map Prod.snd = (List.range turns.length).map clock := by
  induction size : queue.length generalizing queue clock with
  | zero => exact ⟨[], by simp [handleExpiredEvent, List.length_eq_zero_iff.mp size], rfl⟩
  | succ size' ih =>
      have some_node : queue ≠ [] := List.ne_nil_of_length_eq_add_one size
      obtain ⟨i, top, found, least⟩ := exists_top some_node
      obtain ⟨inside, -⟩ := List.getElem?_eq_some_iff.mp found
      have shorter : (queue.eraseIdx i).length = size' := by
        rw [List.length_eraseIdx_of_lt inside]
        omega
      obtain ⟨turns, ends, times⟩ := ih (fun k => clock (k + 1)) (queue.eraseIdx i) shorter
      have shifted : ((i, clock 0) :: turns).map Prod.snd =
          (List.range ((i, clock 0) :: turns).length).map clock := by
        rw [List.map_cons, times, List.length_cons, List.range_succ_eq_map, List.map_cons,
          List.map_map]
        rfl
      by_cases stops : top.deleted = false ∧ (top.isValid (clock 0)).1 = true
      · exact ⟨[(i, clock 0)], by simp [handleExpiredEvent, found, least, stops], rfl⟩
      · refine ⟨(i, clock 0) :: turns, ?_, shifted⟩
        simp only [handleExpiredEvent, found, if_pos least]
        split_ifs with dead valid last
        · rwa [Option.isSome_map]
        · rfl
        · exact absurd ⟨by simpa using dead, valid⟩ stops
        · rwa [Option.isSome_map]

end TimerManager

namespace SideBySide

/-- The timer of a node that still holds its connection. -/
def eagerTimer (n : TimerNode) : Option EagerTimer :=
  n.spHttpData.map fun c => ⟨n.id, c, n.expiredTime⟩

theorem eagerTimer_none {n : TimerNode} (none : n.spHttpData = none) : eagerTimer n = Option.none := by
  rw [eagerTimer, none, Option.map_none]

theorem eagerTimer_some {n : TimerNode} {c : ConnId} (holds : n.spHttpData = some c) :
    eagerTimer n = some ⟨n.id, c, n.expiredTime⟩ := by
  rw [eagerTimer, holds, Option.map_some]

/-- The nodes that were not cleared are the timers of the eager manager. -/
structure Agree (s : SideBySide) : Prop where
  timers : (s.lazy.timerNodeQueue.filterMap eagerTimer).Perm s.eager.timers
  nodes : s.lazy.nodes = s.eager.nodes
  timer : s.lazy.timer = s.eager.timer
  held : ∀ n ∈ s.lazy.timerNodeQueue, n.deleted = n.spHttpData.isNone

theorem eagerTimer_filter (p : Nat → Bool) (queue : List TimerNode) :
    (queue.filter fun n => p n.expiredTime).filterMap eagerTimer =
      (queue.filterMap eagerTimer).filter fun t => p t.deadline := by
  induction queue with
  | nil => rfl
  | cons n queue ih =>
      cases holds : n.spHttpData with
      | none =>
          rw [List.filterMap_cons_none (eagerTimer_none holds), ← ih, List.filter_cons]
          split_ifs
          · exact List.filterMap_cons_none (eagerTimer_none holds)
          · rfl
      | some c =>
          rw [List.filterMap_cons_some (eagerTimer_some holds), List.filter_cons, List.filter_cons]
          split_ifs
          · rw [List.filterMap_cons_some (eagerTimer_some holds), ih]
          · exact ih

theorem eagerTimer_living {queue : List TimerNode}
    (held : ∀ n ∈ queue, n.deleted = n.spHttpData.isNone) :
    (queue.filter fun n => !n.deleted).filterMap eagerTimer = queue.filterMap eagerTimer := by
  induction queue with
  | nil => rfl
  | cons n queue ih =>
      have rest := ih fun m here => held m (List.mem_cons_of_mem n here)
      have same := held n List.mem_cons_self
      rw [List.filter_cons]
      split_ifs with living
      · rw [List.filterMap_cons, List.filterMap_cons, rest]
      · have none : n.spHttpData = none := by
          rw [← Option.isNone_iff_eq_none, ← same]
          simpa using living
        rw [rest, List.filterMap_cons_none (eagerTimer_none none)]

theorem closed_eq (popped : List TimerNode) :
    popped.filterMap TimerNode.spHttpData = (popped.filterMap eagerTimer).map EagerTimer.conn := by
  rw [List.map_filterMap]
  refine List.filterMap_congr fun n _ => ?_
  rw [eagerTimer, Option.map_map]
  exact Option.map_id'.symm

theorem clearReqs_timers (cleared : List Nat) (queue : List TimerNode) :
    (TimerNode.clearReqs cleared queue).filterMap eagerTimer =
      (queue.filterMap eagerTimer).filter fun t => t.id ∉ cleared := by
  induction queue with
  | nil => rfl
  | cons n queue ih =>
      have split : TimerNode.clearReqs cleared (n :: queue) =
          (if n.id ∈ cleared then n.clearReq else n) :: TimerNode.clearReqs cleared queue := rfl
      rw [split]
      by_cases gone : n.id ∈ cleared
      · rw [if_pos gone, List.filterMap_cons_none rfl, ih]
        cases holds : n.spHttpData with
        | none => rw [List.filterMap_cons_none (eagerTimer_none holds)]
        | some c =>
            rw [List.filterMap_cons_some (eagerTimer_some holds),
              List.filter_cons_of_neg (by simpa using gone)]
      · rw [if_neg gone]
        cases holds : n.spHttpData with
        | none =>
            rw [List.filterMap_cons_none (eagerTimer_none holds),
              List.filterMap_cons_none (eagerTimer_none holds), ih]
        | some c =>
            rw [List.filterMap_cons_some (eagerTimer_some holds),
              List.filterMap_cons_some (eagerTimer_some holds),
              List.filter_cons_of_pos (by simpa using gone), ih]

theorem reading_le {t u : Timeval} (before : t.Before u) (period : u.sec / 10000 = t.sec / 10000) :
    t.reading ≤ u.reading := by
  have := t.normal
  have := u.normal
  unfold Timeval.Before at before
  unfold Timeval.reading
  omega

theorem readings_ordered {s : SideBySide} {turns : List (Nat × Timeval)} {e : Expiry}
    (ordered : s.InOrder (.handleExpiredEvent turns))
    (made : e.readings.Sublist (turns.map fun turn => turn.2.reading)) :
    e.readings.Pairwise (· ≤ ·) := by
  obtain ⟨before, period⟩ := ordered
  have times := (List.pairwise_cons.mp before).2
  have readings : ((turns.map Prod.snd).map Timeval.reading).Pairwise (· ≤ ·) := by
    refine List.pairwise_map.mpr (times.imp_of_mem fun {t u} here there earlier => ?_)
    exact reading_le earlier ((period u there).trans (period t here).symm)
  rw [List.map_map] at readings
  exact readings.sublist made

/-- What a sweep closes and what it leaves, given what the managers agreed on before. -/
theorem Agree.sweep {s : SideBySide} {turns : List (Nat × Timeval)} {e : Expiry} (agree : Agree s)
    (ordered : s.InOrder (.handleExpiredEvent turns))
    (ran : TimerManager.handleExpiredEvent s.lazy.timerNodeQueue turns = some e) :
    e.closed.Perm (s.eager.closed e.readings.getLast?) ∧
      (e.timerNodeQueue.filterMap eagerTimer).Perm
        (s.eager.sweep e.readings.getLast?).timers ∧
      ∀ n ∈ e.timerNodeQueue, n.deleted = n.spHttpData.isNone := by
  obtain ⟨sweeps, made⟩ := TimerManager.handleExpiredEvent_sweeps ran
  obtain ⟨out, left⟩ := sweeps.splits (readings_ordered ordered made)
  have whole := sweeps.perm
  have held_out : ∀ n ∈ e.popped, n.deleted = n.spHttpData.isNone := fun n here =>
    agree.held n (whole.mem_iff.mpr (List.mem_append_left _ here))
  have held_left : ∀ n ∈ e.timerNodeQueue, n.deleted = n.spHttpData.isNone := fun n here =>
    agree.held n (whole.mem_iff.mpr (List.mem_append_right _ here))
  have living : ∀ p : Nat → Bool,
      ((s.lazy.timerNodeQueue.filter fun n => !n.deleted).filter fun n =>
        p n.expiredTime).filterMap eagerTimer =
      (s.lazy.timerNodeQueue.filterMap eagerTimer).filter fun t => p t.deadline := by
    intro p
    rw [eagerTimer_filter, eagerTimer_living agree.held]
  refine ⟨?_, ?_, held_left⟩
  · rw [Expiry.closed, closed_eq, ← eagerTimer_living held_out]
    have timers := out.filterMap eagerTimer
    rw [living] at timers
    exact (timers.trans (agree.timers.filter _)).map EagerTimer.conn
  · rw [← eagerTimer_living held_left]
    have timers := left.filterMap eagerTimer
    rw [living fun deadline => !dueAt e.readings.getLast? deadline] at timers
    exact timers.trans (agree.timers.filter _)

theorem step_agree {s s' : SideBySide} {op : TimerOp} (agree : Agree s) (ordered : s.InOrder op)
    (moved : s.step op = some s') : Agree s' := by
  cases op with
  | addTimer c timeout created =>
      cases moved
      refine ⟨?_, congrArg (· + 1) agree.nodes, ?_, fun n here => ?_⟩
      · simp only [TimerManager.addTimer, EagerManager.addTimer, List.filterMap_append]
        rw [← agree.nodes]
        exact agree.timers.append_right _
      · simp only [TimerManager.addTimer, EagerManager.addTimer, agree.nodes, agree.timer]
      · rcases List.mem_append.mp here with before | added
        · exact agree.held n before
        · rw [List.mem_singleton.mp added]
          rfl
  | seperateTimer c =>
      cases moved
      refine ⟨?_, agree.nodes, ?_, fun n here => ?_⟩
      · simp only [TimerManager.seperateTimer, EagerManager.clear, clearReqs_timers, agree.timer]
        exact agree.timers.filter _
      · simp only [TimerManager.seperateTimer, EagerManager.clear, agree.timer]
      · obtain ⟨m, before, same⟩ := List.mem_map.mp here
        split at same
        · rw [← same]
          rfl
        · exact same ▸ agree.held m before
  | handleExpiredEvent turns =>
      obtain ⟨e, ran, same⟩ := Option.map_eq_some_iff.mp moved
      obtain ⟨-, left, held⟩ := agree.sweep ordered ran
      subst same
      exact ⟨left, agree.nodes, agree.timer, held⟩

theorem reached_agree {s : SideBySide} (reached : sideBySide.Reached InOrder s) : Agree s := by
  refine reached.invariant (P := Agree) ?_ fun s op s' agree ordered moved =>
    step_agree agree ordered moved
  rintro s ⟨now, rfl⟩
  exact ⟨.refl _, rfl, rfl, nofun⟩

/-- After any operations, a sweep closes the connections that the eager manager closes at the
    sweep's last reading; no node with a deadline up to that reading stays in the queue, no node at all
    where it makes none, and a node that was not cleared is taken out only when it has expired. -/
theorem sweep_eager {s : SideBySide} (reached : sideBySide.Reached InOrder s)
    {turns : List (Nat × Timeval)} (ordered : s.InOrder (.handleExpiredEvent turns)) {e : Expiry}
    (ran : TimerManager.handleExpiredEvent s.lazy.timerNodeQueue turns = some e) :
    e.closed.Perm (s.eager.closed e.readings.getLast?) ∧
      (∀ last, e.readings.getLast? = some last →
        ∀ n ∈ e.timerNodeQueue, last < n.expiredTime) ∧
      (e.readings = [] → e.timerNodeQueue = []) ∧
      ∀ n ∈ e.popped, n.deleted = false → ∃ reading ∈ e.readings, n.expiredTime ≤ reading := by
  obtain ⟨sweeps, made⟩ := TimerManager.handleExpiredEvent_sweeps ran
  refine ⟨((reached_agree reached).sweep ordered ran).1, fun last same n left => ?_, fun none_made => ?_,
    fun n out living => ?_⟩
  · exact sweeps.rest_not_due (readings_ordered ordered made) left (List.mem_of_getLast? same)
  · by_contra left
    exact sweeps.readings_ne_nil left none_made
  · exact sweeps.popped_due out (by simp [living])

/-- Two timers, of which the second is cleared. -/
def oneCleared : SideBySide where
  lazy := ((TimerManager.new.addTimer 0 2000 (TimerNode.second 1)).addTimer 1 2000
    (TimerNode.second 1)).seperateTimer 1
  eager := ((EagerManager.new.addTimer 0 ((TimerNode.second 1).reading + 2000)).addTimer 1
    ((TimerNode.second 1).reading + 2000)).clear 1
  now := TimerNode.second 1

theorem oneCleared_reached : sideBySide.Reached InOrder oneCleared := by
  let now := TimerNode.second 1
  let start : SideBySide := ⟨.new, .new, now⟩
  let one : SideBySide :=
    ⟨start.lazy.addTimer 0 2000 now, start.eager.addTimer 0 (now.reading + 2000), now⟩
  let two : SideBySide :=
    ⟨one.lazy.addTimer 1 2000 now, one.eager.addTimer 1 (now.reading + 2000), now⟩
  have begun : sideBySide.Reached InOrder start := .init ⟨_, rfl⟩
  have first : start.InOrder (.addTimer 0 2000 now) := ⟨by decide, by decide⟩
  have added : sideBySide.Reached InOrder one := begun.step first rfl
  have second : one.InOrder (.addTimer 1 2000 now) := ⟨by decide, by decide⟩
  have both : sideBySide.Reached InOrder two := added.step second rfl
  have third : two.InOrder (.seperateTimer 1) := ⟨by decide, by decide⟩
  exact both.step third rfl

/-- Two turns of a sweep, which take out the living node and then the cleared one. -/
def twoTurns : List (Nat × Timeval) := [(0, TimerNode.second 3), (0, TimerNode.second 3)]

theorem sweep_eager_oneCleared : ∃ e,
    TimerManager.handleExpiredEvent oneCleared.lazy.timerNodeQueue twoTurns = some e ∧
      e.closed = [0] ∧ e.popped.length = 2 ∧
      e.closed.Perm (oneCleared.eager.closed e.readings.getLast?) ∧
      (∀ last, e.readings.getLast? = some last →
        ∀ n ∈ e.timerNodeQueue, last < n.expiredTime) ∧
      (e.readings = [] → e.timerNodeQueue = []) ∧
      ∀ n ∈ e.popped, n.deleted = false → ∃ reading ∈ e.readings, n.expiredTime ≤ reading := by
  obtain ⟨e, ran, closed, popped⟩ : ∃ e,
      TimerManager.handleExpiredEvent oneCleared.lazy.timerNodeQueue twoTurns = some e ∧
        e.closed = [0] ∧ e.popped.length = 2 := ⟨_, rfl, rfl, rfl⟩
  have ordered : InOrder oneCleared (.handleExpiredEvent twoTurns) := ⟨by decide, by decide⟩
  exact ⟨e, ran, closed, popped, sweep_eager oneCleared_reached ordered ran⟩

end SideBySide

namespace Server

theorem pop_queue (ctl : Bool) (w : Server) (l : LoopId) (i : Nat) (n : TimerNode) :
    ((w.pop ctl l i n).loops l).timerNodeQueue = ((w.loops l).timerNodeQueue).eraseIdx i := by
  have erased : ((w.eraseTimer l i).loops l).timerNodeQueue =
      ((w.loops l).timerNodeQueue).eraseIdx i := by
    simp [eraseTimer]
  unfold pop
  dsimp only
  split
  · exact erased
  · rename_i c o _
    unfold handleClose epollDel
    by_cases same : l = o.loop
    · subst same
      simpa using erased
    · simpa [Function.update_of_ne same] using erased

/-- A turn of the server's sweep is a turn of `HandleExpiredEvent`: it ends the sweep and leaves the
    queue as it is, or it takes out the node on top and the sweep goes on. -/
theorem handleExpired_turn {w w' : Server} {l : LoopId} {i : Nat} {ctl : Bool}
    (turned : w.handleExpired ctl l i = some w') :
    let queue := (w.loops l).timerNodeQueue
    let queue' := (w'.loops l).timerNodeQueue
    queue' = queue ∧ (∃ turns e, TimerManager.handleExpiredEvent queue turns = some e ∧
        e.timerNodeQueue = queue' ∧ e.popped = []) ∨
      ∃ top readings, queue[i]? = some top ∧ ∀ turns e,
        TimerManager.handleExpiredEvent queue' turns = some e →
        TimerManager.handleExpiredEvent queue ((i, w.now) :: turns) =
          some { e with readings := readings ++ e.readings, popped := top :: e.popped } := by
  intro queue queue'
  unfold handleExpired at turned
  dsimp only at turned
  by_cases expired : (w.loops l).phase = .expired
  swap
  · rw [if_neg expired] at turned
    cases turned
  rw [if_pos expired] at turned
  cases found : (w.loops l).timerNodeQueue[i]? with
  | none =>
      simp only [found] at turned
      split_ifs at turned with empty
      cases turned
      have same : queue' = queue := by simp [queue, queue', setPhase]
      refine .inl ⟨same, [], ⟨[], [], []⟩, ?_, (same.trans empty).symm, rfl⟩
      simp [TimerManager.handleExpiredEvent, queue, empty]
  | some top =>
      simp only [found] at turned
      split_ifs at turned with least dead valid
      · cases turned
        refine .inr ⟨top, [], rfl, fun turns e ran => ?_⟩
        have left : queue' = queue.eraseIdx i := pop_queue ctl w l i top
        rw [left] at ran
        simp only [TimerManager.handleExpiredEvent, queue, found, if_pos least, dead, if_true]
        rw [ran]
        rfl
      · cases turned
        have same : queue' = queue := by simp [queue, queue', setPhase]
        refine .inl ⟨same, [(i, w.now)], ⟨queue, [w.now.reading], []⟩, ?_, same.symm, rfl⟩
        simp [TimerManager.handleExpiredEvent, queue, found, least, dead, valid]
      · cases turned
        refine .inr ⟨top, [w.now.reading], rfl, fun turns e ran => ?_⟩
        have left : queue' = queue.eraseIdx i := pop_queue ctl w l i _
        rw [left] at ran
        simp only [TimerManager.handleExpiredEvent, queue, found, if_pos least, dead, valid,
          Bool.false_eq_true, if_false]
        rw [ran]
        rfl

end Server

end WebServer
