import Mathlib.Data.List.Nodup
import Mathlib.Tactic.Tauto
import WebServer.Loop.Ownership

/-! # Every step keeps the ownership of connections

What follows for every run: a connection has one live timer node at most, it is closed once, and by
a timer only when its time is over; and a channel that a loop dispatches belongs to a connection
that is alive and has the event's descriptor.
-/

namespace WebServer

open Lib

namespace Server

variable {w w' : Server} {l : LoopId} {c : ConnId} {o o₁ : Conn}

/-- A loop's thread moves on while it has no functor to run. -/
theorem LoopSound.move {loop : IoLoop} (sound : LoopSound w l loop) {phase : IoPhase}
    {functors : List ConnId} {interest : Nat → Option Mask} (still : loop.toRun = [])
    (idle : IoLoop.toRun { loop with phase, functors, interest } = [])
    (ready : ∀ {fd c}, (fd, c) ∈ IoLoop.ready { loop with phase, functors, interest } →
      loop.fd2channel fd = some c)
    (distinct : ((IoLoop.ready { loop with phase, functors, interest }).map Prod.fst).Nodup) :
    LoopSound w l { loop with phase, functors, interest } := by
  have same : IoLoop.queued { loop with phase, functors, interest } = loop.queued := by
    rw [IoLoop.queued, IoLoop.queued, idle, still]
  refine { sound with
    queued := ?queued, once := ?once, running := ?running, ready := fun here => ready here,
    distinct }
  case queued =>
    intro c waiting
    exact sound.queued (same ▸ waiting)
  case once =>
    rw [same]
    exact sound.once
  case running =>
    rw [idle]
    exact List.nil_subset _

theorem LoopSound.cleared {loop : IoLoop} (sound : LoopSound w l loop) (cleared : List Nat) :
    LoopSound w l { loop with
      timerNodeQueue := TimerNode.clearReqs cleared loop.timerNodeQueue } := by
  refine { sound with timed := ?timed, ids := ?ids, numbered := ?numbered }
  case timed =>
    intro n c waiting holds
    exact sound.timed (TimerNode.mem_clearReqs_holding waiting holds).1 holds
  case ids =>
    rw [TimerNode.clearReqs_ids]
    exact sound.ids
  case numbered =>
    intro n waiting
    have here : n.id ∈ loop.timerNodeQueue.map TimerNode.id := by
      rw [← TimerNode.clearReqs_ids cleared]
      exact List.mem_map_of_mem waiting
    obtain ⟨m, before, same⟩ := List.mem_map.mp here
    rw [← same]
    exact sound.numbered before

theorem Called.clearTimers (called : Called w c o) (cleared : List Nat) :
    Called (w.clearTimers o.loop cleared) c o := by
  unfold Server.clearTimers
  refine ⟨called.here, ?_, ?_⟩
  · rw [setLoop_loops, Function.update_self]
    exact called.queued
  · rw [setLoop_loops, Function.update_self]
    exact called.ready

theorem clearTimers_queue (w : Server) (l : LoopId) (cleared : List Nat) :
    ((w.clearTimers l cleared).loops l).timerNodeQueue =
      TimerNode.clearReqs cleared (w.loops l).timerNodeQueue := by
  unfold Server.clearTimers
  rw [setLoop_loops, Function.update_self]

theorem Sound.clearTimers (sound : Sound w) (l : LoopId) (cleared : List Nat) :
    Sound (w.clearTimers l cleared) :=
  sound.setLoop ((sound.loops l).cleared cleared)

theorem dispatched_handled {e : Event} {h : Handling} (o : Conn)
    (running : o.http.connectionState ≠ .hDisconnected)
    (ran : (o.http.polled e.revents).handleEvents (kernel e) = .ok h) :
    Handled o { o with http := { h.http with cleared := [] } } := by
  have dispatched := (HttpData.handleEvents_dispatched ran).1
  exact ⟨rfl, dispatched.fd, dispatched.channelFd, rfl, running, dispatched.open running, rfl,
    dispatched.timer.imp And.left And.left⟩

theorem Sound.still_linked (sound : Sound w) (here : w.objects c = some o) {e : Event}
    {h : Handling} (ran : (o.http.polled e.revents).handleEvents (kernel e) = .ok h)
    {n : TimerNode}
    (waiting : n ∈ ((w.clearTimers o.loop h.http.cleared).loops o.loop).timerNodeQueue)
    (holds : n.spHttpData = some c) : h.http.timer = some n.id := by
  rw [clearTimers_queue] at waiting
  obtain ⟨before, kept⟩ := TimerNode.mem_clearReqs_holding waiting holds
  obtain ⟨p, there, -, timed⟩ := (sound.loops o.loop).timed before holds
  rw [here] at there
  cases there
  rcases (HttpData.handleEvents_dispatched ran).1.timer with ⟨same, -⟩ | ⟨-, detached⟩
  · exact same.trans timed.link
  · have link : (o.http.polled e.revents).timer = some n.id := timed.link
    rw [detached, link] at kept
    exact absurd (List.mem_append_right _ List.mem_cons_self) kept

theorem Sound.untimed (sound : Sound w) (here : w.objects c = some o) {e : Event} {h : Handling}
    (ran : (o.http.polled e.revents).handleEvents (kernel e) = .ok h)
    (asked : h.request ≠ .none) : Untimed (w.clearTimers o.loop h.http.cleared) c o := by
  intro n waiting holds
  have link := sound.still_linked here ran waiting holds
  rw [(HttpData.handleEvents_dispatched ran).2 asked] at link
  cases link

theorem Sound.fault (sound : Sound w) (fault : Fault) :
    Sound { w with crashed := some (.fault fault) } :=
  { sound with loops := fun l => { sound.loops l with }, live := by simp }

theorem Sound.handleEvents (sound : Sound w) (called : Called w c o)
    (running : o.http.connectionState ≠ .hDisconnected) (ctl : Bool) (e : Event) :
    Sound (handleEvents ctl w c e) := by
  unfold Server.handleEvents
  rw [called.here]
  dsimp only
  split
  · exact sound.fault _
  · rename_i h ran
    have handled := dispatched_handled o running ran
    have cleared := sound.clearTimers o.loop h.http.cleared
    have called' := called.clearTimers h.http.cleared
    split
    · exact cleared.setConn called' handled fun n => sound.still_linked called.here ran
    · rename_i timeout asked
      exact cleared.epollMod called' handled
        (sound.untimed called.here ran (by simp [asked])) ctl timeout
    · rename_i asked
      refine cleared.handleClose called' handled
        (sound.untimed called.here ran (by simp [asked])) ctl ?_
      intro last now absent
      cases absent

/-- A dispatch is about a connection that is registered, alive and waits for nothing else. -/
theorem dispatch_cases (sound : Sound w) {ctl : Bool} {e : Event}
    (moved : w.dispatch ctl l e = some w') :
    ∃ c o ret, (w.loops o.loop).phase = .events ((o.http.fd, c) :: ret) ∧ o.loop = l ∧
      (w.loops o.loop).fd2channel o.http.fd = some c ∧
      o.http.connectionState ≠ .hDisconnected ∧ Sound (w.setPhase o.loop (.events ret)) ∧
      Called (w.setPhase o.loop (.events ret)) c o ∧
      w' = (w.setPhase o.loop (.events ret)).handleEvents ctl c e := by
  unfold Server.dispatch at moved
  split at moved
  · rename_i fd c ret phase
    cases moved
    have before := sound.loops l
    have ready_eq : (w.loops l).ready = (fd, c) :: ret := by simp only [IoLoop.ready, phase]
    have distinct := before.distinct
    rw [ready_eq, List.map_cons, List.nodup_cons] at distinct
    have still : (w.loops l).toRun = [] := by simp only [IoLoop.toRun, phase]
    have stored := before.ready (ready_eq ▸ List.mem_cons_self)
    obtain ⟨o, here, rfl, rfl, running⟩ := before.registered (before.channels stored)
    have later : LoopSound w o.loop { w.loops o.loop with phase := .events ret } := by
      refine before.move still rfl ?_ distinct.2
      intro fd' d listed
      exact before.ready (ready_eq ▸ List.mem_cons_of_mem _ listed)
    refine ⟨c, o, ret, phase, rfl, stored, running, sound.setLoop later, ⟨here, ?_, ?_⟩, rfl⟩
    · rw [setPhase, setLoop_loops, Function.update_self]
      intro waiting
      have waiting : c ∈ (w.loops o.loop).queued := by
        rw [IoLoop.queued, still]
        exact waiting
      obtain ⟨p, there, -, -, -, -, unregistered⟩ := before.queued waiting
      rw [here] at there
      cases there
      exact unregistered (before.channels stored)
    · rw [setPhase, setLoop_loops, Function.update_self]
      exact distinct.1
  · cases moved

theorem Sound.dispatch (sound : Sound w) {ctl : Bool} {e : Event}
    (moved : w.dispatch ctl l e = some w') : Sound w' := by
  obtain ⟨c, o, ret, -, rfl, -, running, later, called, rfl⟩ := dispatch_cases sound moved
  exact later.handleEvents called running ctl e

theorem polled_sublist (table : Nat → Option ConnId) (reported : List Nat) :
    ((reported.filterMap fun fd => (table fd).map fun c => (fd, c)).map Prod.fst).Sublist
      reported := by
  induction reported with
  | nil => exact .slnil
  | cons fd rest ih =>
      rw [List.filterMap_cons]
      cases table fd with
      | none => exact ih.cons fd
      | some c => exact ih.cons_cons fd

theorem Sound.poll (sound : Sound w) {reported : List Nat} {other : Bool}
    (moved : w.poll l reported other = some w') : Sound w' := by
  unfold Server.poll at moved
  dsimp only at moved
  split at moved
  · rename_i allowed
    obtain ⟨phase, distinct⟩ := allowed
    cases moved
    have before := sound.loops l
    have sub := polled_sublist (w.loops l).fd2channel reported
    have still : (w.loops l).toRun = [] := by simp only [IoLoop.toRun, phase]
    generalize listing : (reported.filterMap fun fd =>
      ((w.loops l).fd2channel fd).map fun c => (fd, c)) = ret at sub
    have listed : ∀ {fd c}, (fd, c) ∈ ret → (w.loops l).fd2channel fd = some c := by
      intro fd c here
      rw [← listing, List.mem_filterMap] at here
      obtain ⟨fd', -, found⟩ := here
      obtain ⟨d, stored, same⟩ := Option.map_eq_some_iff.mp found
      cases same
      exact stored
    refine sound.setLoop (before.move still ?_ ?_ ?_)
    · by_cases empty : ret = [] ∧ other = false
      · rw [if_pos empty]
        rfl
      · rw [if_neg empty]
        rfl
    · intro fd c here
      by_cases empty : ret = [] ∧ other = false
      · rw [if_pos empty] at here
        cases here
      · rw [if_neg empty] at here
        exact listed here
    · by_cases empty : ret = [] ∧ other = false
      · rw [if_pos empty]
        exact List.nodup_nil
      · rw [if_neg empty]
        exact sub.nodup distinct
  · cases moved

theorem Sound.swap (sound : Sound w) (moved : w.swap l = some w') : Sound w' := by
  unfold Server.swap at moved
  dsimp only at moved
  split at moved
  · rename_i phase
    cases moved
    have before := sound.loops l
    have queued_eq : (w.loops l).queued = (w.loops l).pendingFunctors := by
      simp only [IoLoop.queued, IoLoop.toRun, phase, List.append_nil]
    refine sound.setLoop { before with
      queued := ?queued, once := ?once, running := ?running, ready := ?ready,
      distinct := List.nodup_nil }
    case queued =>
      intro c waiting
      exact before.queued (queued_eq ▸ waiting)
    case once => exact queued_eq ▸ before.once
    case running => exact List.Subset.refl _
    case ready =>
      intro fd c here
      cases here
  · cases moved

theorem Sound.setEvents (sound : Sound w) (called : Called w c o)
    (running : o.http.connectionState ≠ .hDisconnected) :
    Handled o { o with http := o.http.setEvents kDefaultEvent } :=
  ⟨rfl, rfl, rfl, (sound.object called.here).2.1, running, running, rfl, .inl rfl⟩

theorem Sound.newEvent (sound : Sound w) (called : Called w c o) (untimed : Untimed w c o)
    (running : o.http.connectionState ≠ .hDisconnected) (ctl : Bool) :
    Sound (newEvent ctl w c) := by
  unfold Server.newEvent
  rw [called.here]
  exact sound.epollAdd called (sound.setEvents called running) untimed ctl _

/-- A functor is about a connection that is queued once and not registered yet. -/
theorem runFunctor_cases (sound : Sound w) {ctl : Bool} (moved : w.runFunctor ctl l = some w') :
    (∃ c o rest, o.loop = l ∧ o.http.connectionState ≠ .hDisconnected ∧ o.http.outBuffer = [] ∧
      Sound (w.setPhase o.loop (.functors rest)) ∧
      Called (w.setPhase o.loop (.functors rest)) c o ∧
      Untimed (w.setPhase o.loop (.functors rest)) c o ∧
      w' = (w.setPhase o.loop (.functors rest)).newEvent ctl c) ∨
    (w.loops l).toRun = [] ∧
      w' = w.setLoop l { w.loops l with phase := .expired, functors := [] } := by
  unfold Server.runFunctor at moved
  have before := sound.loops l
  split at moved
  · rename_i c rest phase
    cases moved
    left
    have queued_eq : (w.loops l).queued = (w.loops l).pendingFunctors ++ c :: rest := by
      simp only [IoLoop.queued, IoLoop.toRun, phase]
    have toRun_eq : (w.loops l).toRun = c :: rest := by simp only [IoLoop.toRun, phase]
    have tail : rest.Sublist (c :: rest) := List.sublist_cons_self c rest
    have once := before.once
    rw [queued_eq] at once
    obtain ⟨o, here, rfl, unlinked, running, empty, -⟩ :=
      before.queued (c := c) (queued_eq ▸ List.mem_append_right _ List.mem_cons_self)
    have later : LoopSound w o.loop { w.loops o.loop with phase := .functors rest } := by
      refine { before with
        queued := ?queued, once := ?once, running := ?running, ready := ?ready,
        distinct := List.nodup_nil }
      case queued =>
        intro d waiting
        apply before.queued
        rw [queued_eq]
        exact (tail.append_left _).subset waiting
      case once => exact once.sublist (tail.append_left _)
      case running =>
        intro d waiting
        exact before.running (toRun_eq ▸ List.mem_cons_of_mem _ waiting)
      case ready =>
        intro fd d listed
        cases listed
    refine ⟨c, o, rest, rfl, running, empty, sound.setLoop later, ⟨here, ?_, ?_⟩, ?_, rfl⟩
    · rw [setPhase, setLoop_loops, Function.update_self]
      intro waiting
      have front := List.nodup_middle.mp once
      exact (List.nodup_cons.mp front).1 waiting
    · rw [setPhase, setLoop_loops, Function.update_self]
      exact List.not_mem_nil
    · intro n waiting holds
      rw [setPhase, setLoop_loops, Function.update_self] at waiting
      obtain ⟨p, there, -, timed⟩ := before.timed waiting holds
      rw [here] at there
      cases there
      exact absurd (unlinked.symm.trans timed.link) (by simp)
  · rename_i phase
    cases moved
    exact .inr ⟨by simp only [IoLoop.toRun, phase], rfl⟩
  · cases moved

theorem Sound.runFunctor (sound : Sound w) {ctl : Bool} (moved : w.runFunctor ctl l = some w') :
    Sound w' := by
  rcases runFunctor_cases sound moved with
    ⟨c, o, rest, rfl, running, -, later, called, untimed, rfl⟩ | ⟨still, rfl⟩
  · exact later.newEvent called untimed running ctl
  · refine sound.setLoop ((sound.loops l).move still rfl ?_ List.nodup_nil)
    intro fd c here
    cases here

/-- A node that was taken out of the queue has an address of its own. -/
theorem eraseIdx_apart {queue : List TimerNode} (ids : (queue.map TimerNode.id).Nodup) {i : Nat}
    {top n : TimerNode} (found : queue[i]? = some top) (left : n ∈ queue.eraseIdx i) :
    n ∈ queue ∧ n.id ≠ top.id := by
  induction queue generalizing i with
  | nil => cases found
  | cons m rest ih =>
      rw [List.map_cons, List.nodup_cons] at ids
      cases i with
      | zero =>
          obtain rfl := Option.some.inj found
          refine ⟨List.mem_cons_of_mem _ left, ?_⟩
          intro same
          exact ids.1 (same ▸ List.mem_map_of_mem left)
      | succ i =>
          have found : rest[i]? = some top := found
          rcases List.mem_cons.mp left with rfl | later
          · refine ⟨List.mem_cons_self, ?_⟩
            intro same
            exact ids.1 (same ▸ List.mem_map_of_mem (List.mem_of_getElem? found))
          · obtain ⟨here, apart⟩ := ih ids.2 found later
            exact ⟨List.mem_cons_of_mem _ here, apart⟩

theorem Sound.eraseTimer (sound : Sound w) (l : LoopId) (i : Nat) : Sound (w.eraseTimer l i) := by
  have sub := List.eraseIdx_sublist (w.loops l).timerNodeQueue i
  have before := sound.loops l
  exact sound.setLoop { before with
    timed := fun waiting holds => before.timed (sub.subset waiting) holds
    ids := before.ids.sublist (sub.map _)
    numbered := fun waiting => before.numbered (sub.subset waiting) }

/-- The node on top of the queue is destroyed when its time is over or its connection cleared it. It
    closes the connection that it still holds, which no other node holds. -/
theorem pop_cases (sound : Sound w) (expired : (w.loops l).phase = .expired) {i : Nat}
    {top n : TimerNode} (found : (w.loops l).timerNodeQueue[i]? = some top)
    (holding : n.spHttpData = top.spHttpData)
    (due : top.deleted = false → top.expiredTime ≤ w.now.reading) (ctl : Bool) :
    top.spHttpData = none ∧ pop ctl w l i n = w.eraseTimer l i ∨
      ∃ c o o₁ byTimer, top.spHttpData = some c ∧ o.loop = l ∧ Called (w.eraseTimer l i) c o ∧
        Handled o o₁ ∧ Untimed (w.eraseTimer l i) c o ∧ (CloseRecord.mk c byTimer).Due ∧
        pop ctl w l i n = handleClose ctl (w.eraseTimer l i) c o₁ byTimer := by
  have before := sound.loops l
  unfold Server.pop
  rw [holding]
  cases holds : top.spHttpData with
  | none => exact .inl ⟨rfl, rfl⟩
  | some c =>
      right
      obtain ⟨o, here, rfl, timed⟩ := before.timed (List.mem_of_getElem? found) holds
      have present : (w.eraseTimer o.loop i).objects c = some o := here
      simp only [Option.bind_some, present, Option.map_some]
      let timer := if o.http.timer = some n.id then none else o.http.timer
      refine ⟨c, o, { o with http := { o.http with timer } }, some (o.lastAdd, w.now), rfl, rfl,
        ⟨present, ?_, ?_⟩, ⟨rfl, rfl, rfl, (sound.object here).2.1, timed.running, timed.running,
        rfl, ?_⟩, ?_, ?_, rfl⟩
      · rw [Server.eraseTimer, setLoop_loops, Function.update_self]
        intro waiting
        obtain ⟨p, there, -, unlinked, -⟩ := before.queued waiting
        rw [here] at there
        cases there
        exact absurd (unlinked.symm.trans timed.link) (by simp)
      · rw [Server.eraseTimer, setLoop_loops, Function.update_self]
        simp [IoLoop.ready, expired]
      · by_cases own : o.http.timer = some n.id
        · exact .inr (if_pos own)
        · exact .inl (if_neg own)
      · intro m left still
        rw [Server.eraseTimer, setLoop_loops, Function.update_self] at left
        obtain ⟨waiting, apart⟩ := eraseIdx_apart before.ids found left
        obtain ⟨p, there, -, other⟩ := before.timed waiting still
        rw [here] at there
        cases there
        exact apart (Option.some.inj (other.link.symm.trans timed.link))
      · rintro last now same
        cases same
        obtain ⟨added, timeout, last, order, stamp⟩ := timed.added
        refine ⟨added, timeout, last, order.elapsed ?_⟩
        rw [← stamp]
        exact due timed.valid

/-- A turn of `HandleExpiredEvent` finds every node valid, which ends the sweep, or destroys the node
    on top. -/
theorem handleExpired_cases {ctl : Bool} {i : Nat} (moved : w.handleExpired ctl l i = some w') :
    (w.loops l).phase = .expired ∧ (w' = w.setPhase l .poll ∧
        (∀ n ∈ (w.loops l).timerNodeQueue, w.now.reading < n.expiredTime) ∨
      ∃ top n : TimerNode, (w.loops l).timerNodeQueue[i]? = some top ∧
        n.spHttpData = top.spHttpData ∧
        (top.deleted = false → top.expiredTime ≤ w.now.reading) ∧ w' = w.pop ctl l i n) := by
  unfold Server.handleExpired at moved
  dsimp only at moved
  split at moved
  · rename_i expired
    refine ⟨expired, ?_⟩
    split at moved
    · split at moved
      · rename_i empty
        cases moved
        exact .inl ⟨rfl, by simp [empty]⟩
      · cases moved
    · rename_i top found
      split at moved
      · rename_i isTop
        split at moved
        · rename_i deleted
          cases moved
          exact .inr ⟨top, top, found, rfl, fun fresh => absurd deleted (by simp [fresh]), rfl⟩
        · by_cases due : w.now.reading < top.expiredTime
          · simp only [TimerNode.isValid, if_pos due, if_true] at moved
            cases moved
            exact .inl ⟨rfl, fun n waiting => due.trans_le (isTop n waiting)⟩
          · simp only [TimerNode.isValid, if_neg due, Bool.false_eq_true, if_false] at moved
            cases moved
            exact .inr ⟨top, { top with deleted := true }, found, rfl,
              fun _ => Nat.not_lt.mp due, rfl⟩
      · cases moved
  · cases moved

theorem Sound.handleExpired (sound : Sound w) {ctl : Bool} {i : Nat}
    (moved : w.handleExpired ctl l i = some w') : Sound w' := by
  obtain ⟨expired, ⟨rfl, -⟩ | ⟨top, n, found, holding, due, rfl⟩⟩ := handleExpired_cases moved
  · refine sound.setLoop ((sound.loops l).move ?_ rfl ?_ List.nodup_nil)
    · simp only [IoLoop.toRun, expired]
    · intro fd c here
      cases here
  · rcases pop_cases sound expired found holding due ctl with
      ⟨-, same⟩ | ⟨c, o, o₁, byTimer, -, -, called, handled, untimed, due, same⟩
    · rw [same]
      exact sound.eraseTimer l i
    · rw [same]
      exact (sound.eraseTimer l i).handleClose called handled untimed ctl due

theorem Sound.tick (sound : Sound w) {now : Timeval} (later : w.now.Before now) :
    Sound { w with now } :=
  { sound with
    loops := fun l => (sound.loops l).frame (fun _ here => here) later le_rfl }

/-- A connection that was just accepted is queued. -/
theorem LoopSound.enqueue {v : Server} {loop : IoLoop} (sound : LoopSound w l loop)
    (here : w.objects c = some o) (own : o.loop = l) (unlinked : o.http.timer = none)
    (running : o.http.connectionState ≠ .hDisconnected) (empty : o.http.outBuffer = [])
    (unknown : v.objects c = none) (before : LoopSound v l loop) :
    LoopSound w l { loop with pendingFunctors := loop.pendingFunctors ++ [c] } := by
  have apart : c ∉ loop.queued := by
    intro waiting
    obtain ⟨p, there, -⟩ := before.queued waiting
    rw [unknown] at there
    cases there
  have more : IoLoop.queued { loop with pendingFunctors := loop.pendingFunctors ++ [c] } =
      loop.pendingFunctors ++ c :: loop.toRun := List.append_assoc ..
  refine { sound with queued := ?queued, once := ?once }
  case queued =>
    intro d waiting
    rw [more] at waiting
    have split : d = c ∨ d ∈ loop.queued := by
      simp only [IoLoop.queued, List.mem_append, List.mem_cons] at waiting ⊢
      tauto
    rcases split with rfl | old
    · refine ⟨o, here, own, unlinked, running, empty, ?_⟩
      intro stored
      obtain ⟨p, there, -⟩ := before.registered stored
      rw [unknown] at there
      cases there
    · exact sound.queued old
  case once =>
    rw [more, List.nodup_middle, List.nodup_cons]
    exact ⟨apart, sound.once⟩

/-- `accept` returned `fd` for a new connection. -/
def opened (w : Server) (fd : Nat) : Server :=
  { w with
    accepted := w.accepted + 1
    descriptors := Function.update w.descriptors fd (some (.accepted w.accepted)) }

/-- The new connection is queued for its loop. -/
def handed (w : Server) (c : ConnId) (fd : Nat) (l : LoopId) : Server :=
  let w := w.setConn c { http := HttpData.new fd, loop := l, lastAdd := none }
  w.setLoop l { w.loops l with pendingFunctors := (w.loops l).pendingFunctors ++ [c] }

theorem accept_cases {fd : Nat} {nonBlocking : Bool} (moved : w.accept fd l nonBlocking = some w') :
    w.descriptors fd = none ∧
      (w' = { w with accepted := w.accepted + 1, closed := w.closed ++ [w.accepted] } ∨
        w' = { (w.opened fd).handed w.accepted fd l with reqInfo := some w.accepted } ∨
        w' = w.opened fd) := by
  unfold Server.accept at moved
  dsimp only at moved
  split at moved
  · rename_i allowed
    refine ⟨allowed.2.2, ?_⟩
    split at moved
    · cases moved
      exact .inl rfl
    · split at moved
      · cases moved
        exact .inr (.inl rfl)
      · cases moved
        exact .inr (.inr rfl)
  · cases moved

theorem Sound.unknown (sound : Sound w) : w.objects w.accepted = none := by
  by_contra known
  obtain ⟨o, here⟩ := Option.ne_none_iff_exists'.mp known
  exact Nat.lt_irrefl _ (sound.object here).2.2.2

theorem Sound.closedOnce_concat (sound : Sound w) (unclosed : c ∉ w.closed) :
    (w.closed ++ [c]).Nodup := by
  rw [← List.concat_eq_append]
  exact sound.closedOnce.concat unclosed

theorem Sound.counted (sound : Sound w) : Sound { w with accepted := w.accepted + 1 } :=
  { sound with
    loops := fun l => { sound.loops l with }
    object := by
      intro c o here
      obtain ⟨channel_fd, cleared, descriptor, known⟩ := sound.object here
      exact ⟨channel_fd, cleared, descriptor, Nat.lt_succ_of_lt known⟩
    ended := by
      intro c shut
      obtain ⟨gone, known⟩ := sound.ended shut
      exact ⟨gone, Nat.lt_succ_of_lt known⟩
    recorded := by
      intro r listed
      obtain ⟨known, shut⟩ := sound.recorded listed
      exact ⟨Nat.lt_succ_of_lt known, shut⟩ }

theorem Sound.turnedAway (sound : Sound w) :
    Sound { w with accepted := w.accepted + 1, closed := w.closed ++ [w.accepted] } :=
  { sound.counted with
    loops := fun l => { sound.loops l with }
    ended := by
      intro c shut
      rcases List.mem_append.mp shut with old | new
      · exact sound.counted.ended old
      · rw [List.mem_singleton.mp new]
        exact ⟨sound.unknown, Nat.lt_succ_self _⟩
    closedOnce := sound.closedOnce_concat fun old => Nat.lt_irrefl _ (sound.ended old).2 }

theorem Sound.opened (sound : Sound w) {fd : Nat} (unused : w.descriptors fd = none) :
    Sound (w.opened fd) :=
  { sound.counted with
    loops := fun l => { sound.loops l with }
    object := by
      intro c o here
      obtain ⟨channel_fd, cleared, descriptor, known⟩ := sound.counted.object here
      have taken : o.http.fd ≠ fd := by
        rintro rfl
        rw [unused] at descriptor
        cases descriptor
      refine ⟨channel_fd, cleared, ?_, known⟩
      show Function.update w.descriptors fd _ o.http.fd = _
      rw [Function.update_of_ne taken]
      exact descriptor }

/-- An object that the server did not have. -/
structure Unborn (w : Server) (c : ConnId) (fd : Nat) : Prop where
  unknown : w.objects c = none
  counted : c < w.accepted
  descriptor : w.descriptors fd = some (.accepted c)
  unclosed : c ∉ w.closed
  unrecorded : ∀ r ∈ w.handleClosed, r.conn ≠ c

theorem Sound.unborn (sound : Sound w) (fd : Nat) : Unborn (w.opened fd) w.accepted fd where
  unknown := sound.unknown
  counted := Nat.lt_succ_self _
  descriptor := Function.update_self ..
  unclosed old := Nat.lt_irrefl _ (sound.ended old).2
  unrecorded _ listed := (sound.recorded listed).1.ne

theorem Unborn.apart {fd : Nat} (unborn : Unborn w c fd) (l : LoopId) {d : ConnId} {p : Conn}
    (there : w.objects d = some p) : (w.handed c fd l).objects d = some p := by
  have other : d ≠ c := by
    rintro rfl
    rw [unborn.unknown] at there
    cases there
  show Function.update w.objects c _ d = some p
  rw [Function.update_of_ne other]
  exact there

theorem handed_objects {fd : Nat} {d : ConnId} {p : Conn}
    (there : (w.handed c fd l).objects d = some p) :
    d = c ∧ p = { http := HttpData.new fd, loop := l, lastAdd := none } ∨
      d ≠ c ∧ w.objects d = some p := by
  have there : Function.update w.objects c
      (some { http := HttpData.new fd, loop := l, lastAdd := none }) d = some p := there
  by_cases new : d = c
  · subst new
    rw [Function.update_self] at there
    cases there
    exact .inl ⟨rfl, rfl⟩
  · rw [Function.update_of_ne new] at there
    exact .inr ⟨new, there⟩

theorem Unborn.loops {fd : Nat} (unborn : Unborn w c fd) (sound : Sound w) (l l' : LoopId) :
    LoopSound (w.handed c fd l) l' ((w.handed c fd l).loops l') := by
  have framed : LoopSound (w.handed c fd l) l' (w.loops l') :=
    (sound.loops l').frame (fun _ there => unborn.apart l there) (.refl _) le_rfl
  by_cases same : l' = l
  · subst same
    simp only [handed, setLoop, setConn, Function.update_self]
    exact { framed.enqueue (Function.update_self ..) rfl rfl (by simp [HttpData.new]) rfl
      unborn.unknown (sound.loops l') with }
  · simp only [handed, setLoop, setConn, Function.update_of_ne same]
    exact { framed with }

theorem Sound.handed (sound : Sound w) {fd : Nat} (unborn : Unborn w c fd) :
    Sound (w.handed c fd l) := by
  refine { sound with
    loops := unborn.loops sound l
    object := ?object, links := ?links, linked := ?linked, ended := ?ended, recorded := ?recorded }
  case object =>
    intro d p there
    rcases handed_objects there with ⟨rfl, rfl⟩ | ⟨-, there⟩
    · exact ⟨rfl, rfl, unborn.descriptor, unborn.counted⟩
    · exact sound.object there
  case links =>
    intro d e p q i one two its too
    rcases handed_objects one with ⟨-, rfl⟩ | ⟨-, one⟩
    · cases its
    · rcases handed_objects two with ⟨-, rfl⟩ | ⟨-, two⟩
      · cases too
      · exact sound.links one two its too
  case linked =>
    intro d p i there link
    rcases handed_objects there with ⟨-, rfl⟩ | ⟨-, there⟩
    · cases link
    · exact sound.linked there link
  case ended =>
    intro d shut
    obtain ⟨gone, known⟩ := sound.ended shut
    have other : d ≠ c := by
      rintro rfl
      exact unborn.unclosed shut
    exact ⟨(Function.update_of_ne other ..).trans gone, known⟩
  case recorded =>
    intro r listed
    obtain ⟨known, shut⟩ := sound.recorded listed
    refine ⟨known, fun p there => ?_⟩
    rcases handed_objects there with ⟨own, -⟩ | ⟨-, there⟩
    · exact absurd own (unborn.unrecorded r listed)
    · exact shut p there

theorem Sound.accept (sound : Sound w) {fd : Nat} {nonBlocking : Bool}
    (moved : w.accept fd l nonBlocking = some w') : Sound w' := by
  obtain ⟨unused, rfl | rfl | rfl⟩ := accept_cases moved
  · exact sound.turnedAway
  · have queued := (sound.opened unused).handed (l := l) (sound.unborn fd)
    exact { queued with loops := fun l' => { queued.loops l' with } }
  · exact sound.opened unused

theorem Sound.unmentioned (sound : Sound w) (here : w.objects c = some o)
    (unreferred : ¬ w.Referred c o) (l : LoopId) : ¬ (w.loops l).Mentions c := by
  intro mentioned
  have own := (sound.loops l).mentions mentioned here
  subst own
  simp only [Referred, not_or] at unreferred
  obtain ⟨-, unregistered, untimed, unpending, unswapped⟩ := unreferred
  rcases mentioned with ⟨fd, stored⟩ | timed | queued
  · obtain ⟨p, there, -, fd_eq, -⟩ := (sound.loops o.loop).registered stored
    rw [here] at there
    cases there
    subst fd_eq
    exact unregistered stored
  · exact untimed timed
  · rcases List.mem_append.mp queued with pending | swapped
    · exact unpending pending
    · exact unswapped ((sound.loops o.loop).running swapped)

theorem destroy_cases (moved : w.destroy c = some w') :
    ∃ o, w.objects c = some o ∧ ¬ w.Referred c o ∧
      w' = { w.setLoop o.loop { w.loops o.loop with
          interest := Function.update (w.loops o.loop).interest o.http.fd none } with
        objects := Function.update w.objects c none
        descriptors := Function.update w.descriptors o.http.fd none
        closed := w.closed ++ [c] } := by
  unfold Server.destroy at moved
  dsimp only at moved
  split at moved
  · cases moved
  · rename_i o here
    split at moved
    · cases moved
    · rename_i unreferred
      cases moved
      exact ⟨o, here, unreferred, rfl⟩

theorem update_none_some {objects : ConnId → Option Conn} {d : ConnId} {p : Conn} :
    Function.update objects c none d = some p ↔ d ≠ c ∧ objects d = some p := by
  by_cases same : d = c
  · subst same
    simp
  · rw [Function.update_of_ne same]
    exact ⟨fun there => ⟨same, there⟩, fun there => there.2⟩

theorem Sound.destroy (sound : Sound w) (moved : w.destroy c = some w') : Sound w' := by
  obtain ⟨o, here, unreferred, rfl⟩ := destroy_cases moved
  have kept : ∀ l {d p}, (w.loops l).Mentions d → w.objects d = some p →
      Function.update w.objects c none d = some p := by
    intro l d p mentions there
    refine update_none_some.mpr ⟨?_, there⟩
    rintro rfl
    exact sound.unmentioned here unreferred l mentions
  refine { sound with
    loops := ?loops, object := ?object, links := ?links, linked := ?linked, ended := ?ended,
    closedOnce := ?closedOnce, recorded := ?recorded }
  case links =>
    intro c d o p i one two
    exact sound.links (update_none_some.mp one).2 (update_none_some.mp two).2
  case linked =>
    intro c o i here
    exact sound.linked (update_none_some.mp here).2
  case loops =>
    intro l
    by_cases same : l = o.loop
    · subst same
      rw [setLoop_loops, Function.update_self]
      have framed : LoopSound { w with objects := Function.update w.objects c none } o.loop
          (w.loops o.loop) := (sound.loops o.loop).frame (kept o.loop) (.refl _) le_rfl
      exact { framed with }
    · rw [setLoop_loops, Function.update_of_ne same]
      exact (sound.loops l).frame (kept l) (.refl _) le_rfl
  case object =>
    intro d p there
    obtain ⟨other, there⟩ := update_none_some.mp there
    obtain ⟨channel_fd, cleared, descriptor, known⟩ := sound.object there
    refine ⟨channel_fd, cleared, ?_, known⟩
    show Function.update w.descriptors o.http.fd none p.http.fd = some (.accepted d)
    rw [Function.update_of_ne]
    · exact descriptor
    · intro same
      exact other (sound.same_descriptor there here same)
  case ended =>
    intro d shut
    rcases List.mem_append.mp shut with old | new
    · obtain ⟨gone, known⟩ := sound.ended old
      refine ⟨?_, known⟩
      by_contra there
      obtain ⟨p, there⟩ := Option.ne_none_iff_exists'.mp there
      have there := (update_none_some.mp there).2
      rw [gone] at there
      cases there
    · rw [List.mem_singleton.mp new]
      exact ⟨Function.update_self .., (sound.object here).2.2.2⟩
  case closedOnce =>
    apply sound.closedOnce_concat
    intro old
    rw [(sound.ended old).1] at here
    cases here
  case recorded =>
    intro r listed
    obtain ⟨known, shut⟩ := sound.recorded listed
    exact ⟨known, fun p there => shut p (update_none_some.mp there).2⟩

theorem Sound.step (sound : Sound w) {action : Action} (moved : w.step action = some w') :
    Sound w' := by
  unfold Server.step at moved
  split at moved
  · cases moved
  · cases action with
    | accept fd l nonBlocking => exact sound.accept moved
    | acceptNext =>
        cases moved
        exact { sound with loops := fun l => { sound.loops l with } }
    | poll l reported other => exact sound.poll moved
    | dispatch l e ctl => exact sound.dispatch moved
    | swap l => exact sound.swap moved
    | runFunctor l ctl => exact sound.runFunctor moved
    | handleExpired l i ctl => exact sound.handleExpired moved
    | destroy c => exact sound.destroy moved
    | tick now =>
        dsimp only at moved
        split at moved
        · rename_i later
          cases moved
          exact sound.tick later
        · cases moved

theorem reached_sound {C : Server → Action → Prop} (reached : server.Reached C w) : Sound w := by
  apply reached.invariant
  · rintro w ⟨now, system, rfl⟩
    exact start_sound now system
  · intro w action w' sound _ moved
    exact sound.step moved

/-- A channel in a table belongs to a connection that the same table owns, that is alive and that has
    this descriptor, which is open. So no handler runs on a destroyed object, and a descriptor is
    closed once. -/
theorem channels_owned (reached : server.Reachable w) :
    (∀ l fd c, (w.loops l).fd2channel fd = some c → (w.loops l).fd2http fd = some c ∧
      ∃ o, w.objects c = some o ∧ o.http.fd = fd ∧ c ∉ w.closed) ∧
    (∀ l fd c ret, (w.loops l).phase = .events ((fd, c) :: ret) →
      ∃ o, w.objects c = some o ∧ o.http.fd = fd) ∧
    (∀ c o, w.objects c = some o → w.descriptors o.http.fd = some (.accepted c)) ∧
    w.crashed ≠ some .dangling ∧ w.closed.Nodup := by
  have sound := reached_sound reached
  have alive : ∀ l fd c, (w.loops l).fd2channel fd = some c →
      (w.loops l).fd2http fd = some c ∧ ∃ o, w.objects c = some o ∧ o.http.fd = fd := by
    intro l fd c stored
    have owned := (sound.loops l).channels stored
    obtain ⟨o, here, -, fd_eq, -⟩ := (sound.loops l).registered owned
    exact ⟨owned, o, here, fd_eq⟩
  refine ⟨?_, ?_, ?_, sound.live, sound.closedOnce⟩
  · intro l fd c stored
    obtain ⟨owned, o, here, fd_eq⟩ := alive l fd c stored
    refine ⟨owned, o, here, fd_eq, ?_⟩
    intro shut
    rw [(sound.ended shut).1] at here
    cases here
  · intro l fd c ret phase
    have listed : (fd, c) ∈ (w.loops l).ready := by simp [IoLoop.ready, phase]
    exact (alive l fd c ((sound.loops l).ready listed)).2
  · intro c o here
    exact (sound.object here).2.2.1

theorem replay_reachable {now : Timeval} {system : List Nat} {labels : List Action}
    (run : server.replay (start now system) labels = some w) : server.Reachable w :=
  System.Reached.replay (fun _ _ _ => trivial) (.init ⟨now, system, rfl⟩) run

/-- The first connection is accepted and registered. -/
def firstConnection : List Action :=
  [.accept 9 0 true, .acceptNext, .poll 0 [] true, .swap 0, .runFunctor 0 true, .runFunctor 0 true]

/-- A request that is refused. -/
def refusedRequest : Event where
  revents := EPOLLIN
  reads := [.ok (text "X\r\n\r\n")]
  writes := []
  files := fun _ _ => .missing

/-- The first connection is closed and destroyed, and its descriptor becomes that of the second one, on
    another loop. -/
def descriptorReused : List Action :=
  firstConnection ++ [.handleExpired 0 0 true, .poll 0 [9] false, .dispatch 0 refusedRequest true,
    .swap 0, .runFunctor 0 true, .handleExpired 0 0 true, .destroy 0, .accept 9 1 true, .acceptNext,
    .poll 1 [] true, .swap 1, .runFunctor 1 true, .runFunctor 1 true, .handleExpired 1 0 true,
    .poll 1 [9] false]

theorem channels_owned_reused :
    ∃ w, server.replay (start ⟨0, 0, by decide⟩ [3]) descriptorReused = some w ∧ w.closed = [0] ∧
      (w.loops 0).fd2channel 9 = none ∧ (w.loops 1).phase = .events [(9, 1)] ∧
      (∀ l fd c, (w.loops l).fd2channel fd = some c → (w.loops l).fd2http fd = some c ∧
        ∃ o, w.objects c = some o ∧ o.http.fd = fd ∧ c ∉ w.closed) ∧
      (∀ l fd c ret, (w.loops l).phase = .events ((fd, c) :: ret) →
        ∃ o, w.objects c = some o ∧ o.http.fd = fd) ∧
      (∀ c o, w.objects c = some o → w.descriptors o.http.fd = some (.accepted c)) ∧
      w.crashed ≠ some .dangling ∧ w.closed.Nodup := by
  obtain ⟨w, run, closed, free, phase⟩ : ∃ w,
      server.replay (start ⟨0, 0, by decide⟩ [3]) descriptorReused = some w ∧ w.closed = [0] ∧
        (w.loops 0).fd2channel 9 = none ∧ (w.loops 1).phase = .events [(9, 1)] := by
    have ran : ((server.replay (start ⟨0, 0, by decide⟩ [3]) descriptorReused).map fun w =>
        (w.closed, (w.loops 0).fd2channel 9, (w.loops 1).phase)) =
          some ([0], none, .events [(9, 1)]) := by decide +kernel
    obtain ⟨w, run, seen⟩ := Option.map_eq_some_iff.mp ran
    simp only [Prod.mk.injEq] at seen
    exact ⟨w, run, seen⟩
  exact ⟨w, run, closed, free, phase, channels_owned (replay_reachable run)⟩

/-- A connection is held by one live timer node at most, the one it is linked to. It is closed once,
    and by a timer only after the timeout of its last `AddTimer`. -/
theorem single_timer (reached : server.Reachable w) :
    (∀ l, ∀ n ∈ (w.loops l).timerNodeQueue, ∀ c, n.deleted = false → n.spHttpData = some c →
      (∃ o, w.objects c = some o ∧ o.http.timer = some n.id) ∧
      ∀ l', ∀ m ∈ (w.loops l').timerNodeQueue, m.deleted = false → m.spHttpData = some c →
        l' = l ∧ m = n) ∧
    (w.handleClosed.map CloseRecord.conn).Nodup ∧
    ∀ r ∈ w.handleClosed, ∀ last now, r.byTimer = some (last, now) →
      ∃ added timeout, last = some (added, timeout) ∧
        added.milliseconds + timeout ≤ now.milliseconds := by
  have sound := reached_sound reached
  refine ⟨?_, sound.recordedOnce, fun r listed => sound.due listed⟩
  intro l n waiting c _ holds
  obtain ⟨o, here, loop, timed⟩ := (sound.loops l).timed waiting holds
  refine ⟨⟨o, here, timed.link⟩, ?_⟩
  intro l' m other _ also
  obtain ⟨p, there, loop', timed'⟩ := (sound.loops l').timed other also
  rw [here] at there
  cases there
  subst loop loop'
  refine ⟨rfl, ?_⟩
  have same : m.id = n.id := Option.some.inj (timed'.link.symm.trans timed.link)
  exact List.inj_on_of_nodup_map (sound.loops o.loop).ids other waiting same

theorem single_timer_silent :
    ∃ w, server.replay (start ⟨5, 0, by decide⟩ [3]) (firstConnection ++
        [.tick ⟨7, 0, by decide⟩, .handleExpired 0 0 true]) = some w ∧
      w.handleClosed.map CloseRecord.conn = [0] ∧
      (∀ l, ∀ n ∈ (w.loops l).timerNodeQueue, ∀ c, n.deleted = false → n.spHttpData = some c →
        (∃ o, w.objects c = some o ∧ o.http.timer = some n.id) ∧
        ∀ l', ∀ m ∈ (w.loops l').timerNodeQueue, m.deleted = false → m.spHttpData = some c →
          l' = l ∧ m = n) ∧
      (w.handleClosed.map CloseRecord.conn).Nodup ∧
      ∀ r ∈ w.handleClosed, ∀ last now, r.byTimer = some (last, now) →
        ∃ added timeout, last = some (added, timeout) ∧
          added.milliseconds + timeout ≤ now.milliseconds := by
  have run : server.replay (start ⟨5, 0, by decide⟩ [3]) (firstConnection ++
      [.tick ⟨7, 0, by decide⟩, .handleExpired 0 0 true]) = some _ := rfl
  exact ⟨_, run, rfl, single_timer (replay_reachable run)⟩

end Server

end WebServer
