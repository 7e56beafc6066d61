import WebServer.Channel
import WebServer.Lib.EventFd
import WebServer.Lib.Transition

/-! # The event loop and its functors

`Loop` run by its own thread, together with the `QueueInLoop` calls of any thread. A critical section
of `mutex_` and a system call are one step each; whatever the loop's thread does between two of them
touches no state that another thread sees. The connections' and the acceptor's channels appear only
as handlers that may call `QueueInLoop` while they run.
-/

namespace WebServer

open Lib

/-- A thread. -/
abbrev Tid := Nat

/-- The channels that `Poll` returns. -/
inductive Ready where
  | wakeup
  /-- The channel of a connection or of the acceptor. -/
  | other
  deriving Repr, DecidableEq

/-- Where the loop's thread stands in `Loop`. -/
inductive LoopPhase where
  /-- Inside `Poll`: in `epoll_wait`, or between two calls of it. -/
  | poll
  /-- The channels still to be handled; the handler of the first one may be running. -/
  | events (ret : List Ready)
  /-- In `DoPendingFunctors`, after the swap; the flag tells that a functor was started. -/
  | functors (running : Bool)
  | expired
  deriving Repr, DecidableEq

/-- The wake-up channel, its eventfd and what the poller knows of them. -/
structure WakeupChannel where
  channel : Channel
  eventFd : EventFd
  /-- The mask that the kernel holds. -/
  interest : Mask
  /-- `fd2channel_[wakeup_fd_]` is the channel. -/
  stored : Bool
  deriving Repr, DecidableEq

namespace WakeupChannel

/-- The constructor of `EventLoop`: `set_events`, then `EpollAdd(p_wakeup_channel_, 0)`. -/
def new (wakeupFd : Nat) : WakeupChannel :=
  let channel := { Channel.new wakeupFd with events := EPOLLIN ||| EPOLLET }
  { channel := channel.equalAndUpdateLastEvents.2, eventFd := .new, interest := channel.events,
    stored := true }

/-- `WriteN(wakeup_fd_, &one, 8)`. The poller hears of it if it watches for `EPOLLIN`. -/
def write (w : WakeupChannel) : WakeupChannel :=
  let written := w.eventFd.write
  { w with eventFd :=
      if w.interest.has EPOLLIN then written else { written with edge := w.eventFd.edge } }

/-- `HandleRead`. -/
def handleRead (w : WakeupChannel) : WakeupChannel :=
  { w with
    eventFd := w.eventFd.read
    channel := { w.channel with events := EPOLLIN ||| EPOLLET } }

/-- `HandleConn`, that is `EpollMod(p_wakeup_channel_, 0)`. -/
def handleConn (ctl : Bool) (w : WakeupChannel) : WakeupChannel :=
  match w.channel.epollMod ctl with
  | (.elided, channel) => { w with channel }
  | (.registered mask, channel) =>
      { w with
        channel
        interest := mask
        eventFd := if mask.has EPOLLIN then w.eventFd.register else w.eventFd }
  | (.failed, channel) => { w with channel, stored := false }

/-- The callbacks that the constructor of `EventLoop` sets. -/
def callbacks (ctl : Bool) : Channel.Callbacks WakeupChannel where
  setEvents events w := { w with channel := { w.channel with events } }
  readHandler := some fun w => .ok w.handleRead
  connHandler := some fun w => .ok (w.handleConn ctl)

/-- `HandleEvents` on the wake-up channel; neither callback can fail. -/
def handleEvents (ctl : Bool) (w : WakeupChannel) : WakeupChannel :=
  match Channel.handleEvents (callbacks ctl) w.channel.revents w with
  | .ok w => w
  | .error _ => w

/-- `epoll_wait` reports the eventfd, and `GetEventsRequest` prepares the channel if it is stored. -/
def poll (w : WakeupChannel) : Option WakeupChannel :=
  w.eventFd.report.map fun eventFd =>
    if w.stored then
      { w with eventFd, channel := { w.channel with revents := EPOLLIN, events := 0#32 } }
    else { w with eventFd }

end WakeupChannel

structure EventLoop (Functor : Type) where
  kThreadId : Tid
  phase : LoopPhase
  wakeup : WakeupChannel
  pendingFunctors : List Functor
  /-- The functors that `DoPendingFunctors` swapped out and did not start yet. -/
  functors : List Functor
  callingPendingFunctors : Bool
  /-- The threads that pushed a functor and stand before the rest of their `QueueInLoop`. -/
  queueing : List Tid
  /-- The functors pushed so far, in the order in which `mutex_` was taken. -/
  pushed : List Functor
  /-- The functors started so far. -/
  ran : List Functor

inductive LoopAction (Functor : Type) where
  /-- `QueueInLoop`: the push under the lock. -/
  | push (tid : Tid) (cb : Functor)
  /-- The rest of `QueueInLoop`. -/
  | wakeUp (tid : Tid)
  /-- `epoll_wait` returns, with these descriptors. -/
  | poll (reported : List Ready)
  /-- The first channel's `HandleEvents` returns. -/
  | handleEvents (ctl : Bool)
  /-- `DoPendingFunctors`: the swap under the lock. -/
  | swap
  /-- The running functor returns and the next one, if any, is started. -/
  | next
  | handleExpired

namespace EventLoop

variable {Functor : Type}

/-- An event loop whose thread has entered `Loop`. -/
def new (kThreadId : Tid) (wakeupFd : Nat) : EventLoop Functor where
  kThreadId
  phase := .poll
  wakeup := .new wakeupFd
  pendingFunctors := []
  functors := []
  callingPendingFunctors := false
  queueing := []
  pushed := []
  ran := []

/-- The loop's thread runs an event handler or a functor. -/
def calling (s : EventLoop Functor) : Bool :=
  match s.phase with
  | .events (.other :: _) => true
  | .functors running => running
  | _ => false

/-- Another thread may push at any time, the loop's thread only from a handler or a functor. -/
def push (s : EventLoop Functor) (tid : Tid) (cb : Functor) : Option (EventLoop Functor) :=
  if tid ∉ s.queueing ∧ (tid = s.kThreadId → s.calling = true) then
    some { s with
      pendingFunctors := s.pendingFunctors ++ [cb]
      pushed := s.pushed ++ [cb]
      queueing := tid :: s.queueing }
  else none

/-- `if (!IsInLoopThread() || calling_pending_functors_) WakeUp()`. -/
def wakeUp (s : EventLoop Functor) (tid : Tid) : Option (EventLoop Functor) :=
  if tid ∈ s.queueing then
    some { s with
      queueing := s.queueing.erase tid
      wakeup := if tid ≠ s.kThreadId || s.callingPendingFunctors then s.wakeup.write else s.wakeup }
  else none

/-- `Poll` returns the stored channels of the reported descriptors, and waits again if there is
    none. -/
def poll (s : EventLoop Functor) (reported : List Ready) : Option (EventLoop Functor) :=
  if Ready.wakeup ∈ reported then
    if (reported.erase .wakeup).contains .wakeup then none
    else s.wakeup.poll.map fun wakeup =>
      let ret := if s.wakeup.stored then reported else reported.erase .wakeup
      { s with wakeup, phase := if ret = [] then .poll else .events ret }
  else some { s with phase := if reported = [] then .poll else .events reported }

/-- What the loop's thread does next, once it is not inside `QueueInLoop`. -/
def advance (s : EventLoop Functor) (action : LoopAction Functor) : Option (EventLoop Functor) :=
  match s.phase, action with
  | .poll, .poll reported => s.poll reported
  | .events (.wakeup :: ret), .handleEvents ctl =>
      some { s with wakeup := s.wakeup.handleEvents ctl, phase := .events ret }
  | .events (.other :: ret), .handleEvents _ => some { s with phase := .events ret }
  | .events [], .swap =>
      some { s with
        callingPendingFunctors := true
        functors := s.pendingFunctors
        pendingFunctors := []
        phase := .functors false }
  | .functors _, .next =>
      match s.functors with
      | cb :: rest => some { s with functors := rest, ran := s.ran ++ [cb], phase := .functors true }
      | [] => some { s with callingPendingFunctors := false, phase := .expired }
  | .expired, .handleExpired => some { s with phase := .poll }
  | _, _ => none

def step (s : EventLoop Functor) (action : LoopAction Functor) : Option (EventLoop Functor) :=
  match action with
  | .push tid cb => s.push tid cb
  | .wakeUp tid => s.wakeUp tid
  | action => if s.kThreadId ∈ s.queueing then none else s.advance action

end EventLoop

/-- One event loop, its thread and the threads that queue functors, until `Quit` is called. -/
def eventLoop (Functor : Type) : System (EventLoop Functor) (LoopAction Functor) where
  init s := ∃ kThreadId wakeupFd, s = EventLoop.new kThreadId wakeupFd
  step := EventLoop.step

end WebServer
