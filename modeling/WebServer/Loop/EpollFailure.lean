import WebServer.Loop.Lifetime
import WebServer.Loop.TimerManager

/-! # Registrations that fail

`EpollAdd` and `EpollMod` change the timers, the table of connections and the channel's last mask
before they call `epoll_ctl`. When the call fails they only take the channel out of its table.
-/

namespace WebServer

/-- The address of a `Channel` object. -/
abbrev ChannelId := Nat

/-- The channel handed to `EpollAdd` or `EpollMod`. -/
structure ChannelRequest where
  id : ChannelId
  channel : Channel
  /-- Acceptor and wake-up channels have none. -/
  holder : Option ConnId
  deriving Repr, DecidableEq

structure Epoll where
  fd2channel : Nat → Option ChannelId
  fd2http : Nat → Option ConnId
  timerManager : TimerManager
  /-- The masks that the kernel holds. -/
  interest : Nat → Option Mask

/-- What `EpollAdd` or `EpollMod` leaves behind. -/
structure Registering where
  epoll : Epoll
  channel : Channel
  result : Channel.CtlMod

namespace Epoll

def new : Epoll where
  fd2channel _ := none
  fd2http _ := none
  timerManager := .new
  interest _ := none

/-- `AddTimer`. -/
def addTimer (p : Epoll) (request : ChannelRequest) (timeout : Int) (now : Timeval) : Epoll :=
  match request.holder with
  | some t => { p with timerManager := p.timerManager.addTimer t timeout.toNat now }
  | none => p

/-- The effect of `epoll_ctl` on the tables: a call that fails changes nothing in the kernel and makes
    the caller empty the channel's entry. -/
def ctlDone (p : Epoll) (fd : Nat) : Channel.CtlMod → Epoll
  | .elided => p
  | .registered mask => { p with interest := Function.update p.interest fd (some mask) }
  | .failed => { p with fd2channel := Function.update p.fd2channel fd none }

/-- `EpollAdd`; `ctl` tells whether `epoll_ctl` succeeds. -/
def epollAdd (ctl : Bool) (p : Epoll) (request : ChannelRequest) (timeout : Int) (now : Timeval) :
    Registering :=
  let fd := request.channel.fd
  let p := if 0 < timeout then
      let p := p.addTimer request timeout now
      { p with fd2http := Function.update p.fd2http fd request.holder }
    else p
  let mask := request.channel.events
  let channel := request.channel.equalAndUpdateLastEvents.2
  let p := { p with fd2channel := Function.update p.fd2channel fd (some request.id) }
  let result : Channel.CtlMod := if ctl then .registered mask else .failed
  ⟨p.ctlDone fd result, channel, result⟩

/-- `EpollMod`. -/
def epollMod (ctl : Bool) (p : Epoll) (request : ChannelRequest) (timeout : Int) (now : Timeval) :
    Registering :=
  let p := if 0 < timeout then p.addTimer request timeout now else p
  let fd := request.channel.fd
  let (result, channel) := request.channel.epollMod ctl
  ⟨p.ctlDone fd result, channel, result⟩

inductive Operation where
  | epollAdd
  | epollMod
  deriving Repr, DecidableEq

def register : Operation → (ctl : Bool) → Epoll → ChannelRequest → (timeout : Int) → Timeval →
    Registering
  | .epollAdd => epollAdd
  | .epollMod => epollMod

variable {p : Epoll} {request : ChannelRequest} {timeout : Int} {now : Timeval}

@[simp] theorem addTimer_fd2channel : (p.addTimer request timeout now).fd2channel = p.fd2channel := by
  unfold addTimer
  cases request.holder <;> rfl

@[simp] theorem addTimer_fd2http : (p.addTimer request timeout now).fd2http = p.fd2http := by
  unfold addTimer
  cases request.holder <;> rfl

@[simp] theorem addTimer_interest : (p.addTimer request timeout now).interest = p.interest := by
  unfold addTimer
  cases request.holder <;> rfl

end Epoll

/-- Both tables know the descriptor or neither does, and the channel's last mask is the one that the
    kernel holds, where a descriptor that the kernel does not watch has the mask of a new channel. -/
def Registering.Atomic (r : Registering) : Prop :=
  (r.epoll.fd2channel r.channel.fd = none ↔ r.epoll.fd2http r.channel.fd = none) ∧
    r.channel.lastEvents = (r.epoll.interest r.channel.fd).getD 0#32

instance (r : Registering) : Decidable r.Atomic := inferInstanceAs (Decidable (_ ∧ _))

namespace Epoll

/-- The connection that `fd2http_` keeps for the descriptor, `epoll_ctl` or not. -/
def kept (op : Operation) (p : Epoll) (request : ChannelRequest) (timeout : Int) : Option ConnId :=
  if op = .epollAdd ∧ 0 < timeout then request.holder else p.fd2http request.channel.fd

section Failed

variable {op : Operation} {ctl : Bool} {p : Epoll} {request : ChannelRequest} {timeout : Int}
  {now : Timeval}

/-- What a failed call leaves of the four pieces. -/
theorem register_failed (failed : (register op ctl p request timeout now).result = .failed) :
    let r := register op ctl p request timeout now
    r.epoll.fd2channel request.channel.fd = none ∧
      r.epoll.fd2http request.channel.fd = kept op p request timeout ∧
      r.epoll.interest = p.interest ∧
      r.channel = { request.channel with lastEvents := request.channel.events } := by
  cases op with
  | epollAdd =>
      have down : ctl = false := by
        cases ctl with
        | false => rfl
        | true => cases failed
      subst down
      refine ⟨by simp [register, epollAdd, ctlDone], ?_, ?_, rfl⟩
      · by_cases timed : 0 < timeout <;> simp [register, epollAdd, ctlDone, kept, timed]
      · by_cases timed : 0 < timeout <;> simp [register, epollAdd, ctlDone, timed]
  | epollMod =>
      have result : request.channel.epollMod ctl =
          (.failed, { request.channel with lastEvents := request.channel.events }) :=
        Prod.ext failed rfl
      refine ⟨by simp [register, epollMod, result, ctlDone], ?_, ?_, rfl⟩
      · by_cases timed : 0 < timeout <;> simp [register, epollMod, result, ctlDone, kept, timed]
      · by_cases timed : 0 < timeout <;> simp [register, epollMod, result, ctlDone, timed]

/-- After a failed `epoll_ctl` the pieces agree only if the table of connections is empty too and the
    kernel happens to hold the mask that it refused. -/
theorem failure_atomic_iff (failed : (register op ctl p request timeout now).result = .failed) :
    (register op ctl p request timeout now).Atomic ↔
      kept op p request timeout = none ∧
        request.channel.events = (p.interest request.channel.fd).getD 0#32 := by
  obtain ⟨emptied, https, interest, channel⟩ := register_failed failed
  simp [Registering.Atomic, emptied, https, interest, channel]

/-- The channel of the acceptor asks for a mask. -/
def acceptorRequest (channel : Channel) (events : Mask) : ChannelRequest where
  id := 0
  channel := { channel with events }
  holder := none

/-- The acceptor is watched for input; then the kernel refuses to watch it for output. -/
def refusedMask : Registering :=
  let now := TimerNode.second 0
  let watched := register .epollAdd true .new (acceptorRequest (.new 3) EPOLLIN) 0 now
  register .epollMod false watched.epoll (acceptorRequest watched.channel EPOLLOUT) 0 now

theorem failure_atomic_back :
    ¬ refusedMask.Atomic ∧
      (register .epollMod false refusedMask.epoll (acceptorRequest refusedMask.channel EPOLLIN) 0
        (TimerNode.second 0)).Atomic :=
  ⟨by decide, (failure_atomic_iff (by decide)).mpr ⟨by decide, by decide⟩⟩

theorem epollMod_retried (failed : (epollMod ctl p request timeout now).result = .failed)
    (ctl' : Bool) (timeout' : Int) (now' : Timeval) :
    let r := epollMod ctl p request timeout now
    (epollMod ctl' r.epoll { request with channel := r.channel } timeout' now').result = .elided ∧
      r.epoll.interest = p.interest := by
  obtain ⟨-, -, interest, -⟩ := @register_failed .epollMod _ _ _ _ _ failed
  refine ⟨?_, interest⟩
  simp [epollMod, Channel.epollMod, Channel.equalAndUpdateLastEvents]

end Failed

/-- The first registration of a connection. -/
def firstRequest : ChannelRequest where
  id := 0
  channel := { Channel.new 9 with events := kDefaultEvent }
  holder := some 0

/-- The kernel has no room for the descriptor of a new connection. -/
theorem firstRequest_not_atomic :
    (register .epollAdd false .new firstRequest kDefaultExpiredTime ⟨0, 0, by decide⟩).result = .failed ∧
      ¬(register .epollAdd false .new firstRequest kDefaultExpiredTime ⟨0, 0, by decide⟩).Atomic := by
  decide

end Epoll

namespace Server

/-- The `Epoll` object of a loop. -/
def epoll (w : Server) (l : LoopId) : Epoll where
  fd2channel := (w.loops l).fd2channel
  fd2http := (w.loops l).fd2http
  interest := (w.loops l).interest
  timerManager :=
    { timerNodeQueue := (w.loops l).timerNodeQueue
      nodes := w.nodes
      timer := fun c => (w.objects c).bind fun o => o.http.timer }

end Server

/-- A connection's channel, known by the connection. -/
def Conn.request (o : Conn) (c : ConnId) : ChannelRequest := ⟨c, o.http.channel, some c⟩

namespace Server

section Registered

variable {w w' : Server} {l : LoopId} {c : ConnId} {o : Conn} {fd timeout : Nat} {ctl : Bool}

theorem added_epoll (w : Server) (c : ConnId) (o : Conn) (timeout : Nat) (loop' : IoLoop) :
    (w.added c o timeout loop').epoll o.loop =
      { fd2channel := loop'.fd2channel
        fd2http := loop'.fd2http
        interest := loop'.interest
        timerManager := (w.epoll o.loop).timerManager.addTimer c timeout w.now } := by
  have timers : (fun d => (Function.update w.objects c (some (w.relinked o timeout)) d).bind
        fun o => o.http.timer) =
      Function.update (fun d => (w.objects d).bind fun o => o.http.timer) c (some w.nodes) := by
    funext d
    by_cases same : d = c
    · subst same
      simp [relinked]
    · simp [Function.update_of_ne same]
  simp [epoll, TimerManager.addTimer, added, timers]

theorem epollAdd_epoll (positive : 0 < timeout) : (epollAdd ctl w c o timeout).epoll o.loop =
    (Epoll.epollAdd ctl (w.epoll o.loop) (o.request c) timeout w.now).epoll := by
  rw [epollAdd_eq, added_epoll]
  cases ctl with
  | false => simp [Epoll.epollAdd, Epoll.addTimer, Epoll.ctlDone, Conn.request, positive, epoll]
  | true => simp [Epoll.epollAdd, Epoll.addTimer, Epoll.ctlDone, Conn.request, positive, epoll]

theorem epollMod_epoll (positive : 0 < timeout) : (epollMod ctl w c o timeout).epoll o.loop =
    (Epoll.epollMod ctl (w.epoll o.loop) (o.request c) timeout w.now).epoll := by
  rw [epollMod_eq, added_epoll]
  cases result : (o.http.channel.epollMod ctl).1 with
  | elided =>
      simp [Epoll.epollMod, Epoll.addTimer, Epoll.ctlDone, Conn.request, positive, epoll, modified,
        result]
  | registered mask =>
      simp [Epoll.epollMod, Epoll.addTimer, Epoll.ctlDone, Conn.request, positive, epoll, modified,
        result]
  | failed =>
      simp [Epoll.epollMod, Epoll.addTimer, Epoll.ctlDone, Conn.request, positive, epoll, modified,
        result]

theorem epollAdd_failed (w : Server) (c : ConnId) (o : Conn) (positive : 0 < timeout) :
    ¬(Epoll.epollAdd false (w.epoll o.loop) (o.request c) timeout w.now).Atomic := by
  intro atomic
  have empty := ((@Epoll.failure_atomic_iff .epollAdd _ _ _ _ _ rfl).mp atomic).1
  simp [Epoll.kept, positive, Conn.request] at empty

theorem dispatch_failed (reached : server.Reachable w) {ret : List ReadyChannel} {e : Event}
    {h : Handling} (phase : (w.loops l).phase = .events ((fd, c) :: ret))
    (here : w.objects c = some o) (ran : (o.http.polled e.revents).handleEvents (kernel e) = .ok h)
    (refused : (Epoll.epollMod ctl (w.epoll o.loop) ⟨c, h.http.channel, some c⟩ timeout w.now).result =
      .failed) :
    ¬(Epoll.epollMod ctl (w.epoll o.loop) ⟨c, h.http.channel, some c⟩ timeout w.now).Atomic := by
  have sound := reached_sound reached
  have listed : (fd, c) ∈ (w.loops l).ready := by simp [IoLoop.ready, phase]
  have owned := (sound.loops l).channels ((sound.loops l).ready listed)
  obtain ⟨p, alive, loop, fd_eq, -⟩ := (sound.loops l).registered owned
  rw [here] at alive
  cases alive
  subst loop fd_eq
  have channel : h.http.channel.fd = o.http.fd :=
    (HttpData.handleEvents_dispatched ran).1.channelFd.trans (sound.object here).1
  intro atomic
  have empty := ((@Epoll.failure_atomic_iff .epollMod _ _ _ _ _ refused).mp atomic).1
  simp [Epoll.kept, channel, epoll, owned] at empty

end Registered

end Server

end WebServer
