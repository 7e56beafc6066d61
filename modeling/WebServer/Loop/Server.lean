import WebServer.Http.Dispatch
import WebServer.Http.Session
import WebServer.Loop.Timer

/-! # The server process

The connections of all event loops, what refers to them, and the acceptor that hands them out. A
step belongs to one thread. Threads meet only at the functor queues, at the descriptors of the
process and at the clock, so everything a thread does between two such meetings is one step; the
end of an object that nothing refers to any more is a step of its own. Wake-ups are left out: a
loop may return from `epoll_wait` at any time and with any descriptors.
-/

namespace WebServer

open Lib

abbrev LoopId := Nat

/-- An `HttpData` object. -/
structure Conn where
  http : HttpData
  loop : LoopId
  /-- When `AddTimer` was last called for it, and with which timeout. -/
  lastAdd : Option (Timeval × Nat)

/-- A channel that `Poll` returned: the event's descriptor and the connection of the channel. -/
abbrev ReadyChannel := Nat × ConnId

/-- Where a loop's thread stands in `Loop`. -/
inductive IoPhase where
  | poll
  /-- The channels still to be handled. -/
  | events (ret : List ReadyChannel)
  /-- The swapped-out functors still to be run. -/
  | functors (rest : List ConnId)
  | expired
  deriving DecidableEq

/-- An `EventLoop` with its `Epoll` and `TimerManager`. Its functors are `NewEvent` calls, each bound
    to a connection. -/
structure IoLoop where
  phase : IoPhase
  fd2channel : Nat → Option ConnId
  fd2http : Nat → Option ConnId
  /-- The masks that the kernel holds. -/
  interest : Nat → Option Mask
  timerNodeQueue : List TimerNode
  pendingFunctors : List ConnId
  /-- The vector that `DoPendingFunctors` swaps with, until its end. -/
  functors : List ConnId

/-- A descriptor of the process that is open. -/
inductive Descriptor where
  /-- It came from `accept`. -/
  | accepted (c : ConnId)
  /-- Any other: listening, polling and wake-up descriptors. -/
  | system
  deriving DecidableEq

/-- A run of `HandleClose`; one by a timer node's destructor notes the last `AddTimer` and the time
    of the destruction. -/
structure CloseRecord where
  conn : ConnId
  byTimer : Option (Option (Timeval × Nat) × Timeval)

inductive Crash where
  | fault (fault : Fault)
  /-- A handler ran on an object that was gone. -/
  | dangling

structure Server where
  /-- The `HttpData` objects that were not destroyed. -/
  objects : ConnId → Option Conn
  loops : LoopId → IoLoop
  /-- `req_info` of `HandNewConn`. -/
  reqInfo : Option ConnId
  descriptors : Nat → Option Descriptor
  now : Timeval
  /-- The number of descriptors that `accept` has returned. -/
  accepted : Nat
  /-- The number of timer nodes made. -/
  nodes : Nat
  /-- The accepted descriptors on which `close` was called, by their number. -/
  closed : List ConnId
  handleClosed : List CloseRecord
  crashed : Option Crash

def kMaxFds : Nat := 100000

namespace IoLoop

def new : IoLoop where
  phase := .poll
  fd2channel _ := none
  fd2http _ := none
  interest _ := none
  timerNodeQueue := []
  pendingFunctors := []
  functors := []

/-- A one-shot registration that was reported asks for nothing any more. -/
def disarm (interest : Nat → Option Mask) (fd : Nat) : Option Mask :=
  (interest fd).map fun mask =>
    if mask.has EPOLLONESHOT then mask &&& (EPOLLET ||| EPOLLONESHOT) else mask

end IoLoop

namespace Server

/-- A process whose loops have started; `system` are its other descriptors. -/
def start (now : Timeval) (system : List Nat) : Server where
  objects _ := none
  loops _ := .new
  reqInfo := none
  descriptors fd := if fd ∈ system then some .system else none
  now
  accepted := 0
  nodes := 0
  closed := []
  handleClosed := []
  crashed := none

def setConn (w : Server) (c : ConnId) (o : Conn) : Server :=
  { w with objects := Function.update w.objects c (some o) }

def setLoop (w : Server) (l : LoopId) (loop : IoLoop) : Server :=
  { w with loops := Function.update w.loops l loop }

def setPhase (w : Server) (l : LoopId) (phase : IoPhase) : Server :=
  w.setLoop l { w.loops l with phase }

@[simp] theorem setConn_objects (w : Server) (c : ConnId) (o : Conn) :
    (w.setConn c o).objects = Function.update w.objects c (some o) := rfl

@[simp] theorem setConn_loops (w : Server) (c : ConnId) (o : Conn) :
    (w.setConn c o).loops = w.loops := rfl

@[simp] theorem setLoop_objects (w : Server) (l : LoopId) (loop : IoLoop) :
    (w.setLoop l loop).objects = w.objects := rfl

@[simp] theorem setLoop_loops (w : Server) (l : LoopId) (loop : IoLoop) :
    (w.setLoop l loop).loops = Function.update w.loops l loop := rfl

/-- `TimerManager::AddTimer`, with `LinkTimer`. -/
def addTimer (w : Server) (c : ConnId) (o : Conn) (timeout : Nat) : Server × Conn :=
  let loop := w.loops o.loop
  let queue := loop.timerNodeQueue ++ [.new w.nodes c timeout w.now]
  ({ w.setLoop o.loop { loop with timerNodeQueue := queue } with nodes := w.nodes + 1 },
    { o with http := { o.http with timer := some w.nodes }, lastAdd := some (w.now, timeout) })

/-- `EpollAdd` with a positive timeout; `ctl` tells whether `epoll_ctl` succeeds. -/
def epollAdd (ctl : Bool) (w : Server) (c : ConnId) (o : Conn) (timeout : Nat) : Server :=
  let (w, o) := w.addTimer c o timeout
  let loop := w.loops o.loop
  let fd := o.http.channel.fd
  let mask := o.http.channel.events
  let o := { o with http.channel := o.http.channel.equalAndUpdateLastEvents.2 }
  let loop := { loop with
    fd2http := Function.update loop.fd2http fd (some c)
    fd2channel := Function.update loop.fd2channel fd (if ctl then some c else none)
    interest := if ctl then Function.update loop.interest fd (some mask) else loop.interest }
  (w.setLoop o.loop loop).setConn c o

/-- `EpollMod` with a positive timeout. -/
def epollMod (ctl : Bool) (w : Server) (c : ConnId) (o : Conn) (timeout : Nat) : Server :=
  let (w, o) := w.addTimer c o timeout
  let loop := w.loops o.loop
  let fd := o.http.channel.fd
  let (result, channel) := o.http.channel.epollMod ctl
  let o := { o with http.channel := channel }
  let loop := match result with
    | .elided => loop
    | .registered mask => { loop with interest := Function.update loop.interest fd (some mask) }
    | .failed => { loop with fd2channel := Function.update loop.fd2channel fd none }
  (w.setLoop o.loop loop).setConn c o

/-- `EpollDel`; a failing `epoll_ctl` is only reported. -/
def epollDel (ctl : Bool) (w : Server) (o : Conn) : Server :=
  let loop := w.loops o.loop
  let fd := o.http.channel.fd
  w.setLoop o.loop { loop with
    fd2channel := Function.update loop.fd2channel fd none
    fd2http := Function.update loop.fd2http fd none
    interest := if ctl then Function.update loop.interest fd none else loop.interest }

/-- `HandleClose`. -/
def handleClose (ctl : Bool) (w : Server) (c : ConnId) (o : Conn)
    (byTimer : Option (Option (Timeval × Nat) × Timeval)) : Server :=
  let o := { o with http.connectionState := .hDisconnected }
  let w := w.setConn c o
  epollDel ctl { w with handleClosed := w.handleClosed ++ [⟨c, byTimer⟩] } o

/-- `Poll`: `epoll_wait` reports each of its descriptors once; `other` tells that the wake-up channel
    or the acceptor's is ready too. -/
def poll (w : Server) (l : LoopId) (reported : List Nat) (other : Bool) : Option Server :=
  let loop := w.loops l
  if loop.phase = .poll ∧ reported.Nodup then
    let ret : List ReadyChannel := reported.filterMap fun fd =>
      (loop.fd2channel fd).map fun c => (fd, c)
    some (w.setLoop l { loop with
      phase := if ret = [] ∧ other = false then .poll else .events ret
      interest := fun fd =>
        if fd ∈ reported then IoLoop.disarm loop.interest fd else loop.interest fd })
  else none

/-- Apply the `ClearReq` calls of a dispatch. -/
def clearTimers (w : Server) (l : LoopId) (cleared : List Nat) : Server :=
  let loop := w.loops l
  w.setLoop l { loop with timerNodeQueue := TimerNode.clearReqs cleared loop.timerNodeQueue }

/-- What the callbacks of a dispatched event meet. -/
def kernel (e : Event) : Kernel :=
  { reads := e.reads, writes := e.writes, files := e.files, looked := [], sent := [] }

/-- `HandleEvents` on the channel of connection `c`, whose `revents_` are those of the event. -/
def handleEvents (ctl : Bool) (w : Server) (c : ConnId) (e : Event) : Server :=
  match w.objects c with
  | none => { w with crashed := some .dangling }
  | some o =>
      match (o.http.polled e.revents).handleEvents (kernel e) with
      | .error fault => { w with crashed := some (.fault fault) }
      | .ok h =>
          let w := w.clearTimers o.loop h.http.cleared
          let o := { o with http := { h.http with cleared := [] } }
          match h.request with
          | .none => w.setConn c o
          | .updatePoller timeout => w.epollMod ctl c o timeout
          | .handleClose => w.handleClose ctl c o none

def dispatch (ctl : Bool) (w : Server) (l : LoopId) (e : Event) : Option Server :=
  match (w.loops l).phase with
  | .events ((_, c) :: ret) => some ((w.setPhase l (.events ret)).handleEvents ctl c e)
  | _ => none

/-- The swap of `DoPendingFunctors`. -/
def swap (w : Server) (l : LoopId) : Option Server :=
  let loop := w.loops l
  if loop.phase = .events [] then
    some (w.setLoop l { loop with
      phase := .functors loop.pendingFunctors
      functors := loop.pendingFunctors
      pendingFunctors := [] })
  else none

/-- `NewEvent`. -/
def newEvent (ctl : Bool) (w : Server) (c : ConnId) : Server :=
  match w.objects c with
  | none => { w with crashed := some .dangling }
  | some o =>
      epollAdd ctl w c { o with http := o.http.setEvents kDefaultEvent } kDefaultExpiredTime

/-- The next functor is called; after the last one the vector goes out of scope. -/
def runFunctor (ctl : Bool) (w : Server) (l : LoopId) : Option Server :=
  match (w.loops l).phase with
  | .functors (c :: rest) => some ((w.setPhase l (.functors rest)).newEvent ctl c)
  | .functors [] => some (w.setLoop l { w.loops l with phase := .expired, functors := [] })
  | _ => none

/-- Take a node out of the queue. -/
def eraseTimer (w : Server) (l : LoopId) (i : Nat) : Server :=
  let loop := w.loops l
  w.setLoop l { loop with timerNodeQueue := loop.timerNodeQueue.eraseIdx i }

/-- `pop`: the node is destroyed, which closes the connection it still holds. -/
def pop (ctl : Bool) (w : Server) (l : LoopId) (i : Nat) (n : TimerNode) : Server :=
  let w := w.eraseTimer l i
  match n.spHttpData.bind fun c => (w.objects c).map fun o => (c, o) with
  | none => w
  | some (c, o) =>
      let timer := if o.http.timer = some n.id then none else o.http.timer
      let o := { o with http.timer := timer }
      w.handleClose ctl c o (some (o.lastAdd, w.now))

/-- One turn of `HandleExpiredEvent`, with the node at `i` on top of the queue. -/
def handleExpired (ctl : Bool) (w : Server) (l : LoopId) (i : Nat) : Option Server :=
  let queue := (w.loops l).timerNodeQueue
  if (w.loops l).phase = .expired then
    match queue[i]? with
    | none => if queue = [] then some (w.setPhase l .poll) else none
    | some top =>
        if TimerNode.IsTop queue top then
          if top.deleted then some (w.pop ctl l i top)
          else
            let (valid, top) := top.isValid w.now
            if valid then some (w.setPhase l .poll) else some (w.pop ctl l i top)
        else none
  else none

/-- One turn of the loop in `HandNewConn`: `accept` returns a descriptor that was not open. -/
def accept (w : Server) (fd : Nat) (l : LoopId) (nonBlocking : Bool) : Option Server :=
  if w.reqInfo = none ∧ 0 < fd ∧ w.descriptors fd = none then
    let c := w.accepted
    let w := { w with accepted := w.accepted + 1 }
    if kMaxFds ≤ fd then some { w with closed := w.closed ++ [c] }
    else
      let w :=
        { w with descriptors := Function.update w.descriptors fd (some (.accepted c)) }
      if nonBlocking then
        let w := w.setConn c { http := HttpData.new fd, loop := l, lastAdd := none }
        let loop := w.loops l
        some { w.setLoop l { loop with pendingFunctors := loop.pendingFunctors ++ [c] } with
          reqInfo := some c }
      else some w
  else none

/-- A reference to the object is left: in the acceptor, or in its loop's tables, timers and
    functors. -/
def Referred (w : Server) (c : ConnId) (o : Conn) : Prop :=
  w.reqInfo = some c ∨ (w.loops o.loop).fd2http o.http.fd = some c ∨
    (∃ n ∈ (w.loops o.loop).timerNodeQueue, n.spHttpData = some c) ∨
    c ∈ (w.loops o.loop).pendingFunctors ∨ c ∈ (w.loops o.loop).functors

instance (w : Server) (c : ConnId) (o : Conn) : Decidable (w.Referred c o) :=
  inferInstanceAs (Decidable (_ ∨ _))

/-- `~HttpData`. The kernel forgets the registration of a descriptor that is closed. -/
def destroy (w : Server) (c : ConnId) : Option Server :=
  match w.objects c with
  | none => none
  | some o =>
      if w.Referred c o then none
      else
        let loop := w.loops o.loop
        let w := w.setLoop o.loop
          { loop with interest := Function.update loop.interest o.http.fd none }
        some { w with
          objects := Function.update w.objects c none
          descriptors := Function.update w.descriptors o.http.fd none
          closed := w.closed ++ [c] }

inductive Action where
  | accept (fd : Nat) (l : LoopId) (nonBlocking : Bool)
  /-- `req_info` goes out of scope. -/
  | acceptNext
  | poll (l : LoopId) (reported : List Nat) (other : Bool)
  | dispatch (l : LoopId) (e : Event) (ctl : Bool)
  | swap (l : LoopId)
  | runFunctor (l : LoopId) (ctl : Bool)
  | handleExpired (l : LoopId) (i : Nat) (ctl : Bool)
  | destroy (c : ConnId)
  | tick (now : Timeval)

def step (w : Server) (action : Action) : Option Server :=
  if w.crashed.isSome then none
  else match action with
    | .accept fd l nonBlocking => w.accept fd l nonBlocking
    | .acceptNext => some { w with reqInfo := none }
    | .poll l reported other => w.poll l reported other
    | .dispatch l e ctl => w.dispatch ctl l e
    | .swap l => w.swap l
    | .runFunctor l ctl => w.runFunctor ctl l
    | .handleExpired l i ctl => w.handleExpired ctl l i
    | .destroy c => w.destroy c
    | .tick now => if w.now.Before now then some { w with now } else none

end Server

/-- The server process, over all its runs. -/
def server : System Server Server.Action where
  init w := ∃ now system, w = Server.start now system
  step := Server.step

end WebServer
