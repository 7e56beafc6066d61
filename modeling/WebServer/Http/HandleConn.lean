import WebServer.Http.Turns

/-! # One dispatched event of a connection

`HandleConn` decides whether the poller keeps the connection. `HttpData.handleEvents` is
`Channel.handleEvents` with the three callbacks that the constructor of `HttpData` sets.
-/

namespace WebServer

open Lib

/-- What `HandleConn` asks the event loop for. -/
inductive LoopRequest where
  | none
  /-- `UpdatePoller(channel_, timeout)`. -/
  | updatePoller (timeout : Nat)
  /-- `RunInLoop(HandleClose)`, which the loop's own thread runs at once. -/
  | handleClose
  deriving Repr, DecidableEq

/-- The state that the callbacks of a connection act on. -/
structure Handling where
  http : HttpData
  kernel : Kernel
  request : LoopRequest := .none

namespace HttpData

/-- `HandleConn`. -/
def handleConn (s : HttpData) : HttpData × LoopRequest :=
  let s := s.seperateTimer
  if !s.error && s.connectionState = .hConnected then
    if s.channel.events ≠ 0#32 then
      let timeout := if s.keepAlive then kDefaultKeepAliveTime else kDefaultExpiredTime
      let s := if s.channel.events.has EPOLLIN && s.channel.events.has EPOLLOUT
        then (s.setEvents 0#32).addEvents EPOLLOUT else s
      (s.addEvents EPOLLET, .updatePoller timeout)
    else if s.keepAlive then
      (s.addEvents (EPOLLIN ||| EPOLLET), .updatePoller kDefaultKeepAliveTime)
    else
      (s.addEvents (EPOLLIN ||| EPOLLET), .updatePoller (kDefaultKeepAliveTime >>> 1))
  else if !s.error && s.connectionState = .hDisconnecting && s.channel.events.has EPOLLOUT then
    (s.setEvents (EPOLLOUT ||| EPOLLET), .none)
  else (s, .handleClose)

/-- The callbacks set by the constructor. -/
def callbacks : Channel.Callbacks Handling where
  setEvents events h := { h with http := h.http.setEvents events }
  readHandler := some fun h =>
    (handleRead h.http h.kernel).map fun (s, k) => { h with http := s, kernel := k }
  writeHandler := some fun h =>
    let (s, k) := handleWrite h.http h.kernel
    .ok { h with http := s, kernel := k }
  connHandler := some fun h =>
    let (s, request) := handleConn h.http
    .ok { h with http := s, request }

/-- `HandleEvents` on the connection's channel. -/
def handleEvents (s : HttpData) (k : Kernel) : Except Fault Handling :=
  Channel.handleEvents callbacks s.channel.revents { http := s, kernel := k }

/-- The mask asks for a read. -/
def Readable (revents : Mask) : Prop := revents.has (EPOLLIN ||| EPOLLPRI ||| EPOLLRDHUP) = true

/-- The dispatch ends before any callback. -/
def HangUp (revents : Mask) : Prop := (revents.has EPOLLHUP && !revents.has EPOLLIN) = true

instance (revents : Mask) : Decidable (Readable revents) := inferInstanceAs (Decidable (_ = true))

instance (revents : Mask) : Decidable (HangUp revents) := inferInstanceAs (Decidable (_ = true))

/-- The read callback, run when the mask asks for it. -/
def readPart (revents : Mask) (s : HttpData) (k : Kernel) : Outcome :=
  if Readable revents then handleRead s k else .ok (s, k)

/-- The write callback, run when the mask asks for it. -/
def writePart (revents : Mask) (s : HttpData) (k : Kernel) : HttpData × Kernel :=
  if revents.has EPOLLOUT then handleWrite s k else (s, k)

theorem handleEvents_hangUp {s : HttpData} {k : Kernel} (hangUp : HangUp s.channel.revents) :
    handleEvents s k = .ok { http := s.setEvents 0#32, kernel := k } := by
  have hangUp : (s.channel.revents.has EPOLLHUP && !s.channel.revents.has EPOLLIN) = true := hangUp
  simp only [handleEvents, Channel.handleEvents, hangUp, if_true]
  rfl

theorem handleEvents_eq {s : HttpData} {k : Kernel} (alive : ¬ HangUp s.channel.revents) :
    handleEvents s k = (readPart s.channel.revents (s.setEvents 0#32) k).map fun (t, kt) =>
      let (u, ku) := writePart s.channel.revents t kt
      let (v, request) := handleConn u
      { http := v, kernel := ku, request } := by
  have alive : (s.channel.revents.has EPOLLHUP && !s.channel.revents.has EPOLLIN) = false := by
    simpa [HangUp] using alive
  simp only [handleEvents, Channel.handleEvents, alive, callbacks, Channel.invoke, readPart,
    writePart, Readable, bind, Except.bind, Except.map, Option.isSome, Bool.and_false]
  by_cases readable : s.channel.revents.has (EPOLLIN ||| EPOLLPRI ||| EPOLLRDHUP) = true
  · cases handleRead (s.setEvents 0#32) k with
    | error e => simp [readable]
    | ok result => by_cases writable : s.channel.revents.has EPOLLOUT = true <;>
        simp [readable, writable]
  · by_cases writable : s.channel.revents.has EPOLLOUT = true <;> simp [readable, writable]

end HttpData

end WebServer
