import WebServer.Http.HandleConn
import WebServer.Lib.Transition

/-! # Runs of one connection

A session is one connection from its registration on, together with what its socket has accepted.
Each step is a dispatched event, with the results of the system calls its handlers make. Which
events `epoll_wait` reports, and when, is left open, so every run of a connection is a run here.
-/

namespace WebServer

open Lib

/-- One event reported for the connection and what its handlers will meet. -/
structure Event where
  revents : Mask
  reads : List ReadResult
  writes : List WriteResult
  files : Nat → Bytes → FileView

structure Session where
  http : HttpData
  sent : Bytes
  /-- Set when a handler did not return. -/
  crashed : Option Fault

namespace HttpData

/-- `GetEventsRequest` hands the reported events to the channel. -/
def polled (revents : Mask) (s : HttpData) : HttpData :=
  { s with channel := { s.channel with revents, events := 0#32 } }

/-- `NewEvent` up to the call of `epoll_ctl`. -/
def newEvent (s : HttpData) : HttpData :=
  { s with channel := (s.setEvents kDefaultEvent).channel.equalAndUpdateLastEvents.2 }

/-- What the loop does to the connection on a request of `HandleConn`. -/
def granted (request : LoopRequest) (s : HttpData) : HttpData :=
  match request with
  | .none => s
  | .updatePoller _ => { s with channel := s.channel.equalAndUpdateLastEvents.2 }
  | .handleClose => { s with connectionState := .hDisconnected }

end HttpData

namespace Session

/-- A connection that was just registered. -/
def registered (fd : Nat) : Session :=
  { http := (HttpData.new fd).newEvent, sent := [], crashed := none }

/-- The connection as an event's handlers find it. -/
def before (σ : Session) (e : Event) : HttpData := σ.http.polled e.revents

/-- What the handlers of an event meet. -/
def kernel (σ : Session) (e : Event) : Kernel :=
  { reads := e.reads, writes := e.writes, files := e.files, looked := [], sent := σ.sent }

/-- No handler has failed and the connection is not closed. -/
def Open (σ : Session) : Prop := σ.crashed = none ∧ σ.http.connectionState ≠ .hDisconnected

instance (σ : Session) : Decidable σ.Open := inferInstanceAs (Decidable (_ ∧ _))

/-- The session after an event. -/
def after (σ : Session) (e : Event) : Session :=
  match (σ.before e).handleEvents (σ.kernel e) with
  | .error fault => { σ with crashed := some fault }
  | .ok h => { σ with http := h.http.granted h.request, sent := h.kernel.sent }

def step (σ : Session) (e : Event) : Option Session :=
  if σ.Open then some (σ.after e) else none

theorem step_some {σ σ' : Session} {e : Event} (moved : σ.step e = some σ') :
    σ.Open ∧ σ' = σ.after e := by
  simp only [step] at moved
  split_ifs at moved with running
  exact ⟨running, (Option.some.inj moved).symm⟩

/-- What a dispatch does, by the callbacks that run. -/
theorem after_cases {σ : Session} {e : Event} :
    (HttpData.HangUp e.revents ∧
        σ.after e = { σ with http := (σ.before e).setEvents 0#32 }) ∨
      ¬ HttpData.HangUp e.revents ∧
        ((∃ fault, HttpData.readPart e.revents (σ.before e) (σ.kernel e) = .error fault ∧
            σ.after e = { σ with crashed := some fault }) ∨
          ∃ t kt, HttpData.readPart e.revents (σ.before e) (σ.kernel e) = .ok (t, kt) ∧
            σ.after e =
              { σ with
                http := (HttpData.writePart e.revents t kt).1.handleConn.1.granted
                  (HttpData.writePart e.revents t kt).1.handleConn.2
                sent := (HttpData.writePart e.revents t kt).2.sent }) := by
  have unset : (σ.before e).setEvents 0#32 = σ.before e := rfl
  by_cases hangUp : HttpData.HangUp e.revents
  · left
    refine ⟨hangUp, ?_⟩
    rw [after, HttpData.handleEvents_hangUp (s := σ.before e) hangUp]
    rfl
  · right
    refine ⟨hangUp, ?_⟩
    have alive : ¬ HttpData.HangUp (σ.before e).channel.revents := hangUp
    have dispatch := HttpData.handleEvents_eq (k := σ.kernel e) alive
    rw [unset] at dispatch
    cases read : HttpData.readPart e.revents (σ.before e) (σ.kernel e) with
    | error fault =>
        left
        refine ⟨fault, rfl, ?_⟩
        rw [after, dispatch]
        simp only [before, HttpData.polled] at read ⊢
        rw [read]
        rfl
    | ok result =>
        obtain ⟨t, kt⟩ := result
        right
        refine ⟨t, kt, rfl, ?_⟩
        rw [after, dispatch]
        simp only [before, HttpData.polled] at read ⊢
        rw [read]
        rfl

end Session

/-- One connection, over all its runs. -/
def connection : System Session Event where
  init σ := ∃ fd, σ = Session.registered fd
  step := Session.step

theorem connection_after {C : Session → Event → Prop} {σ : Session} {e : Event}
    (reached : connection.Reached C σ) (met : C σ e) (running : σ.Open) :
    connection.Reached C (σ.after e) :=
  .step reached met (if_pos running)

end WebServer
