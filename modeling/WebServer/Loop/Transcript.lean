import WebServer.Http.Isolation
import WebServer.Http.OrderedOutput
import WebServer.Http.Unread
import WebServer.Loop.Registration

/-! # What a connection writes over a run

The kernel delivers an event only to a connection that is open and registered for it, so what the socket
accepts over a run depends on the registrations between the events.
-/

namespace WebServer

open Lib

namespace Watched

/-- The bytes that the socket has accepted when the events, as far as the kernel delivers them, are
    dispatched. -/
def transcript (w : Watched Session) : List Event → Bytes
  | [] => w.owner.sent
  | e :: es =>
      if w.owner.Open ∧ w.registration.Delivers e.revents then
        if (w.after e).owner.crashed = none then transcript (w.after e) es
        else HttpData.accepted (w.owner.before e) (w.owner.kernel e)
      else transcript w es

/-- The connection when the events, as far as the kernel delivers them, are dispatched. -/
def run (w : Watched Session) : List Event → Watched Session
  | [] => w
  | e :: es =>
      if w.owner.Open ∧ w.registration.Delivers e.revents then run (w.after e) es else run w es

/-- The events that the kernel delivers are orderly. -/
def OrderlyRun (w : Watched Session) : List Event → Prop
  | [] => True
  | e :: es =>
      if w.owner.Open ∧ w.registration.Delivers e.revents then
        Orderly w.owner e ∧ OrderlyRun (w.after e) es
      else OrderlyRun w es

/-- Neither side has ended the connection. -/
def Alive (w : Watched Session) : Prop :=
  w.owner.crashed = none ∧ w.owner.http.connectionState = .hConnected

end Watched

namespace HttpData

variable {s t u : HttpData} {k kt : Kernel}

theorem handleConn_outBuffer (s : HttpData) :
    (s.handleConn.1.granted s.handleConn.2).outBuffer = s.outBuffer := by
  unfold handleConn
  dsimp only
  split_ifs <;> rfl

theorem handleReadTurn_of {again : Bool} {ku kt : Kernel} (received : receive s k = .ok (t, kt))
    (settled : settle t kt = (again, u, ku)) : handleReadTurn s k = .ok (again, u, ku) := by
  unfold handleReadTurn
  rw [received, ← settled]
  rfl

theorem handleRead_once {ku : Kernel} (turn : handleReadTurn s k = .ok (false, u, ku)) :
    handleRead s k = .ok (u, ku) := by
  rw [handleRead_eq, turn]
  rfl

theorem handleRead_nested {ku : Kernel} (turn : handleReadTurn s k = .ok (true, u, ku)) :
    handleRead s k = handleRead u ku := by
  rw [handleRead_eq, turn]
  rfl

end HttpData

namespace Watched

variable {w : Watched Session} {e : Event} {t : HttpData} {kt : Kernel}

theorem after_owner (w : Watched Session) (e : Event) : (w.after e).owner = w.owner.after e := by
  unfold Watched.after
  cases (w.owner.before e).handleEvents (w.owner.kernel e) with
  | error fault => rfl
  | ok h =>
      dsimp only
      cases h.request <;> rfl

theorem handled_read (input : e.revents = EPOLLIN)
    (read : HttpData.handleRead (w.owner.before e) (w.owner.kernel e) = .ok (t, kt)) :
    (w.owner.before e).handleEvents (w.owner.kernel e) =
      .ok { http := t.handleConn.1, kernel := kt, request := t.handleConn.2 } := by
  have alive : ¬ HttpData.HangUp e.revents := by
    rw [input]
    decide
  have readable : HttpData.Readable e.revents := by
    rw [input]
    decide
  have silent : e.revents.has EPOLLOUT = false := by
    rw [input]
    decide
  have part : HttpData.readPart e.revents (w.owner.before e) (w.owner.kernel e) = .ok (t, kt) := by
    unfold HttpData.readPart
    rw [if_pos readable]
    exact read
  rw [Session.handled_ok alive part]
  unfold HttpData.writePart
  simp only [silent, Bool.false_eq_true, if_false]

/-- The handlers of a readable event decide what the socket has accepted, and `HandleConn` whether the
    connection goes on. -/
theorem after_read (input : e.revents = EPOLLIN)
    (read : HttpData.handleRead (w.owner.before e) (w.owner.kernel e) = .ok (t, kt)) :
    (w.after e).owner =
        { w.owner with http := t.handleConn.1.granted t.handleConn.2, sent := kt.sent } ∧
      (t.handleConn.2 = .none → (w.after e).registration = w.reported e) := by
  have handled := handled_read input read
  constructor
  · rw [after_owner]
    unfold Session.after
    rw [handled]
  · intro parked
    unfold Watched.after
    rw [handled]
    simp only [parked]

theorem after_fault (input : e.revents = EPOLLIN) {fault : Fault}
    (failed : HttpData.handleRead (w.owner.before e) (w.owner.kernel e) = .error fault) :
    (w.after e).owner.crashed ≠ none := by
  have alive : ¬ HttpData.HangUp e.revents := by
    rw [input]
    decide
  have part : HttpData.readPart e.revents (w.owner.before e) (w.owner.kernel e) = .error fault := by
    unfold HttpData.readPart
    rw [if_pos (by rw [input]; decide)]
    exact failed
  rw [after_owner, Session.after, Session.handled_fault alive part]
  simp

theorem transcript_skip (undelivered : ¬ (w.owner.Open ∧ w.registration.Delivers e.revents))
    (es : List Event) : w.transcript (e :: es) = w.transcript es := by
  conv_lhs => unfold transcript
  rw [if_neg undelivered]

theorem transcript_stopped (stopped : ¬ w.owner.Open ∨ w.registration.armed = false)
    (es : List Event) : w.transcript es = w.owner.sent := by
  induction es with
  | nil => rfl
  | cons e es ih =>
      rw [transcript_skip, ih]
      rintro ⟨running, delivers⟩
      rcases stopped with closed | disarmed
      · exact closed running
      · rw [delivers.1] at disarmed
        cases disarmed

theorem transcript_cons (running : w.owner.Open) (delivers : w.registration.Delivers e.revents)
    (fine : (w.after e).owner.crashed = none) (es : List Event) :
    w.transcript (e :: es) = (w.after e).transcript es := by
  conv_lhs => unfold transcript
  rw [if_pos ⟨running, delivers⟩, if_pos fine]

theorem registered_mask (fd : Nat) : (registered fd).registration.mask = kDefaultEvent := rfl

theorem registered_delivers (fd : Nat) : (registered fd).registration.Delivers EPOLLIN := by
  refine ⟨rfl, ?_⟩
  show EPOLLIN &&& (kDefaultEvent ||| EPOLLERR ||| EPOLLHUP) = EPOLLIN
  decide

theorem registered_open (fd : Nat) : (registered fd).owner.Open := by
  refine ⟨rfl, ?_⟩
  show ConnectionState.hConnected ≠ .hDisconnected
  decide

/-- A fresh connection that is not registered again. -/
theorem transcript_parked (fd : Nat) (input : e.revents = EPOLLIN)
    (read : HttpData.handleRead ((Session.registered fd).before e) ((Session.registered fd).kernel e) =
      .ok (t, kt)) (parks : t.Parks ∨ t.Closes) (es : List Event) :
    (registered fd).transcript (e :: es) = kt.sent := by
  obtain ⟨owner, parked⟩ := after_read (w := registered fd) input read
  have fine : ((registered fd).after e).owner.crashed = none := by
    rw [owner]
    rfl
  rw [transcript_cons (registered_open fd) (input ▸ registered_delivers fd) fine]
  rw [transcript_stopped, owner]
  rcases parks with parks | closes
  · right
    rw [parked (HttpData.handleConn_parks parks)]
    unfold reported Registration.drain Registration.deliver
    dsimp only
    rw [registered_mask]
    exact Bool.and_eq_false_imp.mpr fun _ => by decide
  · left
    rw [owner, HttpData.handleConn_closes closes]
    exact fun running => running.2 rfl

theorem transcript_fault (fd : Nat) (input : e.revents = EPOLLIN) {fault : Fault}
    (turn : HttpData.handleReadTurn ((Session.registered fd).before e)
      ((Session.registered fd).kernel e) = .error fault) (es : List Event) :
    (registered fd).transcript (e :: es) = [] := by
  have ran : HttpData.handleRead ((Session.registered fd).before e)
      ((Session.registered fd).kernel e) = .error fault := by
    rw [HttpData.handleRead_eq, turn]
    rfl
  have crashed := after_fault (w := registered fd) input ran
  unfold transcript
  rw [if_pos ⟨registered_open fd, input ▸ registered_delivers fd⟩, if_neg crashed]
  rw [HttpData.accepted_eq, show (registered fd).owner = Session.registered fd from rfl, turn]
  rfl

/-- An event that brings no data. -/
def Quiet (e : Event) : Prop :=
  e.revents = EPOLLOUT ∨ e.revents = EPOLLIN ∧ e.reads = HttpData.ended 0

theorem handleWrite_nothing {s : HttpData} (empty : s.outBuffer = []) (k : Kernel) :
    (HttpData.handleWrite s k).1.outBuffer = [] ∧ (HttpData.handleWrite s k).2.sent = k.sent := by
  have loop : ∀ results, writeLoop results [] = ⟨.complete, [], results⟩ := by
    intro results
    cases results <;> rfl
  have wrote : writeN k s.outBuffer = (0, [], k) := by
    unfold writeN Kernel.write
    simp [empty, loop, WriteOutcome.accepted, toInt]
  unfold HttpData.handleWrite
  split_ifs
  · rw [wrote]
    simp
  · exact ⟨empty, rfl⟩

/-- The end of file alone makes a call send nothing. -/
theorem handleRead_ended {s : HttpData} {k : Kernel} (empty : s.outBuffer = [])
    (reads : k.reads = HttpData.ended 0) :
    ∃ t kt, HttpData.handleRead s k = .ok (t, kt) ∧ t.outBuffer = [] ∧ kt.sent = k.sent := by
  obtain ⟨inBuffer, received⟩ := HttpData.receive_ended (s := s) reads
  obtain ⟨u, received, closing, nothing⟩ : ∃ u, HttpData.receive s k = .ok (u, { k with reads := [] }) ∧
      u.connectionState = .hDisconnecting ∧ u.outBuffer = [] := ⟨_, received, rfl, empty⟩
  have idle : HttpData.flush u { k with reads := [] } = (u, { k with reads := [] }) :=
    if_neg (by simp [nothing])
  have settled : ∃ v, HttpData.settle u { k with reads := [] } = (false, v, { k with reads := [] }) ∧
      v.outBuffer = [] := by
    unfold HttpData.settle
    rw [idle]
    dsimp only
    split_ifs
    · exact ⟨_, rfl, nothing⟩
    · refine ⟨u.reset, ?_, nothing⟩
      have stays : u.reset.connectionState = .hDisconnecting := closing
      simp [stays]
    · exact ⟨_, rfl, nothing⟩
    · exact ⟨_, rfl, nothing⟩
  obtain ⟨v, settled, nothing⟩ := settled
  exact ⟨_, _, HttpData.handleRead_once (HttpData.handleReadTurn_of received settled), nothing, rfl⟩

theorem after_quiet (quiet : Quiet e) (empty : w.owner.http.outBuffer = []) :
    (w.after e).owner.crashed = w.owner.crashed ∧ (w.after e).owner.http.outBuffer = [] ∧
      (w.after e).owner.sent = w.owner.sent := by
  rcases quiet with writable | ⟨readable, reads⟩
  · have alive : ¬ HttpData.HangUp e.revents := by
      rw [writable]
      decide
    have unread : HttpData.readPart e.revents (w.owner.before e) (w.owner.kernel e) =
        .ok (w.owner.before e, w.owner.kernel e) := by
      unfold HttpData.readPart
      rw [if_neg (by rw [writable]; decide)]
    have written : HttpData.writePart e.revents (w.owner.before e) (w.owner.kernel e) =
        HttpData.handleWrite (w.owner.before e) (w.owner.kernel e) := by
      unfold HttpData.writePart
      rw [if_pos (by rw [writable]; decide)]
    obtain ⟨nothing, same⟩ := handleWrite_nothing (s := w.owner.before e) empty (w.owner.kernel e)
    rw [after_owner, Session.after, Session.handled_ok alive unread]
    simp only [written]
    exact ⟨trivial, (HttpData.handleConn_outBuffer _).trans nothing, same⟩
  · obtain ⟨t, kt, read, nothing, same⟩ := handleRead_ended (s := w.owner.before e) empty
      (show (w.owner.kernel e).reads = HttpData.ended 0 from reads)
    obtain ⟨owner, -⟩ := after_read readable read
    rw [owner]
    exact ⟨rfl, (HttpData.handleConn_outBuffer t).trans nothing, same⟩

theorem transcript_quiet {es : List Event} (quiet : ∀ e ∈ es, Quiet e)
    (empty : w.owner.http.outBuffer = []) : w.transcript es = w.owner.sent := by
  induction es generalizing w with
  | nil => rfl
  | cons e es ih =>
      have later : ∀ e ∈ es, Quiet e := fun e there => quiet e (List.mem_cons_of_mem _ there)
      obtain ⟨crashed, nothing, same⟩ := after_quiet (w := w) (quiet e List.mem_cons_self) empty
      unfold transcript
      split_ifs with delivered fine
      · rw [ih later nothing, same]
      · exact absurd (crashed.trans delivered.1.1) fine
      · exact ih later empty

theorem transcript_first (fd : Nat) (input : e.revents = EPOLLIN)
    (read : HttpData.handleRead ((Session.registered fd).before e) ((Session.registered fd).kernel e) =
      .ok (t, kt)) (empty : t.outBuffer = []) {es : List Event} (quiet : ∀ e ∈ es, Quiet e) :
    (registered fd).transcript (e :: es) = kt.sent := by
  obtain ⟨owner, -⟩ := after_read (w := registered fd) input read
  have fine : ((registered fd).after e).owner.crashed = none := by
    rw [owner]
    rfl
  have nothing : ((registered fd).after e).owner.http.outBuffer = [] := by
    rw [owner]
    exact (HttpData.handleConn_outBuffer t).trans empty
  rw [transcript_cons (registered_open fd) (input ▸ registered_delivers fd) fine,
    transcript_quiet quiet nothing, owner]

/-- A connection that is alive after an event was alive before. -/
theorem alive_before (alive : (w.after e).Alive) : w.Alive := by
  obtain ⟨fine, connected⟩ := alive
  rw [after_owner] at fine connected
  rcases Session.after_cases (σ := w.owner) (e := e) with
    ⟨-, same⟩ | ⟨-, ⟨fault, -, same⟩ | ⟨t, kt, read, same⟩⟩
  · rw [same] at fine connected
    exact ⟨fine, connected⟩
  · rw [same] at fine
    cases fine
  · rw [same] at fine connected
    refine ⟨fine, ?_⟩
    obtain ⟨-, kept⟩ := HttpData.handleConn_connected connected
    have received : t.connectionState = .hConnected := by
      rcases (HttpData.writePart_dispatched e.revents t kt).connectionState with same | closing
      · exact same.symm.trans kept
      · rw [closing] at kept
        cases kept
    rcases (HttpData.readPart_dispatched read).connectionState with same | closing
    · exact same.symm.trans received
    · rw [closing] at received
      cases received

theorem alive_start {es : List Event} (alive : (w.run es).Alive) : w.Alive := by
  induction es generalizing w with
  | nil => exact alive
  | cons e es ih =>
      unfold run at alive
      split_ifs at alive
      · exact alive_before (ih alive)
      · exact ih alive

theorem transcript_run {es : List Event} (alive : (w.run es).Alive) (fs : List Event) :
    w.transcript (es ++ fs) = (w.run es).transcript fs := by
  induction es generalizing w with
  | nil => rfl
  | cons e es ih =>
      rw [List.cons_append]
      unfold run at alive ⊢
      conv_lhs => unfold transcript
      split_ifs at alive ⊢ with delivered fine
      · exact ih alive
      · exact absurd (alive_start alive).1 fine
      · exact ih alive

theorem run_history (w : Watched Session) (es : List Event) :
    w.owner.http.history <+: (w.run es).owner.http.history := by
  induction es generalizing w with
  | nil => exact List.prefix_rfl
  | cons e es ih =>
      unfold run
      split_ifs
      · have before := after_history w.owner e
        rw [← after_owner] at before
        exact before.trans (ih (w.after e))
      · exact ih w

theorem run_ordered {es : List Event} (orderly : w.OrderlyRun es) (calm : Calm w.owner)
    (ordered : w.owner.http.Ordered w.owner.sent) :
    (w.run es).owner.http.Ordered (w.run es).owner.sent := by
  induction es generalizing w with
  | nil => exact ordered
  | cons e es ih =>
      unfold OrderlyRun at orderly
      unfold run
      split_ifs at orderly ⊢ with delivered
      · have fine := calm delivered.1.2
        refine ih orderly.2 ?_ ?_
        · rw [after_owner]
          exact after_calm fine
        · rw [after_owner]
          exact after_ordered fine orderly.1 ordered
      · exact ih orderly calm ordered

end Watched

end WebServer
