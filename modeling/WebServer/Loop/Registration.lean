import WebServer.Http.Dispatch
import WebServer.Http.Session
import WebServer.Loop.EventLoop

/-! # What the kernel watches for

`EpollMod` leaves `epoll_ctl` out when a channel asks for the mask that it asked for before. The kernel
then keeps a registration that has delivered edges and that `EPOLLONESHOT` may have disabled. Neither
matters: the only one-shot mask is the first one, and a dispatch that asks for the same mask again
has drained what the mask delivers.
-/

namespace WebServer

open Lib

namespace Mask

theorem has_of_and {mask other flag : Mask} (both : (mask &&& other).has flag = true) :
    other.has flag = true := by
  by_contra absent
  have none : other &&& flag = 0#32 := by simpa [has] using absent
  simp [has, BitVec.and_assoc, none] at both

end Mask

/-- The kernel's registration of a descriptor. -/
structure Registration where
  mask : Mask
  /-- `EPOLLONESHOT` has not disabled it. -/
  armed : Bool
  /-- An `EPOLLIN` edge was delivered since the last `epoll_ctl` and no handler has drained it. -/
  unread : Bool
  /-- The same of `EPOLLOUT`. -/
  unwritten : Bool
  deriving Repr, DecidableEq

namespace Registration

/-- `epoll_ctl`, adding or modifying: what is ready then is reported anew. -/
def control (mask : Mask) : Registration := ⟨mask, true, false, false⟩

/-- `epoll_wait` reports what is watched for, errors and hang-ups. -/
def Delivers (r : Registration) (revents : Mask) : Prop :=
  r.armed = true ∧ revents &&& (r.mask ||| EPOLLERR ||| EPOLLHUP) = revents

instance (r : Registration) (revents : Mask) : Decidable (r.Delivers revents) :=
  inferInstanceAs (Decidable (_ ∧ _))

/-- A report uses a one-shot registration up. -/
def deliver (revents : Mask) (r : Registration) : Registration :=
  { r with
    armed := r.armed && !r.mask.has EPOLLONESHOT
    unread := r.unread || revents.has EPOLLIN
    unwritten := r.unwritten || revents.has EPOLLOUT }

/-- The handlers have read or written as far as the descriptor went along. -/
def drain (read written : Bool) (r : Registration) : Registration :=
  { r with unread := r.unread && !read, unwritten := r.unwritten && !written }

/-- What `EpollMod` leaves of the registration. -/
def update (done : Channel.CtlMod) (r : Registration) : Registration :=
  match done with
  | .elided | .failed => r
  | .registered mask => control mask

variable {r : Registration} {revents flag : Mask}

theorem Delivers.watched (delivers : r.Delivers revents) (reported : revents.has flag = true)
    (other : Mask.has (EPOLLERR ||| EPOLLHUP) flag = false) : r.mask.has flag = true := by
  rw [← delivers.2] at reported
  have watched := Mask.has_of_and reported
  rw [BitVec.or_assoc, Mask.has_or, other, Bool.or_false] at watched
  exact watched

end Registration

/-- The owner of a channel, the registration of the channel and what the `EpollMod` of the last
    dispatch did, if that came to it. -/
structure Watched (Owner : Type) where
  owner : Owner
  registration : Registration
  mod : Option Channel.CtlMod

/-- After an `EpollMod` the registration is armed with `events()`; one that left `epoll_ctl` out has
    lost no edge. -/
def Watched.Faithful {Owner : Type} (channel : Owner → Channel) (w : Watched Owner) : Prop :=
  ∀ done, w.mod = some done →
    w.registration.armed = true ∧ w.registration.mask = (channel w.owner).events ∧
      (done = .elided → w.registration.unread = false ∧ w.registration.unwritten = false)

/-- `ReadN` reads until `EAGAIN` or end of file. -/
def endsDry : List ReadResult → Bool
  | [] => true
  | .ok bytes :: rest => bytes.length = 0 || endsDry rest
  | .eintr :: rest => endsDry rest
  | .eagain :: _ => true
  | .fail :: _ => false

namespace HttpData

/-- Every `ReadN` of `HandleRead`, with at most `depth` nested invocations, reads until `EAGAIN` or end
    of file. -/
def readsDryTo : (depth : Nat) → HttpData → Kernel → Bool
  | 0, _, _ => true
  | depth + 1, s, k =>
      endsDry k.reads &&
        match handleReadTurn s k with
        | .error _ => true
        | .ok (again, s, k) => !again || readsDryTo depth s k

/-- Every `ReadN` of `HandleRead` reads until `EAGAIN` or end of file. -/
def readsDry (s : HttpData) (k : Kernel) : Bool := readsDryTo (depthBound s k) s k

/-- `HandleWrite` writes until `EAGAIN` or until its buffer is empty. -/
def writesDry (s : HttpData) (k : Kernel) : Bool :=
  !s.error && s.connectionState ≠ .hDisconnected &&
    (writeLoop k.writes s.outBuffer).stop ≠ .failed

end HttpData

namespace Session

/-- The dispatch drains the input. -/
def drainsInput (σ : Session) (e : Event) : Bool :=
  !HttpData.HangUp e.revents && HttpData.Readable e.revents &&
    HttpData.readsDry (σ.before e) (σ.kernel e)

/-- The dispatch drains the output. -/
def drainsOutput (σ : Session) (e : Event) : Bool :=
  !HttpData.HangUp e.revents && e.revents.has EPOLLOUT &&
    match HttpData.readPart e.revents (σ.before e) (σ.kernel e) with
    | .error _ => false
    | .ok (t, kt) => HttpData.writesDry t kt

end Session

namespace Watched

/-- A connection that was just registered. -/
def registered (fd : Nat) : Watched Session where
  owner := .registered fd
  registration := .control (Session.registered fd).http.channel.events
  mod := none

/-- The registration when an event is dispatched, before any `EpollMod`. -/
def reported (w : Watched Session) (e : Event) : Registration :=
  (w.registration.deliver e.revents).drain (w.owner.drainsInput e) (w.owner.drainsOutput e)

/-- What a dispatch makes of a connection and its registration. -/
def after (w : Watched Session) (e : Event) : Watched Session :=
  let owner := w.owner.after e
  match (w.owner.before e).handleEvents (w.owner.kernel e) with
  | .error _ => { owner, registration := w.reported e, mod := none }
  | .ok h =>
      match h.request with
      | .updatePoller _ =>
          let done := (h.http.channel.epollMod true).1
          { owner, registration := (w.reported e).update done, mod := some done }
      | .none | .handleClose => { owner, registration := w.reported e, mod := none }

end Watched

/-- A connection and its registration, from `EpollAdd` on. -/
def watchedConnection : System (Watched Session) Event where
  init w := ∃ fd, w = .registered fd
  step w e := if w.owner.Open ∧ w.registration.Delivers e.revents then some (w.after e) else none

theorem readN_endsDry {reads : List ReadResult} {readSum : Nat} {inBuffer : Bytes}
    (fine : ¬ (readN reads readSum inBuffer).readNum < 0) : endsDry reads = true := by
  fun_induction readN reads readSum inBuffer with
  | case1 | case5 => rfl
  | case2 readSum inBuffer bytes rest eof => simp [endsDry, eof]
  | case3 readSum inBuffer bytes rest data ih => simp [endsDry, ih fine]
  | case4 readSum inBuffer rest ih => exact ih fine
  | case6 => exact absurd (by decide : (-1 : Int).bmod (2 ^ 32) < 0) fine

namespace HttpData

variable {s s' : HttpData} {k k' : Kernel}

theorem handleWrite_fine (s : HttpData) (k : Kernel)
    (fine : (handleWrite s k).1.error = false) : s.error = false := by
  by_contra failed
  have failed : s.error = true := by simpa using failed
  unfold handleWrite at fine
  rw [if_neg (by simp [failed])] at fine
  exact absurd fine (by simp [failed])

theorem writePart_fine {revents : Mask} (fine : (writePart revents s k).1.error = false) :
    s.error = false := by
  unfold writePart at fine
  split at fine
  · exact handleWrite_fine s k fine
  · exact fine

theorem settle_fine (s : HttpData) (k : Kernel) (fine : (settle s k).2.1.error = false) :
    s.error = false := by
  by_contra failed
  have failed : s.error = true := by simpa using failed
  unfold settle at fine
  rw [if_pos failed] at fine
  simp [failed] at fine

theorem handleReadTurn_endsDry {again : Bool} (start : s.connectionState ≠ .hDisconnecting)
    (turn : handleReadTurn s k = .ok (again, s', k')) (fine : s'.error = false) :
    endsDry k.reads = true := by
  obtain ⟨t, kt, ran, settled⟩ := handleReadTurn_parts turn
  have passed : t.error = false := by
    apply settle_fine t kt
    rw [settled]
    exact fine
  by_contra cut
  have failed : (readN k.reads 0 s.inBuffer).readNum < 0 := by
    by_contra read
    exact cut (readN_endsDry read)
  unfold receive at ran
  dsimp only at ran
  rw [if_neg start, if_pos failed] at ran
  cases ran
  cases passed

theorem handleReadTo_dry {depth : Nat} (start : s.connectionState ≠ .hDisconnecting)
    (ran : handleReadTo depth s k = .ok (s', k')) (fine : s'.error = false) :
    readsDryTo depth s k = true := by
  induction depth generalizing s k with
  | zero => rfl
  | succ depth ih =>
      unfold handleReadTo at ran
      unfold readsDryTo
      simp only [bind, Except.bind] at ran
      cases turn : handleReadTurn s k with
      | error fault => simp [turn] at ran
      | ok next =>
          obtain ⟨again, t, kt⟩ := next
          simp only [turn] at ran
          cases again with
          | false =>
              simp only [Bool.false_eq_true, if_false, Except.ok.injEq, Prod.mk.injEq] at ran
              obtain ⟨rfl, rfl⟩ := ran
              simp [handleReadTurn_endsDry start turn fine]
          | true =>
              obtain ⟨passed, running⟩ := handleReadTurn_running turn
              simp only [if_true] at ran
              simp [handleReadTurn_endsDry start turn passed, ih running ran]

theorem handleRead_dry (start : s.connectionState ≠ .hDisconnecting)
    (ran : handleRead s k = .ok (s', k')) (fine : s'.error = false) : readsDry s k = true :=
  handleReadTo_dry start ran fine

theorem handleWrite_dry (start : s.connectionState ≠ .hDisconnected)
    (fine : (handleWrite s k).1.error = false) : writesDry s k = true := by
  have before : s.error = false := handleWrite_fine s k fine
  unfold writesDry
  by_contra cut
  have failed : (writeLoop k.writes s.outBuffer).stop = .failed := by
    simpa [before, start] using cut
  have negative : (writeN k s.outBuffer).1 < 0 := by
    unfold writeN Kernel.write
    simp only [failed]
    decide
  unfold handleWrite at fine
  rw [if_pos (by simp [before, start])] at fine
  dsimp only at fine
  rw [if_pos negative] at fine
  split at fine <;> cases fine

/-- The masks that `HandleRead` and `HandleWrite` leave in `events_`. -/
def Asks (mask : Mask) : Prop :=
  mask = 0#32 ∨ mask = EPOLLIN ∨ mask = EPOLLOUT ∨ mask = EPOLLIN ||| EPOLLOUT

theorem Asks.input {mask : Mask} (asks : Asks mask) : Asks (mask ||| EPOLLIN) := by
  unfold Asks at asks ⊢
  rcases asks with rfl | rfl | rfl | rfl <;> decide

theorem Asks.output {mask : Mask} (asks : Asks mask) : Asks (mask ||| EPOLLOUT) := by
  unfold Asks at asks ⊢
  rcases asks with rfl | rfl | rfl | rfl <;> decide

theorem handleWrite_asks (k : Kernel) (asks : Asks s.channel.events) :
    Asks (handleWrite s k).1.channel.events := by
  simp only [handleWrite]
  split_ifs
  · exact Asks.output (.inl rfl)
  · exact .inl rfl
  · exact asks.output
  · exact asks
  · exact asks

theorem settle_asks (k : Kernel) (asks : Asks s.channel.events) :
    Asks (settle s k).2.1.channel.events := by
  have flushed : Asks (flush s k).1.channel.events := by
    unfold flush
    split
    · exact handleWrite_asks k asks
    · exact asks
  unfold settle
  split
  · exact asks
  · dsimp only
    split
    · exact flushed
    · split
      · exact flushed.input
      · exact flushed

theorem handleReadTurn_asks {again : Bool} (asks : Asks s.channel.events)
    (turn : handleReadTurn s k = .ok (again, s', k')) : Asks s'.channel.events := by
  obtain ⟨t, kt, ran, ended⟩ := handleReadTurn_parts turn
  have received : Asks t.channel.events := by
    rw [(receive_received ran).channel]
    exact asks
  have settled := settle_asks kt received
  rw [ended] at settled
  exact settled

theorem parts_ask {revents : Mask} (asks : Asks s.channel.events)
    (read : readPart revents s k = .ok (s', k')) :
    Asks (writePart revents s' k').1.channel.events := by
  have asked : Asks s'.channel.events := by
    unfold readPart at read
    split at read
    · exact handleRead_rule (P := fun t _ => Asks t.channel.events)
        (Q := fun t _ => Asks t.channel.events) asks
        (fun _ _ _ _ _ asks turn => handleReadTurn_asks asks turn)
        (fun _ _ _ _ _ asks turn => handleReadTurn_asks asks turn) read
    · cases read
      exact asks
  unfold writePart
  split
  · exact handleWrite_asks k' asked
  · exact asked

/-- A connection is registered again for reading or for writing, never for both. -/
theorem handleConn_updates {timeout : Nat} (asks : Asks s.channel.events)
    (update : s.handleConn.2 = .updatePoller timeout) :
    s.error = false ∧ s.connectionState = .hConnected ∧
      (s.handleConn.1.channel.events = EPOLLIN ||| EPOLLET ∨
        s.handleConn.1.channel.events = EPOLLOUT ||| EPOLLET ∧
          s.channel.events.has EPOLLOUT = true) := by
  by_cases running : (!s.seperateTimer.error && s.seperateTimer.connectionState = .hConnected) = true
  · have state : s.error = false ∧ s.connectionState = .hConnected := by
      rw [Bool.and_eq_true, Bool.not_eq_true', decide_eq_true_eq] at running
      exact running
    refine ⟨state.1, state.2, ?_⟩
    unfold handleConn
    dsimp only
    rw [if_pos running, show s.seperateTimer.channel.events = s.channel.events from rfl]
    rcases asks with none | input | output | both
    · rw [if_neg (by simp [none])]
      left
      split_ifs <;> simp [addEvents, setEvents, seperateTimer, none]
    · rw [if_pos (by simp [input, EPOLLIN]), if_neg (by rw [input]; decide)]
      left
      show s.channel.events ||| EPOLLET = EPOLLIN ||| EPOLLET
      rw [input]
    · rw [if_pos (by simp [output, EPOLLOUT]), if_neg (by rw [output]; decide)]
      right
      show s.channel.events ||| EPOLLET = EPOLLOUT ||| EPOLLET ∧ s.channel.events.has EPOLLOUT = true
      rw [output]
      exact ⟨rfl, by decide⟩
    · rw [if_pos (by simp [both, EPOLLIN, EPOLLOUT]), if_pos (by rw [both]; decide)]
      right
      rw [both]
      have cleared : 0#32 ||| EPOLLOUT ||| EPOLLET = EPOLLOUT ||| EPOLLET := by decide
      exact ⟨cleared, by decide⟩
  · unfold handleConn at update
    dsimp only at update
    rw [if_neg running] at update
    split at update <;> cases update

end HttpData

namespace HttpData

variable {s : HttpData}

theorem handleConn_stays {timeout : Nat} (update : s.handleConn.2 = .updatePoller timeout) :
    s.handleConn.1.connectionState = .hConnected := by
  have away : ¬ s.Parks := by
    intro parks
    rw [handleConn_parks parks] at update
    cases update
  have going : ¬ s.Closes := by
    intro closes
    rw [handleConn_closes closes] at update
    cases update
  obtain ⟨-, -, -, -, connected, -⟩ := handleConn_keeps away going
  exact connected

theorem handleConn_connected
    (connected : (s.handleConn.1.granted s.handleConn.2).connectionState = .hConnected) :
    s.error = false ∧ s.connectionState = .hConnected := by
  by_cases parks : s.Parks
  · rw [handleConn_parks parks] at connected
    have kept : s.handleConn.1.connectionState = .hConnected := connected
    rcases (handleConn_dispatched s).connectionState with same | closing
    · rw [same, parks.2.1] at kept
      cases kept
    · rw [closing] at kept
      cases kept
  · by_cases closes : s.Closes
    · rw [handleConn_closes closes] at connected
      cases connected
    · have going : ¬ (s.error = true ∨ s.connectionState ≠ .hConnected) := fun stops =>
        closes ⟨parks, stops⟩
      rw [not_or, not_not, Bool.not_eq_true] at going
      exact going

end HttpData

namespace Session

variable {σ : Session} {e : Event}

theorem handled_fault {fault : Fault} (alive : ¬ HttpData.HangUp e.revents)
    (failed : HttpData.readPart e.revents (σ.before e) (σ.kernel e) = .error fault) :
    (σ.before e).handleEvents (σ.kernel e) = .error fault := by
  have dispatch := HttpData.handleEvents_eq (s := σ.before e) (k := σ.kernel e) alive
  rw [dispatch, show (σ.before e).channel.revents = e.revents from rfl,
    show (σ.before e).setEvents 0#32 = σ.before e from rfl, failed]
  rfl

theorem handled_ok {t : HttpData} {kt : Kernel} (alive : ¬ HttpData.HangUp e.revents)
    (read : HttpData.readPart e.revents (σ.before e) (σ.kernel e) = .ok (t, kt)) :
    (σ.before e).handleEvents (σ.kernel e) =
      .ok { http := (HttpData.writePart e.revents t kt).1.handleConn.1
            kernel := (HttpData.writePart e.revents t kt).2
            request := (HttpData.writePart e.revents t kt).1.handleConn.2 } := by
  have dispatch := HttpData.handleEvents_eq (s := σ.before e) (k := σ.kernel e) alive
  rw [dispatch, show (σ.before e).channel.revents = e.revents from rfl,
    show (σ.before e).setEvents 0#32 = σ.before e from rfl, read]
  rfl

end Session

namespace Watched

variable {w w' : Watched Session} {e : Event}

/-- What holds of a connection and its registration after every dispatch. -/
structure Sound (w : Watched Session) : Prop where
  lastEvents : w.owner.http.channel.lastEvents = w.registration.mask
  mask : w.registration.mask = kDefaultEvent ∨ w.registration.armed = true ∧
    (w.registration.mask = EPOLLIN ||| EPOLLET ∨ w.registration.mask = EPOLLOUT ||| EPOLLET)
  unread : w.registration.unread = true →
    w.owner.crashed ≠ none ∨ w.owner.http.connectionState ≠ .hConnected
  unwritten : w.registration.unwritten = true → w.registration.mask.has EPOLLOUT = true
  faithful : w.Faithful fun σ => σ.http.channel

/-- A connection that stays connected was read until `EAGAIN` or end of file. -/
theorem Sound.reported_unread (sound : w.Sound) (running : w.owner.Open)
    (unread : (w.reported e).unread = true) :
    (w.owner.after e).crashed ≠ none ∨ (w.owner.after e).http.connectionState ≠ .hConnected := by
  simp only [reported, Registration.drain, Registration.deliver, Bool.and_eq_true,
    Bool.or_eq_true, Bool.not_eq_true'] at unread
  obtain ⟨edge, undrained⟩ := unread
  have before : w.owner.http.connectionState = .hConnected → e.revents.has EPOLLIN = true := by
    intro connected
    apply edge.resolve_left
    intro earlier
    rcases sound.unread earlier with crashed | other
    · exact crashed running.1
    · exact other connected
  obtain ⟨hangUp, same⟩ | ⟨alive, ⟨fault, -, same⟩ | ⟨t, kt, read, same⟩⟩ :=
    Session.after_cases (σ := w.owner) (e := e)
  · right
    rw [same]
    intro connected
    have input := before connected
    unfold HttpData.HangUp at hangUp
    simp [input] at hangUp
  · left
    rw [same]
    simp
  · right
    rw [same]
    intro connected
    obtain ⟨fine, kept⟩ := HttpData.handleConn_connected connected
    have passed : t.error = false := HttpData.writePart_fine fine
    have start : w.owner.http.connectionState = .hConnected := by
      have moved := (HttpData.readPart_dispatched read).trans
        (HttpData.writePart_dispatched e.revents t kt)
      rcases moved.connectionState with same | closing
      · rw [← kept, same]
        rfl
      · rw [closing] at kept
        cases kept
    have readable : HttpData.Readable e.revents := by
      unfold HttpData.Readable
      rw [BitVec.or_assoc, Mask.has_flag_or, before start]
      rfl
    have drained : HttpData.readsDry (w.owner.before e) (w.owner.kernel e) = true := by
      unfold HttpData.readPart at read
      rw [if_pos readable] at read
      apply HttpData.handleRead_dry _ read passed
      show w.owner.http.connectionState ≠ .hDisconnecting
      rw [start]
      simp
    unfold Session.drainsInput at undrained
    simp [alive, readable, drained] at undrained

theorem Sound.reported_unwritten (sound : w.Sound) (delivers : w.registration.Delivers e.revents)
    (unwritten : (w.reported e).unwritten = true) : w.registration.mask.has EPOLLOUT = true := by
  simp only [reported, Registration.drain, Registration.deliver, Bool.and_eq_true,
    Bool.or_eq_true] at unwritten
  rcases unwritten.1 with earlier | edge
  · exact sound.unwritten earlier
  · exact delivers.watched edge (by decide)

theorem Sound.reported_mask (sound : w.Sound) :
    (w.reported e).mask = kDefaultEvent ∨ (w.reported e).armed = true ∧
      ((w.reported e).mask = EPOLLIN ||| EPOLLET ∨ (w.reported e).mask = EPOLLOUT ||| EPOLLET) := by
  rcases sound.mask with first | ⟨armed, later⟩
  · exact .inl first
  · refine .inr ⟨?_, later⟩
    show (w.registration.armed && !w.registration.mask.has EPOLLONESHOT) = true
    rw [armed]
    rcases later with input | output
    · rw [input]
      decide
    · rw [output]
      decide

theorem Sound.silent (sound : w.Sound) (running : w.owner.Open)
    (delivers : w.registration.Delivers e.revents)
    (lastEvents : (w.owner.after e).http.channel.lastEvents = w.owner.http.channel.lastEvents) :
    Sound { owner := w.owner.after e, registration := w.reported e, mod := none } where
  lastEvents := lastEvents.trans sound.lastEvents
  mask := sound.reported_mask
  unread := sound.reported_unread running
  unwritten := sound.reported_unwritten delivers
  faithful := fun done modified => by cases modified

/-- A dispatch that asks for `EPOLLOUT` again has written until `EAGAIN` or all there was. -/
theorem drainsOutput_of_asked {t : HttpData} {kt : Kernel}
    (delivers : w.registration.Delivers e.revents)
    (output : w.registration.mask = EPOLLOUT ||| EPOLLET) (alive : ¬ HttpData.HangUp e.revents)
    (read : HttpData.readPart e.revents (w.owner.before e) (w.owner.kernel e) = .ok (t, kt))
    (fine : (HttpData.writePart e.revents t kt).1.error = false)
    (connected : (HttpData.writePart e.revents t kt).1.connectionState = .hConnected)
    (asked : (HttpData.writePart e.revents t kt).1.channel.events.has EPOLLOUT = true) :
    w.owner.drainsOutput e = true := by
  have unreadable : ¬ HttpData.Readable e.revents := by
    intro readable
    have watched := delivers.watched readable (by decide)
    rw [output] at watched
    exact absurd watched (by decide)
  have untouched : t = w.owner.before e := by
    unfold HttpData.readPart at read
    rw [if_neg unreadable] at read
    cases read
    rfl
  by_cases writable : e.revents.has EPOLLOUT = true
  · unfold HttpData.writePart at fine connected
    rw [if_pos writable] at fine connected
    have start : t.connectionState ≠ .hDisconnected := by
      intro disconnected
      rcases (HttpData.handleWrite_dispatched t kt).connectionState with same | closing
      · rw [same, disconnected] at connected
        cases connected
      · rw [closing] at connected
        cases connected
    unfold Session.drainsOutput
    simp only [read, HttpData.handleWrite_dry start fine, writable, alive]
    rfl
  · unfold HttpData.writePart at asked
    rw [if_neg writable, untouched] at asked
    exact absurd asked (by simp [Session.before, HttpData.polled])

/-- The mask that a dispatch asks for again is armed, and what it has delivered is drained. -/
theorem Sound.again (sound : w.Sound) (delivers : w.registration.Delivers e.revents)
    (alive : ¬ HttpData.HangUp e.revents) {t : HttpData} {kt : Kernel} {timeout : Nat}
    (read : HttpData.readPart e.revents (w.owner.before e) (w.owner.kernel e) = .ok (t, kt))
    (update : (HttpData.writePart e.revents t kt).1.handleConn.2 = .updatePoller timeout)
    (same : w.registration.mask =
      (HttpData.writePart e.revents t kt).1.handleConn.1.channel.events) :
    (w.reported e).armed = true ∧ (w.reported e).unwritten = false := by
  have asks : HttpData.Asks (HttpData.writePart e.revents t kt).1.channel.events :=
    HttpData.parts_ask (s := w.owner.before e) (.inl rfl) read
  obtain ⟨fine, connected, events⟩ := HttpData.handleConn_updates asks update
  rw [← same] at events
  constructor
  · rcases sound.reported_mask (e := e) with first | ⟨armed, -⟩
    · have first : w.registration.mask = kDefaultEvent := first
      rw [first] at events
      rcases events with input | ⟨output, -⟩
      · exact absurd input (by decide)
      · exact absurd output (by decide)
    · exact armed
  · by_contra edge
    have edge : (w.reported e).unwritten = true := by simpa using edge
    rcases events with input | ⟨output, asked⟩
    · have watched := sound.reported_unwritten delivers edge
      rw [input] at watched
      exact absurd watched (by decide)
    · have drained := drainsOutput_of_asked delivers output alive read fine connected asked
      simp [reported, Registration.drain, drained] at edge

/-- A dispatch that registers the connection again. -/
theorem Sound.updated (sound : w.Sound) (running : w.owner.Open)
    (delivers : w.registration.Delivers e.revents) (alive : ¬ HttpData.HangUp e.revents)
    {t : HttpData} {kt : Kernel} {timeout : Nat}
    (read : HttpData.readPart e.revents (w.owner.before e) (w.owner.kernel e) = .ok (t, kt))
    (update : (HttpData.writePart e.revents t kt).1.handleConn.2 = .updatePoller timeout) :
    (w.after e).Sound := by
  set u := (HttpData.writePart e.revents t kt).1 with parts
  have ended : w.owner.after e =
      { w.owner with
        http := u.handleConn.1.granted u.handleConn.2
        sent := (HttpData.writePart e.revents t kt).2.sent } := by
    unfold Session.after
    rw [Session.handled_ok alive read]
  have modified : w.after e =
      { owner := w.owner.after e
        registration := (w.reported e).update (u.handleConn.1.channel.epollMod true).1
        mod := some (u.handleConn.1.channel.epollMod true).1 } := by
    unfold after
    rw [Session.handled_ok alive read]
    simp only [← parts, update]
  have asks : HttpData.Asks u.channel.events :=
    HttpData.parts_ask (s := w.owner.before e) (.inl rfl) read
  obtain ⟨fine, connected, events⟩ := HttpData.handleConn_updates asks update
  have lastEvents : u.handleConn.1.channel.lastEvents = w.registration.mask := by
    rw [((HttpData.readPart_dispatched read).trans ((HttpData.writePart_dispatched _ _ _).trans
      (HttpData.handleConn_dispatched u))).lastEvents]
    exact sound.lastEvents
  have drained : (w.reported e).unread = false := by
    by_contra edge
    rcases sound.reported_unread running (by simpa using edge) with crashed | other
    · rw [ended] at crashed
      exact crashed running.1
    · rw [ended, update] at other
      exact other (HttpData.handleConn_stays update)
  have asked : (w.owner.after e).http.channel.events = u.handleConn.1.channel.events ∧
      (w.owner.after e).http.channel.lastEvents = u.handleConn.1.channel.events := by
    rw [ended, update]
    exact ⟨rfl, rfl⟩
  have watched : u.handleConn.1.channel.events = EPOLLIN ||| EPOLLET ∨
      u.handleConn.1.channel.events = EPOLLOUT ||| EPOLLET := events.imp_right And.left
  rw [modified]
  by_cases equal : u.handleConn.1.channel.lastEvents = u.handleConn.1.channel.events
  · have same : w.registration.mask = u.handleConn.1.channel.events := lastEvents.symm.trans equal
    obtain ⟨armed, written⟩ := sound.again delivers alive read update same
    have elided : (u.handleConn.1.channel.epollMod true).1 = .elided := by
      simp [Channel.epollMod, Channel.equalAndUpdateLastEvents, equal]
    rw [elided]
    exact {
      lastEvents := asked.2.trans same.symm
      mask := .inr ⟨armed, same.symm ▸ watched⟩
      unread := fun edge => by simp [Registration.update, drained] at edge
      unwritten := fun edge => by simp [Registration.update, written] at edge
      faithful := fun _ _ => ⟨armed, same.trans asked.1.symm, fun _ => ⟨drained, written⟩⟩ }
  · have registered : (u.handleConn.1.channel.epollMod true).1 =
        .registered u.handleConn.1.channel.events := by
      simp [Channel.epollMod, Channel.equalAndUpdateLastEvents, equal]
    rw [registered]
    exact {
      lastEvents := asked.2
      mask := .inr ⟨rfl, watched⟩
      unread := fun edge => by cases edge
      unwritten := fun edge => by cases edge
      faithful := fun _ _ => ⟨rfl, asked.1.symm, fun _ => ⟨rfl, rfl⟩⟩ }

theorem Sound.after (sound : w.Sound) (running : w.owner.Open)
    (delivers : w.registration.Delivers e.revents) : (w.after e).Sound := by
  by_cases hangUp : HttpData.HangUp e.revents
  · have handled : (w.owner.before e).handleEvents (w.owner.kernel e) =
        .ok { http := (w.owner.before e).setEvents 0#32, kernel := w.owner.kernel e } :=
      HttpData.handleEvents_hangUp (s := w.owner.before e) hangUp
    have modified : w.after e =
        { owner := w.owner.after e, registration := w.reported e, mod := none } := by
      unfold Watched.after
      rw [handled]
    rw [modified]
    apply sound.silent running delivers
    unfold Session.after
    rw [handled]
    rfl
  · cases read : HttpData.readPart e.revents (w.owner.before e) (w.owner.kernel e) with
    | error fault =>
        have handled := Session.handled_fault hangUp read
        have modified : w.after e =
            { owner := w.owner.after e, registration := w.reported e, mod := none } := by
          unfold Watched.after
          rw [handled]
        rw [modified]
        apply sound.silent running delivers
        unfold Session.after
        rw [handled]
    | ok result =>
        obtain ⟨t, kt⟩ := result
        have handled := Session.handled_ok hangUp read
        cases update : (HttpData.writePart e.revents t kt).1.handleConn.2 with
        | updatePoller timeout => exact sound.updated running delivers hangUp read update
        | none | handleClose =>
            have modified : w.after e =
                { owner := w.owner.after e, registration := w.reported e, mod := none } := by
              unfold Watched.after
              rw [handled]
              simp only [update]
            rw [modified]
            apply sound.silent running delivers
            unfold Session.after
            rw [handled]
            simp only [update]
            have kept := (HttpData.readPart_dispatched read).trans
              ((HttpData.writePart_dispatched e.revents t kt).trans
                (HttpData.handleConn_dispatched _))
            exact kept.lastEvents

theorem sound_registered (fd : Nat) : (registered fd).Sound where
  lastEvents := rfl
  mask := .inl rfl
  unread := fun edge => by cases edge
  unwritten := fun edge => by cases edge
  faithful := fun done modified => by cases modified

theorem reached_sound (reached : watchedConnection.Reachable w) : w.Sound := by
  apply reached.invariant
  · rintro w ⟨fd, rfl⟩
    exact sound_registered fd
  · intro w e w' sound _ moved
    simp only [watchedConnection] at moved
    split_ifs at moved with delivered
    cases moved
    exact sound.after delivered.1 delivered.2

end Watched

/-- What happens to the wake-up channel. A write between the two system calls of a dispatch counts as
    made after the dispatch. -/
inductive WakeupAction where
  | write
  | dispatch (revents : Mask)

namespace WakeupChannel

/-- `GetEventsRequest` hands the reported events to the channel. -/
def polled (revents : Mask) (w : WakeupChannel) : WakeupChannel :=
  { w with
    channel := { w.channel with revents, events := 0#32 }
    eventFd := if revents.has EPOLLIN then { w.eventFd with edge := false } else w.eventFd }

/-- The channel as `HandleConn` finds it. -/
def handled (revents : Mask) (w : WakeupChannel) : WakeupChannel :=
  if HttpData.Readable revents then (w.polled revents).handleRead else w.polled revents

/-- The dispatch empties the eventfd. -/
def drains (revents : Mask) (w : WakeupChannel) : Bool :=
  !HttpData.HangUp revents && HttpData.Readable revents && (w.handled revents).eventFd.counter = 0

theorem handleEvents_hangUp {revents : Mask} {w : WakeupChannel}
    (hangUp : HttpData.HangUp revents) :
    (w.polled revents).handleEvents true = w.polled revents := by
  have hangUp : (revents.has EPOLLHUP && !revents.has EPOLLIN) = true := hangUp
  simp only [handleEvents, Channel.handleEvents, show (w.polled revents).channel.revents = revents
    from rfl, hangUp, if_true]
  rfl

theorem handleEvents_eq {revents : Mask} {w : WakeupChannel} (alive : ¬ HttpData.HangUp revents) :
    (w.polled revents).handleEvents true = (w.handled revents).handleConn true := by
  have alive : (revents.has EPOLLHUP && !revents.has EPOLLIN) = false := by
    simpa [HttpData.HangUp] using alive
  simp only [handleEvents, Channel.handleEvents, show (w.polled revents).channel.revents = revents
    from rfl, alive, callbacks, Channel.invoke, bind, Except.bind, Option.isSome, Bool.and_false]
  unfold handled
  by_cases readable : revents.has (EPOLLIN ||| EPOLLPRI ||| EPOLLRDHUP) = true
  · rw [if_pos (show HttpData.Readable revents from readable)]
    by_cases writable : revents.has EPOLLOUT = true
    · simp only [readable, writable]
      rfl
    · simp only [readable, writable]
      rfl
  · rw [if_neg (show ¬ HttpData.Readable revents from readable)]
    by_cases writable : revents.has EPOLLOUT = true
    · simp only [readable, writable]
      rfl
    · simp only [readable, writable]
      rfl

end WakeupChannel

namespace Watched

/-- What a dispatch makes of the wake-up channel and its registration. -/
def afterWakeup (w : Watched WakeupChannel) (revents : Mask) : Watched WakeupChannel :=
  let owner := (w.owner.polled revents).handleEvents true
  let reported := (w.registration.deliver revents).drain (w.owner.drains revents) false
  if HttpData.HangUp revents then { owner, registration := reported, mod := none }
  else
    let done := ((w.owner.handled revents).channel.epollMod true).1
    { owner, registration := reported.update done, mod := some done }

end Watched

/-- The wake-up channel and its registration. -/
def watchedWakeup : System (Watched WakeupChannel) WakeupAction where
  init w := ∃ wakeupFd,
    w = { owner := .new wakeupFd
          registration := .control (WakeupChannel.new wakeupFd).channel.events
          mod := none }
  step w
    | .write => some { w with owner := w.owner.write }
    | .dispatch revents =>
        if w.registration.Delivers revents then some (w.afterWakeup revents) else none

namespace Watched

/-- What holds of the wake-up channel and its registration after every dispatch. -/
structure Woken (w : Watched WakeupChannel) : Prop where
  lastEvents : w.owner.channel.lastEvents = w.registration.mask
  mask : w.registration.mask = EPOLLIN ||| EPOLLET ∨ w.registration.mask = 0#32
  armed : w.registration.armed = true
  unread : w.registration.unread = false
  unwritten : w.registration.unwritten = false
  faithful : w.Faithful WakeupChannel.channel

variable {w w' : Watched WakeupChannel}

/-- The wake-up channel's registration when an event is dispatched, before any `EpollMod`. -/
theorem Woken.reported (woken : w.Woken) {revents : Mask} (delivers : w.registration.Delivers revents) :
    (w.registration.deliver revents).drain (w.owner.drains revents) false = w.registration := by
  have reusable : w.registration.mask.has EPOLLONESHOT = false := by
    rcases woken.mask with input | none
    · rw [input]
      decide
    · rw [none]
      decide
  have silent : revents.has EPOLLOUT = false := by
    by_contra output
    have watched := delivers.watched (by simpa using output) (by decide)
    rcases woken.mask with input | none
    · rw [input] at watched
      exact absurd watched (by decide)
    · rw [none] at watched
      exact absurd watched (by decide)
  have drained : (revents.has EPOLLIN && !w.owner.drains revents) = false := by
    by_cases input : revents.has EPOLLIN = true
    · have alive : ¬ HttpData.HangUp revents := by
        unfold HttpData.HangUp
        simp [input]
      have readable : HttpData.Readable revents := by
        unfold HttpData.Readable
        rw [BitVec.or_assoc, Mask.has_flag_or, input]
        rfl
      have empty : (w.owner.handled revents).eventFd.counter = 0 := by
        unfold WakeupChannel.handled
        rw [if_pos readable]
        rfl
      simp [WakeupChannel.drains, alive, readable, empty]
    · simp [input]
  simp only [Registration.deliver, Registration.drain, reusable, silent, woken.unread,
    woken.unwritten, Bool.not_false, Bool.and_true, Bool.false_or, drained]
  show _ = Registration.mk w.registration.mask w.registration.armed w.registration.unread
    w.registration.unwritten
  rw [woken.unread, woken.unwritten]

theorem Woken.asked (woken : w.Woken) {revents : Mask} (delivers : w.registration.Delivers revents) :
    (w.owner.handled revents).channel.lastEvents = w.registration.mask ∧
      ((w.owner.handled revents).channel.events = w.registration.mask ∨
        (w.owner.handled revents).channel.events = 0#32) := by
  unfold WakeupChannel.handled
  by_cases readable : HttpData.Readable revents
  · rw [if_pos readable]
    refine ⟨woken.lastEvents, ?_⟩
    have watched := delivers.watched readable (by decide)
    rcases woken.mask with input | none
    · left
      rw [input]
      rfl
    · rw [none] at watched
      exact absurd watched (by decide)
  · rw [if_neg readable]
    exact ⟨woken.lastEvents, .inr rfl⟩

theorem Woken.dispatch (woken : w.Woken) {revents : Mask}
    (delivers : w.registration.Delivers revents) : (w.afterWakeup revents).Woken := by
  have reported := woken.reported delivers
  unfold afterWakeup
  by_cases hangUp : HttpData.HangUp revents
  · rw [if_pos hangUp, reported, WakeupChannel.handleEvents_hangUp hangUp]
    exact {
      lastEvents := woken.lastEvents
      mask := woken.mask
      armed := woken.armed
      unread := woken.unread
      unwritten := woken.unwritten
      faithful := fun done modified => by cases modified }
  · rw [if_neg hangUp, reported, WakeupChannel.handleEvents_eq hangUp]
    obtain ⟨lastEvents, events⟩ := woken.asked delivers
    by_cases equal : w.registration.mask = (w.owner.handled revents).channel.events
    · have elided : ((w.owner.handled revents).channel.epollMod true) =
          (.elided, { (w.owner.handled revents).channel with
            lastEvents := (w.owner.handled revents).channel.events }) := by
        simp [Channel.epollMod, Channel.equalAndUpdateLastEvents, lastEvents, equal]
      unfold WakeupChannel.handleConn
      simp only [elided]
      exact {
        lastEvents := equal.symm
        mask := woken.mask
        armed := woken.armed
        unread := woken.unread
        unwritten := woken.unwritten
        faithful := fun _ _ => ⟨woken.armed, equal, fun _ => ⟨woken.unread, woken.unwritten⟩⟩ }
    · have registered : ((w.owner.handled revents).channel.epollMod true) =
          (.registered (w.owner.handled revents).channel.events,
            { (w.owner.handled revents).channel with
              lastEvents := (w.owner.handled revents).channel.events }) := by
        simp [Channel.epollMod, Channel.equalAndUpdateLastEvents, lastEvents, equal]
      unfold WakeupChannel.handleConn
      simp only [registered]
      exact {
        lastEvents := rfl
        mask := .inr (events.resolve_left fun same => equal same.symm)
        armed := rfl
        unread := rfl
        unwritten := rfl
        faithful := fun _ _ => ⟨rfl, rfl, fun _ => ⟨rfl, rfl⟩⟩ }

theorem reached_woken (reached : watchedWakeup.Reachable w) : w.Woken := by
  apply reached.invariant
  · rintro w ⟨wakeupFd, rfl⟩
    exact ⟨rfl, .inl rfl, rfl, rfl, rfl, fun done modified => by cases modified⟩
  · intro w action w' woken _ moved
    cases action with
    | write =>
        cases moved
        exact {
          lastEvents := woken.lastEvents
          mask := woken.mask
          armed := woken.armed
          unread := woken.unread
          unwritten := woken.unwritten
          faithful := woken.faithful }
    | dispatch revents =>
        simp only [watchedWakeup] at moved
        split_ifs at moved with delivered
        cases moved
        exact woken.dispatch delivered

end Watched

/-- Leaving `epoll_ctl` out is harmless, on connections and on the wake-up channel. -/
theorem elision_sound :
    (∀ w, watchedConnection.Reachable w → w.Faithful fun σ => σ.http.channel) ∧
      ∀ w, watchedWakeup.Reachable w → w.Faithful WakeupChannel.channel :=
  ⟨fun _ reached => (Watched.reached_sound reached).faithful,
    fun _ reached => (Watched.reached_woken reached).faithful⟩

/-- A readable event that brings some bytes. -/
def arrival (bytes : String) : Event where
  revents := EPOLLIN
  reads := [.ok (text bytes)]
  writes := []
  files := fun _ _ => .missing

/-- Of a request that comes in two parts, the first one's `EpollMod` replaces the one-shot mask and the
    second one's is left out. -/
theorem elision_sound_parts :
    ∃ w, watchedConnection.Reachable w ∧ w.mod = some .elided ∧ w.registration.armed = true ∧
      w.registration.mask = w.owner.http.channel.events ∧ w.registration.unread = false := by
  have first : watchedConnection.Reachable
      ((Watched.registered 5).after (arrival "GET /a HTTP/1.1\r\n")) :=
    .step (.init ⟨5, rfl⟩) trivial (if_pos (by decide))
  have second : watchedConnection.Reachable
      (((Watched.registered 5).after (arrival "GET /a HTTP/1.1\r\n")).after (arrival "A")) :=
    .step first trivial (if_pos (by decide +kernel))
  have left_out : (((Watched.registered 5).after
      (arrival "GET /a HTTP/1.1\r\n")).after (arrival "A")).mod = some .elided := by
    decide +kernel
  obtain ⟨armed, mask, drained⟩ := elision_sound.1 _ second .elided left_out
  exact ⟨_, second, left_out, armed, mask, (drained rfl).1⟩

end WebServer
