import WebServer.Http.HandleConn

/-! # What a dispatch keeps and what it asks for

A dispatch never changes the descriptor, detaches the timer at most once and does not close the
connection by itself. When `HandleConn` is reached after a read or a write, output that is left is
being waited for: `events_` has `EPOLLOUT`.
-/

namespace WebServer.HttpData

open Lib

/-- What the handlers of one dispatch keep. -/
structure Dispatched (s s' : HttpData) : Prop where
  fd : s'.fd = s.fd
  channelFd : s'.channel.fd = s.channel.fd
  lastEvents : s'.channel.lastEvents = s.channel.lastEvents
  timer : s'.timer = s.timer ∧ s'.cleared = s.cleared ∨
    s'.timer = none ∧ s'.cleared = s.cleared ++ s.timer.toList
  connectionState : s'.connectionState = s.connectionState ∨ s'.connectionState = .hDisconnecting
  /-- No handler asks for `EPOLLONESHOT`. -/
  oneShot : s.channel.events.has EPOLLONESHOT = false → s'.channel.events.has EPOLLONESHOT = false

variable {s s' s'' : HttpData} {k k' : Kernel}

theorem Dispatched.refl (s : HttpData) : Dispatched s s :=
  ⟨rfl, rfl, rfl, .inl ⟨rfl, rfl⟩, .inl rfl, id⟩

theorem Dispatched.trans (first : Dispatched s s') (second : Dispatched s' s'') :
    Dispatched s s'' where
  fd := second.fd.trans first.fd
  channelFd := second.channelFd.trans first.channelFd
  lastEvents := second.lastEvents.trans first.lastEvents
  timer := by
    rcases second.timer with ⟨timer, cleared⟩ | ⟨timer, cleared⟩
    · rw [timer, cleared]
      exact first.timer
    · right
      refine ⟨timer, ?_⟩
      rcases first.timer with ⟨before, same⟩ | ⟨before, same⟩
      · rw [cleared, before, same]
      · rw [cleared, before, same, Option.toList_none, List.append_nil]
  connectionState := by
    rcases second.connectionState with same | closing
    · rw [same]
      exact first.connectionState
    · exact .inr closing
  oneShot := second.oneShot ∘ first.oneShot

theorem Dispatched.open (dispatched : Dispatched s s')
    (running : s.connectionState ≠ .hDisconnected) : s'.connectionState ≠ .hDisconnected := by
  rcases dispatched.connectionState with same | closing
  · rw [same]
    exact running
  · simp [closing]

theorem setEvents_dispatched {events : Mask} (s : HttpData)
    (oneShot : events.has EPOLLONESHOT = false) : Dispatched s (s.setEvents events) :=
  ⟨rfl, rfl, rfl, .inl ⟨rfl, rfl⟩, .inl rfl, fun _ => oneShot⟩

theorem addEvents_dispatched {flag : Mask} (s : HttpData)
    (oneShot : flag.has EPOLLONESHOT = false) : Dispatched s (s.addEvents flag) where
  fd := rfl
  channelFd := rfl
  lastEvents := rfl
  timer := .inl ⟨rfl, rfl⟩
  connectionState := .inl rfl
  oneShot := by
    intro before
    show (s.channel.events ||| flag).has EPOLLONESHOT = false
    rw [Mask.has_or, before, oneShot]
    rfl

theorem seperateTimer_dispatched (s : HttpData) : Dispatched s s.seperateTimer :=
  ⟨rfl, rfl, rfl, .inr ⟨rfl, rfl⟩, .inl rfl, id⟩

theorem reset_dispatched (s : HttpData) : Dispatched s s.reset :=
  ⟨rfl, rfl, rfl, .inr ⟨rfl, rfl⟩, .inl rfl, id⟩

theorem handleWrite_dispatched (s : HttpData) (k : Kernel) :
    Dispatched s (handleWrite s k).1 := by
  have written : ∀ outBuffer, Dispatched s { s with outBuffer } := fun _ =>
    ⟨rfl, rfl, rfl, .inl ⟨rfl, rfl⟩, .inl rfl, id⟩
  have failed : ∀ outBuffer,
      Dispatched s { ({ s with outBuffer } : HttpData).setEvents 0#32 with error := true } :=
    fun _ => ⟨rfl, rfl, rfl, .inl ⟨rfl, rfl⟩, .inl rfl, fun _ => Mask.zero_has _⟩
  simp only [handleWrite]
  split_ifs
  · exact (failed _).trans (addEvents_dispatched _ rfl)
  · exact failed _
  · exact (written _).trans (addEvents_dispatched _ rfl)
  · exact written _
  · exact .refl s

theorem flush_dispatched (s : HttpData) (k : Kernel) : Dispatched s (flush s k).1 := by
  unfold flush
  split
  · exact handleWrite_dispatched s k
  · exact .refl s

theorem Received.dispatched (received : Received s k s' k') : Dispatched s s' where
  fd := received.fd
  channelFd := by rw [received.channel]
  lastEvents := by rw [received.channel]
  timer := .inl ⟨received.timer, received.cleared⟩
  connectionState := received.connectionState
  oneShot := by
    intro before
    rw [received.channel]
    exact before

theorem settle_dispatched (s : HttpData) (k : Kernel) : Dispatched s (settle s k).2.1 := by
  unfold settle
  split
  · exact .refl s
  · have flushed := flush_dispatched s k
    dsimp only
    split
    · exact flushed.trans (reset_dispatched _)
    · split
      · exact flushed.trans (addEvents_dispatched _ rfl)
      · exact flushed

theorem handleReadTurn_dispatched {again : Bool}
    (turn : handleReadTurn s k = .ok (again, s', k')) : Dispatched s s' := by
  obtain ⟨t, kt, ran, ended⟩ := handleReadTurn_parts turn
  have settled := settle_dispatched t kt
  rw [ended] at settled
  exact (receive_received ran).dispatched.trans settled

theorem handleRead_dispatched (ran : handleRead s k = .ok (s', k')) : Dispatched s s' := by
  refine handleRead_rule (P := fun t _ => Dispatched s t) (Q := fun t _ => Dispatched s t)
    (.refl s) ?_ ?_ ran
  · intro t kt t' kt' _ before turn
    exact before.trans (handleReadTurn_dispatched turn)
  · intro t kt t' kt' _ before turn
    exact before.trans (handleReadTurn_dispatched turn)

theorem readPart_dispatched {revents : Mask} (ran : readPart revents s k = .ok (s', k')) :
    Dispatched s s' := by
  unfold readPart at ran
  split at ran
  · exact handleRead_dispatched ran
  · cases ran
    exact .refl s

theorem writePart_dispatched (revents : Mask) (s : HttpData) (k : Kernel) :
    Dispatched s (writePart revents s k).1 := by
  unfold writePart
  split
  · exact handleWrite_dispatched s k
  · exact .refl s

theorem handleConn_dispatched (s : HttpData) : Dispatched s s.handleConn.1 := by
  have detached := seperateTimer_dispatched s
  unfold handleConn
  dsimp only
  split
  · split
    · refine detached.trans (.trans ?_ (addEvents_dispatched _ rfl))
      split
      · exact (setEvents_dispatched _ rfl).trans (addEvents_dispatched _ rfl)
      · exact .refl _
    · split
      · exact detached.trans (addEvents_dispatched _ rfl)
      · exact detached.trans (addEvents_dispatched _ rfl)
  · split
    · exact detached.trans (setEvents_dispatched _ rfl)
    · exact detached

theorem handleConn_timer (s : HttpData) : s.handleConn.1.timer = none := by
  unfold handleConn
  dsimp only
  split
  · split
    · split
      · rfl
      · rfl
    · split
      · rfl
      · rfl
  · split
    · rfl
    · rfl

/-- A dispatch keeps the identity of its connection; unless it ends at once, it leaves it without a
    timer. -/
theorem handleEvents_dispatched {h : Handling} (ran : handleEvents s k = .ok h) :
    Dispatched s h.http ∧ (h.request ≠ .none → h.http.timer = none) := by
  by_cases hangUp : HangUp s.channel.revents
  · rw [handleEvents_hangUp hangUp] at ran
    cases ran
    exact ⟨setEvents_dispatched _ (Mask.zero_has _), fun asked => absurd rfl asked⟩
  · rw [handleEvents_eq hangUp] at ran
    cases read : readPart s.channel.revents (s.setEvents 0#32) k with
    | error fault => simp [read, Except.map] at ran
    | ok mid =>
        obtain ⟨t, kt⟩ := mid
        simp only [read, Except.map, Except.ok.injEq] at ran
        subst ran
        refine ⟨?_, fun _ => handleConn_timer _⟩
        exact (((setEvents_dispatched _ (Mask.zero_has _)).trans (readPart_dispatched read)).trans
          (writePart_dispatched _ _ _)).trans (handleConn_dispatched _)

/-- Output that is left is being waited for, unless the connection is given up. -/
def WatchesOutput (s : HttpData) : Prop :=
  s.error = true ∨ s.outBuffer = [] ∨ s.channel.events.has EPOLLOUT = true

theorem handleWrite_watches (s : HttpData) (k : Kernel)
    (running : s.connectionState ≠ .hDisconnected) : (handleWrite s k).1.WatchesOutput := by
  have waiting : ∀ t : HttpData, (t.addEvents EPOLLOUT).channel.events.has EPOLLOUT = true := by
    intro t
    show (t.channel.events ||| EPOLLOUT).has EPOLLOUT = true
    rw [Mask.or_self_has, show (EPOLLOUT != 0#32) = true from rfl, Bool.or_true]
  simp only [handleWrite]
  split_ifs with going failed left left
  · exact .inr (.inr (waiting _))
  · exact .inl rfl
  · exact .inr (.inr (waiting _))
  · exact .inr (.inl (List.length_eq_zero_iff.mp (Nat.le_zero.mp (Nat.not_lt.mp left))))
  · left
    simpa [running] using going

theorem flush_watches (s : HttpData) (k : Kernel) (running : s.connectionState ≠ .hDisconnected) :
    (flush s k).1.WatchesOutput := by
  unfold flush
  split
  · exact handleWrite_watches s k running
  · rename_i sent
    right
    left
    exact List.length_eq_zero_iff.mp (Nat.le_zero.mp (Nat.not_lt.mp sent))

theorem WatchesOutput.addEvents (watches : s.WatchesOutput) (flag : Mask) :
    (s.addEvents flag).WatchesOutput := by
  rcases watches with failed | sent | waiting
  · exact .inl failed
  · exact .inr (.inl sent)
  · right
    right
    simp only [HttpData.addEvents, setEvents, Mask.has_or, waiting, Bool.true_or]

theorem settle_watches (s : HttpData) (k : Kernel) (running : s.connectionState ≠ .hDisconnected) :
    (settle s k).2.1.WatchesOutput := by
  have flushed := flush_watches s k running
  unfold settle
  split
  · rename_i failed
    exact .inl failed
  · dsimp only
    split
    · exact flushed
    · split
      · exact flushed.addEvents _
      · exact flushed

theorem handleRead_watches (running : s.connectionState ≠ .hDisconnected)
    (ran : handleRead s k = .ok (s', k')) : s'.WatchesOutput := by
  refine handleRead_rule (P := fun t _ => t.connectionState ≠ .hDisconnected)
    (Q := fun t _ => t.WatchesOutput) running ?_ ?_ ran
  · intro t kt t' kt' _ running turn
    exact (handleReadTurn_dispatched turn).open running
  · intro t kt t' kt' _ running turn
    obtain ⟨u, ku, received, ended⟩ := handleReadTurn_parts turn
    have watches := settle_watches u ku ((receive_received received).dispatched.open running)
    rw [ended] at watches
    exact watches

/-- The mask asks for neither a read nor a write. -/
def Idle (revents : Mask) : Prop := ¬ Readable revents ∧ revents.has EPOLLOUT = false

instance (revents : Mask) : Decidable (Idle revents) := inferInstanceAs (Decidable (_ ∧ _))

theorem parts_watch {revents : Mask} (running : s.connectionState ≠ .hDisconnected)
    (busy : ¬ Idle revents) (read : readPart revents s k = .ok (s', k')) :
    (writePart revents s' k').1.WatchesOutput := by
  unfold writePart
  split
  · exact handleWrite_watches _ _ ((readPart_dispatched read).open running)
  · rename_i silent
    have readable : Readable revents := by
      by_contra unreadable
      exact busy ⟨unreadable, by simpa using silent⟩
    unfold readPart at read
    rw [if_pos readable] at read
    exact handleRead_watches running read

/-- `HandleConn` sets `events_` and leaves the poller alone. -/
def Parks (s : HttpData) : Prop :=
  s.error = false ∧ s.connectionState = .hDisconnecting ∧ s.channel.events.has EPOLLOUT = true

instance (s : HttpData) : Decidable s.Parks := inferInstanceAs (Decidable (_ ∧ _ ∧ _))

/-- `HandleConn` closes the connection. -/
def Closes (s : HttpData) : Prop :=
  ¬ s.Parks ∧ (s.error = true ∨ s.connectionState ≠ .hConnected)

instance (s : HttpData) : Decidable s.Closes := inferInstanceAs (Decidable (_ ∧ _))

theorem handleConn_parks (parks : s.Parks) : s.handleConn.2 = .none := by
  obtain ⟨fine, closing, waiting⟩ := parks
  simp [handleConn, seperateTimer, fine, closing, waiting]

theorem handleConn_closes (closes : s.Closes) : s.handleConn.2 = .handleClose := by
  obtain ⟨away, reason⟩ := closes
  unfold handleConn
  rw [if_neg]
  · rw [if_neg]
    intro parks
    simp only [seperateTimer, Bool.and_eq_true, Bool.not_eq_true'] at parks
    exact away ⟨parks.1.1, of_decide_eq_true parks.1.2, parks.2⟩
  · intro alive
    simp only [seperateTimer, Bool.and_eq_true, Bool.not_eq_true'] at alive
    rcases reason with failed | other
    · simp [failed] at alive
    · exact other (of_decide_eq_true alive.2)

/-- A connection that is neither parked nor closed is registered again, for as long as it takes;
    output that is waited for stays so. -/
theorem handleConn_keeps (away : ¬ s.Parks) (going : ¬ s.Closes) :
    ∃ timeout, 0 < timeout ∧ s.handleConn.2 = .updatePoller timeout ∧
      s.handleConn.1.error = false ∧ s.handleConn.1.connectionState = .hConnected ∧
      s.handleConn.1.outBuffer = s.outBuffer ∧
      (s.channel.events.has EPOLLOUT = true →
        s.handleConn.1.channel.events.has EPOLLOUT = true) := by
  have fine : s.error = false := by
    by_contra failed
    exact going ⟨away, .inl (by simpa using failed)⟩
  have connected : s.connectionState = .hConnected := by
    by_contra other
    exact going ⟨away, .inr other⟩
  have default_positive : 0 < kDefaultKeepAliveTime := by decide
  simp only [handleConn, seperateTimer, fine, connected, decide_true, Bool.not_false,
    Bool.and_self, if_true]
  by_cases asked : s.channel.events ≠ 0#32
  · rw [if_pos asked]
    refine ⟨_, ?_, rfl, ?_⟩
    · split
      · exact default_positive
      · decide
    · split
      · refine ⟨rfl, rfl, rfl, fun _ => ?_⟩
        show Mask.has (0#32 ||| EPOLLOUT ||| EPOLLET) EPOLLOUT = true
        decide
      · refine ⟨rfl, rfl, rfl, fun waiting => ?_⟩
        show (s.channel.events ||| EPOLLET).has EPOLLOUT = true
        rw [Mask.has_or, waiting]
        rfl
  · have silent : s.channel.events = 0#32 := by simpa using asked
    rw [if_neg asked]
    have nothing : s.channel.events.has EPOLLOUT = true →
        (s.channel.events ||| (EPOLLIN ||| EPOLLET)).has EPOLLOUT = true := by
      intro waiting
      rw [silent] at waiting
      simp at waiting
    split
    · exact ⟨_, default_positive, rfl, rfl, rfl, rfl, nothing⟩
    · exact ⟨_, by decide, rfl, rfl, rfl, rfl, nothing⟩

theorem handleConn_silent (fine : s.error = false) (connected : s.connectionState = .hConnected)
    (silent : s.channel.events = 0#32) :
    ∃ timeout, s.handleConn.2 = .updatePoller timeout ∧
      s.handleConn.1.outBuffer = s.outBuffer ∧
      s.handleConn.1.channel.events.has EPOLLOUT = false := by
  have reading : (s.channel.events ||| (EPOLLIN ||| EPOLLET)) = EPOLLIN ||| EPOLLET := by
    rw [silent, BitVec.zero_or]
  have waits : Mask.has (s.channel.events ||| (EPOLLIN ||| EPOLLET)) EPOLLOUT = false := by
    rw [reading]
    decide
  have not_asked : ¬ s.channel.events ≠ 0#32 := by simpa using silent
  simp only [handleConn, seperateTimer, fine, connected, decide_true, Bool.not_false,
    Bool.and_self, if_true]
  rw [if_neg not_asked]
  split
  · exact ⟨_, rfl, rfl, waits⟩
  · exact ⟨_, rfl, rfl, waits⟩

end WebServer.HttpData
