import WebServer.Loop.Lifetime

/-! # Connections that a dispatch leaves behind

A dispatch detaches the timer first, so whoever keeps the connection must go through `UpdatePoller`
again. `HandleConn` forgets this for a half-closed connection with output left; and when neither a
read nor a write ran, it registers a connection with output left without `EPOLLOUT`. A run that
takes neither way leaves every connection closed or attended.
-/

namespace WebServer

open Lib

namespace HttpData

/-- The dispatch of an event leaves the connection behind. -/
def Neglects (s : HttpData) (e : Event) : Prop :=
  ¬ HangUp e.revents ∧
    ((∃ t kt, readPart e.revents (s.polled e.revents) (Server.kernel e) = .ok (t, kt) ∧
        (writePart e.revents t kt).1.Parks) ∨
      Idle e.revents ∧ s.error = false ∧ s.connectionState = .hConnected ∧ s.outBuffer ≠ [])

/-- The kernel's mask is the last one of the channel and asks for `EPOLLOUT` if output is left; a
    one-shot registration only stands before any output. -/
def Listens (s : HttpData) (interest : Option Mask) : Prop :=
  s.channel.lastEvents = kDefaultEvent ∧ s.outBuffer = [] ∨
    s.channel.lastEvents.has EPOLLONESHOT = false ∧ interest = some s.channel.lastEvents ∧
      (s.outBuffer ≠ [] → s.channel.lastEvents.has EPOLLOUT = true)

/-- What a dispatch that leaves nothing behind asks for. -/
theorem handleEvents_attends {s : HttpData} {e : Event} {h : Handling}
    (ran : (s.polled e.revents).handleEvents (Server.kernel e) = .ok h)
    (running : s.connectionState ≠ .hDisconnected) (attends : ¬ s.Neglects e) :
    (HangUp e.revents ∧ h.http = (s.polled e.revents).setEvents 0#32 ∧ h.request = .none) ∨
      h.request = .handleClose ∨
      ∃ timeout, h.request = .updatePoller timeout ∧
        h.http.channel.events.has EPOLLONESHOT = false ∧
        (h.http.outBuffer ≠ [] → h.http.channel.events.has EPOLLOUT = true) := by
  by_cases hangUp : HangUp e.revents
  · left
    rw [handleEvents_hangUp (s := s.polled e.revents) hangUp] at ran
    cases ran
    exact ⟨hangUp, rfl, rfl⟩
  · right
    have oneShot := (handleEvents_dispatched ran).1.oneShot (Mask.zero_has _)
    rw [handleEvents_eq (s := s.polled e.revents) hangUp] at ran
    have unset : (s.polled e.revents).setEvents 0#32 = s.polled e.revents := rfl
    have asked : (s.polled e.revents).channel.revents = e.revents := rfl
    rw [unset, asked] at ran
    cases read : readPart e.revents (s.polled e.revents) (Server.kernel e) with
    | error fault => simp [read, Except.map] at ran
    | ok mid =>
        obtain ⟨t, kt⟩ := mid
        simp only [read, Except.map, Except.ok.injEq] at ran
        subst ran
        dsimp only at oneShot ⊢
        generalize written : (writePart e.revents t kt).1 = u at oneShot ⊢
        have unparked : ¬ u.Parks := by
          intro parks
          exact attends ⟨hangUp, .inl ⟨t, kt, read, written ▸ parks⟩⟩
        by_cases closes : u.Closes
        · exact .inl (handleConn_closes closes)
        · obtain ⟨timeout, -, request, fine, -, same, waits⟩ := handleConn_keeps unparked closes
          refine .inr ⟨timeout, request, oneShot, ?_⟩
          rw [same]
          intro left
          apply waits
          have alive : u.error = false := by
            by_contra failed
            exact closes ⟨unparked, .inl (by simpa using failed)⟩
          have connected : u.connectionState = .hConnected := by
            by_contra other
            exact closes ⟨unparked, .inr other⟩
          by_cases idle : Idle e.revents
          · have silent : u = s.polled e.revents := by
              unfold readPart at read
              rw [if_neg idle.1] at read
              cases read
              unfold writePart at written
              rw [idle.2] at written
              exact written.symm
            subst silent
            exact absurd ⟨hangUp, .inr ⟨idle, alive, connected, left⟩⟩ attends
          · have watches := parts_watch (s := s.polled e.revents) running idle read
            rw [written] at watches
            rcases watches with failed | sent | waiting
            · rw [alive] at failed
              cases failed
            · exact absurd sent left
            · exact waiting

end HttpData

namespace Server

variable {w w' w'' : Server} {l : LoopId} {c : ConnId} {o o₁ : Conn}

/-- The connection is closed and its loop has forgotten it. -/
def ClosedAt (w : Server) (l : LoopId) (fd : Nat) (c : ConnId) : Prop :=
  c ∈ w.handleClosed.map CloseRecord.conn ∧ (w.loops l).fd2channel fd = none ∧
    (w.loops l).fd2http fd = none

/-- A live timer node holds the connection, and output that is left is being waited for. -/
def TimedAt (w : Server) (l : LoopId) (fd : Nat) (c : ConnId) : Prop :=
  (∃ n ∈ (w.loops l).timerNodeQueue, n.deleted = false ∧ n.spHttpData = some c) ∧
    ∀ o, w.objects c = some o → o.http.outBuffer ≠ [] →
      ∃ mask, (w.loops l).interest fd = some mask ∧ mask.has EPOLLOUT = true

/-- A registered connection has a live timer node and a registration that will do. -/
def Watched (w : Server) (l : LoopId) (fd : Nat) (c : ConnId) : Prop :=
  (∃ n ∈ (w.loops l).timerNodeQueue, n.deleted = false ∧ n.spHttpData = some c) ∧
    ∃ o, w.objects c = some o ∧ o.http.Listens ((w.loops l).interest fd)

theorem Watched.timedAt {fd : Nat} (watched : Watched w l fd c) : TimedAt w l fd c := by
  obtain ⟨node, o, here, listens⟩ := watched
  refine ⟨node, ?_⟩
  intro p there left
  rw [here] at there
  cases there
  rcases listens with ⟨-, empty⟩ | ⟨-, interest, waits⟩
  · exact absurd empty left
  · exact ⟨_, interest, waits left⟩

/-- What a step that acts on one connection leaves to the others. -/
structure Beside (c : ConnId) (o : Conn) (w w' : Server) : Prop where
  objects : ∀ d, d ≠ c → w'.objects d = w.objects d
  elsewhere : ∀ l, l ≠ o.loop → w'.loops l = w.loops l
  channels : ∀ fd, fd ≠ o.http.fd →
    (w'.loops o.loop).fd2channel fd = (w.loops o.loop).fd2channel fd
  interest : ∀ fd, fd ≠ o.http.fd → (w'.loops o.loop).interest fd = (w.loops o.loop).interest fd
  nodes : ∀ n ∈ (w.loops o.loop).timerNodeQueue, ∀ d, d ≠ c → n.spHttpData = some d →
    n ∈ (w'.loops o.loop).timerNodeQueue

theorem Beside.trans (first : Beside c o w w') (second : Beside c o w' w'') :
    Beside c o w w'' where
  objects d other := (second.objects d other).trans (first.objects d other)
  elsewhere l other := (second.elsewhere l other).trans (first.elsewhere l other)
  channels fd other := (second.channels fd other).trans (first.channels fd other)
  interest fd other := (second.interest fd other).trans (first.interest fd other)
  nodes n waiting d other holds :=
    second.nodes n (first.nodes n waiting d other holds) d other holds

/-- The other connections stay watched. -/
theorem Beside.watched (beside : Beside c o w w') (sound : Sound w') {o' : Conn}
    (here : w'.objects c = some o') (loop : o'.loop = o.loop) (fd_eq : o'.http.fd = o.http.fd)
    {fd : Nat} {d : ConnId} (other : d ≠ c) (stored : (w'.loops l).fd2channel fd = some d)
    (before : (w.loops l).fd2channel fd = some d → Watched w l fd d) : Watched w' l fd d := by
  by_cases same : l = o.loop
  · subst same
    have apart : fd ≠ o.http.fd := by
      rintro rfl
      rw [← fd_eq, ← loop] at stored
      exact other (sound.own_entry here ((sound.loops o'.loop).channels stored))
    obtain ⟨⟨n, waiting, valid, holds⟩, p, there, listens⟩ :=
      before ((beside.channels fd apart).symm.trans stored)
    refine ⟨⟨n, beside.nodes n waiting d other holds, valid, holds⟩, p, ?_, ?_⟩
    · rw [beside.objects d other]
      exact there
    · rw [beside.interest fd apart]
      exact listens
  · rw [beside.elsewhere l same] at stored
    obtain ⟨node, p, there, listens⟩ := before stored
    refine ⟨?_, p, ?_, ?_⟩
    · rw [beside.elsewhere l same]
      exact node
    · rw [beside.objects d other]
      exact there
    · rw [beside.elsewhere l same]
      exact listens

theorem setLoop_beside {loop' : IoLoop} (channels : loop'.fd2channel = (w.loops o.loop).fd2channel)
    (interest : loop'.interest = (w.loops o.loop).interest)
    (nodes : ∀ n ∈ (w.loops o.loop).timerNodeQueue, ∀ d, d ≠ c → n.spHttpData = some d →
      n ∈ loop'.timerNodeQueue) : Beside c o w (w.setLoop o.loop loop') where
  objects _ _ := rfl
  elsewhere l other := Function.update_of_ne other ..
  channels fd _ := by rw [setLoop_loops, Function.update_self, channels]
  interest fd _ := by rw [setLoop_loops, Function.update_self, interest]
  nodes n waiting d other holds := by
    rw [setLoop_loops, Function.update_self]
    exact nodes n waiting d other holds

theorem setConn_beside : Beside c o w (w.setConn c o₁) where
  objects _ other := Function.update_of_ne other ..
  elsewhere _ _ := rfl
  channels _ _ := rfl
  interest _ _ := rfl
  nodes _ waiting _ _ _ := waiting

theorem added_beside (handled : Handled o o₁) {timeout : Nat} {loop' : IoLoop}
    (channels : ∀ fd, fd ≠ o.http.fd → loop'.fd2channel fd = (w.loops o.loop).fd2channel fd)
    (interest : ∀ fd, fd ≠ o.http.fd → loop'.interest fd = (w.loops o.loop).interest fd) :
    Beside c o w (w.added c o₁ timeout loop') := by
  have loop_eq : ∀ l, l = o.loop → (w.added c o₁ timeout loop').loops l = { loop' with
      timerNodeQueue :=
        (w.loops o.loop).timerNodeQueue ++ [.new w.nodes c timeout w.now] } := by
    rintro l rfl
    unfold Server.added
    simp only [handled.loop, Function.update_self]
  constructor
  case objects => exact fun d other => Function.update_of_ne other ..
  case elsewhere =>
    intro l other
    unfold Server.added
    simp only [handled.loop, Function.update_of_ne other]
  case channels =>
    intro fd other
    rw [loop_eq _ rfl]
    exact channels fd other
  case interest =>
    intro fd other
    rw [loop_eq _ rfl]
    exact interest fd other
  case nodes =>
    intro n waiting _ _ _
    rw [loop_eq _ rfl]
    exact List.mem_append_left _ waiting

theorem epollMod_beside (sound : Sound w) (here : w.objects c = some o) (handled : Handled o o₁)
    (ctl : Bool) (timeout : Nat) : Beside c o w (epollMod ctl w c o₁ timeout) := by
  have fd_eq : o₁.http.channel.fd = o.http.fd := handled.channelFd.trans (sound.object here).1
  rw [epollMod_eq, handled.loop]
  unfold modified
  split
  · exact added_beside handled (fun _ _ => rfl) (fun _ _ => rfl)
  · refine added_beside handled (fun _ _ => rfl) ?_
    intro fd other
    rw [fd_eq]
    exact Function.update_of_ne other ..
  · refine added_beside handled ?_ (fun _ _ => rfl)
    intro fd other
    rw [fd_eq]
    exact Function.update_of_ne other ..

theorem epollAdd_beside (sound : Sound w) (here : w.objects c = some o) (handled : Handled o o₁)
    (ctl : Bool) (timeout : Nat) : Beside c o w (epollAdd ctl w c o₁ timeout) := by
  have fd_eq : o₁.http.channel.fd = o.http.fd := handled.channelFd.trans (sound.object here).1
  rw [epollAdd_eq, handled.loop, fd_eq]
  apply added_beside handled
  · intro fd other
    exact Function.update_of_ne other ..
  · intro fd other
    dsimp only
    split
    · exact Function.update_of_ne other ..
    · rfl

theorem handleClose_loop (sound : Sound w) (here : w.objects c = some o) (handled : Handled o o₁)
    (ctl : Bool) (byTimer : Option (Option (Timeval × Nat) × Timeval)) :
    (handleClose ctl w c o₁ byTimer).loops = Function.update w.loops o.loop { w.loops o.loop with
      fd2channel := Function.update (w.loops o.loop).fd2channel o.http.fd none
      fd2http := Function.update (w.loops o.loop).fd2http o.http.fd none
      interest := if ctl then Function.update (w.loops o.loop).interest o.http.fd none
        else (w.loops o.loop).interest } := by
  have fd_eq : o₁.http.channel.fd = o.http.fd := handled.channelFd.trans (sound.object here).1
  unfold handleClose epollDel
  simp only [setLoop_loops, setConn_loops, handled.loop, fd_eq]

theorem handleClose_beside (sound : Sound w) (here : w.objects c = some o) (handled : Handled o o₁)
    (ctl : Bool) (byTimer : Option (Option (Timeval × Nat) × Timeval)) :
    Beside c o w (handleClose ctl w c o₁ byTimer) := by
  have loops := handleClose_loop sound here handled ctl byTimer
  constructor
  case objects => exact fun d other => Function.update_of_ne other ..
  case elsewhere =>
    intro l other
    rw [loops, Function.update_of_ne other]
  case channels =>
    intro fd other
    rw [loops, Function.update_self]
    exact Function.update_of_ne other ..
  case interest =>
    intro fd other
    rw [loops, Function.update_self]
    dsimp only
    split
    · exact Function.update_of_ne other ..
    · rfl
  case nodes =>
    intro n waiting _ _ _
    rw [loops, Function.update_self]
    exact waiting

theorem handleClose_closedAt (sound : Sound w) (here : w.objects c = some o)
    (handled : Handled o o₁) (ctl : Bool)
    (byTimer : Option (Option (Timeval × Nat) × Timeval)) :
    ClosedAt (handleClose ctl w c o₁ byTimer) o.loop o.http.fd c := by
  have loops := handleClose_loop sound here handled ctl byTimer
  refine ⟨?_, ?_, ?_⟩
  · show c ∈ (w.handleClosed ++ [CloseRecord.mk c byTimer]).map CloseRecord.conn
    simp
  · rw [loops, Function.update_self]
    exact Function.update_self ..
  · rw [loops, Function.update_self]
    exact Function.update_self ..

theorem added_node (handled : Handled o o₁) (timeout : Nat) (loop' : IoLoop) :
    ∃ n ∈ ((w.added c o₁ timeout loop').loops o.loop).timerNodeQueue,
      n.deleted = false ∧ n.spHttpData = some c := by
  refine ⟨.new w.nodes c timeout w.now, ?_, rfl, rfl⟩
  unfold Server.added
  simp only [handled.loop, Function.update_self]
  exact List.mem_append_right _ List.mem_cons_self

theorem epollMod_objects (ctl : Bool) (w : Server) (c : ConnId) (o : Conn) (timeout : Nat) :
    (epollMod ctl w c o timeout).objects c = some (w.relinked o timeout) := by
  rw [epollMod_eq]
  exact Function.update_self ..

theorem epollAdd_objects (ctl : Bool) (w : Server) (c : ConnId) (o : Conn) (timeout : Nat) :
    (epollAdd ctl w c o timeout).objects c = some (w.relinked o timeout) := by
  rw [epollAdd_eq]
  exact Function.update_self ..

/-- `EpollMod` leaves the mask that was asked for in force, also when it leaves the call out. -/
theorem epollMod_interest (handled : Handled o o₁)
    (fd_eq : o₁.http.channel.fd = o.http.fd) (last : o₁.http.channel.lastEvents =
      o.http.channel.lastEvents)
    (oneShot : o₁.http.channel.events.has EPOLLONESHOT = false)
    (before : o.http.Listens ((w.loops o.loop).interest o.http.fd)) (timeout : Nat) :
    ((epollMod true w c o₁ timeout).loops o.loop).interest o.http.fd =
      some o₁.http.channel.events := by
  rw [epollMod_eq, handled.loop]
  unfold Server.added modified
  simp only [handled.loop, Function.update_self]
  by_cases same : o₁.http.channel.lastEvents = o₁.http.channel.events
  · have elided : (o₁.http.channel.epollMod true).1 = .elided := by
      simp [Channel.epollMod, Channel.equalAndUpdateLastEvents, same]
    rw [elided]
    rcases before with ⟨default, -⟩ | ⟨-, interest, -⟩
    · rw [← same, last, default] at oneShot
      exact absurd oneShot (by decide)
    · show (w.loops o.loop).interest o.http.fd = some o₁.http.channel.events
      rw [interest, ← last, same]
  · have registered : (o₁.http.channel.epollMod true).1 = .registered o₁.http.channel.events := by
      simp [Channel.epollMod, Channel.equalAndUpdateLastEvents, same]
    rw [registered, fd_eq]
    exact Function.update_self ..

theorem epollMod_watched (handled : Handled o o₁)
    (fd_eq : o₁.http.channel.fd = o.http.fd) (last : o₁.http.channel.lastEvents =
      o.http.channel.lastEvents)
    (oneShot : o₁.http.channel.events.has EPOLLONESHOT = false)
    (waits : o₁.http.outBuffer ≠ [] → o₁.http.channel.events.has EPOLLOUT = true)
    (before : o.http.Listens ((w.loops o.loop).interest o.http.fd)) (timeout : Nat) :
    Watched (epollMod true w c o₁ timeout) o.loop o.http.fd c := by
  have interest := epollMod_interest (c := c) handled fd_eq last oneShot before timeout
  refine ⟨?_, w.relinked o₁ timeout, epollMod_objects .., .inr ⟨oneShot, interest, waits⟩⟩
  rw [epollMod_eq]
  exact added_node handled timeout _

theorem epollAdd_watched (handled : Handled o o₁)
    (asked : o₁.http.channel.events = kDefaultEvent) (empty : o₁.http.outBuffer = [])
    (ctl : Bool) (timeout : Nat) : Watched (epollAdd ctl w c o₁ timeout) o.loop o.http.fd c := by
  rw [epollAdd_eq, handled.loop]
  exact ⟨added_node handled timeout _, w.relinked o₁ timeout, Function.update_self ..,
    .inl ⟨asked, empty⟩⟩

theorem clearTimers_beside (sound : Sound w) (here : w.objects c = some o) {e : Event}
    {h : Handling} (ran : (o.http.polled e.revents).handleEvents (kernel e) = .ok h) :
    Beside c o w (w.clearTimers o.loop h.http.cleared) := by
  refine setLoop_beside rfl rfl ?_
  intro n waiting d other holds
  apply TimerNode.mem_clearReqs_kept waiting
  obtain ⟨p, there, -, timed⟩ := (sound.loops o.loop).timed waiting holds
  have none_before : (o.http.polled e.revents).cleared = [] := (sound.object here).2.1
  intro listed
  rcases (HttpData.handleEvents_dispatched ran).1.timer with ⟨-, same⟩ | ⟨-, detached⟩
  · rw [same, none_before] at listed
    exact List.not_mem_nil listed
  · rw [detached, none_before, List.nil_append, Option.mem_toList] at listed
    exact other (sound.links there here timed.link listed)

/-- A dispatch that leaves nothing behind closes its connection or keeps it watched. -/
theorem handleEvents_attended (sound : Sound w) (called : Called w c o)
    (running : o.http.connectionState ≠ .hDisconnected) {e : Event} (attends : ¬ o.http.Neglects e)
    (before : Watched w o.loop o.http.fd c) :
    Beside c o w (handleEvents true w c e) ∧
      (∃ o', (handleEvents true w c e).objects c = some o' ∧ o'.loop = o.loop ∧
        o'.http.fd = o.http.fd) ∧
      (ClosedAt (handleEvents true w c e) o.loop o.http.fd c ∨
        Watched (handleEvents true w c e) o.loop o.http.fd c) := by
  have here := called.here
  obtain ⟨node, p, there, listens⟩ := before
  rw [here] at there
  cases there
  unfold Server.handleEvents
  rw [here]
  dsimp only
  split
  · exact ⟨⟨fun _ _ => rfl, fun _ _ => rfl, fun _ _ => rfl, fun _ _ => rfl, fun _ h _ _ _ => h⟩,
      ⟨o, here, rfl, rfl⟩, .inr ⟨node, o, here, listens⟩⟩
  · rename_i h ran
    have handled := dispatched_handled o running ran
    have cleared := sound.clearTimers o.loop h.http.cleared
    have beside := clearTimers_beside sound here ran
    have here' : (w.clearTimers o.loop h.http.cleared).objects c = some o := here
    have interest_eq : ((w.clearTimers o.loop h.http.cleared).loops o.loop).interest =
        (w.loops o.loop).interest := by
      unfold Server.clearTimers
      rw [setLoop_loops, Function.update_self]
    rcases HttpData.handleEvents_attends ran running attends with
      ⟨hangUp, same, asked⟩ | asked | ⟨timeout, asked, oneShot, waits⟩
    · rw [asked]
      refine ⟨beside.trans setConn_beside, ⟨_, Function.update_self .., rfl, handled.fd⟩, .inr ?_⟩
      have none_cleared : h.http.cleared = [] := by
        rw [same]
        exact (sound.object here).2.1
      refine ⟨?_, _, Function.update_self .., ?_⟩
      · rw [setConn_loops, clearTimers_queue, none_cleared, TimerNode.clearReqs_nil]
        exact node
      · rw [setConn_loops, interest_eq, same]
        exact listens
    · rw [asked]
      exact ⟨beside.trans (handleClose_beside cleared here' handled true none),
        ⟨_, Function.update_self .., rfl, handled.fd⟩,
        .inl (handleClose_closedAt cleared here' handled true none)⟩
    · rw [asked]
      refine ⟨beside.trans (epollMod_beside cleared here' handled true timeout),
        ⟨_, epollMod_objects .., rfl, handled.fd⟩, .inr ?_⟩
      · refine epollMod_watched handled (handled.channelFd.trans (sound.object here).1)
          (HttpData.handleEvents_dispatched ran).1.lastEvents oneShot waits ?_ timeout
        rw [interest_eq]
        exact listens

/-- Every registered connection is watched. -/
def AllWatched (w : Server) : Prop :=
  ∀ l fd c, (w.loops l).fd2channel fd = some c → Watched w l fd c

/-- What a loop may change without a registered connection noticing. -/
structure Calm (loop loop' : IoLoop) : Prop where
  channels : loop'.fd2channel = loop.fd2channel
  timers : loop'.timerNodeQueue = loop.timerNodeQueue
  interest : ∀ fd c, loop.fd2channel fd = some c → loop'.interest fd = loop.interest fd ∨
    loop'.interest fd = IoLoop.disarm loop.interest fd

theorem Calm.refl (loop : IoLoop) : Calm loop loop := ⟨rfl, rfl, fun _ _ _ => .inl rfl⟩

theorem Calm.phase (loop : IoLoop) (phase : IoPhase) : Calm loop { loop with phase } :=
  ⟨rfl, rfl, fun _ _ _ => .inl rfl⟩

theorem listens_disarm {s : HttpData} {interest : Nat → Option Mask} {fd : Nat}
    (listens : s.Listens (interest fd)) : s.Listens (IoLoop.disarm interest fd) := by
  rcases listens with before | ⟨oneShot, same, waits⟩
  · exact .inl before
  · refine .inr ⟨oneShot, ?_, waits⟩
    unfold IoLoop.disarm
    rw [same, Option.map_some, oneShot]
    rfl

theorem AllWatched.frame (watched : AllWatched w)
    (kept : ∀ {l fd c o}, (w.loops l).fd2channel fd = some c → w.objects c = some o →
      w'.objects c = some o)
    (calm : ∀ l, Calm (w.loops l) (w'.loops l)) : AllWatched w' := by
  intro l fd c stored
  rw [(calm l).channels] at stored
  obtain ⟨node, o, here, listens⟩ := watched l fd c stored
  refine ⟨?_, o, kept stored here, ?_⟩
  · rw [(calm l).timers]
    exact node
  · rcases (calm l).interest fd c stored with same | disarmed
    · rw [same]
      exact listens
    · rw [disarmed]
      exact listens_disarm listens

theorem AllWatched.of_loop (watched : AllWatched w) {loop' : IoLoop}
    (loops : w'.loops = Function.update w.loops l loop')
    (kept : ∀ {l fd c o}, (w.loops l).fd2channel fd = some c → w.objects c = some o →
      w'.objects c = some o)
    (calm : Calm (w.loops l) loop') : AllWatched w' := by
  refine watched.frame kept fun l' => ?_
  rw [loops]
  by_cases same : l' = l
  · subst same
    rw [Function.update_self]
    exact calm
  · rw [Function.update_of_ne same]
    exact .refl _

theorem AllWatched.setLoop (watched : AllWatched w) {loop' : IoLoop}
    (calm : Calm (w.loops l) loop') : AllWatched (w.setLoop l loop') :=
  watched.of_loop rfl (fun _ here => here) calm

theorem Beside.allWatched (beside : Beside c o w w') (sound : Sound w') {o' : Conn}
    (here : w'.objects c = some o') (loop : o'.loop = o.loop) (fd_eq : o'.http.fd = o.http.fd)
    (before : AllWatched w)
    (own : ClosedAt w' o.loop o.http.fd c ∨ Watched w' o.loop o.http.fd c) : AllWatched w' := by
  intro l fd d entry
  by_cases same : d = c
  · subst same
    obtain ⟨p, there, rfl, rfl, -⟩ := (sound.loops l).registered ((sound.loops l).channels entry)
    rw [here] at there
    cases there
    rw [loop, fd_eq] at entry ⊢
    rcases own with ⟨-, gone, -⟩ | kept
    · rw [gone] at entry
      cases entry
    · exact kept
  · exact beside.watched sound here loop fd_eq same entry (before l fd d)

/-- The condition on a step: a dispatch leaves nothing behind, and its `epoll_ctl` succeeds. -/
def Attends (w : Server) : Action → Prop
  | .dispatch l e ctl => ctl = true ∧ ∀ fd c ret o, (w.loops l).phase = .events ((fd, c) :: ret) →
      w.objects c = some o → ¬ o.http.Neglects e
  | _ => True

theorem dispatch_watched (sound : Sound w) (watched : AllWatched w) {e : Event} {ctl : Bool}
    (attends : Attends w (.dispatch l e ctl)) (moved : w.dispatch ctl l e = some w') :
    AllWatched w' ∧ ∃ c fd ret, (w.loops l).phase = .events ((fd, c) :: ret) ∧
      (ClosedAt w' l fd c ∨ Watched w' l fd c) := by
  obtain ⟨rfl, leaves⟩ := attends
  obtain ⟨c, o, ret, phase, rfl, stored, running, later, called, rfl⟩ := dispatch_cases sound moved
  have before : AllWatched (w.setPhase o.loop (.events ret)) := watched.setLoop (Calm.phase _ _)
  have stored' : ((w.setPhase o.loop (.events ret)).loops o.loop).fd2channel o.http.fd = some c := by
    rw [setPhase, setLoop_loops, Function.update_self]
    exact stored
  obtain ⟨beside, ⟨o', here', loop, fd_eq⟩, own⟩ := handleEvents_attended later called running
    (leaves _ _ _ _ phase called.here) (before _ _ _ stored')
  have sound' := later.handleEvents called running true e
  exact ⟨beside.allWatched sound' here' loop fd_eq before own, c, o.http.fd, ret, phase, own⟩

theorem newEvent_watched (sound : Sound w) (called : Called w c o) (untimed : Untimed w c o)
    (running : o.http.connectionState ≠ .hDisconnected) (empty : o.http.outBuffer = [])
    (watched : AllWatched w) (ctl : Bool) : AllWatched (newEvent ctl w c) := by
  have sound' := sound.newEvent called untimed running ctl
  have handled := sound.setEvents called running
  unfold Server.newEvent at sound' ⊢
  rw [called.here] at sound' ⊢
  exact (epollAdd_beside sound called.here handled ctl _).allWatched sound'
    (epollAdd_objects ..) rfl rfl watched (.inr (epollAdd_watched handled rfl empty ctl _))

theorem mem_eraseIdx {queue : List TimerNode} {i : Nat} {top n : TimerNode}
    (found : queue[i]? = some top) (waiting : n ∈ queue) (other : n ≠ top) :
    n ∈ queue.eraseIdx i := by
  induction queue generalizing i with
  | nil => cases found
  | cons m rest ih =>
      cases i with
      | zero =>
          obtain rfl := Option.some.inj found
          exact (List.mem_cons.mp waiting).resolve_left other
      | succ i =>
          rcases List.mem_cons.mp waiting with rfl | later
          · exact List.mem_cons_self
          · exact List.mem_cons_of_mem _ (ih found later)

theorem AllWatched.eraseTimer (watched : AllWatched w) {i : Nat} {top : TimerNode}
    (found : (w.loops l).timerNodeQueue[i]? = some top) (free : top.spHttpData = none) :
    AllWatched (w.eraseTimer l i) := by
  intro l' fd c stored
  unfold Server.eraseTimer at stored ⊢
  by_cases same : l' = l
  · subst same
    rw [setLoop_loops, Function.update_self] at stored
    obtain ⟨⟨n, waiting, valid, holds⟩, o, here, listens⟩ := watched l' fd c stored
    unfold Watched
    rw [setLoop_loops, Function.update_self]
    refine ⟨⟨n, mem_eraseIdx found waiting ?_, valid, holds⟩, o, here, listens⟩
    rintro rfl
    rw [free] at holds
    cases holds
  · rw [setLoop_loops, Function.update_of_ne same] at stored
    unfold Watched
    rw [setLoop_loops, Function.update_of_ne same]
    exact watched l' fd c stored

theorem handleExpired_watched (sound : Sound w) (watched : AllWatched w) {ctl : Bool} {i : Nat}
    (moved : w.handleExpired ctl l i = some w') : AllWatched w' := by
  obtain ⟨expired, ⟨rfl, -⟩ | ⟨top, n, found, holding, due, rfl⟩⟩ := handleExpired_cases moved
  · exact watched.setLoop (Calm.phase _ _)
  · rcases pop_cases sound expired found holding due ctl with
      ⟨free, same⟩ | ⟨c, o, o₁, byTimer, holds, rfl, called, handled, untimed, due, same⟩
    · rw [same]
      exact watched.eraseTimer found free
    · rw [same]
      have erased : Beside c o w (w.eraseTimer o.loop i) := by
        refine setLoop_beside rfl rfl ?_
        intro m waiting d other held
        apply mem_eraseIdx found waiting
        rintro rfl
        rw [holds] at held
        exact other (Option.some.inj held).symm
      have sound₁ := sound.eraseTimer o.loop i
      have closed := handleClose_beside sound₁ called.here handled ctl byTimer
      exact (erased.trans closed).allWatched (sound₁.handleClose called handled untimed ctl due)
        (Function.update_self ..) handled.loop handled.fd watched
        (.inl (handleClose_closedAt sound₁ called.here handled ctl byTimer))

theorem start_watched (now : Timeval) (system : List Nat) : AllWatched (start now system) := by
  intro l fd c stored
  cases stored

theorem poll_watched (watched : AllWatched w) {reported : List Nat} {other : Bool}
    (moved : w.poll l reported other = some w') : AllWatched w' := by
  unfold Server.poll at moved
  dsimp only at moved
  split at moved
  · cases moved
    refine watched.setLoop ⟨rfl, rfl, ?_⟩
    intro fd c _
    by_cases here : fd ∈ reported
    · exact .inr (if_pos here)
    · exact .inl (if_neg here)
  · cases moved

theorem swap_watched (watched : AllWatched w) (moved : w.swap l = some w') : AllWatched w' := by
  unfold Server.swap at moved
  dsimp only at moved
  split at moved
  · cases moved
    exact watched.setLoop ⟨rfl, rfl, fun _ _ _ => .inl rfl⟩
  · cases moved

theorem runFunctor_watched (sound : Sound w) (watched : AllWatched w) {ctl : Bool}
    (moved : w.runFunctor ctl l = some w') : AllWatched w' := by
  rcases runFunctor_cases sound moved with
    ⟨c, o, rest, rfl, running, empty, later, called, untimed, rfl⟩ | ⟨-, rfl⟩
  · exact newEvent_watched later called untimed running empty (watched.setLoop (Calm.phase _ _)) ctl
  · exact watched.setLoop ⟨rfl, rfl, fun _ _ _ => .inl rfl⟩

theorem accept_watched (sound : Sound w) (watched : AllWatched w) {fd : Nat} {nonBlocking : Bool}
    (moved : w.accept fd l nonBlocking = some w') : AllWatched w' := by
  obtain ⟨unused, rfl | rfl | rfl⟩ := accept_cases moved
  · exact watched.frame (fun _ here => here) fun _ => .refl _
  · exact watched.of_loop rfl (fun _ here => (sound.unborn fd).apart l here)
      ⟨rfl, rfl, fun _ _ _ => .inl rfl⟩
  · exact watched.frame (fun _ here => here) fun _ => .refl _

theorem destroy_watched (sound : Sound w) (watched : AllWatched w)
    (moved : w.destroy c = some w') : AllWatched w' := by
  obtain ⟨o, here, unreferred, rfl⟩ := destroy_cases moved
  have forgotten : ∀ l fd, (w.loops l).fd2channel fd ≠ some c := by
    intro l fd stored
    exact sound.unmentioned here unreferred l (.inl ⟨fd, (sound.loops l).channels stored⟩)
  refine watched.of_loop rfl ?_ ⟨rfl, rfl, ?_⟩
  · intro l fd d p stored there
    refine update_none_some.mpr ⟨?_, there⟩
    rintro rfl
    exact forgotten l fd stored
  · intro fd d stored
    left
    apply Function.update_of_ne
    rintro rfl
    have own := sound.own_entry here ((sound.loops o.loop).channels stored)
    exact forgotten o.loop o.http.fd (own ▸ stored)

theorem step_watched (sound : Sound w) (watched : AllWatched w) {action : Action}
    (attends : Attends w action) (moved : w.step action = some w') : AllWatched w' := by
  unfold Server.step at moved
  split at moved
  · cases moved
  · cases action with
    | accept fd l nonBlocking => exact accept_watched sound watched moved
    | acceptNext =>
        cases moved
        exact watched.frame (fun _ here => here) fun _ => .refl _
    | poll l reported other => exact poll_watched watched moved
    | dispatch l e ctl => exact (dispatch_watched sound watched attends moved).1
    | swap l => exact swap_watched watched moved
    | runFunctor l ctl => exact runFunctor_watched sound watched moved
    | handleExpired l i ctl => exact handleExpired_watched sound watched moved
    | destroy c => exact destroy_watched sound watched moved
    | tick now =>
        dsimp only at moved
        split at moved
        · cases moved
          exact watched.frame (fun _ here => here) fun _ => .refl _
        · cases moved

theorem reached_watched (reached : server.Reached Attends w) : AllWatched w := by
  apply reached.invariant_with (fun w => reached_sound)
  · rintro w ⟨now, system, rfl⟩
    exact start_watched now system
  · intro w action w' sound watched attends moved
    exact step_watched sound watched attends moved

theorem handleEvents_verdict {s : HttpData} {e : Event} (alive : ¬ HttpData.HangUp e.revents)
    {t : HttpData} {kt : Kernel}
    (read : HttpData.readPart e.revents (s.polled e.revents) (kernel e) = .ok (t, kt)) :
    (s.polled e.revents).handleEvents (kernel e) = .ok
      { http := (HttpData.writePart e.revents t kt).1.handleConn.1
        kernel := (HttpData.writePart e.revents t kt).2
        request := (HttpData.writePart e.revents t kt).1.handleConn.2 } := by
  have unset : (s.polled e.revents).setEvents 0#32 = s.polled e.revents := rfl
  have asked : (s.polled e.revents).channel.revents = e.revents := rfl
  rw [HttpData.handleEvents_eq (s := s.polled e.revents) alive, unset, asked, read]
  rfl

/-- A dispatch that neglects its connection neither closes it nor leaves it attended. -/
theorem neglected (sound : Sound w) (called : Called w c o)
    (running : o.http.connectionState ≠ .hDisconnected) {e : Event} (neglects : o.http.Neglects e)
    (before : Watched w o.loop o.http.fd c) :
    ¬ ClosedAt (handleEvents true w c e) o.loop o.http.fd c ∧
      ¬ TimedAt (handleEvents true w c e) o.loop o.http.fd c := by
  have here := called.here
  have unclosed : c ∉ w.handleClosed.map CloseRecord.conn := by
    intro shut
    obtain ⟨r, listed, rfl⟩ := List.mem_map.mp shut
    exact running ((sound.recorded listed).2 o here)
  obtain ⟨alive, ⟨t, kt, read, parks⟩ | ⟨idle, fine, connected, left⟩⟩ := neglects
  · have ran := handleEvents_verdict alive read
    have detached : (HttpData.writePart e.revents t kt).1.handleConn.1.timer = none :=
      HttpData.handleConn_timer _
    have still : ∀ n ∈ ((w.clearTimers o.loop
        (HttpData.writePart e.revents t kt).1.handleConn.1.cleared).loops o.loop).timerNodeQueue,
        n.spHttpData ≠ some c := by
      intro n waiting holds
      exact absurd (detached.symm.trans (sound.still_linked here ran waiting holds)) (by simp)
    unfold Server.handleEvents
    rw [here]
    simp only [ran, HttpData.handleConn_parks parks]
    refine ⟨fun closed => unclosed closed.1, ?_⟩
    rintro ⟨⟨n, waiting, -, holds⟩, -⟩
    exact still n waiting holds
  · have read : HttpData.readPart e.revents (o.http.polled e.revents) (kernel e) =
        .ok (o.http.polled e.revents, kernel e) := by
      unfold HttpData.readPart
      rw [if_neg idle.1]
    have silent : (HttpData.writePart e.revents (o.http.polled e.revents) (kernel e)).1 =
        o.http.polled e.revents := by
      unfold HttpData.writePart
      rw [idle.2]
      rfl
    have ran := handleEvents_verdict alive read
    rw [silent] at ran
    obtain ⟨timeout, asked, same, unwatched⟩ := HttpData.handleConn_silent
      (s := o.http.polled e.revents) fine connected rfl
    have handled := dispatched_handled o running ran
    have interest := epollMod_interest (c := c) (w := w.clearTimers o.loop
      (o.http.polled e.revents).handleConn.1.cleared) handled
      (handled.channelFd.trans (sound.object here).1)
      (HttpData.handleEvents_dispatched ran).1.lastEvents
      ((HttpData.handleEvents_dispatched ran).1.oneShot (Mask.zero_has _)) ?_ timeout
    · unfold Server.handleEvents
      rw [here]
      simp only [ran, asked]
      refine ⟨?_, ?_⟩
      · rintro ⟨closed, -⟩
        rw [epollMod_eq] at closed
        exact unclosed closed
      · rintro ⟨-, waits⟩
        obtain ⟨mask, registered, waiting⟩ := waits _ (epollMod_objects ..) (same ▸ left)
        rw [interest] at registered
        cases registered
        rw [unwatched] at waiting
        cases waiting
    · obtain ⟨-, p, there, listens⟩ := before
      rw [here] at there
      cases there
      unfold Server.clearTimers
      rw [setLoop_loops, Function.update_self]
      exact listens

/-- In a run whose dispatches left nothing behind so far, the next one ends with its connection closed
    and forgotten by its loop, or held by a live timer node and waiting for the output it has left,
    exactly if it leaves nothing behind either. -/
theorem attended_iff (reached : server.Reached Attends w) {e : Event} {fd : Nat}
    {ret : List ReadyChannel} (phase : (w.loops l).phase = .events ((fd, c) :: ret))
    (here : w.objects c = some o) (moved : w.step (.dispatch l e true) = some w') :
    (ClosedAt w' l fd c ∨ TimedAt w' l fd c) ↔ ¬ o.http.Neglects e := by
  have sound := reached_sound reached
  have watched := reached_watched reached
  have moved : w.dispatch true l e = some w' := by
    unfold Server.step at moved
    split at moved
    · cases moved
    · exact moved
  constructor
  · intro attended neglects
    obtain ⟨d, p, ret', phase', rfl, stored, running, later, called, rfl⟩ :=
      dispatch_cases sound moved
    rw [phase] at phase'
    cases phase'
    have there : w.objects c = some p := called.here
    rw [here] at there
    cases there
    have before : Watched (w.setPhase o.loop (.events ret)) o.loop o.http.fd c := by
      have calm : AllWatched (w.setPhase o.loop (.events ret)) := watched.setLoop (Calm.phase _ _)
      apply calm
      rw [setPhase, setLoop_loops, Function.update_self]
      exact stored
    obtain ⟨unclosed, untimed⟩ := neglected later called running neglects before
    exact attended.elim unclosed untimed
  · intro attends
    have met : Attends w (.dispatch l e true) := by
      refine ⟨rfl, ?_⟩
      intro fd' d ret' p phase' there
      rw [phase] at phase'
      cases phase'
      rw [here] at there
      cases there
      exact attends
    obtain ⟨-, d, fd', ret', phase', own⟩ := dispatch_watched sound watched met moved
    rw [phase] at phase'
    cases phase'
    exact own.imp_right Watched.timedAt

/-- The first connection is reported to be readable. -/
def firstEvent : List Action := firstConnection ++ [.handleExpired 0 0 true, .poll 0 [9] false]

/-- A complete request, followed by the end of the stream or not. -/
def helloEvent (eof : Bool) (writes : List WriteResult) : Event where
  revents := EPOLLIN
  reads := .ok (text "GET /hello HTTP/1.1\r\nA: b\r\n\r\n") :: if eof then [.ok []] else []
  writes
  files _ _ := .missing

theorem firstEvent_attends {action : Action} (listed : action ∈ firstEvent) (w : Server) :
    Attends w action := by
  unfold firstEvent firstConnection at listed
  simp only [List.cons_append, List.nil_append, List.mem_cons, List.not_mem_nil, or_false] at listed
  rcases listed with rfl | rfl | rfl | rfl | rfl | rfl | rfl | rfl <;> trivial

theorem attended_iff_hello :
    ∃ w w' o, server.replay (start ⟨0, 0, by decide⟩ [3]) firstEvent = some w ∧
      w.step (.dispatch 0 (helloEvent false [.ok 10, .eagain]) true) = some w' ∧
      w.objects 0 = some o ∧
      ((ClosedAt w' 0 9 0 ∨ TimedAt w' 0 9 0) ↔
        ¬ o.http.Neglects (helloEvent false [.ok 10, .eagain])) := by
  have run : server.replay (start ⟨0, 0, by decide⟩ [3]) firstEvent = some _ := rfl
  have reached : server.Reached Attends _ :=
    System.Reached.replay (fun _ => firstEvent_attends) (.init ⟨_, _, rfl⟩) run
  have phase : _ = IoPhase.events [(9, 0)] := rfl
  exact ⟨_, _, _, run, rfl, rfl, attended_iff reached phase rfl rfl⟩

/-- A peer that half-closes and then takes its reply in part is left without a timer. -/
theorem half_closed_left :
    ¬ ∀ w, server.Reachable w → ∀ l fd c ret e w', (w.loops l).phase = .events ((fd, c) :: ret) →
      w.step (.dispatch l e true) = some w' → w'.crashed.isNone →
      ClosedAt w' l fd c ∨ TimedAt w' l fd c := by
  intro attended
  have run : server.replay (start ⟨0, 0, by decide⟩ [3]) firstEvent = some _ := rfl
  rcases attended _ (replay_reachable run) 0 9 0 [] (helloEvent true [.ok 10, .eagain]) _ rfl rfl rfl
    with ⟨-, gone, -⟩ | ⟨⟨n, waiting, -, holds⟩, -⟩
  · cases gone
  · rw [List.mem_singleton.mp waiting] at holds
    cases holds

end Server

end WebServer
