import WebServer.Loop.EventLoop

/-! # No wake-up is lost

The functors that were pushed are those already started, those swapped out and those still pending,
in this order. While functors are pending and no swap is ahead, the eventfd can be read or a thread
is on its way to write it; and whatever can be read is reported, because the loop reads the eventfd
between the report and its next `epoll_wait`, while its mask never changes.
-/

namespace WebServer

open Lib

namespace WakeupChannel

/-- The poller watches the eventfd for reading and knows its channel. -/
structure Listening (w : WakeupChannel) : Prop where
  stored : w.stored = true
  interest : w.interest = EPOLLIN ||| EPOLLET
  lastEvents : w.channel.lastEvents = EPOLLIN ||| EPOLLET

variable {w w' : WakeupChannel}

theorem listening_new (wakeupFd : Nat) : (new wakeupFd).Listening := ⟨rfl, rfl, rfl⟩

theorem Listening.write (listening : w.Listening) :
    w.write.Listening ∧ w.write.eventFd = w.eventFd.write := by
  have watched : w.interest.has EPOLLIN = true := by
    rw [listening.interest]
    decide
  have written : w.write = { w with eventFd := w.eventFd.write } := by
    simp only [WakeupChannel.write, watched, if_true]
  rw [written]
  exact ⟨⟨listening.stored, listening.interest, listening.lastEvents⟩, rfl⟩

theorem Listening.handleEvents (listening : w.Listening) (ctl : Bool)
    (reported : w.channel.revents = EPOLLIN) :
    (w.handleEvents ctl).Listening ∧ (w.handleEvents ctl).eventFd = w.eventFd.read ∧
      (w.handleEvents ctl).channel.revents = EPOLLIN := by
  have handled : w.handleEvents ctl = w.handleRead.handleConn ctl := by
    unfold WakeupChannel.handleEvents
    rw [reported]
    rfl
  have elided : w.handleRead.channel.epollMod ctl =
      (.elided, { w.handleRead.channel with lastEvents := EPOLLIN ||| EPOLLET }) := by
    unfold Channel.epollMod Channel.equalAndUpdateLastEvents
    simp [WakeupChannel.handleRead, listening.lastEvents]
  have stays : w.handleRead.handleConn ctl =
      { w.handleRead with
        channel := { w.handleRead.channel with lastEvents := EPOLLIN ||| EPOLLET } } := by
    unfold WakeupChannel.handleConn
    rw [elided]
  rw [handled, stays]
  exact ⟨⟨listening.stored, listening.interest, rfl⟩, rfl, reported⟩

theorem Listening.poll (listening : w.Listening) (reported : w.poll = some w') :
    w'.Listening ∧ w'.channel.revents = EPOLLIN := by
  simp only [WakeupChannel.poll, listening.stored, if_true, Option.map_eq_some_iff] at reported
  obtain ⟨eventFd, -, rfl⟩ := reported
  exact ⟨⟨rfl, listening.interest, listening.lastEvents⟩, rfl⟩

theorem Signalled.poll (signalled : w.eventFd.Signalled) : w.poll.isSome := by
  unfold WakeupChannel.poll
  rw [Option.isSome_map, EventFd.report_isSome]
  exact signalled

end WakeupChannel

namespace EventLoop

variable {Functor : Type} {s s' : EventLoop Functor}

/-- The wake-up channel is among the channels still to be handled. -/
def Reported (s : EventLoop Functor) : Prop := ∃ ret, s.phase = .events ret ∧ .wakeup ∈ ret

/-- The loop's thread is going to swap before it waits again. -/
def SwapAhead (s : EventLoop Functor) : Prop := ∃ ret, s.phase = .events ret

/-- There is something to read, or a thread stands before the rest of its `QueueInLoop`. -/
def Heard (s : EventLoop Functor) : Prop := 0 < s.wakeup.eventFd.counter ∨ s.queueing ≠ []

theorem not_swapAhead (elsewhere : ∀ ret, s.phase ≠ .events ret) : ¬ s.SwapAhead := by
  rintro ⟨ret, phase⟩
  exact elsewhere ret phase

theorem Reported.swapAhead (reported : s.Reported) : s.SwapAhead := by
  obtain ⟨ret, phase, -⟩ := reported
  exact ⟨ret, phase⟩

/-- What holds in every reachable state. -/
structure Tidy (s : EventLoop Functor) : Prop where
  order : s.ran ++ s.functors ++ s.pendingFunctors = s.pushed
  swapped : s.functors ≠ [] → ∃ running, s.phase = .functors running
  listening : s.wakeup.Listening
  revents : s.Reported → s.wakeup.channel.revents = EPOLLIN
  armed : s.wakeup.eventFd.Armed ∨ s.Reported
  inside : s.kThreadId ∈ s.queueing → s.calling = true
  flag : ∀ running, s.phase = .functors running → s.callingPendingFunctors = true
  heard : s.pendingFunctors ≠ [] → s.Heard ∨ s.SwapAhead

theorem tidy_new (kThreadId : Tid) (wakeupFd : Nat) :
    Tidy (new kThreadId wakeupFd : EventLoop Functor) where
  order := rfl
  swapped := fun some_left => absurd rfl some_left
  listening := WakeupChannel.listening_new wakeupFd
  revents := by
    rintro ⟨ret, phase, -⟩
    cases phase
  armed := .inl EventFd.armed_new
  inside := by
    intro here
    cases here
  flag := by
    intro running phase
    cases phase
  heard := fun some_left => absurd rfl some_left

theorem Tidy.push (tidy : Tidy s) {tid : Tid} {cb : Functor} (pushed : s.push tid cb = some s') :
    Tidy s' := by
  unfold EventLoop.push at pushed
  split at pushed
  · rename_i allowed
    cases pushed
    refine { tidy with order := ?order, inside := ?inside, heard := ?heard }
    case order =>
      show s.ran ++ s.functors ++ (s.pendingFunctors ++ [cb]) = s.pushed ++ [cb]
      rw [← tidy.order, List.append_assoc (s.ran ++ s.functors)]
    case inside =>
      intro here
      rcases List.mem_cons.mp here with same | before
      · exact allowed.2 same.symm
      · exact tidy.inside before
    case heard =>
      intro _
      exact .inl (.inr (List.cons_ne_nil _ _))
  · cases pushed

theorem Tidy.write (tidy : Tidy s) :
    Tidy { s with wakeup := s.wakeup.write } ∧ 0 < s.wakeup.write.eventFd.counter := by
  obtain ⟨listening, written⟩ := tidy.listening.write
  have positive : 0 < s.wakeup.write.eventFd.counter := by
    rw [written]
    exact EventFd.write_positive _
  refine ⟨{ tidy with listening, revents := ?revents, armed := ?armed, heard := ?heard }, positive⟩
  case revents => exact tidy.revents
  case armed =>
    rcases tidy.armed with armed | reported
    · left
      show s.wakeup.write.eventFd.Armed
      rw [written]
      exact armed.write
    · exact .inr reported
  case heard =>
    intro _
    exact .inl (.inl positive)

/-- A thread leaves `QueueInLoop` after it wrote the eventfd, or before a swap. -/
theorem Tidy.wakeUp (tidy : Tidy s) {tid : Tid} (woken : s.wakeUp tid = some s') : Tidy s' := by
  unfold EventLoop.wakeUp at woken
  split at woken
  · rename_i here
    cases woken
    by_cases writes : (tid ≠ s.kThreadId || s.callingPendingFunctors) = true
    · obtain ⟨tidy', positive⟩ := tidy.write
      rw [if_pos writes]
      refine { tidy' with inside := ?inside, heard := ?heard }
      case inside =>
        intro left_in
        exact tidy.inside (List.mem_of_mem_erase left_in)
      case heard =>
        intro _
        exact .inl (.inl positive)
    · rw [if_neg writes]
      simp only [ne_eq, Bool.or_eq_true, decide_eq_true_eq, not_or, not_not,
        Bool.not_eq_true] at writes
      obtain ⟨rfl, idle⟩ := writes
      have handling : s.SwapAhead := by
        have calling := tidy.inside here
        unfold EventLoop.calling at calling
        split at calling
        · rename_i phase
          exact ⟨_, phase⟩
        · rename_i phase
          exact absurd (tidy.flag _ phase) (by simp [idle])
        · cases calling
      refine { tidy with inside := ?inside, heard := ?heard }
      case inside =>
        intro left_in
        exact tidy.inside (List.mem_of_mem_erase left_in)
      case heard =>
        intro _
        exact .inr handling
  · cases woken

theorem poll_cases (listening : s.wakeup.Listening) {reported : List Ready}
    (polled : s.poll reported = some s') :
    ∃ wakeup, s' = { s with wakeup, phase := if reported = [] then .poll else .events reported } ∧
      (.wakeup ∉ reported ∧ wakeup = s.wakeup ∨
        .wakeup ∈ reported ∧ s.wakeup.poll = some wakeup) := by
  unfold EventLoop.poll at polled
  split at polled
  · rename_i here
    split at polled
    · cases polled
    · obtain ⟨wakeup, report, rfl⟩ := Option.map_eq_some_iff.mp polled
      rw [if_pos listening.stored]
      exact ⟨wakeup, rfl, .inr ⟨here, report⟩⟩
  · rename_i absent
    cases polled
    exact ⟨s.wakeup, rfl, .inl ⟨absent, rfl⟩⟩

/-- A reported edge is on the list of channels to handle, so the eventfd is read before the next
    `epoll_wait`. -/
theorem Tidy.poll (tidy : Tidy s) (waiting : s.phase = .poll) {reported : List Ready}
    (outside : s.kThreadId ∉ s.queueing) (polled : s.poll reported = some s') : Tidy s' := by
  obtain ⟨wakeup, rfl, report⟩ := poll_cases tidy.listening polled
  have phase_of : ∀ {ret}, (if reported = [] then LoopPhase.poll else .events reported) =
      .events ret → reported = ret := by
    intro ret phase
    split at phase
    · cases phase
    · injection phase
  have elsewhere : ¬ s.SwapAhead := not_swapAhead (by simp [waiting])
  have armed_before : s.wakeup.eventFd.Armed :=
    tidy.armed.resolve_right fun reported => elsewhere reported.swapAhead
  refine { tidy with
    swapped := ?swapped, listening := ?listening, revents := ?revents, armed := ?armed,
    inside := ?inside, flag := ?flag, heard := ?heard }
  case swapped =>
    intro some_left
    obtain ⟨running, phase⟩ := tidy.swapped some_left
    rw [waiting] at phase
    cases phase
  case listening =>
    rcases report with ⟨-, rfl⟩ | ⟨-, report⟩
    · exact tidy.listening
    · exact (tidy.listening.poll report).1
  case revents =>
    rintro ⟨ret, phase, listed⟩
    obtain rfl := phase_of phase
    rcases report with ⟨absent, -⟩ | ⟨-, report⟩
    · exact absurd listed absent
    · exact (tidy.listening.poll report).2
  case armed =>
    rcases report with ⟨-, rfl⟩ | ⟨here, report⟩
    · exact .inl armed_before
    · refine .inr ⟨reported, ?_, here⟩
      exact if_neg (List.ne_nil_of_mem here)
  case inside =>
    intro here
    exact absurd here outside
  case flag =>
    intro running phase
    split at phase <;> cases phase
  case heard =>
    intro some_left
    by_cases none_reported : reported = []
    · subst none_reported
      obtain ⟨-, rfl⟩ : .wakeup ∉ ([] : List Ready) ∧ wakeup = s.wakeup :=
        report.resolve_right fun ⟨here, _⟩ => List.not_mem_nil here
      exact .inl ((tidy.heard some_left).resolve_right elsewhere)
    · exact .inr ⟨reported, if_neg none_reported⟩

/-- Handling the wake-up channel reads the eventfd. -/
theorem Tidy.handleWakeup (tidy : Tidy s) {ret : List Ready} (ctl : Bool)
    (handling : s.phase = .events (.wakeup :: ret)) (outside : s.kThreadId ∉ s.queueing) :
    Tidy { s with wakeup := s.wakeup.handleEvents ctl, phase := .events ret } := by
  have reported : s.Reported := ⟨_, handling, List.mem_cons_self⟩
  obtain ⟨listening, read, revents⟩ := tidy.listening.handleEvents ctl (tidy.revents reported)
  refine { tidy with
    listening, swapped := ?swapped, revents := ?revents, armed := ?armed, inside := ?inside,
    flag := ?flag, heard := ?heard }
  case swapped =>
    intro some_left
    obtain ⟨running, phase⟩ := tidy.swapped some_left
    rw [handling] at phase
    cases phase
  case revents =>
    intro _
    exact revents
  case armed =>
    left
    show (s.wakeup.handleEvents ctl).eventFd.Armed
    rw [read]
    exact EventFd.armed_read _
  case inside =>
    intro here
    exact absurd here outside
  case flag =>
    intro running phase
    cases phase
  case heard =>
    intro _
    exact .inr ⟨ret, rfl⟩

/-- The handler of another channel returns. -/
theorem Tidy.handleOther (tidy : Tidy s) {ret : List Ready}
    (handling : s.phase = .events (.other :: ret)) (outside : s.kThreadId ∉ s.queueing) :
    Tidy { s with phase := .events ret } := by
  have listed : (∃ after, LoopPhase.events ret = .events after ∧ .wakeup ∈ after) ↔ s.Reported := by
    unfold Reported
    rw [handling]
    simp
  refine { tidy with
    swapped := ?swapped, revents := ?revents, armed := ?armed, inside := ?inside, flag := ?flag,
    heard := ?heard }
  case swapped =>
    intro some_left
    obtain ⟨running, phase⟩ := tidy.swapped some_left
    rw [handling] at phase
    cases phase
  case revents =>
    intro reported
    exact tidy.revents (listed.mp reported)
  case armed =>
    rcases tidy.armed with armed | reported
    · exact .inl armed
    · exact .inr (listed.mpr reported)
  case inside =>
    intro here
    exact absurd here outside
  case flag =>
    intro running phase
    cases phase
  case heard =>
    intro _
    exact .inr ⟨ret, rfl⟩

/-- The swap takes everything that is pending. -/
theorem Tidy.swap (tidy : Tidy s) (handled : s.phase = .events [])
    (outside : s.kThreadId ∉ s.queueing) :
    Tidy { s with
      callingPendingFunctors := true, functors := s.pendingFunctors, pendingFunctors := [],
      phase := .functors false } := by
  have swapped : s.functors = [] := by
    by_contra some_left
    obtain ⟨running, phase⟩ := tidy.swapped some_left
    rw [handled] at phase
    cases phase
  have armed : s.wakeup.eventFd.Armed := by
    apply tidy.armed.resolve_right
    rintro ⟨ret, phase, listed⟩
    rw [handled] at phase
    cases phase
    exact List.not_mem_nil listed
  refine { tidy with
    order := ?order, swapped := ?swapped, revents := ?revents, armed := .inl armed,
    inside := ?inside, flag := ?flag, heard := ?heard }
  case order =>
    show s.ran ++ s.pendingFunctors ++ [] = s.pushed
    rw [← tidy.order, swapped, List.append_nil, List.append_nil]
  case swapped =>
    intro _
    exact ⟨false, rfl⟩
  case revents =>
    rintro ⟨ret, phase, -⟩
    cases phase
  case inside =>
    intro here
    exact absurd here outside
  case flag =>
    intro _ _
    rfl
  case heard =>
    intro some_left
    exact absurd rfl some_left

/-- A phase without channels to handle, reached from another one. -/
theorem Tidy.moved (tidy : Tidy s) (outside : s.kThreadId ∉ s.queueing) {phase : LoopPhase}
    {functors ran : List Functor} {calling : Bool} (before : ∀ ret, s.phase ≠ .events ret)
    (after : ∀ ret, phase ≠ .events ret) (order : ran ++ functors = s.ran ++ s.functors)
    (swapped : functors ≠ [] → ∃ running, phase = .functors running)
    (flag : ∀ running, phase = .functors running → calling = true) :
    Tidy { s with phase, functors, ran, callingPendingFunctors := calling } := by
  refine { tidy with
    order := ?order, swapped, flag, revents := ?revents, armed := ?armed, inside := ?inside,
    heard := ?heard }
  case order =>
    show ran ++ functors ++ s.pendingFunctors = s.pushed
    rw [order, tidy.order]
  case revents =>
    rintro ⟨ret, handling, -⟩
    exact absurd handling (after ret)
  case armed =>
    apply tidy.armed.imp_right
    intro reported
    exact absurd reported.swapAhead (not_swapAhead before)
  case inside =>
    intro here
    exact absurd here outside
  case heard =>
    intro some_left
    exact .inl ((tidy.heard some_left).resolve_right (not_swapAhead before))

theorem Tidy.advance (tidy : Tidy s) (outside : s.kThreadId ∉ s.queueing)
    {action : LoopAction Functor} (advanced : s.advance action = some s') : Tidy s' := by
  unfold EventLoop.advance at advanced
  split at advanced
  next waiting => exact tidy.poll waiting outside advanced
  next handling =>
    cases advanced
    exact tidy.handleWakeup _ handling outside
  next handling =>
    cases advanced
    exact tidy.handleOther handling outside
  next handled =>
    cases advanced
    exact tidy.swap handled outside
  next running phase =>
    have before : ∀ ret, s.phase ≠ .events ret := by simp [phase]
    split at advanced
    next cb rest left =>
      cases advanced
      refine tidy.moved outside before (by simp) ?_ (fun _ => ⟨true, rfl⟩) ?_
      · rw [left, List.append_assoc, List.singleton_append]
      · intro _ _
        exact tidy.flag _ phase
    next left =>
      cases advanced
      refine tidy.moved outside before (by simp) rfl ?_ (by simp)
      intro some_left
      exact absurd left some_left
  next expired =>
    cases advanced
    refine tidy.moved outside (by simp [expired]) (by simp) rfl ?_ (by simp)
    intro some_left
    obtain ⟨running, phase⟩ := tidy.swapped some_left
    rw [expired] at phase
    cases phase
  next => cases advanced

theorem Tidy.step (tidy : Tidy s) {action : LoopAction Functor}
    (stepped : s.step action = some s') : Tidy s' := by
  unfold EventLoop.step at stepped
  split at stepped
  next => exact tidy.push stepped
  next => exact tidy.wakeUp stepped
  next =>
    split at stepped
    · cases stepped
    · rename_i outside
      exact tidy.advance outside stepped

theorem reached_tidy (reached : (eventLoop Functor).Reachable s) : Tidy s := by
  apply reached.invariant
  · rintro s ⟨kThreadId, wakeupFd, rfl⟩
    exact tidy_new kThreadId wakeupFd
  · intro s action s' tidy _ stepped
    exact tidy.step stepped

/-- Functors run once each and in the order in which they were pushed; and while the loop waits in
    `epoll_wait` with functors pending, it is about to be woken. -/
theorem no_lost_wakeup (reached : (eventLoop Functor).Reachable s) :
    s.ran ++ s.functors ++ s.pendingFunctors = s.pushed ∧
      (s.phase = .poll → s.pendingFunctors ≠ [] →
        s.wakeup.eventFd.Signalled ∨ ∃ tid ∈ s.queueing, tid ≠ s.kThreadId) := by
  have tidy := reached_tidy reached
  refine ⟨tidy.order, ?_⟩
  intro waiting some_left
  have elsewhere : ¬ s.SwapAhead := not_swapAhead (by simp [waiting])
  have armed : s.wakeup.eventFd.Armed :=
    tidy.armed.resolve_right fun reported => elsewhere reported.swapAhead
  have heard : s.Heard := (tidy.heard some_left).resolve_right elsewhere
  rcases heard with positive | between
  · exact .inl (armed.signalled positive)
  · right
    obtain ⟨tid, here⟩ := List.exists_mem_of_ne_nil _ between
    refine ⟨tid, here, ?_⟩
    rintro rfl
    have calling := tidy.inside here
    simp [EventLoop.calling, waiting] at calling

/-- A functor is pushed, wakes the loop and is run; a second one comes while the loop runs the first, and
    its wake-up when the loop waits again. -/
def pushedTwice : List (LoopAction Nat) :=
  [.push 1 7, .wakeUp 1, .poll [.wakeup], .handleEvents true, .swap, .push 2 8, .next, .next,
    .handleExpired, .wakeUp 2]

theorem no_lost_wakeup_pushed :
    ∃ s : EventLoop Nat, (eventLoop Nat).replay (new 0 5) pushedTwice = some s ∧ s.phase = .poll ∧
      s.ran = [7] ∧ s.pendingFunctors = [8] ∧ s.queueing = [] ∧
      s.ran ++ s.functors ++ s.pendingFunctors = s.pushed ∧
      (s.phase = .poll → s.pendingFunctors ≠ [] →
        s.wakeup.eventFd.Signalled ∨ ∃ tid ∈ s.queueing, tid ≠ s.kThreadId) := by
  obtain ⟨s, ran, phase, done, pending, outside⟩ : ∃ s : EventLoop Nat,
      (eventLoop Nat).replay (new 0 5) pushedTwice = some s ∧ s.phase = .poll ∧ s.ran = [7] ∧
        s.pendingFunctors = [8] ∧ s.queueing = [] := ⟨_, rfl, rfl, rfl, rfl, rfl⟩
  have reached : (eventLoop Nat).Reachable s :=
    .replay (fun _ _ _ => trivial) (.init ⟨0, 5, rfl⟩) ran
  exact ⟨s, ran, phase, done, pending, outside, no_lost_wakeup reached⟩

end EventLoop

end WebServer
