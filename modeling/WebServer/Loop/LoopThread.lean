import WebServer.Loop.Wakeup

/-! # The thread of an event loop

`ThreadFunc` publishes the loop before it enters `Loop`, whose first statements initialise `quit_`
again. The owner calls `StartLoop` and later the destructor, that is `Quit` and `Join`; it may do so
as soon as the loop is published.
-/

namespace WebServer

open Lib

/-- Where the new thread stands in `ThreadFunc` and, from `enter` to `leave`, in `Loop`. -/
inductive ThreadPc where
  /-- Before the constructor of `EventLoop`. -/
  | construct
  | publish
  /-- Before `looping_ = true`. -/
  | enter
  /-- Before `quit_ = false`. -/
  | reset
  | test
  /-- From `Poll` to `HandleExpired`. -/
  | body
  /-- Before `looping_ = false`. -/
  | leave
  /-- Before `loop_ = NULL`. -/
  | clear
  | done
  deriving Repr, DecidableEq

/-- Where the owner of the `EventLoopThread` stands. -/
inductive OwnerPc where
  | idle
  /-- In `StartLoop`, until `loop_` is set. -/
  | starting
  | started
  /-- In `Quit`, before `WakeUp`. -/
  | quitting
  /-- In `Join`. -/
  | joining
  | joined
  deriving Repr, DecidableEq

structure EventLoopThread (Functor : Type) where
  pc : ThreadPc
  owner : OwnerPc
  loop : EventLoop Functor
  /-- `loop_` is not `NULL`. -/
  published : Bool
  looping : Bool
  quit : Bool

inductive LoopThreadAction (Functor : Type) where
  /-- `thread_.Start()`. -/
  | start
  /-- `StartLoop` returns. -/
  | startLoop
  /-- `Quit`: `quit_ = true`. -/
  | quit
  /-- The rest of `Quit`. -/
  | wakeUp
  /-- `Join` returns. -/
  | join
  /-- The new thread, outside the body of the loop. -/
  | thread
  /-- The new thread in the body of the loop, or `QueueInLoop` on any thread. -/
  | loop (action : LoopAction Functor)

namespace EventLoopThread

variable {Functor : Type}

def new (kThreadId : Tid) (wakeupFd : Nat) : EventLoopThread Functor where
  pc := .construct
  owner := .idle
  loop := .new kThreadId wakeupFd
  published := false
  looping := false
  quit := false

/-- `ThreadFunc` and `Loop`, outside the body of the loop. -/
def threadFunc (t : EventLoopThread Functor) : Option (EventLoopThread Functor) :=
  match t.pc with
  | .construct =>
      if t.owner = .idle then none
      else some { t with pc := .publish, looping := false, quit := false }
  | .publish => some { t with pc := .enter, published := true }
  | .enter => some { t with pc := .reset, looping := true }
  | .reset => some { t with pc := .test, quit := false }
  | .test => some { t with pc := if t.quit then .leave else .body }
  | .body => none
  | .leave => some { t with pc := .clear, looping := false }
  | .clear => some { t with pc := .done, published := false }
  | .done => none

/-- A step of the loop itself; after `HandleExpired` the thread tests `quit_`. -/
def runLoop (t : EventLoopThread Functor) (action : LoopAction Functor) :
    Option (EventLoopThread Functor) :=
  if t.published then
    match action with
    | .push tid cb => (t.loop.push tid cb).map fun loop => { t with loop }
    | .wakeUp tid => (t.loop.wakeUp tid).map fun loop => { t with loop }
    | .handleExpired =>
        if t.pc = .body then
          (t.loop.step .handleExpired).map fun loop => { t with loop, pc := .test }
        else none
    | action => if t.pc = .body then (t.loop.step action).map fun loop => { t with loop } else none
  else none

def step (t : EventLoopThread Functor) (action : LoopThreadAction Functor) :
    Option (EventLoopThread Functor) :=
  match action with
  | .start => if t.owner = .idle then some { t with owner := .starting } else none
  | .startLoop =>
      if t.owner = .starting ∧ t.published then some { t with owner := .started } else none
  | .quit =>
      if t.owner = .started ∧ t.published then some { t with owner := .quitting, quit := true }
      else none
  | .wakeUp =>
      if t.owner = .quitting then
        -- The eventfd goes with the loop.
        let wakeup := if t.published then t.loop.wakeup.write else t.loop.wakeup
        some { t with owner := .joining, loop := { t.loop with wakeup } }
      else none
  | .join => if t.owner = .joining ∧ t.pc = .done then some { t with owner := .joined } else none
  | .thread => t.threadFunc
  | .loop action => t.runLoop action

/-- The thread has entered the loop: it has passed `quit_ = false`. -/
def Initialised (t : EventLoopThread Functor) : Prop :=
  t.pc ≠ .construct ∧ t.pc ≠ .publish ∧ t.pc ≠ .enter ∧ t.pc ≠ .reset

end EventLoopThread

/-- An event loop's thread and its owner, over all their runs. -/
def loopThread (Functor : Type) : System (EventLoopThread Functor) (LoopThreadAction Functor) where
  init t := ∃ kThreadId wakeupFd, t = EventLoopThread.new kThreadId wakeupFd
  step := EventLoopThread.step

namespace EventLoop

variable {Functor : Type} {s s' : EventLoop Functor}

theorem push_frame {tid : Tid} {cb : Functor} (pushed : s.push tid cb = some s') :
    s'.phase = s.phase ∧ s'.wakeup = s.wakeup := by
  unfold push at pushed
  split at pushed
  · cases pushed
    exact ⟨rfl, rfl⟩
  · cases pushed

theorem wakeUp_frame (tidy : Tidy s) {tid : Tid} (woken : s.wakeUp tid = some s') :
    s'.phase = s.phase ∧
      (0 < s.wakeup.eventFd.counter → 0 < s'.wakeup.eventFd.counter) := by
  unfold wakeUp at woken
  split at woken
  · cases woken
    refine ⟨rfl, fun positive => ?_⟩
    dsimp only
    split
    · exact tidy.write.2
    · exact positive
  · cases woken

/-- Only an `epoll_wait` that reports nothing is followed by another one at once. -/
theorem waits_again (tidy : Tidy s) {action : LoopAction Functor}
    (advanced : s.advance action = some s') (waiting : s'.phase = .poll) :
    s.phase = .expired ∨ s.phase = .poll ∧ s'.wakeup = s.wakeup := by
  unfold advance at advanced
  split at advanced
  next phase =>
    right
    refine ⟨phase, ?_⟩
    obtain ⟨wakeup, rfl, report⟩ := poll_cases tidy.listening advanced
    rcases report with ⟨-, same⟩ | ⟨here, -⟩
    · exact same
    · dsimp only at waiting
      rw [if_neg (List.ne_nil_of_mem here)] at waiting
      cases waiting
  next =>
    cases advanced
    cases waiting
  next =>
    cases advanced
    cases waiting
  next =>
    cases advanced
    cases waiting
  next =>
    split at advanced <;> cases advanced <;> cases waiting
  next phase =>
    exact .inl phase
  next => cases advanced

end EventLoop

namespace EventLoopThread

variable {Functor : Type} {t t' : EventLoopThread Functor}

/-- `loop_` is set from the publication to the end. -/
def Publishes (t : EventLoopThread Functor) : Prop :=
  match t.pc with
  | .construct | .publish | .done => t.published = false
  | .enter | .reset | .test | .body | .leave | .clear => t.published = true

/-- What holds in every reachable state. -/
structure Sound (t : EventLoopThread Functor) : Prop where
  tidy : t.loop.Tidy
  publishes : t.Publishes
  outside : t.pc ≠ .body → t.loop.phase = .poll

theorem sound_new (kThreadId : Tid) (wakeupFd : Nat) :
    Sound (new kThreadId wakeupFd : EventLoopThread Functor) :=
  ⟨EventLoop.tidy_new kThreadId wakeupFd, rfl, fun _ => rfl⟩

theorem Sound.threadFunc (sound : Sound t) (moved : t.threadFunc = some t') : Sound t' := by
  have publishes := sound.publishes
  unfold Publishes at publishes
  unfold EventLoopThread.threadFunc at moved
  cases state : t.pc with
  | construct =>
      simp only [state] at moved publishes
      split_ifs at moved
      cases moved
      exact ⟨sound.tidy, publishes, fun _ => sound.outside (by simp [state])⟩
  | publish | enter | reset | leave | clear =>
      simp only [state] at moved publishes
      cases moved
      exact ⟨sound.tidy, by first | rfl | exact publishes, fun _ => sound.outside (by simp [state])⟩
  | test =>
      simp only [state] at moved publishes
      cases moved
      refine ⟨sound.tidy, ?_, fun _ => sound.outside (by simp [state])⟩
      unfold Publishes
      dsimp only
      split_ifs <;> exact publishes
  | body | done =>
      simp only [state] at moved
      cases moved

/-- What a step in the body of the loop, or a `QueueInLoop`, does. -/
theorem runLoop_cases {action : LoopAction Functor} (moved : t.runLoop action = some t') :
    t.published = true ∧
      ((∃ tid cb loop, action = .push tid cb ∧ t.loop.push tid cb = some loop ∧
          t' = { t with loop }) ∨
        (∃ tid loop, action = .wakeUp tid ∧ t.loop.wakeUp tid = some loop ∧ t' = { t with loop }) ∨
        t.pc = .body ∧ t.loop.kThreadId ∉ t.loop.queueing ∧
          ∃ loop, t.loop.advance action = some loop ∧
            (t.loop.phase = .expired ∧ t' = { t with loop, pc := .test } ∨
              t.loop.phase ≠ .expired ∧ t' = { t with loop })) := by
  have advances : ∀ action loop, t.loop.step action = some loop →
      (∀ tid cb, action ≠ .push tid cb) → (∀ tid, action ≠ .wakeUp tid) →
      t.loop.kThreadId ∉ t.loop.queueing ∧ t.loop.advance action = some loop := by
    intro action loop stepped no_push no_wake
    unfold EventLoop.step at stepped
    split at stepped
    · exact absurd rfl (no_push _ _)
    · exact absurd rfl (no_wake _)
    · split at stepped
      · cases stepped
      · rename_i outside
        exact ⟨outside, stepped⟩
  unfold runLoop at moved
  split at moved
  · rename_i published
    refine ⟨published, ?_⟩
    split at moved
    next tid cb =>
      obtain ⟨loop, pushed, rfl⟩ := Option.map_eq_some_iff.mp moved
      exact .inl ⟨tid, cb, loop, rfl, pushed, rfl⟩
    next tid =>
      obtain ⟨loop, woken, rfl⟩ := Option.map_eq_some_iff.mp moved
      exact .inr (.inl ⟨tid, loop, rfl, woken, rfl⟩)
    next =>
      split at moved
      · rename_i body
        obtain ⟨loop, stepped, rfl⟩ := Option.map_eq_some_iff.mp moved
        obtain ⟨outside, advanced⟩ := advances _ _ stepped (by simp) (by simp)
        refine .inr (.inr ⟨body, outside, loop, advanced, .inl ⟨?_, rfl⟩⟩)
        unfold EventLoop.advance at advanced
        split at advanced <;> first | assumption | contradiction
      · cases moved
    next no_push no_wake no_expire =>
      split at moved
      · rename_i body
        obtain ⟨loop, stepped, rfl⟩ := Option.map_eq_some_iff.mp moved
        obtain ⟨outside, advanced⟩ := advances _ _ stepped no_push no_wake
        refine .inr (.inr ⟨body, outside, loop, advanced, .inr ⟨?_, rfl⟩⟩)
        intro expired
        unfold EventLoop.advance at advanced
        rw [expired] at advanced
        split at advanced <;> contradiction
      · cases moved
  · cases moved

theorem Sound.runLoop (sound : Sound t) {action : LoopAction Functor}
    (moved : t.runLoop action = some t') : Sound t' := by
  have published := sound.publishes
  obtain ⟨here, ⟨tid, cb, loop, -, pushed, rfl⟩ | ⟨tid, loop, -, woken, rfl⟩ |
    ⟨body, outside, loop, advanced, ⟨expired, rfl⟩ | ⟨-, rfl⟩⟩⟩ := runLoop_cases moved
  · refine ⟨sound.tidy.push pushed, published, fun elsewhere => ?_⟩
    exact (EventLoop.push_frame pushed).1.trans (sound.outside elsewhere)
  · refine ⟨sound.tidy.wakeUp woken, published, fun elsewhere => ?_⟩
    exact (EventLoop.wakeUp_frame sound.tidy woken).1.trans (sound.outside elsewhere)
  · refine ⟨sound.tidy.advance outside advanced, here, fun _ => ?_⟩
    unfold EventLoop.advance at advanced
    rw [expired] at advanced
    split at advanced <;> first | contradiction | (cases advanced; rfl)
  · exact ⟨sound.tidy.advance outside advanced, published, fun elsewhere => absurd body elsewhere⟩

theorem Sound.wakeUp (sound : Sound t) (owner : OwnerPc) :
    Sound { t with
      owner
      loop := { t.loop with
        wakeup := if t.published then t.loop.wakeup.write else t.loop.wakeup } } := by
  refine ⟨?_, sound.publishes, sound.outside⟩
  dsimp only
  split
  · exact sound.tidy.write.1
  · exact sound.tidy

theorem Sound.step (sound : Sound t) {action : LoopThreadAction Functor}
    (moved : t.step action = some t') : Sound t' := by
  cases action with
  | thread => exact sound.threadFunc moved
  | loop action => exact sound.runLoop moved
  | wakeUp =>
      unfold EventLoopThread.step at moved
      dsimp only at moved
      split at moved
      · cases moved
        exact sound.wakeUp .joining
      · cases moved
  | start | startLoop | quit | join =>
      unfold EventLoopThread.step at moved
      dsimp only at moved
      split at moved
      · cases moved
        exact ⟨sound.tidy, sound.publishes, sound.outside⟩
      · cases moved

theorem reached_sound (reached : (loopThread Functor).Reachable t) : Sound t := by
  apply reached.invariant
  · rintro t ⟨kThreadId, wakeupFd, rfl⟩
    exact sound_new kThreadId wakeupFd
  · intro t action t' sound _ moved
    exact sound.step moved

/-- What holds from the moment on when `Quit` has set `quit_`, if the thread had initialised it. -/
structure Stopping (t : EventLoopThread Functor) : Prop extends Sound t where
  quit : t.quit = true
  initialised : t.Initialised
  owner : t.owner = .quitting ∨ t.owner = .joining ∨ t.owner = .joined
  /-- The thread does not wait, once `Quit` is over. -/
  woken : t.owner ≠ .quitting → t.pc = .body → t.loop.phase = .poll →
    0 < t.loop.wakeup.eventFd.counter

theorem Stopping.threadFunc (stopping : Stopping t) (moved : t.threadFunc = some t') :
    Stopping t' := by
  have sound := stopping.toSound.threadFunc moved
  obtain ⟨no_construct, no_publish, no_enter, no_reset⟩ := stopping.initialised
  unfold EventLoopThread.threadFunc at moved
  cases state : t.pc with
  | construct => exact absurd state no_construct
  | publish => exact absurd state no_publish
  | enter => exact absurd state no_enter
  | reset => exact absurd state no_reset
  | test =>
      simp only [state, stopping.quit, if_true] at moved
      cases moved
      exact ⟨sound, rfl, by simp [Initialised], stopping.owner, by simp⟩
  | leave | clear =>
      simp only [state] at moved
      cases moved
      exact ⟨sound, stopping.quit, by simp [Initialised], stopping.owner, by simp⟩
  | body | done =>
      simp only [state] at moved
      cases moved

theorem Stopping.runLoop (stopping : Stopping t) {action : LoopAction Functor}
    (moved : t.runLoop action = some t') : Stopping t' := by
  have sound := stopping.toSound.runLoop moved
  obtain ⟨-, ⟨tid, cb, loop, -, pushed, rfl⟩ | ⟨tid, loop, -, woken, rfl⟩ |
    ⟨body, outside, loop, advanced, ⟨expired, rfl⟩ | ⟨open_, rfl⟩⟩⟩ := runLoop_cases moved
  · obtain ⟨phase, wakeup⟩ := EventLoop.push_frame pushed
    refine ⟨sound, stopping.quit, stopping.initialised, stopping.owner, ?_⟩
    dsimp only
    rw [phase, wakeup]
    exact stopping.woken
  · obtain ⟨phase, counter⟩ := EventLoop.wakeUp_frame stopping.tidy woken
    refine ⟨sound, stopping.quit, stopping.initialised, stopping.owner, ?_⟩
    dsimp only
    rw [phase]
    intro woke body waiting
    exact counter (stopping.woken woke body waiting)
  · exact ⟨sound, stopping.quit, by simp [Initialised], stopping.owner, by simp⟩
  · refine ⟨sound, stopping.quit, stopping.initialised, stopping.owner, ?_⟩
    dsimp only
    intro woke _ waiting
    rcases EventLoop.waits_again stopping.tidy advanced waiting with expired | ⟨before, same⟩
    · exact absurd expired open_
    · rw [same]
      exact stopping.woken woke body before

theorem Stopping.step (stopping : Stopping t) {action : LoopThreadAction Functor}
    (moved : t.step action = some t') : Stopping t' := by
  have sound := stopping.toSound.step moved
  cases action with
  | thread => exact stopping.threadFunc moved
  | loop action => exact stopping.runLoop moved
  | start | startLoop | quit =>
      unfold EventLoopThread.step at moved
      dsimp only at moved
      split at moved
      · rename_i guard
        rcases stopping.owner with owner | owner | owner <;> simp [owner] at guard
      · cases moved
  | wakeUp =>
      unfold EventLoopThread.step at moved
      dsimp only at moved
      split at moved
      · cases moved
        refine ⟨sound, stopping.quit, stopping.initialised, .inr (.inl rfl), ?_⟩
        intro _ body _
        have publishes := stopping.publishes
        unfold Publishes at publishes
        dsimp only at body ⊢
        simp only [body] at publishes
        rw [if_pos publishes]
        exact stopping.tidy.write.2
      · cases moved
  | join =>
      unfold EventLoopThread.step at moved
      dsimp only at moved
      split at moved
      · rename_i ended
        cases moved
        refine ⟨sound, stopping.quit, stopping.initialised, .inr (.inr rfl), ?_⟩
        intro _
        exact stopping.woken (by simp [ended.1])
      · cases moved

end EventLoopThread

/-- Steps that need no event but the wake-up and no other thread but the owner. -/
def LoopAction.Unprompted {Functor : Type} : LoopAction Functor → Prop
  | .push _ _ => False
  | .poll reported => reported = [.wakeup]
  | .wakeUp _ | .handleEvents _ | .swap | .next | .handleExpired => True

def LoopThreadAction.Unprompted {Functor : Type} : LoopThreadAction Functor → Prop
  | .start | .startLoop | .quit => False
  | .wakeUp | .join | .thread => True
  | .loop action => action.Unprompted

namespace EventLoop

variable {Functor : Type} {s s' : EventLoop Functor}

/-- How many steps the thread has to go in the body of the loop, at most. -/
def rank (s : EventLoop Functor) : Nat :=
  s.queueing.length +
    match s.phase with
    | .poll => 4 + s.pendingFunctors.length
    | .events ret => 2 + s.pendingFunctors.length + ret.length
    | .functors _ => 1 + s.functors.length
    | .expired => 0

theorem step_advance {action : LoopAction Functor} (outside : s.kThreadId ∉ s.queueing)
    (no_push : ∀ tid cb, action ≠ .push tid cb) (no_wake : ∀ tid, action ≠ .wakeUp tid) :
    s.step action = s.advance action := by
  unfold step
  split
  · exact absurd rfl (no_push _ _)
  · exact absurd rfl (no_wake _)
  · exact if_neg outside

/-- What the loop's thread does next in each phase, when no call of its own is under way. -/
theorem advance_goes_on (tidy : Tidy s) (woken : s.phase = .poll → s.wakeup.eventFd.Signalled) :
    ∃ action s', action.Unprompted ∧ (∀ tid, action ≠ .wakeUp tid) ∧ s.advance action = some s' ∧
      (s.phase = .expired ∧ action = .handleExpired ∨ action ≠ .handleExpired ∧ s'.rank < s.rank) := by
  cases phase : s.phase with
  | poll =>
      obtain ⟨wakeup, report⟩ := Option.isSome_iff_exists.mp
        (WakeupChannel.Signalled.poll (woken phase))
      have moved : s.advance (.poll [.wakeup]) =
          some { s with wakeup, phase := .events [.wakeup] } := by
        unfold advance EventLoop.poll
        simp only [phase]
        rw [if_pos List.mem_cons_self, report, tidy.listening.stored]
        rfl
      refine ⟨.poll [.wakeup], _, rfl, by simp, moved, .inr ⟨by simp, ?_⟩⟩
      unfold rank
      simp only [phase, List.length_singleton]
      omega
  | events ret =>
      cases ret with
      | nil =>
          have moved : s.advance .swap = some { s with
              callingPendingFunctors := true
              functors := s.pendingFunctors
              pendingFunctors := []
              phase := .functors false } := by
            unfold advance
            simp only [phase]
          refine ⟨.swap, _, trivial, by simp, moved, .inr ⟨by simp, ?_⟩⟩
          unfold rank
          simp only [phase, List.length_nil]
          omega
      | cons ready ret =>
          have moved : ∃ wakeup, s.advance (.handleEvents true) =
              some { s with wakeup, phase := .events ret } := by
            unfold advance
            cases ready with
            | wakeup => exact ⟨_, by simp only [phase]; rfl⟩
            | other => exact ⟨_, by simp only [phase]; rfl⟩
          obtain ⟨wakeup, moved⟩ := moved
          refine ⟨.handleEvents true, _, trivial, by simp, moved, .inr ⟨by simp, ?_⟩⟩
          unfold rank
          simp only [phase, List.length_cons]
          omega
  | functors running =>
      cases left : s.functors with
      | nil =>
          have moved : s.advance .next =
              some { s with callingPendingFunctors := false, phase := .expired } := by
            unfold advance
            simp only [phase, left]
          refine ⟨.next, _, trivial, by simp, moved, .inr ⟨by simp, ?_⟩⟩
          unfold rank
          simp only [phase]
          omega
      | cons cb rest =>
          have moved : s.advance .next = some { s with
              functors := rest, ran := s.ran ++ [cb], phase := .functors true } := by
            unfold advance
            simp only [phase, left]
          refine ⟨.next, _, trivial, by simp, moved, .inr ⟨by simp, ?_⟩⟩
          unfold rank
          simp only [phase, left, List.length_cons]
          omega
  | expired =>
      have moved : s.advance .handleExpired = some { s with phase := .poll } := by
        unfold advance
        simp only [phase]
      exact ⟨.handleExpired, _, trivial, by simp, moved, .inl ⟨rfl, rfl⟩⟩

theorem goes_on (tidy : Tidy s) (woken : s.phase = .poll → s.wakeup.eventFd.Signalled) :
    ∃ action s', action.Unprompted ∧ s.step action = some s' ∧
      (s.phase = .expired ∧ action = .handleExpired ∨ action ≠ .handleExpired ∧ s'.rank < s.rank) := by
  by_cases here : s.kThreadId ∈ s.queueing
  · refine ⟨.wakeUp s.kThreadId, _, trivial, if_pos here, .inr ⟨by simp, ?_⟩⟩
    have shorter := List.length_erase_of_mem here
    have positive := List.length_pos_of_mem here
    unfold rank
    dsimp only
    omega
  · obtain ⟨action, s', unprompted, no_wake, moved, less⟩ := advance_goes_on tidy woken
    have stepped : s.step action = some s' := by
      rw [← moved]
      refine step_advance here (fun tid cb same => ?_) no_wake
      rw [same] at unprompted
      exact unprompted
    exact ⟨action, s', unprompted, stepped, less⟩

end EventLoop

namespace EventLoopThread

variable {Functor : Type} {t t' t₀ t₁ : EventLoopThread Functor}

/-- How many steps are left until the owner has joined, at most. -/
def rank (t : EventLoopThread Functor) : Nat :=
  (match t.owner with
    | .quitting => 2
    | .joining => 1
    | .idle | .starting | .started | .joined => 0) +
  match t.pc with
    | .construct | .publish | .enter | .reset | .done => 0
    | .clear => 1
    | .leave => 2
    | .test => 3
    | .body => 4 + t.loop.rank

theorem Stopping.body_goes_on (stopping : Stopping t) (body : t.pc = .body)
    (woke : t.owner ≠ .quitting) :
    ∃ action t', action.Unprompted ∧ t.step action = some t' ∧ t'.rank < t.rank := by
  have publishes := stopping.publishes
  unfold Publishes at publishes
  simp only [body] at publishes
  have woken : t.loop.phase = .poll → t.loop.wakeup.eventFd.Signalled := by
    intro waiting
    have armed : t.loop.wakeup.eventFd.Armed := by
      apply stopping.tidy.armed.resolve_right
      rintro ⟨ret, phase, -⟩
      rw [waiting] at phase
      cases phase
    exact armed.signalled (stopping.woken woke body waiting)
  obtain ⟨action, loop, unprompted, stepped, ⟨expired, rfl⟩ | ⟨open_, less⟩⟩ :=
    EventLoop.goes_on stopping.tidy woken
  · refine ⟨.loop .handleExpired, { t with loop, pc := .test }, trivial, ?_, ?_⟩
    · unfold EventLoopThread.step EventLoopThread.runLoop
      simp only [publishes, body, if_true, stepped]
      rfl
    · unfold rank
      simp only [body]
      omega
  · refine ⟨.loop action, { t with loop }, unprompted, ?_, ?_⟩
    · unfold EventLoopThread.step EventLoopThread.runLoop
      simp only [publishes, if_true]
      split
      next => exact unprompted.elim
      next tid =>
        have woken : t.loop.wakeUp tid = some loop := stepped
        rw [woken]
        rfl
      next => exact absurd rfl open_
      next =>
        rw [if_pos body, stepped]
        rfl
    · unfold rank
      simp only [body]
      omega

/-- Until the owner has joined it, the thread can go on without any event but the wake-up. -/
theorem Stopping.goes_on (stopping : Stopping t) (open_ : t.owner ≠ .joined) :
    ∃ action t', action.Unprompted ∧ t.step action = some t' ∧ t'.rank < t.rank := by
  have initialised := stopping.initialised
  rcases stopping.owner with owner | owner | owner
  · refine ⟨.wakeUp, _, trivial, if_pos owner, ?_⟩
    unfold rank
    simp only [owner]
    exact Nat.add_lt_add_right (by omega) _
  · cases pc : t.pc with
    | construct => exact absurd pc initialised.1
    | publish => exact absurd pc initialised.2.1
    | enter => exact absurd pc initialised.2.2.1
    | reset => exact absurd pc initialised.2.2.2
    | test | leave | clear =>
        have moved : ∃ t', t.threadFunc = some t' ∧ t'.rank < t.rank := by
          unfold EventLoopThread.threadFunc rank
          simp only [pc, stopping.quit, owner, if_true]
          exact ⟨_, rfl, by simp⟩
        obtain ⟨t', moved, less⟩ := moved
        exact ⟨.thread, t', trivial, moved, less⟩
    | body => exact stopping.body_goes_on pc (by simp [owner])
    | done =>
        refine ⟨.join, _, trivial, if_pos ⟨owner, pc⟩, ?_⟩
        unfold rank
        simp only [owner, pc]
        omega
  · exact absurd owner open_

theorem Stopping.joins (stopping : Stopping t) :
    (loopThread Functor).CanReach LoopThreadAction.Unprompted (fun t => t.owner = .joined) t := by
  refine .of_rank rank ?_ stopping
  intro t stopping open_
  obtain ⟨action, t', unprompted, moved, less⟩ := stopping.goes_on open_
  exact ⟨action, t', unprompted, moved, stopping.step moved, less⟩

theorem reset_ahead (ahead : t₀.pc = .enter ∨ t₀.pc = .reset) (owner : OwnerPc) :
    ∃ t, ((loopThread Functor).restart { t₀ with owner, quit := true }).Reachable t ∧
      t.quit = false := by
  have resets : ∀ t : EventLoopThread Functor, t.pc = .reset →
      t.step .thread = some { t with pc := .test, quit := false } := by
    intro t pc
    unfold step threadFunc
    simp only [pc]
  rcases ahead with pc | pc
  · have enters : step { t₀ with owner, quit := true } .thread =
        some { t₀ with owner, quit := true, pc := .reset, looping := true } := by
      unfold step threadFunc
      simp only [pc]
    have entered : ((loopThread Functor).restart _).Reachable _ :=
      .step (i := LoopThreadAction.thread) (.init rfl) trivial enters
    have cleared := resets { t₀ with owner, quit := true, pc := .reset, looping := true } rfl
    exact ⟨_, .step (i := LoopThreadAction.thread) entered trivial cleared, rfl⟩
  · have cleared := resets { t₀ with owner, quit := true } pc
    exact ⟨_, .step (i := LoopThreadAction.thread) (.init rfl) trivial cleared, rfl⟩

/-- In every run after a `Quit`, `quit_` stays set, the thread leaves `Loop` at its next test and
    `Join` can return, exactly if the thread had executed `quit_ = false` before. -/
theorem quit_kept_iff (reached : (loopThread Functor).Reachable t₀)
    (quits : t₀.step .quit = some t₁) :
    (∀ t, ((loopThread Functor).restart t₁).Reachable t →
      t.quit = true ∧ (t.pc = .test → t.step .thread = some { t with pc := .leave }) ∧
        (loopThread Functor).CanReach LoopThreadAction.Unprompted (fun t => t.owner = .joined) t) ↔
      t₀.Initialised := by
  have sound := reached_sound reached
  have sound₁ := sound.step quits
  unfold step at quits
  dsimp only at quits
  split at quits
  · rename_i allowed
    cases quits
    constructor
    · intro kept
      have publishes := sound.publishes
      unfold Publishes at publishes
      refine ⟨?_, ?_, ?_, ?_⟩
      · intro pc
        simp [pc, allowed.2] at publishes
      · intro pc
        simp [pc, allowed.2] at publishes
      · intro pc
        obtain ⟨t, run, cleared⟩ := reset_ahead (.inl pc) .quitting
        simp [(kept t run).1] at cleared
      · intro pc
        obtain ⟨t, run, cleared⟩ := reset_ahead (.inr pc) .quitting
        simp [(kept t run).1] at cleared
    · intro initialised t run
      have stopping : Stopping t := by
        apply run.invariant
        · rintro t rfl
          exact ⟨sound₁, rfl, initialised, .inl rfl, by simp⟩
        · intro t action t' stopping _ moved
          exact stopping.step moved
      refine ⟨stopping.quit, ?_, stopping.joins⟩
      intro testing
      unfold step threadFunc
      simp only [testing, stopping.quit, if_true]
  · cases quits

theorem quit_kept_iff_waiting : ∃ t₀ t₁ : EventLoopThread Nat,
    (loopThread Nat).replay (new 1 5)
        [.start, .thread, .thread, .startLoop, .thread, .thread, .thread] = some t₀ ∧
      t₀.step .quit = some t₁ ∧
      ∀ t, ((loopThread Nat).restart t₁).Reachable t → t.quit = true := by
  obtain ⟨t₀, t₁, before, quits, initialised⟩ : ∃ t₀ t₁ : EventLoopThread Nat,
      (loopThread Nat).replay (new 1 5)
          [.start, .thread, .thread, .startLoop, .thread, .thread, .thread] = some t₀ ∧
        t₀.step .quit = some t₁ ∧ t₀.Initialised :=
    ⟨_, _, rfl, rfl, by simp [Initialised]⟩
  have reached : (loopThread Nat).Reachable t₀ :=
    .replay (fun _ _ _ => trivial) (.init ⟨1, 5, rfl⟩) before
  exact ⟨t₀, t₁, before, quits, fun t run =>
    ((quit_kept_iff reached quits).mpr initialised t run).1⟩

/-- `Quit` comes between the publication of the loop and `quit_ = false`. -/
theorem quit_lost :
    ¬ ∀ t₀ t₁ : EventLoopThread Nat, (loopThread Nat).Reachable t₀ → t₀.step .quit = some t₁ →
      ∀ t, ((loopThread Nat).restart t₁).Reachable t → t.quit = true := by
  intro kept
  obtain ⟨t₀, t₁, t₂, before, quits, after, cleared⟩ : ∃ t₀ t₁ t₂ : EventLoopThread Nat,
      (loopThread Nat).replay (new 1 5) [.start, .thread, .thread, .startLoop] = some t₀ ∧
        t₀.step .quit = some t₁ ∧
        ((loopThread Nat).restart t₁).replay t₁ [.wakeUp, .thread, .thread] = some t₂ ∧
        t₂.quit = false :=
    ⟨_, _, _, rfl, rfl, rfl, rfl⟩
  have reached : (loopThread Nat).Reachable t₀ :=
    .replay (fun _ _ _ => trivial) (.init ⟨1, 5, rfl⟩) before
  have run : ((loopThread Nat).restart t₁).Reachable t₂ :=
    .replay (fun _ _ _ => trivial) (.init rfl) after
  simp [kept t₀ t₁ reached quits t₂ run] at cleared

end EventLoopThread

end WebServer
