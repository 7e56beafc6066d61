import WebServer.Base.CountDownLatch

/-! # Starting the logging thread

`Thread::Start` waits until the new thread has stored its id, and `AsyncLogging::Start` then waits until
`ThreadFunc` has tested `running_`. So neither assertion fails, also if `Stop` comes at once. When
`pthread_create` fails, nobody ever opens the second latch.
-/

namespace WebServer

open Lib

/-- Where the caller of `AsyncLogging::Start` and `Stop` is. -/
inductive StarterPc where
  | idle
  /-- In `Thread::Start`, before `pthread_create`. -/
  | create
  /-- In `latch_.Wait()` of `Thread::Start`. -/
  | threadLatch
  /-- Before `assert(tid_ > 0)`. -/
  | assertTid
  /-- In `latch_.Wait()` of `AsyncLogging::Start`. -/
  | latch
  | started
  /-- In `thread_.Join()`. -/
  | join
  | stopped
  deriving Repr, DecidableEq

/-- Where the new thread is in `RunInThread` and, from `assertRunning` on, in `ThreadFunc`. -/
inductive NewThreadPc where
  /-- It is not created. -/
  | absent
  /-- Before `*tid_ = current_thread::tid()`. -/
  | storeTid
  /-- Before `latch_->CountDown()`. -/
  | countDown
  /-- Before `assert(running_ == true)`. -/
  | assertRunning
  /-- Before `latch_.CountDown()` of `ThreadFunc`. -/
  | countDownLogging
  /-- In its loop. -/
  | loop
  | ended
  deriving Repr, DecidableEq

/-- How far the new thread has come. -/
def NewThreadPc.stage : NewThreadPc → Nat
  | .absent => 0
  | .storeTid => 1
  | .countDown => 2
  | .assertRunning => 3
  | .countDownLogging => 4
  | .loop => 5
  | .ended => 6

/-- `AsyncLogging` with its `Thread`, while it is started and stopped. -/
structure LoggingStart where
  starter : StarterPc
  thread : NewThreadPc
  running : Bool
  /-- `started_` of the `Thread`. -/
  started : Bool
  tid : Nat
  threadLatch : CountDownLatch Unit
  latch : CountDownLatch Unit
  /-- An assertion has failed. -/
  aborted : Bool

inductive StartAction where
  /-- A step of the caller; `creates` tells whether `pthread_create` succeeds. -/
  | starter (creates : Bool)
  /-- A step of the new thread, whose id is `tid`. -/
  | thread (tid : Nat)
  /-- The caller's wait at a latch ends for no reason. -/
  | spurious
  deriving Repr, DecidableEq

namespace LoggingStart

/-- After the constructor. -/
def new : LoggingStart where
  starter := .idle
  thread := .absent
  running := false
  started := false
  tid := 0
  threadLatch := .new 1
  latch := .new 1
  aborted := false

/-- `Wait` goes on where it does not sleep. -/
def waits (l : CountDownLatch Unit) : Option (Bool × CountDownLatch Unit) :=
  if l.condition () = .asleep then none else some (l.wait ())

/-- `AsyncLogging::Start`, with `Thread::Start` in it, and then `Stop`. -/
def startStop (s : LoggingStart) (creates : Bool) : Option LoggingStart :=
  match s.starter with
  | .idle =>
      if s.started then some { s with running := true, aborted := true }
      else some { s with running := true, started := true, starter := .create }
  | .create =>
      if creates then some { s with thread := .storeTid, starter := .threadLatch }
      else some { s with started := false, starter := .latch }
  | .threadLatch => (waits s.threadLatch).map fun (returns, threadLatch) =>
      { s with threadLatch, starter := if returns then .assertTid else .threadLatch }
  | .assertTid => some (if s.tid > 0 then { s with starter := .latch } else { s with aborted := true })
  | .latch => (waits s.latch).map fun (returns, latch) =>
      { s with latch, starter := if returns then .started else .latch }
  | .started => some { s with running := false, starter := .join }
  | .join =>
      if !s.started then some { s with aborted := true }
      else if s.thread = .ended then some { s with starter := .stopped } else none
  | .stopped => none

/-- `RunInThread`, with `ThreadFunc` in it. Ids of threads are positive. -/
def runInThread (s : LoggingStart) (tid : Nat) : Option LoggingStart :=
  match s.thread with
  | .absent => none
  | .storeTid => if tid > 0 then some { s with tid, thread := .countDown } else none
  | .countDown => some { s with threadLatch := s.threadLatch.countDown, thread := .assertRunning }
  | .assertRunning =>
      some (if s.running then { s with thread := .countDownLogging } else { s with aborted := true })
  | .countDownLogging => some { s with latch := s.latch.countDown, thread := .loop }
  | .loop => some { s with thread := if s.running then .loop else .ended }
  | .ended => none

def step (s : LoggingStart) (a : StartAction) : Option LoggingStart :=
  if s.aborted then none
  else match a with
  | .starter creates => s.startStop creates
  | .thread tid => s.runInThread tid
  | .spurious =>
      match s.starter with
      | .threadLatch => some { s with threadLatch := s.threadLatch.spurious () }
      | .latch => some { s with latch := s.latch.spurious () }
      | _ => none

end LoggingStart

/-- A logger that is started and stopped once. -/
def loggingStart : System LoggingStart StartAction where
  init s := s = .new
  step := LoggingStart.step

namespace LoggingStart

variable {s s' : LoggingStart}

/-- What the caller's place says about the new thread. -/
def Placed (s : LoggingStart) : Prop :=
  match s.starter with
  | .idle => s.thread = .absent ∧ s.started = false
  | .create => s.thread = .absent ∧ s.started = true ∧ s.running = true
  | .threadLatch => s.thread ≠ .absent ∧ s.started = true ∧ s.running = true
  | .assertTid => 3 ≤ s.thread.stage ∧ s.started = true ∧ s.running = true
  | .latch => (s.thread ≠ .absent → s.started = true) ∧ s.running = true
  | .started => 5 ≤ s.thread.stage ∧ s.started = true ∧ s.running = true
  | .join | .stopped => 5 ≤ s.thread.stage ∧ s.started = true

/-- What holds in every reachable state. -/
structure Sound (s : LoggingStart) : Prop where
  placed : s.Placed
  threadLatch : s.threadLatch.Sound
  latch : s.latch.Sound
  counted : s.threadLatch.count = if 3 ≤ s.thread.stage then 0 else 1
  countedLogging : s.latch.count = if 5 ≤ s.thread.stage then 0 else 1
  tid : 2 ≤ s.thread.stage → 0 < s.tid
  fine : s.aborted = false

theorem wait_count (l : CountDownLatch Unit) : (l.wait ()).2.count = l.count := by
  unfold CountDownLatch.wait
  split_ifs <;> rfl

theorem waits_some {l l' : CountDownLatch Unit} {returns : Bool}
    (waited : waits l = some (returns, l')) :
    l' = (l.wait ()).2 ∧ (returns = true ↔ l.count ≤ 0) := by
  unfold waits at waited
  split_ifs at waited
  have same := Option.some.inj waited
  unfold CountDownLatch.wait at same ⊢
  split_ifs at same ⊢ with closed
  · obtain ⟨rfl, rfl⟩ := Prod.mk.inj same
    exact ⟨rfl, iff_of_false Bool.false_ne_true (Int.not_le.mpr closed)⟩
  · obtain ⟨rfl, rfl⟩ := Prod.mk.inj same
    exact ⟨rfl, iff_of_true rfl (Int.not_lt.mp closed)⟩

theorem Sound.startStop {creates : Bool} (sound : Sound s) (moved : s.startStop creates = some s') :
    Sound s' := by
  have placed := sound.placed
  unfold Placed at placed
  unfold LoggingStart.startStop at moved
  cases place : s.starter with
  | idle =>
      simp only [place] at placed moved
      rw [if_neg (by simp [placed.2])] at moved
      cases moved
      exact { sound with placed := ⟨placed.1, rfl, rfl⟩ }
  | create =>
      simp only [place] at placed moved
      have absent := placed.1
      split_ifs at moved
      · cases moved
        have counted := sound.counted
        have countedLogging := sound.countedLogging
        rw [absent] at counted countedLogging
        exact { sound with
          placed := ⟨nofun, placed.2⟩
          counted := counted
          countedLogging := countedLogging
          tid := fun late => absurd late (Nat.not_succ_le_self 1) }
      · cases moved
        exact { sound with placed := ⟨fun present => absurd absent present, placed.2.2⟩ }
  | threadLatch =>
      simp only [place] at placed moved
      obtain ⟨⟨returns, threadLatch⟩, waited, rfl⟩ := Option.map_eq_some_iff.mp moved
      obtain ⟨rfl, opens⟩ := waits_some waited
      have counted := sound.counted
      refine { sound with
        placed := ?_
        threadLatch := sound.threadLatch.wait ()
        counted := (wait_count s.threadLatch).trans counted }
      cases returns with
      | false => exact placed
      | true =>
          have opened := opens.mp rfl
          refine ⟨?_, placed.2⟩
          by_contra early
          rw [counted, if_neg early] at opened
          exact absurd opened (by decide)
  | assertTid =>
      simp only [place] at placed moved
      rw [if_pos (sound.tid (by omega))] at moved
      cases moved
      exact { sound with placed := ⟨fun _ => placed.2.1, placed.2.2⟩ }
  | latch =>
      simp only [place] at placed moved
      obtain ⟨⟨returns, latch⟩, waited, rfl⟩ := Option.map_eq_some_iff.mp moved
      obtain ⟨rfl, opens⟩ := waits_some waited
      have counted := sound.countedLogging
      refine { sound with
        placed := ?_
        latch := sound.latch.wait ()
        countedLogging := (wait_count s.latch).trans counted }
      cases returns with
      | false => exact placed
      | true =>
          have opened := opens.mp rfl
          have late : 5 ≤ s.thread.stage := by
            by_contra early
            rw [counted, if_neg early] at opened
            exact absurd opened (by decide)
          refine ⟨late, placed.1 fun absent => ?_, placed.2⟩
          rw [absent] at late
          exact absurd late (by decide)
  | started =>
      simp only [place] at placed moved
      cases moved
      exact { sound with placed := ⟨placed.1, placed.2.1⟩ }
  | join =>
      simp only [place] at placed moved
      rw [if_neg (by simp [placed.2])] at moved
      split_ifs at moved
      cases moved
      exact { sound with placed := placed }
  | stopped => simp [place] at moved

theorem Placed.advance (placed : Placed s) (here : s.thread ≠ .absent)
    (present : s'.thread ≠ .absent) (further : s.thread.stage ≤ s'.thread.stage)
    (starter : s'.starter = s.starter) (started : s'.started = s.started)
    (running : s'.running = s.running) : Placed s' := by
  unfold Placed at placed ⊢
  rw [starter, started, running]
  cases place : s.starter with
  | idle | create =>
      simp only [place] at placed
      exact absurd placed.1 here
  | threadLatch =>
      simp only [place] at placed ⊢
      exact ⟨present, placed.2⟩
  | assertTid | started | join | stopped =>
      simp only [place] at placed ⊢
      exact ⟨Nat.le_trans placed.1 further, placed.2⟩
  | latch =>
      simp only [place] at placed ⊢
      exact ⟨fun _ => placed.1 here, placed.2⟩

theorem Placed.running (placed : Placed s) (here : s.thread ≠ .absent) (early : s.thread.stage < 5) :
    s.running = true := by
  unfold Placed at placed
  cases place : s.starter with
  | idle | create =>
      simp only [place] at placed
      exact absurd placed.1 here
  | threadLatch | assertTid =>
      simp only [place] at placed
      exact placed.2.2
  | latch =>
      simp only [place] at placed
      exact placed.2
  | started | join | stopped =>
      simp only [place] at placed
      omega

theorem Sound.runInThread {tid : Nat} (sound : Sound s) (moved : s.runInThread tid = some s') :
    Sound s' := by
  have counted := sound.counted
  have countedLogging := sound.countedLogging
  have positive := sound.tid
  unfold LoggingStart.runInThread at moved
  cases place : s.thread with
  | absent | ended => simp [place] at moved
  | storeTid =>
      simp only [place] at moved counted countedLogging
      split_ifs at moved with known
      cases moved
      exact { sound with
        placed := sound.placed.advance (by simp [place]) nofun
          (by simp [place, NewThreadPc.stage]) rfl rfl rfl
        counted := counted
        countedLogging := countedLogging
        tid := fun _ => known }
  | countDown =>
      simp only [place] at moved counted countedLogging positive
      cases moved
      refine { sound with
        placed := sound.placed.advance (by simp [place]) nofun
          (by simp [place, NewThreadPc.stage]) rfl rfl rfl
        threadLatch := sound.threadLatch.countDown
        counted := ?_
        countedLogging := countedLogging
        tid := fun _ => positive (by decide) }
      show s.threadLatch.count - 1 = 0
      rw [counted]
      decide
  | assertRunning =>
      have running := sound.placed.running (by simp [place]) (by simp [place, NewThreadPc.stage])
      simp only [place, running, if_true] at moved counted countedLogging positive
      cases moved
      exact { sound with
        placed := sound.placed.advance (by simp [place]) nofun
          (by simp [place, NewThreadPc.stage]) rfl rfl running.symm
        counted := counted
        countedLogging := countedLogging
        tid := fun _ => positive (by decide) }
  | countDownLogging =>
      simp only [place] at moved counted countedLogging positive
      cases moved
      refine { sound with
        placed := sound.placed.advance (by simp [place]) nofun
          (by simp [place, NewThreadPc.stage]) rfl rfl rfl
        latch := sound.latch.countDown
        counted := counted
        countedLogging := ?_
        tid := fun _ => positive (by decide) }
      show s.latch.count - 1 = 0
      rw [countedLogging]
      decide
  | loop =>
      simp only [place] at moved counted countedLogging positive
      cases moved
      have further : ∀ running : Bool, 5 ≤ (if running = true then NewThreadPc.loop else .ended).stage :=
        by decide
      have late := further s.running
      refine { sound with
        placed := ?_
        counted := counted.trans (if_pos (Nat.le_trans (by decide) late)).symm
        countedLogging := countedLogging.trans (if_pos late).symm
        tid := fun _ => positive (by decide) }
      refine sound.placed.advance (by simp [place]) ?_ (by rw [place]; exact late) rfl rfl rfl
      intro absent
      have early := congrArg NewThreadPc.stage absent
      exact absurd (Nat.le_trans late (Nat.le_of_eq early)) (by decide)

theorem Sound.step {a : StartAction} (sound : Sound s) (moved : s.step a = some s') : Sound s' := by
  unfold LoggingStart.step at moved
  rw [if_neg (by simp [sound.fine])] at moved
  cases a with
  | starter creates => exact sound.startStop moved
  | thread tid => exact sound.runInThread moved
  | spurious =>
      dsimp only at moved
      split at moved
      · cases moved
        exact { sound with threadLatch := sound.threadLatch.spurious () }
      · cases moved
        exact { sound with latch := sound.latch.spurious () }
      · cases moved

theorem reachable_sound (reached : loggingStart.Reachable s) : Sound s := by
  apply reached.invariant (P := Sound)
  · rintro s rfl
    exact ⟨⟨rfl, rfl⟩, CountDownLatch.new_sound 1, CountDownLatch.new_sound 1, rfl, rfl,
      fun late => absurd late (by decide), rfl⟩
  · intro s a s' sound _ moved
    exact sound.step moved

/-- No assertion fails. When `Start` has returned the new thread has its id and is past the assertion
    of `ThreadFunc`, so nothing that `Stop` does can make it fail. -/
theorem start_asserted (reached : loggingStart.Reachable s) :
    s.aborted = false ∧ (s.starter = .started ∨ s.starter = .join ∨ s.starter = .stopped →
      0 < s.tid ∧ (s.thread = .loop ∨ s.thread = .ended)) := by
  have sound := reachable_sound reached
  refine ⟨sound.fine, fun returned => ?_⟩
  have late : 5 ≤ s.thread.stage := by
    have placed := sound.placed
    unfold Placed at placed
    rcases returned with place | place | place
    · rw [place] at placed
      exact placed.1
    · rw [place] at placed
      exact placed.1
    · rw [place] at placed
      exact placed.1
  refine ⟨sound.tid (by omega), ?_⟩
  cases thread : s.thread with
  | loop => exact .inl rfl
  | ended => exact .inr rfl
  | absent | storeTid | countDown | assertRunning | countDownLogging =>
      rw [thread] at late
      exact absurd late (by decide)

theorem start_asserted_stop : ∃ s, loggingStart.replay .new
    [.starter true, .starter true, .starter true, .thread 7, .thread 7, .starter true, .starter true,
      .thread 7, .thread 7, .starter true, .starter true] = some s ∧
      s.running = false ∧ 0 < s.tid := by
  obtain ⟨s, ran, stopped, place⟩ : ∃ s, loggingStart.replay .new
      [.starter true, .starter true, .starter true, .thread 7, .thread 7, .starter true,
        .starter true, .thread 7, .thread 7, .starter true, .starter true] = some s ∧
        s.running = false ∧ s.starter = .join :=
    ⟨_, rfl, rfl, rfl⟩
  have reached : loggingStart.Reachable s := .replay (fun _ _ _ => trivial) (.init rfl) ran
  exact ⟨s, ran, stopped, ((start_asserted reached).2 (.inr (.inl place))).1⟩

/-- The steps of the two threads. -/
def Steady : StartAction → Prop
  | .starter _ | .thread _ => True
  | .spurious => False

/-- `Start` is behind `pthread_create` and has not returned. -/
def Starting (s : LoggingStart) : Prop :=
  s.starter = .threadLatch ∨ s.starter = .assertTid ∨ s.starter = .latch

/-- One for a caller that is about to look at a latch. -/
def awake (l : CountDownLatch Unit) : Nat := if l.condition () = .asleep then 0 else 1

/-- A bound on the steps until `Start` returns. -/
def rank (s : LoggingStart) : Nat :=
  2 * (6 - s.thread.stage) + match s.starter with
    | .threadLatch => 6 + awake s.threadLatch
    | .assertTid => 4
    | .latch => 2 + awake s.latch
    | .idle | .create | .started | .join | .stopped => 0

theorem awake_le (l : CountDownLatch Unit) : awake l ≤ 1 := by
  unfold awake
  split_ifs <;> omega

theorem waits_awake {l : CountDownLatch Unit} (up : l.condition () ≠ .asleep) :
    ∃ returns l', waits l = some (returns, l') ∧ (returns = false → awake l' < awake l) := by
  refine ⟨(l.wait ()).1, (l.wait ()).2, if_neg up, fun stays => ?_⟩
  unfold CountDownLatch.wait at stays ⊢
  split_ifs at stays ⊢
  · have asleep : l.condition.sleep () () = .asleep := Function.update_self ..
    simp [awake, up, asleep]

theorem Sound.asleep {l : CountDownLatch Unit} {n : Nat} (sound : l.Sound)
    (counted : l.count = if n ≤ s.thread.stage then 0 else 1) (asleep : l.condition () = .asleep) :
    s.thread.stage < n := by
  by_contra late
  rw [if_pos (Nat.le_of_not_lt late)] at counted
  exact sound (Int.le_of_eq counted) () asleep

theorem Sound.threadGoes (sound : Sound s) (present : s.thread ≠ .absent)
    (early : s.thread.stage < 5) :
    ∃ s', s.step (.thread 1) = some s' ∧ s'.starter = s.starter ∧ s'.thread ≠ .absent ∧
      s'.thread.stage = s.thread.stage + 1 := by
  have running := sound.placed.running present early
  have stepped : s.step (.thread 1) = s.runInThread 1 := if_neg (by simp [sound.fine])
  rw [stepped]
  unfold LoggingStart.runInThread
  cases place : s.thread with
  | absent => exact absurd place present
  | loop | ended =>
      rw [place] at early
      exact absurd early (by decide)
  | storeTid | countDown | assertRunning | countDownLogging =>
      simp only [running, if_true]
      exact ⟨_, rfl, rfl, nofun, rfl⟩

theorem Sound.progress (sound : Sound s) (starting : Starting s) (present : s.thread ≠ .absent) :
    ∃ a s', Steady a ∧ s.step a = some s' ∧ (Starting s' ∨ s'.starter = .started) ∧
      s'.thread ≠ .absent ∧ rank s' < rank s := by
  have stepped : s.step (.starter true) = s.startStop true := if_neg (by simp [sound.fine])
  have threadStep (early : s.thread.stage < 5) :
      ∃ a s', Steady a ∧ s.step a = some s' ∧ (Starting s' ∨ s'.starter = .started) ∧
        s'.thread ≠ .absent ∧ rank s' < rank s := by
    obtain ⟨s', moved, starter, here, stage⟩ := sound.threadGoes present early
    refine ⟨.thread 1, s', trivial, moved, .inl (by simpa only [Starting, starter] using starting),
      here, ?_⟩
    have first := awake_le s'.threadLatch
    have second := awake_le s'.latch
    unfold rank
    rw [stage, starter]
    rcases starting with place | place | place <;> rw [place] <;> dsimp only <;> omega
  rcases starting with place | place | place
  · by_cases asleep : s.threadLatch.condition () = .asleep
    · have early := Sound.asleep sound.threadLatch sound.counted asleep
      exact threadStep (by omega)
    · obtain ⟨returns, l', waited, less⟩ := waits_awake asleep
      have moved : s.startStop true = some { s with
          threadLatch := l', starter := if returns then .assertTid else .threadLatch } := by
        simp only [LoggingStart.startStop, place, waited, Option.map_some]
      refine ⟨.starter true, _, trivial, stepped.trans moved, .inl ?_, present, ?_⟩
      · cases returns with
        | true => exact .inr (.inl rfl)
        | false => exact .inl rfl
      · unfold rank
        rw [place]
        cases returns with
        | true =>
            simp only [if_true]
            omega
        | false =>
            have slept := less rfl
            simp only [Bool.false_eq_true, if_false]
            omega
  · have moved : s.startStop true = some { s with starter := .latch } := by
      have late : 3 ≤ s.thread.stage := by
        have placed := sound.placed
        unfold Placed at placed
        rw [place] at placed
        exact placed.1
      simp only [LoggingStart.startStop, place, if_pos (sound.tid (Nat.le_trans (by decide) late))]
    refine ⟨.starter true, _, trivial, stepped.trans moved, .inl (.inr (.inr rfl)), present, ?_⟩
    have most := awake_le s.latch
    unfold rank
    rw [place]
    dsimp only
    omega
  · by_cases asleep : s.latch.condition () = .asleep
    · exact threadStep (Sound.asleep sound.latch sound.countedLogging asleep)
    · obtain ⟨returns, l', waited, less⟩ := waits_awake asleep
      have moved : s.startStop true = some { s with
          latch := l', starter := if returns then .started else .latch } := by
        simp only [LoggingStart.startStop, place, waited, Option.map_some]
      refine ⟨.starter true, _, trivial, stepped.trans moved, ?_, present, ?_⟩
      · cases returns with
        | true => exact .inr rfl
        | false => exact .inl (.inr (.inr rfl))
      · unfold rank
        rw [place]
        cases returns with
        | true =>
            simp only [if_true]
            omega
        | false =>
            have slept := less rfl
            simp only [Bool.false_eq_true, if_false]
            omega

/-- `pthread_create` has failed. -/
structure Failed (s : LoggingStart) : Prop where
  sound : Sound s
  absent : s.thread = .absent
  place : s.starter = .latch

theorem Failed.step {a : StartAction} (failed : Failed s) (moved : s.step a = some s') :
    Failed s' := by
  have sound := failed.sound.step moved
  unfold LoggingStart.step at moved
  rw [if_neg (by simp [failed.sound.fine])] at moved
  cases a with
  | thread tid => simp [LoggingStart.runInThread, failed.absent] at moved
  | spurious =>
      simp only [failed.place] at moved
      cases moved
      exact ⟨sound, failed.absent, rfl⟩
  | starter creates =>
      simp only [LoggingStart.startStop, failed.place] at moved
      obtain ⟨⟨returns, latch⟩, waited, rfl⟩ := Option.map_eq_some_iff.mp moved
      obtain ⟨rfl, opens⟩ := waits_some waited
      have closed := failed.sound.countedLogging
      rw [failed.absent] at closed
      cases returns with
      | true =>
          have opened := opens.mp rfl
          rw [closed] at opened
          exact absurd opened (by decide)
      | false => exact ⟨sound, failed.absent, rfl⟩

/-- Once it is behind `pthread_create`, `Start` comes to its end exactly if a thread was created; no
    wake-up is lost on the way. Otherwise it waits forever, also if it is woken for no reason. -/
theorem start_returns_iff (reached : loggingStart.Reachable s) (starting : Starting s) :
    (loggingStart.CanReach Steady (fun t => t.starter = .started) s ↔ s.thread ≠ .absent) ∧
      (s.thread = .absent → ∀ t, (loggingStart.restart s).Reachable t → t.starter = .latch) := by
  have sound := reachable_sound reached
  have failed (absent : s.thread = .absent) : Failed s := by
    refine ⟨sound, absent, ?_⟩
    have placed := sound.placed
    unfold Placed at placed
    rcases starting with place | place | place
    · rw [place] at placed
      exact absurd absent placed.1
    · rw [place, absent] at placed
      exact absurd placed.1 (by decide)
    · exact place
  have forever (absent : s.thread = .absent) (t : LoggingStart)
      (later : (loggingStart.restart s).Reachable t) : Failed t := by
    apply later.invariant (P := Failed)
    · rintro t rfl
      exact failed absent
    · intro t a t' stuck _ moved
      exact stuck.step moved
  refine ⟨⟨fun returns absent => ?_, fun present => ?_⟩, fun absent t later => ?_⟩
  · have stuck := failed absent
    clear failed forever starting reached sound absent
    induction returns with
    | here started =>
        rw [stuck.place] at started
        cases started
    | step _ moved _ ih => exact ih (stuck.step moved)
  · apply System.CanReach.of_rank (P := fun t =>
      Sound t ∧ (Starting t ∨ t.starter = .started) ∧ t.thread ≠ .absent) rank
    · rintro t ⟨sound, place, present⟩ going
      obtain ⟨a, t', steady, moved, place', present', less⟩ :=
        sound.progress (place.resolve_right going) present
      exact ⟨a, t', steady, moved, ⟨sound.step moved, place', present'⟩, less⟩
    · exact ⟨sound, .inl starting, present⟩
  · exact (forever absent t later).place

theorem start_returns_iff_early : ∃ s, loggingStart.replay .new
    [.starter true, .starter true, .starter true, .thread 7] = some s ∧
      s.threadLatch.condition () = .asleep ∧
      loggingStart.CanReach Steady (fun t => t.starter = .started) s := by
  obtain ⟨s, ran, asleep, starting, present⟩ : ∃ s, loggingStart.replay .new
      [.starter true, .starter true, .starter true, .thread 7] = some s ∧
        s.threadLatch.condition () = .asleep ∧ s.starter = .threadLatch ∧ s.thread = .countDown :=
    ⟨_, rfl, rfl, rfl, rfl⟩
  have reached : loggingStart.Reachable s := .replay (fun _ _ _ => trivial) (.init rfl) ran
  have returns := (start_returns_iff reached (.inl starting)).1
  refine ⟨s, ran, asleep, returns.mpr ?_⟩
  rw [present]
  exact nofun

end LoggingStart

end WebServer
