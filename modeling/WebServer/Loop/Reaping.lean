import WebServer.Loop.Projection
import WebServer.Loop.TimerManager

/-! # How an idle connection ends

On a connection from which nothing comes, only timers work, and only when its loop is woken for some
other channel. A timer node whose deadline lies behind the last reading of the clock never expires,
and a connection that its loop knows and no node holds has no timer at all. Any other connection can
be closed, and its descriptor with it.
-/

namespace WebServer

open Lib

namespace IoLoop

/-- The loop holds the connection, and no timer node that can expire does. -/
def Strands (s : IoLoop) (c : ConnId) : Prop :=
  ((∃ fd, s.fd2http fd = some c) ∨ ∃ n ∈ s.timerNodeQueue, n.spHttpData = some c) ∧
    ∀ n ∈ s.timerNodeQueue, n.spHttpData = some c → TimerNode.period ≤ n.expiredTime

/-- The loop has the same of the connection. -/
structure Keeps (c : ConnId) (s s' : IoLoop) : Prop where
  registered : ∀ fd, s'.fd2http fd = some c ↔ s.fd2http fd = some c
  timed : ∀ n : TimerNode, n.spHttpData = some c →
    (n ∈ s'.timerNodeQueue ↔ n ∈ s.timerNodeQueue)

variable {s s' s'' : IoLoop} {c : ConnId}

theorem Keeps.refl (c : ConnId) (s : IoLoop) : Keeps c s s := ⟨fun _ => Iff.rfl, fun _ _ => Iff.rfl⟩

theorem Keeps.trans (first : Keeps c s s') (second : Keeps c s' s'') : Keeps c s s'' where
  registered fd := (second.registered fd).trans (first.registered fd)
  timed n holds := (second.timed n holds).trans (first.timed n holds)

theorem Keeps.of_same (table : s'.fd2http = s.fd2http) (queue : s'.timerNodeQueue = s.timerNodeQueue) :
    Keeps c s s' where
  registered fd := by rw [table]
  timed n _ := by rw [queue]

theorem Keeps.of_entry {fd : Nat} {entry : Option ConnId}
    (table : s'.fd2http = Function.update s.fd2http fd entry) (new : entry ≠ some c)
    (old : s.fd2http fd ≠ some c)
    (timed : ∀ n : TimerNode, n.spHttpData = some c →
      (n ∈ s'.timerNodeQueue ↔ n ∈ s.timerNodeQueue)) : Keeps c s s' where
  registered fd' := by
    rw [table]
    by_cases own : fd' = fd
    · rw [own, Function.update_self]
      exact iff_of_false new old
    · rw [Function.update_of_ne own]
  timed := timed

theorem Keeps.strands (keeps : Keeps c s s') : s'.Strands c ↔ s.Strands c := by
  have held : (∃ n ∈ s'.timerNodeQueue, n.spHttpData = some c) ↔
      ∃ n ∈ s.timerNodeQueue, n.spHttpData = some c := by
    constructor
    · rintro ⟨n, here, holds⟩
      exact ⟨n, (keeps.timed n holds).mp here, holds⟩
    · rintro ⟨n, here, holds⟩
      exact ⟨n, (keeps.timed n holds).mpr here, holds⟩
  unfold Strands
  apply and_congr (or_congr (exists_congr keeps.registered) held)
  constructor
  · intro late n here holds
    exact late n ((keeps.timed n holds).mpr here) holds
  · intro late n here holds
    exact late n ((keeps.timed n holds).mp here) holds

theorem Strands.mentions (strands : s.Strands c) : s.Mentions c := by
  rcases strands.1 with registered | timed
  · exact .inl registered
  · exact .inr (.inl timed)

end IoLoop

namespace Server

variable {w w' : Server} {l : LoopId} {c : ConnId} {o : Conn} {action : Action}

/-- No timer will ever close the connection. -/
def Stranded (w : Server) (c : ConnId) : Prop := ∃ l, (w.loops l).Strands c

/-- No connection is accepted, and nothing happens on one. -/
def Action.Quiet : Action → Prop
  | .accept .. | .dispatch .. => False
  | .poll _ reported _ => reported = []
  | .acceptNext | .swap _ | .runFunctor .. | .handleExpired .. | .destroy _ | .tick _ => True

/-- A loop goes on, or the acceptor does. -/
def Action.GoesOn : Action → Prop
  | .acceptNext | .swap _ | .runFunctor .. | .handleExpired .. => True
  | .poll _ reported _ => reported = []
  | .accept .. | .dispatch .. | .destroy _ | .tick _ => False

theorem Action.GoesOn.quiet (goesOn : action.GoesOn) : action.Quiet := by
  cases action with
  | poll l reported other => exact goesOn
  | accept | dispatch | destroy | tick => exact absurd goesOn id
  | acceptNext | swap | runFunctor | handleExpired => trivial

/-- All loops have the same of the connection. -/
def Keeps (c : ConnId) (w w' : Server) : Prop := ∀ l, IoLoop.Keeps c (w.loops l) (w'.loops l)

theorem Keeps.stranded (keeps : Keeps c w w') : w'.Stranded c ↔ w.Stranded c :=
  exists_congr fun l => (keeps l).strands

theorem keeps_update {loops : LoopId → IoLoop} {loop' : IoLoop} (l : LoopId)
    (updated : w'.loops = Function.update loops l loop')
    (before : ∀ l, IoLoop.Keeps c (w.loops l) (loops l))
    (own : IoLoop.Keeps c (w.loops l) loop') : Keeps c w w' := by
  intro l'
  rw [updated]
  by_cases same : l' = l
  · rw [same, Function.update_self]
    exact own
  · rw [Function.update_of_ne same]
    exact before l'

theorem keeps_setLoop {loop' : IoLoop} (own : IoLoop.Keeps c (w.loops l) loop') :
    Keeps c w (w.setLoop l loop') :=
  keeps_update l rfl (fun _ => .refl c _) own

theorem Sound.stranded_running (sound : Sound w) (stranded : w.Stranded c) :
    ∃ o, w.objects c = some o ∧ o.http.connectionState ≠ .hDisconnected := by
  obtain ⟨l, strands⟩ := stranded
  rcases strands.1 with ⟨fd, stored⟩ | ⟨n, waiting, holds⟩
  · obtain ⟨o, here, -, -, running⟩ := (sound.loops l).registered stored
    exact ⟨o, here, running⟩
  · obtain ⟨o, here, -, timed⟩ := (sound.loops l).timed waiting holds
    exact ⟨o, here, timed.running⟩

theorem Sound.stranded (sound : Sound w) (stranded : w.Stranded c) (here : w.objects c = some o) :
    (w.loops o.loop).Strands c := by
  obtain ⟨l, strands⟩ := stranded
  obtain rfl := (sound.loops l).mentions strands.mentions here
  exact strands

theorem newEvent_loops (here : w.objects c = some o) (fd_eq : o.http.channel.fd = o.http.fd)
    (ctl : Bool) :
    (newEvent ctl w c).loops = Function.update w.loops o.loop { w.loops o.loop with
      fd2http := Function.update (w.loops o.loop).fd2http o.http.fd (some c)
      fd2channel := Function.update (w.loops o.loop).fd2channel o.http.fd (if ctl then some c else none)
      interest := if ctl
        then Function.update (w.loops o.loop).interest o.http.fd (some kDefaultEvent)
        else (w.loops o.loop).interest
      timerNodeQueue := (w.loops o.loop).timerNodeQueue ++
        [.new w.nodes c kDefaultExpiredTime w.now] } := by
  unfold Server.newEvent
  rw [here, ← fd_eq]
  exact congrArg Server.loops (epollAdd_eq ..)

theorem newEvent_objects (here : w.objects c = some o) (ctl : Bool) :
    (newEvent ctl w c).objects c = some (w.relinked
      { o with http := o.http.setEvents kDefaultEvent } kDefaultExpiredTime) := by
  unfold Server.newEvent
  rw [here]
  exact epollAdd_objects ..

theorem newEvent_keeps (sound : Sound w) (called : Called w c o) (ctl : Bool) {d : ConnId}
    (other : d ≠ c) : Keeps d w (newEvent ctl w c) := by
  apply keeps_update o.loop (newEvent_loops called.here (sound.object called.here).1 ctl)
    (fun _ => .refl d _)
  apply IoLoop.Keeps.of_entry rfl
  · intro same
    exact other (Option.some.inj same).symm
  · intro stored
    exact other (sound.own_entry called.here stored)
  · intro n holds
    rw [List.mem_append, List.mem_singleton]
    apply or_iff_left
    rintro rfl
    exact other (Option.some.inj holds).symm

theorem handleClose_keeps (sound : Sound w) (called : Called w c o) {o₁ : Conn}
    (handled : Handled o o₁) (ctl : Bool) (byTimer : Option (Option (Timeval × Nat) × Timeval))
    {d : ConnId} (other : d ≠ c) : Keeps d w (handleClose ctl w c o₁ byTimer) := by
  apply keeps_update o.loop (handleClose_loop sound called.here handled ctl byTimer)
    (fun _ => .refl d _)
  apply IoLoop.Keeps.of_entry rfl
  · intro none
    cases none
  · intro stored
    exact other (sound.own_entry called.here stored)
  · intro n _
    exact Iff.rfl

theorem eraseTimer_keeps {i : Nat} {top : TimerNode}
    (found : (w.loops l).timerNodeQueue[i]? = some top) (free : top.spHttpData ≠ some c) :
    Keeps c w (w.eraseTimer l i) := by
  apply keeps_setLoop
  constructor
  · intro fd
    exact Iff.rfl
  · intro n holds
    constructor
    · intro left
      exact (List.eraseIdx_sublist _ _).subset left
    · intro waiting
      apply mem_eraseIdx found waiting
      rintro rfl
      exact free holds

/-- The functor that runs is about a connection that no table has. -/
theorem runFunctor_fresh (sound : Sound w) {ctl : Bool} (moved : w.runFunctor ctl l = some w') :
    (∃ c o rest, o.loop = l ∧ (w.loops l).toRun = c :: rest ∧
      (w.loops l).fd2http o.http.fd ≠ some c ∧ Untimed (w.setPhase l (.functors rest)) c o ∧
      Sound (w.setPhase l (.functors rest)) ∧ Called (w.setPhase l (.functors rest)) c o ∧
      w' = (w.setPhase l (.functors rest)).newEvent ctl c) ∨
    (w.loops l).toRun = [] ∧
      w' = w.setLoop l { w.loops l with phase := .expired, functors := [] } := by
  rcases runFunctor_cases sound moved with
    ⟨d, p, others, rfl, -, -, later, called, untimed, same⟩ | ended
  · left
    unfold Server.runFunctor at moved
    split at moved
    · rename_i c rest phase
      have waiting : c ∈ (w.loops p.loop).queued := by simp [IoLoop.queued, IoLoop.toRun, phase]
      obtain ⟨o, here, own, -, -, -, unregistered⟩ := (sound.loops p.loop).queued waiting
      -- The phase and the node made last tell that both are the same connection.
      have loop_eq : ((w.setPhase p.loop (.functors rest)).newEvent ctl c).loops p.loop =
          ((w.setPhase p.loop (.functors others)).newEvent ctl d).loops p.loop := by
        rw [Option.some.inj moved, same]
      rw [newEvent_loops (w := w.setPhase p.loop (.functors rest)) here (sound.object here).1,
        newEvent_loops called.here (sound.object called.here).1, own, Function.update_self,
        Function.update_self] at loop_eq
      have phases := congrArg IoLoop.phase loop_eq
      have nodes := congrArg (fun s => (IoLoop.timerNodeQueue s).getLast?) loop_eq
      simp [TimerNode.new, setPhase] at phases nodes
      obtain rfl := phases
      obtain ⟨-, -, rfl⟩ := nodes
      rw [show w.objects c = some p from called.here] at here
      cases here
      exact ⟨c, p, rest, rfl, by simp only [IoLoop.toRun, phase], unregistered, untimed, later,
        called, same⟩
    · rename_i phase
      have phases := congrArg (fun v => (Server.loops v p.loop).phase)
        ((Option.some.inj moved).trans same)
      rw [newEvent_loops called.here (sound.object called.here).1] at phases
      simp [setPhase] at phases
    · cases moved
  · exact .inr ended

theorem runFunctor_keeps (sound : Sound w) {ctl : Bool} (moved : w.runFunctor ctl l = some w') :
    Keeps c w w' ∨ ¬ w.Stranded c ∧ (w'.Stranded c →
      (w.loops l).toRun ≠ [] ∧ TimerNode.period ≤ w.now.reading + kDefaultExpiredTime) := by
  have sound' := sound.runFunctor moved
  rcases runFunctor_fresh sound moved with
    ⟨d, o, rest, rfl, next, unregistered, untimed, later, called, rfl⟩ | ⟨-, rfl⟩
  · have loop_eq : ∀ l, IoLoop.Keeps c (w.loops l)
        ((w.setPhase o.loop (.functors rest)).loops l) := keeps_setLoop (.of_same rfl rfl)
    by_cases own : c = d
    · right
      subst own
      constructor
      · intro stranded
        have strands := sound.stranded stranded called.here
        rcases strands.1 with ⟨fd, stored⟩ | ⟨n, waiting, holds⟩
        · obtain ⟨p, there, -, rfl, -⟩ := (sound.loops o.loop).registered stored
          rw [show w.objects c = some o from called.here] at there
          cases there
          exact unregistered stored
        · apply untimed n _ holds
          rw [setPhase, setLoop_loops, Function.update_self]
          exact waiting
      · rintro ⟨l, strands⟩
        have own := (sound'.loops l).mentions strands.mentions (newEvent_objects called.here ctl)
        obtain rfl : o.loop = l := own
        have made := strands.2 (.new w.nodes c kDefaultExpiredTime w.now) (by
          rw [newEvent_loops called.here (sound.object called.here).1, Function.update_self]
          exact List.mem_append_right _ List.mem_cons_self) rfl
        constructor
        · rw [next]
          exact List.cons_ne_nil _ _
        · exact made
    · left
      intro l
      exact (loop_eq l).trans (newEvent_keeps later called ctl own l)
  · exact .inl (keeps_setLoop (.of_same rfl rfl))

/-- A timer that closes the connection has expired, so the connection was not stranded. -/
theorem handleExpired_keeps (sound : Sound w) {ctl : Bool} {i : Nat}
    (moved : w.handleExpired ctl l i = some w') :
    Keeps c w w' ∨ ¬ w.Stranded c ∧ ¬ w'.Stranded c := by
  have sound' := sound.handleExpired moved
  obtain ⟨expired, ⟨rfl, -⟩ | ⟨top, n, found, holding, due, rfl⟩⟩ := handleExpired_cases moved
  · exact .inl (keeps_setLoop (.of_same rfl rfl))
  · have sound₁ := sound.eraseTimer l i
    rcases pop_cases sound expired found holding due ctl with
      ⟨free, same⟩ | ⟨d, o, o₁, byTimer, holds, rfl, called, handled, untimed, -, same⟩
    · left
      rw [same]
      apply eraseTimer_keeps found
      rw [free]
      exact nofun
    · rw [same] at sound' ⊢
      by_cases own : c = d
      · right
        subst own
        have here : w.objects c = some o := called.here
        have waiting := List.mem_of_getElem? found
        constructor
        · intro stranded
          have late := (sound.stranded stranded here).2
          obtain ⟨p, there, -, timed⟩ := (sound.loops o.loop).timed waiting holds
          have expired := due timed.valid
          have never := late top waiting holds
          have reading := w.now.reading_eq
          unfold TimerNode.period at never
          omega
        · intro stranded
          obtain ⟨p, there, running⟩ := sound'.stranded_running stranded
          rw [handleClose_objects] at there
          cases there
          exact running rfl
      · left
        intro l
        have erased : Keeps c w (w.eraseTimer o.loop i) := by
          apply eraseTimer_keeps found
          rw [holds]
          intro same
          exact own (Option.some.inj same).symm
        exact (erased l).trans (handleClose_keeps sound₁ called handled ctl byTimer own l)

theorem destroy_keeps {d : ConnId} (moved : w.destroy d = some w') :
    Keeps c w w' := by
  obtain ⟨o, -, -, rfl⟩ := destroy_cases moved
  exact keeps_setLoop (l := o.loop) (w := w) (.of_same rfl rfl)

/-- A quiet step leaves a connection as stranded as it was, but for a timer that closes it and for
    its own registration, which strands it shortly before the readings of the clock wrap. -/
theorem quiet_keeps (sound : Sound w) (quiet : action.Quiet) (moved : w.step action = some w') :
    Keeps c w w' ∨ ¬ w.Stranded c ∧ (w'.Stranded c →
      TimerNode.period ≤ w.now.reading + kDefaultExpiredTime ∧
        ∃ l ctl, action = .runFunctor l ctl ∧ (w.loops l).toRun ≠ []) := by
  have same (loops : w'.loops = w.loops) : Keeps c w w' := by
    intro l
    rw [loops]
    exact .refl c _
  unfold Server.step at moved
  split at moved
  · cases moved
  · cases action with
    | accept fd l nonBlocking => exact absurd quiet id
    | dispatch l e ctl => exact absurd quiet id
    | acceptNext =>
        cases moved
        exact .inl (same rfl)
    | poll l reported other =>
        dsimp only [Server.poll] at moved
        split at moved
        · cases moved
          exact .inl (keeps_setLoop (.of_same rfl rfl))
        · cases moved
    | swap l =>
        dsimp only [Server.swap] at moved
        split at moved
        · cases moved
          exact .inl (keeps_setLoop (.of_same rfl rfl))
        · cases moved
    | runFunctor l ctl =>
        apply (runFunctor_keeps sound moved).imp_right
        rintro ⟨free, late⟩
        refine ⟨free, fun stranded => ?_⟩
        obtain ⟨waiting, wraps⟩ := late stranded
        exact ⟨wraps, l, ctl, rfl, waiting⟩
    | handleExpired l i ctl =>
        apply (handleExpired_keeps sound moved).imp_right
        rintro ⟨free, still⟩
        exact ⟨free, fun stranded => absurd stranded still⟩
    | destroy d => exact .inl (destroy_keeps moved)
    | tick now =>
        dsimp only at moved
        split at moved
        · cases moved
          exact .inl (same rfl)
        · cases moved

theorem quiet_stranded (sound : Sound w) (stranded : w.Stranded c) (quiet : action.Quiet)
    (moved : w.step action = some w') : w'.Stranded c := by
  rcases quiet_keeps sound quiet moved with keeps | ⟨free, -⟩
  · exact keeps.stranded.mpr stranded
  · exact absurd stranded free

theorem quiet_free (sound : Sound w) (free : ¬ w.Stranded c) (quiet : action.Quiet)
    (moved : w.step action = some w')
    (timely : TimerNode.period ≤ w.now.reading + kDefaultExpiredTime →
      ∀ l ctl, action = .runFunctor l ctl → (w.loops l).toRun = []) : ¬ w'.Stranded c := by
  intro stranded
  rcases quiet_keeps sound quiet moved with keeps | ⟨-, late⟩
  · exact free (keeps.stranded.mp stranded)
  · obtain ⟨wraps, l, ctl, same, waiting⟩ := late stranded
    exact waiting (timely wraps l ctl same)

theorem goesOn_present (sound : Sound w) (goesOn : action.GoesOn) (moved : w.step action = some w')
    (here : w.objects c = some o) :
    ∃ o', w'.objects c = some o' ∧ o'.loop = o.loop ∧ o'.http.fd = o.http.fd := by
  have same (objects : w'.objects = w.objects) :
      ∃ o', w'.objects c = some o' ∧ o'.loop = o.loop ∧ o'.http.fd = o.http.fd := by
    rw [objects]
    exact ⟨o, here, rfl, rfl⟩
  unfold Server.step at moved
  split at moved
  · cases moved
  · cases action with
    | accept | dispatch | destroy | tick => exact absurd goesOn id
    | acceptNext =>
        cases moved
        exact same rfl
    | poll l reported other =>
        dsimp only [Server.poll] at moved
        split at moved
        · cases moved
          exact same rfl
        · cases moved
    | swap l =>
        dsimp only [Server.swap] at moved
        split at moved
        · cases moved
          exact same rfl
        · cases moved
    | runFunctor l ctl =>
        rcases runFunctor_fresh sound moved with
          ⟨d, p, rest, rfl, -, -, -, -, called, rfl⟩ | ⟨-, rfl⟩
        · by_cases own : c = d
          · subst own
            rw [show w.objects c = some p from called.here] at here
            cases here
            exact ⟨_, newEvent_objects called.here ctl, rfl, rfl⟩
          · unfold Server.newEvent at same ⊢
            rw [called.here] at same ⊢
            exact ⟨o, ((epollAdd_apart ctl _).objects c own).trans here, rfl, rfl⟩
        · exact same rfl
    | handleExpired l i ctl =>
        obtain ⟨expired, ⟨rfl, -⟩ | ⟨top, n, found, holding, due, rfl⟩⟩ := handleExpired_cases moved
        · exact same rfl
        · rcases pop_cases sound expired found holding due ctl with
            ⟨-, popped⟩ | ⟨d, p, o₁, byTimer, -, rfl, called, handled, -, -, popped⟩
          · rw [popped] at same ⊢
            exact same rfl
          · rw [popped]
            by_cases own : c = d
            · subst own
              rw [show w.objects c = some p from called.here] at here
              cases here
              exact ⟨_, handleClose_objects ctl byTimer, handled.loop, handled.fd⟩
            · exact ⟨o, ((handleClose_apart ctl byTimer).objects c own).trans here, rfl, rfl⟩

theorem goesOn_now (sound : Sound w) (goesOn : action.GoesOn) (moved : w.step action = some w') :
    w'.now = w.now := by
  unfold Server.step at moved
  split at moved
  · cases moved
  · cases action with
    | accept | dispatch | destroy | tick => exact absurd goesOn id
    | acceptNext =>
        cases moved
        rfl
    | poll l reported other =>
        dsimp only [Server.poll] at moved
        split at moved
        · cases moved
          rfl
        · cases moved
    | swap l =>
        dsimp only [Server.swap] at moved
        split at moved
        · cases moved
          rfl
        · cases moved
    | runFunctor l ctl =>
        rcases runFunctor_fresh sound moved with
          ⟨d, p, rest, rfl, -, -, -, -, called, rfl⟩ | ⟨-, rfl⟩
        · unfold Server.newEvent
          rw [called.here]
          rfl
        · rfl
    | handleExpired l i ctl =>
        obtain ⟨expired, ⟨rfl, -⟩ | ⟨top, n, found, holding, due, rfl⟩⟩ := handleExpired_cases moved
        · rfl
        · rcases pop_cases sound expired found holding due ctl with
            ⟨-, popped⟩ | ⟨d, p, o₁, byTimer, -, -, -, -, -, -, popped⟩
          · rw [popped]
            rfl
          · rw [popped]
            rfl

/-- A connection of the loop whose end can be reached, at time `t`. -/
structure Idle (l : LoopId) (c : ConnId) (fd : Nat) (t : Timeval) (w : Server) : Prop where
  sound : Sound w
  alive : w.crashed = none
  here : ∃ o, w.objects c = some o ∧ o.loop = l ∧ o.http.fd = fd
  free : ¬ w.Stranded c
  time : w.now = t

variable {fd : Nat} {t : Timeval}

theorem Idle.step (idle : Idle l c fd t w) (moved : w.step action = some w') (goesOn : action.GoesOn)
    (timely : TimerNode.period ≤ t.reading + kDefaultExpiredTime →
      ∀ l ctl, action = .runFunctor l ctl → (w.loops l).toRun = []) : Idle l c fd t w' where
  sound := idle.sound.step moved
  alive := by
    rcases step_calm idle.sound moved with ⟨-, fine⟩ | ⟨l, e, ctl, rfl, -⟩
    · exact fine
    · exact absurd goesOn id
  here := by
    obtain ⟨o, here, own, fd_eq⟩ := idle.here
    obtain ⟨o', here', loop, fd⟩ := goesOn_present idle.sound goesOn moved here
    exact ⟨o', here', loop.trans own, fd.trans fd_eq⟩
  free := quiet_free idle.sound idle.free goesOn.quiet moved (by rwa [idle.time])
  time := (goesOn_now idle.sound goesOn moved).trans idle.time

theorem pop_loop (sound : Sound w) (expired : (w.loops l).phase = .expired) {i : Nat}
    {top n : TimerNode} (found : (w.loops l).timerNodeQueue[i]? = some top)
    (holding : n.spHttpData = top.spHttpData)
    (due : top.deleted = false → top.expiredTime ≤ w.now.reading) (ctl : Bool) :
    ((w.pop ctl l i n).loops l).phase = .expired ∧
      ((w.pop ctl l i n).loops l).timerNodeQueue = (w.loops l).timerNodeQueue.eraseIdx i ∧
      ((w.pop ctl l i n).loops l).pendingFunctors = (w.loops l).pendingFunctors ∧
      ((w.pop ctl l i n).loops l).functors = (w.loops l).functors := by
  rcases pop_cases sound expired found holding due ctl with
    ⟨-, popped⟩ | ⟨d, o, o₁, byTimer, -, rfl, called, handled, -, -, popped⟩
  · rw [popped, Server.eraseTimer, setLoop_loops, Function.update_self]
    exact ⟨expired, rfl, rfl, rfl⟩
  · have sound₁ := sound.eraseTimer o.loop i
    rw [popped, handleClose_loop sound₁ called.here handled, Function.update_self, Server.eraseTimer,
      setLoop_loops, Function.update_self]
    exact ⟨expired, rfl, rfl, rfl⟩

theorem handleExpired_goes (alive : w.crashed = none) (expired : (w.loops l).phase = .expired) :
    ∃ i w', w.step (.handleExpired l i true) = some w' := by
  have stepped (i : Nat) : w.step (.handleExpired l i true) = w.handleExpired true l i := by
    simp [Server.step, alive]
  by_cases empty : (w.loops l).timerNodeQueue = []
  · refine ⟨0, w.setPhase l .poll, ?_⟩
    rw [stepped]
    simp [Server.handleExpired, expired, empty]
  · obtain ⟨i, top, found, least⟩ := TimerManager.exists_top empty
    refine ⟨i, ?_⟩
    rw [stepped]
    simp only [Server.handleExpired, expired, found, if_pos least, if_true]
    split_ifs
    · exact ⟨_, rfl⟩
    · exact ⟨_, rfl⟩
    · exact ⟨_, rfl⟩

/-- `HandleExpiredEvent` comes to its end and leaves only nodes that are valid. -/
theorem Idle.sweeps (idle : Idle l c fd t w) (expired : (w.loops l).phase = .expired) :
    server.CanReach Action.Quiet (fun v => Idle l c fd t v ∧ (v.loops l).phase = .poll ∧
      (v.loops l).pendingFunctors = (w.loops l).pendingFunctors ∧
      (v.loops l).functors = (w.loops l).functors ∧
      ∀ n ∈ (v.loops l).timerNodeQueue, t.reading < n.expiredTime) w := by
  induction size : (w.loops l).timerNodeQueue.length using Nat.strongRecOn generalizing w with
  | ind count ih =>
      obtain ⟨i, w', moved⟩ := handleExpired_goes idle.alive expired
      have next : Idle l c fd t w' := by
        apply idle.step moved trivial
        intro _ l' ctl same
        cases same
      have turned : w.handleExpired true l i = some w' := by
        simpa [Server.step, idle.alive] using moved
      obtain ⟨-, ⟨rfl, valid⟩ | ⟨top, n, found, holding, due, rfl⟩⟩ := handleExpired_cases turned
      · apply System.CanReach.step (i := .handleExpired l i true) trivial moved
        apply System.CanReach.here
        rw [idle.time] at valid
        rw [setPhase, setLoop_loops, Function.update_self]
        exact ⟨next, rfl, rfl, rfl, valid⟩
      · obtain ⟨phase, queue, pending, functors⟩ := pop_loop idle.sound expired found holding due true
        have inside := (List.getElem?_eq_some_iff.mp found).1
        have fewer : ((w.pop true l i n).loops l).timerNodeQueue.length < count := by
          rw [queue, List.length_eraseIdx_of_lt inside, size]
          omega
        apply System.CanReach.step (i := .handleExpired l i true) trivial moved
        have rest := ih _ fewer next phase rfl
        rwa [pending, functors] at rest

/-- The functors are called, and then the vector goes out of scope. -/
theorem Idle.calls {rest : List ConnId} (idle : Idle l c fd t w)
    (phase : (w.loops l).phase = .functors rest)
    (timely : t.reading + kDefaultExpiredTime < TimerNode.period ∨ rest = []) :
    server.CanReach Action.Quiet (fun v => Idle l c fd t v ∧ (v.loops l).phase = .expired ∧
      (v.loops l).pendingFunctors = (w.loops l).pendingFunctors ∧ (v.loops l).functors = []) w := by
  induction rest generalizing w with
  | nil =>
      have moved : w.step (.runFunctor l true) =
          some (w.setLoop l { w.loops l with phase := .expired, functors := [] }) := by
        simp [Server.step, idle.alive, Server.runFunctor, phase]
      have next := idle.step moved trivial (by
        intro _ l' ctl same
        cases same
        simp only [IoLoop.toRun, phase])
      apply System.CanReach.step (i := .runFunctor l true) trivial moved
      apply System.CanReach.here
      rw [setLoop_loops, Function.update_self]
      exact ⟨next, rfl, rfl, rfl⟩
  | cons d rest ih =>
      have early := timely.resolve_right (List.cons_ne_nil d rest)
      have turned : w.runFunctor true l = some ((w.setPhase l (.functors rest)).newEvent true d) := by
        simp [Server.runFunctor, phase]
      have moved : w.step (.runFunctor l true) =
          some ((w.setPhase l (.functors rest)).newEvent true d) := by
        simp [Server.step, idle.alive, turned]
      have next := idle.step moved trivial fun late => absurd early (Nat.not_lt.mpr late)
      obtain ⟨o, rfl, called, fd_eq⟩ : ∃ o : Conn, o.loop = l ∧
          Called (w.setPhase l (.functors rest)) d o ∧ o.http.channel.fd = o.http.fd := by
        rcases runFunctor_fresh idle.sound turned with
          ⟨e, o, others, own, waiting, -, -, later, called, -⟩ | ⟨none, -⟩
        · simp only [IoLoop.toRun, phase, List.cons.injEq] at waiting
          obtain ⟨rfl, rfl⟩ := waiting
          exact ⟨o, own, called, (later.object called.here).1⟩
        · simp [IoLoop.toRun, phase] at none
      have rest := ih next (by
        rw [newEvent_loops called.here fd_eq, Function.update_self, setPhase, setLoop_loops,
          Function.update_self]) (.inl early)
      rw [newEvent_loops called.here fd_eq, Function.update_self, setPhase, setLoop_loops,
          Function.update_self] at rest
      exact System.CanReach.step (i := .runFunctor o.loop true) trivial moved rest

theorem Idle.finishes {rest : List ConnId} (idle : Idle l c fd t w)
    (phase : (w.loops l).phase = .functors rest)
    (timely : t.reading + kDefaultExpiredTime < TimerNode.period ∨ rest = []) :
    server.CanReach Action.Quiet (fun v => Idle l c fd t v ∧ (v.loops l).phase = .poll ∧
      (v.loops l).pendingFunctors = (w.loops l).pendingFunctors ∧ (v.loops l).functors = [] ∧
      ∀ n ∈ (v.loops l).timerNodeQueue, t.reading < n.expiredTime) w := by
  apply (idle.calls phase timely).trans
  rintro v ⟨idle, phase, pending, functors⟩
  rw [← pending, ← functors]
  exact idle.sweeps phase

/-- The end of a round without events. -/
structure Rested (l : LoopId) (c : ConnId) (fd : Nat) (t : Timeval) (w : Server) : Prop
    extends Idle l c fd t w where
  phase : (w.loops l).phase = .poll
  pending : (w.loops l).pendingFunctors = []
  functors : (w.loops l).functors = []
  valid : ∀ n ∈ (w.loops l).timerNodeQueue, t.reading < n.expiredTime

/-- From the functors' queue to the next `Poll`. -/
theorem Idle.swaps (idle : Idle l c fd t w) (phase : (w.loops l).phase = .events [])
    (timely : t.reading + kDefaultExpiredTime < TimerNode.period ∨
      (w.loops l).pendingFunctors = []) : server.CanReach Action.Quiet (Rested l c fd t) w := by
  have moved : w.step (.swap l) = some (w.setLoop l { w.loops l with
      phase := .functors (w.loops l).pendingFunctors
      functors := (w.loops l).pendingFunctors
      pendingFunctors := [] }) := by
    simp [Server.step, idle.alive, Server.swap, phase]
  have next := idle.step moved trivial (by
    intro _ l' ctl same
    cases same)
  apply System.CanReach.step (i := .swap l) trivial moved
  have running := congrArg IoLoop.phase (Function.update_self (f := w.loops) l { w.loops l with
      phase := .functors (w.loops l).pendingFunctors
      functors := (w.loops l).pendingFunctors
      pendingFunctors := [] })
  have finishes := next.finishes running timely
  apply finishes.trans
  rintro v ⟨idle, phase, pending, functors, valid⟩
  rw [setLoop_loops, Function.update_self] at pending
  exact .here ⟨idle, phase, pending, functors, valid⟩

theorem Idle.turns (idle : Idle l c fd t w) (phase : (w.loops l).phase = .poll)
    (timely : t.reading + kDefaultExpiredTime < TimerNode.period ∨
      (w.loops l).pendingFunctors = []) : server.CanReach Action.Quiet (Rested l c fd t) w := by
  have moved : w.step (.poll l [] true) = some (w.setLoop l { w.loops l with phase := .events [] }) := by
    simp [Server.step, idle.alive, Server.poll, phase]
  have next := idle.step moved rfl (by
    intro _ l' ctl same
    cases same)
  have quiet : Action.Quiet (.poll l [] true) := rfl
  apply System.CanReach.step quiet moved
  apply next.swaps
  · rw [setLoop_loops, Function.update_self]
  · rw [setLoop_loops, Function.update_self]
    exact timely

theorem Idle.rests (idle : Idle l c fd t w) (ready : (w.loops l).ready = [])
    (timely : t.reading + kDefaultExpiredTime < TimerNode.period) :
    server.CanReach Action.Quiet (Rested l c fd t) w := by
  have polls {v : Server} (idle : Idle l c fd t v) (phase : (v.loops l).phase = .poll) :
      server.CanReach Action.Quiet (Rested l c fd t) v := idle.turns phase (.inl timely)
  cases phase : (w.loops l).phase with
  | poll => exact polls idle phase
  | events ret =>
      simp only [IoLoop.ready, phase] at ready
      subst ready
      exact idle.swaps phase (.inl timely)
  | functors rest =>
      apply (idle.finishes phase (.inl timely)).trans
      rintro v ⟨idle, phase, -⟩
      exact polls idle phase
  | expired =>
      apply (idle.sweeps phase).trans
      rintro v ⟨idle, phase, -⟩
      exact polls idle phase

theorem Idle.ticks (idle : Idle l c fd t w) {t' : Timeval} (later : t.Before t') :
    w.step (.tick t') = some { w with now := t' } ∧ Idle l c fd t' { w with now := t' } := by
  rw [← idle.time] at later
  refine ⟨?_, idle.sound.tick later, idle.alive, idle.here, ?_, rfl⟩
  · simp [Server.step, idle.alive, later]
  · have keeps : Keeps c w { w with now := t' } := fun _ => .refl c _
    exact fun stranded => idle.free (keeps.stranded.mp stranded)

theorem wrap_normal : 0 < 1000000 := Nat.succ_pos 999999

/-- When the readings of the clock start again from zero. -/
def wrap (t : Timeval) : Timeval := ⟨(t.sec / 10000 + 1) * 10000, 0, wrap_normal⟩

/-- The last reading before that. -/
def latest (t : Timeval) : Timeval := ⟨t.sec / 10000 * 10000 + 9999, 999999, by decide⟩

theorem wrap_later (t : Timeval) : t.Before (wrap t) := by
  left
  simp only [wrap]
  omega

theorem latest_later (t : Timeval) : t.Before (latest t) := by
  have normal := t.normal
  simp only [Timeval.Before, latest]
  omega

theorem wrap_reading (t : Timeval) : (wrap t).reading = 0 := by
  simp only [Timeval.reading, wrap]
  omega

theorem latest_reading (t : Timeval) : (latest t).reading + 1 = TimerNode.period := by
  simp only [Timeval.reading, latest, TimerNode.period]
  omega

theorem Rested.unreferred (rested : Rested l c fd t w) (last : t.reading + 1 = TimerNode.period)
    (own : o.loop = l) (left : w.reqInfo ≠ some c) :
    ¬ w.Referred c o := by
  have late : ∀ n ∈ (w.loops l).timerNodeQueue, n.spHttpData = some c →
      TimerNode.period ≤ n.expiredTime := by
    intro n waiting _
    have valid := rested.valid n waiting
    omega
  subst own
  rintro (known | registered | timed | pending | called)
  · exact left known
  · exact rested.free ⟨_, .inl ⟨_, registered⟩, late⟩
  · exact rested.free ⟨_, .inr timed, late⟩
  · rw [rested.pending] at pending
    cases pending
  · rw [rested.functors] at called
    cases called

theorem destroy_goes (here : w.objects c = some o) (alive : w.crashed = none)
    (unreferred : ¬ w.Referred c o) : ∃ v, w.step (.destroy c) = some v ∧
      v.objects c = none ∧ v.descriptors o.http.fd = none ∧ c ∈ v.closed := by
  simp only [Server.step, alive, Server.destroy, here, if_neg unreferred]
  exact ⟨_, rfl, Function.update_self .., Function.update_self ..,
    List.mem_append_right _ List.mem_cons_self⟩

theorem Rested.ends (rested : Rested l c fd t w) (last : t.reading + 1 = TimerNode.period) :
    server.CanReach Action.Quiet
      (fun v => v.objects c = none ∧ v.descriptors fd = none ∧ c ∈ v.closed) w := by
  have left : w.step .acceptNext = some { w with reqInfo := none } := by
    simp [Server.step, rested.alive]
  have next := rested.step left trivial (by
    intro _ l' ctl same
    cases same)
  obtain ⟨o, here, own, rfl⟩ := next.here
  have rested' : Rested l c o.http.fd t { w with reqInfo := none } :=
    ⟨next, rested.phase, rested.pending, rested.functors, rested.valid⟩
  have unreferred := rested'.unreferred last own (by simp)
  apply System.CanReach.step (i := .acceptNext) trivial left
  obtain ⟨v, moved, gone⟩ := destroy_goes here next.alive unreferred
  exact .step (i := .destroy c) trivial moved (.here gone)

theorem Idle.reaped (idle : Idle l c fd t w) (ready : (w.loops l).ready = []) :
    server.CanReach Action.Quiet
      (fun v => v.objects c = none ∧ v.descriptors fd = none ∧ c ∈ v.closed) w := by
  obtain ⟨moved, woken⟩ := idle.ticks (wrap_later t)
  apply System.CanReach.step (i := .tick (wrap t)) trivial moved
  have timely : (wrap t).reading + kDefaultExpiredTime < TimerNode.period := by
    rw [wrap_reading]
    decide
  apply (woken.rests ready timely).trans
  intro v rested
  obtain ⟨moved, later⟩ := rested.toIdle.ticks (latest_later (wrap t))
  apply System.CanReach.step (i := .tick (latest (wrap t))) trivial moved
  apply (later.turns rested.phase (.inr rested.pending)).trans
  intro u rested
  exact rested.ends (latest_reading (wrap t))

/-- While nothing comes from any connection, a connection whose loop has no event left to handle can
    be closed and destroyed, with its descriptor, exactly if it is not stranded. -/
theorem reaped_iff (reached : server.Reachable w) (alive : w.crashed = none)
    (here : w.objects c = some o) (ready : (w.loops o.loop).ready = []) :
    server.CanReach Action.Quiet
        (fun v => v.objects c = none ∧ v.descriptors o.http.fd = none ∧ c ∈ v.closed) w ↔
      ¬ w.Stranded c := by
  have sound := reached_sound reached
  constructor
  · intro reaches stranded
    clear reached alive here ready
    induction reaches with
    | here gone =>
        obtain ⟨p, there, -⟩ := sound.stranded_running stranded
        rw [gone.1] at there
        cases there
    | step quiet moved _ ih =>
        exact ih (sound.step moved) (quiet_stranded sound stranded quiet moved)
  · intro free
    have idle : Idle o.loop c o.http.fd w.now w := ⟨sound, alive, ⟨o, here, rfl, rfl⟩, free, rfl⟩
    exact idle.reaped ready

theorem reaped_iff_silent : ∃ w, server.replay (start ⟨5, 0, by decide⟩ [3])
    (firstConnection ++ [.handleExpired 0 0 true]) = some w ∧
      server.CanReach Action.Quiet
        (fun v => v.objects 0 = none ∧ v.descriptors 9 = none ∧ 0 ∈ v.closed) w := by
  obtain ⟨w, o, ran, alive, here, fd_eq, ready, n, waiting, holds, mortal⟩ : ∃ w o,
      server.replay (start ⟨5, 0, by decide⟩ [3]) (firstConnection ++ [.handleExpired 0 0 true]) =
        some w ∧ w.crashed = none ∧ w.objects 0 = some o ∧ o.http.fd = 9 ∧
        (w.loops o.loop).ready = [] ∧ ∃ n ∈ (w.loops o.loop).timerNodeQueue,
          n.spHttpData = some 0 ∧ n.expiredTime < TimerNode.period :=
    ⟨_, _, rfl, rfl, rfl, rfl, rfl, _, List.mem_cons_self, rfl, by decide⟩
  have reached := replay_reachable ran
  have free : ¬ w.Stranded 0 := by
    intro stranded
    have late := ((reached_sound reached).stranded stranded here).2 n waiting holds
    exact absurd mortal (Nat.not_lt.mpr late)
  have reaped := (reaped_iff reached alive here ready).mpr free
  rw [fd_eq] at reaped
  exact ⟨w, ran, reaped⟩

end Server

end WebServer
