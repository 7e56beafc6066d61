import WebServer.Loop.Lifetime

/-! # The sweep of expired timers

`Loop` looks at its timers after every `Poll`. Between the return of `epoll_wait` and its next call
the queue only gains nodes that are made in between, so whatever was expired at the return is gone if
a sweep has come to its end.
-/

namespace WebServer

open Lib

/-- One of the first `nodes` nodes, it was expired at `time` and nobody has deleted it. -/
structure TimerNode.Overdue (time : Timeval) (nodes : Nat) (n : TimerNode) : Prop where
  made : n.id < nodes
  kept : n.deleted = false
  expired : (n.isValid time).1 = false

namespace Server

variable {w w' w₀ w₁ : Server} {l : LoopId} {c : ConnId} {o : Conn} {time : Timeval} {nodes : Nat}

/-- No overdue node waits in the loop's queue. -/
def Swept (time : Timeval) (nodes : Nat) (l : LoopId) (w : Server) : Prop :=
  ∀ n ∈ (w.loops l).timerNodeQueue, ¬ n.Overdue time nodes

/-- What a part of a step may do to the loop: it does not start to wait, and the nodes that are not
    deleted are old ones or new ones. -/
structure Ages (l : LoopId) (w w' : Server) : Prop where
  nodes : w.nodes ≤ w'.nodes
  waits : (w'.loops l).phase = .poll → (w.loops l).phase = .poll
  queue : ∀ n ∈ (w'.loops l).timerNodeQueue, n.deleted = false →
    n ∈ (w.loops l).timerNodeQueue ∨ w.nodes ≤ n.id

theorem Ages.same (loop : w'.loops l = w.loops l) (nodes : w.nodes ≤ w'.nodes) : Ages l w w' where
  nodes := nodes
  waits := by
    rw [loop]
    exact id
  queue := by
    rw [loop]
    exact fun n waiting _ => .inl waiting

theorem Ages.trans {w'' : Server} (first : Ages l w w') (second : Ages l w' w'') : Ages l w w'' where
  nodes := first.nodes.trans second.nodes
  waits := fun waits => first.waits (second.waits waits)
  queue := by
    intro n waiting kept
    rcases second.queue n waiting kept with before | new
    · exact first.queue n before kept
    · exact .inr (first.nodes.trans new)

theorem Ages.swept (ages : Ages l w w') (made : nodes ≤ w.nodes) (swept : w.Swept time nodes l) :
    w'.Swept time nodes l := by
  intro n waiting overdue
  rcases ages.queue n waiting overdue.kept with before | new
  · exact swept n before overdue
  · exact absurd overdue.made (by omega)

theorem Ages.of_loop {l' : LoopId} {loop : IoLoop} (loops : w'.loops = Function.update w.loops l' loop)
    (nodes : w.nodes ≤ w'.nodes) (waits : loop.phase = .poll → (w.loops l').phase = .poll)
    (queue : ∀ n ∈ loop.timerNodeQueue, n.deleted = false →
      n ∈ (w.loops l').timerNodeQueue ∨ w.nodes ≤ n.id) : Ages l w w' := by
  by_cases same : l = l'
  · subst same
    have loop' : w'.loops l = loop := by rw [loops, Function.update_self]
    exact ⟨nodes, loop' ▸ waits, loop' ▸ queue⟩
  · refine .same ?_ nodes
    rw [loops, Function.update_of_ne same]

theorem setPhase_ages {l' : LoopId} {phase : IoPhase} (busy : phase ≠ .poll) :
    Ages l w (w.setPhase l' phase) :=
  .of_loop rfl le_rfl (fun waits => absurd waits busy) fun _ waiting _ => .inl waiting

theorem setConn_ages (o : Conn) : Ages l w (w.setConn c o) :=
  .same rfl le_rfl

theorem clearTimers_ages (l' : LoopId) (cleared : List Nat) : Ages l w (w.clearTimers l' cleared) := by
  refine .of_loop rfl le_rfl id fun n waiting kept => .inl ?_
  obtain ⟨m, before, same⟩ := List.mem_map.mp waiting
  split at same
  · rw [← same] at kept
    cases kept
  · exact same ▸ before

theorem added_ages {loop : IoLoop} (phase : loop.phase = (w.loops o.loop).phase) (timeout : Nat) :
    Ages l w (w.added c o timeout loop) := by
  refine .of_loop rfl (Nat.le_succ _) (fun waits => phase ▸ waits) fun n waiting _ => ?_
  rcases List.mem_append.mp waiting with before | new
  · exact .inl before
  · rw [List.mem_singleton.mp new]
    exact .inr le_rfl

theorem epollMod_ages (ctl : Bool) (timeout : Nat) : Ages l w (epollMod ctl w c o timeout) := by
  rw [epollMod_eq]
  refine added_ages ?_ timeout
  unfold modified
  split <;> rfl

theorem epollAdd_ages (ctl : Bool) (timeout : Nat) : Ages l w (epollAdd ctl w c o timeout) := by
  rw [epollAdd_eq]
  refine added_ages ?_ timeout
  rfl

theorem handleClose_ages (ctl : Bool) (byTimer : Option (Option (Timeval × Nat) × Timeval)) :
    Ages l w (handleClose ctl w c o byTimer) :=
  .of_loop rfl le_rfl id fun _ waiting _ => .inl waiting

theorem handleEvents_ages (ctl : Bool) (e : Event) : Ages l w (handleEvents ctl w c e) := by
  unfold handleEvents
  cases w.objects c with
  | none => exact .same rfl le_rfl
  | some o =>
      dsimp only
      cases (o.http.polled e.revents).handleEvents (kernel e) with
      | error fault => exact .same rfl le_rfl
      | ok h =>
          dsimp only
          have cleared : Ages l w (w.clearTimers o.loop h.http.cleared) := clearTimers_ages _ _
          cases h.request with
          | none => exact cleared.trans (setConn_ages _)
          | updatePoller timeout => exact cleared.trans (epollMod_ages ctl timeout)
          | handleClose => exact cleared.trans (handleClose_ages ctl none)

theorem newEvent_ages (ctl : Bool) : Ages l w (newEvent ctl w c) := by
  unfold newEvent
  cases w.objects c with
  | none => exact .same rfl le_rfl
  | some o => exact epollAdd_ages ctl kDefaultExpiredTime

theorem pop_ages (ctl : Bool) (l' : LoopId) (i : Nat) (n : TimerNode) :
    Ages l w (pop ctl w l' i n) := by
  have erased : Ages l w (w.eraseTimer l' i) := by
    refine .of_loop rfl le_rfl id fun n waiting _ => .inl ?_
    exact List.mem_of_mem_eraseIdx waiting
  unfold pop
  dsimp only
  split
  · exact erased
  · exact erased.trans (handleClose_ages ctl _)

/-- `Poll` has something to return. -/
def Returns (w : Server) (l : LoopId) (reported : List Nat) (other : Bool) : Prop :=
  other = true ∨ ∃ fd ∈ reported, ((w.loops l).fd2channel fd).isSome = true

theorem poll_returns {reported : List Nat} {other : Bool}
    (moved : w.poll l reported other = some w') :
    ((w'.loops l).phase ≠ .poll ↔ w.Returns l reported other) ∧
      (w'.loops l).timerNodeQueue = (w.loops l).timerNodeQueue ∧
      w'.now = w.now ∧ w'.nodes = w.nodes := by
  unfold poll at moved
  dsimp only at moved
  split at moved
  · cases moved
    refine ⟨?_, ?_, rfl, rfl⟩
    · rw [setLoop_loops, Function.update_self]
      unfold Returns
      cases other with
      | true => simp
      | false => simp [List.filterMap_eq_nil_iff, Option.isSome_iff_ne_none]
    · rw [setLoop_loops, Function.update_self]
  · cases moved

theorem poll_ages {l' : LoopId} {reported : List Nat} {other : Bool} (elsewhere : l' ≠ l)
    (moved : w.poll l' reported other = some w') : Ages l w w' := by
  unfold poll at moved
  dsimp only at moved
  split at moved
  · cases moved
    exact .same (Function.update_of_ne elsewhere.symm ..) le_rfl
  · cases moved

/-- Between two calls of `epoll_wait`, and while the loop looks at overdue nodes the readings of the
    clock have not started again. -/
def Sweeps (time : Timeval) (nodes : Nat) (l : LoopId) (w : Server) : Action → Prop
  | .poll l' _ _ => l' ≠ l
  | .handleExpired l' _ _ => l' = l → w.Swept time nodes l ∨ time.reading ≤ w.now.reading
  | _ => True

theorem setLoop_ages {l' : LoopId} {loop : IoLoop} (elsewhere : l' ≠ l) :
    Ages l w (w.setLoop l' loop) := .same (Function.update_of_ne elsewhere.symm ..) le_rfl

theorem swap_ages {l' : LoopId} (moved : w.swap l' = some w') : Ages l w w' := by
  unfold swap at moved
  dsimp only at moved
  split at moved
  · cases moved
    exact .of_loop rfl le_rfl (by simp) fun _ waiting _ => .inl waiting
  · cases moved

theorem dispatch_ages {l' : LoopId} {ctl : Bool} {e : Event}
    (moved : w.dispatch ctl l' e = some w') : Ages l w w' := by
  unfold dispatch at moved
  split at moved
  · cases moved
    exact (setPhase_ages (by simp)).trans (handleEvents_ages ctl e)
  · cases moved

theorem runFunctor_ages {l' : LoopId} {ctl : Bool} (moved : w.runFunctor ctl l' = some w') :
    Ages l w w' := by
  unfold runFunctor at moved
  split at moved
  · cases moved
    exact (setPhase_ages (by simp)).trans (newEvent_ages ctl)
  · cases moved
    exact .of_loop rfl le_rfl (by simp) fun _ waiting _ => .inl waiting
  · cases moved

theorem accept_ages {fd : Nat} {l' : LoopId} {nonBlocking : Bool}
    (moved : w.accept fd l' nonBlocking = some w') : Ages l w w' := by
  obtain ⟨-, rfl | rfl | rfl⟩ := accept_cases moved
  · exact .same rfl le_rfl
  · exact .of_loop rfl le_rfl id fun _ waiting _ => .inl waiting
  · exact .same rfl le_rfl

theorem destroy_ages (moved : w.destroy c = some w') : Ages l w w' := by
  obtain ⟨o, -, -, rfl⟩ := destroy_cases moved
  exact .of_loop rfl le_rfl id fun _ waiting _ => .inl waiting

/-- Only the end of its own sweep makes a loop wait. -/
theorem step_ages {action : Action} (moved : w.step action = some w')
    (sweeps : Sweeps time nodes l w action) :
    Ages l w w' ∨ ∃ i ctl, action = .handleExpired l i ctl ∧ w' = w.setPhase l .poll ∧
      ∀ n ∈ (w.loops l).timerNodeQueue, w.now.reading < n.expiredTime := by
  unfold step at moved
  split at moved
  · cases moved
  · cases action with
    | accept fd l' nonBlocking => exact .inl (accept_ages moved)
    | acceptNext =>
        cases moved
        exact .inl (.same rfl le_rfl)
    | poll l' reported other => exact .inl (poll_ages sweeps moved)
    | dispatch l' e ctl => exact .inl (dispatch_ages moved)
    | swap l' => exact .inl (swap_ages moved)
    | runFunctor l' ctl => exact .inl (runFunctor_ages moved)
    | handleExpired l' i ctl =>
        obtain ⟨-, ⟨rfl, valid⟩ | ⟨top, n, -, -, -, rfl⟩⟩ := handleExpired_cases moved
        · by_cases own : l' = l
          · subst own
            exact .inr ⟨i, ctl, rfl, rfl, valid⟩
          · exact .inl (setLoop_ages own)
        · exact .inl (pop_ages ctl l' i n)
    | destroy c => exact .inl (destroy_ages moved)
    | tick now =>
        dsimp only at moved
        split at moved
        · cases moved
          exact .inl (.same rfl le_rfl)
        · cases moved

/-- The loop does not wait, or nothing overdue is left. -/
structure Sweeping (time : Timeval) (nodes : Nat) (l : LoopId) (w : Server) : Prop where
  made : nodes ≤ w.nodes
  swept : (w.loops l).phase = .poll → w.Swept time nodes l

theorem Sweeping.step (sweeping : Sweeping time nodes l w) {action : Action}
    (sweeps : Sweeps time nodes l w action) (moved : w.step action = some w') :
    Sweeping time nodes l w' := by
  rcases step_ages moved sweeps with ages | ⟨i, ctl, rfl, rfl, valid⟩
  · refine ⟨sweeping.made.trans ages.nodes, fun waits => ?_⟩
    exact ages.swept sweeping.made (sweeping.swept (ages.waits waits))
  · refine ⟨sweeping.made, fun _ n waiting overdue => ?_⟩
    have waiting : n ∈ (w.loops l).timerNodeQueue := by
      rw [setPhase, setLoop_loops, Function.update_self] at waiting
      exact waiting
    rcases sweeps rfl with swept | going
    · exact swept n waiting overdue
    · have expired := (n.isValid_iff time).mp overdue.expired
      have later := valid n waiting
      omega

/-- `epoll_wait` returns; in every run from there, no node that was expired then is left when it is
    called again, exactly if `Poll` has something to return or no node was expired. -/
theorem timely_iff {reported : List Nat} {other : Bool}
    (returned : w₀.step (.poll l reported other) = some w₁) :
    (∀ w, (server.restart w₁).Reached (Sweeps w₀.now w₀.nodes l) w → (w.loops l).phase = .poll →
        w.Swept w₀.now w₀.nodes l) ↔
      w₀.Returns l reported other ∨ w₀.Swept w₀.now w₀.nodes l := by
  unfold step at returned
  split at returned
  · cases returned
  · obtain ⟨returns, queue, -, made⟩ := poll_returns returned
    have same : w₁.Swept w₀.now w₀.nodes l ↔ w₀.Swept w₀.now w₀.nodes l := by
      unfold Swept
      rw [queue]
    rw [← returns, ← same]
    constructor
    · intro timely
      by_cases waits : (w₁.loops l).phase = .poll
      · exact .inr (timely w₁ (.init rfl) waits)
      · exact .inl waits
    · intro swept w run
      have sweeping : Sweeping w₀.now w₀.nodes l w := by
        apply run.invariant
        · rintro w rfl
          exact ⟨made.ge, fun waits => swept.resolve_left (not_not_intro waits)⟩
        · intro w action w' sweeping sweeps moved
          exact sweeping.step sweeps moved
      exact sweeping.swept

/-- The first connection stays silent for longer than its timeout. -/
def silentConnection : List Action :=
  firstConnection ++ [.handleExpired 0 0 true, .tick (TimerNode.second 8)]

theorem timely_iff_other : ∃ w₀ w₁ : Server,
    server.replay (start ⟨5, 0, by decide⟩ [3]) silentConnection = some w₀ ∧
      w₀.step (.poll 0 [] true) = some w₁ ∧ ¬ w₀.Swept w₀.now w₀.nodes 0 ∧
      ∀ w, (server.restart w₁).Reached (Sweeps w₀.now w₀.nodes 0) w →
        (w.loops 0).phase = .poll → w.Swept w₀.now w₀.nodes 0 := by
  obtain ⟨w₀, w₁, before, returned, waiting⟩ : ∃ w₀ w₁ : Server,
      server.replay (start ⟨5, 0, by decide⟩ [3]) silentConnection = some w₀ ∧
        w₀.step (.poll 0 [] true) = some w₁ ∧
        ∃ n ∈ (w₀.loops 0).timerNodeQueue, n.Overdue w₀.now w₀.nodes :=
    ⟨_, _, rfl, rfl, ⟨_, List.mem_cons_self, by decide, by decide, by decide⟩⟩
  refine ⟨w₀, w₁, before, returned, ?_, (timely_iff returned).mpr (.inl (.inl rfl))⟩
  obtain ⟨n, here, overdue⟩ := waiting
  exact fun swept => swept n here overdue

/-- An `epoll_wait` that times out is followed by another one, whatever has expired. -/
theorem idle_not_timely :
    ¬ ∀ (w₀ w₁ : Server) (l : LoopId) reported other, server.Reachable w₀ →
      w₀.step (.poll l reported other) = some w₁ →
      (w₁.loops l).phase = .poll → w₁.Swept w₀.now w₀.nodes l := by
  intro timely
  obtain ⟨w₀, w₁, before, returned, waits, waiting⟩ : ∃ w₀ w₁ : Server,
      server.replay (start ⟨5, 0, by decide⟩ [3]) silentConnection = some w₀ ∧
        w₀.step (.poll 0 [] false) = some w₁ ∧ (w₁.loops 0).phase = .poll ∧
        ∃ n ∈ (w₁.loops 0).timerNodeQueue, n.Overdue w₀.now w₀.nodes :=
    ⟨_, _, rfl, rfl, rfl, ⟨_, List.mem_cons_self, by decide, by decide, by decide⟩⟩
  obtain ⟨n, here, overdue⟩ := waiting
  exact timely w₀ w₁ 0 [] false (replay_reachable before) returned waits n here overdue

end Server

end WebServer
