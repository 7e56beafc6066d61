import WebServer.Http.Escape
import WebServer.Http.Retimed
import WebServer.Lib.Observation
import WebServer.Loop.Attended

/-! # One connection among the others

A run of the server shows each connection the events that are dispatched to it. Whatever the loops,
the acceptor and the other connections do in between, the connection is then as these events alone
leave a connection of its own, but for its timer, which may have closed it.
-/

namespace WebServer

open Lib

namespace Server

variable {w w' w'' : Server} {l : LoopId} {c : ConnId} {o o' o₁ : Conn} {action : Action}

/-- The event that an action dispatches to connection `c`. -/
def eventOf (c : ConnId) (w : Server) : Action → Option Event
  | .dispatch l e _ =>
      match (w.loops l).phase with
      | .events ((_, d) :: _) => if d = c then some e else none
      | _ => none
  | _ => none

/-- What the socket of connection `c` accepts while an action is performed. -/
def acceptedBy (c : ConnId) (w : Server) (action : Action) : Bytes :=
  match eventOf c w action, w.objects c with
  | some e, some o =>
      match (o.http.polled e.revents).handleEvents (kernel e) with
      | .ok h => h.kernel.sent
      | .error _ => []
  | _, _ => []

/-- The events that a run dispatches to connection `c`. -/
def eventsOf (c : ConnId) : Server → List Action → List Event :=
  server.observed fun w action => (eventOf c w action).toList

/-- What the socket of connection `c` accepts in a run. -/
def bytesOf (c : ConnId) : Server → List Action → Bytes := server.observed (acceptedBy c)

/-- The other connections stay, and the same connections wait for their functors. -/
structure Apart (c : ConnId) (w w' : Server) : Prop where
  objects : ∀ d, d ≠ c → w'.objects d = w.objects d
  queued : ∀ l, (w'.loops l).queued = (w.loops l).queued
  accepted : w'.accepted = w.accepted

theorem Apart.trans (first : Apart c w w') (second : Apart c w' w'') : Apart c w w'' where
  objects d other := (second.objects d other).trans (first.objects d other)
  queued l := (second.queued l).trans (first.queued l)
  accepted := second.accepted.trans first.accepted

theorem queued_setLoop {loop' : IoLoop} (same : loop'.queued = (w.loops l).queued) (l' : LoopId) :
    ((w.setLoop l loop').loops l').queued = (w.loops l').queued := by
  rw [setLoop_loops]
  by_cases own : l' = l
  · rw [own, Function.update_self]
    exact same
  · rw [Function.update_of_ne own]

theorem setLoop_apart {loop' : IoLoop} (same : loop'.queued = (w.loops l).queued) :
    Apart c w (w.setLoop l loop') := ⟨fun _ _ => rfl, queued_setLoop same, rfl⟩

theorem setConn_apart : Apart c w (w.setConn c o) :=
  ⟨fun _ other => Function.update_of_ne other .., fun _ => rfl, rfl⟩

theorem added_apart {timeout : Nat} {loop' : IoLoop}
    (same : loop'.queued = (w.loops o.loop).queued) : Apart c w (w.added c o timeout loop') where
  objects _ other := Function.update_of_ne other ..
  queued := by
    apply queued_setLoop
    exact same
  accepted := rfl

theorem epollMod_apart (ctl : Bool) (timeout : Nat) : Apart c w (epollMod ctl w c o timeout) := by
  rw [epollMod_eq]
  apply added_apart
  unfold modified
  split
  · rfl
  · rfl
  · rfl

theorem epollAdd_apart (ctl : Bool) (timeout : Nat) : Apart c w (epollAdd ctl w c o timeout) := by
  rw [epollAdd_eq]
  apply added_apart
  rfl

theorem handleClose_apart (ctl : Bool) (byTimer : Option (Option (Timeval × Nat) × Timeval)) :
    Apart c w (handleClose ctl w c o byTimer) where
  objects _ other := Function.update_of_ne other ..
  queued := queued_setLoop (by rfl)
  accepted := rfl

theorem handleClose_objects (ctl : Bool) (byTimer : Option (Option (Timeval × Nat) × Timeval)) :
    (handleClose ctl w c o byTimer).objects c =
      some { o with http.connectionState := .hDisconnected } := Function.update_self ..

/-- What a dispatch makes of its connection, which the loop has as `o`. -/
inductive Handles (w' : Server) (c : ConnId) (o : Conn) (e : Event) : Prop where
  | returned (h : Handling) (o' : Conn) :
      (o.http.polled e.revents).handleEvents (kernel e) = .ok h → w'.objects c = some o' →
      o'.loop = o.loop → HttpData.Retimed (h.http.granted h.request) o'.http →
      w'.crashed = none → Handles w' c o e
  | faulted (fault : Fault) :
      (o.http.polled e.revents).handleEvents (kernel e) = .error fault → w'.objects c = some o →
      w'.crashed = some (.fault fault) → Handles w' c o e

theorem handleEvents_handles (here : w.objects c = some o) (fine : w.crashed = none) (ctl : Bool)
    (e : Event) :
    Apart c w (handleEvents ctl w c e) ∧ Handles (handleEvents ctl w c e) c o e := by
  unfold Server.handleEvents
  rw [here]
  dsimp only
  split
  · rename_i fault failed
    exact ⟨⟨fun _ _ => rfl, fun _ => rfl, rfl⟩, .faulted fault failed here rfl⟩
  · rename_i h ran
    have cleared : Apart c w (w.clearTimers o.loop h.http.cleared) := setLoop_apart rfl
    split
    · rename_i asked
      refine ⟨cleared.trans setConn_apart, .returned h _ ran (Function.update_self ..) rfl ?_ fine⟩
      rw [asked]
      exact ⟨h.http.timer, [], rfl⟩
    · rename_i timeout asked
      refine ⟨cleared.trans (epollMod_apart ctl timeout),
        .returned h _ ran (epollMod_objects ..) rfl ?_ ?_⟩
      · rw [asked]
        exact ⟨some w.nodes, [], rfl⟩
      · rw [epollMod_eq]
        exact fine
    · rename_i asked
      refine ⟨cleared.trans (handleClose_apart ctl none),
        .returned h _ ran (handleClose_objects ..) rfl ?_ fine⟩
      rw [asked]
      exact ⟨h.http.timer, [], rfl⟩

/-- What a step makes of a connection that is there after it. -/
inductive Fate (c : ConnId) (w w' : Server) (action : Action) (o' : Conn) : Prop where
  /-- It was accepted. -/
  | born (fd : Nat) : c = w.accepted → o'.http = HttpData.new fd →
      c ∈ (w'.loops o'.loop).queued → Fate c w w' action o'
  /-- It was left alone. -/
  | kept (o : Conn) : w.objects c = some o → o.loop = o'.loop → o'.http = o.http →
      (c ∈ (w'.loops o'.loop).queued ↔ c ∈ (w.loops o.loop).queued) →
      eventOf c w action = none → Fate c w w' action o'
  /-- Its timer closed it. -/
  | expired (o : Conn) (timer : Option Nat) : w.objects c = some o →
      o'.http = { o.http with timer, connectionState := .hDisconnected } →
      c ∉ (w.loops o.loop).queued → c ∉ (w'.loops o'.loop).queued →
      eventOf c w action = none → Fate c w w' action o'
  /-- Its `NewEvent` was run. -/
  | registered (o : Conn) : w.objects c = some o → HttpData.Retimed o.http.newEvent o'.http →
      c ∈ (w.loops o.loop).queued → c ∉ (w'.loops o'.loop).queued →
      eventOf c w action = none → Fate c w w' action o'
  /-- An event was dispatched to it. -/
  | dispatched (o : Conn) (e : Event) : w.objects c = some o → w'.objects c = some o' →
      o.loop = o'.loop → o.http.connectionState ≠ .hDisconnected → eventOf c w action = some e →
      c ∉ (w.loops o.loop).queued → c ∉ (w'.loops o'.loop).queued →
      Handles w' c o e → Fate c w w' action o'

theorem Apart.fate {d : ConnId} (apart : Apart d w w') (other : c ≠ d)
    (silent : eventOf c w action = none) (there : w'.objects c = some o') :
    Fate c w w' action o' := by
  apply Fate.kept o' ((apart.objects c other).symm.trans there) rfl rfl _ silent
  rw [apart.queued]

theorem fate_of_still (objects : w'.objects = w.objects)
    (queued : ∀ l, c ∈ (w'.loops l).queued ↔ c ∈ (w.loops l).queued)
    (silent : eventOf c w action = none) (there : w'.objects c = some o') :
    Fate c w w' action o' :=
  .kept o' (objects ▸ there) rfl rfl (queued _) silent

theorem dispatch_shown (sound : Sound w) (fine : w.crashed = none) {e : Event} {ctl : Bool}
    (moved : w.dispatch ctl l e = some w') :
    ∃ d o, w.objects d = some o ∧ o.http.connectionState ≠ .hDisconnected ∧
      d ∉ (w.loops o.loop).queued ∧
      (∀ c, eventOf c w (.dispatch l e ctl) = if d = c then some e else none) ∧
      Apart d w w' ∧ Handles w' d o e := by
  obtain ⟨d, o, ret, phase, rfl, -, running, -, called, rfl⟩ := dispatch_cases sound moved
  have still : Apart d w (w.setPhase o.loop (.events ret)) := by
    apply setLoop_apart
    simp only [IoLoop.queued, IoLoop.toRun, phase]
  obtain ⟨apart, handles⟩ := handleEvents_handles called.here fine ctl e
  have here : w.objects d = some o := called.here
  have unqueued := called.queued
  rw [still.queued] at unqueued
  refine ⟨d, o, here, running, unqueued, fun c => ?_, still.trans apart, handles⟩
  simp only [eventOf, phase]

theorem dispatch_fate (sound : Sound w) (fine : w.crashed = none) {e : Event} {ctl : Bool}
    (moved : w.dispatch ctl l e = some w') (there : w'.objects c = some o') :
    Fate c w w' (.dispatch l e ctl) o' := by
  obtain ⟨d, o, here, running, unqueued, shown, apart, handles⟩ := dispatch_shown sound fine moved
  by_cases own : d = c
  · subst own
    have loop : o.loop = o'.loop := by
      cases handles with
      | returned h o₁ ran here loop =>
          rw [there] at here
          cases here
          exact loop.symm
      | faulted fault ran here =>
          rw [there] at here
          cases here
          rfl
    apply Fate.dispatched o e here there loop running ((shown d).trans (if_pos rfl)) unqueued _ handles
    rw [apart.queued, ← loop]
    exact unqueued
  · exact apart.fate (Ne.symm own) ((shown c).trans (if_neg own)) there

theorem runFunctor_fate (sound : Sound w) {ctl : Bool} (silent : eventOf c w action = none)
    (moved : w.runFunctor ctl l = some w')
    (there : w'.objects c = some o') : Fate c w w' action o' := by
  unfold Server.runFunctor at moved
  have before := sound.loops l
  split at moved
  · rename_i d rest phase
    cases moved
    have queued_eq : (w.loops l).queued = (w.loops l).pendingFunctors ++ d :: rest := by
      simp only [IoLoop.queued, IoLoop.toRun, phase]
    have once := before.once
    rw [queued_eq] at once
    have front := (List.nodup_cons.mp (List.nodup_middle.mp once)).1
    have first : d ∈ (w.loops l).queued :=
      queued_eq ▸ List.mem_append_right _ List.mem_cons_self
    obtain ⟨o, here, rfl, -⟩ := before.queued first
    have here' : (w.setPhase o.loop (.functors rest)).objects d = some o := here
    have left : ((w.setPhase o.loop (.functors rest)).loops o.loop).queued =
        (w.loops o.loop).pendingFunctors ++ rest := by
      simp only [setPhase, setLoop_loops, Function.update_self, IoLoop.queued, IoLoop.toRun]
    unfold Server.newEvent at there ⊢
    rw [here'] at there ⊢
    dsimp only at there ⊢
    generalize run : epollAdd ctl _ d _ kDefaultExpiredTime = w' at there ⊢
    have apart : Apart d (w.setPhase o.loop (.functors rest)) w' := run ▸ epollAdd_apart ctl _
    by_cases own : c = d
    · subst own
      have after := epollAdd_objects ctl (w.setPhase o.loop (.functors rest)) c
        { o with http := o.http.setEvents kDefaultEvent } kDefaultExpiredTime
      rw [run, there] at after
      cases after
      apply Fate.registered o here ⟨some w.nodes, o.http.cleared, rfl⟩ first
      · rw [apart.queued]
        exact left ▸ front
      · exact silent
    · have kept : w.objects c = some o' := (apart.objects c own).symm.trans there
      apply Fate.kept o' kept rfl rfl _ silent
      rw [apart.queued]
      by_cases same : o'.loop = o.loop
      · rw [same, left, queued_eq]
        simp only [List.mem_append, List.mem_cons, own, false_or]
      · rw [setPhase, setLoop_loops, Function.update_of_ne same]
  · rename_i phase
    cases moved
    refine fate_of_still rfl (fun l' => ?_) silent there
    rw [queued_setLoop]
    simp only [IoLoop.queued, IoLoop.toRun, phase]
  · cases moved

theorem pop_eq {i : Nat} {n : TimerNode} (holds : n.spHttpData = some c)
    (here : w.objects c = some o) (ctl : Bool) : ∃ timer,
    pop ctl w l i n = handleClose ctl (w.eraseTimer l i) c
      { o with http := { o.http with timer } } (some (o.lastAdd, w.now)) := by
  have here : (w.eraseTimer l i).objects c = some o := here
  unfold Server.pop
  simp only [holds, Option.bind_some, here, Option.map_some]
  exact ⟨_, rfl⟩

theorem handleExpired_fate (sound : Sound w) {ctl : Bool} {i : Nat}
    (silent : eventOf c w action = none) (moved : w.handleExpired ctl l i = some w') (there : w'.objects c = some o') :
    Fate c w w' action o' := by
  obtain ⟨expired, ⟨rfl, -⟩ | ⟨top, n, found, holding, due, rfl⟩⟩ := handleExpired_cases moved
  · refine fate_of_still rfl (fun l' => ?_) silent there
    rw [setPhase, queued_setLoop]
    simp only [IoLoop.queued, IoLoop.toRun, expired]
  · have erased : ∀ d, Apart d w (w.eraseTimer l i) := fun d => setLoop_apart rfl
    rcases pop_cases sound expired found holding due ctl with
      ⟨-, same⟩ | ⟨d, o, -, -, holds, rfl, called, -, -, -, -⟩
    · rw [same] at there ⊢
      refine fate_of_still rfl (fun l' => ?_) silent there
      rw [(erased c).queued]
    · have here : w.objects d = some o := called.here
      obtain ⟨timer, same⟩ := pop_eq (l := o.loop) (i := i) (holding.trans holds) here ctl
      rw [same] at there ⊢
      have apart := (erased d).trans (handleClose_apart (o := { o with http.timer := timer }) ctl
        (some (o.lastAdd, w.now)))
      by_cases own : c = d
      · subst own
        rw [handleClose_objects] at there
        cases there
        have unqueued := called.queued
        rw [(erased c).queued] at unqueued
        apply Fate.expired o timer here rfl unqueued _ silent
        rw [apart.queued]
        exact unqueued
      · exact apart.fate own silent there

theorem poll_fate {reported : List Nat} {other : Bool}
    (silent : eventOf c w action = none) (moved : w.poll l reported other = some w') (there : w'.objects c = some o') :
    Fate c w w' action o' := by
  unfold Server.poll at moved
  dsimp only at moved
  split at moved
  · rename_i allowed
    cases moved
    refine fate_of_still rfl (fun l' => ?_) silent there
    rw [queued_setLoop]
    simp only [IoLoop.queued, IoLoop.toRun, allowed.1]
    split_ifs
    · rfl
    · rfl
  · cases moved

theorem swap_fate (silent : eventOf c w action = none)
    (moved : w.swap l = some w') (there : w'.objects c = some o') :
    Fate c w w' action o' := by
  unfold Server.swap at moved
  dsimp only at moved
  split at moved
  · rename_i phase
    cases moved
    refine fate_of_still rfl (fun l' => ?_) silent there
    rw [queued_setLoop]
    simp only [IoLoop.queued, IoLoop.toRun, phase, List.append_nil, List.nil_append]
  · cases moved

theorem accept_fate {fd : Nat} {nonBlocking : Bool}
    (silent : eventOf c w action = none) (moved : w.accept fd l nonBlocking = some w') (there : w'.objects c = some o') :
    Fate c w w' action o' := by
  obtain ⟨-, rfl | rfl | rfl⟩ := accept_cases moved
  · exact fate_of_still rfl (fun _ => Iff.rfl) silent there
  · have queued (l' : LoopId) : c ∈ (((w.opened fd).handed w.accepted fd l).loops l').queued ↔
        c ∈ (w.loops l').queued ∨ l' = l ∧ c = w.accepted := by
      by_cases same : l' = l
      · simp only [handed, opened, setLoop_loops, setConn_loops, same, Function.update_self,
          IoLoop.queued, IoLoop.toRun, List.mem_append, List.mem_singleton, true_and]
        tauto
      · simp only [handed, opened, setLoop_loops, setConn_loops, Function.update_of_ne same, same,
          false_and, or_false]
    rcases handed_objects there with ⟨new, rfl⟩ | ⟨old, before⟩
    · exact .born fd new rfl ((queued l).mpr (.inr ⟨rfl, new⟩))
    · have before : w.objects c = some o' := before
      apply Fate.kept o' before rfl rfl _ silent
      apply (queued o'.loop).trans
      exact or_iff_left fun born => old born.2
  · exact fate_of_still rfl (fun _ => Iff.rfl) silent there

theorem destroy_fate {d : ConnId} (silent : eventOf c w action = none)
    (moved : w.destroy d = some w')
    (there : w'.objects c = some o') : Fate c w w' action o' := by
  obtain ⟨o, -, -, rfl⟩ := destroy_cases moved
  apply Fate.kept o' (update_none_some.mp there).2 rfl rfl _ silent
  show c ∈ ((w.setLoop o.loop _).loops o'.loop).queued ↔ _
  rw [queued_setLoop]
  rfl

theorem step_running (moved : w.step action = some w') : w.crashed = none := by
  unfold Server.step at moved
  split at moved
  · cases moved
  · rename_i running
    simpa using running

/-- What any step makes of a connection that is there after it. -/
theorem step_fate (sound : Sound w) (moved : w.step action = some w')
    (there : w'.objects c = some o') : Fate c w w' action o' := by
  unfold Server.step at moved
  split at moved
  · cases moved
  · rename_i running
    have fine : w.crashed = none := by simpa using running
    cases action with
    | accept fd l nonBlocking => exact accept_fate rfl moved there
    | acceptNext =>
        cases moved
        exact fate_of_still rfl (fun _ => Iff.rfl) rfl there
    | poll l reported other => exact poll_fate rfl moved there
    | dispatch l e ctl => exact dispatch_fate sound fine moved there
    | swap l => exact swap_fate rfl moved there
    | runFunctor l ctl => exact runFunctor_fate sound rfl moved there
    | handleExpired l i ctl => exact handleExpired_fate sound rfl moved there
    | destroy d => exact destroy_fate rfl moved there
    | tick now =>
        dsimp only at moved
        split at moved
        · cases moved
          exact fate_of_still rfl (fun _ => Iff.rfl) rfl there
        · cases moved

/-- Only a dispatch can bring the process down; the other steps number the connections in the order
    in which they are accepted. -/
theorem step_calm (sound : Sound w) (moved : w.step action = some w') :
    w.accepted ≤ w'.accepted ∧ w'.crashed = none ∨
      ∃ l e ctl, action = .dispatch l e ctl ∧ w.dispatch ctl l e = some w' := by
  have fine := step_running moved
  have same (accepted : w.accepted ≤ w'.accepted) (crashed : w'.crashed = w.crashed) :
      w.accepted ≤ w'.accepted ∧ w'.crashed = none ∨
        ∃ l e ctl, action = .dispatch l e ctl ∧ w.dispatch ctl l e = some w' :=
    .inl ⟨accepted, crashed.trans fine⟩
  unfold Server.step at moved
  split at moved
  · cases moved
  · cases action with
    | accept fd l nonBlocking =>
        obtain ⟨-, rfl | rfl | rfl⟩ := accept_cases moved
        all_goals exact same (Nat.le_succ _) rfl
    | acceptNext =>
        cases moved
        exact same le_rfl rfl
    | poll l reported other =>
        dsimp only [Server.poll] at moved
        split at moved
        · cases moved
          exact same le_rfl rfl
        · cases moved
    | dispatch l e ctl => exact .inr ⟨l, e, ctl, rfl, moved⟩
    | swap l =>
        dsimp only [Server.swap] at moved
        split at moved
        · cases moved
          exact same le_rfl rfl
        · cases moved
    | runFunctor l ctl =>
        rcases runFunctor_cases sound moved with
          ⟨d, o, rest, -, -, -, -, called, -, rfl⟩ | ⟨-, rfl⟩
        · unfold Server.newEvent at same ⊢
          rw [called.here] at same ⊢
          exact same le_rfl rfl
        · exact same le_rfl rfl
    | handleExpired l i ctl =>
        obtain ⟨expired, ⟨rfl, -⟩ | ⟨top, n, found, holding, due, rfl⟩⟩ := handleExpired_cases moved
        · exact same le_rfl rfl
        · rcases pop_cases sound expired found holding due ctl with
            ⟨-, popped⟩ | ⟨d, o, o₁, byTimer, -, -, -, -, -, -, popped⟩
          · rw [popped] at same ⊢
            exact same le_rfl rfl
          · rw [popped] at same ⊢
            exact same le_rfl rfl
    | destroy d =>
        obtain ⟨o, -, -, rfl⟩ := destroy_cases moved
        exact same le_rfl rfl
    | tick now =>
        dsimp only at moved
        split at moved
        · cases moved
          exact same le_rfl rfl
        · cases moved

theorem step_accepted (sound : Sound w) (moved : w.step action = some w') :
    w.accepted ≤ w'.accepted := by
  rcases step_calm sound moved with ⟨accepted, -⟩ | ⟨l, e, ctl, -, dispatched⟩
  · exact accepted
  · obtain ⟨d, o, -, -, -, -, apart, -⟩ := dispatch_shown sound (step_running moved) dispatched
    exact apart.accepted.ge

/-- The connection is as its session left it, but for its timer, which may have closed it. -/
inductive Follows (s : HttpData) (σ : Session) : Prop where
  | going : HttpData.Retimed σ.http s → Follows s σ
  | expired (timer : Option Nat) (cleared : List Nat) :
      s = { σ.http with timer, cleared, connectionState := .hDisconnected } → Follows s σ

theorem Follows.expire {s : HttpData} {σ : Session} (follows : Follows s σ) (timer : Option Nat) :
    Follows { s with timer, connectionState := .hDisconnected } σ := by
  cases follows with
  | going retimed =>
      obtain ⟨before, cleared, rfl⟩ := retimed
      exact .expired timer cleared rfl
  | expired before cleared same =>
      subst same
      exact .expired timer cleared rfl

theorem Follows.retimed {s : HttpData} {σ : Session} (follows : Follows s σ)
    (running : s.connectionState ≠ .hDisconnected) : HttpData.Retimed σ.http s := by
  cases follows with
  | going retimed => exact retimed
  | expired timer cleared same => exact absurd (congrArg HttpData.connectionState same) running

theorem granted_retimed {s t : HttpData} (request : LoopRequest) (retimed : HttpData.Retimed s t) :
    HttpData.Retimed (s.granted request) (t.granted request) := by
  obtain ⟨timer, cleared, rfl⟩ := retimed
  cases request with
  | none => exact ⟨timer, cleared, rfl⟩
  | updatePoller timeout => exact ⟨timer, cleared, rfl⟩
  | handleClose => exact ⟨timer, cleared, rfl⟩

/-- How a session and the connection that follows it go through one event. -/
inductive Shared (w' : Server) (c : ConnId) (o : Conn) (σ' : Session) : Prop where
  | returned (o' : Conn) : w'.objects c = some o' → o'.http.fd = o.http.fd →
      HttpData.Retimed σ'.http o'.http → σ'.crashed = none → w'.crashed = none → Shared w' c o σ'
  | faulted (fault : Fault) : w'.objects c = some o → HttpData.Retimed σ'.http o.http →
      σ'.crashed = some fault → w'.crashed = some (.fault fault) → Shared w' c o σ'

/-- The session goes through an event like the connection that follows it. -/
theorem Handles.shared {σ : Session} {e : Event} (handles : Handles w' c o e)
    (here : w.objects c = some o) (shown : eventOf c w action = some e)
    (retimed : HttpData.Retimed σ.http o.http) (calm : σ.crashed = none)
    (running : o.http.connectionState ≠ .hDisconnected) :
    ∃ σ', connection.step σ e = some σ' ∧ σ'.sent = σ.sent ++ acceptedBy c w action ∧
      Shared w' c o σ' := by
  have opened : σ.Open := by
    obtain ⟨timer, cleared, same⟩ := retimed
    rw [same] at running
    exact ⟨calm, running⟩
  have polled : HttpData.Retimed (σ.before e) (o.http.polled e.revents) := by
    obtain ⟨timer, cleared, same⟩ := retimed
    rw [same]
    exact ⟨timer, cleared, rfl⟩
  have beside : HttpData.Beside σ.sent [] (σ.kernel e) (kernel e) :=
    ⟨rfl, rfl, rfl, rfl, [], (List.append_nil _).symm, rfl⟩
  have both := HttpData.handleEvents_retimed polled beside
  refine ⟨σ.after e, if_pos opened, ?_⟩
  unfold acceptedBy Session.after
  rw [shown, here]
  dsimp only
  cases handles with
  | returned h o' ran there loop same fine =>
      rw [ran] at both ⊢
      generalize own : HttpData.handleEvents (σ.before e) (σ.kernel e) = dispatch at both ⊢
      cases both with
      | ok alike =>
          rename_i g
          obtain ⟨x, sent, sent'⟩ := alike.kernel.sent
          rw [List.nil_append] at sent'
          have granted : HttpData.Retimed (g.http.granted g.request)
              (h.http.granted h.request) := by
            rw [alike.request]
            exact granted_retimed h.request alike.http
          have fd_eq : o'.http.fd = o.http.fd := by
            have kept := (HttpData.handleEvents_dispatched ran).1.fd
            obtain ⟨timer, cleared, last⟩ := same
            rw [last]
            cases asked : h.request <;> exact kept
          exact ⟨sent.trans (congrArg (σ.sent ++ ·) sent'.symm),
            .returned o' there fd_eq (granted.trans same) calm fine⟩
  | faulted fault failed there down =>
      rw [failed] at both ⊢
      generalize own : HttpData.handleEvents (σ.before e) (σ.kernel e) = dispatch at both ⊢
      cases both with
      | error _ =>
          exact ⟨(List.append_nil _).symm, .faulted fault there retimed rfl down⟩

/-- Where a connection stands with respect to its session. -/
structure Tracked (w : Server) (c : ConnId) (o : Conn) (σ : Session) : Prop where
  /-- Before its `NewEvent` is run, nothing has happened. -/
  waiting : c ∈ (w.loops o.loop).queued →
    o.http = HttpData.new o.http.fd ∧ σ = Session.registered o.http.fd
  follows : c ∉ (w.loops o.loop).queued → Follows o.http σ
  crash : ∀ fault, σ.crashed = some fault → w.crashed = some (.fault fault)

theorem Tracked.calm {σ : Session} (tracked : Tracked w c o σ) (fine : w.crashed = none) :
    σ.crashed = none := by
  cases crashed : σ.crashed with
  | none => rfl
  | some fault =>
      have down := tracked.crash fault crashed
      rw [fine] at down
      cases down

theorem Tracked.still_fine {σ : Session} (tracked : Tracked w c o σ) (fine : w.crashed = none)
    (fault : Fault) (crashed : σ.crashed = some fault) : w'.crashed = some (.fault fault) := by
  rw [tracked.calm fine] at crashed
  cases crashed

theorem eventOf_present (sound : Sound w) {e : Event} (shown : eventOf c w action = some e) :
    ∃ o, w.objects c = some o := by
  cases action with
  | dispatch l f ctl =>
      dsimp only [eventOf] at shown
      split at shown
      · rename_i fd d ret phase
        split at shown
        · rename_i same
          subst same
          have listed : (fd, d) ∈ (w.loops l).ready := by simp [IoLoop.ready, phase]
          obtain ⟨o, here, -⟩ :=
            (sound.loops l).registered ((sound.loops l).channels ((sound.loops l).ready listed))
          exact ⟨o, here⟩
        · cases shown
      · cases shown
  | accept | acceptNext | poll | swap | runFunctor | handleExpired | destroy | tick => cases shown

theorem acceptedBy_silent (silent : eventOf c w action = none) : acceptedBy c w action = [] := by
  unfold acceptedBy
  rw [silent]

theorem eventOf_unknown (sound : Sound w) (unknown : w.objects c = none) :
    eventOf c w action = none := by
  cases shown : eventOf c w action with
  | none => rfl
  | some e =>
      obtain ⟨o, here⟩ := eventOf_present sound shown
      rw [unknown] at here
      cases here

/-- What a run has shown to a connection is what its session went through. -/
def Projected (start w : Server) (labels : List Action) (c : ConnId) (o : Conn) : Prop :=
  ∃ σ, connection.replay (Session.registered o.http.fd) (eventsOf c start labels) = some σ ∧
    σ.sent = bytesOf c start labels ∧ Tracked w c o σ

section Runs

variable {first : Server} {labels : List Action}

theorem grows_silently (ran : server.replay first labels = some w)
    (silent : eventOf c w action = none) :
    eventsOf c first (labels ++ [action]) = eventsOf c first labels ∧
      bytesOf c first (labels ++ [action]) = bytesOf c first labels := by
  unfold eventsOf bytesOf
  rw [System.observed_concat _ ran, System.observed_concat _ ran, silent,
    acceptedBy_silent silent]
  exact ⟨List.append_nil _, List.append_nil _⟩

theorem unborn_silent (sound : Sound first) (ran : server.replay first labels = some w)
    (later : w.accepted ≤ c) : eventsOf c first labels = [] ∧ bytesOf c first labels = [] := by
  suffices both : Sound w ∧
      (w.accepted ≤ c → eventsOf c first labels = [] ∧ bytesOf c first labels = []) from
    both.2 later
  refine System.replay_induction (P := fun labels w => Sound w ∧
    (w.accepted ≤ c → eventsOf c first labels = [] ∧ bytesOf c first labels = []))
    ⟨sound, fun _ => ⟨rfl, rfl⟩⟩ ?_ ran
  rintro labels w action w' ran ⟨sound, silent⟩ moved
  refine ⟨sound.step moved, fun later => ?_⟩
  have unborn : w.accepted ≤ c := (step_accepted sound moved).trans later
  have unknown : w.objects c = none := by
    cases there : w.objects c with
    | none => rfl
    | some o => exact absurd (sound.object there).2.2.2 (Nat.not_lt.mpr unborn)
  obtain ⟨events, bytes⟩ := grows_silently ran (eventOf_unknown sound unknown)
  rw [events, bytes]
  exact silent unborn

/-- One more step keeps what a run has shown to a connection in line with its session. -/
theorem Projected.step (sound : Sound w) (unborn : w.accepted ≤ c →
      eventsOf c first labels = [] ∧ bytesOf c first labels = [])
    (before : ∀ o, w.objects c = some o → Projected first w labels c o)
    (ran : server.replay first labels = some w) (moved : w.step action = some w')
    (there : w'.objects c = some o') : Projected first w' (labels ++ [action]) c o' := by
  have fine := step_running moved
  unfold Projected
  cases step_fate sound moved there with
  | born fd new http waiting =>
      subst new
      obtain ⟨events, bytes⟩ := unborn le_rfl
      obtain ⟨events', bytes'⟩ := grows_silently ran (eventOf_unknown sound sound.unknown)
      rw [events', bytes', events, bytes]
      refine ⟨Session.registered o'.http.fd, rfl, rfl, fun _ => ⟨?_, rfl⟩,
        fun away => absurd waiting away, by simp [Session.registered]⟩
      rw [http]
      rfl
  | kept o here loop http queued silent =>
      obtain ⟨σ, replayed, sent, tracked⟩ := before o here
      obtain ⟨events', bytes'⟩ := grows_silently ran silent
      rw [events', bytes', http]
      refine ⟨σ, replayed, sent, fun waiting => ?_, fun away => ?_, tracked.still_fine fine⟩
      · rw [http]
        exact tracked.waiting (queued.mp waiting)
      · rw [http]
        exact tracked.follows fun waiting => away (queued.mpr waiting)
  | expired o timer here http unqueued away silent =>
      obtain ⟨σ, replayed, sent, tracked⟩ := before o here
      obtain ⟨events', bytes'⟩ := grows_silently ran silent
      rw [events', bytes', http]
      refine ⟨σ, replayed, sent, fun waiting => absurd waiting away, fun _ => ?_,
        tracked.still_fine fine⟩
      rw [http]
      exact (tracked.follows unqueued).expire timer
  | registered o here retimed waiting away silent =>
      obtain ⟨σ, replayed, sent, tracked⟩ := before o here
      obtain ⟨events', bytes'⟩ := grows_silently ran silent
      obtain ⟨new, same⟩ := tracked.waiting waiting
      have fd_eq : o'.http.fd = o.http.fd := by
        obtain ⟨timer, cleared, last⟩ := retimed
        rw [last]
        rfl
      rw [events', bytes', fd_eq]
      refine ⟨σ, replayed, sent, fun still => absurd still away, fun _ => ?_,
        tracked.still_fine fine⟩
      rw [new] at retimed
      rw [same]
      exact .going retimed
  | dispatched o e here there loop running shown unqueued away handles =>
      obtain ⟨σ, replayed, sent, tracked⟩ := before o here
      have follows := (tracked.follows unqueued).retimed running
      obtain ⟨σ', moved', sent', shared⟩ :=
        handles.shared here shown follows (tracked.calm fine) running
      have events : eventsOf c first (labels ++ [action]) = eventsOf c first labels ++ [e] := by
        unfold eventsOf
        rw [System.observed_concat _ ran, shown]
        rfl
      have bytes : bytesOf c first (labels ++ [action]) =
          bytesOf c first labels ++ acceptedBy c w action := System.observed_concat _ ran action
      have result : o'.http.fd = o.http.fd ∧ HttpData.Retimed σ'.http o'.http ∧
          ∀ fault, σ'.crashed = some fault → w'.crashed = some (.fault fault) := by
        cases shared with
        | returned o₁ here₁ fd_eq retimed calm fine =>
            obtain rfl := Option.some.inj (there.symm.trans here₁)
            exact ⟨fd_eq, retimed, by simp [calm]⟩
        | faulted fault here₁ retimed faulted down =>
            obtain rfl := Option.some.inj (there.symm.trans here₁)
            exact ⟨rfl, retimed, by simp [faulted, down]⟩
      obtain ⟨fd_eq, retimed, crash⟩ := result
      rw [fd_eq, events, bytes, ← sent]
      exact ⟨σ', System.replay_concat replayed moved', sent',
        fun waiting => absurd waiting away, fun _ => .going retimed, crash⟩

/-- In every run of the server each connection is as its own session leaves it, fed with the events
    that the run dispatches to it, and its socket has accepted the same bytes. -/
theorem replay_projected (sound : Sound first) (none_there : ∀ c, first.objects c = none)
    (ran : server.replay first labels = some w) (here : w.objects c = some o) :
    Projected first w labels c o := by
  suffices all : Sound w ∧ ∀ o, w.objects c = some o → Projected first w labels c o from all.2 o here
  refine System.replay_induction (P := fun labels w => Sound w ∧
    ∀ o, w.objects c = some o → Projected first w labels c o) ⟨sound, ?_⟩ ?_ ran
  · intro o here
    rw [none_there] at here
    cases here
  · rintro labels w action w' ran ⟨sound', before⟩ moved
    exact ⟨sound'.step moved, fun o' there =>
      .step sound' (unborn_silent sound ran) before ran moved there⟩

end Runs

/-- In every run of the server each connection is as its own session leaves it, fed with the events
    that the run dispatches to it: its socket has accepted the same bytes, and it has the same state,
    but for its timer, which may have closed it. -/
theorem projected {now : Timeval} {system : List Nat} {labels : List Action}
    (run : server.replay (start now system) labels = some w) (here : w.objects c = some o) :
    ∃ σ, connection.replay (.registered o.http.fd) (eventsOf c (start now system) labels) = some σ ∧
      σ.sent = bytesOf c (start now system) labels ∧ (w.crashed = none → σ.crashed = none) ∧
      (c ∈ (w.loops o.loop).queued ∧ o.http = HttpData.new o.http.fd ∧
          σ = .registered o.http.fd ∨
        c ∉ (w.loops o.loop).queued ∧ Follows o.http σ) := by
  obtain ⟨σ, replayed, sent, tracked⟩ :=
    replay_projected (start_sound now system) (fun _ => rfl) run here
  refine ⟨σ, replayed, sent, tracked.calm, ?_⟩
  by_cases waiting : c ∈ (w.loops o.loop).queued
  · exact .inl ⟨waiting, tracked.waiting waiting⟩
  · exact .inr ⟨waiting, tracked.follows waiting⟩

/-- Two connections on two loops, each with an event to dispatch. -/
def twoConnections : List Action :=
  [.accept 9 0 true, .acceptNext, .accept 10 1 true, .acceptNext, .poll 0 [] true, .poll 1 [] true,
    .swap 0, .swap 1, .runFunctor 1 true, .runFunctor 0 true, .runFunctor 0 true, .runFunctor 1 true,
    .handleExpired 0 0 true, .handleExpired 1 0 true, .poll 1 [10] false, .poll 0 [9] false]

/-- The second connection is answered before the first one. -/
def twoAnswers : List Action :=
  twoConnections ++ [.dispatch 1 (iconOver []) true, .dispatch 0 (helloEvent false []) true]

set_option maxRecDepth 4000 in
theorem projected_answer :
    ∃ w o o' σ σ', server.replay (start ⟨0, 0, by decide⟩ [3]) twoAnswers = some w ∧
      w.objects 0 = some o ∧ o.http.fd = 9 ∧ w.objects 1 = some o' ∧ o'.http.fd = 10 ∧
      eventsOf 0 (start ⟨0, 0, by decide⟩ [3]) twoAnswers = [helloEvent false []] ∧
      eventsOf 1 (start ⟨0, 0, by decide⟩ [3]) twoAnswers = [iconOver []] ∧
      connection.replay (.registered o.http.fd)
        (eventsOf 0 (start ⟨0, 0, by decide⟩ [3]) twoAnswers) = some σ ∧
      σ.sent = bytesOf 0 (start ⟨0, 0, by decide⟩ [3]) twoAnswers ∧
      connection.replay (.registered o'.http.fd)
        (eventsOf 1 (start ⟨0, 0, by decide⟩ [3]) twoAnswers) = some σ' ∧
      σ'.sent = bytesOf 1 (start ⟨0, 0, by decide⟩ [3]) twoAnswers := by
  have run : server.replay (start ⟨0, 0, by decide⟩ [3]) twoAnswers = some _ := rfl
  obtain ⟨σ, replayed, sent, -⟩ := projected (c := 0) run rfl
  obtain ⟨σ', replayed', sent', -⟩ := projected (c := 1) run rfl
  exact ⟨_, _, _, σ, σ', run, rfl, rfl, rfl, rfl, rfl, rfl, replayed, sent, replayed', sent'⟩

/-- The process goes down exactly when one of its connections does so in its own session, and with
    the same fault. -/
theorem crash_projected {now : Timeval} {system : List Nat} {labels : List Action}
    (run : server.replay (start now system) labels = some w) (fault : Fault) :
    w.crashed = some (.fault fault) ↔ ∃ c o σ, w.objects c = some o ∧
      connection.replay (.registered o.http.fd) (eventsOf c (start now system) labels) = some σ ∧
      σ.crashed = some fault := by
  have none_there : ∀ c, (start now system).objects c = none := fun _ => rfl
  constructor
  · suffices all : Sound w ∧ (w.crashed = some (.fault fault) → ∃ c o σ, w.objects c = some o ∧
        connection.replay (.registered o.http.fd) (eventsOf c (start now system) labels) = some σ ∧
        σ.crashed = some fault) from all.2
    refine System.replay_induction (P := fun labels w => Sound w ∧
      (w.crashed = some (.fault fault) → ∃ c o σ, w.objects c = some o ∧
        connection.replay (.registered o.http.fd) (eventsOf c (start now system) labels) = some σ ∧
        σ.crashed = some fault)) ⟨start_sound now system, ?_⟩ ?_ run
    · intro down
      cases down
    · rintro labels w action w' ran ⟨sound, -⟩ moved
      refine ⟨sound.step moved, fun down => ?_⟩
      have fine := step_running moved
      rcases step_calm sound moved with ⟨-, up⟩ | ⟨l, e, ctl, rfl, dispatched⟩
      · rw [up] at down
        cases down
      · obtain ⟨c, o, here, running, unqueued, shown, -, handles⟩ :=
          dispatch_shown sound fine dispatched
        have shown : eventOf c w (.dispatch l e ctl) = some e := (shown c).trans (if_pos rfl)
        obtain ⟨σ, replayed, -, tracked⟩ :=
          replay_projected (start_sound now system) none_there ran here
        obtain ⟨σ', moved', -, shared⟩ :=
          handles.shared here shown ((tracked.follows unqueued).retimed running)
            (tracked.calm fine) running
        have events : eventsOf c (start now system) (labels ++ [.dispatch l e ctl]) =
            eventsOf c (start now system) labels ++ [e] := by
          unfold eventsOf
          rw [System.observed_concat _ ran, shown]
          rfl
        cases shared with
        | returned o₁ there fd_eq retimed calm up =>
            rw [up] at down
            cases down
        | faulted fault' there retimed crashed down' =>
            rw [down'] at down
            cases down
            refine ⟨c, o, σ', there, ?_, crashed⟩
            rw [events]
            exact System.replay_concat replayed moved'
  · rintro ⟨c, o, σ, here, replayed, crashed⟩
    obtain ⟨σ', replayed', -, tracked⟩ :=
      replay_projected (start_sound now system) none_there run here
    rw [replayed] at replayed'
    cases replayed'
    exact tracked.crash fault crashed

/-- The second connection is answered, then the first one posts a `Content-length` that is not a
    number. -/
def answerThenCrash : List Action :=
  twoConnections ++ [.dispatch 1 (iconOver []) true, .dispatch 0 postedLetters true]

set_option maxRecDepth 4000 in
theorem crash_projected_letters :
    ∃ w c o σ, server.replay (start ⟨0, 0, by decide⟩ [3]) answerThenCrash = some w ∧
      (w.objects 1).isSome ∧ w.objects c = some o ∧
      connection.replay (.registered o.http.fd)
        (eventsOf c (start ⟨0, 0, by decide⟩ [3]) answerThenCrash) = some σ ∧
      σ.crashed = some (.thrown .invalidArgument) := by
  have run : server.replay (start ⟨0, 0, by decide⟩ [3]) answerThenCrash = some _ := rfl
  obtain ⟨c, o, σ, shown⟩ := (crash_projected run (.thrown .invalidArgument)).mp rfl
  exact ⟨_, c, o, σ, run, rfl, shown⟩

end Server

end WebServer
