import WebServer.Http.Dispatch
import WebServer.Http.Isolation
import WebServer.Http.Standing

/-! # The flag that outlives its request

`AnalysisRequest` sets `keep_alive_` for a request that asks for it, and nothing clears it again. So
the timeout that `HandleConn` chooses goes by all requests of the connection so far.
-/

namespace WebServer

open Lib

namespace HttpData

variable {s s' t u v w : HttpData} {k k' kt ku : Kernel} {p q : Bytes} {again : Bool}

/-- The stages come to a `GET` or `HEAD` that asks to keep the connection. -/
def AsksAt (u : HttpData) : Prop :=
  ∃ w, AtAnalysis u w ∧ w.method ≠ .methodPost ∧ keepAliveRequested w.headers = true

/-- This invocation analyses such a request. -/
def AsksToKeep (s : HttpData) (k : Kernel) : Prop := ∃ u, handed s k = some u ∧ AsksAt u

theorem analysisFile_keepAlive (header fileType : Bytes) (s : HttpData) (k : Kernel) :
    (analysisFile header fileType s k).2.1.keepAlive = s.keepAlive := by
  unfold analysisFile
  dsimp only
  cases (k.lookup (cstr s.fileName)).1.stSize with
  | none => rfl
  | some size =>
      dsimp only
      split_ifs
      · rfl
      · cases (k.lookup (cstr s.fileName)).1.mapped <;> rfl

theorem analysisStage_keepAlive (analysing : u.state = .stateAnalysis)
    (ran : analysisStage u k = .ok (t, kt)) : t.keepAlive = true ↔
      u.keepAlive = true ∨ u.method ≠ .methodPost ∧ keepAliveRequested u.headers = true := by
  by_cases post : u.method = .methodPost
  · rw [analysisStage_post analysing post] at ran
    cases ran
    simp [post]
  · obtain ⟨fileType, -, answered⟩ := analysisRequest_eq post
    have kept : t.keepAlive = (u.keepAlive || keepAliveRequested u.headers) := by
      unfold analysisStage at ran
      rw [if_pos analysing, answered k] at ran
      dsimp only at ran
      split_ifs at ran
      · cases ran
        rfl
      · cases ran
        rfl
      · have file := analysisFile_keepAlive (replyStart (keepAliveRequested u.headers)) fileType
          { u with keepAlive := u.keepAlive || keepAliveRequested u.headers } k
        generalize analysisFile _ fileType _ k = result at ran file
        obtain ⟨flag, v, kv⟩ := result
        cases flag <;> cases ran <;> exact file
    rw [kept, Bool.or_eq_true]
    simp [post]

theorem uriStage_keepAlive (ran : uriStage u k = .ok (t, kt)) :
    t.keepAlive = true ↔ u.keepAlive = true ∨ AsksAt u := by
  by_cases asks : AsksAt u
  · obtain ⟨w, entered, asked⟩ := asks
    rw [entered.analyses] at ran
    have set := analysisStage_keepAlive entered.analysing ran
    exact iff_of_true (set.mpr (.inr asked)) (.inr ⟨w, entered, asked⟩)
  · rw [or_iff_left asks]
    cases uriStage_ending ran with
    | waits parsed => rw [parsed.keepAlive]
    | rejects _ parsed => exact iff_of_eq (congrArg (· = true) parsed.keepAlive)
    | @analyses w _ _ entered parsed analysing ran =>
        rw [analysisStage_keepAlive analysing ran, parsed.keepAlive]
        exact or_iff_left fun asked => asks ⟨w, entered, asked⟩

theorem receive_keepAlive (ran : receive s k = .ok (t, kt)) :
    t.keepAlive = true ↔ s.keepAlive = true ∨ AsksToKeep s k := by
  cases passed : handed s k with
  | none =>
      have silent : ¬ AsksToKeep s k := by
        rintro ⟨u, entered, -⟩
        rw [passed] at entered
        cases entered
      rw [or_iff_left silent]
      cases Withheld.of_receive passed ran with
      | disconnecting => exact Iff.rfl
      | closed => exact Iff.rfl
      | failed => exact Iff.rfl
  | some u =>
      rw [receive_some passed] at ran
      have same : u.keepAlive = s.keepAlive := by
        obtain ⟨connectionState, rfl⟩ := handed_read passed
        rfl
      rw [uriStage_keepAlive ran, same]
      refine or_congr_right ⟨fun asks => ⟨u, passed, asks⟩, ?_⟩
      rintro ⟨v, entered, asks⟩
      rw [passed] at entered
      cases entered
      exact asks

theorem Flushed.keepAlive (flushed : Flushed s k s' k') : s'.keepAlive = s.keepAlive := by
  obtain ⟨events, outBuffer, error, same⟩ := flushed.kept
  rw [same]
  rfl

theorem settle_keepAlive (s : HttpData) (k : Kernel) : (settle s k).2.1.keepAlive = s.keepAlive := by
  have kept := (flush_flushed s k).keepAlive
  unfold settle
  split_ifs
  · rfl
  dsimp only
  split_ifs <;> exact kept

theorem handleReadTurn_keepAlive (turn : handleReadTurn s k = .ok (again, s', k')) :
    s'.keepAlive = true ↔ s.keepAlive = true ∨ AsksToKeep s k := by
  obtain ⟨t, kt, received, settled⟩ := handleReadTurn_parts turn
  have kept := settle_keepAlive t kt
  rw [settled] at kept
  rw [← receive_keepAlive received, ← kept]

theorem Invoked.cases_first (invoked : Invoked s k u ku) :
    u = s ∧ ku = k ∨ ∃ t kt, handleReadTurn s k = .ok (true, t, kt) ∧ Invoked t kt u ku := by
  induction invoked with
  | call => exact .inl ⟨rfl, rfl⟩
  | nested _ turn ih =>
      rcases ih with ⟨rfl, rfl⟩ | ⟨t, kt, first, later⟩
      · exact .inr ⟨_, _, turn, .call⟩
      · exact .inr ⟨t, kt, first, .nested later turn⟩

theorem handleRead_keepAlive (ran : handleRead s k = .ok (s', k')) : s'.keepAlive = true ↔
    s.keepAlive = true ∨ ∃ t kt, Invoked s k t kt ∧ AsksToKeep t kt := by
  induction size : depthBound s k using Nat.strong_induction_on generalizing s k with
  | _ n ih =>
      rw [handleRead_eq] at ran
      cases turn : handleReadTurn s k with
      | error e =>
          rw [turn] at ran
          cases ran
      | ok next =>
          obtain ⟨again, t, kt⟩ := next
          have first := handleReadTurn_keepAlive turn
          rw [turn] at ran
          cases again with
          | false =>
              cases ran
              rw [first]
              refine or_congr_right ⟨fun asks => ⟨s, k, .call, asks⟩, ?_⟩
              rintro ⟨u, ku, invoked, asks⟩
              rcases invoked.cases_first with ⟨rfl, rfl⟩ | ⟨_, _, again, -⟩
              · exact asks
              · rw [turn] at again
                cases again
          | true =>
              have less := handleReadTurn_again turn
              rw [ih _ (size ▸ less) ran rfl, first, or_assoc]
              refine or_congr_right ⟨?_, ?_⟩
              · rintro (asks | ⟨u, ku, invoked, asks⟩)
                · exact ⟨s, k, .call, asks⟩
                · exact ⟨u, ku, .of_nested turn invoked, asks⟩
              · rintro ⟨u, ku, invoked, asks⟩
                rcases invoked.cases_first with ⟨rfl, rfl⟩ | ⟨_, _, again, later⟩
                · exact .inl asks
                · rw [turn] at again
                  cases again
                  exact .inr ⟨u, ku, later, asks⟩

theorem Linked.symm (linked : Linked Eq s t) : Linked Eq t s where
  events := linked.events.symm
  inBuffer := linked.inBuffer.symm
  outBuffer := linked.outBuffer.symm
  error := linked.error.symm
  connectionState := linked.connectionState.symm
  fileName := linked.fileName.symm
  nowReadPos := linked.nowReadPos.symm
  state := linked.state.symm
  hState := linked.hState.symm
  headers := linked.headers.symm
  method parsed := (linked.method (linked.state ▸ parsed)).symm

theorem handed_linked (linked : Linked Eq s t) (beside : Beside p q k k')
    (passed : handed s k = some u) : ∃ v, handed t k' = some v ∧ Linked Eq u v := by
  simp only [handed, Option.ite_none_left_eq_some] at passed
  obtain ⟨going, passed⟩ := passed
  cases passed
  have passed' : handed t k' = some { t with
      inBuffer := (readN k.reads 0 s.inBuffer).inBuffer
      connectionState := if (readN k.reads 0 s.inBuffer).zero then .hDisconnecting
        else s.connectionState } := by
    unfold handed
    rw [← linked.connectionState, ← linked.inBuffer, ← beside.reads]
    exact if_neg going
  exact ⟨_, passed', { linked with inBuffer := rfl, connectionState := rfl }⟩

theorem atHeaders_linked (linked : Linked Eq u v) (entered : atHeaders u = some s) :
    ∃ t, atHeaders v = some t ∧ Same Eq s t := by
  unfold atHeaders at entered ⊢
  rw [← linked.state]
  split at entered
  · split at entered
    · rename_i parsed
      have both := parseURI_alike linked.toAlike
      rw [parsed] at both
      cases entered
      generalize parseURI v = second at both ⊢
      cases both with
      | @ok _ b related =>
          obtain ⟨_, t⟩ := b
          obtain ⟨rfl, alike, method⟩ := related
          exact ⟨_, rfl, { alike with state := rfl, method := method rfl }⟩
    · cases entered
  · rename_i parsing
    cases entered
    exact ⟨v, rfl, ⟨linked.toAlike, linked.method (by simp [parsing])⟩⟩
  · cases entered

theorem AsksAt.linked (asks : AsksAt u) (linked : Linked Eq u v) : AsksAt v := by
  obtain ⟨w, entered, asked⟩ := asks
  cases entered with
  | resumed analysing =>
      have method := linked.method (by simp [analysing])
      refine ⟨v, .resumed (linked.state ▸ analysing), ?_⟩
      rw [← method, ← linked.headers]
      exact asked
  | @body t reached arrived =>
      unfold atBody at reached
      split_ifs at reached with receiving
      · cases reached
        have method := linked.method (by simp [receiving])
        have entered : atBody v = some v := if_pos (linked.state ▸ receiving)
        have enough : bodyArrived v := by
          unfold bodyArrived at arrived ⊢
          rw [← linked.headers, ← linked.inBuffer]
          exact arrived
        refine ⟨_, .body entered enough, ?_⟩
        dsimp only
        rw [← method, ← linked.headers]
        exact asked
      · split at reached
        · split_ifs at reached with post
          cases reached
          exact absurd post asked.1
        · cases reached
  | @headers t w' reached parsed other =>
      obtain ⟨t', reached', same⟩ := atHeaders_linked linked reached
      have both := parseHeaders_same same
      rw [parsed] at both
      generalize second : parseHeaders t' = result at both
      cases both with
      | @ok _ b related =>
          obtain ⟨_, x⟩ := b
          obtain ⟨rfl, same'⟩ := related
          refine ⟨_, .headers reached' second (same'.method ▸ other), ?_⟩
          dsimp only
          rw [← same'.method, ← same'.headers]
          exact asked

theorem AsksToKeep.linked (asks : AsksToKeep s k) (linked : Linked Eq s t)
    (beside : Beside p q k k') : AsksToKeep t k' := by
  obtain ⟨u, passed, asks⟩ := asks
  obtain ⟨v, passed', linked'⟩ := handed_linked linked beside passed
  exact ⟨v, passed', asks.linked linked'⟩

theorem Invoked.linked (invoked : Invoked s k u ku) (linked : Linked Eq s t)
    (beside : Beside p q k k') :
    ∃ v kv, Invoked t k' v kv ∧ Linked Eq u v ∧ Beside p q ku kv := by
  induction invoked with
  | call => exact ⟨t, k', .call, linked, beside⟩
  | nested _ turn ih =>
      obtain ⟨v, kv, invoked', linked', beside'⟩ := ih
      have both := handleReadTurn_linked linked' beside'
      rw [turn] at both
      generalize second : handleReadTurn v kv = result at both
      cases both with
      | @ok _ b related =>
          obtain ⟨_, v', kv'⟩ := b
          obtain ⟨rfl, linked'', beside''⟩ := related
          exact ⟨v', kv', .nested invoked' second, linked'', beside''⟩

/-- The timeout that `HandleConn` chooses for a connection that goes on. -/
def timeoutOf (events : Mask) (keepAlive : Bool) : Nat :=
  if events ≠ 0#32 then (if keepAlive then kDefaultKeepAliveTime else kDefaultExpiredTime)
  else if keepAlive then kDefaultKeepAliveTime else kDefaultKeepAliveTime >>> 1

theorem timeoutOf_inj {events : Mask} {a b : Bool} :
    timeoutOf events a = timeoutOf events b ↔ a = b := by
  constructor
  · unfold timeoutOf
    by_cases asked : events ≠ 0#32
    · rw [if_pos asked, if_pos asked]
      cases a <;> cases b <;> decide
    · rw [if_neg asked, if_neg asked]
      cases a <;> cases b <;> decide
  · rintro rfl
    rfl

theorem handleConn_timeout {n : Nat} : s.handleConn.2 = .updatePoller n ↔
    s.error = false ∧ s.connectionState = .hConnected ∧ n = timeoutOf s.channel.events s.keepAlive := by
  by_cases going : s.error = false ∧ s.connectionState = .hConnected
  · obtain ⟨fine, connected⟩ := going
    have chosen : s.handleConn.2 = .updatePoller (timeoutOf s.channel.events s.keepAlive) := by
      simp only [handleConn, seperateTimer, fine, connected, decide_true, Bool.not_false,
        Bool.and_self, if_true, timeoutOf]
      split_ifs <;> rfl
    rw [chosen, LoopRequest.updatePoller.injEq]
    exact ⟨fun same => ⟨fine, connected, same.symm⟩, fun same => same.2.2.symm⟩
  · refine iff_of_false ?_ fun same => going ⟨same.1, same.2.1⟩
    have stops : s.error = true ∨ s.connectionState ≠ .hConnected := by
      by_cases fine : s.error = false
      · exact .inr fun connected => going ⟨fine, connected⟩
      · exact .inl (by simpa using fine)
    by_cases parks : s.Parks
    · rw [handleConn_parks parks]
      intro same
      cases same
    · rw [handleConn_closes ⟨parks, stops⟩]
      intro same
      cases same

theorem handleConn_keepAlive (s : HttpData) :
    (s.handleConn.1.granted s.handleConn.2).keepAlive = s.keepAlive := by
  unfold handleConn
  dsimp only
  split_ifs <;> rfl

theorem writePart_keepAlive (revents : Mask) (s : HttpData) (k : Kernel) :
    (writePart revents s k).1.keepAlive = s.keepAlive := by
  unfold writePart
  split_ifs
  · exact (handleWrite_flushed s k).keepAlive
  · rfl

end HttpData

namespace Session

variable {σ τ : Session} {e : Event} {es : List Event} {p q : Bytes}

/-- The timeout that `HandleConn` passes to `UpdatePoller` when the event is dispatched. -/
def timeout (σ : Session) (e : Event) : Option Nat :=
  match (σ.before e).handleEvents (σ.kernel e) with
  | .ok h =>
      match h.request with
      | .updatePoller timeout => some timeout
      | .none | .handleClose => none
  | .error _ => none

/-- One of the requests analysed for the events asks to keep the connection. -/
def AsksToKeep (σ : Session) : List Event → Prop
  | [] => False
  | e :: es => σ.Open ∧ ((∃ s k, CallsHandleRead σ e s k ∧ HttpData.AsksToKeep s k) ∨
      (σ.after e).AsksToKeep es)

theorem after_keepAlive (running : σ.Open) (fine : (σ.after e).crashed = none) :
    (σ.after e).http.keepAlive = true ↔
      σ.http.keepAlive = true ∨ ∃ s k, CallsHandleRead σ e s k ∧ HttpData.AsksToKeep s k := by
  rcases after_cases (σ := σ) (e := e) with
    ⟨hangUp, same⟩ | ⟨alive, ⟨fault, -, same⟩ | ⟨t, kt, read, same⟩⟩
  · have silent : ¬ ∃ s k, CallsHandleRead σ e s k ∧ HttpData.AsksToKeep s k := by
      rintro ⟨s, k, called, -⟩
      exact called.alive hangUp
    rw [same, or_iff_left silent]
    exact Iff.rfl
  · rw [same] at fine
    cases fine
  · rw [same]
    dsimp only
    rw [HttpData.handleConn_keepAlive, HttpData.writePart_keepAlive]
    rw [HttpData.readPart] at read
    split_ifs at read with readable
    · rw [HttpData.handleRead_keepAlive read]
      refine or_congr Iff.rfl ⟨?_, ?_⟩
      · rintro ⟨u, ku, invoked, asks⟩
        exact ⟨u, ku, ⟨running, alive, readable, invoked⟩, asks⟩
      · rintro ⟨u, ku, called, asks⟩
        exact ⟨u, ku, called.invoked, asks⟩
    · cases read
      have silent : ¬ ∃ s k, CallsHandleRead σ e s k ∧ HttpData.AsksToKeep s k := by
        rintro ⟨s, k, called, -⟩
        exact readable called.readable
      rw [or_iff_left silent]
      exact Iff.rfl

theorem replay_fine (ran : connection.replay σ es = some τ) (fine : τ.crashed = none) :
    σ.crashed = none := by
  cases es with
  | nil =>
      cases ran
      exact fine
  | cons e es =>
      obtain ⟨mid, moved, -⟩ := Option.bind_eq_some_iff.mp ran
      exact (step_some moved).1.1

theorem replay_keepAlive (ran : connection.replay σ es = some τ) (fine : τ.crashed = none) :
    τ.http.keepAlive = true ↔ σ.http.keepAlive = true ∨ σ.AsksToKeep es := by
  induction es generalizing σ with
  | nil =>
      cases ran
      exact (or_iff_left id).symm
  | cons e es ih =>
      obtain ⟨mid, moved, rest⟩ := Option.bind_eq_some_iff.mp ran
      obtain ⟨running, rfl⟩ := step_some moved
      rw [ih rest, after_keepAlive running (replay_fine rest fine), or_assoc]
      exact or_congr_right (and_iff_right running).symm

theorem Twin.symm (twin : Twin p q σ τ) : Twin q p τ σ where
  http revents := (twin.http revents).symm
  crashed := twin.crashed.symm
  sent := by
    obtain ⟨x, sent, sent'⟩ := twin.sent
    exact ⟨x, sent', sent⟩

theorem Twin.calls (twin : Twin p q σ τ) {s : HttpData} {k : Kernel}
    (called : CallsHandleRead σ e s k) :
    ∃ t kt, CallsHandleRead τ e t kt ∧ HttpData.Linked Eq s t ∧ HttpData.Beside p q k kt := by
  obtain ⟨t, kt, invoked, linked, beside⟩ := called.invoked.linked (twin.http e.revents) (twin.kernel e)
  exact ⟨t, kt, ⟨twin.open_iff.mp called.running, called.alive, called.readable, invoked⟩, linked,
    beside⟩

theorem Twin.asks (twin : Twin p q σ τ) (asks : σ.AsksToKeep es) : τ.AsksToKeep es := by
  induction es generalizing σ τ with
  | nil => exact asks
  | cons e es ih =>
      obtain ⟨running, asks⟩ := asks
      refine ⟨twin.open_iff.mp running, ?_⟩
      rcases asks with ⟨s, k, called, asks⟩ | later
      · obtain ⟨t, kt, called', linked, beside⟩ := twin.calls called
        exact .inl ⟨t, kt, called', asks.linked linked beside⟩
      · right
        refine ih ((twin.after e).2 ?_) later
        cases es with
        | nil => exact later.elim
        | cons => exact later.1.1

theorem Twin.asks_iff (twin : Twin p q σ τ) : σ.AsksToKeep es ↔ τ.AsksToKeep es :=
  ⟨twin.asks, twin.symm.asks⟩

theorem timeout_some {n : Nat} : σ.timeout e = some n ↔ ¬ HttpData.HangUp e.revents ∧
    ∃ t kt, HttpData.readPart e.revents (σ.before e) (σ.kernel e) = .ok (t, kt) ∧
      (HttpData.writePart e.revents t kt).1.handleConn.2 = .updatePoller n := by
  unfold timeout
  by_cases hangUp : HttpData.HangUp e.revents
  · rw [HttpData.handleEvents_hangUp (s := σ.before e) hangUp]
    exact iff_of_false (by simp) fun same => same.1 hangUp
  · have dispatch := HttpData.handleEvents_eq (s := σ.before e) (k := σ.kernel e) hangUp
    have handled : (σ.before e).handleEvents (σ.kernel e) =
        (HttpData.readPart e.revents (σ.before e) (σ.kernel e)).map fun r =>
          { http := (HttpData.writePart e.revents r.1 r.2).1.handleConn.1
            kernel := (HttpData.writePart e.revents r.1 r.2).2
            request := (HttpData.writePart e.revents r.1 r.2).1.handleConn.2 } := dispatch
    rw [handled]
    cases HttpData.readPart e.revents (σ.before e) (σ.kernel e) with
    | error fault => exact iff_of_false (by simp [Except.map]) fun same => by simp at same
    | ok result =>
        obtain ⟨t, kt⟩ := result
        dsimp only [Except.map]
        cases asked : (HttpData.writePart e.revents t kt).1.handleConn.2 <;> simp [asked, hangUp]

theorem after_ok (alive : ¬ HttpData.HangUp e.revents) {t : HttpData} {kt : Kernel}
    (read : HttpData.readPart e.revents (σ.before e) (σ.kernel e) = .ok (t, kt)) :
    (σ.after e).crashed = σ.crashed ∧
      (σ.after e).http.keepAlive = (HttpData.writePart e.revents t kt).1.keepAlive := by
  rcases after_cases (σ := σ) (e := e) with
    ⟨hangUp, -⟩ | ⟨-, ⟨fault, failed, -⟩ | ⟨t', kt', read', same⟩⟩
  · exact absurd hangUp alive
  · rw [read] at failed
    cases failed
  · rw [read] at read'
    cases read'
    rw [same]
    exact ⟨rfl, HttpData.handleConn_keepAlive _⟩

/-- Twins pass the same timeout if their flags are the same. -/
theorem Twin.timeout (twin : Twin p q σ τ) (running : σ.Open) {n : Nat}
    (passed : σ.timeout e = some n) : (σ.after e).crashed = none ∧ (τ.after e).crashed = none ∧
      (τ.timeout e = some n ↔ (τ.after e).http.keepAlive = (σ.after e).http.keepAlive) := by
  obtain ⟨alive, t, kt, read, asked⟩ := timeout_some.mp passed
  have both := HttpData.readPart_linked e.revents (twin.http e.revents) (twin.kernel e)
  have read_left : HttpData.readPart e.revents (σ.http.polled e.revents) (σ.kernel e) = .ok (t, kt) :=
    read
  rw [read_left] at both
  generalize read' : HttpData.readPart e.revents (τ.http.polled e.revents) (τ.kernel e) = second at both
  cases both with
  | @ok _ b related =>
      obtain ⟨t', kt'⟩ := b
      obtain ⟨linked, -⟩ := HttpData.writePart_linked e.revents related.1 related.2
      obtain ⟨crashed, flag⟩ := after_ok alive read
      obtain ⟨crashed', flag'⟩ := after_ok alive read'
      obtain ⟨fine, connected, rfl⟩ := HttpData.handleConn_timeout.mp asked
      refine ⟨crashed.trans running.1, crashed'.trans (twin.crashed.symm.trans running.1), ?_⟩
      rw [flag, flag', timeout_some]
      constructor
      · rintro ⟨-, u, ku, same, asked'⟩
        have same' : HttpData.readPart e.revents (τ.http.polled e.revents) (τ.kernel e) =
            .ok (u, ku) := same
        rw [read'] at same'
        cases same'
        have chosen := (HttpData.handleConn_timeout.mp asked').2.2
        rw [← linked.events] at chosen
        exact (HttpData.timeoutOf_inj.mp chosen).symm
      · intro same
        refine ⟨alive, t', kt', read', HttpData.handleConn_timeout.mpr
          ⟨linked.error.symm.trans fine, linked.connectionState.symm.trans connected, ?_⟩⟩
        rw [← linked.events, same]

/-- Requests delivered one after the other: each when the connection is idle again. -/
inductive Delivered (fd : Nat) : List (List Event) → Session → Prop where
  | start : Delivered fd [] (registered fd)
  | request {rs : List (List Event)} {σ τ : Session} {es : List Event} : Delivered fd rs σ →
      connection.replay σ es = some τ → τ.Idle → Delivered fd (rs ++ [es]) τ

variable {fd fd' : Nat} {rs : List (List Event)}

theorem Delivered.idle (delivered : Delivered fd rs σ) : σ.Idle := by
  cases delivered with
  | start => exact registered_idle fd
  | request _ _ idle => exact idle

theorem Delivered.keepAlive (delivered : Delivered fd rs σ) (fd' : Nat) :
    σ.http.keepAlive = true ↔ ∃ r ∈ rs, (registered fd').AsksToKeep r := by
  induction delivered with
  | start => exact iff_of_false nofun (by simp)
  | @request rs σ τ es before ran idle ih =>
      have fresh := before.idle.twin (registered_idle fd')
      rw [replay_keepAlive ran idle.crashed, ih, fresh.asks_iff]
      simp

theorem replay_concat (ran : connection.replay σ es = some τ) (running : τ.Open) :
    connection.replay σ (es ++ [e]) = some (τ.after e) := by
  have moved : connection.step τ e = some (τ.after e) := if_pos running
  rw [System.replay_append, ran, Option.bind_some]
  exact Option.bind_eq_some_iff.mpr ⟨_, moved, rfl⟩

theorem Twin.replay (twin : Twin p q σ τ) {σ' : Session} (ran : connection.replay σ es = some σ')
    (fine : σ'.crashed = none) : ∃ τ', connection.replay τ es = some τ' ∧ Twin p q σ' τ' := by
  induction es generalizing σ τ with
  | nil =>
      cases ran
      exact ⟨τ, rfl, twin⟩
  | cons e es ih =>
      obtain ⟨mid, moved, rest⟩ := Option.bind_eq_some_iff.mp ran
      obtain ⟨running, rfl⟩ := step_some moved
      obtain ⟨τ', ran', twin'⟩ := ih ((twin.after e).2 (replay_fine rest fine)) rest
      have moved' : connection.step τ e = some (τ.after e) := if_pos (twin.open_iff.mp running)
      exact ⟨τ', Option.bind_eq_some_iff.mpr ⟨_, moved', ran'⟩, twin'⟩

/-- What `HandleConn` passes after the last request is what it passes on a fresh connection, if that
    request asks to keep the connection or no earlier one does. -/
theorem keepAlive_per_request_iff (delivered : Delivered fd rs σ)
    (ran : connection.replay σ es = some τ) (running : τ.Open) {n : Nat}
    (passed : τ.timeout e = some n) :
    ∃ φ, connection.replay (registered fd') es = some φ ∧
      (φ.timeout e = some n ↔
        (∀ r ∈ rs, ¬ (registered fd').AsksToKeep r) ∨ (registered fd').AsksToKeep (es ++ [e])) := by
  have twin := delivered.idle.twin (registered_idle fd')
  obtain ⟨φ, ran', twin'⟩ := twin.replay ran running.1
  obtain ⟨fine, fine', same⟩ := twin'.timeout running passed
  have flag := replay_keepAlive (replay_concat ran running) fine
  have flag' := replay_keepAlive (replay_concat ran' (twin'.open_iff.mp running)) fine'
  have unset : ¬ (registered fd').http.keepAlive = true := nofun
  have none_asks : (∀ r ∈ rs, ¬ (registered fd').AsksToKeep r) ↔
      ¬ ∃ r ∈ rs, (registered fd').AsksToKeep r := by simp
  rw [delivered.keepAlive fd', twin.asks_iff] at flag
  rw [or_iff_right unset] at flag'
  refine ⟨φ, ran', ?_⟩
  rw [same, Bool.eq_iff_iff, flag, flag', none_asks, iff_or_self, imp_iff_not_or]

/-- A `HEAD` request that does not ask to keep the connection. -/
def plainRequest : Event where
  revents := EPOLLIN
  reads := [.ok (text "HEAD /hello HTTP/1.0\r\nA: b\r\n\r\n"), .eagain]
  writes := []
  files := fun _ _ => .missing

theorem headRequest_delivered : Delivered 5 [[headRequest]] ((registered 5).after headRequest) := by
  have untouched : connection.replay (registered 5) [] = some (registered 5) := rfl
  exact .request .start (replay_concat untouched (by decide)) (headRequest_finished.idle headRequest_reached)

theorem keepAlive_per_request_plain :
    ∃ φ, connection.replay (registered 6) [] = some φ ∧
      (φ.timeout plainRequest = some kDefaultKeepAliveTime ↔
        (∀ r ∈ [[headRequest]], ¬ (registered 6).AsksToKeep r) ∨
          (registered 6).AsksToKeep [plainRequest]) :=
  keepAlive_per_request_iff headRequest_delivered rfl (by decide +kernel) (by decide +kernel)

/-- The plain request is kept as long as the one before it asked for. -/
theorem keepAlive_inherited :
    Delivered 5 [[headRequest]] ((registered 5).after headRequest) ∧
      ((registered 5).after headRequest).timeout plainRequest = some 300000 ∧
      (registered 5).timeout plainRequest = some 150000 :=
  ⟨headRequest_delivered, by decide +kernel, by decide +kernel⟩

end Session

end WebServer
