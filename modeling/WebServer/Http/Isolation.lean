import WebServer.Http.Alike
import WebServer.Http.Standing

/-! # What an earlier request leaves behind

`Reset` keeps the method, the version, `keep_alive_`, the masks of the channel and whatever the event
loop knows. Two connections that differ only in these write the same bytes from then on: the method is
set before it is read, and nothing that is written depends on the others.
-/

namespace WebServer

open Lib

namespace HttpData

variable {s t : HttpData} {k k' : Kernel} {p q : Bytes}

theorem Alike.setEvents (alike : Alike Eq s t) (events : Mask) :
    Alike Eq (s.setEvents events) (t.setEvents events) := { alike with events := rfl }

theorem Alike.addEvents (alike : Alike Eq s t) (flag : Mask) :
    Alike Eq (s.addEvents flag) (t.addEvents flag) :=
  { alike with events := congrArg (· ||| flag) alike.events }

theorem writeN_beside (beside : Beside p q k k') (buff : Bytes) :
    (writeN k buff).1 = (writeN k' buff).1 ∧ (writeN k buff).2.1 = (writeN k' buff).2.1 ∧
      Beside p q (writeN k buff).2.2 (writeN k' buff).2.2 := by
  obtain ⟨written, beside⟩ := beside.write buff
  unfold writeN
  dsimp only
  rw [← written]
  cases (k.write buff).1.stop with
  | failed => exact ⟨rfl, rfl, beside⟩
  | complete | again =>
      dsimp only
      split_ifs <;> exact ⟨rfl, rfl, beside⟩

theorem handleWrite_alike (alike : Alike Eq s t) (beside : Beside p q k k') :
    Alike Eq (handleWrite s k).1 (handleWrite t k').1 ∧
      Beside p q (handleWrite s k).2 (handleWrite t k').2 := by
  obtain ⟨count, left, beside'⟩ := writeN_beside beside s.outBuffer
  have asked : ∀ {u v : HttpData}, Alike Eq u v →
      Alike Eq (if u.outBuffer.length > 0 then u.addEvents EPOLLOUT else u)
        (if v.outBuffer.length > 0 then v.addEvents EPOLLOUT else v) := by
    intro u v alike
    rw [← alike.outBuffer]
    split_ifs
    · exact alike.addEvents EPOLLOUT
    · exact alike
  unfold handleWrite
  rw [← alike.error, ← alike.connectionState, ← alike.outBuffer]
  split_ifs
  · dsimp only
    rw [← count, ← left]
    refine ⟨asked ?_, beside'⟩
    split_ifs
    · exact { alike with events := rfl, outBuffer := rfl, error := rfl, connectionState := rfl }
    · exact { alike with outBuffer := rfl, error := rfl, connectionState := rfl }
  · exact ⟨alike, beside⟩

theorem handleWrite_request (s : HttpData) (k : Kernel) :
    (handleWrite s k).1.state = s.state ∧ (handleWrite s k).1.method = s.method := by
  unfold handleWrite
  dsimp only
  split_ifs <;> exact ⟨rfl, rfl⟩

theorem handleWrite_linked (linked : Linked Eq s t) (beside : Beside p q k k') :
    Linked Eq (handleWrite s k).1 (handleWrite t k').1 ∧
      Beside p q (handleWrite s k).2 (handleWrite t k').2 := by
  obtain ⟨alike, beside'⟩ := handleWrite_alike linked.toAlike beside
  obtain ⟨state, method⟩ := handleWrite_request s k
  refine ⟨⟨alike, fun parsed => ?_⟩, beside'⟩
  rw [state] at parsed
  rw [method, (handleWrite_request t k').2]
  exact linked.method parsed

theorem receive_linked (linked : Linked Eq s t) (beside : Beside p q k k') :
    Both (StageLinked Eq p q) (receive s k) (receive t k') := by
  unfold receive
  rw [← beside.reads, ← linked.inBuffer, ← linked.connectionState]
  dsimp only
  have read : Beside p q { k with reads := (readN k.reads 0 s.inBuffer).rest }
      { k' with reads := (readN k.reads 0 s.inBuffer).rest } := { beside with reads := rfl }
  have filled : ∀ inBuffer connectionState,
      Linked Eq { s with inBuffer, connectionState } { t with inBuffer, connectionState } :=
    fun _ _ => { linked with inBuffer := rfl, connectionState := rfl }
  split_ifs
  · exact .ok ⟨filled _ _, read⟩
  · obtain ⟨alike, beside⟩ := badRequest_alike (text "Bad Request")
      (filled (readN k.reads 0 s.inBuffer).inBuffer s.connectionState).toAlike read
    exact .ok ⟨⟨alike, linked.method⟩, beside⟩
  · exact .ok ⟨filled _ _, read⟩
  · exact uriStage_linked (filled _ _) read
  · exact uriStage_linked (filled _ _) read

/-- What one invocation makes of connections that are alike. -/
def TurnLinked (p q : Bytes) (a b : Bool × HttpData × Kernel) : Prop :=
  a.1 = b.1 ∧ Linked Eq a.2.1 b.2.1 ∧ Beside p q a.2.2 b.2.2

theorem Alike.reset (alike : Alike Eq s t) : Linked Eq s.reset t.reset :=
  ⟨{ alike with fileName := rfl, nowReadPos := rfl, state := rfl, hState := rfl, headers := rfl },
    fun parsed => absurd rfl parsed⟩

theorem settle_linked (linked : Linked Eq s t) (beside : Beside p q k k') :
    TurnLinked p q (settle s k) (settle t k') := by
  have flushed : Linked Eq (flush s k).1 (flush t k').1 ∧ Beside p q (flush s k).2 (flush t k').2 := by
    unfold flush
    rw [← linked.outBuffer]
    split_ifs
    · exact handleWrite_linked linked beside
    · exact ⟨linked, beside⟩
  unfold settle
  rw [← linked.error]
  split_ifs
  · exact ⟨rfl, linked, beside⟩
  · obtain ⟨linked, beside⟩ := flushed
    dsimp only
    rw [← linked.error, ← linked.state, ← linked.connectionState]
    split_ifs
    · have reset := linked.reset
      refine ⟨?_, reset, beside⟩
      dsimp only
      rw [reset.inBuffer, reset.connectionState]
    · exact ⟨rfl, ⟨linked.addEvents EPOLLIN, linked.method⟩, beside⟩
    · exact ⟨rfl, linked, beside⟩

theorem handleReadTurn_linked (linked : Linked Eq s t) (beside : Beside p q k k') :
    Both (TurnLinked p q) (handleReadTurn s k) (handleReadTurn t k') :=
  (receive_linked linked beside).map fun _ _ ⟨linked, beside⟩ => settle_linked linked beside

theorem handleReadTo_linked (depth : Nat) (linked : Linked Eq s t) (beside : Beside p q k k') :
    Both (StageLinked Eq p q) (handleReadTo depth s k) (handleReadTo depth t k') := by
  induction depth generalizing s t k k' with
  | zero => exact .ok ⟨linked, beside⟩
  | succ depth ih =>
      unfold handleReadTo
      apply (handleReadTurn_linked linked beside).bind
      rintro ⟨again, u, ku⟩ ⟨_, v, kv⟩ ⟨rfl, linked, beside⟩
      dsimp only
      split_ifs
      · exact ih linked beside
      · exact .ok ⟨linked, beside⟩

theorem depthBound_linked (linked : Linked Eq s t) (beside : Beside p q k k') :
    depthBound s k = depthBound t k' := by
  unfold depthBound Kernel.incoming
  rw [linked.inBuffer, linked.state, linked.hState, beside.reads]

theorem handleRead_linked (linked : Linked Eq s t) (beside : Beside p q k k') :
    Both (StageLinked Eq p q) (handleRead s k) (handleRead t k') := by
  unfold handleRead
  rw [← depthBound_linked linked beside]
  exact handleReadTo_linked _ linked beside

/-- The bytes that the socket has accepted when `HandleRead`, with at most `depth` nested invocations,
    returns or faults. No invocation writes before it faults. -/
def acceptedTo : (depth : Nat) → HttpData → Kernel → Bytes
  | 0, _, k => k.sent
  | depth + 1, s, k =>
      match handleReadTurn s k with
      | .error _ => k.sent
      | .ok (again, s, k) => if again then acceptedTo depth s k else k.sent

/-- The bytes that the socket has accepted when `HandleRead` returns or faults. -/
def accepted (s : HttpData) (k : Kernel) : Bytes := acceptedTo (depthBound s k) s k

theorem acceptedTo_stable {depth : Nat} (enough : depthBound s k ≤ depth) :
    acceptedTo depth s k = accepted s k := by
  have any : ∀ fuel depth s k, depthBound s k ≤ fuel → depthBound s k ≤ depth →
      acceptedTo fuel s k = acceptedTo depth s k := by
    intro fuel
    induction fuel with
    | zero => intro depth s k enough; simp [depthBound] at enough
    | succ fuel ih =>
        intro depth s k small large
        cases depth with
        | zero => simp [depthBound] at large
        | succ depth =>
            unfold acceptedTo
            cases turn : handleReadTurn s k with
            | error e => rfl
            | ok next =>
                obtain ⟨again, t, kt⟩ := next
                cases again with
                | false => rfl
                | true =>
                    have less := handleReadTurn_again turn
                    exact ih depth t kt (by omega) (by omega)
  exact any depth _ s k enough le_rfl

/-- An invocation that throws has written nothing, one that calls itself leaves the rest to that
    call. -/
theorem accepted_eq (s : HttpData) (k : Kernel) : accepted s k =
    match handleReadTurn s k with
    | .error _ => k.sent
    | .ok (again, s', k') => if again then accepted s' k' else k'.sent := by
  have unfolded : accepted s k = acceptedTo (depthBound s k - 1 + 1) s k := rfl
  rw [unfolded, acceptedTo]
  cases turn : handleReadTurn s k with
  | error e => rfl
  | ok next =>
      obtain ⟨again, t, kt⟩ := next
      cases again with
      | false => rfl
      | true =>
          have less := handleReadTurn_again turn
          exact acceptedTo_stable (Nat.le_sub_one_of_lt less)

theorem accepted_linked (linked : Linked Eq s t) (beside : Beside p q k k') :
    ∃ x, accepted s k = p ++ x ∧ accepted t k' = q ++ x := by
  have bounded : ∀ (depth : Nat) {s t : HttpData} {k k' : Kernel}, Linked Eq s t → Beside p q k k' →
      ∃ x, acceptedTo depth s k = p ++ x ∧ acceptedTo depth t k' = q ++ x := by
    intro depth
    induction depth with
    | zero => exact fun _ beside => beside.sent
    | succ depth ih =>
        intro s t k k' linked beside
        have turns := handleReadTurn_linked linked beside
        unfold acceptedTo
        generalize handleReadTurn s k = first at turns
        generalize handleReadTurn t k' = second at turns
        cases turns with
        | error e => exact beside.sent
        | @ok a b related =>
            obtain ⟨again, u, ku⟩ := a
            obtain ⟨_, v, kv⟩ := b
            obtain ⟨rfl, linked, beside⟩ := related
            dsimp only
            split_ifs
            · exact ih linked beside
            · exact beside.sent
  unfold accepted
  rw [← depthBound_linked linked beside]
  exact bounded _ linked beside

/-- The timeouts may differ, with `keep_alive_`, but nothing else does. -/
theorem handleConn_alike (alike : Alike Eq s t) :
    Alike Eq (s.handleConn.1.granted s.handleConn.2) (t.handleConn.1.granted t.handleConn.2) := by
  have updated : ∀ {u v : HttpData} {m n : Nat}, Alike Eq u v →
      Alike Eq (u.granted (.updatePoller m)) (v.granted (.updatePoller n)) :=
    fun alike => { alike with }
  have separate : Alike Eq s.seperateTimer t.seperateTimer := { alike with }
  have watching : Alike Eq (s.seperateTimer.addEvents (EPOLLIN ||| EPOLLET))
      (t.seperateTimer.addEvents (EPOLLIN ||| EPOLLET)) := separate.addEvents _
  unfold handleConn
  dsimp only
  rw [← separate.error, ← separate.connectionState, ← separate.events]
  by_cases connected :
      (!s.seperateTimer.error && s.seperateTimer.connectionState = .hConnected) = true
  · rw [if_pos connected, if_pos connected]
    by_cases asked : s.seperateTimer.channel.events ≠ 0#32
    · rw [if_pos asked, if_pos asked]
      refine updated (Alike.addEvents ?_ EPOLLET)
      split_ifs
      · exact (separate.setEvents 0#32).addEvents EPOLLOUT
      · exact separate
    · rw [if_neg asked, if_neg asked]
      split_ifs <;> exact updated watching
  · rw [if_neg connected, if_neg connected]
    split_ifs
    · exact separate.setEvents _
    · exact { separate with connectionState := rfl }

theorem handleConn_request (s : HttpData) :
    (s.handleConn.1.granted s.handleConn.2).state = s.state ∧
      (s.handleConn.1.granted s.handleConn.2).method = s.method := by
  unfold handleConn
  dsimp only
  split_ifs <;> exact ⟨rfl, rfl⟩

theorem handleConn_linked (linked : Linked Eq s t) :
    Linked Eq (s.handleConn.1.granted s.handleConn.2) (t.handleConn.1.granted t.handleConn.2) := by
  obtain ⟨state, method⟩ := handleConn_request s
  refine ⟨handleConn_alike linked.toAlike, fun parsed => ?_⟩
  rw [state] at parsed
  rw [method, (handleConn_request t).2]
  exact linked.method parsed

theorem readPart_linked (revents : Mask) (linked : Linked Eq s t) (beside : Beside p q k k') :
    Both (StageLinked Eq p q) (readPart revents s k) (readPart revents t k') := by
  unfold readPart
  split_ifs
  · exact handleRead_linked linked beside
  · exact .ok ⟨linked, beside⟩

theorem writePart_linked (revents : Mask) (linked : Linked Eq s t) (beside : Beside p q k k') :
    StageLinked Eq p q (writePart revents s k) (writePart revents t k') := by
  unfold writePart
  split_ifs
  · exact handleWrite_linked linked beside
  · exact ⟨linked, beside⟩

theorem Linked.refl (s : HttpData) : Linked Eq s s :=
  ⟨⟨rfl, rfl, rfl, rfl, rfl, rfl, rfl, rfl, rfl, rfl⟩, fun _ => rfl⟩

theorem Beside.refl (k : Kernel) : Beside k.sent k.sent k k :=
  ⟨rfl, rfl, rfl, rfl, ⟨[], (List.append_nil _).symm, (List.append_nil _).symm⟩⟩

theorem accepted_extends (s : HttpData) (k : Kernel) : ∃ x, accepted s k = k.sent ++ x := by
  obtain ⟨x, sent, -⟩ := accepted_linked (Linked.refl s) (Beside.refl k)
  exact ⟨x, sent⟩

end HttpData

/-- While a request line is awaited, nothing of a request is kept. -/
def Standing.Untouched (v : Standing) : Prop := v.state = .stateParseUri → v.Awaits

theorem Standing.Awaits.untouched {v : Standing} (awaits : v.Awaits) : v.Untouched := fun _ => awaits

namespace HttpData

/-- The stages have given the request up or are past its line. -/
def Past (s : HttpData) : Prop := s.error = true ∨ s.state ≠ .stateParseUri

variable {s s' : HttpData} {k k' : Kernel}

theorem analysisStage_past (past : s.state ≠ .stateParseUri)
    (ran : analysisStage s k = .ok (s', k')) : s'.Past := by
  simp only [analysisStage, bind, Except.bind] at ran
  split at ran
  · split at ran
    · cases ran
    · rename_i answer _
      obtain ⟨flag, t, kt⟩ := answer
      cases flag with
      | analysisSuccess =>
          cases ran
          exact .inr ProcessState.noConfusion
      | analysisError =>
          cases ran
          exact .inl rfl
  · cases ran
    exact .inr past

theorem bodyStage_past (past : s.state ≠ .stateParseUri) (ran : bodyStage s k = .ok (s', k')) :
    s'.Past := by
  simp only [bodyStage, bind, Except.bind] at ran
  split at ran
  · split at ran
    · cases ran
      exact .inl rfl
    · split at ran
      · cases ran
      · split_ifs at ran
        · cases ran
          exact .inr past
        · exact analysisStage_past ProcessState.noConfusion ran
  · exact analysisStage_past past ran

theorem headerStage_past (past : s.state ≠ .stateParseUri) (ran : headerStage s k = .ok (s', k')) :
    s'.Past := by
  simp only [headerStage, bind, Except.bind] at ran
  split at ran
  · split at ran
    · cases ran
    · rename_i result parsed
      obtain ⟨flag, t⟩ := result
      obtain ⟨-, -, b, h, m, rfl⟩ := parseHeaders_frame parsed
      cases flag with
      | parseHeaderAgain =>
          cases ran
          exact .inr past
      | parseHeaderError =>
          cases ran
          exact .inl rfl
      | parseHeaderSuccess =>
          dsimp only at ran
          split_ifs at ran
          · exact bodyStage_past ProcessState.noConfusion ran
          · exact bodyStage_past ProcessState.noConfusion ran
  · exact bodyStage_past past ran

/-- `ParseURI` either rejects its line or leaves `STATE_PARSE_URI` behind, and no later stage comes
    back to it. -/
theorem uriStage_past (ran : uriStage s k = .ok (s', k')) : s'.Past := by
  simp only [uriStage, bind, Except.bind] at ran
  split at ran
  · split at ran
    · cases ran
    · rename_i result parsed
      obtain ⟨flag, t⟩ := result
      cases flag with
      | parseUriAgain => exact absurd rfl (parseURI_decides parsed)
      | parseUriError =>
          cases ran
          exact .inl rfl
      | parseUriSuccess => exact headerStage_past ProcessState.noConfusion ran
  · rename_i past
    exact headerStage_past past ran

theorem keeps_untouched (u : HttpData) : u.Keeps Standing.Untouched := by
  intro _ k t kt ran
  rcases uriStage_past ran with failed | past
  · exact .inl failed
  · exact .inr (.inr fun awaiting => absurd awaiting past)

end HttpData

namespace Session

/-- The bytes that the peer has been sent when the events were dispatched; a connection that is
    closed, or whose handler faulted, gets none of the rest. -/
def transcript (σ : Session) : List Event → Bytes
  | [] => σ.sent
  | e :: es =>
      if σ.Open then
        if (σ.after e).crashed = none then transcript (σ.after e) es
        else HttpData.accepted (σ.before e) (σ.kernel e)
      else σ.sent

/-- The bytes written while the events are dispatched. -/
def written (σ : Session) (es : List Event) : Bytes := (σ.transcript es).drop σ.sent.length

/-- The last request is finished and nothing is left of it or of the output. -/
structure Idle (σ : Session) : Prop where
  crashed : σ.crashed = none
  connectionState : σ.http.connectionState = .hConnected
  error : σ.http.error = false
  inBuffer : σ.http.inBuffer = []
  outBuffer : σ.http.outBuffer = []
  state : σ.http.state = .stateParseUri
  hState : σ.http.hState = .hStart
  headers : σ.http.headers = fun _ => none
  fileName : σ.http.fileName = []
  nowReadPos : σ.http.nowReadPos = 0

theorem registered_idle (fd : Nat) : (registered fd).Idle :=
  ⟨rfl, rfl, rfl, rfl, rfl, rfl, rfl, rfl, rfl, rfl⟩

/-- Two sessions that go on alike, whatever is reported next. -/
structure Twin (p q : Bytes) (σ τ : Session) : Prop where
  http : ∀ revents, HttpData.Linked Eq (σ.http.polled revents) (τ.http.polled revents)
  crashed : σ.crashed = τ.crashed
  sent : ∃ x, σ.sent = p ++ x ∧ τ.sent = q ++ x

variable {σ τ : Session} {e : Event} {p q : Bytes}

theorem Idle.twin (idle : σ.Idle) (idle' : τ.Idle) : Twin σ.sent τ.sent σ τ where
  http _ :=
    { events := rfl
      inBuffer := idle.inBuffer.trans idle'.inBuffer.symm
      outBuffer := idle.outBuffer.trans idle'.outBuffer.symm
      error := idle.error.trans idle'.error.symm
      connectionState := idle.connectionState.trans idle'.connectionState.symm
      fileName := idle.fileName.trans idle'.fileName.symm
      nowReadPos := idle.nowReadPos.trans idle'.nowReadPos.symm
      state := idle.state.trans idle'.state.symm
      hState := idle.hState.trans idle'.hState.symm
      headers := idle.headers.trans idle'.headers.symm
      method := fun parsed => absurd idle.state parsed }
  crashed := idle.crashed.trans idle'.crashed.symm
  sent := ⟨[], by simp, by simp⟩

theorem Twin.open_iff (twin : Twin p q σ τ) : σ.Open ↔ τ.Open := by
  have connectionState : σ.http.connectionState = τ.http.connectionState :=
    (twin.http 0#32).connectionState
  unfold Open
  rw [twin.crashed, connectionState]

theorem Twin.kernel (twin : Twin p q σ τ) (e : Event) :
    HttpData.Beside p q (σ.kernel e) (τ.kernel e) := ⟨rfl, rfl, rfl, rfl, twin.sent⟩

theorem polled_linked {s t : HttpData} (linked : HttpData.Linked Eq s t) (revents : Mask) :
    HttpData.Linked Eq (s.polled revents) (t.polled revents) := { linked with events := rfl }

/-- Either a handler faults in both sessions or both go on alike. -/
theorem Twin.after (twin : Twin p q σ τ) (e : Event) :
    (σ.after e).crashed = (τ.after e).crashed ∧
      ((σ.after e).crashed = none → Twin p q (σ.after e) (τ.after e)) := by
  have linked : HttpData.Linked Eq (σ.before e) (τ.before e) := twin.http e.revents
  obtain ⟨hangUp, ended⟩ | ⟨alive, handled⟩ := after_cases (σ := σ) (e := e)
  · obtain ⟨-, ended'⟩ | ⟨alive, -⟩ := after_cases (σ := τ) (e := e)
    · rw [ended, ended']
      exact ⟨twin.crashed, fun _ =>
        ⟨polled_linked { linked with events := rfl }, twin.crashed, twin.sent⟩⟩
    · exact absurd hangUp alive
  · obtain ⟨hangUp, -⟩ | ⟨-, handled'⟩ := after_cases (σ := τ) (e := e)
    · exact absurd hangUp alive
    · have read := HttpData.readPart_linked e.revents linked (twin.kernel e)
      obtain ⟨fault, failed, ended⟩ | ⟨t, kt, done, ended⟩ := handled
      · obtain ⟨fault', failed', ended'⟩ | ⟨t', kt', done', -⟩ := handled'
        · rw [failed, failed'] at read
          cases read
          rw [ended, ended']
          exact ⟨rfl, fun fine => by simp at fine⟩
        · rw [failed, done'] at read
          cases read
      · obtain ⟨fault', failed', -⟩ | ⟨t', kt', done', ended'⟩ := handled'
        · rw [done, failed'] at read
          cases read
        · rw [done, done'] at read
          cases read with
          | ok related =>
              obtain ⟨wrote, beside⟩ := HttpData.writePart_linked e.revents related.1 related.2
              rw [ended, ended']
              exact ⟨twin.crashed, fun _ =>
                ⟨polled_linked (HttpData.handleConn_linked wrote), twin.crashed, beside.sent⟩⟩

theorem Twin.transcript (twin : Twin p q σ τ) (es : List Event) :
    ∃ x, σ.transcript es = p ++ x ∧ τ.transcript es = q ++ x := by
  induction es generalizing σ τ with
  | nil => exact twin.sent
  | cons e es ih =>
      obtain ⟨crashed, next⟩ := twin.after e
      unfold Session.transcript
      rw [← crashed]
      by_cases running : σ.Open
      · rw [if_pos running, if_pos (twin.open_iff.mp running)]
        by_cases fine : (σ.after e).crashed = none
        · rw [if_pos fine, if_pos fine]
          exact ih (next fine)
        · rw [if_neg fine, if_neg fine]
          exact HttpData.accepted_linked (twin.http e.revents) (twin.kernel e)
      · rw [if_neg running, if_neg (mt twin.open_iff.mpr running)]
        exact twin.sent

theorem Idle.written (idle : σ.Idle) (idle' : τ.Idle) (es : List Event) :
    σ.written es = τ.written es := by
  obtain ⟨x, wrote, wrote'⟩ := (idle.twin idle').transcript es
  unfold Session.written
  rw [wrote, wrote', List.drop_left, List.drop_left]

/-- The last request is finished and nothing is left to parse or to send. -/
structure Finished (σ : Session) : Prop where
  crashed : σ.crashed = none
  connectionState : σ.http.connectionState = .hConnected
  error : σ.http.error = false
  inBuffer : σ.http.inBuffer = []
  outBuffer : σ.http.outBuffer = []
  state : σ.http.state = .stateParseUri

theorem Finished.idle (finished : σ.Finished) (reached : connection.Reachable σ) : σ.Idle := by
  have running : σ.Open := ⟨finished.crashed, by simp [finished.connectionState]⟩
  have untouched := (standing_run (fun _ => Standing.Awaits.untouched)
    (fun _ _ _ _ _ _ u _ => HttpData.keeps_untouched u) reached running).2
  have awaits := untouched finished.state
  exact ⟨finished.crashed, finished.connectionState, finished.error, finished.inBuffer,
    finished.outBuffer, finished.state, awaits.hState, awaits.headers, awaits.fileName,
    awaits.nowReadPos⟩

/-- Whatever requests were finished before, a connection goes on like every other one and like a
    fresh one. -/
theorem requests_isolated (fd : Nat) (reached : connection.Reachable σ) (finished : σ.Finished)
    (reached' : connection.Reachable τ) (finished' : τ.Finished) (es : List Event) :
    σ.written es = τ.written es ∧ σ.written es = (registered fd).written es := by
  have idle := finished.idle reached
  exact ⟨idle.written (finished'.idle reached') es, idle.written (registered_idle fd) es⟩

/-- A `HEAD` request that asks to keep the connection. -/
def headRequest : Event where
  revents := EPOLLIN
  reads := [.ok (text "HEAD /hello HTTP/1.0\r\nConnection: Keep-Alive\r\n\r\n"), .eagain]
  writes := []
  files := fun _ _ => .missing

/-- A `GET` request behind it. -/
def getRequest : Event where
  revents := EPOLLIN
  reads := [.ok (text "GET /favicon.ico HTTP/1.1\r\nA: b\r\n\r\n"), .eagain]
  writes := []
  files := fun _ _ => .missing

theorem headRequest_reached : connection.Reachable ((registered 5).after headRequest) :=
  connection_after (.init ⟨5, rfl⟩) trivial (by decide)

theorem headRequest_finished : ((registered 5).after headRequest).Finished :=
  ⟨by decide +kernel, by decide +kernel, by decide +kernel, by decide +kernel, by decide +kernel,
    by decide +kernel⟩

theorem getRequest_reached :
    connection.Reachable (((registered 5).after headRequest).after getRequest) :=
  connection_after headRequest_reached trivial ⟨headRequest_finished.crashed, by decide +kernel⟩

theorem getRequest_finished : (((registered 5).after headRequest).after getRequest).Finished :=
  ⟨by decide +kernel, by decide +kernel, by decide +kernel, by decide +kernel, by decide +kernel,
    by decide +kernel⟩

theorem requests_isolated_head :
    ((registered 5).after headRequest).http.method ≠
        (((registered 5).after headRequest).after getRequest).http.method ∧
      ((registered 5).after headRequest).http.keepAlive ≠ (registered 6).http.keepAlive ∧
      ((registered 5).after headRequest).written [headRequest] =
        (((registered 5).after headRequest).after getRequest).written [headRequest] ∧
      ((registered 5).after headRequest).written [headRequest] =
        (registered 6).written [headRequest] :=
  ⟨by decide +kernel, by decide +kernel,
    requests_isolated 6 headRequest_reached headRequest_finished getRequest_reached
      getRequest_finished [headRequest]⟩

end Session

end WebServer
