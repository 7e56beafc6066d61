import WebServer.Http.Escape
import WebServer.Http.Standing

/-! # The recursion of `HandleRead`

A call that nests another one has finished a request, and no request is finished without a byte of
the buffer: `ParseHeaders` is never entered in `H_END_LF`, and a request that waits for its body is a
`POST`, which `AnalysisRequest` never finishes. So the buffer shrinks from call to call, and a call
nests fewer calls than the connection has received bytes.
-/

namespace WebServer

open Lib

/-- How far a request can be read between two calls. -/
def Standing.Underway (v : Standing) : Prop :=
  match v.state with
  | .stateParseUri => v.hState = .hStart
  | .stateParseHeaders => v.hState ≠ .hEndLf
  | .stateRecvBody => v.method = .methodPost
  | .stateAnalysis | .stateFinish => False

theorem Standing.Awaits.underway {v : Standing} (awaits : v.Awaits) : v.Underway := by
  unfold Standing.Underway
  rw [awaits.state]
  exact awaits.hState

namespace HttpData

variable {s s' t u : HttpData} {k k' kt : Kernel}

/-- A request ends in the error path, or is finished and took a byte off the buffer of `s`, or is
    still underway. -/
def Progress (s s' : HttpData) : Prop :=
  s'.error = true ∨ (s'.state = .stateFinish ∧ s'.inBuffer.length < s.inBuffer.length) ∨
    s'.standing.Underway

theorem analysisStage_progress (shorter : s.inBuffer.length < u.inBuffer.length)
    (analysing : s.state = .stateAnalysis) (ran : analysisStage s k = .ok (s', k')) :
    Progress u s' := by
  simp only [analysisStage, analysing, if_true, bind, Except.bind] at ran
  split at ran
  · cases ran
  · rename_i answer answered
    obtain ⟨flag, t, kt⟩ := answer
    have replied := analysisRequest_replied answered
    cases flag with
    | analysisSuccess =>
        cases ran
        refine .inr (.inl ⟨rfl, ?_⟩)
        rw [← replied.inBuffer] at shorter
        exact shorter
    | analysisError =>
        cases ran
        exact .inl rfl

theorem bodyStage_progress (receiving : s.state = .stateRecvBody) (post : s.method = .methodPost)
    (ran : bodyStage s k = .ok (s', k')) : Progress u s' := by
  simp only [bodyStage, receiving, if_true, bind, Except.bind] at ran
  split at ran
  · cases ran
    exact .inl rfl
  · split at ran
    · cases ran
    · split_ifs at ran
      · cases ran
        refine .inr (.inr ?_)
        simp only [Standing.Underway, standing, receiving]
        exact post
      · rw [analysisStage_post (s := { s with state := .stateAnalysis }) rfl post] at ran
        cases ran
        exact .inl rfl

theorem headerStage_progress (shorter : s.inBuffer.length ≤ u.inBuffer.length)
    (parsing : s.state = .stateParseHeaders) (open_ : s.hState ≠ .hEndLf)
    (ran : headerStage s k = .ok (s', k')) : Progress u s' := by
  simp only [headerStage, parsing, if_true, bind, Except.bind] at ran
  split at ran
  · cases ran
  · rename_i result parsed
    obtain ⟨flag, t⟩ := result
    obtain ⟨-, consumed, b, h, m, same⟩ := parseHeaders_frame parsed
    cases flag with
    | parseHeaderAgain =>
        cases ran
        have unfinished := parseHeaders_unfinished parsed
        have state : t.state = .stateParseHeaders := by rw [same, parsing]
        refine .inr (.inr ?_)
        simp only [Standing.Underway, standing, state]
        exact unfinished
    | parseHeaderError =>
        cases ran
        exact .inl rfl
    | parseHeaderSuccess =>
        dsimp only at ran
        split_ifs at ran with post
        · exact bodyStage_progress (s := { t with state := .stateRecvBody }) rfl post ran
        · exact analysisStage_progress (s := { t with state := .stateAnalysis })
            ((consumed rfl open_).trans_le shorter) rfl (by simpa [bodyStage] using ran)

/-- The stages make progress with whatever a call finds. -/
theorem uriStage_progress (underway : u.standing.Underway) (ran : uriStage u k = .ok (s', k')) :
    Progress u s' := by
  unfold Standing.Underway standing at underway
  cases state : u.state with
  | stateParseUri =>
      simp only [state] at underway
      simp only [uriStage, state, if_true, bind, Except.bind] at ran
      split at ran
      · cases ran
      · rename_i result parsed
        obtain ⟨flag, t⟩ := result
        obtain ⟨b, m, f, v, rfl, shorter⟩ := parseURI_frame parsed
        cases flag with
        | parseUriAgain =>
            cases ran
            refine .inr (.inr ?_)
            simp only [Standing.Underway, standing, state]
            exact underway
        | parseUriError =>
            cases ran
            exact .inl rfl
        | parseUriSuccess => exact headerStage_progress shorter rfl (by simp [underway]) ran
  | stateParseHeaders =>
      simp only [state] at underway
      rw [uriStage, if_neg (by simp [state])] at ran
      exact headerStage_progress le_rfl state underway ran
  | stateRecvBody =>
      simp only [state] at underway
      rw [uriStage, if_neg (by simp [state]), headerStage, if_neg (by simp [state])] at ran
      exact bodyStage_progress state underway ran
  | stateAnalysis | stateFinish =>
      simp only [state] at underway

theorem keeps_underway (u : HttpData) : u.Keeps Standing.Underway := by
  intro underway k t kt ran
  rcases uriStage_progress underway ran with failed | ⟨finished, -⟩ | still
  · exact .inl failed
  · exact .inr (.inl finished)
  · exact .inr (.inr still)

theorem Invoked.underway (underway : s.standing.Underway) (invoked : Invoked s k t kt) :
    t.standing.Underway :=
  invoked.standing (fun _ => Standing.Awaits.underway) (fun _ _ _ u _ => keeps_underway u) underway

/-- A call that nests another one leaves it fewer bytes than its `ReadN` had gathered. -/
theorem handleReadTurn_shorter (underway : s.standing.Underway)
    (turn : handleReadTurn s k = .ok (true, s', k')) :
    s'.inBuffer.length < (readN k.reads 0 s.inBuffer).inBuffer.length := by
  obtain ⟨t, kt, received, settled⟩ := handleReadTurn_parts turn
  obtain ⟨finished, fine, -, -, -, events, outBuffer, rfl⟩ := settle_again settled
  have unready : ¬ t.standing.Underway := by
    simp only [Standing.Underway, standing, finished, not_false_eq_true]
  cases passed : handed s k with
  | none =>
      rw [(receive_stays passed received).1] at unready
      exact absurd underway unready
  | some u =>
      obtain ⟨same, buffered⟩ := handed_keeps passed
      rw [receive_some passed] at received
      rw [← same] at underway
      rcases uriStage_progress underway received with failed | ⟨-, shorter⟩ | still
      · rw [fine] at failed
        cases failed
      · rw [buffered] at shorter
        exact shorter
      · exact absurd still unready

theorem handleReadTurn_incoming (turn : handleReadTurn s k = .ok (true, s', k')) :
    (readN k.reads 0 s.inBuffer).inBuffer.length + k'.incoming = s.inBuffer.length + k.incoming := by
  obtain ⟨t, kt, received, settled⟩ := handleReadTurn_parts turn
  obtain ⟨-, -, -, -, rfl, -⟩ := settle_again settled
  have total := readN_total k.reads 0 s.inBuffer
  have reads : kt.reads = (readN k.reads 0 s.inBuffer).rest := receive_reads received
  unfold Kernel.incoming
  rw [(flush_flushed t kt).reads, reads]
  exact total

/-- The `depth`-th nested call of a call. -/
inductive Nested (s : HttpData) (k : Kernel) : Nat → HttpData → Kernel → Prop where
  | call : Nested s k 0 s k
  | nested {depth : Nat} {t : HttpData} {kt : Kernel} {t' : HttpData} {kt' : Kernel} :
      Nested s k depth t kt → handleReadTurn t kt = .ok (true, t', kt') →
        Nested s k (depth + 1) t' kt'

theorem Invoked.depth (invoked : Invoked s k t kt) : ∃ depth, Nested s k depth t kt := by
  induction invoked with
  | call => exact ⟨0, .call⟩
  | nested _ turn ih =>
      obtain ⟨depth, nested⟩ := ih
      exact ⟨depth + 1, .nested nested turn⟩

theorem Nested.invoked {depth : Nat} (nested : Nested s k depth t kt) : Invoked s k t kt := by
  induction nested with
  | call => exact .call
  | nested _ turn ih => exact .nested ih turn

theorem Nested.bytes {depth : Nat} (underway : s.standing.Underway) (nested : Nested s k depth t kt) :
    depth + t.inBuffer.length + kt.incoming ≤ s.inBuffer.length + k.incoming := by
  induction nested with
  | call => omega
  | nested before turn ih =>
      have shorter := handleReadTurn_shorter (before.invoked.underway underway) turn
      have read := handleReadTurn_incoming turn
      omega

/-- What a call has not read is still to come, and its buffer holds no more than it was given. -/
theorem handleRead_incoming (ran : handleRead s k = .ok (s', k')) :
    s'.inBuffer.length + k'.incoming ≤ s.inBuffer.length + k.incoming := by
  have turn : ∀ t kt again t' kt', handleReadTurn t kt = .ok (again, t', kt') →
      t.inBuffer.length + kt.incoming ≤ s.inBuffer.length + k.incoming →
      t'.inBuffer.length + kt'.incoming ≤ s.inBuffer.length + k.incoming := by
    intro t kt again t' kt' turn bound
    obtain ⟨u, ku, received, settled⟩ := handleReadTurn_parts turn
    have shorter := (receive_received received).shorter
    obtain ⟨inBuffer, reads⟩ := settle_keeps u ku
    rw [settled] at inBuffer reads
    dsimp only at inBuffer reads
    have incoming : kt'.incoming = ku.incoming := by
      unfold Kernel.incoming
      rw [reads]
    rw [inBuffer, incoming]
    exact shorter.trans bound
  exact handleRead_rule
    (P := fun t kt => t.inBuffer.length + kt.incoming ≤ s.inBuffer.length + k.incoming)
    (Q := fun t kt => t.inBuffer.length + kt.incoming ≤ s.inBuffer.length + k.incoming) le_rfl
    (fun t kt t' kt' _ bound ran => turn t kt true t' kt' ran bound)
    (fun t kt t' kt' _ bound ran => turn t kt false t' kt' ran bound) ran

theorem writePart_keeps (revents : Mask) (s : HttpData) (k : Kernel) :
    (writePart revents s k).1.inBuffer = s.inBuffer ∧ (writePart revents s k).2.reads = k.reads := by
  unfold writePart
  split_ifs
  · obtain ⟨⟨events, outBuffer, error, kept⟩, -, reads⟩ := handleWrite_flushed s k
    refine ⟨?_, reads⟩
    rw [kept]
    rfl
  · exact ⟨rfl, rfl⟩

theorem handleConn_inBuffer (s : HttpData) : s.handleConn.1.inBuffer = s.inBuffer := by
  simp only [handleConn]
  split_ifs <;> rfl

theorem readPart_incoming {revents : Mask} (ran : readPart revents s k = .ok (s', k')) :
    s'.inBuffer.length + k'.incoming ≤ s.inBuffer.length + k.incoming := by
  unfold readPart at ran
  split_ifs at ran
  · exact handleRead_incoming ran
  · cases ran
    exact le_rfl

theorem handleEvents_incoming {h : Handling} (handled : handleEvents s k = .ok h) :
    h.http.inBuffer.length + h.kernel.incoming ≤ s.inBuffer.length + k.incoming := by
  by_cases hangUp : HangUp s.channel.revents
  · rw [handleEvents_hangUp hangUp] at handled
    rw [← Except.ok.inj handled]
    exact le_rfl
  · rw [handleEvents_eq hangUp] at handled
    cases read : readPart s.channel.revents (s.setEvents 0#32) k with
    | error fault =>
        rw [read] at handled
        cases handled
    | ok result =>
        obtain ⟨t, kt⟩ := result
        rw [read] at handled
        rw [← Except.ok.inj handled]
        obtain ⟨inBuffer, reads⟩ := writePart_keeps s.channel.revents t kt
        have bound := readPart_incoming read
        unfold Kernel.incoming at bound ⊢
        dsimp only
        rw [handleConn_inBuffer, inBuffer, reads]
        exact bound

end HttpData

/-- How many bytes the handlers of an event read. -/
def received (σ : Session) (e : Event) : Nat :=
  match (σ.before e).handleEvents (σ.kernel e) with
  | .ok h => (σ.kernel e).incoming - h.kernel.incoming
  | .error _ => 0

/-- A connection together with the number of bytes it has received. -/
def counted : System (Session × Nat) Event where
  init w := connection.init w.1 ∧ w.2 = 0
  step w e := (w.1.step e).map fun σ => (σ, w.2 + received w.1 e)

theorem counted_step {w w' : Session × Nat} {e : Event} (moved : counted.step w e = some w') :
    w.1.Open ∧ w' = (w.1.after e, w.2 + received w.1 e) := by
  obtain ⟨σ, stepped, rfl⟩ := Option.map_eq_some_iff.mp moved
  obtain ⟨running, rfl⟩ := Session.step_some stepped
  exact ⟨running, rfl⟩

theorem counted_reachable {σ : Session} :
    connection.Reachable σ ↔ ∃ n, counted.Reachable (σ, n) := by
  constructor
  · intro reached
    induction reached with
    | init initial => exact ⟨0, .init ⟨initial, rfl⟩⟩
    | @step σ e σ' _ _ moved ih =>
        obtain ⟨n, before⟩ := ih
        exact ⟨n + received σ e, .step before trivial (Option.map_eq_some_iff.mpr ⟨σ', moved, rfl⟩)⟩
  · rintro ⟨n, reached⟩
    apply reached.invariant (P := fun w => connection.Reachable w.1)
    · exact fun w initial => .init initial.1
    · intro w e w' before _ moved
      obtain ⟨running, rfl⟩ := counted_step moved
      exact connection_after before trivial running

theorem after_received {σ : Session} {e : Event} :
    (σ.after e).http.inBuffer.length ≤ σ.http.inBuffer.length + received σ e := by
  unfold received Session.after
  cases handled : (σ.before e).handleEvents (σ.kernel e) with
  | error fault => exact Nat.le_add_right _ _
  | ok h =>
      have bytes := HttpData.handleEvents_incoming handled
      have same : (h.http.granted h.request).inBuffer = h.http.inBuffer := by
        cases h.request <;> rfl
      have before : (σ.before e).inBuffer = σ.http.inBuffer := rfl
      rw [before] at bytes
      dsimp only
      rw [same]
      omega

theorem counted_received {w : Session × Nat} (reached : counted.Reachable w) :
    w.1.http.inBuffer.length ≤ w.2 := by
  apply reached.invariant (P := fun w => w.1.http.inBuffer.length ≤ w.2)
  · rintro ⟨σ, n⟩ ⟨⟨fd, rfl⟩, rfl⟩
    exact le_rfl
  · rintro ⟨σ, n⟩ e w' bound - moved
    obtain ⟨-, rfl⟩ := counted_step moved
    exact after_received.trans (Nat.add_le_add_right bound _)

/-- The recursion of `HandleRead` ends: a nested call starts with fewer bytes than its caller had
    after `ReadN`, and the nested calls are no more than the bytes received so far. -/
theorem recursion_ends {w : Session × Nat} (reached : counted.Reachable w) (running : w.1.Open)
    (e : Event) :
    (∀ t kt t' kt', HttpData.Invoked (w.1.before e) (w.1.kernel e) t kt →
        HttpData.handleReadTurn t kt = .ok (true, t', kt') →
        t'.inBuffer.length < (readN kt.reads 0 t.inBuffer).inBuffer.length) ∧
      (∀ depth t kt, HttpData.Nested (w.1.before e) (w.1.kernel e) depth t kt →
        depth ≤ w.2 + ((w.1.kernel e).incoming - kt.incoming)) ∧
      ∃ depth t kt, HttpData.Nested (w.1.before e) (w.1.kernel e) depth t kt ∧
        ∀ t' kt', HttpData.handleReadTurn t kt ≠ .ok (true, t', kt') := by
  have underway : (w.1.before e).standing.Underway :=
    (standing_run (fun _ => Standing.Awaits.underway)
      (fun _ _ _ _ _ _ u _ => HttpData.keeps_underway u)
      (counted_reachable.mpr ⟨w.2, reached⟩) running).2
  refine ⟨?_, ?_, ?_⟩
  · intro t kt t' kt' invoked turn
    exact HttpData.handleReadTurn_shorter (invoked.underway underway) turn
  · intro depth t kt nested
    have bytes := nested.bytes underway
    have buffered : (w.1.before e).inBuffer.length ≤ w.2 := counted_received reached
    omega
  · obtain ⟨t, kt, invoked, -, last⟩ := HttpData.handleRead_last (w.1.before e) (w.1.kernel e)
    obtain ⟨depth, nested⟩ := invoked.depth
    exact ⟨depth, t, kt, nested, last⟩

/-- Two requests for the icon in one chunk. -/
def iconTwice : Event where
  revents := EPOLLIN
  reads := [.ok (text "GET /favicon.ico HTTP/1.1\r\nA: b\r\n\r\n"),
    .ok (text "GET /favicon.ico HTTP/1.1\r\nA: b\r\n\r\n")]
  writes := []
  files := fun _ _ => .missing

theorem recursion_ends_icons : ∃ depth t kt,
    HttpData.Nested ((Session.registered 5).before iconTwice) ((Session.registered 5).kernel iconTwice)
      depth t kt ∧ ∀ t' kt', HttpData.handleReadTurn t kt ≠ .ok (true, t', kt') :=
  (recursion_ends (w := (Session.registered 5, 0)) (.init ⟨⟨5, rfl⟩, rfl⟩) (by decide) iconTwice).2.2

end WebServer
