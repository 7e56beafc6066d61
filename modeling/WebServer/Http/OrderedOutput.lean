import WebServer.Http.Session
import WebServer.Http.Verdict

/-! # The order of what a connection sends

Replies are appended to `out_buffer_`, which is sent from its front. Three statements do otherwise:
the echo reply is assigned to the buffer, a failed `open` or `mmap` clears it, and `HandleError`
writes past it. They keep the order only when nothing else is queued.
-/

namespace WebServer

open Lib

/-- What was produced is what was sent followed by what is queued; once the queue is given up
    (`live` is false) at least its front was sent in order. -/
structure InOrder (produced sent queued : Bytes) (live : Bool) : Prop where
  front : sent <+: produced
  whole : live = true ∨ queued = [] → sent ++ queued = produced

namespace InOrder

variable {produced sent queued : Bytes} {live : Bool}

theorem of_eq (whole : sent ++ queued = produced) : InOrder produced sent queued live :=
  ⟨⟨queued, whole⟩, fun _ => whole⟩

theorem push (whole : sent ++ queued = produced) (reply : Bytes) :
    InOrder (produced ++ reply) sent (queued ++ reply) live :=
  .of_eq (by rw [← List.append_assoc, whole])

theorem direct (whole : sent ++ queued = produced) (alone : queued = []) (reply : Bytes) :
    InOrder (produced ++ reply) (sent ++ reply) queued live :=
  .of_eq (by rw [← whole, alone]; simp)

theorem accept {front back : Bytes} (whole : sent ++ queued = produced)
    (parts : front ++ back = queued) : InOrder produced (sent ++ front) back live :=
  .of_eq (by rw [List.append_assoc, parts, whole])

theorem fail {front back : Bytes} (whole : sent ++ queued = produced)
    (parts : front ++ back = queued) (pending : back ≠ []) :
    InOrder produced (sent ++ front) queued false where
  front := ⟨back, by rw [List.append_assoc, parts, whole]⟩
  whole := by
    rintro (lost | nothing)
    · cases lost
    · exact absurd (List.append_eq_nil_iff.mp (parts.trans nothing)).2 pending

end InOrder

/-- The bytes an output adds for the peer. -/
def Output.reply : Output → Bytes
  | .appended reply | .assigned reply _ | .direct reply _ _ => reply
  | .cleared _ => []

/-- All replies of a connection, in the order of their requests. -/
def replies (history : List Output) : Bytes := history.flatMap Output.reply

@[simp] theorem replies_append (history later : List Output) :
    replies (history ++ later) = replies history ++ replies later := List.flatMap_append

@[simp] theorem replies_singleton (o : Output) : replies [o] = o.reply := List.flatMap_singleton ..

namespace HttpData

/-- The connection's output is in order. -/
def Ordered (s : HttpData) (sent : Bytes) : Prop :=
  InOrder (replies s.history) sent s.outBuffer (!s.error)

/-- The resource of a request is neither built in nor readable. -/
def NotServed (s : HttpData) (k : Kernel) : Prop :=
  s.method ≠ .methodPost ∧ s.fileName ≠ text "hello" ∧ s.fileName ≠ text "favicon.ico" ∧
    ((k.lookup (cstr s.fileName)).1.stSize = none ∨
      s.method = .methodGet ∧ (k.lookup (cstr s.fileName)).1.mapped = none)

/-- The kernel as the stages find it. -/
def afterRead (s : HttpData) (k : Kernel) : Kernel :=
  { k with reads := (readN k.reads 0 s.inBuffer).rest }

/-- This invocation answers with the echo reply. -/
def Echoes (s : HttpData) (k : Kernel) : Prop :=
  ∃ t u, handed s k = some t ∧ AtAnalysis t u ∧ u.method ≠ .methodPost ∧ u.fileName = text "hello"

/-- This invocation answers with an error reply. -/
inductive Refuses (s : HttpData) (k : Kernel) : Nat → Bytes → Prop where
  | read : (readN k.reads 0 s.inBuffer).readNum < 0 → Refuses s k 400 (text "Bad Request")
  | malformed {t shortMsg} : handed s k = some t → Malformed t shortMsg → Refuses s k 400 shortMsg
  | notServed {t u} : handed s k = some t → AtAnalysis t u → NotServed u k →
      Refuses s k 404 (text "Not Found!")

/-- The socket accepts all of an error reply. -/
def WrittenWhole (k : Kernel) (errNum : Nat) (shortMsg : Bytes) : Prop :=
  (k.write (errorReply errNum shortMsg).1).1.left = [] ∧
    ((k.write (errorReply errNum shortMsg).1).2.write (errorReply errNum shortMsg).2).1.left = []

/-- A `WriteN` that accepts exactly `static_cast<int>(size)` bytes accepts all of them. -/
def Sized (s : HttpData) (k : Kernel) : Prop :=
  ((s.outBuffer.length - (k.write s.outBuffer).1.left.length : Nat) : Int) =
      toInt s.outBuffer.length → (k.write s.outBuffer).1.left = []

/-- How one invocation changes the output. -/
inductive Produced (s : HttpData) (k : Kernel) (s' : HttpData) (k' : Kernel) : Prop where
  | silent : s'.outBuffer = s.outBuffer → s'.history = s.history → k'.sent = k.sent →
      Produced s k s' k'
  | appended (reply : Bytes) : s'.outBuffer = s.outBuffer ++ reply →
      s'.history = s.history ++ [.appended reply] → k'.sent = k.sent → Produced s k s' k'
  | echoed : Echoes s k → s'.outBuffer = echoReply →
      s'.history = s.history ++ [.assigned echoReply s.outBuffer] → k'.sent = k.sent →
      Produced s k s' k'
  | refused {errNum shortMsg} (t : HttpData) (kt : Kernel) : Refuses s k errNum shortMsg →
      t.outBuffer = s.outBuffer ∧ t.history = s.history ∨
        t.outBuffer = [] ∧ t.history = s.history ++ [.cleared s.outBuffer] →
      kt.writes = k.writes → kt.sent = k.sent →
      s'.outBuffer = (handleError errNum shortMsg t kt).1.outBuffer →
      s'.history = (handleError errNum shortMsg t kt).1.history →
      k'.sent = (handleError errNum shortMsg t kt).2.sent → Produced s k s' k'

/-- What `AnalysisRequest` does to the output. -/
theorem analysisStage_output {s t u s' : HttpData} {k k' : Kernel} (passed : handed s k = some t)
    (entered : AtAnalysis t u) (analysing : u.state = .stateAnalysis)
    (same : u.outBuffer = s.outBuffer ∧ u.history = s.history)
    (ran : analysisStage u (afterRead s k) = .ok (s', k')) : Produced s k s' k' := by
  simp only [analysisStage, analysing, if_true, bind, Except.bind] at ran
  split at ran
  · cases ran
  rename_i answer answered
  obtain ⟨flag, v, kv⟩ := answer
  have finish : Produced s k v kv → Produced s k s' k' := by
    intro produced
    cases flag <;> cases ran
    all_goals
      cases produced with
      | silent out hist sent => exact .silent out hist sent
      | appended reply out hist sent => exact .appended reply out hist sent
      | echoed echo out hist sent => exact .echoed echo out hist sent
      | refused w kw refuses before writes sent out hist whole =>
          exact .refused w kw refuses before writes sent out hist whole
  apply finish
  simp only [analysisRequest, bind, Except.bind] at answered
  split at answered
  · cases answered
    exact .silent same.1 same.2 rfl
  all_goals
    rename_i method
    split at answered
    · cases answered
    rename_i fileType _
    have keep : (if keepAliveRequested u.headers = true then { u with keepAlive := true }
        else u) = { u with keepAlive := keepAliveRequested u.headers || u.keepAlive } := by
      cases keepAliveRequested u.headers <;> simp
    rw [keep] at answered
    have not_post : u.method ≠ .methodPost := by simp [method]
    split_ifs at answered with hello icon
    · cases answered
      exact .echoed ⟨t, u, passed, entered, not_post, hello⟩ rfl
        (by simp only [assign, same]) rfl
    · cases answered
      exact .appended _ (by simp only [append, same]; rfl) (by simp only [append, same]) rfl
    · have answered := Except.ok.inj answered
      simp only [analysisFile] at answered
      split at answered
      · rename_i missing
        cases answered
        exact .refused _ _ (.notServed passed entered ⟨not_post, hello, icon, .inl missing⟩)
          (.inl same) rfl rfl rfl rfl rfl
      · by_cases head : u.method = .methodHead
        · simp only [head, if_true] at answered
          cases answered
          exact .appended _ (by simp only [append, same]; rfl) (by simp only [append, same]) rfl
        · have get : u.method = .methodGet := by
            revert not_post head
            cases u.method <;> simp
          simp only [head, if_false] at answered
          split at answered
          · rename_i unmapped
            cases answered
            refine .refused _ _ (.notServed passed entered ⟨not_post, hello, icon,
                .inr ⟨get, unmapped⟩⟩) (.inr ⟨rfl, ?_⟩) rfl rfl rfl rfl rfl
            simp only [clearOutput, same]
          · cases answered
            exact .appended _ (by simp only [append, same]; rfl) (by simp only [append, same]) rfl

/-- What one invocation does to the output, before it sends anything queued. -/
theorem receive_output {s s' : HttpData} {k k' : Kernel} (ran : receive s k = .ok (s', k')) :
    Produced s k s' k' := by
  cases passed : handed s k with
  | none =>
      cases Withheld.of_receive passed ran with
      | disconnecting => exact .silent rfl rfl rfl
      | closed => exact .silent rfl rfl rfl
      | failed negative =>
          exact .refused _ (afterRead s k) (.read negative) (.inl ⟨rfl, rfl⟩) rfl rfl rfl rfl rfl
  | some t =>
      have given : t.outBuffer = s.outBuffer ∧ t.history = s.history := by
        obtain ⟨connectionState, rfl⟩ := handed_read passed
        exact ⟨rfl, rfl⟩
      rw [receive_some passed] at ran
      cases uriStage_ending ran with
      | waits parsed =>
          exact .silent (parsed.outBuffer.trans given.1) (parsed.history.trans given.2) rfl
      | @rejects u shortMsg malformed parsed =>
          exact .refused { u with error := true } (afterRead s k) (.malformed passed malformed)
            (.inl ⟨parsed.outBuffer.trans given.1, parsed.history.trans given.2⟩) rfl rfl rfl rfl rfl
      | @analyses u _ _ entered parsed analysing ran =>
          exact analysisStage_output passed entered analysing
            ⟨parsed.outBuffer.trans given.1, parsed.history.trans given.2⟩ ran

/-- A reply that is not appended finds nothing queued, an error reply is accepted whole, and so is
    a write whose count passes for the size of the queue. -/
structure Orderly (s : HttpData) (k : Kernel) : Prop where
  echo : Echoes s k → s.outBuffer = []
  error : ∀ errNum shortMsg, Refuses s k errNum shortMsg →
    s.outBuffer = [] ∧ WrittenWhole k errNum shortMsg
  sized : ∀ s' k', receive s k = .ok (s', k') → Sized s' k'

theorem write_whole {k : Kernel} {buff : Bytes} (whole : (k.write buff).1.left = []) :
    (k.write buff).2.sent = k.sent ++ buff := by
  have all := accepted_append_left k.writes buff
  have left : (writeLoop k.writes buff).left = [] := whole
  rw [left, List.append_nil] at all
  simp only [Kernel.write, all]

theorem writeLoop_congr {k kt : Kernel} (same : kt.writes = k.writes) (buff : Bytes) :
    (kt.write buff).1 = (k.write buff).1 ∧ (kt.write buff).2.writes = (k.write buff).2.writes := by
  simp only [Kernel.write, same, and_self]

/-- One invocation keeps the order up to its sending. -/
theorem receive_ordered {s s' : HttpData} {k k' : Kernel} (orderly : Orderly s k)
    (running : s.error = false) (ordered : Ordered s k.sent) (ran : receive s k = .ok (s', k')) :
    Ordered s' k'.sent := by
  have whole := ordered.whole (.inl (by simp [running]))
  cases receive_output ran with
  | silent out hist sent =>
      rw [Ordered, out, hist, sent]
      exact .of_eq whole
  | appended reply out hist sent =>
      rw [Ordered, out, hist, sent, replies_append, replies_singleton]
      exact .push whole reply
  | echoed echo out hist sent =>
      have alone := orderly.echo echo
      rw [Ordered, out, hist, sent, replies_append, replies_singleton]
      have pushed : InOrder (replies s.history ++ echoReply) k.sent (s.outBuffer ++ echoReply)
          (!s'.error) := .push whole echoReply
      rwa [alone, List.nil_append] at pushed
  | @refused errNum shortMsg t kt refuses before writes sent out hist after =>
      obtain ⟨alone, first, second⟩ := orderly.error _ _ refuses
      have queue : t.outBuffer = s.outBuffer ∧ replies t.history = replies s.history := by
        rcases before with ⟨same, logged⟩ | ⟨none_left, logged⟩
        · exact ⟨same, by rw [logged]⟩
        · exact ⟨none_left.trans alone.symm, by simp [logged, Output.reply]⟩
      obtain ⟨head_same, head_rest⟩ := writeLoop_congr writes (errorReply errNum shortMsg).1
      have body_same := (writeLoop_congr head_rest (errorReply errNum shortMsg).2).1
      have head_sent := write_whole (head_same ▸ first)
      have body_sent := write_whole (body_same ▸ second)
      have replied : k'.sent =
          k.sent ++ ((errorReply errNum shortMsg).1 ++ (errorReply errNum shortMsg).2) := by
        rw [after, ← List.append_assoc, ← sent, ← head_sent, ← body_sent]
        rfl
      have logged : replies s'.history = replies s.history ++
          ((errorReply errNum shortMsg).1 ++ (errorReply errNum shortMsg).2) := by
        rw [hist, ← queue.2]
        simp only [handleError, replies_append, replies_singleton, Output.reply]
      have kept : s'.outBuffer = s.outBuffer := out.trans queue.1
      rw [Ordered, kept, logged, replied]
      exact .direct whole alone _

theorem writeLoop_failed {results : List WriteResult} {buff : Bytes}
    (failed : (writeLoop results buff).stop = .failed) : (writeLoop results buff).left ≠ [] := by
  fun_induction writeLoop results buff with
  | case1 | case2 => simp at failed
  | case3 count rest left nonempty ih => exact ih failed
  | case4 rest left nonempty ih => exact ih failed
  | case5 => simp at failed
  | case6 rest left nonempty => simpa using nonempty

theorem writeN_sized {s : HttpData} {k : Kernel} (sized : Sized s k) :
    (writeN k s.outBuffer).1 < 0 ∧ (writeN k s.outBuffer).2.1 = s.outBuffer ∧
        (writeLoop k.writes s.outBuffer).left ≠ [] ∨
      ¬ (writeN k s.outBuffer).1 < 0 ∧
        (writeN k s.outBuffer).2.1 = (writeLoop k.writes s.outBuffer).left := by
  have rest := drop_accepted k.writes s.outBuffer
  cases stop : (k.write s.outBuffer).1.stop with
  | failed =>
      left
      simp only [writeN, stop]
      exact ⟨by decide, trivial, writeLoop_failed stop⟩
  | complete | again =>
      right
      simp only [writeN, stop]
      split_ifs with passes
      · exact ⟨by dsimp only; omega, (sized passes).symm⟩
      · exact ⟨by dsimp only; omega, rest⟩

/-- Sending the queue keeps the order. -/
theorem handleWrite_ordered {s : HttpData} {k : Kernel} (sized : Sized s k)
    (ordered : Ordered s k.sent) : Ordered (handleWrite s k).1 (handleWrite s k).2.sent := by
  by_cases open_ : (!s.error && s.connectionState ≠ .hDisconnected) = true
  · have running : s.error = false := by
      simp only [Bool.and_eq_true, Bool.not_eq_true'] at open_
      exact open_.1
    have whole := ordered.whole (.inl (by simp [running]))
    have parts := accepted_append_left k.writes s.outBuffer
    have kept := writeN_sized sized
    have sent : (handleWrite s k).2.sent =
        k.sent ++ (writeLoop k.writes s.outBuffer).accepted s.outBuffer := by
      simp only [handleWrite, open_, if_true]
      have kernel : (writeN k s.outBuffer).2.2.sent =
          k.sent ++ (writeLoop k.writes s.outBuffer).accepted s.outBuffer :=
        congrArg Kernel.sent (writeN_kernel k s.outBuffer)
      exact kernel
    have queue : (handleWrite s k).1.outBuffer = (writeN k s.outBuffer).2.1 ∧
        (handleWrite s k).1.history = s.history ∧
        (handleWrite s k).1.error = decide ((writeN k s.outBuffer).1 < 0) := by
      simp only [handleWrite, open_, if_true]
      split_ifs <;> simp_all [setEvents, addEvents]
    obtain ⟨out, hist, error⟩ := queue
    rw [Ordered, sent, out, hist, error]
    rcases kept with ⟨failed, all, pending⟩ | ⟨passed, left⟩
    · have lost := InOrder.fail whole parts pending
      rw [all]
      simp only [failed, decide_true, Bool.not_true]
      refine ⟨lost.front, fun none_left => absurd ?_ pending⟩
      rcases none_left with wrong | nothing
      · cases wrong
      · exact (List.append_eq_nil_iff.mp (parts.trans nothing)).2
    · rw [left]
      exact .accept whole parts
  · have unchanged : handleWrite s k = (s, k) := by rw [handleWrite, if_neg open_]
    rw [unchanged]
    exact ordered

theorem settle_ordered {s s' : HttpData} {k k' : Kernel} {again : Bool} (sized : Sized s k)
    (ordered : Ordered s k.sent) (settled : settle s k = (again, s', k')) : Ordered s' k'.sent := by
  have flushed : Ordered (flush s k).1 (flush s k).2.sent := by
    simp only [flush]
    split_ifs
    · exact handleWrite_ordered sized ordered
    · exact ordered
  simp only [settle] at settled
  split_ifs at settled
  all_goals
    cases settled
    first
      | exact ordered
      | exact flushed

theorem invoked_ordered {s t : HttpData} {k kt : Kernel}
    (orderly : ∀ t kt, Invoked s k t kt → Orderly t kt) (running : s.error = false)
    (ordered : Ordered s k.sent) (invoked : Invoked s k t kt) :
    t.error = false ∧ Ordered t kt.sent := by
  induction invoked with
  | call => exact ⟨running, ordered⟩
  | @nested t kt t' kt' invoked turn ih =>
      obtain ⟨u, ku, received, settled⟩ := handleReadTurn_parts turn
      have now := orderly t kt invoked
      exact ⟨(handleReadTurn_running turn).1, settle_ordered (now.sized _ _ received)
        (receive_ordered now ih.1 ih.2 received) settled⟩

theorem handleRead_ordered {s s' : HttpData} {k k' : Kernel}
    (orderly : ∀ t kt, Invoked s k t kt → Orderly t kt) (running : s.error = false)
    (ordered : Ordered s k.sent) (ran : handleRead s k = .ok (s', k')) : Ordered s' k'.sent := by
  obtain ⟨t, kt, invoked, ends, -⟩ := handleRead_last s k
  obtain ⟨fine, start⟩ := invoked_ordered orderly running ordered invoked
  rw [ends] at ran
  cases turn : handleReadTurn t kt with
  | error e => simp [turn, Except.map] at ran
  | ok next =>
      obtain ⟨again, u, ku⟩ := next
      rw [turn] at ran
      cases ran
      obtain ⟨v, kv, received, settled⟩ := handleReadTurn_parts turn
      have now := orderly t kt invoked
      exact settle_ordered (now.sized _ _ received) (receive_ordered now fine start received) settled

theorem handleConn_ordered {s : HttpData} {sent : Bytes} (ordered : Ordered s sent)
    (request : LoopRequest) : Ordered (s.handleConn.1.granted request) sent := by
  have same : (s.handleConn.1.granted request).outBuffer = s.outBuffer ∧
      (s.handleConn.1.granted request).history = s.history ∧
      (s.handleConn.1.granted request).error = s.error := by
    cases request <;> simp only [handleConn] <;> split_ifs <;> exact ⟨rfl, rfl, rfl⟩
  rw [Ordered, same.1, same.2.1, same.2.2]
  exact ordered

theorem Produced.history {s s' : HttpData} {k k' : Kernel} (produced : Produced s k s' k') :
    s.history <+: s'.history := by
  cases produced with
  | silent _ hist _ => exact hist ▸ List.prefix_rfl
  | appended _ _ hist _ => exact hist ▸ List.prefix_append _ _
  | echoed _ _ hist _ => exact hist ▸ List.prefix_append _ _
  | refused t kt _ before _ _ _ hist _ =>
      have logged : s.history <+: t.history := by
        rcases before with ⟨-, same⟩ | ⟨-, cleared⟩
        · exact same ▸ List.prefix_rfl
        · exact cleared ▸ List.prefix_append _ _
      exact hist ▸ logged.trans (List.prefix_append _ _)

theorem handleWrite_history (s : HttpData) (k : Kernel) :
    (handleWrite s k).1.history = s.history := by
  obtain ⟨⟨_, _, _, same⟩, -, -⟩ := handleWrite_flushed s k
  rw [same]
  rfl

theorem settle_history (s : HttpData) (k : Kernel) : (settle s k).2.1.history = s.history := by
  have flushed : (flush s k).1.history = s.history := by
    obtain ⟨⟨_, _, _, same⟩, -, -⟩ := flush_flushed s k
    rw [same]
    rfl
  unfold settle
  split_ifs
  · rfl
  · dsimp only
    split_ifs <;> exact flushed

theorem handleReadTurn_history {s s' : HttpData} {k k' : Kernel} {again : Bool}
    (turn : handleReadTurn s k = .ok (again, s', k')) : s.history <+: s'.history := by
  obtain ⟨t, kt, received, settled⟩ := handleReadTurn_parts turn
  have same := settle_history t kt
  rw [settled] at same
  exact same ▸ (receive_output received).history

theorem handleRead_history {s s' : HttpData} {k k' : Kernel} (ran : handleRead s k = .ok (s', k')) :
    s.history <+: s'.history := by
  refine handleRead_rule (P := fun t _ => s.history <+: t.history)
    (Q := fun t _ => s.history <+: t.history) List.prefix_rfl ?_ ?_ ran
  · intro t kt t' kt' _ before turn
    exact before.trans (handleReadTurn_history turn)
  · intro t kt t' kt' _ before turn
    exact before.trans (handleReadTurn_history turn)

theorem handleConn_history (s : HttpData) (request : LoopRequest) :
    (s.handleConn.1.granted request).history = s.history := by
  cases request <;> simp only [handleConn] <;> split_ifs <;> rfl

theorem handleConn_calm (s : HttpData) :
    (s.handleConn.1.granted s.handleConn.2).connectionState ≠ .hDisconnected →
      (s.handleConn.1.granted s.handleConn.2).error = false := by
  simp only [handleConn]
  split_ifs with connected
  all_goals simp_all [granted, seperateTimer, addEvents, setEvents]

end HttpData

/-- Every invocation and every write of the event is orderly. -/
def Orderly (σ : Session) (e : Event) : Prop :=
  ¬ HttpData.HangUp e.revents →
    (HttpData.Readable e.revents →
      ∀ t kt, HttpData.Invoked (σ.before e) (σ.kernel e) t kt → HttpData.Orderly t kt) ∧
    (e.revents.has EPOLLOUT = true →
      ∀ t kt, HttpData.readPart e.revents (σ.before e) (σ.kernel e) = .ok (t, kt) →
        HttpData.Sized t kt)

/-- While the connection is open no error is pending. -/
def Calm (σ : Session) : Prop := σ.http.connectionState ≠ .hDisconnected → σ.http.error = false

theorem after_calm {σ : Session} {e : Event} (running : σ.http.error = false) : Calm (σ.after e) := by
  rcases Session.after_cases (σ := σ) (e := e) with
    ⟨-, same⟩ | ⟨-, ⟨fault, -, same⟩ | ⟨t, kt, -, same⟩⟩
  · rw [same]
    exact fun _ => running
  · rw [same]
    exact fun _ => running
  · rw [same, Calm]
    generalize (HttpData.writePart e.revents t kt).1 = u
    exact HttpData.handleConn_calm u

theorem reached_calm {C : Session → Event → Prop} {σ : Session} (reached : connection.Reached C σ) :
    Calm σ := by
  apply reached.invariant
  · rintro σ ⟨fd, rfl⟩
    exact fun _ => rfl
  · rintro σ e σ' calm _ moved
    obtain ⟨running, rfl⟩ := Session.step_some moved
    exact after_calm (calm running.2)

theorem after_ordered {σ : Session} {e : Event} (running : σ.http.error = false)
    (orderly : Orderly σ e) (ordered : σ.http.Ordered σ.sent) :
    (σ.after e).http.Ordered (σ.after e).sent := by
  rcases Session.after_cases (σ := σ) (e := e) with
    ⟨-, same⟩ | ⟨alive, ⟨fault, -, same⟩ | ⟨t, kt, read, same⟩⟩
  · rw [same]
    exact ordered
  · rw [same]
    exact ordered
  · obtain ⟨reading, writing⟩ := orderly alive
    have received : t.Ordered kt.sent := by
      rw [HttpData.readPart] at read
      split_ifs at read with readable
      · exact HttpData.handleRead_ordered (reading readable) running ordered read
      · cases read
        exact ordered
    have written : (HttpData.writePart e.revents t kt).1.Ordered
        (HttpData.writePart e.revents t kt).2.sent := by
      rw [HttpData.writePart]
      split_ifs with writable
      · exact HttpData.handleWrite_ordered (writing writable t kt read) received
      · exact received
    rw [same]
    exact HttpData.handleConn_ordered written _

theorem after_history (σ : Session) (e : Event) : σ.http.history <+: (σ.after e).http.history := by
  rcases Session.after_cases (σ := σ) (e := e) with
    ⟨-, same⟩ | ⟨-, ⟨fault, -, same⟩ | ⟨t, kt, read, same⟩⟩
  · rw [same]
    exact List.prefix_rfl
  · rw [same]
  · have received : σ.http.history <+: t.history := by
      rw [HttpData.readPart] at read
      split_ifs at read
      · have kept := HttpData.handleRead_history read
        exact kept
      · cases read
        exact List.prefix_rfl
    have written : (HttpData.writePart e.revents t kt).1.history = t.history := by
      rw [HttpData.writePart]
      split_ifs
      · exact HttpData.handleWrite_history t kt
      · rfl
    rw [same, HttpData.handleConn_history, written]
    exact received

/-- In a run of orderly events the socket has accepted a prefix of all replies in the order of
    their requests, and no byte of a reply is lost while the connection goes on. -/
theorem ordered_run {σ : Session} (reached : connection.Reached Orderly σ) :
    σ.sent <+: replies σ.http.history ∧
      (σ.http.error = false ∨ σ.http.outBuffer = [] →
        σ.sent ++ σ.http.outBuffer = replies σ.http.history) := by
  have ordered : σ.http.Ordered σ.sent := by
    refine reached.invariant_with (Q := Calm) (P := fun σ => σ.http.Ordered σ.sent)
      (fun _ => reached_calm) ?_ ?_
    · rintro σ ⟨fd, rfl⟩
      exact .of_eq rfl
    · rintro σ e σ' calm ordered orderly moved
      obtain ⟨⟨-, open_⟩, rfl⟩ := Session.step_some moved
      exact after_ordered (calm open_) orderly ordered
  exact ⟨ordered.front, fun going => ordered.whole (going.imp_left (by simp))⟩

/-- A request for the icon. -/
def iconOver (writes : List WriteResult) : Event where
  revents := EPOLLIN
  reads := [.ok (text "GET /favicon.ico HTTP/1.1\r\nA: b\r\n\r\n")]
  writes
  files := fun _ _ => .missing

theorem ordered_run_icon : ((Session.registered 5).after (iconOver [])).sent <+:
    replies ((Session.registered 5).after (iconOver [])).http.history := by
  have sized : ((HttpData.receive ((Session.registered 5).before (iconOver []))
      ((Session.registered 5).kernel (iconOver []))).toOption.all fun r =>
        (r.2.write r.1.outBuffer).1.left.isEmpty) = true := by decide +kernel
  have orderly : Orderly (Session.registered 5) (iconOver []) := by
    refine fun _ => ⟨fun _ t kt invoked => ?_, fun writable => absurd writable (by decide)⟩
    obtain ⟨rfl, rfl⟩ := invoked.single (by decide +kernel)
    refine ⟨fun _ => rfl, fun errNum shortMsg _ => ⟨rfl, ?_, ?_⟩, fun s' k' ran _ => ?_⟩
    · cases (HttpData.errorReply errNum shortMsg).1 <;> rfl
    · cases (HttpData.errorReply errNum shortMsg).1 <;>
        cases (HttpData.errorReply errNum shortMsg).2 <;> rfl
    · simpa [ran, Except.toOption] using sized
  exact (ordered_run (connection_after (.init ⟨5, rfl⟩) orderly (by decide))).1

/-- A request for the icon, a byte that `ParseHeaders` takes, and a request for `hello`. -/
def iconThenHello : Event where
  revents := EPOLLIN
  reads := [.ok (text "GET /favicon.ico HTTP/1.1\r\nA: b\r\n\r\n" ++ text "\n" ++
    text "GET /hello HTTP/1.1\r\nA: b\r\n\r\n")]
  writes := [.ok 10, .eagain]
  files := fun _ _ => .missing

/-- The echo reply replaces what the icon's reply still had queued. -/
theorem overwritten_reply :
    ¬ ∀ σ, connection.Reachable σ → σ.sent <+: replies σ.http.history := by
  intro ordered
  have reached : connection.Reachable ((Session.registered 5).after iconThenHello) :=
    connection_after (.init ⟨5, rfl⟩) trivial (by decide)
  have overtaken : ¬ ((Session.registered 5).after iconThenHello).sent <+:
      replies ((Session.registered 5).after iconThenHello).http.history := by
    decide +kernel
  exact overtaken (ordered _ reached)

end WebServer
