import WebServer.Http.Answer
import WebServer.Http.HeaderCodec
import WebServer.Http.OutBuffer
import WebServer.Loop.Registration

/-! # A client that has one request on its way

The client sends one request at a time and keeps its side open; the socket takes the replies in
whatever pieces. The poller then reports either that the next request can be read or that more of a
reply can be written, never both, and each reply follows the one before it.
-/

namespace WebServer

open Lib

/-- The answer to the request. -/
def Request.whole (files : Bytes → FileView) (r : Request) : Except Fault Answer :=
  requestAnswer files r.line r.headers []

namespace HttpData

variable {s : HttpData} {k : Kernel}

/-- The connection is between two requests; a reply may still be queued. -/
structure Between (s : HttpData) : Prop where
  vacant : Vacant { s with outBuffer := [] }
  inBuffer : s.inBuffer = []

theorem Between.fine (between : Between s) : s.error = false := between.vacant.error

theorem Between.connected (between : Between s) : s.connectionState = .hConnected :=
  between.vacant.connectionState

/-- A request that is answered by a reply and leaves the connection open names a resource. -/
theorem whole_served {files : Bytes → FileView} {r : Request} {a : Answer}
    (answers : r.whole files = .ok a) (goesOn : a.GoesOn) :
    ∃ q, decodeLine r.line = some q ∧ q.method ≠ .methodPost ∧
      servedReply files q (keepAliveRequested r.headers) = some a.sent := by
  obtain ⟨fine, state⟩ := goesOn
  unfold Request.whole requestAnswer at answers
  cases decoded : decodeLine r.line with
  | none =>
      rw [decoded] at answers
      cases answers
      cases fine
  | some q =>
      rw [decoded] at answers
      dsimp only at answers
      unfold answer at answers
      by_cases post : q.method = .methodPost
      · rw [if_pos post] at answers
        cases given : r.headers (text "Content-length") with
        | none =>
            rw [given] at answers
            cases answers
            cases fine
        | some value =>
            rw [given] at answers
            cases number : stoi value with
            | error e => simp [number, bind, Except.bind] at answers
            | ok n =>
                simp only [number, bind, Except.bind] at answers
                split_ifs at answers
                · cases answers
                  cases state
                · cases answers
                  cases fine
      · rw [if_neg post] at answers
        dsimp only at answers
        refine ⟨q, rfl, post, ?_⟩
        cases served : servedReply files q (keepAliveRequested r.headers) with
        | none =>
            rw [served] at answers
            cases answers
            cases fine
        | some reply =>
            rw [served] at answers
            cases answers
            rfl

/-- `AnalysisRequest` queues the reply, whatever the socket will take of it. -/
theorem analysisRequest_queued (k : Kernel) {reply : Bytes} (asks : s.method ≠ .methodPost)
    (empty : s.outBuffer = [])
    (served : servedReply (k.files k.looked.length) s.asked (keepAliveRequested s.headers) =
      some reply) :
    ∃ looked history, analysisRequest s k = .ok (.analysisSuccess, { s with
      outBuffer := reply
      keepAlive := s.keepAlive || keepAliveRequested s.headers
      history }, { k with looked }) := by
  obtain ⟨fileType, typed, answered⟩ := analysisRequest_eq asks
  unfold servedReply asked at served
  rw [answered]
  dsimp only at served ⊢
  by_cases hello : s.fileName = text "hello"
  · rw [if_pos hello] at served ⊢
    cases served
    exact ⟨k.looked, _, rfl⟩
  rw [if_neg hello] at served ⊢
  by_cases icon : s.fileName = text "favicon.ico"
  · rw [if_pos icon] at served ⊢
    cases served
    unfold append
    rw [empty]
    exact ⟨k.looked, _, rfl⟩
  rw [if_neg icon] at served ⊢
  rw [typed] at served
  unfold servedFile at served
  unfold analysisFile Kernel.lookup
  dsimp only at served ⊢
  cases size : (k.files k.looked.length (cstr s.fileName)).stSize with
  | none =>
      rw [size] at served
      cases served
  | some n =>
      rw [size] at served
      dsimp only at served ⊢
      by_cases head : s.method = .methodHead
      · rw [if_pos head] at served ⊢
        cases served
        unfold append
        rw [empty]
        exact ⟨_, _, rfl⟩
      · rw [if_neg head] at served ⊢
        cases mapped : (k.files k.looked.length (cstr s.fileName)).mapped with
        | none =>
            rw [mapped] at served
            cases served
        | some body =>
            rw [mapped] at served
            cases served
            unfold append
            rw [empty]
            exact ⟨_, _, rfl⟩

theorem bodyStage_served (k : Kernel) {reply : Bytes} (asks : s.method ≠ .methodPost)
    (state : s.state = .stateAnalysis) (empty : s.outBuffer = [])
    (served : servedReply (k.files k.looked.length) s.asked (keepAliveRequested s.headers) =
      some reply) :
    ∃ looked history, bodyStage s k = .ok ({ s with
      outBuffer := reply
      keepAlive := s.keepAlive || keepAliveRequested s.headers
      state := .stateFinish
      history }, { k with looked }) := by
  obtain ⟨looked, history, analysed⟩ := analysisRequest_queued k asks empty served
  have away : ¬ s.state = .stateRecvBody := by simp [state]
  refine ⟨looked, history, ?_⟩
  unfold bodyStage
  rw [if_neg away]
  unfold analysisStage
  rw [if_pos state, analysed]
  rfl

/-- The stages queue the reply to a whole request and leave nothing else behind. -/
theorem uriStage_served (k : Kernel) {r : Request} {a : Answer} (vacant : Vacant s)
    (whole : s.inBuffer = r.bytes) (answers : r.whole (k.files k.looked.length) = .ok a)
    (goesOn : a.GoesOn) :
    ∃ t looked, uriStage s k = .ok (t, { k with looked }) ∧ t.state = .stateFinish ∧
      t.error = false ∧ t.connectionState = .hConnected ∧ t.outBuffer = a.sent ∧
      t.inBuffer = [] ∧ t.channel = s.channel := by
  obtain ⟨q, decoded, asks, served⟩ := whole_served answers goesOn
  have small : s.inBuffer.length < 2 ^ 63 := by
    have := r.bytes_short
    rw [whole]
    omega
  have sectionShort : (headerSection (r.first :: r.others)).length < 2 ^ 31 := by
    have := r.short
    omega
  have rest : CR :: LF :: (headerSection (r.first :: r.others) ++ []) =
      CR :: LF :: headerSection r.fields := by
    rw [List.append_nil]
    rfl
  have split : s.inBuffer ++ [] =
      r.line ++ CR :: LF :: (headerSection (r.first :: r.others) ++ []) := by
    rw [List.append_nil, whole, rest]
    rfl
  have parsed := request_parsed vacant split sectionShort (by rwa [List.append_nil]) q
  have state : afterHeaders q.method = .stateAnalysis := if_neg asks
  rw [List.append_nil] at split
  rw [uriStage_line vacant split r.line_no_cr small decoded, headerStage_success parsed rfl]
  have headers : storeLines .hStart (fun _ => none) r.first r.others = r.headers :=
    storeLines_start ..
  obtain ⟨looked, history, queued⟩ := bodyStage_served
    (s := { (s.atLine q (LF :: (headerSection (r.first :: r.others) ++ []))).afterLines r.first
      r.others .hEndLf [] with state := afterHeaders q.method }) k asks state vacant.outBuffer
    (by
      rw [← served, ← headers, ← vacant.headers, ← vacant.hState]
      rfl)
  refine ⟨_, looked, queued, ?_⟩
  exact ⟨rfl, vacant.error, vacant.connectionState, rfl, rfl, rfl⟩

/-- What `HandleWrite` does with a socket that never fails and a buffer of a sensible size: the bytes
    go to the socket or stay queued, and then `EPOLLOUT` is asked for. -/
theorem handleWrite_answering (fine : s.error = false) (connected : s.connectionState = .hConnected)
    (answering : .fail ∉ k.writes) (short : s.outBuffer.length < 2 ^ 31) :
    ∃ left k', handleWrite s k =
        (if left.length > 0 then { s with outBuffer := left }.addEvents EPOLLOUT
          else { s with outBuffer := left }, k') ∧
      k'.sent ++ left = k.sent ++ s.outBuffer ∧
      left <:+ (writeLoop k.writes s.outBuffer).left := by
  have active : (!s.error && decide (s.connectionState ≠ .hDisconnected)) = true := by
    simp [fine, connected]
  let d : Draining := { outBuffer := s.outBuffer, kernel := k, appended := [] }
  have fits : ¬ d.CutShort := by
    intro cut
    have large := cut.large
    have small : d.outBuffer.length < 2 ^ 31 := short
    omega
  have conserved := (Draining.step_conserves_iff (d := d) answering).mpr fits
  obtain ⟨sum, kept⟩ := Draining.writeN_answering (d := d) answering
  have nonneg : ¬ (writeN k s.outBuffer).1 < 0 := by
    rw [show (writeN k s.outBuffer).1 = _ from sum]
    omega
  refine ⟨(writeN k s.outBuffer).2.1, (writeN k s.outBuffer).2.2, ?_, conserved, ?_⟩
  · unfold handleWrite
    rw [if_pos active]
    dsimp only
    rw [if_neg nonneg]
  · rw [show (writeN k s.outBuffer).2.1 = _ from kept]
    split_ifs
    · exact List.nil_suffix
    · exact List.suffix_refl _

theorem flush_answering (fine : s.error = false) (connected : s.connectionState = .hConnected)
    (answering : .fail ∉ k.writes) (short : s.outBuffer.length < 2 ^ 31) :
    ∃ left k', flush s k =
        (if left.length > 0 then { s with outBuffer := left }.addEvents EPOLLOUT
          else { s with outBuffer := left }, k') ∧
      k'.sent ++ left = k.sent ++ s.outBuffer ∧ left <:+ s.outBuffer := by
  unfold flush
  split_ifs with queued
  · obtain ⟨left, k', wrote, conserved, suffix⟩ :=
      handleWrite_answering fine connected answering short
    exact ⟨left, k', wrote, conserved, suffix.trans (writeLoop_suffix ..)⟩
  · have empty : s.outBuffer = [] := List.length_eq_zero_iff.mp (by omega)
    refine ⟨[], k, ?_, by rw [empty], List.nil_suffix⟩
    rw [← empty, if_neg queued]

/-- The events that are asked for while a reply is on its way. -/
def awaited (outBuffer : Bytes) : Mask := if outBuffer = [] then 0#32 else EPOLLOUT

theorem addEvents_awaited (left : Bytes) (silent : s.channel.events = 0#32) :
    (if left.length > 0 then { s with outBuffer := left }.addEvents EPOLLOUT
      else { s with outBuffer := left } : HttpData) =
      { s with outBuffer := left, channel := { s.channel with events := awaited left } } := by
  unfold awaited
  cases left with
  | nil => simp [← silent]
  | cons c cs => simp [addEvents, setEvents, silent]

/-- What the read callback makes of a request that arrives between two requests. -/
theorem handleRead_request {r : Request} {a : Answer} {rest : List ReadResult}
    (between : Between s) (empty : s.outBuffer = []) (silent : s.channel.events = 0#32)
    (brings : readN k.reads 0 [] = ⟨r.bytes.length, false, r.bytes, rest⟩)
    (answers : r.whole (k.files k.looked.length) = .ok a) (goesOn : a.GoesOn)
    (small : a.sent.length < 2 ^ 31) (answering : .fail ∉ k.writes) :
    ∃ t kt, handleRead s k = .ok (t, kt) ∧ Between t ∧
      kt.sent ++ t.outBuffer = k.sent ++ a.sent ∧ t.outBuffer.length < 2 ^ 31 ∧
      t.channel.events = awaited t.outBuffer := by
  have vacant : Vacant { s with inBuffer := r.bytes } := by
    have same : { s with outBuffer := [] } = s := by rw [← empty]
    exact { same ▸ between.vacant with }
  obtain ⟨u, looked, staged, state, fine, connected, queued, consumed, channel⟩ :=
    uriStage_served { k with reads := rest } vacant rfl answers goesOn
  obtain ⟨left, k', flushed, conserved, suffix⟩ :=
    flush_answering (k := { k with reads := rest, looked }) fine connected answering (queued ▸ small)
  have open_ : ¬ s.connectionState = .hDisconnecting := by simp [between.connected]
  have data : ¬ (ReadOutcome.mk r.bytes.length false r.bytes rest).readNum < 0 := by
    have counted : (ReadOutcome.mk r.bytes.length false r.bytes rest).readNum = r.bytes.length :=
      readNum_of_lt r.bytes_short
    omega
  have received : receive s k = .ok (u, { k with reads := rest, looked }) := by
    unfold receive
    rw [between.inBuffer, brings]
    dsimp only
    rw [if_neg open_, if_neg data, if_neg (by simp)]
    exact staged
  have silent' : u.channel.events = 0#32 := channel ▸ silent
  rw [addEvents_awaited left silent'] at flushed
  let v : HttpData := { u with
    outBuffer := left, channel := { u.channel with events := awaited left } }
  have settled : settle u { k with reads := rest, looked } = (false, v.reset, k') := by
    unfold settle
    rw [if_neg (by simp [fine]), flushed]
    simp [fine, state, consumed, reset, seperateTimer, v]
  have turn : handleReadTurn s k = .ok (false, v.reset, k') := by
    unfold handleReadTurn
    rw [received, ← settled]
    rfl
  rw [handleRead_eq, turn]
  refine ⟨v.reset, k', rfl, ⟨⟨⟨fine, connected, rfl, rfl⟩, rfl, rfl, rfl⟩, consumed⟩, ?_, ?_, rfl⟩
  · rw [← queued]
    exact conserved
  · exact (suffix.length_le.trans_eq (congrArg List.length queued)).trans_lt small

/-- What the poller is asked to watch for between two events. -/
def watchedFor (outBuffer : Bytes) : Mask :=
  (if outBuffer = [] then EPOLLIN else EPOLLOUT) ||| EPOLLET

/-- `HandleConn` goes on with the next request, or with the rest of the reply. -/
theorem handleConn_awaited (between : Between s)
    (asks : s.channel.events = awaited s.outBuffer) :
    ∃ timeout, s.handleConn.2 = .updatePoller timeout ∧ Between s.handleConn.1 ∧
      s.handleConn.1.outBuffer = s.outBuffer ∧
      s.handleConn.1.channel.events = watchedFor s.outBuffer := by
  have running : (!s.seperateTimer.error && s.seperateTimer.connectionState = .hConnected) = true := by
    simp [seperateTimer, between.fine, between.connected]
  unfold handleConn
  dsimp only
  rw [if_pos running]
  have events : s.seperateTimer.channel.events = awaited s.outBuffer := asks
  have kept : Between s.seperateTimer := ⟨{ between.vacant with }, between.inBuffer⟩
  unfold awaited watchedFor at *
  by_cases empty : s.outBuffer = []
  · rw [if_pos empty] at events ⊢
    rw [if_neg (by simp [events])]
    split_ifs
    all_goals
      refine ⟨_, rfl, ⟨{ kept.vacant with }, kept.inBuffer⟩, rfl, ?_⟩
      show s.seperateTimer.channel.events ||| (EPOLLIN ||| EPOLLET) = EPOLLIN ||| EPOLLET
      rw [events, BitVec.zero_or]
  · rw [if_neg empty] at events ⊢
    have apart : ¬ (s.seperateTimer.channel.events.has EPOLLIN &&
        s.seperateTimer.channel.events.has EPOLLOUT) = true := by
      rw [events]
      decide
    rw [if_pos (by rw [events]; decide), if_neg apart]
    refine ⟨_, rfl, ⟨{ kept.vacant with }, kept.inBuffer⟩, rfl, ?_⟩
    exact congrArg (· ||| EPOLLET) events

end HttpData

/-- An event of the connection, with the request that its reads bring, if any. -/
abbrev Turn := Event × Option Request

namespace Turn

/-- What happens at the connection of a client that sends whole requests for what the server has, one
    in each event that can be read, over a socket that does not fail. -/
def Fits : Turn → Prop
  | (e, some r) => e.revents = EPOLLIN ∧ .fail ∉ e.writes ∧
      (∃ rest, readN e.reads 0 [] = ⟨r.bytes.length, false, r.bytes, rest⟩) ∧
      ∃ a, r.whole (e.files 0) = .ok a ∧ a.GoesOn ∧ a.sent.length < 2 ^ 31
  | (e, none) => e.revents = EPOLLOUT ∧ .fail ∉ e.writes

/-- The reply to the request. -/
def reply : Turn → Bytes
  | (e, some r) => match r.whole (e.files 0) with
    | .ok a => a.sent
    | .error _ => []
  | (_, none) => []

end Turn

namespace Watched

variable {w w' : Watched Session} {e : Event} {replies : Bytes}

/-- Where the conversation stands after `replies`. -/
structure Conversing (w : Watched Session) (replies : Bytes) : Prop where
  sound : w.Sound
  calm : w.owner.crashed = none
  between : w.owner.http.Between
  conserved : w.owner.sent ++ w.owner.http.outBuffer = replies
  short : w.owner.http.outBuffer.length < 2 ^ 31
  armed : w.registration.armed = true
  watches : w.registration.mask = HttpData.watchedFor w.owner.http.outBuffer ∨
    w.owner.http.outBuffer = [] ∧ w.registration.mask = kDefaultEvent

theorem step_after (running : w.owner.Open) (delivers : w.registration.Delivers e.revents) :
    watchedConnection.step w e = some (w.after e) := if_pos ⟨running, delivers⟩

/-- A dispatch whose callbacks leave the connection between two requests. -/
theorem Conversing.dispatched (conversing : w.Conversing replies) {t : HttpData} {kt : Kernel}
    {u : HttpData} {ku : Kernel} {more : Bytes} (delivers : w.registration.Delivers e.revents)
    (alive : ¬ HttpData.HangUp e.revents)
    (read : HttpData.readPart e.revents (w.owner.before e) (w.owner.kernel e) = .ok (u, ku))
    (wrote : HttpData.writePart e.revents u ku = (t, kt))
    (between : t.Between) (asks : t.channel.events = HttpData.awaited t.outBuffer)
    (conserved : kt.sent ++ t.outBuffer = w.owner.sent ++ w.owner.http.outBuffer ++ more)
    (short : t.outBuffer.length < 2 ^ 31) :
    (w.after e).Conversing (replies ++ more) ∧
      (w.after e).owner.http.outBuffer = t.outBuffer := by
  have running : w.owner.Open := ⟨conversing.calm, by simp [conversing.between.connected]⟩
  obtain ⟨timeout, update, kept, queue, events⟩ := HttpData.handleConn_awaited between asks
  have handled := Session.handled_ok alive read
  rw [wrote] at handled
  have owner : (w.after e).owner = { w.owner with
      http := t.handleConn.1.granted t.handleConn.2, sent := kt.sent } := by
    unfold Watched.after Session.after
    rw [handled]
    simp only [update]
  have mod : (w.after e).mod = some (t.handleConn.1.channel.epollMod true).1 := by
    unfold Watched.after
    rw [handled]
    simp only [update]
  have sound := conversing.sound.after running delivers
  obtain ⟨armed, mask, -⟩ := sound.faithful _ mod
  rw [owner, update] at mask
  have left : (w.after e).owner.http.outBuffer = t.outBuffer := by
    rw [owner, update]
    exact queue
  refine ⟨⟨sound, ?_, ?_, ?_, left ▸ short, armed, .inl ?_⟩, left⟩
  · rw [owner]
    exact conversing.calm
  · rw [owner, update]
    exact ⟨{ kept.vacant with }, kept.inBuffer⟩
  · rw [left, owner, ← conversing.conserved]
    exact conserved
  · rw [left, mask]
    exact events

theorem Conversing.readable (conversing : w.Conversing replies)
    (delivers : w.registration.Delivers EPOLLIN) : w.owner.http.outBuffer = [] := by
  by_contra left
  have watched : w.registration.mask.has EPOLLIN = true :=
    delivers.watched (by decide) (by decide)
  rcases conversing.watches with mask | ⟨empty, -⟩
  · rw [mask, HttpData.watchedFor, if_neg left] at watched
    exact absurd watched (by decide)
  · exact left empty

/-- A request is read, and the socket takes what it can of the reply. -/
theorem Conversing.request (conversing : w.Conversing replies) {r : Request}
    (fits : Turn.Fits (e, some r)) (delivers : w.registration.Delivers e.revents) :
    (w.after e).Conversing (replies ++ Turn.reply (e, some r)) := by
  obtain ⟨revents, answering, ⟨rest, brings⟩, a, answers, goesOn, small⟩ := fits
  have empty := conversing.readable (revents ▸ delivers)
  have between : (w.owner.before e).Between :=
    ⟨{ conversing.between.vacant with }, conversing.between.inBuffer⟩
  obtain ⟨t, kt, ran, after, conserved, short, asks⟩ :=
    HttpData.handleRead_request (k := w.owner.kernel e) between empty rfl brings answers goesOn
      small answering
  have alive : ¬ HttpData.HangUp e.revents := by
    rw [revents]
    decide
  have reply : Turn.reply (e, some r) = a.sent := by
    unfold Turn.reply
    dsimp only
    rw [answers]
  rw [reply]
  have read : HttpData.readPart e.revents (w.owner.before e) (w.owner.kernel e) = .ok (t, kt) := by
    unfold HttpData.readPart
    rw [if_pos (by rw [revents]; decide)]
    exact ran
  have unwritten : HttpData.writePart e.revents t kt = (t, kt) := by
    unfold HttpData.writePart
    rw [if_neg (by rw [revents]; decide)]
  have conserved : kt.sent ++ t.outBuffer =
      w.owner.sent ++ w.owner.http.outBuffer ++ a.sent := by
    rw [empty, List.append_nil]
    exact conserved
  exact (conversing.dispatched delivers alive read unwritten after asks conserved short).1

/-- The socket takes more of the reply. -/
theorem Conversing.written (conversing : w.Conversing replies) (revents : e.revents = EPOLLOUT)
    (answering : .fail ∉ e.writes) (delivers : w.registration.Delivers e.revents) :
    (w.after e).Conversing replies ∧ (w.after e).owner.http.outBuffer <:+
      (writeLoop e.writes w.owner.http.outBuffer).left := by
  obtain ⟨left, k', wrote, conserved, suffix⟩ :=
    HttpData.handleWrite_answering (s := w.owner.before e) (k := w.owner.kernel e)
      conversing.between.fine conversing.between.connected answering conversing.short
  rw [HttpData.addEvents_awaited left rfl] at wrote
  have alive : ¬ HttpData.HangUp e.revents := by
    rw [revents]
    decide
  have unread : HttpData.readPart e.revents (w.owner.before e) (w.owner.kernel e) =
      .ok (w.owner.before e, w.owner.kernel e) := by
    unfold HttpData.readPart
    rw [if_neg (by rw [revents]; decide)]
  have wrote : HttpData.writePart e.revents (w.owner.before e) (w.owner.kernel e) =
      ({ w.owner.before e with
        outBuffer := left
        channel := { (w.owner.before e).channel with events := HttpData.awaited left } }, k') := by
    unfold HttpData.writePart
    rw [if_pos (by rw [revents]; decide)]
    exact wrote
  have conserved : k'.sent ++ left = w.owner.sent ++ w.owner.http.outBuffer ++ [] := by
    rw [List.append_nil]
    exact conserved
  obtain ⟨after, queue⟩ := conversing.dispatched delivers alive unread wrote
    ⟨{ conversing.between.vacant with }, conversing.between.inBuffer⟩ rfl conserved
    ((suffix.trans (writeLoop_suffix ..)).length_le.trans_lt conversing.short)
  rw [List.append_nil] at after
  refine ⟨after, ?_⟩
  rw [queue]
  exact suffix

theorem step_delivered (moved : watchedConnection.step w e = some w') :
    w.registration.Delivers e.revents ∧ w' = w.after e := by
  simp only [watchedConnection] at moved
  split_ifs at moved with delivered
  exact ⟨delivered.2, (Option.some.inj moved).symm⟩

theorem Conversing.step (conversing : w.Conversing replies) {turn : Turn} (fits : turn.Fits)
    (moved : watchedConnection.step w turn.1 = some w') : w'.Conversing (replies ++ turn.reply) := by
  obtain ⟨delivers, rfl⟩ := step_delivered moved
  obtain ⟨e, request⟩ := turn
  cases request with
  | some r => exact conversing.request fits delivers
  | none =>
      have written := (conversing.written fits.1 fits.2 delivers).1
      rwa [← List.append_nil replies] at written

theorem Conversing.replay (conversing : w.Conversing replies) {turns : List Turn}
    (fits : ∀ turn ∈ turns, turn.Fits)
    (ran : watchedConnection.replay w (turns.map Prod.fst) = some w') :
    w'.Conversing (replies ++ turns.flatMap Turn.reply) := by
  induction turns generalizing w replies with
  | nil =>
      obtain rfl := Option.some.inj ran
      rwa [List.flatMap_nil, List.append_nil]
  | cons turn turns ih =>
      obtain ⟨next, moved, rest⟩ := Option.bind_eq_some_iff.mp ran
      have after := conversing.step (fits turn List.mem_cons_self) moved
      rw [List.flatMap_cons, ← List.append_assoc]
      exact ih after (fun later there => fits later (List.mem_cons_of_mem _ there)) rest

/-- The socket can take at least one byte more, after signals have interrupted `write` some times. -/
def Takes (e : Event) : Prop :=
  e.revents = EPOLLOUT ∧ .fail ∉ e.writes ∧
    ∃ signals n rest, e.writes = List.replicate signals .eintr ++ .ok (n + 1) :: rest

theorem writeLoop_takes {buff : Bytes} (signals n : Nat) (rest : List WriteResult)
    (some_left : buff ≠ []) :
    (writeLoop (List.replicate signals .eintr ++ .ok (n + 1) :: rest) buff).left.length <
      buff.length := by
  cases buff with
  | nil => exact absurd rfl some_left
  | cons c cs =>
      have started : writeLoop (List.replicate signals .eintr ++ .ok (n + 1) :: rest) (c :: cs) =
          writeLoop (.ok (n + 1) :: rest) (c :: cs) := by
        induction signals with
        | zero => rfl
        | succ signals ih => exact ih
      rw [started]
      have shorter := (writeLoop_suffix rest ((c :: cs).drop (n + 1))).length_le
      rw [List.drop_succ_cons, List.length_drop] at shorter
      rw [List.length_cons]
      exact Nat.lt_succ_of_le (shorter.trans (Nat.sub_le _ _))

theorem Conversing.drained (conversing : w.Conversing replies) {es : List Event}
    (takes : ∀ e ∈ es, Takes e) (enough : w.owner.http.outBuffer.length ≤ es.length) :
    ∃ done w', done <+: es ∧ watchedConnection.replay w done = some w' ∧ w'.Conversing replies ∧
      w'.owner.http.outBuffer = [] := by
  induction es generalizing w with
  | nil =>
      have empty := List.length_eq_zero_iff.mp (Nat.le_zero.mp enough)
      exact ⟨[], w, List.prefix_refl _, rfl, conversing, empty⟩
  | cons e es ih =>
      by_cases empty : w.owner.http.outBuffer = []
      · exact ⟨[], w, List.nil_prefix, rfl, conversing, empty⟩
      · obtain ⟨revents, answering, signals, n, rest, writes⟩ := takes e List.mem_cons_self
        have delivers : w.registration.Delivers e.revents := by
          refine ⟨conversing.armed, ?_⟩
          rcases conversing.watches with mask | ⟨none_left, -⟩
          · rw [mask, revents, HttpData.watchedFor, if_neg empty]
            decide
          · exact absurd none_left empty
        have running : w.owner.Open :=
          ⟨conversing.calm, by simp [conversing.between.connected]⟩
        obtain ⟨after, suffix⟩ := conversing.written revents answering delivers
        rw [writes] at suffix
        have less := suffix.length_le.trans_lt (writeLoop_takes signals n rest empty)
        rw [List.length_cons] at enough
        obtain ⟨done, w', within, ran, conversing', sent⟩ :=
          ih after (fun later there => takes later (List.mem_cons_of_mem _ there)) (by omega)
        refine ⟨e :: done, w', (List.prefix_cons_inj e).mpr within, ?_, conversing', sent⟩
        rw [System.replay, step_after running delivers, Option.bind_some]
        exact ran

def fileRequest : Request where
  method := .methodGet
  target := text "/a.txt"
  httpVersion := .http11
  first := HttpData.firstField
  others := []
  asks := get_ne_post
  oneWord := by decide
  short := by decide

end Watched

end WebServer
