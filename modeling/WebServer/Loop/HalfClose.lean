import WebServer.Http.Answer
import WebServer.Http.Escape
import WebServer.Loop.Transcript

/-! # When the end of the stream is read

A chunk is brought to a fresh connection and the peer ends the stream, so that the end of file is read
either by the `HandleRead` that reads the chunk or by a later one, when the output has been sent. In the
first case `HandleConn` finds the connection in `H_DISCONNECTING` and never registers it again: what
a write left queued stays there, and a request that is still buffered is not answered. The two runs
agree when there is neither.
-/

namespace WebServer

open Lib

namespace HttpData

/-- The socket takes at once all that is queued. -/
def TakesAll (s : HttpData) (k : Kernel) : Prop := (k.write s.outBuffer).1.left = []

/-- The stages wait for the rest of what is buffered. -/
def Unfinished (s : HttpData) (k : Kernel) : Prop :=
  ∃ t, uriStage s k = .ok (t, k) ∧ Parsed s t ∧ t.state ≠ .stateFinish

end HttpData

section HalfClose

variable (files : Nat → Bytes → FileView)

/-- The chunk arrives, and `n` reads after it the end of file. -/
def closing (chunk : Bytes) (n : Nat) (writes : List WriteResult) : Event :=
  { revents := EPOLLIN, reads := .ok chunk :: HttpData.ended n, writes, files }

/-- The chunk arrives alone. -/
def bringing (chunk : Bytes) (writes : List WriteResult) : Event :=
  { revents := EPOLLIN, reads := [.ok chunk], writes, files }

/-- The socket becomes writable. -/
def edge (writes : List WriteResult) : Event := { revents := EPOLLOUT, reads := [], writes, files }

/-- The end of file arrives. -/
def ending : Event := { revents := EPOLLIN, reads := [.ok []], writes := [], files }

/-- This invocation of the call reads the end of file. -/
def EndRead (fd : Nat) (e : Event) (t : HttpData) (kt : Kernel) : Prop :=
  HttpData.Invoked ((Session.registered fd).before e) ((Session.registered fd).kernel e) t kt ∧
    (readN kt.reads 0 t.inBuffer).zero = true

variable (fd : Nat) (chunk : Bytes) (writes : List WriteResult) (edges : List (List WriteResult))

/-- The connection on which the end of file is still to be read. -/
def lateRun : Watched Session :=
  (Watched.registered fd).run (bringing files chunk writes :: edges.map (edge files))

/-- The bytes written are the same whether the end of file is read by the call that reads the chunk or
    later. -/
def HalfCloses (n : Nat) : Prop :=
  (Watched.registered fd).transcript
      (closing files chunk n writes :: (edges.map (edge files) ++ [ending files])) =
    (Watched.registered fd).transcript
      (bringing files chunk writes :: (edges.map (edge files) ++ [ending files]))

/-- A fresh connection with the chunk buffered. -/
def holding : HttpData := { (Session.registered fd).http.polled EPOLLIN with inBuffer := chunk }

/-- What the stages find behind the chunk. -/
def beyond : Kernel :=
  { reads := [], writes, files, looked := [], sent := [] }

/-- The end of file comes with the chunk: if the first request is served, its reply is taken at once
    and behind it there is at most an unfinished one. -/
def WholeWith : Prop :=
  ∀ v kv, HttpData.uriStage (holding fd chunk) (beyond files writes) = .ok (v, kv) →
    v.state = .stateFinish → v.TakesAll kv ∧
      (v.inBuffer = [] ∨ (HttpData.flush v kv).1.reset.Unfinished (HttpData.flush v kv).2)

/-- A later invocation reads the end of file: what is queued is taken at once, and no request is
    complete in the buffer. -/
def WholeBefore (n : Nat) : Prop :=
  ∀ t kt, EndRead fd (closing files chunk n writes) t kt → t.TakesAll kt ∧ t.Unfinished kt

/-- The end of file finds nothing that is still to be done. -/
def Unaffected (n : Nat) : Prop :=
  if n = 0 then WholeWith files fd chunk writes else WholeBefore files fd chunk writes n

end HalfClose

namespace HttpData

variable {s t u v : HttpData} {k k' kv : Kernel}

/-- A request is answered: its reply is queued and nothing else happens to what is written. -/
structure Replies (u v : HttpData) : Prop where
  reply : ∃ reply, reply ≠ [] ∧ replies v.history = replies u.history ++ reply
  error : v.error = u.error
  connectionState : v.connectionState = u.connectionState
  channel : v.channel = u.channel

theorem append_replies {reply : Bytes} (some_bytes : reply ≠ []) (s : HttpData) :
    Replies s (s.append reply) :=
  ⟨⟨reply, some_bytes, by simp [append, Output.reply]⟩, rfl, rfl, rfl⟩

theorem analysisFile_answers {flag : AnalysisState} (keep : Bool) (fileType : Bytes)
    (ran : analysisFile (replyStart keep) fileType u k = (flag, v, kv)) :
    flag = .analysisSuccess ∧ Replies u v ∨ flag = .analysisError := by
  unfold analysisFile at ran
  dsimp only at ran
  split at ran
  · cases ran
    exact .inr rfl
  · split_ifs at ran
    · cases ran
      exact .inl ⟨rfl, append_replies (replyStart_ne_nil _ _) u⟩
    · split at ran
      · cases ran
        exact .inr rfl
      · cases ran
        refine .inl ⟨rfl, append_replies ?_ u⟩
        rw [List.append_assoc, List.append_assoc]
        exact replyStart_ne_nil _ _

theorem analysisRequest_answers {flag : AnalysisState}
    (ran : analysisRequest u k = .ok (flag, v, kv)) :
    flag = .analysisSuccess ∧ Replies u v ∨ flag = .analysisError := by
  by_cases post : u.method = .methodPost
  · rw [analysisRequest_post post] at ran
    cases ran
    exact .inr rfl
  · obtain ⟨fileType, -, answered⟩ := analysisRequest_eq post
    rw [answered] at ran
    dsimp only at ran
    split_ifs at ran
    · cases ran
      have some_bytes : echoReply ≠ [] := by decide
      exact .inl ⟨rfl, ⟨echoReply, some_bytes, by simp [assign, Output.reply]⟩, rfl, rfl, rfl⟩
    · cases ran
      refine .inl ⟨rfl, { append_replies ?_ { u with
        keepAlive := u.keepAlive || keepAliveRequested u.headers } with }⟩
      rw [List.append_assoc]
      exact replyStart_ne_nil _ _
    · rcases analysisFile_answers _ _ (Except.ok.inj ran) with ⟨same, replied⟩ | failed
      · exact .inl ⟨same, { replied with }⟩
      · exact .inr failed

/-- How the stages leave a connection: broken, with a reply to the request, or waiting. -/
inductive Staged (s : HttpData) (k : Kernel) : HttpData → Kernel → Prop where
  | broken {w kw} : w.error = true → Staged s k w kw
  | replied {w kw} : Replies s w → w.state = .stateFinish → Staged s k w kw
  | waiting {w} : Parsed s w → w.state ≠ .stateFinish → Staged s k w k

theorem uriStage_staged (unfinished : s.state ≠ .stateFinish)
    (ran : uriStage s k = .ok (v, kv)) : Staged s k v kv := by
  cases uriStage_ending ran with
  | waits parsed finished => exact .waiting parsed fun gone => unfinished (finished gone)
  | rejects => exact .broken rfl
  | @analyses u _ _ entered parsed analysing ran =>
      unfold analysisStage at ran
      rw [if_pos analysing] at ran
      cases answered : analysisRequest u k with
      | error e =>
          rw [answered] at ran
          cases ran
      | ok answer =>
          obtain ⟨flag, w, kw⟩ := answer
          rw [answered] at ran
          rcases analysisRequest_answers answered with ⟨rfl, replied⟩ | rfl
          · cases ran
            refine .replied ⟨?_, replied.error.trans parsed.error,
              replied.connectionState.trans parsed.connectionState,
              replied.channel.trans parsed.channel⟩ rfl
            obtain ⟨reply, some_bytes, logged⟩ := replied.reply
            exact ⟨reply, some_bytes, by rw [← parsed.history]; exact logged⟩
          · cases ran
            exact .broken rfl

theorem takesAll_empty (empty : s.outBuffer = []) (k : Kernel) : s.TakesAll k := by
  unfold TakesAll Kernel.write
  rw [empty]
  cases k.writes <;> rfl

/-- Nothing stays queued. -/
theorem flush_all (fine : s.error = false) (running : s.connectionState ≠ .hDisconnected)
    (all : s.TakesAll k) :
    (flush s k).1 = { s with outBuffer := [] } ∧ (flush s k).2.sent = k.sent ++ s.outBuffer := by
  have sent := write_whole all
  unfold TakesAll at all
  unfold flush
  split_ifs with queued
  · have more : ¬ (writeLoop k.writes s.outBuffer).stop = .failed := fun failed =>
      writeLoop_failed failed all
    have left : (writeLoop k.writes s.outBuffer).left = [] := all
    have wrote : writeN k s.outBuffer =
        ((s.outBuffer.length : Int), [], (k.write s.outBuffer).2) := by
      unfold writeN
      have same : (k.write s.outBuffer).1 = writeLoop k.writes s.outBuffer := rfl
      cases stop : (writeLoop k.writes s.outBuffer).stop with
      | failed => exact absurd stop more
      | complete | again => simp [same, stop, left]
    have nonnegative : ¬ (s.outBuffer.length : Int) < 0 := by omega
    unfold handleWrite
    rw [if_pos (by simp [fine, running]), wrote]
    dsimp only
    rw [if_neg nonnegative, if_neg (by simp)]
    exact ⟨rfl, sent⟩
  · have empty : s.outBuffer = [] := List.length_eq_zero_iff.mp (by omega)
    exact ⟨by rw [← empty], by rw [empty, List.append_nil]⟩

theorem flush_sent (fine : s.error = false) (running : s.connectionState ≠ .hDisconnected) :
    (flush s k).2.sent =
      k.sent ++ (writeLoop k.writes s.outBuffer).accepted s.outBuffer := by
  unfold flush handleWrite
  split_ifs with queued open_
  · dsimp only
    rw [writeN_kernel]
    rfl
  · exact absurd (by simp [fine, running]) open_
  · have empty : s.outBuffer = [] := List.length_eq_zero_iff.mp (by omega)
    simp [empty, WriteOutcome.accepted]

end HttpData

section HalfClose

variable {files : Nat → Bytes → FileView} {fd : Nat} {chunk : Bytes} {writes : List WriteResult}
  {edges : List (List WriteResult)} {n : Nat}

open HttpData

theorem edges_quiet (edges : List (List WriteResult)) :
    ∀ e ∈ edges.map (edge files) ++ [ending files], Watched.Quiet e := by
  intro e there
  rcases List.mem_append.mp there with writable | last
  · obtain ⟨script, -, rfl⟩ := List.mem_map.mp writable
    exact .inl rfl
  · rw [List.mem_singleton.mp last]
    exact .inr ⟨rfl, rfl⟩

theorem readN_chunk (some_bytes : chunk ≠ []) (rest : List ReadResult) :
    readN (.ok chunk :: rest) 0 [] = readN rest chunk.length chunk := by
  have positive : ¬ chunk.length = 0 := fun none => some_bytes (List.length_eq_zero_iff.mp none)
  simp only [readN, if_neg positive, Nat.zero_add, List.nil_append]

theorem fresh_connected (fd : Nat) :
    ((Session.registered fd).http.polled EPOLLIN).connectionState = .hConnected := rfl

section Received

variable {k : Kernel} {left : List ReadResult}

theorem receive_chunk (fd : Nat) (brought : chunk.length < 2 ^ 31)
    (read : readN k.reads 0 [] = ⟨chunk.length, false, chunk, left⟩) :
    receive ((Session.registered fd).http.polled EPOLLIN) k =
      uriStage (holding fd chunk) { k with reads := left } := by
  have none_buffered : ((Session.registered fd).http.polled EPOLLIN).inBuffer = [] := rfl
  have data : ¬ (ReadOutcome.mk chunk.length false chunk left).readNum < 0 := by
    have counted : (ReadOutcome.mk chunk.length false chunk left).readNum = chunk.length :=
      readNum_of_lt brought
    omega
  unfold receive
  rw [none_buffered, read]
  dsimp only
  rw [if_neg (by simp [fresh_connected]), if_neg data, if_neg (by simp)]
  rfl

theorem receive_chunkEnd (fd : Nat) (some_bytes : chunk ≠ []) (brought : chunk.length < 2 ^ 31)
    (read : readN k.reads 0 [] = ⟨chunk.length, true, chunk, left⟩) :
    receive ((Session.registered fd).http.polled EPOLLIN) k =
      uriStage { holding fd chunk with connectionState := .hDisconnecting }
        { k with reads := left } := by
  have none_buffered : ((Session.registered fd).http.polled EPOLLIN).inBuffer = [] := rfl
  have counted : (ReadOutcome.mk chunk.length true chunk left).readNum = chunk.length :=
    readNum_of_lt brought
  have data : ¬ (ReadOutcome.mk chunk.length true chunk left).readNum < 0 := by omega
  have positive : ¬ (ReadOutcome.mk chunk.length true chunk left).readNum = 0 := fun none =>
    some_bytes (List.length_eq_zero_iff.mp (by omega))
  unfold receive
  rw [none_buffered, read]
  dsimp only
  rw [if_neg (by simp [fresh_connected]), if_neg data, if_pos rfl, if_neg positive]
  rfl

end Received

/-- One connection has noticed the end of the stream, the other has not. -/
def Apart (c c' : ConnectionState) : Prop := c = .hDisconnecting ∧ c' = .hConnected

theorem holding_apart (fd : Nat) (chunk : Bytes) (k : Kernel) (unsent : k.sent = []) :
    Both (StageLinked Apart [] [])
      (uriStage { holding fd chunk with connectionState := .hDisconnecting } k)
      (uriStage (holding fd chunk) k) := by
  apply uriStage_linked
  · exact ⟨⟨rfl, rfl, rfl, rfl, ⟨rfl, rfl⟩, rfl, rfl, rfl, rfl, rfl⟩, fun _ => rfl⟩
  · exact ⟨rfl, rfl, rfl, rfl, ⟨[], unsent, unsent⟩⟩

theorem left_alone {t : HttpData} (parked : t.error = true ∨ t.connectionState ≠ .hConnected) :
    t.Parks ∨ t.Closes := by
  by_cases parks : t.Parks
  · exact .inl parks
  · exact .inr ⟨parks, parked⟩

theorem settle_waits {v : HttpData} {k : Kernel} (fine : v.error = false)
    (running : v.connectionState ≠ .hDisconnected) (unfinished : v.state ≠ .stateFinish)
    (all : v.TakesAll k) :
    ∃ u ku, settle v k = (false, u, ku) ∧ u.connectionState = v.connectionState ∧
      u.outBuffer = [] ∧ ku.sent = k.sent ++ v.outBuffer := by
  obtain ⟨flushed, sent⟩ := flush_all fine running all
  refine ⟨(flush v k).1.addEvents EPOLLIN, (flush v k).2, ?_, by rw [flushed]; rfl,
    by rw [flushed]; rfl, sent⟩
  unfold settle
  rw [if_neg (by simp [fine])]
  dsimp only
  rw [if_neg (by simp [flushed, unfinished]), if_pos (by simp [flushed, fine, running])]

theorem settle_finished {v : HttpData} {k : Kernel} (fine : v.error = false)
    (running : v.connectionState ≠ .hDisconnected) (finished : v.state = .stateFinish)
    (all : v.TakesAll k) :
    settle v k = (v.inBuffer.length > 0 && v.connectionState ≠ .hDisconnecting,
      ({ v with outBuffer := [] } : HttpData).reset, (flush v k).2) ∧
      (flush v k).2.sent = k.sent ++ v.outBuffer := by
  obtain ⟨flushed, sent⟩ := flush_all fine running all
  refine ⟨?_, sent⟩
  unfold settle
  rw [if_neg (by simp [fine])]
  dsimp only
  rw [if_pos (by simp [flushed, fine, finished]), flushed]
  rfl

theorem receive_nothing {t : HttpData} {k : Kernel} (reads : k.reads = [])
    (connected : t.connectionState = .hConnected) : receive t k = uriStage t k := by
  have found : readN k.reads 0 t.inBuffer = ⟨0, false, t.inBuffer, []⟩ := by
    rw [reads]
    rfl
  have none_read : (ReadOutcome.mk 0 false t.inBuffer []).readNum = 0 := by
    show (0 : Int).bmod (2 ^ 32) = 0
    decide
  have same : { k with reads := [] } = k := by rw [← reads]
  unfold receive
  rw [found]
  dsimp only
  rw [if_neg (by simp [connected]), if_neg (by omega), if_neg (by simp), same]

theorem unfinished_turn {t : HttpData} {k : Kernel} (reads : k.reads = []) (fine : t.error = false)
    (connected : t.connectionState = .hConnected) (waits : t.Unfinished k) (all : t.TakesAll k) :
    ∃ u ku, handleRead t k = .ok (u, ku) ∧ u.outBuffer = [] ∧ ku.sent = k.sent ++ t.outBuffer := by
  obtain ⟨x, staged, parsed, unfinished⟩ := waits
  have received := (receive_nothing reads connected).trans staged
  have all' : x.TakesAll k := by
    unfold TakesAll at all ⊢
    rw [parsed.outBuffer]
    exact all
  obtain ⟨u, ku, settled, -, empty, sent⟩ := settle_waits (parsed.error.trans fine)
    (by simp [parsed.connectionState, connected]) unfinished all'
  refine ⟨u, ku, handleRead_once (handleReadTurn_of received settled), empty, ?_⟩
  rw [sent, parsed.outBuffer]

/-- The reply is taken, and behind the request there is at most an unfinished one. -/
theorem served_turn {s v : HttpData} {k kv : Kernel} (received : receive s k = .ok (v, kv))
    (unread : kv.reads = []) (fine : v.error = false) (connected : v.connectionState = .hConnected)
    (finished : v.state = .stateFinish) (all : v.TakesAll kv)
    (waits : v.inBuffer = [] ∨ (flush v kv).1.reset.Unfinished (flush v kv).2) :
    ∃ u ku, handleRead s k = .ok (u, ku) ∧ u.outBuffer = [] ∧ ku.sent = kv.sent ++ v.outBuffer := by
  obtain ⟨settled, sends⟩ := settle_finished fine (by simp [connected]) finished all
  have turn := handleReadTurn_of received settled
  by_cases more : v.inBuffer = []
  · have last : (v.inBuffer.length > 0 && v.connectionState ≠ .hDisconnecting) = false := by
      simp [more]
    rw [last] at turn
    exact ⟨_, _, handleRead_once turn, rfl, sends⟩
  · have again : (v.inBuffer.length > 0 && v.connectionState ≠ .hDisconnecting) = true := by
      simp [connected, List.length_pos_iff, more]
    rw [again] at turn
    have waits := waits.resolve_left more
    rw [(flush_all fine (by simp [connected]) all).1] at waits
    obtain ⟨u, ku, nested, empty, later⟩ :=
      unfinished_turn (t := ({ v with outBuffer := [] } : HttpData).reset)
        ((flush_flushed v kv).reads.trans unread) fine connected waits (takesAll_empty rfl _)
    refine ⟨u, ku, (handleRead_nested turn).trans nested, empty, ?_⟩
    rw [later, sends]
    exact List.append_nil _

theorem handleReadTurn_fault {s : HttpData} {k : Kernel} {fault : Fault}
    (received : receive s k = .error fault) : handleReadTurn s k = .error fault := by
  unfold handleReadTurn
  rw [received]
  rfl

/-- The stages with and without the end of file behind the chunk. -/
theorem received_chunk (files : Nat → Bytes → FileView) (fd : Nat) (writes : List WriteResult)
    (some_bytes : chunk ≠ []) (brought : chunk.length < 2 ^ 31) :
    receive ((Session.registered fd).before (closing files chunk 0 writes))
        ((Session.registered fd).kernel (closing files chunk 0 writes)) =
      uriStage { holding fd chunk with connectionState := .hDisconnecting } (beyond files writes) ∧
    receive ((Session.registered fd).before (bringing files chunk writes))
        ((Session.registered fd).kernel (bringing files chunk writes)) =
      uriStage (holding fd chunk) (beyond files writes) :=
  ⟨receive_chunkEnd fd some_bytes brought (readN_chunk some_bytes [.ok []]),
    receive_chunk fd brought (readN_chunk some_bytes [])⟩

theorem wholeWith_halfCloses (some_bytes : chunk ≠ []) (brought : chunk.length < 2 ^ 31)
    (whole : WholeWith files fd chunk writes) : HalfCloses files fd chunk writes edges 0 := by
  have quiet : ∀ e ∈ edges.map (edge files) ++ [ending files], Watched.Quiet e := edges_quiet edges
  obtain ⟨early, late⟩ := received_chunk files fd writes some_bytes brought
  have apart := holding_apart fd chunk (beyond files writes) rfl
  generalize first : uriStage { holding fd chunk with connectionState := .hDisconnecting }
    (beyond files writes) = a at apart
  generalize second : uriStage (holding fd chunk) (beyond files writes) = b at apart
  have early := early.trans first
  have late := late.trans second
  unfold HalfCloses
  cases apart with
  | error fault =>
      rw [Watched.transcript_fault fd rfl (handleReadTurn_fault early),
        Watched.transcript_fault fd rfl (handleReadTurn_fault late)]
  | @ok a b related =>
      obtain ⟨t, kt⟩ := a
      obtain ⟨v, kv⟩ := b
      obtain ⟨linked, beside⟩ := related
      obtain ⟨x, sent, sent'⟩ := beside.sent
      have same : kt.sent = kv.sent := sent.trans sent'.symm
      have closing_ : t.connectionState = .hDisconnecting := linked.connectionState.1
      have connected : v.connectionState = .hConnected := linked.connectionState.2
      have fresh : (holding fd chunk).state ≠ .stateFinish := by
        show ProcessState.stateParseUri ≠ .stateFinish
        decide
      by_cases failed : v.error = true
      · have failed' : t.error = true := linked.error.trans failed
        rw [Watched.transcript_parked fd rfl
            (handleRead_once (handleReadTurn_of early (settle_error failed')))
            (left_alone (.inl failed')),
          Watched.transcript_parked fd rfl
            (handleRead_once (handleReadTurn_of late (settle_error failed)))
            (left_alone (.inl failed)), same]
      have fine : v.error = false := by simpa using failed
      have fine' : t.error = false := linked.error.trans fine
      have takes (all : v.TakesAll kv) : t.TakesAll kt := by
        unfold TakesAll Kernel.write at all ⊢
        rw [linked.outBuffer, beside.writes]
        exact all
      cases uriStage_staged fresh second with
      | broken broken => exact absurd broken failed
      | waiting parsed unfinished =>
          have none_queued : v.outBuffer = [] := parsed.outBuffer
          have all : v.TakesAll (beyond files writes) := takesAll_empty none_queued _
          obtain ⟨u, ku, settled, kept, -, sends⟩ := settle_waits fine' (by simp [closing_])
            (linked.state ▸ unfinished) (takes all)
          obtain ⟨u', ku', settled', -, empty, sends'⟩ :=
            settle_waits fine (by simp [connected]) unfinished all
          rw [Watched.transcript_parked fd rfl
              (handleRead_once (handleReadTurn_of early settled))
              (left_alone (.inr (by simp [kept, closing_]))),
            Watched.transcript_first fd rfl (handleRead_once (handleReadTurn_of late settled')) empty
              quiet, sends, sends', same, linked.outBuffer]
      | replied replies finished =>
          obtain ⟨all, waits⟩ := whole v kv second finished
          obtain ⟨settled, sends⟩ := settle_finished fine' (by simp [closing_])
            (linked.state.trans finished) (takes all)
          have unread : kv.reads = [] := (uriStage_advance second).reads
          obtain ⟨u, ku, served, empty, sends'⟩ :=
            served_turn late unread fine connected finished all waits
          rw [closing_] at settled
          rw [Watched.transcript_parked fd rfl
              (handleRead_once (handleReadTurn_of early (by simpa using settled)))
              (left_alone (.inr (by simp [reset, seperateTimer]))),
            Watched.transcript_first fd rfl served empty quiet, sends, sends', same, linked.outBuffer]

theorem invoked_connected {s t : HttpData} {k kt : Kernel} (connected : s.connectionState = .hConnected)
    (fine : s.error = false) (invoked : Invoked s k t kt) :
    t.error = false ∧ t.connectionState = .hConnected := by
  induction invoked with
  | call => exact ⟨fine, connected⟩
  | nested _ turn ih =>
      obtain ⟨fine, running⟩ := handleReadTurn_running turn
      refine ⟨fine, ?_⟩
      rcases (handleReadTurn_dispatched turn).connectionState with same | closing
      · exact same.trans ih.2
      · exact absurd closing running

theorem handleRead_invoked {s t : HttpData} {k kt : Kernel} (invoked : Invoked s k t kt) :
    handleRead s k = handleRead t kt := by
  induction invoked with
  | call => rfl
  | nested _ turn ih => exact ih.trans (handleRead_nested turn)

theorem settle_closing {u : HttpData} {k : Kernel} (fine : u.error = false)
    (closing : u.connectionState = .hDisconnecting) :
    ∃ v kv, settle u k = (false, v, kv) ∧ v.connectionState = .hDisconnecting ∧
      kv.sent = k.sent ++ (writeLoop k.writes u.outBuffer).accepted u.outBuffer := by
  have sent := flush_sent (k := k) fine (by simp [closing])
  have closing' : (flush u k).1.connectionState = .hDisconnecting :=
    (flush_dispatched u k).connectionState.elim (fun same => same.trans closing) id
  obtain ⟨v, settled, drops⟩ : ∃ v, settle u k = (false, v, (flush u k).2) ∧
      v.connectionState = .hDisconnecting := by
    unfold settle
    rw [if_neg (by simp [fine])]
    dsimp only
    split_ifs
    · exact ⟨(flush u k).1.reset, by simp [reset, seperateTimer, closing'], closing'⟩
    · exact ⟨_, rfl, closing'⟩
    · exact ⟨_, rfl, closing'⟩
  exact ⟨v, _, settled, drops, sent⟩

theorem ended_turn {t : HttpData} {k : Kernel} (reads : k.reads = ended 0)
    (fine : t.error = false) :
    ∃ u ku, handleRead t k = .ok (u, ku) ∧ (u.error = true ∨ u.connectionState ≠ .hConnected) ∧
      ku.sent = k.sent ++ (writeLoop k.writes t.outBuffer).accepted t.outBuffer := by
  obtain ⟨inBuffer, received⟩ := receive_ended (s := t) reads
  obtain ⟨u, received, closing, fine', queued⟩ : ∃ u, receive t k = .ok (u, { k with reads := [] }) ∧
      u.connectionState = .hDisconnecting ∧ u.error = false ∧ u.outBuffer = t.outBuffer :=
    ⟨_, received, rfl, fine, rfl⟩
  obtain ⟨v, kv, settled, drops, sent⟩ := settle_closing (k := { k with reads := [] }) fine' closing
  rw [queued] at sent
  exact ⟨v, kv, handleRead_once (handleReadTurn_of received settled), .inr (by simp [drops]), sent⟩

/-- The invocation that reads the end of file, and the same without it. -/
theorem endRead_late (some_bytes : chunk ≠ []) {t : HttpData} {kt : Kernel}
    (endRead : EndRead fd (closing files chunk (n + 1) writes) t kt) :
    kt.reads = ended 0 ∧ t.error = false ∧ t.connectionState = .hConnected ∧
      Invoked ((Session.registered fd).before (bringing files chunk writes))
        ((Session.registered fd).kernel (bringing files chunk writes)) t { kt with reads := [] } := by
  obtain ⟨invoked, zero⟩ := endRead
  obtain ⟨fine, connected⟩ := invoked_connected (fresh_connected fd) rfl invoked
  have found (rest : List ReadResult) : readN (.ok chunk :: rest) 0
      ((Session.registered fd).before (closing files chunk (n + 1) writes)).inBuffer =
        readN rest chunk.length chunk := readN_chunk some_bytes rest
  rcases invoked.unended some_bytes rfl with first | ⟨j, reads, late⟩
  · cases first
    have none_there : ((Session.registered fd).kernel
        (closing files chunk (n + 1) writes)).reads = .ok chunk :: ended (n + 1) := rfl
    rw [none_there, found] at zero
    cases zero
  · cases j with
    | zero => exact ⟨reads, fine, connected, late⟩
    | succ j =>
        rw [reads] at zero
        cases zero

theorem wholeBefore_halfCloses (some_bytes : chunk ≠ []) {t : HttpData} {kt : Kernel}
    (endRead : EndRead fd (closing files chunk (n + 1) writes) t kt)
    (whole : WholeBefore files fd chunk writes (n + 1)) :
    HalfCloses files fd chunk writes edges (n + 1) := by
  obtain ⟨all, waits⟩ := whole t kt endRead
  obtain ⟨reads, fine, connected, late⟩ := endRead_late some_bytes endRead
  obtain ⟨u, ku, ran, drops, sent⟩ := ended_turn reads fine
  obtain ⟨x, staged, parsed, unfinished⟩ := waits
  have waits' : t.Unfinished { kt with reads := [] } := by
    refine ⟨x, ?_, parsed, unfinished⟩
    rw [uriStage_reread, staged]
    rfl
  obtain ⟨u', ku', ran', empty, sent'⟩ := unfinished_turn rfl fine connected waits' all
  have taken : (writeLoop kt.writes t.outBuffer).accepted t.outBuffer = t.outBuffer := by
    have parts := accepted_append_left kt.writes t.outBuffer
    have left : (writeLoop kt.writes t.outBuffer).left = [] := all
    rwa [left, List.append_nil] at parts
  unfold HalfCloses
  rw [Watched.transcript_parked fd rfl ((handleRead_invoked endRead.1).trans ran) (left_alone drops),
    Watched.transcript_first fd rfl ((handleRead_invoked late).trans ran') empty
      (edges_quiet edges), sent, sent', taken]

theorem handleRead_later {t u v : HttpData} {k ku kv : Kernel} (received : receive t k = .ok (v, kv))
    (ran : handleRead t k = .ok (u, ku)) : v.history <+: u.history := by
  cases settled : settle v kv with
  | mk again result =>
      obtain ⟨w, kw⟩ := result
      have turn := handleReadTurn_of received settled
      have kept : w.history = v.history := by
        rw [← settle_history v kv, settled]
      cases again with
      | false =>
          rw [handleRead_once turn] at ran
          cases ran
          rw [kept]
      | true =>
          rw [handleRead_nested turn] at ran
          rw [← kept]
          exact handleRead_history ran

/-- An invocation that reads nothing, breaks nothing and brings no reply waits for more bytes. -/
theorem unfinished_of_silent {t u : HttpData} {k ku : Kernel} (reads : k.reads = [])
    (connected : t.connectionState = .hConnected) (unfinished : t.state ≠ .stateFinish)
    (ran : handleRead t k = .ok (u, ku)) (fine : u.error = false)
    (silent : replies u.history = replies t.history) : t.Unfinished k := by
  have received := receive_nothing reads connected
  cases staged : uriStage t k with
  | error fault =>
      rw [handleRead_eq, handleReadTurn_fault (received.trans staged)] at ran
      cases ran
  | ok result =>
      obtain ⟨v, kv⟩ := result
      rw [staged] at received
      cases uriStage_staged unfinished staged with
      | broken failed =>
          have turn := handleReadTurn_of received (settle_error failed)
          rw [handleRead_once turn] at ran
          cases ran
          rw [failed] at fine
          cases fine
      | waiting parsed waits => exact ⟨v, staged, parsed, waits⟩
      | replied replied _ =>
          obtain ⟨reply, some_bytes, logged⟩ := replied.reply
          have later : v.history <+: u.history := handleRead_later received ran
          obtain ⟨more, whole⟩ := later
          rw [← whole, replies_append, logged, List.append_assoc] at silent
          have none := List.append_right_eq_self.mp silent
          exact absurd (List.append_eq_nil_iff.mp none).1 some_bytes

theorem invoked_unfinished {s t : HttpData} {k kt : Kernel} (fresh : s.state ≠ .stateFinish)
    (invoked : Invoked s k t kt) : t.state ≠ .stateFinish := by
  cases invoked with
  | call => exact fresh
  | nested _ turn =>
      obtain ⟨u, ku, -, settled⟩ := handleReadTurn_parts turn
      obtain ⟨-, -, -, -, -, events, outBuffer, rfl⟩ := settle_again settled
      show ProcessState.stateParseUri ≠ .stateFinish
      decide

/-- The end of file is read when the output has been sent. -/
structure Late (files : Nat → Bytes → FileView) (fd : Nat) (chunk : Bytes)
    (writes : List WriteResult) (edges : List (List WriteResult)) : Prop where
  alive : (lateRun files fd chunk writes edges).Alive
  flushed : (lateRun files fd chunk writes edges).owner.http.outBuffer = []

theorem lateRun_first (files : Nat → Bytes → FileView) (fd : Nat) (chunk : Bytes)
    (writes : List WriteResult) (edges : List (List WriteResult)) :
    lateRun files fd chunk writes edges =
      ((Watched.registered fd).after (bringing files chunk writes)).run (edges.map (edge files)) := by
  unfold lateRun
  conv_lhs => unfold Watched.run
  exact if_pos ⟨Watched.registered_open fd, Watched.registered_delivers fd⟩

/-- The late run writes every reply in order. -/
theorem late_transcript (late : Late files fd chunk writes edges)
    (orderly : (Watched.registered fd).OrderlyRun
      (bringing files chunk writes :: edges.map (edge files))) :
    ∃ t kt more,
      handleRead ((Session.registered fd).before (bringing files chunk writes))
        ((Session.registered fd).kernel (bringing files chunk writes)) = .ok (t, kt) ∧
      t.error = false ∧
      (Watched.registered fd).transcript
        (bringing files chunk writes :: (edges.map (edge files) ++ [ending files])) =
          replies t.history ++ more := by
  have first := lateRun_first files fd chunk writes edges
  have alive : (((Watched.registered fd).after (bringing files chunk writes)).run
      (edges.map (edge files))).Alive := first ▸ late.alive
  have started := Watched.alive_start alive
  cases read : handleRead ((Session.registered fd).before (bringing files chunk writes))
      ((Session.registered fd).kernel (bringing files chunk writes)) with
  | error fault =>
      exact absurd started.1 (Watched.after_fault (w := Watched.registered fd) rfl read)
  | ok result =>
      obtain ⟨t, kt⟩ := result
      obtain ⟨owner, -⟩ := Watched.after_read (w := Watched.registered fd) rfl read
      have connected := started.2
      rw [owner] at connected
      obtain ⟨fine, -⟩ := handleConn_connected connected
      have grows : t.history <+: (lateRun files fd chunk writes edges).owner.http.history := by
        have kept : ((Watched.registered fd).after (bringing files chunk writes)).owner.http.history =
            t.history := by
          rw [owner]
          exact handleConn_history t _
        rw [first, ← kept]
        exact Watched.run_history _ _
      have ordered : (lateRun files fd chunk writes edges).owner.http.Ordered
          (lateRun files fd chunk writes edges).owner.sent :=
        Watched.run_ordered orderly (fun _ => rfl) (.of_eq rfl)
      have whole := ordered.whole (.inr late.flushed)
      rw [late.flushed, List.append_nil] at whole
      obtain ⟨later, grown⟩ := grows
      refine ⟨t, kt, replies later, rfl, fine, ?_⟩
      rw [← List.cons_append, Watched.transcript_run late.alive]
      have quiet : ∀ e ∈ [ending files], Watched.Quiet e := edges_quiet []
      have silent := Watched.transcript_quiet quiet late.flushed
      exact silent.trans (by rw [whole, ← grown, replies_append])

/-- What the write of an early run takes is all that a late run writes only if it takes everything,
    and nothing is written later. -/
theorem taken_whole {sent queued accepted left more : Bytes} (parts : accepted ++ left = queued)
    (same : sent ++ accepted = sent ++ queued ++ more) : left = [] ∧ more = [] := by
  rw [← parts, List.append_assoc, List.append_assoc] at same
  have none := List.append_right_eq_self.mp (List.append_cancel_left same).symm
  exact List.append_eq_nil_iff.mp none

theorem orderly_calls {es : List Event}
    (orderly : (Watched.registered fd).OrderlyRun (bringing files chunk writes :: es)) :
    ∀ t kt, Invoked ((Session.registered fd).before (bringing files chunk writes))
      ((Session.registered fd).kernel (bringing files chunk writes)) t kt → HttpData.Orderly t kt := by
  unfold Watched.OrderlyRun at orderly
  rw [if_pos ⟨Watched.registered_open fd, Watched.registered_delivers fd⟩] at orderly
  have alive : ¬ HangUp EPOLLIN := by decide
  have readable : Readable EPOLLIN := by decide
  exact (orderly.1 alive).1 readable

theorem halfCloses_wholeBefore (some_bytes : chunk ≠ []) (late : Late files fd chunk writes edges)
    (orderly : (Watched.registered fd).OrderlyRun
      (bringing files chunk writes :: edges.map (edge files)))
    (closes : HalfCloses files fd chunk writes edges (n + 1)) :
    WholeBefore files fd chunk writes (n + 1) := by
  intro t kt endRead
  obtain ⟨reads, fine, connected, invoked⟩ := endRead_late some_bytes endRead
  obtain ⟨u, ku, early, drops, sent⟩ := ended_turn reads fine
  obtain ⟨v, kv, more, ran, fine', written⟩ := late_transcript late orderly
  have tails := (handleRead_invoked invoked).symm.trans ran
  obtain ⟨-, ordered⟩ := invoked_ordered (orderly_calls orderly) rfl (.of_eq rfl) invoked
  have whole : kt.sent ++ t.outBuffer = replies t.history := ordered.whole (.inl (by simp [fine]))
  obtain ⟨later, grown⟩ := handleRead_history tails
  unfold HalfCloses at closes
  rw [Watched.transcript_parked fd rfl ((handleRead_invoked endRead.1).trans early) (left_alone drops),
    sent, written, ← grown, replies_append, ← whole, List.append_assoc (kt.sent ++ t.outBuffer)] at closes
  obtain ⟨all, none⟩ := taken_whole (accepted_append_left kt.writes t.outBuffer) closes
  refine ⟨all, ?_⟩
  have silent : replies v.history = replies t.history := by
    rw [← grown, replies_append, (List.append_eq_nil_iff.mp none).1, List.append_nil]
  have fresh : t.state ≠ .stateFinish := by
    refine invoked_unfinished ?_ endRead.1
    show ProcessState.stateParseUri ≠ .stateFinish
    decide
  obtain ⟨x, staged, parsed, unfinished⟩ :=
    unfinished_of_silent rfl connected fresh tails fine' silent
  refine ⟨x, ?_, parsed, unfinished⟩
  have again := uriStage_reread t { kt with reads := [] } kt.reads
  rw [staged] at again
  exact again

theorem halfCloses_wholeWith (some_bytes : chunk ≠ []) (brought : chunk.length < 2 ^ 31)
    (late : Late files fd chunk writes edges)
    (orderly : (Watched.registered fd).OrderlyRun
      (bringing files chunk writes :: edges.map (edge files)))
    (closes : HalfCloses files fd chunk writes edges 0) : WholeWith files fd chunk writes := by
  intro v kv second finished
  obtain ⟨receivedEnd, received⟩ := received_chunk files fd writes some_bytes brought
  have received := received.trans second
  have apart := holding_apart fd chunk (beyond files writes) rfl
  rw [second] at apart
  generalize first : uriStage { holding fd chunk with connectionState := .hDisconnecting }
    (beyond files writes) = a at apart
  have receivedEnd := receivedEnd.trans first
  cases apart with
  | @ok a _ related =>
  obtain ⟨u, ku⟩ := a
  obtain ⟨linked, beside⟩ := related
  obtain ⟨x, sentEnd, sent⟩ := beside.sent
  obtain ⟨t, kt, more, ran, fine, written⟩ := late_transcript late orderly
  have unbroken : v.error = false := by
    by_contra broken
    have failed : v.error = true := by simpa using broken
    rw [handleRead_once (handleReadTurn_of received (settle_error failed))] at ran
    cases ran
    rw [failed] at fine
    cases fine
  have connected : v.connectionState = .hConnected := linked.connectionState.2
  obtain ⟨w, kw, settled, closing_, sends⟩ :=
    settle_closing (k := ku) (linked.error.trans unbroken) linked.connectionState.1
  have ordered : v.Ordered kv.sent :=
    receive_ordered (orderly_calls orderly _ _ .call) rfl (.of_eq rfl) received
  have whole : kv.sent ++ v.outBuffer = replies v.history := ordered.whole (.inl (by simp [unbroken]))
  obtain ⟨later, grown⟩ := handleRead_later received ran
  unfold HalfCloses at closes
  rw [Watched.transcript_parked fd rfl (handleRead_once (handleReadTurn_of receivedEnd settled))
      (left_alone (.inr (by simp [closing_]))), sends, written, ← grown, replies_append, ← whole,
    linked.outBuffer, beside.writes, sentEnd, ← sent, List.append_assoc (kv.sent ++ v.outBuffer)] at closes
  obtain ⟨all, none⟩ := taken_whole (accepted_append_left kv.writes v.outBuffer) closes
  refine ⟨all, ?_⟩
  by_cases last : v.inBuffer = []
  · exact .inl last
  right
  obtain ⟨settled', -⟩ := settle_finished unbroken (by simp [connected]) finished all
  have again : (v.inBuffer.length > 0 && v.connectionState ≠ .hDisconnecting) = true := by
    simp [connected, List.length_pos_iff, last]
  rw [again] at settled'
  rw [handleRead_nested (handleReadTurn_of received settled')] at ran
  have unread : (flush v kv).2.reads = [] := by
    rw [(flush_flushed v kv).reads, (uriStage_advance second).reads]
    rfl
  rw [(flush_all unbroken (by simp [connected]) all).1]
  refine unfinished_of_silent unread connected ?_ ran fine ?_
  · show ProcessState.stateParseUri ≠ .stateFinish
    decide
  · rw [← grown, replies_append, (List.append_eq_nil_iff.mp none).1, List.append_nil]
    rfl

/-- When the end of file is read makes no difference if it finds nothing that is still to be done, and
    with the replies of the late run in order only then. -/
theorem halfCloses_iff (some_bytes : chunk ≠ []) (brought : chunk.length < 2 ^ 31)
    (endRead : ∃ t kt, EndRead fd (closing files chunk n writes) t kt) :
    (Unaffected files fd chunk writes n → HalfCloses files fd chunk writes edges n) ∧
      (Late files fd chunk writes edges →
        (Watched.registered fd).OrderlyRun (bringing files chunk writes :: edges.map (edge files)) →
          HalfCloses files fd chunk writes edges n → Unaffected files fd chunk writes n) := by
  obtain ⟨t, kt, endRead⟩ := endRead
  unfold Unaffected
  cases n with
  | zero =>
      rw [if_pos rfl]
      exact ⟨wholeWith_halfCloses some_bytes brought, halfCloses_wholeWith some_bytes brought⟩
  | succ n =>
      rw [if_neg (by omega)]
      exact ⟨wholeBefore_halfCloses some_bytes endRead, halfCloses_wholeBefore some_bytes⟩

/-- An invocation that refuses its request breaks the connection. -/
theorem refuses_broken {s : HttpData} {k : Kernel} {errNum : Nat} {shortMsg : Bytes}
    (connected : s.connectionState = .hConnected) (refuses : Refuses s k errNum shortMsg) :
    ∃ t kt, receive s k = .ok (t, kt) ∧ t.error = true := by
  cases refuses with
  | read negative =>
      unfold receive
      dsimp only
      rw [if_neg (by simp [connected]), if_pos negative]
      exact ⟨_, _, rfl, badRequest_error _ _ _⟩
  | malformed passed malformed =>
      obtain ⟨u, ku, ran, failed⟩ := uriStage_malformed (k := afterRead s k) malformed
      exact ⟨u, ku, (receive_some passed).trans ran, failed⟩
  | @notServed t u passed entered missing =>
      obtain ⟨asks, hello, icon, missing⟩ := missing
      obtain ⟨fileType, -, answered⟩ := analysisRequest_eq asks
      have ran : ∃ v kv, analysisStage u (afterRead s k) = .ok (v, kv) ∧ v.error = true := by
        unfold analysisStage
        rw [if_pos entered.analysing, answered]
        dsimp only
        rw [if_neg hello, if_neg icon]
        unfold analysisFile
        dsimp only
        rcases missing with missing | ⟨get, unmapped⟩
        · have absent : ((afterRead s k).lookup (cstr u.fileName)).1.stSize = none := missing
          rw [absent]
          exact ⟨_, _, rfl, rfl⟩
        · have unmapped : ((afterRead s k).lookup (cstr u.fileName)).1.mapped = none := unmapped
          cases ((afterRead s k).lookup (cstr u.fileName)).1.stSize with
          | none => exact ⟨_, _, rfl, rfl⟩
          | some size =>
              dsimp only
              rw [if_neg (by simp [get]), unmapped]
              exact ⟨_, _, rfl, rfl⟩
      obtain ⟨v, kv, ran, failed⟩ := ran
      exact ⟨v, kv, (receive_some passed).trans ((entered.analyses _).trans ran), failed⟩

end HalfClose

/-- No file exists. -/
def noFiles : Nat → Bytes → FileView := fun _ _ => .missing

/-- A request for `hello`. -/
def helloChunk : Bytes := text "GET /hello HTTP/1.1\r\nA: b\r\n\r\n"

/-- The socket takes ten bytes of the reply. -/
def tenBytes : List WriteResult := [.ok 10, .eagain]

theorem endRead_hello (writes : List WriteResult) :
    ∃ t kt, EndRead 5 (closing noFiles helloChunk 0 writes) t kt := by
  refine ⟨_, _, .call, ?_⟩
  show (readN [.ok helloChunk, .ok []] 0 []).zero = true
  decide +kernel

theorem late_hello : Late noFiles 5 helloChunk tenBytes [[]] :=
  ⟨⟨by decide +kernel, by decide +kernel⟩, by decide +kernel⟩

theorem orderly_hello : (Watched.registered 5).OrderlyRun
    [bringing noFiles helloChunk tenBytes, edge noFiles []] := by
  have received : ((HttpData.receive ((Watched.registered 5).owner.before
      (bringing noFiles helloChunk tenBytes)) ((Watched.registered 5).owner.kernel
        (bringing noFiles helloChunk tenBytes))).toOption.all fun r => !r.1.error &&
          ((r.1.outBuffer.length - (r.2.write r.1.outBuffer).1.left.length : Nat) : Int) ≠
            toInt r.1.outBuffer.length) = true := by decide +kernel
  unfold Watched.OrderlyRun
  rw [if_pos ⟨Watched.registered_open 5, Watched.registered_delivers 5⟩]
  constructor
  · refine fun _ => ⟨fun _ t kt invoked => ?_, fun writable => absurd writable (by decide)⟩
    obtain ⟨rfl, rfl⟩ := invoked.single (by decide +kernel)
    refine ⟨fun _ => rfl, fun errNum shortMsg refuses => ?_, fun s' k' ran sized => ?_⟩
    · obtain ⟨t, kt, ran, failed⟩ := refuses_broken rfl refuses
      simp [ran, failed, Except.toOption] at received
    · simp only [ran, Except.toOption, Option.all_some, Bool.and_eq_true, decide_eq_true_eq] at received
      exact absurd sized received.2
  · unfold Watched.OrderlyRun
    split_ifs
    · refine ⟨fun _ => ⟨fun readable => absurd readable (by decide), fun _ t kt read => ?_⟩, trivial⟩
      have unread : ¬ HttpData.Readable (edge noFiles []).revents := by decide
      unfold HttpData.readPart at read
      rw [if_neg unread] at read
      cases read
      exact fun _ => rfl
    · trivial

/-- Whether the socket takes the reply to `hello` at once. -/
def helloTaken (writes : List WriteResult) : Bool :=
  (HttpData.uriStage (holding 5 helloChunk) (beyond noFiles writes)).toOption.all fun result =>
    (result.2.write result.1.outBuffer).1.left.isEmpty && result.1.inBuffer.isEmpty

theorem halfCloses_iff_hello : HalfCloses noFiles 5 helloChunk [] [[]] 0 ∧
    ¬ HalfCloses noFiles 5 helloChunk tenBytes [[]] 0 := by
  have taken : helloTaken [] = true := by decide +kernel
  have whole : Unaffected noFiles 5 helloChunk [] 0 := by
    intro v kv ran _
    unfold helloTaken at taken
    rw [ran] at taken
    simp only [Except.toOption, Option.all_some, Bool.and_eq_true, List.isEmpty_iff] at taken
    exact ⟨taken.1, .inl taken.2⟩
  have cut : (HttpData.uriStage (holding 5 helloChunk) (beyond noFiles tenBytes)).toOption.any
      (fun result => result.1.state = .stateFinish ∧
        (result.2.write result.1.outBuffer).1.left ≠ []) = true := by decide +kernel
  refine ⟨(halfCloses_iff (by decide) (by decide) (endRead_hello [])).1 whole, fun closes => ?_⟩
  have unaffected := (halfCloses_iff (by decide) (by decide) (endRead_hello tenBytes)).2 late_hello
    orderly_hello closes
  cases ran : HttpData.uriStage (holding 5 helloChunk) (beyond noFiles tenBytes) with
  | error fault => simp [ran, Except.toOption] at cut
  | ok result =>
      simp only [ran, Except.toOption, Option.any_some, decide_eq_true_eq] at cut
      exact cut.2 (unaffected result.1 result.2 ran cut.1).1

/-- Of the reply to `hello`, the peer gets ten bytes if its end of file came with the request. -/
theorem reply_cut : ¬ ∀ files fd chunk writes edges n, chunk ≠ [] → chunk.length < 2 ^ 31 →
    (∀ script ∈ writes :: edges, WriteResult.fail ∉ script) →
    (∃ t kt, EndRead fd (closing files chunk n writes) t kt) → Late files fd chunk writes edges →
    HalfCloses files fd chunk writes edges n := by
  intro closes
  have same := closes noFiles 5 helloChunk tenBytes [[]] 0 (by decide) (by decide) (by decide)
    (endRead_hello _) late_hello
  revert same
  unfold HalfCloses
  decide +kernel

end WebServer
