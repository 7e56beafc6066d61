import WebServer.Http.HandleRead
import WebServer.Http.Request

/-! # What a complete request is answered

The answer to a request depends on its line, its headers and what is buffered behind them. As long as
the socket accepts everything, `HandleRead` gives this answer.
-/

namespace WebServer

open Lib

/-- The bytes of an error reply. -/
def errorBytes (errNum : Nat) (shortMsg : Bytes) : Bytes :=
  (HttpData.errorReply errNum shortMsg).1 ++ (HttpData.errorReply errNum shortMsg).2

/-- What a request brings the client, and how it leaves the connection. -/
structure Answer where
  sent : Bytes
  error : Bool
  state : ProcessState
  keepAlive : Bool
  deriving DecidableEq

/-- The connection is ready for another request. -/
def Answer.GoesOn (a : Answer) : Prop := a.error = false ∧ a.state = .stateParseUri

instance : DecidablePred Answer.GoesOn := fun _ => inferInstanceAs (Decidable (_ ∧ _))

/-- The reply that names a file, unless it is a `404`. -/
def servedFile (files : Bytes → FileView) (r : HttpData.RequestLine) (header fileType : Bytes) :
    Option Bytes :=
  match (files (cstr r.fileName)).stSize with
  | none => none
  | some size =>
      let header := header ++ HttpData.replyEnd fileType size
      if r.method = .methodHead then some header
      else (files (cstr r.fileName)).mapped.map fun body => header ++ body ++ text "\r\n"

/-- The reply to a `GET` or `HEAD` request, unless it is a `404`. -/
def servedReply (files : Bytes → FileView) (r : HttpData.RequestLine) (keepAlive : Bool) :
    Option Bytes :=
  let header := HttpData.replyStart keepAlive
  if r.fileName = text "hello" then some HttpData.echoReply
  else if r.fileName = text "favicon.ico" then
    some (header ++ HttpData.replyEnd (text "image/png") favicon.length ++ favicon)
  else
    match HttpData.fileTypeOf r.fileName with
    | .ok fileType => servedFile files r header fileType
    | .error _ => none

/-- The answer to a request with its whole header section read. -/
def answer (files : Bytes → FileView) (r : HttpData.RequestLine) (headers : HeaderMap)
    (left : Bytes) : Except Fault Answer :=
  if r.method = .methodPost then
    match headers (text "Content-length") with
    | none => .ok
        { sent := errorBytes 400 (text "Bad Request: Lack of argument (Content-length)")
          error := true
          state := .stateRecvBody
          keepAlive := false }
    | some value => do
        let contentLength ← stoi value
        if toInt left.length < contentLength then
          .ok { sent := [], error := false, state := .stateRecvBody, keepAlive := false }
        else .ok { sent := [], error := true, state := .stateAnalysis, keepAlive := false }
  else
    let keepAlive := HttpData.keepAliveRequested headers
    match servedReply files r keepAlive with
    | some reply => .ok { sent := reply, error := false, state := .stateParseUri, keepAlive }
    | none => .ok
        { sent := errorBytes 404 (text "Not Found!"), error := true, state := .stateAnalysis
          keepAlive }

/-- The answer to a request with this line. -/
def requestAnswer (files : Bytes → FileView) (line : Bytes) (headers : HeaderMap) (left : Bytes) :
    Except Fault Answer :=
  match HttpData.decodeLine line with
  | none => .ok
      { sent := errorBytes 400 (text "Bad Request"), error := true, state := .stateParseUri
        keepAlive := false }
  | some r => answer files r headers left

/-- A socket that accepts everything, and files that do not change. -/
def steady (files : Bytes → FileView) (reads : List ReadResult) (looked : List Bytes)
    (sent : Bytes) : Kernel where
  reads
  writes := []
  files _ := files
  looked
  sent

namespace HttpData

variable {files : Bytes → FileView} {reads : List ReadResult} {looked : List Bytes} {sent : Bytes}
  {s : HttpData}

theorem steady_write (buff : Bytes) :
    (steady files reads looked sent).write buff =
      (⟨.complete, [], []⟩, steady files reads looked (sent ++ buff)) := by
  have done : writeLoop [] buff = ⟨.complete, [], []⟩ := by cases buff <;> rfl
  unfold Kernel.write steady
  simp only [done, WriteOutcome.accepted, List.length_nil, Nat.sub_zero, List.take_length]

theorem steady_handleError (errNum : Nat) (shortMsg : Bytes) (s : HttpData) :
    handleError errNum shortMsg s (steady files reads looked sent) =
      ({ s with
          history := s.history ++ [.direct (errorBytes errNum shortMsg) s.outBuffer true] },
        steady files reads looked (sent ++ errorBytes errNum shortMsg)) := by
  unfold handleError errorBytes
  simp only [steady_write, List.append_assoc, List.isEmpty_nil, Bool.and_self]

theorem steady_badRequest (shortMsg : Bytes) (s : HttpData) :
    badRequest shortMsg s (steady files reads looked sent) =
      ({ s with
          error := true
          history := s.history ++ [.direct (errorBytes 400 shortMsg) s.outBuffer true] },
        steady files reads looked (sent ++ errorBytes 400 shortMsg)) :=
  steady_handleError ..

theorem steady_writeN (buff : Bytes) :
    writeN (steady files reads looked sent) buff =
      ((buff.length : Int), [], steady files reads looked (sent ++ buff)) := by
  unfold writeN
  simp only [steady_write, List.length_nil, Nat.sub_zero, List.drop_length, ite_self]

theorem steady_flush (fine : s.error = false) (connected : s.connectionState = .hConnected) :
    flush s (steady files reads looked sent) =
      ({ s with outBuffer := [] }, steady files reads looked (sent ++ s.outBuffer)) := by
  unfold flush
  split_ifs with queued
  · have alive : (!s.error && s.connectionState ≠ .hDisconnected) = true := by
      simp [fine, connected]
    have accepted : ¬ (s.outBuffer.length : Int) < 0 := by omega
    unfold handleWrite
    rw [if_pos alive, steady_writeN]
    simp only [if_neg accepted, List.length_nil, gt_iff_lt, lt_irrefl, if_false]
  · have empty : s.outBuffer = [] := List.length_eq_zero_iff.mp (by omega)
    rw [empty, List.append_nil, ← empty]

/-- The decoded request line that the connection holds. -/
def asked (s : HttpData) : RequestLine := ⟨s.method, s.fileName, s.httpVersion⟩

/-- `AnalysisRequest` of a request for a file. -/
theorem steady_analysisFile (files : Bytes → FileView) (reads : List ReadResult)
    (looked : List Bytes) (sent header fileType : Bytes) (empty : s.outBuffer = []) :
    ∃ looked' history, analysisFile header fileType s (steady files reads looked sent) =
      match servedFile files s.asked header fileType with
      | some reply => (.analysisSuccess, { s with outBuffer := reply, history },
          steady files reads looked' sent)
      | none => (.analysisError, { s with outBuffer := [], history },
          steady files reads looked' (sent ++ errorBytes 404 (text "Not Found!"))) := by
  have looks : (steady files reads looked sent).lookup (cstr s.fileName) =
      (files (cstr s.fileName), steady files reads (looked ++ [cstr s.fileName]) sent) := rfl
  have same (history : List Output) : { s with history } = { s with outBuffer := [], history } := by
    rw [← empty]
  unfold analysisFile servedFile asked
  rw [looks]
  dsimp only
  cases (files (cstr s.fileName)).stSize with
  | none =>
      dsimp only
      rw [steady_handleError, same]
      exact ⟨_, _, rfl⟩
  | some size =>
      dsimp only
      split_ifs with head
      · unfold append
        rw [empty]
        exact ⟨_, _, rfl⟩
      · cases (files (cstr s.fileName)).mapped with
        | none => exact ⟨_, _, congrArg (Prod.mk _) (steady_handleError ..)⟩
        | some body =>
            unfold append
            rw [empty]
            exact ⟨_, _, rfl⟩

/-- `AnalysisRequest` gives the reply, or a `404`. -/
theorem steady_analysisRequest (files : Bytes → FileView) (reads : List ReadResult)
    (looked : List Bytes) (sent : Bytes) (asks : s.method ≠ .methodPost) (empty : s.outBuffer = []) :
    ∃ looked' history, analysisRequest s (steady files reads looked sent) = .ok
      (match servedReply files s.asked (keepAliveRequested s.headers) with
      | some reply => (.analysisSuccess, { s with
          outBuffer := reply
          keepAlive := s.keepAlive || keepAliveRequested s.headers
          history }, steady files reads looked' sent)
      | none => (.analysisError, { s with
          outBuffer := []
          keepAlive := s.keepAlive || keepAliveRequested s.headers
          history }, steady files reads looked' (sent ++ errorBytes 404 (text "Not Found!")))) := by
  obtain ⟨fileType, typed, answered⟩ := analysisRequest_eq asks
  rw [answered]
  by_cases hello : s.fileName = text "hello"
  · have served : servedReply files s.asked (keepAliveRequested s.headers) = some echoReply :=
      if_pos hello
    rw [served]
    dsimp only
    rw [if_pos hello]
    exact ⟨_, _, rfl⟩
  by_cases icon : s.fileName = text "favicon.ico"
  · have served : servedReply files s.asked (keepAliveRequested s.headers) = some
        (replyStart (keepAliveRequested s.headers) ++
          replyEnd (text "image/png") favicon.length ++ favicon) :=
      (if_neg hello).trans (if_pos icon)
    rw [served]
    dsimp only
    rw [if_neg hello, if_pos icon]
    unfold append
    rw [empty]
    exact ⟨_, _, rfl⟩
  · have served : servedReply files s.asked (keepAliveRequested s.headers) =
        servedFile files s.asked (replyStart (keepAliveRequested s.headers)) fileType := by
      unfold servedReply asked
      dsimp only
      rw [if_neg hello, if_neg icon, typed]
    obtain ⟨looked', history, file⟩ := steady_analysisFile files reads looked sent
      (s := { s with keepAlive := s.keepAlive || keepAliveRequested s.headers })
      (replyStart (keepAliveRequested s.headers)) fileType empty
    rw [served]
    dsimp only
    rw [if_neg hello, if_neg icon, file]
    exact ⟨looked', history, rfl⟩

/-- The connection is alive, and everything produced for it is sent. -/
structure Ready (s : HttpData) : Prop where
  error : s.error = false
  connectionState : s.connectionState = .hConnected
  outBuffer : s.outBuffer = []
  nowReadPos : s.nowReadPos = 0

/-- Nothing of the next request is parsed yet. -/
structure Vacant (s : HttpData) : Prop extends Ready s where
  state : s.state = .stateParseUri
  hState : s.hState = .hStart
  headers : s.headers = fun _ => none

theorem new_vacant (fd : Nat) : Vacant (HttpData.new fd) := ⟨⟨rfl, rfl, rfl, rfl⟩, rfl, rfl, rfl⟩

theorem Vacant.arrived {s : HttpData} (vacant : Vacant s) (inBuffer : Bytes) :
    Vacant { s with inBuffer } := { vacant with }

/-- How an invocation that gave the answer leaves a connection with `left` still buffered, and whether
    it calls itself. -/
structure Answered (a : Answer) (keepAlive : Bool) (left : Bytes) (again : Bool) (s' : HttpData) :
    Prop where
  error : s'.error = a.error
  state : s'.state = a.state
  keepAlive : s'.keepAlive = (keepAlive || a.keepAlive)
  again : again = true ↔ a.GoesOn ∧ left ≠ []
  next : a.GoesOn → Vacant s' ∧ s'.inBuffer = left

theorem Answered.stops {a : Answer} {keepAlive : Bool} {left : Bytes} {s' : HttpData}
    (stops : ¬ a.GoesOn) (error : s'.error = a.error) (state : s'.state = a.state)
    (kept : s'.keepAlive = (keepAlive || a.keepAlive)) : Answered a keepAlive left false s' where
  error := error
  state := state
  keepAlive := kept
  again := by simp [stops]
  next goesOn := absurd goesOn stops

/-- The stages after the headers, with what follows them in `HandleRead`. -/
def concluded (s : HttpData) (k : Kernel) : Except Fault (Bool × HttpData × Kernel) :=
  (bodyStage s k).map fun (s, k) => settle s k

theorem settle_error {k : Kernel} (failed : s.error = true) : settle s k = (false, s, k) :=
  if_pos failed

theorem steady_settle_finish (fine : s.error = false) (connected : s.connectionState = .hConnected)
    (finished : s.state = .stateFinish) :
    settle s (steady files reads looked sent) =
      (decide (s.inBuffer ≠ []), { s with outBuffer := [] }.reset,
        steady files reads looked (sent ++ s.outBuffer)) := by
  have running : ¬ s.error = true := by simp [fine]
  unfold settle
  rw [if_neg running, steady_flush fine connected]
  simp [fine, finished, reset, seperateTimer, connected, List.length_pos_iff]

theorem settle_wait {k : Kernel} (ready : Ready s) (unfinished : s.state ≠ .stateFinish) :
    settle s k = (false, s.addEvents EPOLLIN, k) := by
  have running : ¬ s.error = true := by simp [ready.error]
  have idle : flush s k = (s, k) := if_neg (by simp [ready.outBuffer])
  unfold settle
  rw [if_neg running, idle]
  simp [ready.error, ready.connectionState, unfinished]

/-- The state in which a request with its headers read enters the next stage. -/
def afterHeaders (method : HttpMethod) : ProcessState :=
  if method = .methodPost then .stateRecvBody else .stateAnalysis

theorem steady_concluded_post (ready : Ready s) (post : s.method = .methodPost)
    (state : s.state = .stateRecvBody) {a : Answer}
    (answers : answer files s.asked s.headers s.inBuffer = .ok a) :
    ∃ again s' looked', concluded s (steady files reads looked sent) =
        .ok (again, s', steady files reads looked' (sent ++ a.sent)) ∧
      Answered a s.keepAlive s.inBuffer again s' := by
  have asks : s.asked.method = .methodPost := post
  unfold answer at answers
  rw [if_pos asks] at answers
  unfold concluded bodyStage
  rw [if_pos state]
  cases given : s.headers (text "Content-length") with
  | none =>
      rw [given] at answers
      cases answers
      dsimp only
      rw [steady_badRequest]
      refine ⟨false, _, looked, congrArg Except.ok (settle_error rfl), ?_⟩
      exact .stops (by simp [Answer.GoesOn]) rfl state (Bool.or_false _).symm
  | some value =>
      rw [given] at answers
      cases number : stoi value with
      | error e => simp [number, bind, Except.bind] at answers
      | ok n =>
          simp only [number, bind, Except.bind] at answers ⊢
          split_ifs at answers ⊢ with short
          · cases answers
            refine ⟨false, s.addEvents EPOLLIN, looked, ?_, ?_⟩
            · rw [List.append_nil]
              exact congrArg Except.ok (settle_wait ready (by simp [state]))
            · exact .stops (by simp [Answer.GoesOn]) ready.error state (Bool.or_false _).symm
          · cases answers
            rw [analysisStage_post (s := { s with state := .stateAnalysis }) rfl post]
            refine ⟨false, { s with state := .stateAnalysis, error := true }, looked, ?_, ?_⟩
            · rw [List.append_nil]
              exact congrArg Except.ok (settle_error rfl)
            · exact .stops (by simp [Answer.GoesOn]) rfl rfl (Bool.or_false _).symm

theorem steady_concluded_file (ready : Ready s) (asks : s.method ≠ .methodPost)
    (state : s.state = .stateAnalysis) {a : Answer}
    (answers : answer files s.asked s.headers s.inBuffer = .ok a) :
    ∃ again s' looked', concluded s (steady files reads looked sent) =
        .ok (again, s', steady files reads looked' (sent ++ a.sent)) ∧
      Answered a s.keepAlive s.inBuffer again s' := by
  have other : ¬ s.asked.method = .methodPost := asks
  have away : ¬ s.state = .stateRecvBody := by simp [state]
  obtain ⟨looked', history, analysed⟩ :=
    steady_analysisRequest files reads looked sent asks ready.outBuffer
  unfold answer at answers
  rw [if_neg other] at answers
  unfold concluded bodyStage
  rw [if_neg away]
  unfold analysisStage
  rw [if_pos state, analysed]
  cases served : servedReply files s.asked (keepAliveRequested s.headers) with
  | some reply =>
      simp only [served] at answers
      cases answers
      refine ⟨_, _, looked', congrArg Except.ok (steady_settle_finish ready.error
        ready.connectionState rfl), ?_⟩
      have vacant : Vacant { s with
          outBuffer := [], keepAlive := s.keepAlive || keepAliveRequested s.headers, history,
          state := .stateFinish }.reset :=
        ⟨⟨ready.error, ready.connectionState, rfl, rfl⟩, rfl, rfl, rfl⟩
      exact ⟨ready.error, rfl, rfl, by simp [Answer.GoesOn], fun _ => ⟨vacant, rfl⟩⟩
  | none =>
      simp only [served] at answers
      cases answers
      refine ⟨false, _, looked', congrArg Except.ok (settle_error rfl), ?_⟩
      exact .stops (by simp [Answer.GoesOn]) rfl state rfl

theorem steady_concluded (files : Bytes → FileView) (reads : List ReadResult)
    (looked : List Bytes) (sent : Bytes) (ready : Ready s)
    (state : s.state = afterHeaders s.method) {a : Answer}
    (answers : answer files s.asked s.headers s.inBuffer = .ok a) :
    ∃ again s' looked', concluded s (steady files reads looked sent) =
        .ok (again, s', steady files reads looked' (sent ++ a.sent)) ∧
      Answered a s.keepAlive s.inBuffer again s' := by
  unfold afterHeaders at state
  split_ifs at state with post
  · exact steady_concluded_post ready post state answers
  · exact steady_concluded_file ready post state answers

/-- Only `stoi` can fail here. -/
theorem concluded_fault {k : Kernel} {e : Fault} (state : s.state = afterHeaders s.method)
    (fails : answer files s.asked s.headers s.inBuffer = .error e) : concluded s k = .error e := by
  unfold answer asked at fails
  unfold afterHeaders at state
  dsimp only at fails
  split_ifs at fails state with post
  · unfold concluded bodyStage
    rw [if_pos state]
    cases given : s.headers (text "Content-length") with
    | none => simp [given] at fails
    | some value =>
        cases number : stoi value with
        | error e' =>
            simp only [given, number, bind, Except.bind] at fails
            cases fails
            simp only [number, bind, Except.bind, Except.map]
        | ok n =>
            simp only [given, number, bind, Except.bind] at fails
            split_ifs at fails
  · split at fails <;> cases fails

/-- The results of `read` when these bytes have arrived. -/
def arriving (chunk : Bytes) : List ReadResult := if chunk = [] then [] else [.ok chunk]

theorem readN_arriving (chunk inBuffer : Bytes) :
    readN (arriving chunk) 0 inBuffer = ⟨chunk.length, false, inBuffer ++ chunk, []⟩ := by
  unfold arriving
  split_ifs with empty
  · subst empty
    rw [List.append_nil]
    rfl
  · have some_bytes : ¬ chunk.length = 0 := fun none => empty (List.length_eq_zero_iff.mp none)
    simp only [readN, if_neg some_bytes, Nat.zero_add]

theorem handleReadTurn_bringing {k : Kernel} {chunk : Bytes}
    (connected : s.connectionState = .hConnected) (reads : k.reads = arriving chunk)
    (counted : 0 ≤ (chunk.length : Int).bmod (2 ^ 32)) :
    handleReadTurn s k =
      (uriStage { s with inBuffer := s.inBuffer ++ chunk } { k with reads := [] }).map
        fun (s, k) => settle s k := by
  unfold handleReadTurn receive ReadOutcome.readNum
  simp only [reads, readN_arriving, connected, reduceCtorEq, if_false, not_lt.mpr counted,
    Bool.false_eq_true]

theorem handleReadTurn_arriving (connected : s.connectionState = .hConnected) {chunk : Bytes}
    (counted : 0 ≤ (chunk.length : Int).bmod (2 ^ 32)) :
    handleReadTurn s (steady files (arriving chunk) looked sent) =
      (uriStage { s with inBuffer := s.inBuffer ++ chunk } (steady files [] looked sent)).map
        fun (s, k) => settle s k :=
  handleReadTurn_bringing connected rfl counted

theorem counted_of_lt {chunk : Bytes} (brought : chunk.length < 2 ^ 31) :
    0 ≤ (chunk.length : Int).bmod (2 ^ 32) := by
  rw [readNum_of_lt brought]
  exact Int.natCast_nonneg _

theorem headerStage_success {k : Kernel} {t : HttpData}
    (parsed : parseHeaders s = .ok (.parseHeaderSuccess, t)) (parsing : s.state = .stateParseHeaders) :
    headerStage s k = bodyStage { t with state := afterHeaders t.method } k := by
  unfold headerStage afterHeaders
  rw [if_pos parsing, parsed]
  simp only [bind, Except.bind]
  split_ifs <;> rfl

theorem headerStage_waits {k : Kernel} {t : HttpData}
    (parsed : parseHeaders s = .ok (.parseHeaderAgain, t)) (parsing : s.state = .stateParseHeaders) :
    headerStage s k = .ok (t, k) := by
  unfold headerStage
  rw [if_pos parsing, parsed]
  rfl

theorem headerStage_rejects {k : Kernel} {t : HttpData}
    (parsed : parseHeaders s = .ok (.parseHeaderError, t)) (parsing : s.state = .stateParseHeaders) :
    headerStage s k = .ok (badRequest (text "Bad Request") t k) := by
  unfold headerStage
  rw [if_pos parsing, parsed]
  rfl

/-- The connection with a decoded line, before its headers. -/
def atLine (s : HttpData) (r : RequestLine) (inBuffer : Bytes) : HttpData :=
  { s.withLine r with inBuffer, state := .stateParseHeaders }

theorem uriStage_line {k : Kernel} {line rest : Bytes} (vacant : Vacant s)
    (buffered : s.inBuffer = line ++ CR :: rest) (first : CR ∉ line)
    (small : s.inBuffer.length < 2 ^ 63) {r : RequestLine} (decoded : decodeLine line = some r) :
    uriStage s k = headerStage (s.atLine r rest) k := by
  have line_short : line.length < 2 ^ 63 := by
    rw [buffered, List.length_append] at small
    omega
  unfold uriStage
  rw [if_pos vacant.state, parseURI_line vacant.nowReadPos buffered small first,
    parseRequestLine_some line_short decoded]
  rfl

theorem uriStage_refused {k : Kernel} {t : HttpData} (state : s.state = .stateParseUri)
    (parsed : parseURI s = .ok (.parseUriError, t)) :
    uriStage s k = .ok (badRequest (text "Bad Request") { t with inBuffer := [] } k) := by
  unfold uriStage
  rw [if_pos state, parsed]
  rfl

theorem uriStage_badLine (files : Bytes → FileView) (reads : List ReadResult)
    (looked : List Bytes) (sent : Bytes)
    {line : Bytes} {t : HttpData} (vacant : Vacant s)
    (parsed : parseURI s = parseRequestLine line t) (untouched : ∃ b, t = { s with inBuffer := b })
    (small : line.length < 2 ^ 63) (refused : decodeLine line = none) :
    ∃ s', (uriStage s (steady files reads looked sent)).map (fun (s, k) => settle s k) =
        .ok (false, s', steady files reads looked (sent ++ errorBytes 400 (text "Bad Request"))) ∧
      s'.error = true ∧ s'.state = .stateParseUri ∧ s'.keepAlive = s.keepAlive := by
  obtain ⟨b, rfl⟩ := untouched
  obtain ⟨m, f, parse⟩ := parseRequestLine_none small refused { s with inBuffer := b }
  rw [uriStage_refused vacant.state (parsed.trans parse), steady_badRequest]
  exact ⟨_, congrArg Except.ok (settle_error rfl), rfl, vacant.state, rfl⟩

variable {line after chunk : Bytes} {f : Field} {fields : List Field}

theorem request_parsed (vacant : Vacant s)
    (whole : s.inBuffer ++ chunk = line ++ CR :: LF :: (headerSection (f :: fields) ++ after))
    (short : (headerSection (f :: fields)).length < 2 ^ 31)
    (small : (s.inBuffer ++ chunk).length < 2 ^ 63) (r : RequestLine) :
    parseHeaders (s.atLine r (LF :: (headerSection (f :: fields) ++ after))) =
      .ok (.parseHeaderSuccess,
        afterLines (s.atLine r (LF :: (headerSection (f :: fields) ++ after))) f fields .hEndLf
          after.tail) := by
  refine parseHeaders_section (s := s.atLine r (LF :: (headerSection (f :: fields) ++ after)))
    (.inl vacant.hState) ?_ ?_ ?_
  · unfold atLine headerSection
    rw [List.append_assoc]
    rfl
  · unfold headerSection at short
    rw [List.length_append, List.length_cons] at short
    omega
  · rw [whole, List.length_append, List.length_cons] at small
    show (LF :: (headerSection (f :: fields) ++ after)).length < 2 ^ 63
    omega

theorem storeLines_start (headers : HeaderMap) (f : Field) (fields : List Field) :
    storeLines .hStart headers f fields = storeFields headers (f :: fields) := rfl

/-- A whole request on a vacant connection gets its answer. One byte of what follows it is gone. -/
theorem steady_request (files : Bytes → FileView) (looked : List Bytes) (sent : Bytes)
    (vacant : Vacant s)
    (whole : s.inBuffer ++ chunk = line ++ CR :: LF :: (headerSection (f :: fields) ++ after))
    (first : CR ∉ line) (short : (headerSection (f :: fields)).length < 2 ^ 31)
    (small : (s.inBuffer ++ chunk).length < 2 ^ 63) (brought : chunk.length < 2 ^ 31) {a : Answer}
    (answers : requestAnswer files line (storeFields (fun _ => none) (f :: fields)) after.tail =
      .ok a) :
    ∃ again s' looked', handleReadTurn s (steady files (arriving chunk) looked sent) =
        .ok (again, s', steady files [] looked' (sent ++ a.sent)) ∧
      Answered a s.keepAlive after.tail again s' := by
  have vacant' := vacant.arrived (s.inBuffer ++ chunk)
  rw [handleReadTurn_arriving vacant.connectionState (counted_of_lt brought)]
  unfold requestAnswer at answers
  cases decoded : decodeLine line with
  | none =>
      rw [decoded] at answers
      cases answers
      have parsed := parseURI_line vacant'.nowReadPos whole small first
      obtain ⟨s', refused, error, state, keepAlive⟩ :=
        uriStage_badLine files [] looked sent vacant' parsed ⟨_, rfl⟩ (by
          rw [whole, List.length_append] at small
          omega) decoded
      refine ⟨false, s', looked, refused, .stops (by simp [Answer.GoesOn]) error state ?_⟩
      rw [keepAlive, Bool.or_false]
  | some r =>
      rw [decoded] at answers
      have parsed := request_parsed vacant whole short small r
      rw [uriStage_line vacant' whole first small decoded]
      rw [← storeLines_start, ← vacant.headers, ← vacant.hState] at answers
      obtain ⟨again, s', looked', ran, answered⟩ := steady_concluded files [] looked sent
        (s := { (s.atLine r (LF :: (headerSection (f :: fields) ++ after))).afterLines f fields
          .hEndLf after.tail with state := afterHeaders r.method })
        { vacant with } rfl answers
      refine ⟨again, s', looked', ?_, answered⟩
      rw [← ran]
      unfold concluded
      congr 1
      exact headerStage_success parsed rfl

/-- Its failure is the one of `stoi`. -/
theorem request_fault (vacant : Vacant s)
    (whole : s.inBuffer ++ chunk = line ++ CR :: LF :: (headerSection (f :: fields) ++ after))
    (first : CR ∉ line) (short : (headerSection (f :: fields)).length < 2 ^ 31)
    (small : (s.inBuffer ++ chunk).length < 2 ^ 63) (brought : chunk.length < 2 ^ 31) {e : Fault}
    (fails : requestAnswer files line (storeFields (fun _ => none) (f :: fields)) after.tail =
      .error e) :
    handleReadTurn s (steady files (arriving chunk) looked sent) = .error e := by
  have vacant' := vacant.arrived (s.inBuffer ++ chunk)
  unfold requestAnswer at fails
  cases decoded : decodeLine line with
  | none =>
      rw [decoded] at fails
      cases fails
  | some r =>
      rw [decoded, ← storeLines_start, ← vacant.headers, ← vacant.hState] at fails
      have faulted := concluded_fault (k := steady files [] looked sent)
        (s := { (s.atLine r (LF :: (headerSection (f :: fields) ++ after))).afterLines f fields
          .hEndLf after.tail with state := afterHeaders r.method }) rfl fails
      rw [handleReadTurn_arriving vacant.connectionState (counted_of_lt brought),
        uriStage_line vacant' whole first small decoded, ← faulted]
      unfold concluded
      congr 1
      exact headerStage_success (request_parsed vacant whole short small r) rfl

end HttpData

end WebServer
