import WebServer.Http.HandleRead

/-! # What one invocation makes of its input

The stages wait for more bytes, reject the request or analyse it. Which of these happens is decided
by the parsers alone; the members they do not own are the same afterwards.
-/

namespace WebServer.HttpData

open Lib

/-- What `receive` hands to the stages, when it gets that far. -/
def handed (s : HttpData) (k : Kernel) : Option HttpData :=
  let r := readN k.reads 0 s.inBuffer
  if s.connectionState = .hDisconnecting ∨ r.readNum < 0 ∨ (r.zero = true ∧ r.readNum = 0) then none
  else some
    { s with
      inBuffer := r.inBuffer
      connectionState := if r.zero then .hDisconnecting else s.connectionState }

/-- The connection as this invocation calls `ParseHeaders`. -/
def atHeaders (s : HttpData) : Option HttpData :=
  match s.state with
  | .stateParseUri =>
      match parseURI s with
      | .ok (.parseUriSuccess, t) => some { t with state := .stateParseHeaders }
      | _ => none
  | .stateParseHeaders => some s
  | _ => none

/-- The connection as this invocation looks for `Content-length`. -/
def atBody (s : HttpData) : Option HttpData :=
  if s.state = .stateRecvBody then some s
  else
    match (atHeaders s).map parseHeaders with
    | some (.ok (.parseHeaderSuccess, t)) =>
        if t.method = .methodPost then some { t with state := .stateRecvBody } else none
    | _ => none

/-- The whole body is buffered. -/
def bodyArrived (s : HttpData) : Prop :=
  ∃ value n, s.headers (text "Content-length") = some value ∧ stoi value = .ok n ∧
    n ≤ toInt s.inBuffer.length

/-- The connection as this invocation calls `AnalysisRequest`. -/
inductive AtAnalysis (s : HttpData) : HttpData → Prop where
  | resumed : s.state = .stateAnalysis → AtAnalysis s s
  | body {t} : atBody s = some t → bodyArrived t → AtAnalysis s { t with state := .stateAnalysis }
  | headers {t u} : atHeaders s = some t → parseHeaders t = .ok (.parseHeaderSuccess, u) →
      u.method ≠ .methodPost → AtAnalysis s { u with state := .stateAnalysis }

/-- One of the parsers rejects the request; the `400` says so with this message. -/
inductive Malformed (s : HttpData) : Bytes → Prop where
  | requestLine {t} : s.state = .stateParseUri → parseURI s = .ok (.parseUriError, t) →
      Malformed s (text "Bad Request")
  | headers {t u} : atHeaders s = some t → parseHeaders t = .ok (.parseHeaderError, u) →
      Malformed s (text "Bad Request")
  | contentLength {t} : atBody s = some t → t.headers (text "Content-length") = none →
      Malformed s (text "Bad Request: Lack of argument (Content-length)")

/-- The members that the parsers do not own. -/
structure Parsed (s s' : HttpData) : Prop where
  channel : s'.channel = s.channel
  fd : s'.fd = s.fd
  outBuffer : s'.outBuffer = s.outBuffer
  error : s'.error = s.error
  connectionState : s'.connectionState = s.connectionState
  nowReadPos : s'.nowReadPos = s.nowReadPos
  keepAlive : s'.keepAlive = s.keepAlive
  timer : s'.timer = s.timer
  cleared : s'.cleared = s.cleared
  history : s'.history = s.history

theorem Parsed.refl (s : HttpData) : Parsed s s := ⟨rfl, rfl, rfl, rfl, rfl, rfl, rfl, rfl, rfl, rfl⟩

theorem parseURI_parsed {s s' : HttpData} {flag : UriState} (parsed : parseURI s = .ok (flag, s')) :
    Parsed s s' := by
  obtain ⟨b, m, f, v, rfl, -⟩ := parseURI_frame parsed
  exact ⟨rfl, rfl, rfl, rfl, rfl, rfl, rfl, rfl, rfl, rfl⟩

theorem parseHeaders_parsed {s s' : HttpData} {flag : HeaderState}
    (parsed : parseHeaders s = .ok (flag, s')) : Parsed s s' := by
  obtain ⟨-, -, b, h, m, rfl⟩ := parseHeaders_frame parsed
  exact ⟨rfl, rfl, rfl, rfl, rfl, rfl, rfl, rfl, rfl, rfl⟩

theorem Parsed.trans {s s' s'' : HttpData} (first : Parsed s s') (second : Parsed s' s'') :
    Parsed s s'' where
  channel := second.channel.trans first.channel
  fd := second.fd.trans first.fd
  outBuffer := second.outBuffer.trans first.outBuffer
  error := second.error.trans first.error
  connectionState := second.connectionState.trans first.connectionState
  nowReadPos := second.nowReadPos.trans first.nowReadPos
  keepAlive := second.keepAlive.trans first.keepAlive
  timer := second.timer.trans first.timer
  cleared := second.cleared.trans first.cleared
  history := second.history.trans first.history

theorem Parsed.setState {s t : HttpData} (parsed : Parsed s t) (state : ProcessState) :
    Parsed s { t with state } :=
  ⟨parsed.channel, parsed.fd, parsed.outBuffer, parsed.error, parsed.connectionState,
    parsed.nowReadPos, parsed.keepAlive, parsed.timer, parsed.cleared, parsed.history⟩

theorem atHeaders_parsed {s t : HttpData} (entered : atHeaders s = some t) : Parsed s t := by
  unfold atHeaders at entered
  split at entered
  · split at entered
    · rename_i parsed
      cases entered
      exact (parseURI_parsed parsed).setState _
    · cases entered
  · cases entered
    exact .refl _
  · cases entered

theorem atBody_parsed {s t : HttpData} (entered : atBody s = some t) : Parsed s t := by
  unfold atBody at entered
  split_ifs at entered
  · cases entered
    exact .refl _
  · cases reached : atHeaders s with
    | none => simp [reached] at entered
    | some u =>
        simp only [reached, Option.map_some] at entered
        split at entered
        · rename_i parsed
          rw [Option.some.injEq] at parsed
          split_ifs at entered
          cases entered
          exact ((atHeaders_parsed reached).trans (parseHeaders_parsed parsed)).setState _
        · cases entered

theorem uriStage_headers {s t : HttpData} (k : Kernel) (entered : atHeaders s = some t) :
    uriStage s k = headerStage t k ∧ t.state = .stateParseHeaders := by
  cases state : s.state with
  | stateParseUri =>
      simp only [atHeaders, state] at entered
      split at entered
      · rename_i parsed
        rw [← Option.some.inj entered]
        simp [uriStage, state, parsed, bind, Except.bind]
      · cases entered
  | stateParseHeaders =>
      obtain rfl : s = t := by simpa [atHeaders, state] using entered
      rw [uriStage, if_neg (by simp [state])]
      exact ⟨rfl, state⟩
  | stateRecvBody | stateAnalysis | stateFinish => simp [atHeaders, state] at entered

/-- How the stages end. -/
inductive Ending (s : HttpData) (k : Kernel) : HttpData → Kernel → Prop where
  /-- More bytes are needed, or there is nothing to do. -/
  | waits {t} : Parsed s t → (t.state = .stateFinish → s.state = .stateFinish) → Ending s k t k
  /-- The request is rejected with a `400`. -/
  | rejects {t shortMsg} : Malformed s shortMsg → Parsed s t → t.state ≠ .stateFinish →
      Ending s k (badRequest shortMsg t k).1 (badRequest shortMsg t k).2
  /-- The request is complete. -/
  | analyses {t s' k'} : AtAnalysis s t → Parsed s t → t.state = .stateAnalysis →
      analysisStage t k = .ok (s', k') → Ending s k s' k'

theorem bodyStage_ending {s t s' : HttpData} {k k' : Kernel} (entered : atBody s = some t)
    (parsed : Parsed s t) (receiving : t.state = .stateRecvBody)
    (ran : bodyStage t k = .ok (s', k')) : Ending s k s' k' := by
  simp only [bodyStage, receiving, if_true, bind, Except.bind] at ran
  cases given : t.headers (text "Content-length") with
  | none =>
      simp only [given] at ran
      cases ran
      exact .rejects (.contentLength entered given) parsed (by simp [receiving])
  | some value =>
      simp only [given] at ran
      split at ran
      · cases ran
      · rename_i n number
        split_ifs at ran with short
        · cases ran
          exact .waits parsed (by simp [receiving])
        · exact .analyses (.body entered ⟨value, n, given, number, not_lt.mp short⟩)
            (parsed.setState _) rfl ran

/-- The stages from `STATE_PARSE_HEADERS` on, entered from `s` as `t`. -/
theorem headerStage_ending {s t s' : HttpData} {k k' : Kernel} (entered : atHeaders s = some t)
    (unread : s.state ≠ .stateRecvBody) (parsed : Parsed s t) (parsing : t.state = .stateParseHeaders)
    (ran : headerStage t k = .ok (s', k')) : Ending s k s' k' := by
  simp only [headerStage, parsing, if_true, bind, Except.bind] at ran
  split at ran
  · cases ran
  · rename_i result scanned
    obtain ⟨flag, u⟩ := result
    have scanned_parsed := parsed.trans (parseHeaders_parsed scanned)
    obtain ⟨-, -, b, h, m, same⟩ := parseHeaders_frame scanned
    have state : u.state = .stateParseHeaders := by rw [same, parsing]
    cases flag with
    | parseHeaderAgain =>
        cases ran
        exact .waits scanned_parsed (by simp [state])
    | parseHeaderError =>
        cases ran
        exact .rejects (.headers entered scanned) scanned_parsed (by simp [state])
    | parseHeaderSuccess =>
        dsimp only at ran
        split_ifs at ran with post
        · refine bodyStage_ending (t := { u with state := .stateRecvBody }) ?_
            (scanned_parsed.setState _) rfl ran
          simp [atBody, unread, entered, scanned, post]
        · refine .analyses (.headers entered scanned post) (scanned_parsed.setState _) rfl ?_
          simpa [bodyStage] using ran

/-- The stages wait, reject or analyse. -/
theorem uriStage_ending {s s' : HttpData} {k k' : Kernel} (ran : uriStage s k = .ok (s', k')) :
    Ending s k s' k' := by
  cases state : s.state with
  | stateParseUri =>
      simp only [uriStage, state, if_true, bind, Except.bind] at ran
      split at ran
      · cases ran
      · rename_i result parsed
        obtain ⟨flag, t⟩ := result
        have line_parsed := parseURI_parsed parsed
        obtain ⟨b, m, f, v, same, -⟩ := parseURI_frame parsed
        have unchanged : t.state = .stateParseUri := by rw [same, state]
        cases flag with
        | parseUriAgain =>
            cases ran
            exact .waits line_parsed (by simp [unchanged])
        | parseUriError =>
            cases ran
            refine .rejects (t := { t with inBuffer := [] }) (.requestLine state parsed) ?_
              (by simp [unchanged])
            exact ⟨line_parsed.channel, line_parsed.fd, line_parsed.outBuffer, line_parsed.error,
              line_parsed.connectionState, line_parsed.nowReadPos, line_parsed.keepAlive,
              line_parsed.timer, line_parsed.cleared, line_parsed.history⟩
        | parseUriSuccess =>
            exact headerStage_ending (by simp [atHeaders, state, parsed]) (by simp [state])
              (line_parsed.setState _) rfl ran
  | stateParseHeaders =>
      rw [uriStage, if_neg (by simp [state])] at ran
      exact headerStage_ending (by simp [atHeaders, state]) (by simp [state]) (.refl s) state ran
  | stateRecvBody =>
      rw [uriStage, if_neg (by simp [state]), headerStage, if_neg (by simp [state])] at ran
      exact bodyStage_ending (by simp [atBody, state]) (.refl s) state ran
  | stateAnalysis =>
      rw [uriStage, if_neg (by simp [state]), headerStage, if_neg (by simp [state]), bodyStage,
        if_neg (by simp [state])] at ran
      exact .analyses (.resumed state) (.refl s) state ran
  | stateFinish =>
      rw [uriStage, if_neg (by simp [state]), headerStage, if_neg (by simp [state]), bodyStage,
        if_neg (by simp [state]), analysisStage, if_neg (by simp [state])] at ran
      cases ran
      exact .waits (.refl s) (fun _ => state)

/-- The stages that lead to the search for `Content-length`. -/
theorem uriStage_body {s t : HttpData} (k : Kernel) (entered : atBody s = some t) :
    uriStage s k = bodyStage t k ∧ t.state = .stateRecvBody := by
  by_cases receiving : s.state = .stateRecvBody
  · rw [atBody, if_pos receiving] at entered
    cases entered
    refine ⟨?_, receiving⟩
    rw [uriStage, if_neg (by simp [receiving]), headerStage, if_neg (by simp [receiving])]
  · rw [atBody, if_neg receiving] at entered
    cases reached : atHeaders s with
    | none => simp [reached] at entered
    | some u =>
        simp only [reached, Option.map_some] at entered
        split at entered
        · rename_i v parsed
          obtain ⟨header, parsing⟩ := uriStage_headers k reached
          rw [Option.some.injEq] at parsed
          split_ifs at entered with post
          cases entered
          refine ⟨?_, rfl⟩
          rw [header, headerStage, if_pos parsing, parsed]
          exact if_pos post
        · cases entered

namespace AtAnalysis

variable {s u : HttpData}

theorem analysing (entered : AtAnalysis s u) : u.state = .stateAnalysis := by
  cases entered with
  | resumed analysing => exact analysing
  | body | headers => rfl

theorem parsed (entered : AtAnalysis s u) : Parsed s u := by
  cases entered with
  | resumed => exact .refl s
  | body reached => exact (atBody_parsed reached).setState _
  | headers reached parsed =>
      exact ((atHeaders_parsed reached).trans (parseHeaders_parsed parsed)).setState _

theorem analyses (entered : AtAnalysis s u) (k : Kernel) : uriStage s k = analysisStage u k := by
  cases entered with
  | resumed analysing =>
      rw [uriStage, if_neg (by simp [analysing]), headerStage, if_neg (by simp [analysing]),
        bodyStage, if_neg (by simp [analysing])]
  | @body t reached arrived =>
      obtain ⟨body, receiving⟩ := uriStage_body k reached
      obtain ⟨value, n, given, number, enough⟩ := arrived
      rw [body]
      simp [bodyStage, receiving, given, number, bind, Except.bind, not_lt.mpr enough]
  | @headers t v reached parsed other =>
      obtain ⟨header, parsing⟩ := uriStage_headers k reached
      rw [header]
      simp [headerStage, parsing, parsed, bind, Except.bind, other, bodyStage]

end AtAnalysis

/-- How `receive` ends without the stages. -/
inductive Withheld (s : HttpData) (k : Kernel) : HttpData → Kernel → Prop where
  | disconnecting : s.connectionState = .hDisconnecting →
      Withheld s k { s with inBuffer := [] } { k with reads := (readN k.reads 0 s.inBuffer).rest }
  | failed : (readN k.reads 0 s.inBuffer).readNum < 0 → Withheld s k
      (badRequest (text "Bad Request") { s with inBuffer := (readN k.reads 0 s.inBuffer).inBuffer }
        { k with reads := (readN k.reads 0 s.inBuffer).rest }).1
      (badRequest (text "Bad Request") { s with inBuffer := (readN k.reads 0 s.inBuffer).inBuffer }
        { k with reads := (readN k.reads 0 s.inBuffer).rest }).2
  | closed : Withheld s k
      { s with
        inBuffer := (readN k.reads 0 s.inBuffer).inBuffer
        connectionState := .hDisconnecting }
      { k with reads := (readN k.reads 0 s.inBuffer).rest }

theorem receive_none {s : HttpData} {k : Kernel} (stops : handed s k = none) :
    ∃ s' k', receive s k = .ok (s', k') ∧ Withheld s k s' k' := by
  simp only [handed] at stops
  simp only [receive]
  split_ifs with disconnecting failed zero empty
  · exact ⟨_, _, rfl, .disconnecting disconnecting⟩
  · exact ⟨_, _, rfl, .failed failed⟩
  · exact ⟨_, _, rfl, .closed⟩
  · simp [disconnecting, failed, zero, empty] at stops
  · simp [disconnecting, failed, zero] at stops

theorem Withheld.of_receive {s s' : HttpData} {k k' : Kernel} (stops : handed s k = none)
    (ran : receive s k = .ok (s', k')) : Withheld s k s' k' := by
  obtain ⟨t, kt, ended, withheld⟩ := receive_none stops
  cases ended.symm.trans ran
  exact withheld

theorem handed_read {s t : HttpData} {k : Kernel} (passed : handed s k = some t) :
    ∃ connectionState, t = { s with
      inBuffer := (readN k.reads 0 s.inBuffer).inBuffer, connectionState } := by
  simp only [handed, Option.ite_none_left_eq_some] at passed
  exact ⟨_, (Option.some.inj passed.2).symm⟩

theorem receive_some {s t : HttpData} {k : Kernel} (passed : handed s k = some t) :
    receive s k = uriStage t { k with reads := (readN k.reads 0 s.inBuffer).rest } := by
  simp only [handed] at passed
  simp only [receive]
  generalize readN k.reads 0 s.inBuffer = r at passed ⊢
  split_ifs at passed ⊢
  all_goals first
    | tauto
    | cases passed
      rfl

end WebServer.HttpData
