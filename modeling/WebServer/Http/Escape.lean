import WebServer.Http.Session
import WebServer.Http.Verdict

/-! # Exceptions that leave `HandleRead`

Of all the calls that can throw, two do: `stoi` on the `Content-length` of a `POST`, and the
slices of `ParseHeaders` in a call that finishes a header line it did not start. A run that meets
neither never fails, and every malformed request sets `error_`.
-/

namespace WebServer

open Lib

namespace HttpData

theorem analysisStage_returns (s : HttpData) (k : Kernel) :
    ∃ s' k', analysisStage s k = .ok (s', k') := by
  have answered : ∃ flag s' k', analysisRequest s k = .ok (flag, s', k') := by
    by_cases post : s.method = .methodPost
    · exact ⟨.analysisError, s, k, analysisRequest_post post k⟩
    · obtain ⟨fileType, -, answered⟩ := analysisRequest_eq post
      rw [answered]
      dsimp only
      split_ifs <;> exact ⟨_, _, _, rfl⟩
  obtain ⟨flag, s', k', answered⟩ := answered
  simp only [analysisStage, answered, bind, Except.bind]
  split_ifs
  · cases flag <;> exact ⟨_, _, rfl⟩
  · exact ⟨_, _, rfl⟩

/-- Neither of the two calls that can throw does so. -/
structure Harmless (s : HttpData) : Prop where
  header : ∀ t, atHeaders s = some t → ¬ FinishesLine t
  length : ∀ t value, atBody s = some t → t.headers (text "Content-length") = some value →
    ∃ n, stoi value = .ok n

theorem bodyStage_faults {s : HttpData} (k : Kernel) (receiving : s.state = .stateRecvBody) :
    (∃ e, bodyStage s k = .error e) ↔
      ∃ value, s.headers (text "Content-length") = some value ∧ ¬ ∃ n, stoi value = .ok n := by
  simp only [bodyStage, receiving, if_true, bind, Except.bind]
  cases given : s.headers (text "Content-length") with
  | none => simp
  | some value =>
      cases number : stoi value with
      | error e => simp [number]
      | ok n =>
          -- only the analysis is left, which never fails
          obtain ⟨s', k', ran⟩ := analysisStage_returns { s with state := .stateAnalysis } k
          simp only [ran, number]
          split_ifs <;> simp [number]

theorem bodyStage_returns {s : HttpData} (k : Kernel) (past : s.state ≠ .stateRecvBody) :
    ∃ s' k', bodyStage s k = .ok (s', k') := by
  rw [bodyStage, if_neg past]
  exact analysisStage_returns s k

theorem headerStage_fault_iff {s : HttpData} (k : Kernel) (parsing : s.state = .stateParseHeaders)
    (short : s.inBuffer.length < 2 ^ 31) :
    (∃ e, headerStage s k = .error e) ↔ ¬ Harmless s := by
  have here : atHeaders s = some s := by simp [atHeaders, parsing]
  have faults := parseHeaders_fault_iff short
  cases parsed : parseHeaders s with
  | error e =>
      have finishes := faults.mp ⟨e, parsed⟩
      have raised : headerStage s k = .error e := by
        simp [headerStage, parsing, parsed, bind, Except.bind]
      exact ⟨fun _ harmless => harmless.header s here finishes, fun _ => ⟨e, raised⟩⟩
  | ok result =>
      obtain ⟨flag, t⟩ := result
      have calm : ∀ u, atHeaders s = some u → ¬ FinishesLine u := by
        rintro u same finishes
        obtain rfl := Option.some.inj (here.symm.trans same)
        obtain ⟨e, raised⟩ := faults.mpr finishes
        simp [parsed] at raised
      have body : ∀ u, atBody s = some u ↔ flag = .parseHeaderSuccess ∧ t.method = .methodPost ∧
          u = { t with state := .stateRecvBody } := by
        intro u
        cases flag <;> simp [atBody, parsing, here, parsed, eq_comm]
      simp only [headerStage, parsing, if_true, parsed, bind, Except.bind]
      cases flag with
      | parseHeaderAgain | parseHeaderError =>
          refine iff_of_false (by simp) (not_not.mpr ⟨calm, fun u value entered => ?_⟩)
          simp [body] at entered
      | parseHeaderSuccess =>
          by_cases post : t.method = .methodPost
          · simp only [post, if_true]
            rw [bodyStage_faults k rfl]
            constructor
            · rintro ⟨value, given, refused⟩ harmless
              exact refused (harmless.length _ value ((body _).mpr ⟨rfl, post, rfl⟩) given)
            · intro harmful
              by_contra none_left
              refine harmful ⟨calm, fun u value entered given => ?_⟩
              obtain ⟨-, -, rfl⟩ := (body u).mp entered
              by_contra refused
              exact none_left ⟨value, given, refused⟩
          · simp only [post, if_false]
            obtain ⟨s', k', ran⟩ := bodyStage_returns (s := { t with state := .stateAnalysis }) k
              (by simp)
            refine iff_of_false (by simp [ran]) (not_not.mpr ⟨calm, fun u value entered => ?_⟩)
            exact absurd ((body u).mp entered).2.1 post

/-- The stages fail exactly when one of the two calls does. -/
theorem uriStage_fault_iff {s : HttpData} (k : Kernel) (short : s.inBuffer.length < 2 ^ 31) :
    (∃ e, uriStage s k = .error e) ↔ ¬ Harmless s := by
  cases state : s.state with
  | stateParseUri =>
      obtain ⟨flag, t, parsed⟩ := parseURI_returns (show s.inBuffer.length < 2 ^ 63 by omega)
      obtain ⟨b, m, f, v, rfl, shorter⟩ := parseURI_frame parsed
      simp only [uriStage, state, if_true, parsed, bind, Except.bind]
      cases flag with
      | parseUriAgain | parseUriError =>
          have none_left : atHeaders s = none := by simp [atHeaders, state, parsed]
          refine iff_of_false (by simp) (not_not.mpr ⟨?_, ?_⟩)
          · simp [none_left]
          · simp [atBody, state, none_left]
      | parseUriSuccess =>
          dsimp only
          rw [headerStage_fault_iff k rfl (shorter.trans_lt short)]
          have headers : atHeaders s = atHeaders { s with
              inBuffer := b, method := m, fileName := f, httpVersion := v,
              state := .stateParseHeaders } := by simp [atHeaders, state, parsed]
          have body : atBody s = atBody { s with
              inBuffer := b, method := m, fileName := f, httpVersion := v,
              state := .stateParseHeaders } := by simp [atBody, state, headers]
          refine not_congr ⟨?_, ?_⟩
          · rintro ⟨header, length⟩
            exact ⟨headers ▸ header, body ▸ length⟩
          · rintro ⟨header, length⟩
            exact ⟨headers ▸ header, body ▸ length⟩
  | stateParseHeaders =>
      rw [uriStage, if_neg (by simp [state])]
      exact headerStage_fault_iff k state short
  | stateRecvBody =>
      rw [uriStage, if_neg (by simp [state]), headerStage, if_neg (by simp [state]),
        bodyStage_faults k state]
      constructor
      · rintro ⟨value, given, refused⟩ harmless
        exact refused (harmless.length s value (by simp [atBody, state]) given)
      · intro harmful
        by_contra none_left
        refine harmful ⟨by simp [atHeaders, state], fun u value entered given => ?_⟩
        obtain rfl : s = u := by simpa [atBody, state] using entered
        by_contra refused
        exact none_left ⟨value, given, refused⟩
  | stateAnalysis | stateFinish =>
      obtain ⟨s', k', ran⟩ := bodyStage_returns (s := s) k (by simp [state])
      rw [uriStage, if_neg (by simp [state]), headerStage, if_neg (by simp [state]), ran]
      refine iff_of_false (by simp) (not_not.mpr ⟨by simp [atHeaders, state], ?_⟩)
      simp [atBody, atHeaders, state]

/-- The invocation ends in the error path when a parser rejects what it was handed. -/
theorem uriStage_malformed {s : HttpData} {k : Kernel} {shortMsg : Bytes}
    (malformed : Malformed s shortMsg) :
    ∃ s' k', uriStage s k = .ok (s', k') ∧ s'.error = true := by
  have body : ∀ t, atBody s = some t → uriStage s k = bodyStage t k ∧ t.state = .stateRecvBody := by
    intro t entered
    simp only [atBody] at entered
    split_ifs at entered with receiving
    · obtain rfl := Option.some.inj entered
      exact ⟨by rw [uriStage, if_neg (by simp [receiving]), headerStage, if_neg (by simp [receiving])],
        receiving⟩
    · cases at_headers : atHeaders s with
      | none => simp [at_headers] at entered
      | some u =>
          simp only [at_headers, Option.map_some] at entered
          split at entered
          · rename_i v parsed
            split_ifs at entered with post
            obtain rfl := Option.some.inj entered
            refine ⟨?_, rfl⟩
            obtain ⟨header, parsing⟩ := uriStage_headers k at_headers
            rw [header]
            simp only [headerStage, parsing, if_true, Option.some.inj parsed, bind, Except.bind,
              post]
          · cases entered
  have refused : ∃ t, uriStage s k = .ok (badRequest shortMsg t k) := by
    cases malformed with
    | @requestLine t state parsed =>
        exact ⟨{ t with inBuffer := [] },
          by simp [uriStage, state, parsed, bind, Except.bind]⟩
    | @headers t u entered parsed =>
        obtain ⟨header, parsing⟩ := uriStage_headers k entered
        refine ⟨u, ?_⟩
        rw [header]
        simp [headerStage, parsing, parsed, bind, Except.bind]
    | @contentLength t entered missing =>
        obtain ⟨same, state⟩ := body t entered
        refine ⟨t, ?_⟩
        rw [same]
        simp [bodyStage, state, missing]
  obtain ⟨t, refused⟩ := refused
  exact ⟨_, _, refused, badRequest_error shortMsg t k⟩

/-- Every invocation finds a buffer that `int` can index and meets neither throwing call. -/
def Contained (s : HttpData) (k : Kernel) : Prop :=
  ∀ t kt, Invoked s k t kt → ∀ u, handed t kt = some u →
    u.inBuffer.length < 2 ^ 31 ∧ Harmless u

theorem handleRead_returns {s : HttpData} {k : Kernel} (contained : Contained s k) :
    ∃ s' k', handleRead s k = .ok (s', k') := by
  obtain ⟨t, kt, invoked, ends, -⟩ := handleRead_last s k
  have received : ∃ u ku, receive t kt = .ok (u, ku) := by
    cases passed : handed t kt with
    | none =>
        obtain ⟨s', k', ran, -⟩ := receive_none passed
        exact ⟨s', k', ran⟩
    | some u =>
        obtain ⟨short, harmless⟩ := contained t kt invoked u passed
        rw [receive_some passed]
        cases ran : uriStage u { kt with reads := (readN kt.reads 0 t.inBuffer).rest } with
        | ok result => exact ⟨_, _, rfl⟩
        | error e => exact absurd harmless ((uriStage_fault_iff _ short).mp ⟨e, ran⟩)
  obtain ⟨u, ku, received⟩ := received
  exact ⟨_, _, by rw [ends, handleReadTurn, received]; rfl⟩

theorem handleRead_malformed {s t u : HttpData} {k kt : Kernel} {shortMsg : Bytes}
    (invoked : Invoked s k t kt) (passed : handed t kt = some u) (malformed : Malformed u shortMsg) :
    ∃ s' k', handleRead s k = .ok (s', k') ∧ s'.error = true := by
  obtain ⟨s', k', ran, failed⟩ :=
    uriStage_malformed (k := { kt with reads := (readN kt.reads 0 t.inBuffer).rest }) malformed
  have turn : handleReadTurn t kt = .ok (false, s', k') := by
    rw [handleReadTurn, receive_some passed, ran]
    simp [Except.map, settle, failed]
  have here : handleRead t kt = .ok (s', k') := by
    rw [handleRead_eq, turn]
    rfl
  refine ⟨s', k', ?_, failed⟩
  clear passed malformed ran turn
  induction invoked with
  | call => exact here
  | nested _ again ih =>
      apply ih
      rw [handleRead_eq, again]
      exact here

end HttpData

/-- The read callback runs for the event, and all its invocations are contained. -/
def Contained (σ : Session) (e : Event) : Prop :=
  ¬ HttpData.HangUp e.revents → HttpData.Readable e.revents →
    HttpData.Contained (σ.before e) (σ.kernel e)

theorem after_crashed {σ : Session} {e : Event} (calm : σ.crashed = none)
    (contained : Contained σ e) : (σ.after e).crashed = none := by
  rcases Session.after_cases (σ := σ) (e := e) with
    ⟨-, same⟩ | ⟨alive, ⟨fault, read, -⟩ | ⟨t, kt, -, same⟩⟩
  · rw [same]
    exact calm
  · rw [HttpData.readPart] at read
    split_ifs at read with readable
    obtain ⟨s', k', returned⟩ := HttpData.handleRead_returns (contained alive readable)
    rw [returned] at read
    cases read
  · rw [same]
    exact calm

/-- In a run of contained events no exception leaves a handler, and a call of `HandleRead` one of
    whose invocations is handed a malformed request leaves `error_` set. -/
theorem contained_run {σ : Session} (reached : connection.Reached Contained σ) :
    σ.crashed = none ∧
      ∀ e t kt u shortMsg, HttpData.Invoked (σ.before e) (σ.kernel e) t kt →
        HttpData.handed t kt = some u → HttpData.Malformed u shortMsg →
          ∃ s' k', HttpData.handleRead (σ.before e) (σ.kernel e) = .ok (s', k') ∧ s'.error = true := by
  refine ⟨?_, fun e t kt u shortMsg => HttpData.handleRead_malformed⟩
  apply reached.invariant (P := fun σ => σ.crashed = none)
  · rintro σ ⟨fd, rfl⟩
    rfl
  · intro σ e σ' calm contained moved
    rw [(Session.step_some moved).2]
    exact after_crashed calm contained

/-- The test that one invocation finds its buffer short, starts no call of `ParseHeaders` inside a
    line and looks for no `Content-length`. -/
def plain (s : HttpData) (k : Kernel) : Bool :=
  (HttpData.handed s k).all fun u =>
    u.inBuffer.length < 2 ^ 31 && (u.atHeaders.all fun t => !decide (HttpData.MidLine t.hState)) &&
      u.atBody.isNone

theorem contained_of_plain {s : HttpData} {k : Kernel} (passes : plain s k = true)
    (last : (HttpData.handleReadTurn s k).toOption.all (fun result => !result.1) = true) :
    HttpData.Contained s k := by
  intro t kt invoked u passed
  obtain ⟨rfl, rfl⟩ := invoked.single last
  simp only [plain, passed, Option.all_some, Bool.and_eq_true, decide_eq_true_eq,
    Option.isNone_iff_eq_none, Option.all_eq_true, Bool.not_eq_true', decide_eq_false_iff_not] at passes
  obtain ⟨⟨short, outside⟩, absent⟩ := passes
  exact ⟨short, fun t entered finishes => outside t entered finishes.1, by simp [absent]⟩

/-- A request for the icon. -/
def iconRequest : Event where
  revents := EPOLLIN
  reads := [.ok (text "GET /favicon.ico HTTP/1.1\r\nA: b\r\n\r\n")]
  writes := []
  files := fun _ _ => .missing

theorem contained_run_icon : ((Session.registered 5).after iconRequest).crashed = none :=
  have contained : Contained (Session.registered 5) iconRequest := fun _ _ =>
    contained_of_plain (by decide +kernel) (by decide +kernel)
  (contained_run (connection_after (.init ⟨5, rfl⟩) contained (by decide))).1

/-- A `POST` whose `Content-length` is not a number. -/
def postedLetters : Event where
  revents := EPOLLIN
  reads := [.ok (text "POST /a.txt HTTP/1.1\r\nContent-length: x\r\n\r\n")]
  writes := []
  files := fun _ _ => .missing

/-- One small request ends the server with an exception. -/
theorem escaping_exception :
    ¬ ∀ σ, connection.Reachable σ → σ.crashed = none := by
  intro calm
  have crashed : ((Session.registered 5).after postedLetters).crashed =
      some (.thrown .invalidArgument) := by decide +kernel
  have reached : connection.Reachable ((Session.registered 5).after postedLetters) :=
    connection_after (.init ⟨5, rfl⟩) trivial (by decide)
  simp [calm _ reached] at crashed

end WebServer
