import WebServer.Http.Answer
import WebServer.Http.HeaderCodec
import WebServer.Http.RequestLine
import WebServer.Http.Standing

/-! # The paths that are looked up

`AnalysisRequest` hands `file_name_` to `stat` and `open`, and nothing between `ParseURI` and these
calls looks at it. So the files served are those below the working directory as long as the request
lines name no others.
-/

namespace WebServer

open Lib

/-- Follow the components of a path from the directories `above`, innermost first; `none` when a
    component leads above all of them. -/
def resolve (above : List Bytes) : List Bytes → Option (List Bytes)
  | [] => some above
  | name :: names =>
      if name = [] ∨ name = [DOT] then resolve above names
      else if name = [DOT, DOT] then
        match above with
        | [] => none
        | _ :: above => resolve above names
      else resolve (name :: above) names

/-- The path is relative and resolves inside the working directory. -/
def Inside (path : Bytes) : Prop :=
  path.head? ≠ some SLASH ∧ (resolve [] (path.splitOn SLASH)).isSome

instance (path : Bytes) : Decidable (Inside path) := inferInstanceAs (Decidable (_ ∧ _))

example : Inside (text "a/../b") := by decide

example : ¬ Inside (text "a/../../b") := by decide

namespace HttpData

variable {s s' t u : HttpData} {k k' kt : Kernel}

/-- From `(s, k)` to `(s', k')` at most the requested file is looked up, and only for a `GET` or
    `HEAD` request. -/
structure Looks (s : HttpData) (k : Kernel) (s' : HttpData) (k' : Kernel) : Prop where
  method : s'.method = s.method
  fileName : s'.fileName = s.fileName
  looked : k'.looked = k.looked ∨
    s.method ≠ .methodPost ∧ k'.looked = k.looked ++ [cstr s.fileName]

theorem Looks.refl (s : HttpData) (k : Kernel) : Looks s k s k := ⟨rfl, rfl, .inl rfl⟩

theorem analysisFile_looked (header fileType : Bytes) (s : HttpData) (k : Kernel) :
    (analysisFile header fileType s k).2.1.method = s.method ∧
      (analysisFile header fileType s k).2.1.fileName = s.fileName ∧
      (analysisFile header fileType s k).2.2.looked = k.looked ++ [cstr s.fileName] := by
  unfold analysisFile
  dsimp only
  split
  · exact ⟨rfl, rfl, rfl⟩
  · split_ifs
    · exact ⟨rfl, rfl, rfl⟩
    · split
      · exact ⟨rfl, rfl, rfl⟩
      · exact ⟨rfl, rfl, rfl⟩

theorem analysisRequest_looks {flag : AnalysisState}
    (answered : analysisRequest s k = .ok (flag, s', k')) : Looks s k s' k' := by
  by_cases post : s.method = .methodPost
  · rw [analysisRequest_post post] at answered
    cases answered
    exact .refl s k
  · obtain ⟨fileType, -, cases⟩ := analysisRequest_eq post
    rw [cases] at answered
    dsimp only at answered
    split_ifs at answered
    · cases answered
      exact ⟨rfl, rfl, .inl rfl⟩
    · cases answered
      exact ⟨rfl, rfl, .inl rfl⟩
    · have file := analysisFile_looked (replyStart (keepAliveRequested s.headers)) fileType
        { s with keepAlive := s.keepAlive || keepAliveRequested s.headers } k
      rw [Except.ok.inj answered] at file
      exact ⟨file.1, file.2.1, .inr ⟨post, file.2.2⟩⟩

theorem analysisStage_looks (ran : analysisStage s k = .ok (s', k')) : Looks s k s' k' := by
  simp only [analysisStage, bind, Except.bind] at ran
  split_ifs at ran
  · split at ran
    · cases ran
    · rename_i answer answered
      obtain ⟨flag, t, kt⟩ := answer
      obtain ⟨method, fileName, looked⟩ := analysisRequest_looks answered
      cases flag with
      | analysisSuccess =>
          cases ran
          exact ⟨method, fileName, looked⟩
      | analysisError =>
          cases ran
          exact ⟨method, fileName, looked⟩
  · cases ran
    exact .refl s k

theorem bodyStage_looks (ran : bodyStage s k = .ok (s', k')) : Looks s k s' k' := by
  simp only [bodyStage, bind, Except.bind] at ran
  split at ran
  · split at ran
    · cases ran
      exact ⟨rfl, rfl, .inl rfl⟩
    · split at ran
      · cases ran
      · split_ifs at ran
        · cases ran
          exact .refl s k
        · obtain ⟨method, fileName, looked⟩ := analysisStage_looks ran
          exact ⟨method, fileName, looked⟩
  · exact analysisStage_looks ran

theorem headerStage_looks (ran : headerStage s k = .ok (s', k')) : Looks s k s' k' := by
  simp only [headerStage, bind, Except.bind] at ran
  split at ran
  · split at ran
    · cases ran
    · rename_i result parsed
      obtain ⟨flag, t⟩ := result
      obtain ⟨-, -, b, h, m, rfl⟩ := parseHeaders_frame parsed
      cases flag with
      | parseHeaderAgain =>
          cases ran
          exact ⟨rfl, rfl, .inl rfl⟩
      | parseHeaderError =>
          cases ran
          exact ⟨rfl, rfl, .inl rfl⟩
      | parseHeaderSuccess =>
          dsimp only at ran
          split_ifs at ran
          · obtain ⟨method, fileName, looked⟩ := bodyStage_looks ran
            exact ⟨method, fileName, looked⟩
          · obtain ⟨method, fileName, looked⟩ := bodyStage_looks ran
            exact ⟨method, fileName, looked⟩
  · exact bodyStage_looks ran

/-- A request line that is accepted for `GET` or `HEAD` names a path inside. -/
def LineInside (requestLine : Bytes) : Prop :=
  ∀ r ∈ lineRequest requestLine, r.method ≠ .methodPost → Inside (cstr r.fileName)

instance (requestLine : Bytes) : Decidable (LineInside requestLine) := by
  unfold LineInside
  infer_instance

end HttpData

/-- A request that is past its line, and is no `POST`, names a path inside. -/
structure Standing.NamesInside (v : Standing) : Prop where
  nowReadPos : v.nowReadPos = 0
  inside : v.state ≠ .stateParseUri → v.method ≠ .methodPost → Inside (cstr v.fileName)

theorem Standing.Awaits.namesInside {v : Standing} (awaits : v.Awaits) : v.NamesInside :=
  ⟨awaits.nowReadPos, fun past => absurd awaits.state past⟩

namespace HttpData

variable {s s' t u : HttpData} {k k' kt : Kernel}

/-- `ParseURI` takes its line up to the first `\r`, or the whole buffer. -/
theorem parseURI_request (start : s.nowReadPos = 0) (short : s.inBuffer.length < 2 ^ 63)
    (parsed : parseURI s = .ok (.parseUriSuccess, t)) :
    ∃ r, lineRequest (upTo CR s.inBuffer) = some r ∧ t.method = r.method ∧
      t.fileName = r.fileName := by
  have taken : ∃ s', parseURI s = parseRequestLine (upTo CR s.inBuffer) s' := by
    rcases search_byte_cases CR s.inBuffer with ⟨-, absent⟩ | ⟨line, rest, buffered, first, -⟩
    · rw [upTo_absent absent]
      exact ⟨s, parseURI_no_line short absent⟩
    · rw [parseURI_line start buffered short first, buffered, upTo_cut rest first]
      exact ⟨_, rfl⟩
  obtain ⟨s', taken⟩ := taken
  have line_short : (upTo CR s.inBuffer).length < 2 ^ 63 :=
    (List.takeWhile_prefix _).length_le.trans_lt short
  rw [taken] at parsed
  rcases parseRequestLine_request line_short s' with ⟨r, request, accepts⟩ | ⟨-, t', refuses⟩
  · rw [accepts] at parsed
    cases parsed
    exact ⟨r, request, rfl, rfl⟩
  · rw [refuses] at parsed
    cases parsed

/-- The line that the stages take off the buffer, if they take one, names a path inside. -/
def TakesInside (u : HttpData) : Prop :=
  u.state = .stateParseUri → u.inBuffer.length < 2 ^ 63 ∧ LineInside (upTo CR u.inBuffer)

instance (u : HttpData) : Decidable (TakesInside u) := inferInstanceAs (Decidable (_ → _ ∧ _))

theorem Looks.inside (looks : Looks s k s' k')
    (named : s.method ≠ .methodPost → Inside (cstr s.fileName)) (nowReadPos : s'.nowReadPos = 0) :
    s'.standing.NamesInside ∧ ∀ path ∈ k'.looked, path ∈ k.looked ∨ Inside path := by
  obtain ⟨method, fileName, looked⟩ := looks
  refine ⟨⟨nowReadPos, fun _ asks => ?_⟩, fun path inside => ?_⟩
  · simp only [standing, method, fileName] at asks ⊢
    exact named asks
  · rcases looked with same | ⟨asks, added⟩
    · exact .inl (same ▸ inside)
    · rw [added, List.mem_append, List.mem_singleton] at inside
      rcases inside with earlier | rfl
      · exact .inl earlier
      · exact .inr (named asks)

/-- The stages look up only what a request line has named. -/
theorem uriStage_inside (holds : u.standing.NamesInside) (takes : TakesInside u)
    (ran : uriStage u k = .ok (s', k')) :
    s'.standing.NamesInside ∧ ∀ path ∈ k'.looked, path ∈ k.looked ∨ Inside path := by
  have start : s'.nowReadPos = 0 := (uriStage_advance ran).nowReadPos.trans holds.nowReadPos
  by_cases state : u.state = .stateParseUri
  · obtain ⟨short, line⟩ := takes state
    simp only [uriStage, state, if_true, bind, Except.bind] at ran
    split at ran
    · cases ran
    · rename_i result parsed
      obtain ⟨flag, t⟩ := result
      obtain ⟨b, m, f, v, same, -⟩ := parseURI_frame parsed
      have still : t.state = .stateParseUri := by rw [same, state]
      cases flag with
      | parseUriAgain =>
          cases ran
          exact ⟨⟨start, fun past => absurd still past⟩, fun path inside => .inl inside⟩
      | parseUriError =>
          cases ran
          exact ⟨⟨start, fun past => absurd still past⟩, fun path inside => .inl inside⟩
      | parseUriSuccess =>
          obtain ⟨r, request, method, fileName⟩ := parseURI_request holds.nowReadPos short parsed
          refine (headerStage_looks ran).inside (fun asks => ?_) start
          dsimp only at asks ⊢
          rw [fileName]
          exact line r request (method ▸ asks)
  · rw [uriStage, if_neg state] at ran
    exact (headerStage_looks ran).inside (holds.inside state) start

theorem flush_looked (s : HttpData) (k : Kernel) : (flush s k).2.looked = k.looked := by
  unfold flush
  split_ifs
  · rcases handleWrite_kernel s k with same | same
    · rw [same]
    · rw [same, Kernel.write]
  · rfl

theorem receive_inside (holds : s.standing.NamesInside)
    (takes : ∀ u, handed s k = some u → TakesInside u) (looked : ∀ path ∈ k.looked, Inside path)
    (ran : receive s k = .ok (s', k')) : ∀ path ∈ k'.looked, Inside path := by
  cases passed : handed s k with
  | none =>
      rw [(receive_stays passed ran).2]
      exact looked
  | some u =>
      rw [receive_some passed] at ran
      rw [← (handed_keeps passed).1] at holds
      intro path inside
      exact ((uriStage_inside holds (takes u passed) ran).2 path inside).elim (looked path) id

theorem keeps_namesInside (takes : TakesInside u) : u.Keeps Standing.NamesInside :=
  fun holds _ _ _ ran => .inr (.inr (uriStage_inside holds takes ran).1)

theorem Invoked.looked (holds : s.standing.NamesInside)
    (takes : ∀ t kt, Invoked s k t kt → ∀ u, handed t kt = some u → TakesInside u)
    (looked : ∀ path ∈ k.looked, Inside path) (invoked : Invoked s k t kt) :
    t.standing.NamesInside ∧ ∀ path ∈ kt.looked, Inside path := by
  refine ⟨invoked.standing (fun _ => Standing.Awaits.namesInside)
    (fun t kt before u passed => keeps_namesInside (takes t kt before u passed)) holds, ?_⟩
  induction invoked with
  | call => exact looked
  | @nested t kt t' kt' before turn ih =>
      have standing := before.standing (fun _ => Standing.Awaits.namesInside)
        (fun t kt before u passed => keeps_namesInside (takes t kt before u passed)) holds
      obtain ⟨u, ku, received, settled⟩ := handleReadTurn_parts turn
      obtain ⟨-, -, -, -, rfl, -⟩ := settle_again settled
      rw [flush_looked]
      exact receive_inside standing (takes t kt before) ih received

/-- No built-in resource has a name outside, so it is looked up. -/
theorem analysisStage_outside (analysing : s.state = .stateAnalysis) (asks : s.method ≠ .methodPost)
    (outside : ¬ Inside (cstr s.fileName)) (k : Kernel) :
    ∃ s' k', analysisStage s k = .ok (s', k') ∧ cstr s.fileName ∈ k'.looked := by
  have hello : s.fileName ≠ text "hello" := by
    intro same
    rw [same] at outside
    exact outside (by decide)
  have icon : s.fileName ≠ text "favicon.ico" := by
    intro same
    rw [same] at outside
    exact outside (by decide)
  obtain ⟨fileType, -, answered⟩ := analysisRequest_eq asks
  specialize answered k
  dsimp only at answered
  rw [if_neg hello, if_neg icon] at answered
  have looked := (analysisFile_looked (replyStart (keepAliveRequested s.headers)) fileType
    { s with keepAlive := s.keepAlive || keepAliveRequested s.headers } k).2.2
  generalize analysisFile _ _ _ k = result at answered looked
  obtain ⟨flag, t, kt⟩ := result
  dsimp only at looked
  have inside : cstr s.fileName ∈ kt.looked := by
    rw [looked]
    exact List.mem_append_right _ List.mem_cons_self
  simp only [analysisStage, analysing, if_true, answered, bind, Except.bind]
  cases flag with
  | analysisSuccess => exact ⟨_, _, rfl, inside⟩
  | analysisError => exact ⟨_, _, rfl, inside⟩

theorem uriStage_outside {line after : Bytes} {r : RequestLine} (vacant : Vacant s)
    (buffered : s.inBuffer = line ++ CR :: LF :: (headerSection [firstField] ++ after))
    (first : CR ∉ line)
    (small : s.inBuffer.length < 2 ^ 63) (decoded : decodeLine line = some r)
    (asks : r.method ≠ .methodPost) (outside : ¬ Inside (cstr r.fileName)) (k : Kernel) :
    ∃ s' k', uriStage s k = .ok (s', k') ∧ cstr r.fileName ∈ k'.looked := by
  have whole : s.inBuffer ++ [] = line ++ CR :: LF :: (headerSection [firstField] ++ after) :=
    (List.append_nil _).trans buffered
  have parsed := request_parsed vacant whole (by decide) (by rw [List.append_nil]; exact small) r
  have analysing : afterHeaders r.method = .stateAnalysis := if_neg asks
  rw [uriStage_line vacant buffered first small decoded, headerStage_success parsed rfl]
  dsimp only [afterLines, atLine, withLine]
  rw [analysing, bodyStage, if_neg (by simp)]
  exact analysisStage_outside rfl asks outside k

end HttpData

/-- Some invocation of the event has `stat` or `open` look the path up. -/
def Looked (σ : Session) (e : Event) (path : Bytes) : Prop :=
  ∃ t kt t' kt', CallsHandleRead σ e t kt ∧ HttpData.receive t kt = .ok (t', kt') ∧ path ∈ kt'.looked

/-- The request lines that the event's invocations take name paths inside. -/
def LinesInside (σ : Session) (e : Event) : Prop :=
  ∀ t kt u, CallsHandleRead σ e t kt → HttpData.handed t kt = some u → u.TakesInside

/-- In a run whose request lines name paths inside the working directory, only such paths are looked
    up. -/
theorem looked_inside {σ : Session} {e : Event} (reached : connection.Reached LinesInside σ)
    (lines : LinesInside σ e) : ∀ path, Looked σ e path → Inside path := by
  rintro path ⟨t, kt, t', kt', calls, received, looked⟩
  have standing : (σ.before e).standing.NamesInside :=
    (standing_run (fun _ => Standing.Awaits.namesInside)
      (fun σ e met t kt calls u passed => HttpData.keeps_namesInside (met t kt u calls passed))
      reached calls.running).2
  have takes : ∀ t kt, HttpData.Invoked (σ.before e) (σ.kernel e) t kt →
      ∀ u, HttpData.handed t kt = some u → u.TakesInside := fun t kt invoked u passed =>
    lines t kt u ⟨calls.running, calls.alive, calls.readable, invoked⟩ passed
  obtain ⟨here, earlier⟩ := calls.invoked.looked standing takes (by simp [Session.kernel])
  exact HttpData.receive_inside here (takes t kt calls.invoked) earlier received path looked

/-- A chunk for a fresh connection. -/
def delivering (chunk : Bytes) : Event where
  revents := EPOLLIN
  reads := HttpData.arriving chunk
  writes := []
  files := fun _ _ => .missing

theorem handed_delivering (fd : Nat) {chunk : Bytes}
    (counted : 0 ≤ (chunk.length : Int).bmod (2 ^ 32)) :
    HttpData.handed ((Session.registered fd).before (delivering chunk))
        ((Session.registered fd).kernel (delivering chunk)) =
      some { (Session.registered fd).before (delivering chunk) with inBuffer := chunk } := by
  have read : readN ((Session.registered fd).kernel (delivering chunk)).reads 0
      ((Session.registered fd).before (delivering chunk)).inBuffer = ⟨chunk.length, false, chunk, []⟩ :=
    HttpData.readN_arriving chunk []
  have connected : ((Session.registered fd).before (delivering chunk)).connectionState = .hConnected :=
    rfl
  unfold HttpData.handed ReadOutcome.readNum
  simp only [read, connected, reduceCtorEq, Bool.false_eq_true, false_and, or_false, false_or,
    if_false]
  rw [if_neg (not_lt.mpr counted)]

theorem calls_delivering (fd : Nat) (chunk : Bytes) :
    CallsHandleRead (Session.registered fd) (delivering chunk)
      ((Session.registered fd).before (delivering chunk))
      ((Session.registered fd).kernel (delivering chunk)) where
  running := ⟨rfl, by simp [Session.registered, HttpData.newEvent, HttpData.new]⟩
  alive := show ¬ HttpData.HangUp EPOLLIN by decide
  readable := show HttpData.Readable EPOLLIN by decide
  invoked := .call

/-- Every other line has a path outside looked up, when a complete request brings it. -/
theorem outside_looked (fd : Nat) {line : Bytes} {r : HttpData.RequestLine} (first : CR ∉ line)
    (short : line.length < 2 ^ 62) (request : HttpData.lineRequest line = some r)
    (asks : r.method ≠ .methodPost) (outside : ¬ Inside (cstr r.fileName)) :
    ∃ e, Looked (Session.registered fd) e (cstr r.fileName) := by
  have decoded : HttpData.decodeLine line = some r :=
    (HttpData.decodeLine_request (by omega)).trans request
  -- With these bytes behind it, `read_num` is zero.
  let after : Bytes := List.replicate (2 ^ 32 - (line.length + 10) % 2 ^ 32) 0
  let chunk : Bytes := line ++ CR :: LF :: (headerSection [HttpData.firstField] ++ after)
  have size : chunk.length = line.length + 10 + (2 ^ 32 - (line.length + 10) % 2 ^ 32) := by
    have section_size : (headerSection [HttpData.firstField]).length = 8 := by decide
    simp only [chunk, after, List.length_append, List.length_cons, List.length_replicate, section_size]
    omega
  have counted : 0 ≤ (chunk.length : Int).bmod (2 ^ 32) := by
    apply le_of_eq
    symm
    apply Int.bmod_eq_zero_of_dvd
    omega
  refine ⟨delivering chunk, ?_⟩
  have passed := handed_delivering fd counted
  obtain ⟨s', k', ran, looked⟩ := HttpData.uriStage_outside (r := r)
    (s := { (Session.registered fd).before (delivering chunk) with inBuffer := chunk })
    ⟨⟨rfl, rfl, rfl, rfl⟩, rfl, rfl, rfl⟩ rfl first (by show chunk.length < 2 ^ 63; omega) decoded
    asks outside _
  exact ⟨_, _, s', k', calls_delivering fd _, (HttpData.receive_some passed).trans ran, looked⟩

/-- A request for this target. -/
def requesting (target : String) : Event :=
  delivering (text ("GET " ++ target ++ " HTTP/1.1\r\nA: b\r\n\r\n"))

theorem looked_requesting (target : String) {path : Bytes}
    (found : (HttpData.receive ((Session.registered 5).before (requesting target))
      ((Session.registered 5).kernel (requesting target))).toOption.any
        (fun result => path ∈ result.2.looked) = true) :
    Looked (Session.registered 5) (requesting target) path := by
  cases received : HttpData.receive ((Session.registered 5).before (requesting target))
      ((Session.registered 5).kernel (requesting target)) with
  | error fault => simp [received, Except.toOption] at found
  | ok result =>
      have looked : path ∈ result.2.looked := by simpa [received, Except.toOption] using found
      exact ⟨_, _, result.1, result.2, calls_delivering 5 _, received, looked⟩

theorem looked_inside_parent : Looked (Session.registered 5) (requesting "/a/../b") (text "a/../b") ∧
    Inside (text "a/../b") := by
  have looked : Looked (Session.registered 5) (requesting "/a/../b") (text "a/../b") :=
    looked_requesting "/a/../b" (by decide +kernel)
  have lines : LinesInside (Session.registered 5) (requesting "/a/../b") := by
    intro t kt u calls passed
    obtain ⟨rfl, rfl⟩ := calls.invoked.single (by decide +kernel)
    have takes : (HttpData.handed ((Session.registered 5).before (requesting "/a/../b"))
        ((Session.registered 5).kernel (requesting "/a/../b"))).all
          (fun u => u.TakesInside) = true := by
      decide +kernel
    rw [passed] at takes
    exact of_decide_eq_true takes
  exact ⟨looked, looked_inside (.init ⟨5, rfl⟩) lines _ looked⟩

/-- A target that begins with a second slash names a path from the root. -/
theorem looked_outside :
    ¬ ∀ σ e path, connection.Reachable σ → Looked σ e path → Inside path := by
  intro inside
  have looked : Looked (Session.registered 5) (requesting "//etc/passwd") (text "/etc/passwd") :=
    looked_requesting "//etc/passwd" (by decide +kernel)
  exact absurd (inside _ _ _ (.init ⟨5, rfl⟩) looked) (by decide)

end WebServer
