import WebServer.Http.Verdict
import WebServer.Lib.TwoRuns

/-! # Two connections that go through the same stages

The stages of `HandleRead` do not look at the state of the connection, the version or `keep_alive_`,
and at the method only after the request line has set it. So connections that agree on the other
members stay that way and write the same bytes.
-/

namespace WebServer

open Lib

namespace HttpData

/-- The members that decide what a connection does are the same, but for its method and the state of
    the connection, which are related by `C`. -/
structure Alike (C : ConnectionState → ConnectionState → Prop) (s t : HttpData) : Prop where
  events : s.channel.events = t.channel.events
  inBuffer : s.inBuffer = t.inBuffer
  outBuffer : s.outBuffer = t.outBuffer
  error : s.error = t.error
  connectionState : C s.connectionState t.connectionState
  fileName : s.fileName = t.fileName
  nowReadPos : s.nowReadPos = t.nowReadPos
  state : s.state = t.state
  hState : s.hState = t.hState
  headers : s.headers = t.headers

/-- The method is the same, too. -/
structure Same (C : ConnectionState → ConnectionState → Prop) (s t : HttpData) : Prop
    extends Alike C s t where
  method : s.method = t.method

/-- The method is the same, too, once the request line is parsed. -/
structure Linked (C : ConnectionState → ConnectionState → Prop) (s t : HttpData) : Prop
    extends Alike C s t where
  method : s.state ≠ .stateParseUri → s.method = t.method

/-- The kernels meet the same results; the sockets have accepted the same bytes on top of `p` and
    `q`. -/
structure Beside (p q : Bytes) (k k' : Kernel) : Prop where
  reads : k.reads = k'.reads
  writes : k.writes = k'.writes
  files : k.files = k'.files
  looked : k.looked = k'.looked
  sent : ∃ x, k.sent = p ++ x ∧ k'.sent = q ++ x

variable {C : ConnectionState → ConnectionState → Prop} {s t : HttpData} {k k' : Kernel}
  {p q : Bytes}

theorem Same.linked (same : Same C s t) : Linked C s t := ⟨same.toAlike, fun _ => same.method⟩

theorem parseVersion_same (line : Bytes) (pos : Nat) (same : Same C s t) :
    Both (fun a b => a.1 = b.1 ∧ Same C a.2 b.2) (parseVersion line pos s)
      (parseVersion line pos t) := by
  unfold parseVersion
  dsimp only
  split_ifs
  · exact .ok ⟨rfl, same⟩
  · exact .ok ⟨rfl, same⟩
  · refine .bind (.same _) ?_
    rintro ver _ rfl
    split_ifs
    · exact .ok ⟨rfl, { same with }⟩
    · exact .ok ⟨rfl, { same with }⟩
    · exact .ok ⟨rfl, same⟩

theorem parseFileName_same (line : Bytes) (pos : Nat) (same : Same C s t) :
    Both (fun a b => a.1 = b.1 ∧ Same C a.2 b.2) (parseFileName line pos s)
      (parseFileName line pos t) := by
  unfold parseFileName
  dsimp only
  split_ifs
  · exact .ok ⟨rfl, { same with fileName := rfl }⟩
  · exact .ok ⟨rfl, same⟩
  · refine .bind (.same _) ?_
    rintro name _ rfl
    exact parseVersion_same line _ { same with fileName := rfl }

/-- What `ParseURI` makes of connections that are alike. -/
def UriAlike (C : ConnectionState → ConnectionState → Prop) (a b : UriState × HttpData) : Prop :=
  a.1 = b.1 ∧ Alike C a.2 b.2 ∧ (a.1 = .parseUriSuccess → a.2.method = b.2.method)

theorem parseRequestLine_alike (line : Bytes) (alike : Alike C s t) :
    Both (UriAlike C) (parseRequestLine line s) (parseRequestLine line t) := by
  have named : ∀ pos method, Both (UriAlike C) (parseFileName line pos { s with method })
      (parseFileName line pos { t with method }) := by
    intro pos method
    have same : Same C { s with method } { t with method } := { alike with method := rfl }
    exact (parseFileName_same line pos same).mono fun a b ⟨flag, same⟩ =>
      ⟨flag, same.toAlike, fun _ => same.method⟩
  unfold parseRequestLine
  dsimp only
  split_ifs
  · exact named _ _
  · exact named _ _
  · exact named _ _
  · exact .ok ⟨rfl, alike, by simp⟩

theorem parseURI_alike (alike : Alike C s t) : Both (UriAlike C) (parseURI s) (parseURI t) := by
  unfold parseURI
  dsimp only
  rw [← alike.inBuffer, ← alike.nowReadPos]
  split_ifs
  · exact .ok ⟨rfl, alike, by simp⟩
  all_goals
    refine .bind (.same _) ?_
    rintro line _ rfl
    refine .bind (.same _) ?_
    rintro rest _ rfl
    exact parseRequestLine_alike line { alike with inBuffer := rfl, nowReadPos := rfl }

theorem parseHeaders_same (same : Same C s t) :
    Both (fun a b => a.1 = b.1 ∧ Same C a.2 b.2) (parseHeaders s) (parseHeaders t) := by
  unfold parseHeaders
  rw [← same.inBuffer, ← same.hState, ← same.headers]
  refine .bind (.same _) ?_
  rintro scan _ rfl
  cases scan with
  | rejected l =>
      exact .ok ⟨rfl, { same with inBuffer := rfl, hState := rfl, headers := rfl }⟩
  | done i l =>
      dsimp only
      split_ifs
      all_goals
        refine .bind (.same _) ?_
        rintro str _ rfl
        exact .ok ⟨rfl, { same with inBuffer := rfl, hState := rfl, headers := rfl }⟩

theorem Beside.write (beside : Beside p q k k') (buff : Bytes) :
    (k.write buff).1 = (k'.write buff).1 ∧ Beside p q (k.write buff).2 (k'.write buff).2 := by
  obtain ⟨x, sent, sent'⟩ := beside.sent
  unfold Kernel.write
  rw [← beside.writes]
  refine ⟨rfl, { beside with
    writes := rfl, sent := ⟨x ++ (writeLoop k.writes buff).accepted buff, ?_, ?_⟩ }⟩
  · dsimp only
    rw [sent, List.append_assoc]
  · dsimp only
    rw [sent', List.append_assoc]

theorem handleError_alike (errNum : Nat) (shortMsg : Bytes) (alike : Alike C s t)
    (beside : Beside p q k k') :
    Alike C (handleError errNum shortMsg s k).1 (handleError errNum shortMsg t k').1 ∧
      Beside p q (handleError errNum shortMsg s k).2 (handleError errNum shortMsg t k').2 :=
  ⟨{ alike with }, ((beside.write _).2.write _).2⟩

theorem badRequest_alike (shortMsg : Bytes) (alike : Alike C s t) (beside : Beside p q k k') :
    Alike C (badRequest shortMsg s k).1 (badRequest shortMsg t k').1 ∧
      Beside p q (badRequest shortMsg s k).2 (badRequest shortMsg t k').2 :=
  handleError_alike 400 shortMsg { alike with error := rfl } beside

/-- What `AnalysisRequest` makes of connections that are the same. -/
def AnalysisSame (C : ConnectionState → ConnectionState → Prop) (p q : Bytes)
    (a b : AnalysisState × HttpData × Kernel) : Prop :=
  a.1 = b.1 ∧ Same C a.2.1 b.2.1 ∧ Beside p q a.2.2 b.2.2

theorem analysisFile_same (header fileType : Bytes) (same : Same C s t) (beside : Beside p q k k') :
    AnalysisSame C p q (analysisFile header fileType s k) (analysisFile header fileType t k') := by
  unfold analysisFile Kernel.lookup
  dsimp only
  rw [← same.fileName, ← same.method, ← beside.files, ← beside.looked]
  have looked : Beside p q { k with looked := k.looked ++ [cstr s.fileName] }
      { k' with files := k.files, looked := k.looked ++ [cstr s.fileName] } :=
    { beside with files := rfl, looked := rfl }
  have refused : ∀ {u v : HttpData}, Same C u v → AnalysisSame C p q
      (.analysisError, handleError 404 (text "Not Found!") u
        { k with looked := k.looked ++ [cstr s.fileName] })
      (.analysisError, handleError 404 (text "Not Found!") v
        { k' with files := k.files, looked := k.looked ++ [cstr s.fileName] }) := by
    intro u v same
    obtain ⟨alike, beside⟩ := handleError_alike 404 (text "Not Found!") same.toAlike looked
    exact ⟨rfl, ⟨alike, same.method⟩, beside⟩
  cases (k.files k.looked.length (cstr s.fileName)).stSize with
  | none => exact refused same
  | some size =>
      dsimp only
      split_ifs
      · refine ⟨rfl, { same with outBuffer := ?_ }, looked⟩
        exact congrArg (· ++ _) same.outBuffer
      · cases (k.files k.looked.length (cstr s.fileName)).mapped with
        | none => exact refused { same with outBuffer := rfl }
        | some body =>
            refine ⟨rfl, { same with outBuffer := ?_ }, looked⟩
            exact congrArg (· ++ _) same.outBuffer

/-- What the stages make of connections that are alike. -/
def StageLinked (C : ConnectionState → ConnectionState → Prop) (p q : Bytes)
    (a b : HttpData × Kernel) : Prop :=
  Linked C a.1 b.1 ∧ Beside p q a.2 b.2

theorem analysisRequest_same (same : Same C s t) (beside : Beside p q k k') :
    Both (AnalysisSame C p q) (analysisRequest s k) (analysisRequest t k') := by
  have answered : ∀ {u v : HttpData} (header : Bytes), Same C u v →
      Both (AnalysisSame C p q)
        (do
          let fileType ← fileTypeOf u.fileName
          if u.fileName = text "hello" then .ok (.analysisSuccess, u.assign echoReply, k)
          else if u.fileName = text "favicon.ico" then
            .ok (.analysisSuccess,
              u.append (header ++ replyEnd (text "image/png") favicon.length ++ favicon), k)
          else .ok (analysisFile header fileType u k) : Except Fault _)
        (do
          let fileType ← fileTypeOf v.fileName
          if v.fileName = text "hello" then .ok (.analysisSuccess, v.assign echoReply, k')
          else if v.fileName = text "favicon.ico" then
            .ok (.analysisSuccess,
              v.append (header ++ replyEnd (text "image/png") favicon.length ++ favicon), k')
          else .ok (analysisFile header fileType v k')) := by
    intro u v header same
    rw [← same.fileName]
    refine .bind (.same _) ?_
    rintro fileType _ rfl
    split_ifs
    · exact .ok ⟨rfl, { same with outBuffer := rfl }, beside⟩
    · exact .ok ⟨rfl, { same with outBuffer := congrArg (· ++ _) same.outBuffer }, beside⟩
    · exact .ok (analysisFile_same header fileType same beside)
  unfold analysisRequest
  rw [← same.method]
  cases s.method with
  | methodPost => exact .ok ⟨rfl, same, beside⟩
  | methodGet | methodHead =>
      dsimp only
      rw [← same.headers]
      by_cases keep : keepAliveRequested s.headers = true
      · rw [if_pos keep, if_pos keep]
        exact answered _ { same with method := rfl, headers := rfl }
      · rw [if_neg keep, if_neg keep]
        exact answered _ same

theorem analysisStage_linked (same : Same C s t) (beside : Beside p q k k') :
    Both (StageLinked C p q) (analysisStage s k) (analysisStage t k') := by
  unfold analysisStage
  rw [← same.state]
  split_ifs
  · apply (analysisRequest_same same beside).bind
    rintro ⟨flag, u, ku⟩ ⟨_, v, kv⟩ ⟨rfl, same, beside⟩
    cases flag with
    | analysisSuccess => exact .ok ⟨⟨{ same with state := rfl }, fun _ => same.method⟩, beside⟩
    | analysisError => exact .ok ⟨⟨{ same with error := rfl }, fun _ => same.method⟩, beside⟩
  · exact .ok ⟨same.linked, beside⟩

theorem bodyStage_linked (same : Same C s t) (beside : Beside p q k k') :
    Both (StageLinked C p q) (bodyStage s k) (bodyStage t k') := by
  unfold bodyStage
  rw [← same.state, ← same.headers]
  split_ifs
  · cases s.headers (text "Content-length") with
    | none =>
        obtain ⟨alike, beside⟩ := badRequest_alike
          (text "Bad Request: Lack of argument (Content-length)") same.toAlike beside
        exact .ok ⟨⟨alike, fun _ => same.method⟩, beside⟩
    | some value =>
        refine .bind (.same _) ?_
        rintro contentLength _ rfl
        rw [← same.inBuffer]
        split_ifs
        · exact .ok ⟨same.linked, beside⟩
        · exact analysisStage_linked
            { same with inBuffer := rfl, state := rfl, headers := rfl } beside
  · exact analysisStage_linked same beside

theorem headerStage_linked (same : Same C s t) (beside : Beside p q k k') :
    Both (StageLinked C p q) (headerStage s k) (headerStage t k') := by
  unfold headerStage
  rw [← same.state]
  split_ifs
  · apply (parseHeaders_same same).bind
    rintro ⟨flag, u⟩ ⟨_, v⟩ ⟨rfl, same⟩
    cases flag with
    | parseHeaderAgain => exact .ok ⟨same.linked, beside⟩
    | parseHeaderError =>
        obtain ⟨alike, beside⟩ := badRequest_alike (text "Bad Request") same.toAlike beside
        exact .ok ⟨⟨alike, fun _ => same.method⟩, beside⟩
    | parseHeaderSuccess =>
        dsimp only
        rw [← same.method]
        split_ifs
        · exact bodyStage_linked { same with state := rfl, method := rfl } beside
        · exact bodyStage_linked { same with state := rfl, method := rfl } beside
  · exact bodyStage_linked same beside

theorem uriStage_linked (linked : Linked C s t) (beside : Beside p q k k') :
    Both (StageLinked C p q) (uriStage s k) (uriStage t k') := by
  unfold uriStage
  rw [← linked.state]
  split_ifs with unparsed
  · have unchanged : ∀ a, parseURI s = .ok a → a.2.state = .stateParseUri := by
      rintro ⟨flag, u⟩ parsed
      obtain ⟨b, m, f, v, rfl, -⟩ := parseURI_frame parsed
      exact unparsed
    apply ((parseURI_alike linked.toAlike).left unchanged).bind
    rintro ⟨flag, u⟩ ⟨_, v⟩ ⟨⟨rfl, alike, method⟩, state⟩
    cases flag with
    | parseUriAgain => exact .ok ⟨⟨alike, fun parsed => absurd state parsed⟩, beside⟩
    | parseUriError =>
        obtain ⟨alike, beside⟩ := badRequest_alike (text "Bad Request")
          { alike with inBuffer := rfl : Alike C { u with inBuffer := [] } { v with inBuffer := [] } }
          beside
        exact .ok ⟨⟨alike, fun parsed => absurd state parsed⟩, beside⟩
    | parseUriSuccess =>
        exact headerStage_linked { alike with state := rfl, method := method rfl } beside
  · exact headerStage_linked ⟨linked.toAlike, linked.method unparsed⟩ beside

end HttpData

end WebServer
