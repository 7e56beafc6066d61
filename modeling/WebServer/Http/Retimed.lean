import WebServer.Http.HandleConn
import WebServer.Http.Isolation

/-! # Handlers do not look at the timer

The members through which a connection and its timer node know each other are written by the
handlers, never read. So a dispatch does the same to two connections that differ in nothing else,
whatever their sockets have accepted before.
-/

namespace WebServer

open Lib

namespace HttpData

/-- The connections differ in the link to their timer node only. -/
def Retimed (s t : HttpData) : Prop := ∃ timer cleared, t = { s with timer, cleared }

variable {s t : HttpData} {k k' : Kernel} {p q : Bytes}

theorem Retimed.trans {u : HttpData} (first : Retimed s t) (second : Retimed t u) :
    Retimed s u := by
  obtain ⟨timer, cleared, rfl⟩ := first
  obtain ⟨timer', cleared', rfl⟩ := second
  exact ⟨timer', cleared', rfl⟩

/-- What two computations return is the same, up to the timer. -/
def FlagRetimed {Flag : Type} (a b : Flag × HttpData) : Prop := a.1 = b.1 ∧ Retimed a.2 b.2

/-- What two handlers leave behind is the same, up to the timer. -/
def HandlerRetimed (p q : Bytes) (a b : HttpData × Kernel) : Prop :=
  Retimed a.1 b.1 ∧ Beside p q a.2 b.2

theorem parseVersion_retimed (line : Bytes) (pos : Nat) (retimed : Retimed s t) :
    Both FlagRetimed (parseVersion line pos s) (parseVersion line pos t) := by
  obtain ⟨timer, cleared, rfl⟩ := retimed
  unfold parseVersion
  dsimp only
  split_ifs
  · exact .ok ⟨rfl, timer, cleared, rfl⟩
  · exact .ok ⟨rfl, timer, cleared, rfl⟩
  · apply (Both.same _).bind
    rintro ver _ rfl
    split_ifs
    all_goals exact .ok ⟨rfl, timer, cleared, rfl⟩

theorem parseFileName_retimed (line : Bytes) (pos : Nat) (retimed : Retimed s t) :
    Both FlagRetimed (parseFileName line pos s) (parseFileName line pos t) := by
  obtain ⟨timer, cleared, rfl⟩ := retimed
  unfold parseFileName
  dsimp only
  split_ifs
  · exact .ok ⟨rfl, timer, cleared, rfl⟩
  · exact .ok ⟨rfl, timer, cleared, rfl⟩
  · apply (Both.same _).bind
    rintro name _ rfl
    exact parseVersion_retimed line _ ⟨timer, cleared, rfl⟩

theorem parseURI_retimed (retimed : Retimed s t) :
    Both FlagRetimed (parseURI s) (parseURI t) := by
  obtain ⟨timer, cleared, rfl⟩ := retimed
  have named (line rest : Bytes) (pos : Nat) (method : HttpMethod) :
      Both FlagRetimed (parseFileName line pos { s with inBuffer := rest, method })
        (parseFileName line pos { s with inBuffer := rest, method, timer, cleared }) :=
    parseFileName_retimed line pos ⟨timer, cleared, rfl⟩
  have lined (line rest : Bytes) :
      Both FlagRetimed (parseRequestLine line { s with inBuffer := rest })
        (parseRequestLine line { s with inBuffer := rest, timer, cleared }) := by
    unfold parseRequestLine
    dsimp only
    split_ifs
    · exact named line rest _ _
    · exact named line rest _ _
    · exact named line rest _ _
    · exact .ok ⟨rfl, timer, cleared, rfl⟩
  unfold parseURI
  dsimp only
  split_ifs
  · exact .ok ⟨rfl, timer, cleared, rfl⟩
  all_goals
    apply (Both.same _).bind
    rintro line _ rfl
    apply (Both.same _).bind
    rintro rest _ rfl
    exact lined line rest

theorem parseHeaders_retimed (retimed : Retimed s t) :
    Both FlagRetimed (parseHeaders s) (parseHeaders t) := by
  obtain ⟨timer, cleared, rfl⟩ := retimed
  unfold parseHeaders
  dsimp only
  apply (Both.same _).bind
  rintro scan _ rfl
  cases scan with
  | rejected l => exact .ok ⟨rfl, timer, cleared, rfl⟩
  | done i l =>
      dsimp only
      split_ifs
      all_goals
        apply (Both.same _).bind
        rintro str _ rfl
        exact .ok ⟨rfl, timer, cleared, rfl⟩

theorem handleError_retimed (errNum : Nat) (shortMsg : Bytes) (retimed : Retimed s t)
    (beside : Beside p q k k') :
    HandlerRetimed p q (handleError errNum shortMsg s k) (handleError errNum shortMsg t k') := by
  obtain ⟨timer, cleared, rfl⟩ := retimed
  obtain ⟨first, wrote⟩ := beside.write (errorReply errNum shortMsg).1
  obtain ⟨second, wrote⟩ := wrote.write (errorReply errNum shortMsg).2
  refine ⟨⟨timer, cleared, ?_⟩, wrote⟩
  unfold handleError
  dsimp only
  rw [first, second]

theorem badRequest_retimed (shortMsg : Bytes) (retimed : Retimed s t) (beside : Beside p q k k') :
    HandlerRetimed p q (badRequest shortMsg s k) (badRequest shortMsg t k') := by
  obtain ⟨timer, cleared, rfl⟩ := retimed
  exact handleError_retimed 400 shortMsg ⟨timer, cleared, rfl⟩ beside

/-- What `AnalysisRequest` returns is the same, up to the timer. -/
def AnalysisRetimed (p q : Bytes) (a b : AnalysisState × HttpData × Kernel) : Prop :=
  a.1 = b.1 ∧ HandlerRetimed p q a.2 b.2

theorem analysisFile_retimed (header fileType : Bytes) (retimed : Retimed s t)
    (beside : Beside p q k k') :
    AnalysisRetimed p q (analysisFile header fileType s k) (analysisFile header fileType t k') := by
  obtain ⟨timer, cleared, rfl⟩ := retimed
  unfold analysisFile Kernel.lookup
  dsimp only
  rw [← beside.files, ← beside.looked]
  have looked : Beside p q { k with looked := k.looked ++ [cstr s.fileName] }
      { k' with files := k.files, looked := k.looked ++ [cstr s.fileName] } :=
    { beside with files := rfl, looked := rfl }
  cases (k.files k.looked.length (cstr s.fileName)).stSize with
  | none =>
      exact ⟨rfl, handleError_retimed 404 (text "Not Found!") ⟨timer, cleared, rfl⟩ looked⟩
  | some size =>
      dsimp only
      split_ifs
      · exact ⟨rfl, ⟨timer, cleared, rfl⟩, looked⟩
      · cases (k.files k.looked.length (cstr s.fileName)).mapped with
        | none =>
            exact ⟨rfl, handleError_retimed 404 (text "Not Found!") ⟨timer, cleared, rfl⟩ looked⟩
        | some body => exact ⟨rfl, ⟨timer, cleared, rfl⟩, looked⟩

theorem analysisRequest_retimed (retimed : Retimed s t) (beside : Beside p q k k') :
    Both (AnalysisRetimed p q) (analysisRequest s k) (analysisRequest t k') := by
  obtain ⟨timer, cleared, rfl⟩ := retimed
  by_cases post : s.method = .methodPost
  · rw [analysisRequest_post post,
      analysisRequest_post (s := { s with timer, cleared }) post]
    exact .ok ⟨rfl, ⟨timer, cleared, rfl⟩, beside⟩
  · obtain ⟨fileType, typed, answers⟩ := analysisRequest_eq post
    obtain ⟨fileType', typed', answers'⟩ :=
      analysisRequest_eq (s := { s with timer, cleared }) post
    obtain rfl := Except.ok.inj (typed.symm.trans typed')
    rw [answers, answers']
    dsimp only
    split_ifs
    · exact .ok ⟨rfl, ⟨timer, cleared, rfl⟩, beside⟩
    · exact .ok ⟨rfl, ⟨timer, cleared, rfl⟩, beside⟩
    · exact .ok (analysisFile_retimed _ _ ⟨timer, cleared, rfl⟩ beside)

theorem analysisStage_retimed (retimed : Retimed s t) (beside : Beside p q k k') :
    Both (HandlerRetimed p q) (analysisStage s k) (analysisStage t k') := by
  have answered := analysisRequest_retimed retimed beside
  obtain ⟨timer, cleared, rfl⟩ := retimed
  unfold analysisStage
  dsimp only
  split_ifs
  · apply answered.bind
    rintro ⟨flag, u, ku⟩ ⟨_, v, kv⟩ ⟨rfl, ⟨timer, cleared, rfl⟩, beside⟩
    cases flag with
    | analysisSuccess => exact .ok ⟨⟨timer, cleared, rfl⟩, beside⟩
    | analysisError => exact .ok ⟨⟨timer, cleared, rfl⟩, beside⟩
  · exact .ok ⟨⟨timer, cleared, rfl⟩, beside⟩

theorem bodyStage_retimed (retimed : Retimed s t) (beside : Beside p q k k') :
    Both (HandlerRetimed p q) (bodyStage s k) (bodyStage t k') := by
  have analysed := analysisStage_retimed retimed beside
  obtain ⟨timer, cleared, rfl⟩ := retimed
  unfold bodyStage
  dsimp only
  split_ifs
  · cases s.headers (text "Content-length") with
    | none => exact .ok (badRequest_retimed _ ⟨timer, cleared, rfl⟩ beside)
    | some value =>
        apply (Both.same _).bind
        rintro contentLength _ rfl
        split_ifs
        · exact .ok ⟨⟨timer, cleared, rfl⟩, beside⟩
        · exact analysisStage_retimed ⟨timer, cleared, rfl⟩ beside
  · exact analysed

theorem headerStage_retimed (retimed : Retimed s t) (beside : Beside p q k k') :
    Both (HandlerRetimed p q) (headerStage s k) (headerStage t k') := by
  have parsed := parseHeaders_retimed retimed
  have received := bodyStage_retimed retimed beside
  obtain ⟨timer, cleared, rfl⟩ := retimed
  unfold headerStage
  dsimp only
  split_ifs
  · apply parsed.bind
    rintro ⟨flag, u⟩ ⟨_, v⟩ ⟨rfl, timer, cleared, rfl⟩
    cases flag with
    | parseHeaderAgain => exact .ok ⟨⟨timer, cleared, rfl⟩, beside⟩
    | parseHeaderError => exact .ok (badRequest_retimed _ ⟨timer, cleared, rfl⟩ beside)
    | parseHeaderSuccess =>
        dsimp only
        split_ifs
        · exact bodyStage_retimed ⟨timer, cleared, rfl⟩ beside
        · exact bodyStage_retimed ⟨timer, cleared, rfl⟩ beside
  · exact received

theorem uriStage_retimed (retimed : Retimed s t) (beside : Beside p q k k') :
    Both (HandlerRetimed p q) (uriStage s k) (uriStage t k') := by
  have parsed := parseURI_retimed retimed
  have later := headerStage_retimed retimed beside
  obtain ⟨timer, cleared, rfl⟩ := retimed
  unfold uriStage
  dsimp only
  split_ifs
  · apply parsed.bind
    rintro ⟨flag, u⟩ ⟨_, v⟩ ⟨rfl, timer, cleared, rfl⟩
    cases flag with
    | parseUriAgain => exact .ok ⟨⟨timer, cleared, rfl⟩, beside⟩
    | parseUriError => exact .ok (badRequest_retimed _ ⟨timer, cleared, rfl⟩ beside)
    | parseUriSuccess => exact headerStage_retimed ⟨timer, cleared, rfl⟩ beside
  · exact later

theorem receive_retimed (retimed : Retimed s t) (beside : Beside p q k k') :
    Both (HandlerRetimed p q) (receive s k) (receive t k') := by
  obtain ⟨timer, cleared, rfl⟩ := retimed
  unfold receive
  dsimp only
  rw [← beside.reads]
  have read : Beside p q { k with reads := (readN k.reads 0 s.inBuffer).rest }
      { k' with reads := (readN k.reads 0 s.inBuffer).rest } := { beside with reads := rfl }
  split_ifs
  · exact .ok ⟨⟨timer, cleared, rfl⟩, read⟩
  · exact .ok (badRequest_retimed _ ⟨timer, cleared, rfl⟩ read)
  · exact .ok ⟨⟨timer, cleared, rfl⟩, read⟩
  · exact uriStage_retimed ⟨timer, cleared, rfl⟩ read
  · exact uriStage_retimed ⟨timer, cleared, rfl⟩ read

theorem addEvents_retimed (flag : Mask) (retimed : Retimed s t) :
    Retimed (s.addEvents flag) (t.addEvents flag) := by
  obtain ⟨timer, cleared, rfl⟩ := retimed
  exact ⟨timer, cleared, rfl⟩

theorem Retimed.queued (retimed : Retimed s t) (left : s.outBuffer = t.outBuffer) :
    Retimed (if s.outBuffer.length > 0 then s.addEvents EPOLLOUT else s)
      (if t.outBuffer.length > 0 then t.addEvents EPOLLOUT else t) := by
  rw [← left]
  split_ifs
  · exact addEvents_retimed _ retimed
  · exact retimed

theorem reset_retimed (retimed : Retimed s t) : Retimed s.reset t.reset := by
  obtain ⟨timer, cleared, rfl⟩ := retimed
  exact ⟨none, cleared ++ timer.toList, rfl⟩

theorem handleWrite_retimed (retimed : Retimed s t) (beside : Beside p q k k') :
    HandlerRetimed p q (handleWrite s k) (handleWrite t k') := by
  obtain ⟨timer, cleared, rfl⟩ := retimed
  obtain ⟨sum, left, after⟩ := writeN_beside beside s.outBuffer
  unfold handleWrite
  dsimp only
  rw [← sum, ← left]
  generalize writeN k s.outBuffer = wrote at after ⊢
  generalize writeN k' s.outBuffer = wrote' at after ⊢
  by_cases running : (!s.error && decide (s.connectionState ≠ .hDisconnected)) = true
  · rw [if_pos running, if_pos running]
    refine ⟨?_, after⟩
    by_cases failed : wrote.1 < 0
    · rw [if_pos failed, if_pos failed]
      exact Retimed.queued ⟨timer, cleared, rfl⟩ rfl
    · rw [if_neg failed, if_neg failed]
      exact Retimed.queued ⟨timer, cleared, rfl⟩ rfl
  · rw [if_neg running, if_neg running]
    exact ⟨⟨timer, cleared, rfl⟩, beside⟩

theorem flush_retimed (retimed : Retimed s t) (beside : Beside p q k k') :
    HandlerRetimed p q (flush s k) (flush t k') := by
  have wrote := handleWrite_retimed retimed beside
  obtain ⟨timer, cleared, rfl⟩ := retimed
  unfold flush
  dsimp only
  split_ifs
  · exact wrote
  · exact ⟨⟨timer, cleared, rfl⟩, beside⟩

/-- What an invocation of `HandleRead` leaves behind is the same, up to the timer. -/
def TurnRetimed (p q : Bytes) (a b : Bool × HttpData × Kernel) : Prop :=
  a.1 = b.1 ∧ HandlerRetimed p q a.2 b.2

theorem settle_retimed (retimed : Retimed s t) (beside : Beside p q k k') :
    TurnRetimed p q (settle s k) (settle t k') := by
  obtain ⟨flushed, wrote⟩ := flush_retimed retimed beside
  obtain ⟨timer, cleared, rfl⟩ := retimed
  unfold settle
  dsimp only
  by_cases failed : s.error = true
  · rw [if_pos failed, if_pos failed]
    exact ⟨rfl, ⟨timer, cleared, rfl⟩, beside⟩
  · rw [if_neg failed, if_neg failed]
    generalize flush s k = a at flushed wrote ⊢
    generalize flush { s with timer, cleared } k' = b at flushed wrote ⊢
    obtain ⟨u, ku⟩ := a
    obtain ⟨v, kv⟩ := b
    obtain ⟨timer, cleared, rfl⟩ := flushed
    dsimp only
    split_ifs
    · exact ⟨rfl, reset_retimed ⟨timer, cleared, rfl⟩, wrote⟩
    · exact ⟨rfl, addEvents_retimed _ ⟨timer, cleared, rfl⟩, wrote⟩
    · exact ⟨rfl, ⟨timer, cleared, rfl⟩, wrote⟩

theorem handleReadTurn_retimed (retimed : Retimed s t) (beside : Beside p q k k') :
    Both (TurnRetimed p q) (handleReadTurn s k) (handleReadTurn t k') := by
  apply (receive_retimed retimed beside).map
  rintro a b ⟨retimed, beside⟩
  exact settle_retimed retimed beside

theorem handleReadTo_retimed {depth : Nat} (retimed : Retimed s t) (beside : Beside p q k k') :
    Both (HandlerRetimed p q) (handleReadTo depth s k) (handleReadTo depth t k') := by
  induction depth generalizing s t k k' with
  | zero => exact .ok ⟨retimed, beside⟩
  | succ depth ih =>
      apply (handleReadTurn_retimed retimed beside).bind
      rintro ⟨again, u, ku⟩ ⟨_, v, kv⟩ ⟨rfl, retimed, beside⟩
      cases again with
      | true => exact ih retimed beside
      | false => exact .ok ⟨retimed, beside⟩

theorem handleRead_retimed (retimed : Retimed s t) (beside : Beside p q k k') :
    Both (HandlerRetimed p q) (handleRead s k) (handleRead t k') := by
  have depth : depthBound t k' = depthBound s k := by
    obtain ⟨timer, cleared, rfl⟩ := retimed
    unfold depthBound Kernel.incoming
    rw [beside.reads]
  unfold handleRead
  rw [depth]
  exact handleReadTo_retimed retimed beside

theorem handleConn_retimed (retimed : Retimed s t) :
    Retimed s.handleConn.1 t.handleConn.1 ∧ s.handleConn.2 = t.handleConn.2 := by
  obtain ⟨timer, cleared, rfl⟩ := retimed
  unfold handleConn seperateTimer setEvents addEvents setEvents
  dsimp only
  split_ifs
  all_goals exact ⟨⟨none, cleared ++ timer.toList, rfl⟩, rfl⟩

/-- What a dispatch leaves behind is the same, up to the timer. -/
structure DispatchRetimed (p q : Bytes) (g h : Handling) : Prop where
  http : Retimed g.http h.http
  kernel : Beside p q g.kernel h.kernel
  request : g.request = h.request

/-- A dispatch does the same to connections that differ in their timers only. -/
theorem handleEvents_retimed (retimed : Retimed s t) (beside : Beside p q k k') :
    Both (DispatchRetimed p q) (handleEvents s k) (handleEvents t k') := by
  have reported : s.channel.revents = t.channel.revents := by
    obtain ⟨timer, cleared, rfl⟩ := retimed
    rfl
  have silenced : Retimed (s.setEvents 0#32) (t.setEvents 0#32) := by
    obtain ⟨timer, cleared, rfl⟩ := retimed
    exact ⟨timer, cleared, rfl⟩
  by_cases hangUp : HangUp s.channel.revents
  · rw [handleEvents_hangUp hangUp, handleEvents_hangUp (reported ▸ hangUp)]
    exact .ok ⟨silenced, beside, rfl⟩
  · rw [handleEvents_eq hangUp, handleEvents_eq (reported ▸ hangUp), ← reported]
    have read : Both (HandlerRetimed p q) (readPart s.channel.revents (s.setEvents 0#32) k)
        (readPart s.channel.revents (t.setEvents 0#32) k') := by
      unfold readPart
      split_ifs
      · exact handleRead_retimed silenced beside
      · exact .ok ⟨silenced, beside⟩
    apply read.map
    rintro ⟨u, ku⟩ ⟨v, kv⟩ ⟨retimed, beside⟩
    have wrote : HandlerRetimed p q (writePart s.channel.revents u ku)
        (writePart s.channel.revents v kv) := by
      unfold writePart
      split_ifs
      · exact handleWrite_retimed retimed beside
      · exact ⟨retimed, beside⟩
    obtain ⟨same, request⟩ := handleConn_retimed wrote.1
    exact ⟨same, wrote.2, request⟩

end HttpData

end WebServer
