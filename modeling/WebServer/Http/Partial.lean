import WebServer.Http.Answer
import WebServer.Http.Turns

/-! # Calls of `HandleRead` that find a part of a request

A call that runs out of bytes between two header lines is taken up by the next one. A call that runs
out of bytes inside a line leaves the automaton there without its indices, and no later call gets out.
-/

namespace WebServer

open Lib

/-- Successive `HandleRead` calls that find one chunk each. No call follows once `error_` is set,
    since `HandleConn` closes the connection. -/
def deliver (files : Bytes → FileView) : HttpData → Bytes → List Bytes →
    Except Fault (HttpData × Bytes)
  | s, sent, [] => .ok (s, sent)
  | s, sent, chunk :: chunks =>
      if s.error then .ok (s, sent)
      else do
        let (s, k) ← s.handleRead (steady files (HttpData.arriving chunk) [] sent)
        deliver files s k.sent chunks

/-- What can be seen of the connection: its output, `error_`, `state_` and `keep_alive_`. -/
def observed (result : HttpData × Bytes) : Answer where
  sent := result.2
  error := result.1.error
  state := result.1.state
  keepAlive := result.1.keepAlive

/-- What a fresh connection comes to when these chunks arrive. -/
def outcome (fd : Nat) (files : Bytes → FileView) (chunks : List Bytes) : Except Fault Answer :=
  (deliver files (HttpData.new fd) [] chunks).map observed

namespace HttpData

variable {files : Bytes → FileView} {looked : List Bytes} {sent : Bytes} {s t : HttpData}

/-- `HandleRead` from `ParseHeaders` on. -/
def resume (s : HttpData) (k : Kernel) : Outcome :=
  ((headerStage s k).map fun (s, k) => settle s k).bind fun (again, s, k) =>
    if again then handleRead s k else .ok (s, k)

theorem handleRead_parsing (connected : s.connectionState = .hConnected)
    (parsing : s.state = .stateParseHeaders) {chunk : Bytes}
    (counted : 0 ≤ (chunk.length : Int).bmod (2 ^ 32)) :
    handleRead s (steady files (arriving chunk) looked sent) =
      resume { s with inBuffer := s.inBuffer ++ chunk } (steady files [] looked sent) := by
  have past : ¬ s.state = .stateParseUri := by simp [parsing]
  rw [handleRead_eq, handleReadTurn_arriving connected counted]
  unfold uriStage
  rw [if_neg past]
  rfl

theorem handleRead_wrapped (files : Bytes → FileView) (looked : List Bytes) (sent : Bytes)
    (connected : s.connectionState = .hConnected) {chunk : Bytes}
    (wrapped : (chunk.length : Int).bmod (2 ^ 32) < 0) :
    ∃ s' k', handleRead s (steady files (arriving chunk) looked sent) = .ok (s', k') ∧
      s'.error = true ∧ s'.state = s.state := by
  have received : receive s (steady files (arriving chunk) looked sent) =
      .ok (badRequest (text "Bad Request") { s with inBuffer := s.inBuffer ++ chunk }
        (steady files [] looked sent)) := by
    unfold receive ReadOutcome.readNum
    simp only [steady, readN_arriving, connected, reduceCtorEq, if_false, wrapped, if_true]
  rw [handleRead_eq, handleReadTurn, received]
  simp only [Except.map, settle_error (s := (badRequest (text "Bad Request")
    { s with inBuffer := s.inBuffer ++ chunk } (steady files [] looked sent)).1) rfl]
  exact ⟨_, _, rfl, rfl, rfl⟩

theorem handleRead_line (vacant : Vacant s) {line rest chunk : Bytes}
    (buffered : s.inBuffer ++ chunk = line ++ CR :: rest) (first : CR ∉ line)
    (small : (s.inBuffer ++ chunk).length < 2 ^ 63)
    (counted : 0 ≤ (chunk.length : Int).bmod (2 ^ 32)) {r : RequestLine}
    (decoded : decodeLine line = some r) :
    handleRead s (steady files (arriving chunk) looked sent) =
      resume (s.atLine r rest) (steady files [] looked sent) := by
  have vacant' := vacant.arrived (s.inBuffer ++ chunk)
  rw [handleRead_eq, handleReadTurn_arriving vacant.connectionState counted,
    uriStage_line vacant' buffered first small decoded]
  rfl

theorem handleRead_lineOnly (vacant : Vacant s) {chunk : Bytes}
    (missing : CR ∉ s.inBuffer ++ chunk) (small : (s.inBuffer ++ chunk).length < 2 ^ 63)
    (counted : 0 ≤ (chunk.length : Int).bmod (2 ^ 32)) {r : RequestLine} (decoded : decodeLine (s.inBuffer ++ chunk) = some r) :
    handleRead s (steady files (arriving chunk) looked sent) =
      resume (s.atLine r (s.inBuffer ++ chunk)) (steady files [] looked sent) := by
  rw [handleRead_eq, handleReadTurn_arriving vacant.connectionState counted]
  unfold uriStage
  rw [if_pos vacant.state, parseURI_no_line (s := { s with inBuffer := s.inBuffer ++ chunk }) small
    missing, parseRequestLine_some small decoded]
  rfl

theorem resume_again (parsing : s.state = .stateParseHeaders)
    (parsed : parseHeaders s = .ok (.parseHeaderAgain, t)) (ready : Ready t)
    (still : t.state = .stateParseHeaders) :
    resume s (steady files [] looked sent) =
      .ok (t.addEvents EPOLLIN, steady files [] looked sent) := by
  have unfinished : t.state ≠ .stateFinish := by simp [still]
  unfold resume
  rw [headerStage_waits parsed parsing]
  simp only [Except.map, Except.bind, settle_wait ready unfinished]
  rfl

theorem resume_reject {k : Kernel} (parsing : s.state = .stateParseHeaders)
    (parsed : parseHeaders s = .ok (.parseHeaderError, t)) (still : t.state = .stateParseHeaders) :
    ∃ s' k', resume s k = .ok (s', k') ∧ s'.error = true ∧ s'.state = .stateParseHeaders := by
  refine ⟨(badRequest (text "Bad Request") t k).1, (badRequest (text "Bad Request") t k).2, ?_, rfl,
    still⟩
  unfold resume
  rw [headerStage_rejects parsed parsing]
  simp only [Except.map, Except.bind]
  rw [settle_error rfl]
  rfl

theorem resume_fault {k : Kernel} {e : Fault} (parsing : s.state = .stateParseHeaders)
    (parsed : parseHeaders s = .error e) : resume s k = .error e := by
  unfold resume headerStage
  rw [if_pos parsing, parsed]
  rfl

/-- A slice of `ParseHeaders` that goes wrong. -/
def SliceFault (e : Fault) : Prop := e = .outOfBounds ∨ e = .thrown .lengthError

theorem slice_fault {str : Bytes} {first last : Int} {e : Fault}
    (failed : slice str first last = .error e) : SliceFault e := by
  unfold slice at failed
  split_ifs at failed
  · cases failed
    exact .inr rfl
  · cases failed
    exact .inl rfl

theorem headerStep_sliceFault {str : Bytes} {i : Nat} {c : UInt8} {l : HeaderLoop} {e : Fault}
    (failed : headerStep str i c l = .error e) : SliceFault e := by
  unfold headerStep at failed
  cases state : l.hState with
  | hCr =>
      simp only [state] at failed
      split_ifs at failed
      · cases key : slice str l.keyStart l.keyEnd with
        | error e' =>
            simp only [key, bind, Except.bind] at failed
            cases failed
            exact slice_fault key
        | ok name =>
            cases value : slice str l.valueStart l.valueEnd with
            | error e' =>
                simp only [key, value, bind, Except.bind] at failed
                cases failed
                exact slice_fault value
            | ok content =>
                simp only [key, value, bind, Except.bind] at failed
                cases failed
  | hStart | hKey | hColon | hSpacesAfterColon | hValue | hLf | hEndCr | hEndLf =>
      simp only [state] at failed
      try split_ifs at failed
      all_goals cases failed

theorem headerLoop_sliceFault {str : Bytes} {i : Nat} {rest : Bytes} {l : HeaderLoop} {e : Fault}
    (failed : headerLoop str i rest l = .error e) : SliceFault e := by
  induction rest generalizing i l with
  | nil => cases failed
  | cons c rest ih =>
      rw [headerLoop] at failed
      split_ifs at failed
      · cases step : headerStep str i c l with
        | error e' =>
            simp only [step, bind, Except.bind] at failed
            cases failed
            exact headerStep_sliceFault step
        | ok next =>
            simp only [step, bind, Except.bind] at failed
            cases next with
            | next l' => exact ih failed
            | reject l' => cases failed

/-- The connection waits for bytes with the automaton inside a line. -/
structure Stuck (s : HttpData) : Prop extends Ready s where
  state : s.state = .stateParseHeaders
  mid : MidLine s.hState

/-- A call ends so that no later call finishes the headers. -/
inductive Strays : Outcome → Prop where
  | fault {e} : SliceFault e → Strays (.error e)
  | failed {s k} : s.error = true → s.state = .stateParseHeaders → Strays (.ok (s, k))
  | stuck {s k} : Stuck s → Strays (.ok (s, k))

/-- A call of `ParseHeaders` that does not leave a line strays. -/
theorem resume_strays (ready : Ready s) (parsing : s.state = .stateParseHeaders) {l : HeaderLoop}
    (inside : StaysInside l (headerLoop s.inBuffer 0 s.inBuffer
      { hState := s.hState, headers := s.headers }))
    (returns : ∀ e, parseHeaders s = .error e → SliceFault e) :
    Strays (resume s (steady files [] looked sent)) := by
  cases parsed : parseHeaders s with
  | error e =>
      rw [resume_fault parsing parsed]
      exact .fault (returns e parsed)
  | ok result =>
      obtain ⟨flag, t⟩ := result
      have scanned := parsed
      unfold parseHeaders at scanned
      generalize headerLoop s.inBuffer 0 s.inBuffer { hState := s.hState, headers := s.headers } =
        scan at inside scanned
      cases inside with
      | fault => cases scanned
      | rejected =>
          cases scanned
          obtain ⟨s', k', ran, error, state⟩ :=
            resume_reject (k := steady files [] looked sent) parsing parsed parsing
          rw [ran]
          exact .failed error state
      | @done i l' same =>
          simp only [bind, Except.bind, if_neg same.mid.unfinished] at scanned
          split at scanned
          · cases scanned
          · cases scanned
            rw [resume_again parsing parsed { ready with } parsing]
            exact .stuck ⟨{ ready with }, parsing, same.mid⟩

/-- A resumed call only fails in the slices at the end of a line. -/
theorem parseHeaders_sliceFault (mid : MidLine s.hState) {e : Fault}
    (failed : parseHeaders s = .error e) : SliceFault e := by
  have inside := headerLoop_resumed s.inBuffer 0 s.inBuffer
    (l := { hState := s.hState, headers := s.headers }) mid (by simp) rfl
  cases scanned : headerLoop s.inBuffer 0 s.inBuffer { hState := s.hState, headers := s.headers } with
  | error e' =>
      rw [parseHeaders_error scanned] at failed
      cases failed
      exact headerLoop_sliceFault scanned
  | ok scan =>
      rw [scanned] at inside
      cases inside with
      | rejected =>
          rw [parseHeaders_rejected scanned] at failed
          cases failed
      | @done i l' same =>
          have zero : sizeT l'.nowReadLineBegin = 0 := by
            rw [same.nowReadLineBegin]
            rfl
          rw [parseHeaders_again scanned same.mid.unfinished (by rw [zero, substr_zero])] at failed
          cases failed

/-- The connection will not give the answer to its request. -/
def Lost : Except Fault Answer → Prop
  | .error e => SliceFault e
  | .ok a => a.state = .stateParseHeaders ∨ a.error = true ∧ a.state = .stateParseUri

theorem deliver_cons (files : Bytes → FileView) (sent : Bytes) (fine : s.error = false)
    (chunk : Bytes) (chunks : List Bytes) :
    deliver files s sent (chunk :: chunks) =
      (handleRead s (steady files (arriving chunk) [] sent)).bind fun (s, k) =>
        deliver files s k.sent chunks := by
  have open_ : ¬ s.error = true := by simp [fine]
  rw [deliver, if_neg open_]
  rfl

theorem deliver_error (failed : s.error = true) (chunks : List Bytes) :
    deliver files s sent chunks = .ok (s, sent) := by
  cases chunks with
  | nil => rfl
  | cons chunk chunks => rw [deliver, if_pos failed]

theorem stuck_lost (stuck : Stuck s) (chunks : List Bytes) :
    Lost ((deliver files s sent chunks).map observed) := by
  induction chunks generalizing s sent with
  | nil => exact .inl stuck.state
  | cons chunk chunks ih =>
      rw [deliver_cons files sent stuck.error]
      rcases lt_or_ge ((chunk.length : Int).bmod (2 ^ 32)) 0 with wrapped | counted
      · obtain ⟨s', k', ran, error, state⟩ := handleRead_wrapped files [] sent
          stuck.connectionState wrapped
        rw [ran]
        simp only [Except.bind, deliver_error error]
        exact .inl (state.trans stuck.state)
      rw [handleRead_parsing stuck.connectionState stuck.state counted]
      have strays : Strays (resume { s with inBuffer := s.inBuffer ++ chunk }
          (steady files [] [] sent)) := by
        refine resume_strays (l := { hState := s.hState, headers := s.headers })
          { stuck.toReady with } stuck.state ?_ ?_
        · exact headerLoop_resumed _ 0 _ stuck.mid (by simp) rfl
        · intro e failed
          exact parseHeaders_sliceFault (s := { s with inBuffer := s.inBuffer ++ chunk }) stuck.mid
            failed
      generalize resume { s with inBuffer := s.inBuffer ++ chunk } (steady files [] [] sent) = o
        at strays ⊢
      cases strays with
      | fault bad => exact bad
      | failed error state =>
          simp only [Except.bind, deliver_error error]
          exact .inl state
      | stuck later => exact ih later

theorem strays_lost {o : Outcome} (strays : Strays o) (chunks : List Bytes) :
    Lost ((o.bind fun (s, k) => deliver files s k.sent chunks).map observed) := by
  cases strays with
  | fault bad => exact bad
  | failed error state =>
      simp only [Except.bind, deliver_error error]
      exact .inl state
  | stuck stuck => exact stuck_lost stuck chunks

/-- The connection has read the request line and is at its headers. -/
structure AtHeaders (q : RequestLine) (s : HttpData) : Prop extends Ready s where
  state : s.state = .stateParseHeaders
  keepAlive : s.keepAlive = false
  asked : s.asked = q

variable {q : RequestLine} {f : Field} {fields : List Field}

theorem AtHeaders.afterLines (atHeaders : AtHeaders q s) (f : Field) (fields : List Field)
    (hState : ParseState) (inBuffer : Bytes) :
    AtHeaders q (afterLines s f fields hState inBuffer) :=
  ⟨⟨atHeaders.error, atHeaders.connectionState, atHeaders.outBuffer, atHeaders.nowReadPos⟩,
    atHeaders.state, atHeaders.keepAlive, atHeaders.asked⟩

theorem resume_lines (atHeaders : AtHeaders q s) (between : s.hState = .hStart ∨ s.hState = .hLf)
    (buffered : s.inBuffer = LF :: (f :: fields).flatMap Field.bytes)
    (short : s.inBuffer.length < 2 ^ 31) :
    resume s (steady files [] looked sent) = .ok
      ((afterLines s f fields .hLf [LF]).addEvents EPOLLIN, steady files [] looked sent) :=
  resume_again atHeaders.state (parseHeaders_lines between buffered short)
    (atHeaders.afterLines f fields .hLf [LF]).toReady atHeaders.state

theorem resume_blankCr (atHeaders : AtHeaders q s) (between : s.hState = .hStart ∨ s.hState = .hLf)
    (buffered : s.inBuffer = LF :: ((f :: fields).flatMap Field.bytes ++ [CR]))
    (short : s.inBuffer.length < 2 ^ 31) :
    resume s (steady files [] looked sent) = .ok
      ((afterLines s f fields .hEndCr [LF, CR]).addEvents EPOLLIN, steady files [] looked sent) :=
  resume_again atHeaders.state (parseHeaders_blankCr between buffered short)
    (atHeaders.afterLines f fields .hEndCr [LF, CR]).toReady atHeaders.state

theorem resume_lineEnd (atHeaders : AtHeaders q s) (start : s.hState = .hStart)
    (buffered : s.inBuffer = [] ∨ s.inBuffer = [LF]) :
    resume s (steady files [] looked sent) =
      .ok (s.addEvents EPOLLIN, steady files [] looked sent) := by
  refine resume_again atHeaders.state ?_ atHeaders.toReady atHeaders.state
  have scanned : headerLoop s.inBuffer 0 s.inBuffer { hState := s.hState, headers := s.headers } =
      .ok (.done s.inBuffer.length { hState := s.hState, headers := s.headers }) := by
    rcases buffered with empty | lf
    · rw [empty]
      rfl
    · rw [lf, start]
      rfl
  have whole : substr s.inBuffer (sizeT 0) npos = .ok s.inBuffer := by
    rcases buffered with empty | lf
    · rw [empty]
      rfl
    · rw [lf]
      rfl
  exact parseHeaders_again scanned (by simp [start]) whole

theorem parseHeaders_complete (between : s.hState = .hStart ∨ s.hState = .hLf)
    (buffered : s.inBuffer = LF :: headerSection (f :: fields)) (short : s.inBuffer.length < 2 ^ 31) :
    parseHeaders s = .ok (.parseHeaderSuccess, afterLines s f fields .hEndLf []) := by
  rw [buffered] at short
  unfold headerSection at buffered short
  rw [List.length_cons, List.length_append] at short
  exact parseHeaders_section between buffered (by omega) (by
    rw [buffered, List.length_cons, List.length_append]
    omega)

/-- The last byte came alone. The bytes kept before it are taken for the end of the section, so it
    stays behind itself. -/
theorem parseHeaders_lastByte (state : s.hState = .hEndCr) (buffered : s.inBuffer = [LF, CR, LF]) :
    parseHeaders s = .ok (.parseHeaderSuccess, { s with hState := .hEndLf, inBuffer := [LF] }) := by
  unfold parseHeaders
  rw [buffered, state]
  rfl

/-- A byte that is left behind a served request is taken for another one. -/
def withLeft (left : Bytes) (a : Answer) : Answer :=
  if a.GoesOn ∧ left ≠ [] then
    { a with sent := a.sent ++ errorBytes 400 (text "Bad Request"), error := true }
  else a

theorem handleRead_noLine (files : Bytes → FileView) (looked : List Bytes) (sent : Bytes)
    (vacant : Vacant s) {chunk : Bytes} (counted : 0 ≤ (chunk.length : Int).bmod (2 ^ 32))
    (refused : decodeLine (s.inBuffer ++ chunk) = none) (missing : CR ∉ s.inBuffer ++ chunk)
    (small : (s.inBuffer ++ chunk).length < 2 ^ 63) :
    ∃ s', handleRead s (steady files (arriving chunk) looked sent) =
        .ok (s', steady files [] looked (sent ++ errorBytes 400 (text "Bad Request"))) ∧
      s'.error = true ∧ s'.state = .stateParseUri ∧ s'.keepAlive = s.keepAlive := by
  have vacant' := vacant.arrived (s.inBuffer ++ chunk)
  have parsed := parseURI_no_line (s := { s with inBuffer := s.inBuffer ++ chunk }) small missing
  obtain ⟨s', ran, kept⟩ := uriStage_badLine files [] looked sent vacant' parsed ⟨_, rfl⟩ small
    refused
  refine ⟨s', ?_, kept⟩
  rw [handleRead_eq, handleReadTurn_arriving vacant.connectionState counted, ran]
  rfl

theorem observed_answered (sent : Bytes) {a : Answer} {left : Bytes} {again : Bool}
    (answered : Answered a false left again s) : observed (s, sent) = { a with sent } := by
  unfold observed
  simp only [answered.error, answered.state, answered.keepAlive, Bool.false_or]

/-- How `HandleRead` ends in the call that completes the header section. -/
theorem resume_success (parsed : parseHeaders s = .ok (.parseHeaderSuccess, t))
    (parsing : s.state = .stateParseHeaders) (atHeaders : AtHeaders q t)
    (left : t.inBuffer = [] ∨ t.inBuffer = [LF]) :
    (resume s (steady files [] looked [])).map (fun (s, k) => observed (s, k.sent)) =
      (answer files q t.headers t.inBuffer).map (withLeft t.inBuffer) := by
  obtain rfl := atHeaders.asked
  have staged : ((headerStage s (steady files [] looked [])).map fun (s, k) => settle s k) =
      concluded { t with state := afterHeaders t.method } (steady files [] looked []) := by
    rw [headerStage_success parsed parsing]
    rfl
  unfold resume
  rw [staged]
  cases answers : answer files t.asked t.headers t.inBuffer with
  | error e =>
      rw [concluded_fault (s := { t with state := afterHeaders t.method }) rfl answers]
      rfl
  | ok a =>
      obtain ⟨again, s', looked', ran, answered⟩ := steady_concluded files [] looked []
        (s := { t with state := afterHeaders t.method })
        ⟨atHeaders.error, atHeaders.connectionState, atHeaders.outBuffer, atHeaders.nowReadPos⟩ rfl
        answers
      rw [ran]
      cases again with
      | false =>
          have ends : ¬ (a.GoesOn ∧ t.inBuffer ≠ []) := fun goes => by
            simpa using answered.again.mpr goes
          have seen := observed_answered a.sent (atHeaders.keepAlive ▸ answered)
          apply congrArg Except.ok
          unfold withLeft
          rw [if_neg ends]
          exact seen
      | true =>
          obtain ⟨goes, some_left⟩ := answered.again.mp rfl
          obtain ⟨vacant, buffered⟩ := answered.next goes
          have no_bytes : 0 ≤ (([] : Bytes).length : Int).bmod (2 ^ 32) := by decide
          have lf : s'.inBuffer ++ [] = [LF] := by
            rw [List.append_nil, buffered]
            exact left.resolve_left some_left
          obtain ⟨s'', rejected, error, state, keepAlive⟩ := handleRead_noLine files looked' a.sent
            vacant no_bytes (by rw [lf]; decide) (by rw [lf]; decide) (by rw [lf]; decide)
          have kept : s''.keepAlive = a.keepAlive := by
            rw [keepAlive, answered.keepAlive, atHeaders.keepAlive, Bool.false_or]
          have called : handleRead s' (steady files [] looked' ([] ++ a.sent)) = _ := rejected
          have extra : withLeft t.inBuffer a =
              { a with sent := a.sent ++ errorBytes 400 (text "Bad Request"), error := true } :=
            if_pos ⟨goes, some_left⟩
          simp only [Except.bind, if_true, called, Except.map, extra]
          unfold observed
          simp only [error, state, kept, goes.2, steady]

theorem parseHeaders_returns (between : s.hState = .hStart ∨ s.hState = .hLf)
    (short : s.inBuffer.length < 2 ^ 31) {e : Fault} : parseHeaders s ≠ .error e := by
  intro failed
  obtain ⟨mid, -⟩ := (parseHeaders_fault_iff short).mp ⟨e, failed⟩
  rcases between with start | resumed
  · rw [start] at mid
    exact mid
  · rw [resumed] at mid
    exact mid

theorem resume_noLf (atHeaders : AtHeaders q s) (between : s.hState = .hStart ∨ s.hState = .hLf)
    (short : s.inBuffer.length < 2 ^ 31) {i : Nat} {rest : Bytes} {l : HeaderLoop}
    (scanned : headerLoop s.inBuffer 0 s.inBuffer { hState := s.hState, headers := s.headers } =
      headerLoop s.inBuffer i rest l) (mid : MidLine l.hState) (running : l.notFinished = true)
    (no_lf : LF ∉ rest) : Strays (resume s (steady files [] looked sent)) := by
  apply resume_strays atHeaders.toReady atHeaders.state (l := l)
  · rw [scanned]
    exact headerLoop_no_lf mid running no_lf
  · intro e failed
    exact absurd failed (parseHeaders_returns between short)

/-- A call that ends inside a header line strays. -/
theorem resume_midLine (atHeaders : AtHeaders q s)
    (between : s.hState = .hStart ∨ s.hState = .hLf) {done : List Field} {g : Field} {x y : Bytes}
    (parts : g.bytes = x ++ y) (begun : x ≠ []) (more : y ≠ [])
    (buffered : s.inBuffer = LF :: (done.flatMap Field.bytes ++ x))
    (short : s.inBuffer.length < 2 ^ 31) : Strays (resume s (steady files [] looked sent)) := by
  have no_lf := Field.part_no_lf parts more
  obtain ⟨c, x', rfl, not_lf, not_cr⟩ := Field.part_first parts begun
  rw [List.mem_cons, not_or] at no_lf
  have length := short
  rw [buffered, List.length_cons, List.length_append, List.length_cons] at length
  cases done with
  | cons f fields =>
      obtain ⟨l, scanned, lineDone⟩ := headerLoop_lines
        (l := { hState := s.hState, headers := s.headers }) buffered between rfl (by omega)
      obtain ⟨l', first, mid, -, -, same⟩ := headerStep_firstByte s.inBuffer (c := c)
        (i := ((f :: fields).flatMap Field.bytes).length + 1) ⟨not_cr, .inl lineDone.hState⟩ (by omega)
      refine resume_noLf atHeaders between short
        (scanned.trans (headerLoop_next first lineDone.notFinished)) ?_
        (same.trans lineDone.notFinished) no_lf.2
      rw [mid]
      trivial
  | nil =>
      have spelled : headerLoop s.inBuffer 0 s.inBuffer { hState := s.hState, headers := s.headers } =
          headerLoop s.inBuffer 0 (LF :: c :: x') { hState := s.hState, headers := s.headers } :=
        congrArg (headerLoop s.inBuffer 0 · _) buffered
      rcases between with start | resumed
      · have skip : headerStep s.inBuffer 0 LF { hState := s.hState, headers := s.headers } =
            .ok (.next { hState := s.hState, headers := s.headers }) := by
          unfold headerStep
          simp only [start, true_or, if_true]
        obtain ⟨l', first, mid, -, -, same⟩ := headerStep_firstByte s.inBuffer (c := c) (i := 1)
          (l := { hState := s.hState, headers := s.headers }) ⟨not_cr, .inr ⟨start, not_lf⟩⟩
          (by omega)
        refine resume_noLf atHeaders (.inl start) short
          (spelled.trans ((headerLoop_next skip rfl).trans (headerLoop_next first rfl))) ?_ same
          no_lf.2
        rw [mid]
        trivial
      · have lf_not_cr : LF ≠ CR := by decide
        obtain ⟨l', first, mid, -, -, same⟩ := headerStep_firstByte s.inBuffer (c := LF) (i := 0)
          (l := { hState := s.hState, headers := s.headers }) ⟨lf_not_cr, .inl resumed⟩ (by omega)
        refine resume_noLf atHeaders (.inr resumed) short
          (spelled.trans (headerLoop_next first rfl)) ?_ same ?_
        · rw [mid]
          trivial
        · rw [List.mem_cons, not_or]
          exact no_lf

theorem resume_blankLine (atHeaders : AtHeaders q s) (resumed : s.hState = .hLf) {rest : Bytes}
    (buffered : s.inBuffer = LF :: CR :: rest) : Strays (resume s (steady files [] looked sent)) := by
  have refused : ∃ l, headerLoop s.inBuffer 0 s.inBuffer { hState := s.hState, headers := s.headers } =
      .ok (.rejected l) := by
    rw [buffered, resumed]
    exact ⟨_, rfl⟩
  obtain ⟨l, scanned⟩ := refused
  apply resume_strays atHeaders.toReady atHeaders.state (l := l)
  · rw [scanned]
    exact .rejected
  · intro e failed
    rw [parseHeaders_rejected scanned] at failed
    cases failed

/-- A request line without its `\r` is left buffered, and taken for a header line. -/
theorem resume_lineOnly (atHeaders : AtHeaders q s) (start : s.hState = .hStart) {c : UInt8}
    {cs : Bytes} (buffered : s.inBuffer = c :: cs) (not_lf : c ≠ LF) (no_cr : CR ∉ s.inBuffer)
    (short : s.inBuffer.length < 2 ^ 31) : Strays (resume s (steady files [] looked sent)) := by
  rw [buffered, List.mem_cons, not_or] at no_cr
  obtain ⟨l, first, mid, -, -, same⟩ := headerStep_firstByte s.inBuffer (c := c) (i := 0)
    (l := { hState := s.hState, headers := s.headers }) ⟨Ne.symm no_cr.1, .inr ⟨start, not_lf⟩⟩
    (by omega)
  have scanned : headerLoop s.inBuffer 0 s.inBuffer { hState := s.hState, headers := s.headers } =
      headerLoop s.inBuffer 1 cs l := by
    rw [← headerLoop_next first rfl]
    exact congrArg (headerLoop s.inBuffer 0 · _) buffered
  apply resume_strays atHeaders.toReady atHeaders.state (l := l)
  · rw [scanned]
    refine headerLoop_no_cr ?_ ?_ same no_cr.2
    · rw [mid]
      trivial
    · rw [mid]
      simp
  · intro e failed
    exact absurd failed (parseHeaders_returns (.inl start) short)

end HttpData

end WebServer
