import WebServer.Http.HeaderCodec
import WebServer.Http.HeaderLine
import WebServer.Http.Reaction
import WebServer.Http.Resumption

/-! # Header lines that nobody asks for

Only two keys are looked up. Another header line changes nothing that is sent as long as there is a
header line at all and its value fits: without any, the blank line is skipped as a line break before the
first key, and the request is never answered; and a value that does not fit makes the request a bad one.
-/

namespace WebServer

open Lib

/-- The two header maps have the same values where they are looked up. -/
structure Agree (h h' : HeaderMap) : Prop where
  connection : h (text "Connection") = h' (text "Connection")
  contentLength : h (text "Content-length") = h' (text "Content-length")

theorem Agree.keepAlive {h h' : HeaderMap} (agree : Agree h h') :
    HttpData.keepAliveRequested h' = HttpData.keepAliveRequested h := by
  unfold HttpData.keepAliveRequested
  rw [agree.connection]

theorem store_congr {h h' : HeaderMap} {key : Bytes} (same : h key = h' key)
    (lines : List HeaderLine) :
    lines.foldl HeaderLine.store h key = lines.foldl HeaderLine.store h' key := by
  induction lines generalizing h h' with
  | nil => exact same
  | cons l lines ih =>
      apply ih
      unfold HeaderLine.store
      by_cases here : key = l.name
      · rw [here, Function.update_self, Function.update_self]
      · rw [Function.update_of_ne here, Function.update_of_ne here]
        exact same

theorem headersOf_insert {l : HeaderLine} {key : Bytes} (other : l.name ≠ key)
    (front back : List HeaderLine) :
    headersOf (front ++ back) key = headersOf (front ++ l :: back) key := by
  unfold headersOf
  rw [List.foldl_append, List.foldl_append, List.foldl_cons]
  exact store_congr (Function.update_of_ne other.symm _ _).symm back

theorem agree_insert {l : HeaderLine}
    (other : l.name ≠ text "Connection" ∧ l.name ≠ text "Content-length")
    (front back : List HeaderLine) : Agree (headersOf (front ++ back)) (headersOf (front ++ l :: back)) :=
  ⟨headersOf_insert other.1 front back, headersOf_insert other.2 front back⟩

namespace HttpData

variable {s : HttpData} {k : Kernel} {h : HeaderMap}

theorem analysisFile_headers (header fileType : Bytes) (s : HttpData) (k : Kernel) (h : HeaderMap) :
    analysisFile header fileType { s with headers := h } k =
      ((analysisFile header fileType s k).1, withHeaders h (analysisFile header fileType s k).2) := by
  unfold analysisFile
  dsimp only
  split
  · rfl
  · split_ifs
    · rfl
    · split <;> rfl

theorem analysisRequest_headers (keep : keepAliveRequested h = keepAliveRequested s.headers)
    (k : Kernel) :
    analysisRequest { s with headers := h } k =
      (analysisRequest s k).map fun result => (result.1, withHeaders h result.2) := by
  by_cases post : s.method = .methodPost
  · rw [analysisRequest_post post, analysisRequest_post (s := { s with headers := h }) post]
    rfl
  · obtain ⟨fileType, typed, answered⟩ := analysisRequest_eq post
    obtain ⟨fileType', typed', answered'⟩ := analysisRequest_eq (s := { s with headers := h }) post
    cases typed.symm.trans typed'
    rw [answered, answered']
    dsimp only
    rw [keep]
    split_ifs
    · rfl
    · rfl
    · exact congrArg Except.ok (analysisFile_headers _ _
        { s with keepAlive := s.keepAlive || keepAliveRequested s.headers } _ h)

theorem analysisStage_headers (keep : keepAliveRequested h = keepAliveRequested s.headers)
    (k : Kernel) :
    analysisStage { s with headers := h } k = (analysisStage s k).map (withHeaders h) := by
  unfold analysisStage
  dsimp only
  split_ifs
  · rw [analysisRequest_headers keep]
    cases analysisRequest s k with
    | error e => rfl
    | ok result =>
        obtain ⟨flag, t, kt⟩ := result
        cases flag <;> rfl
  · rfl

theorem bodyStage_headers (agree : Agree s.headers h) (k : Kernel) :
    bodyStage { s with headers := h } k = (bodyStage s k).map (withHeaders h) := by
  unfold bodyStage
  dsimp only
  rw [← agree.contentLength]
  split_ifs
  · cases s.headers (text "Content-length") with
    | none => rfl
    | some value =>
        cases number : stoi value with
        | error e => simp only [number, bind, Except.bind, Except.map]
        | ok n =>
            simp only [number, bind, Except.bind]
            split_ifs
            · rfl
            · exact analysisStage_headers (s := { s with state := .stateAnalysis }) agree.keepAlive k
  · exact analysisStage_headers agree.keepAlive k

variable {fd : Nat} {line body : Bytes} {q : RequestLine} {lines : List HeaderLine}

/-- A fresh connection once the headers are read. -/
def readWith (fd : Nat) (q : RequestLine) (body : Bytes) (h : HeaderMap) : HttpData :=
  { (HttpData.new fd).atLine q body.tail with
    hState := .hEndLf, state := afterHeaders q.method, headers := h }

theorem readWith_ready (fd : Nat) (q : RequestLine) (body : Bytes) (h : HeaderMap) :
    Ready (readWith fd q body h) := ⟨rfl, rfl, rfl, rfl⟩

theorem requestBytes_parts (line : Bytes) (lines : List HeaderLine) (body : Bytes) :
    (requestBytes line lines body).length =
      line.length + (headerPart lines).length + body.length + 2 := by
  unfold requestBytes
  simp only [List.length_append, List.length_cons]
  omega

theorem uriStage_lines (fd : Nat) (first : CR ∉ line) (some_line : lines ≠ [])
    (fit : ∀ l ∈ lines, l.Fits) (small : (requestBytes line lines body).length < 2 ^ 31)
    (request : lineRequest line = some q) (k : Kernel) :
    uriStage { HttpData.new fd with inBuffer := requestBytes line lines body } k =
      bodyStage (readWith fd q body (headersOf lines)) k := by
  obtain ⟨fields, rfl⟩ := exists_fields fit
  have size := requestBytes_parts line (fields.map Field.toLine) body
  have sized : (requestBytes line (fields.map Field.toLine) body).length < 2 ^ 63 := by omega
  have decoded : decodeLine line = some q := (decodeLine_request (by omega)).trans request
  unfold requestBytes at sized ⊢
  rw [headerPart_map] at size sized ⊢
  rw [headersOf_map]
  have some_field : fields ≠ [] := fun none => some_line (none ▸ rfl)
  obtain ⟨g, gs, rfl⟩ := List.exists_cons_of_ne_nil some_field
  have whole : (HttpData.new fd).inBuffer ++ (line ++ CR :: LF :: (headerSection (g :: gs) ++ body)) =
      line ++ CR :: LF :: (headerSection (g :: gs) ++ body) := rfl
  have parsed := request_parsed (new_vacant fd) whole (by omega) sized q
  rw [uriStage_line ((new_vacant fd).arrived _) rfl first sized decoded]
  exact headerStage_success parsed rfl

theorem uriStage_notAccepted (fd : Nat) (first : CR ∉ line)
    (small : (requestBytes line lines body).length < 2 ^ 31) (refused : lineRequest line = none)
    (k : Kernel) :
    ∃ t, t.outBuffer = [] ∧
      uriStage { HttpData.new fd with inBuffer := requestBytes line lines body } k =
        .ok (badRequest (text "Bad Request") t k) := by
  have size := requestBytes_parts line lines body
  have parsed := parseURI_line (s := { HttpData.new fd with
    inBuffer := requestBytes line lines body }) rfl rfl (small.trans (by norm_num)) first
  rcases parseRequestLine_request (by omega : line.length < 2 ^ 63)
    { HttpData.new fd with inBuffer := LF :: (headerPart lines ++ body) } with
    ⟨q, request, -⟩ | ⟨-, t, rejected⟩
  · rw [refused] at request
    cases request
  · obtain ⟨m, f, v, rfl⟩ := parseRequestLine_frame rejected
    exact ⟨_, rfl, uriStage_refused rfl (parsed.trans rejected)⟩

theorem reaction_bad (fd : Nat) (first : CR ∉ line)
    (small : (requestBytes line lines body).length < 2 ^ 31)
    (bad : lineRequest line = none ∨ ¬ ∀ l ∈ lines, l.Fits)
    (writes : List WriteResult) (files : Nat → Bytes → FileView) :
    reaction fd (requestBytes line lines body) writes files =
      ((badRequest (text "Bad Request") (HttpData.new 0)
        { reads := [], writes, files, looked := [], sent := [] }).2.sent, some ([], true)) := by
  have size := requestBytes_parts line lines body
  cases request : lineRequest line with
  | none =>
      obtain ⟨t, queued, staged⟩ := uriStage_notAccepted fd first small request
        { reads := [], writes, files, looked := [], sent := [] }
      exact reaction_refused small queued staged
  | some q =>
      have long : ¬ ∀ l ∈ lines, l.Fits := bad.resolve_left (by simp [request])
      obtain ⟨t, queued, staged⟩ := uriStage_tooLong ((new_vacant fd).arrived _) rfl first request long
        (by omega) (small.trans (by norm_num))
        { reads := [], writes, files, looked := [], sent := [] }
      exact reaction_refused small queued staged

theorem reaction_read (fd : Nat) (first : CR ∉ line) (some_line : lines ≠ [])
    (fit : ∀ l ∈ lines, l.Fits) (small : (requestBytes line lines body).length < 2 ^ 31)
    (request : lineRequest line = some q) (writes : List WriteResult)
    (files : Nat → Bytes → FileView) :
    reaction fd (requestBytes line lines body) writes files =
      stagesView (bodyStage (readWith fd q body (headersOf lines))
        { reads := [], writes, files, looked := [], sent := [] }) := by
  rw [reaction_eq fd small, uriStage_lines fd first some_line fit small request]

theorem reaction_noLines (fd : Nat) (first : CR ∉ line)
    (small : (requestBytes line [] []).length < 2 ^ 31) (request : lineRequest line = some q)
    (writes : List WriteResult) (files : Nat → Bytes → FileView) :
    (reaction fd (requestBytes line [] []) writes files).1 = [] := by
  have size := requestBytes_parts line [] []
  have decoded : decodeLine line = some q := (decodeLine_request (by omega)).trans request
  have short_section : [LF, CR, LF].length ≤ npos := by decide
  have breaks : ∀ c ∈ [LF, CR, LF], c = CR ∨ c = LF := by simp
  have waits : parseHeaders ((HttpData.new fd).atLine q [LF, CR, LF]) =
      .ok (.parseHeaderAgain, (HttpData.new fd).atLine q [LF, CR, LF]) :=
    parseHeaders_breaks rfl short_section breaks
  have entered : ∀ k, uriStage { HttpData.new fd with inBuffer := requestBytes line [] [] } k =
      headerStage ((HttpData.new fd).atLine q [LF, CR, LF]) k := fun k =>
    uriStage_line ((new_vacant fd).arrived _) rfl first (small.trans (by norm_num)) decoded
  rw [reaction_eq fd small, entered, headerStage_waits waits rfl, stagesView_ok,
    settle_wait ⟨rfl, rfl, rfl, rfl⟩ (by simp [atLine])]
  rfl

/-- A reply that is not an error says so in its first bytes. -/
theorem servedReply_opening {files : Bytes → FileView} {keepAlive : Bool} {reply : Bytes}
    (served : servedReply files q keepAlive = some reply) :
    ∃ rest, text "HTTP/1.1 200" ++ rest = reply := by
  have opening : ∀ rest, text "HTTP/1.1 200" <+: replyStart keepAlive ++ rest := by
    have start : text "HTTP/1.1 200" <+: replyStart keepAlive := by
      cases keepAlive <;> exact List.isPrefixOf_iff_prefix.mp (by decide)
    exact fun rest => start.trans (List.prefix_append _ _)
  have echo : text "HTTP/1.1 200" <+: echoReply := List.isPrefixOf_iff_prefix.mp (by decide)
  unfold servedReply at served
  dsimp only at served
  split_ifs at served
  · exact Option.some.inj served ▸ echo
  · rw [List.append_assoc] at served
    exact Option.some.inj served ▸ opening _
  · split at served
    · unfold servedFile at served
      split at served
      · cases served
      · dsimp only at served
        split_ifs at served
        · exact Option.some.inj served ▸ opening _
        · obtain ⟨body, -, rfl⟩ := Option.map_eq_some_iff.mp served
          rw [List.append_assoc, List.append_assoc]
          exact opening _
    · cases served

theorem servedReply_ne_nil {files : Bytes → FileView} {keepAlive : Bool} {reply : Bytes}
    (served : servedReply files q keepAlive = some reply) : reply ≠ [] := by
  obtain ⟨rest, rfl⟩ := servedReply_opening served
  exact List.cons_ne_nil _ _

theorem answer_sent (files : Bytes → FileView) (q : RequestLine) (left : Bytes)
    (silent : h (text "Content-length") = none) :
    ∃ a, answer files q h left = .ok a ∧ a.sent ≠ [] := by
  unfold answer
  split_ifs
  · rw [silent]
    have some_bytes : errorBytes 400 (text "Bad Request: Lack of argument (Content-length)") ≠ [] := by
      decide
    exact ⟨_, rfl, some_bytes⟩
  · have some_bytes : errorBytes 404 (text "Not Found!") ≠ [] := by decide
    dsimp only
    cases served : servedReply files q (keepAliveRequested h) with
    | none => exact ⟨_, rfl, some_bytes⟩
    | some reply => exact ⟨_, rfl, servedReply_ne_nil served⟩

/-- No answer is the refusal of a bad request. -/
theorem answer_not_bad {files : Bytes → FileView} {a : Answer} {left : Bytes}
    (answers : answer files q h left = .ok a) :
    a.sent ≠ errorBytes 400 (text "Bad Request") := by
  unfold answer at answers
  split_ifs at answers
  · cases given : h (text "Content-length") with
    | none =>
        rw [given] at answers
        cases answers
        decide
    | some value =>
        have refusal : ([] : Bytes) ≠ errorBytes 400 (text "Bad Request") := by decide
        rw [given] at answers
        cases number : stoi value with
        | error e => simp [number, bind, Except.bind] at answers
        | ok n =>
            simp only [number, bind, Except.bind] at answers
            split_ifs at answers <;> cases answers <;> exact refusal
  · have missing : errorBytes 404 (text "Not Found!") ≠ errorBytes 400 (text "Bad Request") := by
      decide
    dsimp only at answers
    cases served : servedReply files q (keepAliveRequested h) with
    | none =>
        rw [served] at answers
        cases answers
        exact missing
    | some reply =>
        rw [served] at answers
        cases answers
        intro same
        obtain ⟨rest, opening⟩ := servedReply_opening served
        have begins := congrArg (List.take 12) (opening.trans same)
        have front : (text "HTTP/1.1 200" ++ rest).take 12 = text "HTTP/1.1 200" :=
          List.take_left' (by decide)
        rw [front] at begins
        revert begins
        decide

/-- As long as the socket accepts everything, a request with nothing behind it brings its answer. -/
theorem reaction_steady (fd : Nat) (first : CR ∉ line) (some_line : lines ≠ [])
    (fit : ∀ l ∈ lines, l.Fits) (small : (requestBytes line lines []).length < 2 ^ 31)
    (request : lineRequest line = some q) (files : Bytes → FileView) :
    (reaction fd (requestBytes line lines []) [] fun _ => files).1 =
      match answer files q (headersOf lines) [] with
      | .ok a => a.sent
      | .error _ => [] := by
  rw [reaction_read fd first some_line fit small request]
  have state : (readWith fd q [] (headersOf lines)).state =
      afterHeaders (readWith fd q [] (headersOf lines)).method := rfl
  cases answers : answer files q (headersOf lines) [] with
  | error e =>
      have faulted := concluded_fault (k := steady files [] [] []) state answers
      unfold concluded steady at faulted
      generalize bodyStage _ _ = o at faulted ⊢
      cases o with
      | error e => rfl
      | ok result => cases faulted
  | ok a =>
      obtain ⟨again, s', looked, ran, answered⟩ := steady_concluded files [] [] []
        (readWith_ready fd q [] (headersOf lines)) state answers
      have once : again = false := by
        cases again with
        | false => rfl
        | true => exact absurd rfl (answered.again.mp rfl).2
      subst once
      unfold concluded steady at ran
      generalize bodyStage _ _ = o at ran ⊢
      cases o with
      | error e => cases ran
      | ok result =>
          obtain ⟨t, kt⟩ := result
          have settled : settle t kt = _ := Except.ok.inj ran
          rw [stagesView_ok, settled]
          rfl

/-- A value that is too long is refused. -/
theorem reaction_unfit (fd : Nat) (first : CR ∉ line) (long : ¬ ∀ m ∈ lines, m.Fits)
    (small : (requestBytes line lines []).length < 2 ^ 31) (files : Nat → Bytes → FileView) :
    (reaction fd (requestBytes line lines []) [] files).1 = errorBytes 400 (text "Bad Request") := by
  have refusal : (badRequest (text "Bad Request") (HttpData.new 0)
      { reads := [], writes := [], files := fun _ _ => .missing, looked := [], sent := [] }).2.sent =
        errorBytes 400 (text "Bad Request") := by decide +kernel
  rw [reaction_bad fd first small (.inr long)]
  exact refusal

/-- Without the line nothing is sent, and with it something. -/
theorem reaction_alone (fd : Nat) (first : CR ∉ line) {l : HeaderLine}
    (other : l.name ≠ text "Content-length") (small : (requestBytes line [l] []).length < 2 ^ 31)
    (request : lineRequest line = some q) :
    (reaction fd (requestBytes line [] []) [] fun _ _ => .missing).1 ≠
      (reaction fd (requestBytes line [l] []) [] fun _ _ => .missing).1 := by
  have size := requestBytes_parts line [l] []
  have size' := requestBytes_parts line [] []
  have shorter : (requestBytes line [] []).length < 2 ^ 31 := by
    simp only [headerPart, List.flatMap_cons, List.flatMap_nil, List.length_append,
      List.length_nil] at size size'
    omega
  rw [reaction_noLines fd first shorter request]
  by_cases fits : l.Fits
  · have silent : headersOf [l] (text "Content-length") = none := (headersOf_insert other [] []).symm
    obtain ⟨a, answers, some_bytes⟩ := answer_sent (fun _ => .missing) q [] silent
    rw [reaction_steady fd first (by simp) (by simpa using fits) small request, answers]
    exact some_bytes.symm
  · rw [reaction_unfit fd first (by simpa using fits) small]
    decide

/-- A request whose values fit is not answered like one that is refused. -/
theorem reaction_fit (fd : Nat) (first : CR ∉ line) (some_line : lines ≠ [])
    (fit : ∀ m ∈ lines, m.Fits) (small : (requestBytes line lines []).length < 2 ^ 31)
    (request : lineRequest line = some q) :
    (reaction fd (requestBytes line lines []) [] fun _ _ => .missing).1 ≠
      errorBytes 400 (text "Bad Request") := by
  rw [reaction_steady fd first some_line fit small request]
  cases answers : answer (fun _ => .missing) q (headersOf lines) [] with
  | error e =>
      have refused : ([] : Bytes) ≠ errorBytes 400 (text "Bad Request") := by decide
      exact refused
  | ok a => exact answer_not_bad answers

/-- Another header line makes no difference to what the socket accepts exactly if the request line is
    not accepted, or if the request has a header line and the value of the new one fits or another one
    does not. -/
theorem inserted_iff (fd : Nat) (first : CR ∉ line) (front back : List HeaderLine) (l : HeaderLine)
    (other : l.name ≠ text "Connection" ∧ l.name ≠ text "Content-length")
    (small : (requestBytes line (front ++ l :: back) []).length < 2 ^ 31) :
    (∀ writes files, (reaction fd (requestBytes line (front ++ back) []) writes files).1 =
        (reaction fd (requestBytes line (front ++ l :: back) []) writes files).1) ↔
      lineRequest line = none ∨
        front ++ back ≠ [] ∧ (l.Fits ∨ ¬ ∀ m ∈ front ++ back, m.Fits) := by
  have shorter : (requestBytes line (front ++ back) []).length < 2 ^ 31 := by
    rw [requestBytes_parts] at small ⊢
    simp only [headerPart, List.flatMap_append, List.flatMap_cons, List.length_append] at small ⊢
    omega
  have inserted : (∀ m ∈ front ++ l :: back, m.Fits) ↔ l.Fits ∧ ∀ m ∈ front ++ back, m.Fits := by
    simp only [List.forall_mem_append, List.forall_mem_cons]
    tauto
  cases request : lineRequest line with
  | none =>
      refine iff_of_true (fun writes files => ?_) (.inl rfl)
      rw [reaction_bad fd first shorter (.inl request), reaction_bad fd first small (.inl request)]
  | some q =>
      rw [or_iff_right (by simp)]
      constructor
      · intro same
        have same := same [] fun _ _ => .missing
        by_cases alone : front ++ back = []
        · obtain ⟨rfl, rfl⟩ := List.append_eq_nil_iff.mp alone
          exact absurd same (reaction_alone fd first other.2 small request)
        · refine ⟨alone, ?_⟩
          by_contra neither
          obtain ⟨long, fit⟩ := not_or.mp neither
          rw [not_not] at fit
          have bad : ¬ ∀ m ∈ front ++ l :: back, m.Fits := fun all => long (inserted.mp all).1
          rw [reaction_unfit fd first bad small] at same
          exact reaction_fit fd first alone fit shorter request same
      · rintro ⟨some_line, fits⟩ writes files
        by_cases fit : ∀ m ∈ front ++ back, m.Fits
        · have all := inserted.mpr ⟨fits.resolve_right (not_not_intro fit), fit⟩
          rw [reaction_read fd first some_line fit shorter request,
            reaction_read fd first (by simp) all small request]
          have agree := agree_insert other front back
          have stages := bodyStage_headers (s := readWith fd q [] (headersOf (front ++ back))) agree
            { reads := [], writes, files, looked := [], sent := [] }
          rw [← stagesView_headers _ (headersOf (front ++ l :: back)), ← stages]
          rfl
        · have bad : ¬ ∀ m ∈ front ++ l :: back, m.Fits := fun all => fit (inserted.mp all).2
          rw [reaction_bad fd first shorter (.inr fit), reaction_bad fd first small (.inr bad)]

/-- A header line under a key that is not looked up. -/
def otherLine : HeaderLine :=
  ⟨text "C", text "d", by decide, List.all_iff_forall_prop.1 (by decide), by decide,
    List.all_iff_forall_prop.1 (by decide)⟩

def firstLine : HeaderLine := firstField.toLine

theorem inserted_iff_second :
    (reaction 5 (requestBytes (text "GET /hello HTTP/1.1") [firstLine] []) []
        fun _ _ => .missing).1 =
      (reaction 5 (requestBytes (text "GET /hello HTTP/1.1") [firstLine, otherLine] []) []
        fun _ _ => .missing).1 :=
  (inserted_iff 5 (by decide) [firstLine] [] otherLine ⟨by decide, by decide⟩ (by decide)).mpr
    (.inr ⟨by simp, .inl (by decide)⟩) [] fun _ _ => .missing

/-- The first header line decides whether there is an answer. -/
theorem inserted_first :
    (reaction 5 (requestBytes (text "GET /hello HTTP/1.1") [] []) [] fun _ _ => .missing).1 ≠
      (reaction 5 (requestBytes (text "GET /hello HTTP/1.1") [firstLine] []) []
        fun _ _ => .missing).1 := by
  have silent : (reaction 5 (requestBytes (text "GET /hello HTTP/1.1") [] []) []
      fun _ _ => .missing).1 = [] := by decide +kernel
  have answered : (reaction 5 (requestBytes (text "GET /hello HTTP/1.1") [firstLine] []) []
      fun _ _ => .missing).1 = echoReply := by decide +kernel
  rw [silent, answered]
  decide

end HttpData

end WebServer
