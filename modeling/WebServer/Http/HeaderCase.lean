import WebServer.Http.Fragmentation
import WebServer.Http.OtherHeaders
import WebServer.Lib.Response

/-! # The case of header names

`ParseHeaders` stores a value under the name as it is spelled, and the handlers look up one spelling of
`Connection` and one of `Content-length`. Other spellings of these names are not found, so the same
request is answered differently.
-/

namespace WebServer

open Lib

/-- The lines differ at most in the case of letters in their names. -/
def Recased (lines lines' : List HeaderLine) : Prop :=
  List.Forall₂ (fun l l' => l.name.map lower = l'.name.map lower ∧ l.value = l'.value) lines lines'

variable {lines lines' : List HeaderLine}

namespace Recased

theorem length (recased : Recased lines lines') :
    (headerPart lines).length = (headerPart lines').length := by
  unfold headerPart
  induction recased with
  | nil => rfl
  | @cons l l' _ _ same _ ih =>
      have name := congrArg List.length same.1
      rw [List.length_map, List.length_map] at name
      simp only [List.flatMap_cons, List.length_append, HeaderLine.bytes, HttpData.headerLine_length,
        name, same.2] at ih ⊢
      omega

theorem fits (recased : Recased lines lines') : (∀ l ∈ lines, l.Fits) ↔ ∀ l ∈ lines', l.Fits := by
  induction recased with
  | nil => rfl
  | @cons l l' _ _ same _ ih =>
      have fit : l.Fits ↔ l'.Fits := by rw [HeaderLine.Fits, HeaderLine.Fits, same.2]
      rw [List.forall_mem_cons, List.forall_mem_cons, fit, ih]

theorem requestBytes_length (recased : Recased lines lines') (line body : Bytes) :
    (requestBytes line lines body).length = (requestBytes line lines' body).length := by
  simp only [requestBytes, List.length_append, List.length_cons, recased.length]

end Recased

namespace HttpData

variable {q : RequestLine} {line body : Bytes} {fd : Nat}

/-- What is seen of a `POST`, by what becomes of its body: it has no length, or one that `stoi` throws
    on, or the connection waits for the rest, or it has come. -/
def bodyView (refusal : Bytes) : Option (Option Bool) → Bytes × Option (Bytes × Bool)
  | none => (refusal, some ([], true))
  | some none => ([], none)
  | some (some true) => ([], some ([], false))
  | some (some false) => ([], some ([], true))

theorem bodyView_injective {refusal : Bytes} (some_bytes : refusal ≠ []) {a b : Option (Option Bool)} :
    bodyView refusal a = bodyView refusal b ↔ a = b := by
  refine ⟨fun same => ?_, fun same => congrArg (bodyView refusal) same⟩
  rcases a with _ | _ | _ | _ <;> rcases b with _ | _ | _ | _ <;> simp_all [bodyView]

/-- The refusal of a `POST` without a length. -/
def refusal (writes : List WriteResult) (files : Nat → Bytes → FileView) : Bytes :=
  (badRequest (text "Bad Request: Lack of argument (Content-length)") (HttpData.new 0)
    { reads := [], writes, files, looked := [], sent := [] }).2.sent

theorem stagesView_post {s : HttpData} (ready : Ready s) (post : s.method = .methodPost)
    (receiving : s.state = .stateRecvBody) (writes : List WriteResult)
    (files : Nat → Bytes → FileView) :
    stagesView (bodyStage s { reads := [], writes, files, looked := [], sent := [] }) =
      bodyView (refusal writes files) ((awaitsBody s.headers s.inBuffer).map Except.toOption) := by
  unfold bodyStage awaitsBody
  rw [if_pos receiving]
  cases s.headers (text "Content-length") with
  | none => exact stagesView_badRequest ready.outBuffer _ _
  | some value =>
      cases number : stoi value with
      | error e =>
          simp only [number, bind, Except.bind, Option.map_some, Except.map, Except.toOption]
          rfl
      | ok n =>
          simp only [number, bind, Except.bind, Option.map_some, Except.map, Except.toOption]
          split_ifs with waits
          · have unfinished : s.state ≠ .stateFinish := by simp [receiving]
            rw [stagesView_ok, settle_wait ready unfinished, decide_eq_true waits]
            show ([], some (s.outBuffer, s.error)) = _
            rw [ready.outBuffer, ready.error]
            rfl
          · rw [analysisStage_post (s := { s with state := .stateAnalysis }) rfl post, stagesView_ok,
              settle_error rfl, decide_eq_false waits]
            exact congrArg (fun queued => ([], some (queued, true))) ready.outBuffer

theorem stagesView_keepAlive {s : HttpData} {h h' : HeaderMap} (analysing : s.state = .stateAnalysis)
    (same : keepAliveRequested h = keepAliveRequested h') (k : Kernel) :
    stagesView (bodyStage { s with headers := h } k) =
      stagesView (bodyStage { s with headers := h' } k) := by
  have stage : ∀ h, bodyStage { s with headers := h } k = analysisStage { s with headers := h } k := by
    intro h
    unfold bodyStage
    exact if_neg (by simp [analysing])
  rw [stage, stage, ← stagesView_headers (analysisStage { s with headers := h' } k) h]
  exact congrArg stagesView (analysisStage_headers (s := { s with headers := h' }) same k)

theorem stagesView_hello {s : HttpData} {h h' : HeaderMap} (analysing : s.state = .stateAnalysis)
    (get : s.method ≠ .methodPost) (hello : s.fileName = text "hello") {k : Kernel}
    (silent : k.sent = []) :
    stagesView (bodyStage { s with headers := h } k) =
      stagesView (bodyStage { s with headers := h' } k) := by
  have replied : ∀ h, ∃ keepAlive history, stagesView (bodyStage { s with headers := h } k) =
      stagesView (.ok ({ s with
        keepAlive, history, outBuffer := echoReply, state := .stateFinish }, k)) := by
    intro h
    obtain ⟨fileType, -, answered⟩ := analysisRequest_eq (s := { s with headers := h }) get
    unfold bodyStage analysisStage
    dsimp only
    rw [if_neg (by simp [analysing]), if_pos analysing, answered]
    dsimp only
    rw [if_pos hello]
    exact ⟨_, _, stagesView_headers (.ok ({ s with
      keepAlive := s.keepAlive || keepAliveRequested h, history := _, outBuffer := echoReply,
      state := .stateFinish }, k)) h⟩
  obtain ⟨keepAlive, history, first⟩ := replied h
  obtain ⟨keepAlive', history', second⟩ := replied h'
  rw [first, second]
  have linked : Linked Eq
      { s with keepAlive, history, outBuffer := echoReply, state := .stateFinish }
      { s with
        keepAlive := keepAlive', history := history', outBuffer := echoReply
        state := .stateFinish } :=
    ⟨⟨rfl, rfl, rfl, rfl, rfl, rfl, rfl, rfl, rfl, rfl⟩, fun _ => rfl⟩
  exact stagesView_linked linked ⟨rfl, rfl, rfl, rfl, [], silent, silent⟩

/-- How the reply to a request for a file begins. -/
def replyOpening (keepAlive : Bool) : Bytes :=
  text "HTTP/1.1 200 OK\r\n" ++ if keepAlive then text "Conn" else text "Cont"

theorem replyOpening_injective {a b : Bool} {x y : Bytes}
    (same : replyOpening a ++ x = replyOpening b ++ y) : a = b := by
  have length : (replyOpening a).length = (replyOpening b).length := by
    cases a <;> cases b <;> decide
  obtain ⟨front, -⟩ := List.append_inj same length
  revert front
  cases a <;> cases b <;> decide

theorem replyStart_opening (keepAlive : Bool) (fileType : Bytes) (length : Nat) :
    ∃ x, replyStart keepAlive ++ replyEnd fileType length = replyOpening keepAlive ++ x := by
  unfold replyStart replyOpening
  cases keepAlive with
  | true => exact ⟨_, rfl⟩
  | false => exact ⟨_, rfl⟩

/-- Every name is one of a file. -/
def anyFile : FileView := .regular [LF]

theorem servedReply_connection (other : q.fileName ≠ text "hello") (keepAlive : Bool) :
    ∃ x, servedReply (fun _ => anyFile) q keepAlive = some (replyOpening keepAlive ++ x) := by
  obtain ⟨fileType, typed⟩ := fileTypeOf_returns q.fileName
  unfold servedReply servedFile anyFile
  dsimp only [FileView.stSize, FileView.mapped]
  rw [if_neg other, typed]
  obtain ⟨x, opened⟩ := replyStart_opening keepAlive fileType [LF].length
  split_ifs with icon head empty
  · obtain ⟨x, opened⟩ := replyStart_opening keepAlive (text "image/png") favicon.length
    exact ⟨x ++ favicon, by rw [opened, List.append_assoc]⟩
  · exact ⟨x, congrArg some opened⟩
  · exact absurd empty (by decide)
  · refine ⟨x ++ ([LF] ++ text "\r\n"), ?_⟩
    rw [← List.append_assoc, ← opened, ← List.append_assoc]
    rfl

/-- With a file there, the start of the reply tells whether the connection is kept. -/
theorem stagesView_file {s : HttpData} (ready : Ready s) (get : s.method ≠ .methodPost)
    (analysing : s.state = .stateAnalysis) (other : s.fileName ≠ text "hello") :
    ∃ x, (stagesView (bodyStage s
      { reads := [], writes := [], files := fun _ _ => anyFile, looked := [], sent := [] })).1 =
        replyOpening (keepAliveRequested s.headers) ++ x := by
  obtain ⟨y, served⟩ := servedReply_connection (q := s.asked) other (keepAliveRequested s.headers)
  have answers : answer (fun _ => anyFile) s.asked s.headers s.inBuffer = .ok
      { sent := replyOpening (keepAliveRequested s.headers) ++ y
        error := false
        state := .stateParseUri
        keepAlive := keepAliveRequested s.headers } := by
    have asks : ¬ s.asked.method = .methodPost := get
    unfold answer
    rw [if_neg asks]
    dsimp only
    rw [served]
  have state : s.state = afterHeaders s.method := analysing.trans (if_neg get).symm
  obtain ⟨again, s', looked', ran, -⟩ :=
    steady_concluded (fun _ => anyFile) [] [] [] ready state answers
  unfold concluded steady at ran
  generalize bodyStage s _ = o at ran ⊢
  cases o with
  | error e => cases ran
  | ok result =>
      obtain ⟨t, kt⟩ := result
      have settled : settle t kt = _ := Except.ok.inj ran
      rw [stagesView_ok, settled]
      cases again with
      | false => exact ⟨y, rfl⟩
      | true =>
          obtain ⟨z, sent⟩ := accepted_extends s' (steady (fun _ => anyFile) [] looked'
            ([] ++ (replyOpening (keepAliveRequested s.headers) ++ y)))
          exact ⟨y ++ z, sent.trans (List.append_assoc (replyOpening _) y z)⟩

/-- The handlers find the same under both headers: for a `POST` whether a length is told and whether
    the body is awaited, otherwise whether to keep the connection, except that the reply to `hello`
    does not say it. -/
def SameLookups (q : RequestLine) (h h' : HeaderMap) (left : Bytes) : Prop :=
  if q.method = .methodPost then
    (awaitsBody h left).map Except.toOption = (awaitsBody h' left).map Except.toOption
  else q.fileName = text "hello" ∨ keepAliveRequested h = keepAliveRequested h'

theorem sameLookups_iff (fd : Nat) (q : RequestLine) (body : Bytes) (h h' : HeaderMap) :
    (∀ writes files,
      stagesView (bodyStage (readWith fd q body h)
          { reads := [], writes, files, looked := [], sent := [] }) =
        stagesView (bodyStage (readWith fd q body h')
          { reads := [], writes, files, looked := [], sent := [] })) ↔
      SameLookups q h h' body.tail := by
  unfold SameLookups
  split_ifs with post
  · have receiving : ∀ h, (readWith fd q body h).state = .stateRecvBody := fun _ => if_pos post
    have view := fun h => stagesView_post (readWith_ready fd q body h) post (receiving h)
    have some_bytes : refusal [] (fun _ _ => .missing) ≠ [] := by decide +kernel
    constructor
    · intro same
      have none_blocks := same [] fun _ _ => .missing
      rw [view, view] at none_blocks
      exact (bodyView_injective some_bytes).mp none_blocks
    · intro same writes files
      rw [view, view]
      exact congrArg (bodyView (refusal writes files)) same
  · have analysing : ∀ h, (readWith fd q body h).state = .stateAnalysis := fun _ => if_neg post
    constructor
    · intro same
      by_cases hello : q.fileName = text "hello"
      · exact .inl hello
      · obtain ⟨x, first⟩ := stagesView_file (readWith_ready fd q body h) post (analysing h) hello
        obtain ⟨y, second⟩ := stagesView_file (readWith_ready fd q body h') post (analysing h') hello
        have sent := congrArg Prod.fst (same [] fun _ _ => anyFile)
        rw [first, second] at sent
        exact .inr (replyOpening_injective sent)
    · rintro (hello | keep) writes files
      · exact stagesView_hello (s := readWith fd q body h) (analysing h) post hello rfl
      · exact stagesView_keepAlive (s := readWith fd q body h) (analysing h) keep _

/-- Other letter case in header names makes no difference exactly if the request line is not accepted,
    or a value does not fit, or the handlers find the same. -/
theorem recased_iff (fd : Nat) (recased : Recased lines lines') (first : CR ∉ line)
    (small : (requestBytes line lines body).length < 2 ^ 31) :
    (∀ writes files, reaction fd (requestBytes line lines body) writes files =
        reaction fd (requestBytes line lines' body) writes files) ↔
      ∀ q, lineRequest line = some q → (∀ l ∈ lines, l.Fits) →
        SameLookups q (headersOf lines) (headersOf lines') body.tail := by
  have small' : (requestBytes line lines' body).length < 2 ^ 31 :=
    recased.requestBytes_length line body ▸ small
  cases request : lineRequest line with
  | none =>
      refine iff_of_true (fun writes files => ?_) nofun
      rw [reaction_bad fd first small (.inl request), reaction_bad fd first small' (.inl request)]
  | some q =>
      by_cases fit : ∀ l ∈ lines, l.Fits
      · have fit' := recased.fits.mp fit
        cases recased with
        | nil =>
            refine iff_of_true (fun _ _ => rfl) fun q _ _ => ?_
            unfold SameLookups
            split_ifs
            · rfl
            · exact .inr rfl
        | cons _ _ =>
            have read := reaction_read fd first (List.cons_ne_nil _ _) fit small request
            have read' := reaction_read fd first (List.cons_ne_nil _ _) fit' small' request
            simp only [read, read', sameLookups_iff]
            refine ⟨?_, fun same => same q rfl fit⟩
            rintro same _ ⟨⟩ -
            exact same
      · refine iff_of_true (fun writes files => ?_) fun _ _ all => absurd all fit
        have long : ¬ ∀ l ∈ lines', l.Fits := fun all => fit (recased.fits.mpr all)
        rw [reaction_bad fd first small (.inr fit), reaction_bad fd first small' (.inr long)]

theorem contentLength_named : text "Content-length" ≠ [] := by decide

theorem contentLength_key : ∀ c ∈ text "Content-length", c ≠ COLON ∧ c ≠ LF ∧ c ≠ CR :=
  List.all_iff_forall_prop.1 (by decide)

/-- A header line in the spelling that is looked up, and in another one. -/
def lengthLine : HeaderLine :=
  ⟨text "Content-length", text "5", contentLength_named, contentLength_key, by decide,
    List.all_iff_forall_prop.1 (by decide)⟩

def lengthLineRecased : HeaderLine :=
  ⟨text "Content-Length", text "5", by decide, List.all_iff_forall_prop.1 (by decide), by decide,
    List.all_iff_forall_prop.1 (by decide)⟩

theorem recased_iff_head :
    reaction 5 (requestBytes (text "HEAD /a HTTP/1.1") [lengthLine] []) [] (fun _ _ => anyFile) =
      reaction 5 (requestBytes (text "HEAD /a HTTP/1.1") [lengthLineRecased] []) []
        fun _ _ => anyFile := by
  have request : lineRequest (text "HEAD /a HTTP/1.1") = some ⟨.methodHead, text "a", .http11⟩ := by
    decide +kernel
  have recased : Recased [lengthLine] [lengthLineRecased] := .cons ⟨by decide, rfl⟩ .nil
  refine (recased_iff 5 recased (by decide) (by decide)).mpr ?_ _ _
  intro q asked _
  cases request.symm.trans asked
  exact .inr (by decide)

/-- A `POST` is refused for its spelling. -/
theorem contentLength_recased :
    Recased [lengthLine] [lengthLineRecased] ∧
      reaction 5 (requestBytes (text "POST /a HTTP/1.1") [lengthLine] (text "hello")) []
        (fun _ _ => .missing) = ([], some ([], false)) ∧
      reaction 5 (requestBytes (text "POST /a HTTP/1.1") [lengthLineRecased] (text "hello")) []
        (fun _ _ => .missing) =
          (errorBytes 400 (text "Bad Request: Lack of argument (Content-length)"), some ([], true)) :=
  ⟨.cons ⟨by decide, rfl⟩ .nil, by decide +kernel, by decide +kernel⟩

end HttpData

end WebServer
