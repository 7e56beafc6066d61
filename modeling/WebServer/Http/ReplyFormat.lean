import WebServer.Http.Answer
import WebServer.Http.OrderedOutput
import WebServer.Lib.Response

/-! # Replies as HTTP responses

The header part of a served file is the head of a response, and announces the size of the file. What
follows it is not always the body that a client reads, and an error reply has no head at all.
-/

namespace WebServer

open Lib

theorem getMime_mem (suffix : Bytes) : ∃ entry ∈ mime, entry.2 = getMime suffix := by
  unfold getMime
  cases found : mime.lookup suffix with
  | none => exact ⟨(text "default", text "text/html"), by decide, by decide⟩
  | some type =>
      obtain ⟨front, back, split, -⟩ := List.lookup_eq_some_iff.mp found
      exact ⟨(suffix, type), split ▸ List.mem_append_right _ List.mem_cons_self, rfl⟩

theorem getMime_no_cr (suffix : Bytes) : CR ∉ getMime suffix := by
  have table : ∀ entry ∈ mime, CR ∉ entry.2 := by decide
  obtain ⟨entry, here, same⟩ := getMime_mem suffix
  exact same ▸ table entry here

namespace HttpData

theorem fileTypeOf_no_cr {fileName fileType : Bytes} (typed : fileTypeOf fileName = .ok fileType) :
    CR ∉ fileType := by
  simp only [fileTypeOf, bind, Except.bind] at typed
  split at typed
  · cases typed
    exact getMime_no_cr _
  · split at typed
    · cases typed
    · cases typed
      exact getMime_no_cr _

/-- The lines that a connection to be kept adds. -/
def keepAliveFields (keepAlive : Bool) : List Bytes :=
  if keepAlive then
    [fieldLine (text "Connection") (text "Keep-Alive"),
      fieldLine (text "Keep-Alive") (text "timeout=" ++ decimal kDefaultKeepAliveTime)]
  else []

/-- The header part of a served reply. -/
def replyHead (keepAlive : Bool) {fileType : Bytes} (typed : CR ∉ fileType) (length : Nat) :
    ResponseHead where
  statusLine := text "HTTP/1.1 200 OK"
  fields := keepAliveFields keepAlive ++
    [fieldLine (text "Content-Type") fileType, fieldLine (text "Content-Length") (decimal length),
      fieldLine (text "Server") (text "Licheng Jiang's Web Server")]
  status := by decide
  named := by
    intro line there
    rcases List.mem_append.mp there with kept | own
    · cases keepAlive with
      | false => cases kept
      | true =>
          have fixed : ∀ line ∈ keepAliveFields true, IsFieldLine line := by decide
          exact fixed line kept
    · rcases List.mem_cons.mp own with rfl | own
      · exact isFieldLine_fieldLine (by decide) (by decide) typed
      rcases List.mem_cons.mp own with rfl | own
      · exact isFieldLine_fieldLine (by decide) (by decide) (decimal_no_byte (by decide) length)
      · rw [List.mem_singleton.mp own]
        exact isFieldLine_fieldLine (by decide) (by decide) (by decide)

theorem replyHead_bytes (keepAlive : Bool) {fileType : Bytes} (typed : CR ∉ fileType) (length : Nat) :
    (replyHead keepAlive typed length).bytes = replyStart keepAlive ++ replyEnd fileType length := by
  have lineEnd : text "\r\n" = [13, 10] := by decide
  have type : text "Content-Type: " = text "Content-Type" ++ [58, 32] := by decide
  have size : text "Content-Length: " = text "Content-Length" ++ [58, 32] := by decide
  have server : text "Server: Licheng Jiang's Web Server\r\n" =
      fieldLine (text "Server") (text "Licheng Jiang's Web Server") ++ [13, 10] := by decide
  have started : replyStart keepAlive =
      lineBytes (text "HTTP/1.1 200 OK" :: keepAliveFields keepAlive) := by
    cases keepAlive <;> decide
  unfold ResponseHead.bytes replyHead replyEnd
  rw [started, server, type, size, lineEnd]
  simp only [lineBytes, fieldLine, List.flatMap_cons, List.flatMap_append, List.flatMap_nil,
    List.append_assoc, List.cons_append, List.nil_append]

theorem parseHead_reply (keepAlive : Bool) {fileType : Bytes} (typed : CR ∉ fileType) (length : Nat)
    (rest : Bytes) : parseHead (replyStart keepAlive ++ replyEnd fileType length ++ rest) =
      some (replyHead keepAlive typed length, rest) := by
  rw [← replyHead_bytes keepAlive typed length]
  exact parseHead_bytes _ rest

theorem replyHead_contentLength (keepAlive : Bool) {fileType : Bytes} (typed : CR ∉ fileType)
    (length : Nat) : (replyHead keepAlive typed length).contentLength = some length := by
  have announced : ∀ rest : List Bytes, fieldValue (text "Content-Length")
      (fieldLine (text "Content-Type") fileType ::
        fieldLine (text "Content-Length") (decimal length) :: rest) = some (decimal length) := by
    intro rest
    rw [fieldValue_other _ (by decide) (by decide), fieldValue_here (by decide),
      decimal_dropWhile_space]
  apply contentLength_decimal
  cases keepAlive with
  | false => exact announced _
  | true =>
      exact (fieldValue_other _ (by decide) (by decide)).trans
        ((fieldValue_other _ (by decide) (by decide)).trans (announced _))

theorem not_infix_of_count {pat s : Bytes} {c : UInt8} (few : s.count c < pat.count c) :
    ¬ pat <:+: s := by
  intro inside
  have := inside.sublist.count_le c
  omega

/-- A header part with one `\r` to a line has no empty line. -/
theorem errorHeader_no_emptyLine (errNum length : Nat) {shortMsg : Bytes} (unbroken : CR ∉ shortMsg) :
    ¬ [13, 10, 13] <:+: text "HTTP/1.1 " ++ decimal errNum ++ (text " " ++ shortMsg) ++ text "\r\n" ++
      text "Content-Type: text/html\r\n" ++ text "Connection: Close\r\n" ++
      text "Content-Length: " ++ decimal length ++ text "\r\n" ++
      text "Server: Licheng Jiang's Web Server" := by
  have split : text "HTTP/1.1 " ++ decimal errNum ++ (text " " ++ shortMsg) ++ text "\r\n" ++
      text "Content-Type: text/html\r\n" ++ text "Connection: Close\r\n" ++
      text "Content-Length: " ++ decimal length ++ text "\r\n" ++
      text "Server: Licheng Jiang's Web Server" =
        (text "HTTP/1.1 " ++ decimal errNum ++ (text " " ++ shortMsg) ++ text "\r\n") ++ 67 ::
          (text "ontent-Type: text/html\r\n" ++ 67 :: (text "onnection: Close\r\n" ++ 67 ::
            ((text "ontent-Length: " ++ decimal length ++ text "\r\n") ++ 83 ::
              text "erver: Licheng Jiang's Web Server"))) := by
    simp only [List.append_assoc]
    rfl
  -- The letters that it is cut at are not in the pattern, and no part has two bytes `\r`.
  have number (n : Nat) : (decimal n).count 13 = 0 :=
    List.count_eq_zero_of_not_mem (decimal_no_byte (by decide) n)
  have message : shortMsg.count 13 = 0 := List.count_eq_zero_of_not_mem unbroken
  have pattern : List.count 13 ([13, 10, 13] : Bytes) = 2 := by decide
  intro inside
  rw [split] at inside
  rcases infix_beside (by decide) inside with status | inside
  · refine not_infix_of_count (c := 13) ?_ status
    rw [pattern, List.count_append, List.count_append, List.count_append, List.count_append, number,
      message]
    decide
  rcases infix_beside (by decide) inside with type | inside
  · exact not_infix_of_count (c := 13) (by decide) type
  rcases infix_beside (by decide) inside with connection | inside
  · exact not_infix_of_count (c := 13) (by decide) connection
  rcases infix_beside (by decide) inside with size | server
  · refine not_infix_of_count (c := 13) ?_ size
    rw [pattern, List.count_append, List.count_append, number]
    decide
  · exact not_infix_of_count (c := 13) (by decide) server

theorem cstr_isPrefix (s : Bytes) : cstr s <+: s := List.takeWhile_prefix _

theorem emptyLine_before {front back : Bytes} (free : 13 ∉ back)
    (inside : [13, 10, 13, 10] <:+: front ++ back) : [13, 10, 13] <:+: front := by
  obtain ⟨a, b, whole⟩ := inside
  have whole : (a ++ [13, 10, 13]) ++ 10 :: b = front ++ back := by simpa using whole
  rcases List.append_eq_append_iff.mp whole with ⟨gap, longer, -⟩ | ⟨gap, longer, later⟩
  · exact ⟨a, gap, longer.symm⟩
  · rcases List.eq_nil_or_concat gap with rfl | ⟨gap, last, rfl⟩
    · rw [List.append_nil] at longer
      exact ⟨a, [], by rw [List.append_nil, longer]⟩
    · rw [List.concat_eq_append] at longer later
      have ends : last = 13 := by
        have same : a ++ [13, 10] ++ [13] = front ++ gap ++ [last] := by simpa using longer
        exact (List.head_eq_of_cons_eq (List.append_inj_right' same rfl)).symm
      rw [later, ends] at free
      simp at free

theorem errorBytes_no_emptyLine (errNum : Nat) {shortMsg : Bytes} (unbroken : CR ∉ shortMsg) :
    ¬ [13, 10, 13, 10] <:+: errorBytes errNum shortMsg := by
  have body : 13 ∉ (errorReply errNum shortMsg).2 := by
    intro there
    have inside := (cstr_isPrefix _).subset there
    have start : (13 : UInt8) ∉ text "\n哎~出错了\n" := by decide
    have number : (13 : UInt8) ∉ decimal errNum := decimal_no_byte (by decide) errNum
    have blank : (13 : UInt8) ∉ text " " := by decide
    have server : (13 : UInt8) ∉ text "\nLicheng Jiang's Web Server\n" := by decide
    rcases List.mem_append.mp inside with front | last
    · rcases List.mem_append.mp front with first | message
      · exact start first
      rcases List.mem_append.mp message with digits | message
      · exact number digits
      rcases List.mem_append.mp message with space | message
      · exact blank space
      · exact unbroken message
    · exact server last
  intro inside
  exact errorHeader_no_emptyLine errNum _ unbroken
    ((emptyLine_before body inside).trans (cstr_isPrefix _).isInfix)

theorem errorBytes_headless (errNum : Nat) {shortMsg : Bytes} (unbroken : CR ∉ shortMsg) :
    parseHead (errorBytes errNum shortMsg) = none := by
  cases parsed : parseHead (errorBytes errNum shortMsg) with
  | none => rfl
  | some found =>
      obtain ⟨head, rest⟩ := found
      have written := parseHead_sound parsed
      have empty : [13, 10, 13, 10] <:+: errorBytes errNum shortMsg := by
        rw [written]
        exact head.emptyLine.trans (List.prefix_append _ _).isInfix
      exact absurd empty (errorBytes_no_emptyLine errNum unbroken)

theorem parseResponse_headless {bs : Bytes} (headless : parseHead bs = none) :
    parseResponse bs = none := by
  unfold parseResponse
  rw [headless]

theorem handleError_sent {errNum : Nat} {shortMsg : Bytes} {k : Kernel}
    (whole : WrittenWhole k errNum shortMsg) (s : HttpData) :
    (handleError errNum shortMsg s k).2.sent = k.sent ++ errorBytes errNum shortMsg := by
  have taken : ∀ (k : Kernel) (buff : Bytes), (k.write buff).1.left = [] →
      (k.write buff).2.sent = k.sent ++ buff := by
    intro k buff done
    have parts := accepted_append_left k.writes buff
    have done : (writeLoop k.writes buff).left = [] := done
    rw [done, List.append_nil] at parts
    show k.sent ++ _ = _
    rw [parts]
  have first := taken k _ whole.1
  have second := taken (k.write (errorReply errNum shortMsg).1).2 _ whole.2
  show ((k.write (errorReply errNum shortMsg).1).2.write (errorReply errNum shortMsg).2).2.sent = _
  rw [second, first, List.append_assoc]
  rfl

/-- What `HandleError` writes is never a response. -/
theorem error_never_framed {errNum : Nat} {shortMsg : Bytes} (s : HttpData) {k : Kernel}
    (unbroken : CR ∉ shortMsg) (whole : WrittenWhole k errNum shortMsg) :
    ¬ ∃ sent r, (handleError errNum shortMsg s k).2.sent = k.sent ++ sent ∧
      parseResponse sent = some (r, []) := by
  rintro ⟨sent, r, written, parsed⟩
  rw [handleError_sent whole, List.append_cancel_left_eq] at written
  rw [← written, parseResponse_headless (errorBytes_headless errNum unbroken)] at parsed
  cases parsed

theorem error_never_framed_missing :
    ¬ ∃ sent r,
      (handleError 404 (text "Not Found!") (new 5) (steady (fun _ => .missing) [] [] [])).2.sent =
        [] ++ sent ∧ parseResponse sent = some (r, []) :=
  error_never_framed (new 5) (by decide) ⟨by rw [steady_write], by rw [steady_write, steady_write]⟩

theorem error_unterminated :
    ¬ ∃ sent r,
      (handleError 400 (text "Bad Request") (new 5) (steady (fun _ => .missing) [] [] [])).2.sent =
        [] ++ sent ∧ parseResponse sent = some (r, []) := by
  rintro ⟨sent, r, written, parsed⟩
  rw [steady_handleError] at written
  rw [← List.append_cancel_left written,
    parseResponse_headless (errorBytes_headless 400 (by decide))] at parsed
  cases parsed

/-- What a `GET` of a file queues, when it succeeds: a response that carries the file, and a line
    break that belongs to no response. -/
theorem analysisRequest_file {s s' : HttpData} {k k' : Kernel} {body : Bytes}
    (get : s.method = .methodGet) (hello : s.fileName ≠ text "hello")
    (icon : s.fileName ≠ text "favicon.ico")
    (readable : (k.lookup (cstr s.fileName)).1 = .regular body)
    (succeeds : analysisRequest s k = .ok (.analysisSuccess, s', k')) :
    ∃ r : Response, s'.outBuffer = s.outBuffer ++ (r.bytes ++ text "\r\n") ∧
      r.head.code = some 200 ∧ r.body = body := by
  obtain ⟨fileType, typed, answered⟩ := analysisRequest_eq (s := s) (by simp [get])
  have not_head : ¬ HttpMethod.methodGet = .methodHead := by decide
  have accepted : statusCode (text "HTTP/1.1 200 OK") = some 200 := by decide
  rw [answered] at succeeds
  dsimp only at succeeds
  rw [if_neg hello, if_neg icon] at succeeds
  unfold analysisFile at succeeds
  dsimp only at succeeds
  rw [readable, get] at succeeds
  simp only [FileView.stSize, FileView.mapped, not_head, if_false] at succeeds
  split_ifs at succeeds with empty
  · cases succeeds
  · cases succeeds
    refine ⟨⟨replyHead (keepAliveRequested s.headers) (fileTypeOf_no_cr typed) body.length, body,
      replyHead_contentLength ..⟩, ?_, accepted, rfl⟩
    rw [Response.bytes, replyHead_bytes]
    simp only [append, List.append_assoc]

/-- A `GET` is never answered with exactly a response that carries the file. -/
theorem get_never_framed {s : HttpData} {k : Kernel} {body : Bytes} (get : s.method = .methodGet)
    (hello : s.fileName ≠ text "hello") (icon : s.fileName ≠ text "favicon.ico")
    (readable : (k.lookup (cstr s.fileName)).1 = .regular body) :
    ¬ ∃ s' k' added r, analysisRequest s k = .ok (.analysisSuccess, s', k') ∧
      s'.outBuffer = s.outBuffer ++ added ∧ parseResponse added = some (r, []) ∧
      r.head.code = some 200 ∧ r.body = body := by
  rintro ⟨s', k', added, r, succeeds, queued, parsed, -⟩
  obtain ⟨r', written, -⟩ := analysisRequest_file get hello icon readable succeeds
  rw [written, List.append_cancel_left_eq] at queued
  rw [← queued, parseResponse_bytes] at parsed
  cases parsed

/-- A `GET` of `a.txt`. -/
def textRequest : HttpData := { new 5 with fileName := text "a.txt" }

theorem get_never_framed_empty :
    ¬ ∃ s' k' added r,
      analysisRequest textRequest (steady (fun _ => .regular []) [] [] []) =
        .ok (.analysisSuccess, s', k') ∧
      s'.outBuffer = textRequest.outBuffer ++ added ∧ parseResponse added = some (r, []) ∧
      r.head.code = some 200 ∧ r.body = [] :=
  get_never_framed (k := steady (fun _ => .regular []) [] [] []) rfl (by decide) (by decide) rfl

/-- The client of a file of two bytes is sent four. -/
theorem get_trailing_break :
    ¬ ∃ s' k' added r,
      analysisRequest textRequest (steady (fun _ => .regular (text "hi")) [] [] []) =
        .ok (.analysisSuccess, s', k') ∧
      s'.outBuffer = textRequest.outBuffer ++ added ∧ parseResponse added = some (r, []) ∧
      r.head.code = some 200 ∧ r.body = text "hi" := by
  rintro ⟨s', k', added, r, succeeds, queued, parsed, -⟩
  obtain ⟨r', written, -⟩ := analysisRequest_file
    (k := steady (fun _ => .regular (text "hi")) [] [] []) rfl (by decide) (by decide) rfl succeeds
  rw [written, List.append_cancel_left_eq] at queued
  rw [← queued, parseResponse_bytes] at parsed
  cases parsed

/-- The bytes that `AnalysisRequest` produces for the peer. -/
def produced (s : HttpData) (k : Kernel) : Except Fault Bytes :=
  (analysisRequest s k).map fun (_, t, _) => replies (t.history.drop s.history.length)

theorem produced_of {s t : HttpData} {k kt : Kernel} {flag : AnalysisState} {later : List Output}
    (answered : analysisRequest s k = .ok (flag, t, kt)) (added : t.history = s.history ++ later) :
    produced s k = .ok (replies later) := by
  unfold produced
  rw [answered]
  show Except.ok (replies (t.history.drop s.history.length)) = _
  rw [added, List.drop_left]

/-- The same request with another method. -/
def withMethod (method : HttpMethod) (s : HttpData) : HttpData := { s with method }

variable {s : HttpData} {k : Kernel}

theorem produced_hello (asks : s.method ≠ .methodPost) (hello : s.fileName = text "hello") :
    produced s k = .ok echoReply := by
  obtain ⟨fileType, -, answered⟩ := analysisRequest_eq asks
  rw [produced_of ((answered k).trans (if_pos hello)) rfl, replies_singleton]
  rfl

theorem produced_icon (asks : s.method ≠ .methodPost) (icon : s.fileName = text "favicon.ico") :
    produced s k = .ok (replyStart (keepAliveRequested s.headers) ++
      replyEnd (text "image/png") favicon.length ++ favicon) := by
  obtain ⟨fileType, -, answered⟩ := analysisRequest_eq asks
  have hello : s.fileName ≠ text "hello" := by
    rw [icon]
    decide
  rw [produced_of ((answered k).trans ((if_neg hello).trans (if_pos icon))) rfl, replies_singleton]
  rfl

/-- The header part of the reply to a request for a file. -/
def fileHead (s : HttpData) (fileType : Bytes) (size : Nat) : Bytes :=
  replyStart (keepAliveRequested s.headers) ++ replyEnd fileType size

/-- What a request for a file is answered. -/
theorem produced_file {fileType : Bytes} (asks : s.method ≠ .methodPost)
    (typed : fileTypeOf s.fileName = .ok fileType) (hello : s.fileName ≠ text "hello")
    (icon : s.fileName ≠ text "favicon.ico") :
    produced s k = .ok (match (k.lookup (cstr s.fileName)).1.stSize with
      | none => errorBytes 404 (text "Not Found!")
      | some size =>
          if s.method = .methodHead then s.fileHead fileType size
          else match (k.lookup (cstr s.fileName)).1.mapped with
            | none => errorBytes 404 (text "Not Found!")
            | some body => s.fileHead fileType size ++ (body ++ text "\r\n")) := by
  obtain ⟨fileType', typed', answered⟩ := analysisRequest_eq asks
  obtain rfl := Except.ok.inj (typed'.symm.trans typed)
  have file := (answered k).trans ((if_neg hello).trans (if_neg icon))
  unfold analysisFile at file
  dsimp only at file
  cases size : (k.lookup (cstr s.fileName)).1.stSize with
  | none =>
      rw [size] at file
      rw [produced_of file rfl, replies_singleton]
      rfl
  | some size' =>
      rw [size] at file
      dsimp only at file ⊢
      split_ifs at file ⊢ with head
      · rw [produced_of file rfl, replies_singleton]
        rfl
      cases mapped : (k.lookup (cstr s.fileName)).1.mapped with
      | none =>
          rw [mapped] at file
          rw [produced_of file (List.append_assoc ..), replies_append, replies_singleton,
            replies_singleton]
          rfl
      | some body =>
          rw [mapped] at file
          rw [produced_of file rfl, replies_singleton]
          exact congrArg Except.ok (List.append_assoc ..)

theorem produced_unmapped {fileType : Bytes} (get : s.method = .methodGet)
    (typed : fileTypeOf s.fileName = .ok fileType) (hello : s.fileName ≠ text "hello")
    (icon : s.fileName ≠ text "favicon.ico") (unmapped : (k.lookup (cstr s.fileName)).1.mapped = none) :
    produced s k = .ok (errorBytes 404 (text "Not Found!")) := by
  have not_head : ¬ s.method = .methodHead := by simp [get]
  rw [produced_file (by simp [get]) typed hello icon]
  cases (k.lookup (cstr s.fileName)).1.stSize with
  | none => rfl
  | some size =>
      dsimp only
      rw [if_neg not_head, unmapped]

theorem produced_mapped {fileType body : Bytes} (get : s.method = .methodGet)
    (typed : fileTypeOf s.fileName = .ok fileType) (hello : s.fileName ≠ text "hello")
    (icon : s.fileName ≠ text "favicon.ico")
    (mapped : (k.lookup (cstr s.fileName)).1.mapped = some body) :
    (k.lookup (cstr s.fileName)).1.stSize = some body.length ∧
      produced s k = .ok (s.fileHead fileType body.length ++ (body ++ text "\r\n")) := by
  have not_head : ¬ s.method = .methodHead := by simp [get]
  have size : (k.lookup (cstr s.fileName)).1.stSize = some body.length := by
    cases view : (k.lookup (cstr s.fileName)).1 with
    | missing | unreadable | unmappable => simp [view, FileView.mapped] at mapped
    | regular content =>
        simp only [view, FileView.mapped] at mapped
        split_ifs at mapped
        cases mapped
        rfl
  refine ⟨size, ?_⟩
  rw [produced_file (by simp [get]) typed hello icon, size]
  dsimp only
  rw [if_neg not_head, mapped]

theorem produced_sized {fileType : Bytes} {size : Nat} (head : s.method = .methodHead)
    (typed : fileTypeOf s.fileName = .ok fileType) (hello : s.fileName ≠ text "hello")
    (icon : s.fileName ≠ text "favicon.ico")
    (sized : (k.lookup (cstr s.fileName)).1.stSize = some size) :
    produced s k = .ok (s.fileHead fileType size) := by
  rw [produced_file (by simp [head]) typed hello icon, sized]
  exact congrArg Except.ok (if_pos head)

/-- What is produced for `HEAD` is the status line and the header lines of what is produced for
    `GET`. -/
def HeadMirrors (s : HttpData) (k : Kernel) : Prop :=
  ∃ whole head rest, produced (s.withMethod .methodGet) k = .ok whole ∧
    parseHead whole = some (head, rest) ∧ produced (s.withMethod .methodHead) k = .ok head.bytes

/-- The built-in resources are sent whole. -/
theorem headMirrors_builtIn (builtIn : s.fileName = text "hello" ∨ s.fileName = text "favicon.ico") :
    ¬ HeadMirrors s k := by
  rintro ⟨whole, head, rest, get, parsed, mirrored⟩
  have asksGet : (s.withMethod .methodGet).method ≠ .methodPost := nofun
  have asksHead : (s.withMethod .methodHead).method ≠ .methodPost := nofun
  -- Both methods get the same bytes, so the head would have nothing behind it.
  have same : whole = head.bytes := by
    rcases builtIn with hello | icon
    · have whole_eq := (produced_hello asksGet hello).symm.trans get
      exact Except.ok.inj (whole_eq.symm.trans ((produced_hello asksHead hello).symm.trans mirrored))
    · have whole_eq := (produced_icon asksGet icon).symm.trans get
      exact Except.ok.inj (whole_eq.symm.trans ((produced_icon asksHead icon).symm.trans mirrored))
  have nothing : rest = [] := by
    have written := parseHead_sound parsed
    rw [same] at written
    exact (List.append_right_eq_self.mp written.symm)
  rw [nothing] at parsed
  rcases builtIn with hello | icon
  · have body : (parseHead echoReply).map Prod.snd = some (text "Hello World") := by decide
    rw [Except.ok.inj ((produced_hello asksGet hello).symm.trans get), parsed] at body
    have some_bytes : ([] : Bytes) ≠ text "Hello World" := by decide
    exact some_bytes (Option.some.inj body)
  · have spelled := Except.ok.inj ((produced_icon asksGet icon).symm.trans get)
    have typed : CR ∉ text "image/png" := by decide
    have body := parseHead_reply (keepAliveRequested s.headers) typed favicon.length favicon
    rw [← spelled] at parsed
    have sent := body.symm.trans parsed
    exact absurd (congrArg Prod.snd (Option.some.inj sent)) (List.cons_ne_nil _ _)

/-- A `HEAD` mirrors the `GET` exactly for files that can be opened and mapped. -/
theorem headMirrors_iff (s : HttpData) (k : Kernel) :
    HeadMirrors s k ↔ s.fileName ≠ text "hello" ∧ s.fileName ≠ text "favicon.ico" ∧
      (k.lookup (cstr s.fileName)).1.mapped ≠ none := by
  obtain ⟨fileType, typed⟩ := fileTypeOf_returns s.fileName
  have get : (s.withMethod .methodGet).method = .methodGet := rfl
  have head : (s.withMethod .methodHead).method = .methodHead := rfl
  constructor
  · intro mirrors
    have hello : s.fileName ≠ text "hello" := fun hello => headMirrors_builtIn (.inl hello) mirrors
    have icon : s.fileName ≠ text "favicon.ico" := fun icon => headMirrors_builtIn (.inr icon) mirrors
    refine ⟨hello, icon, fun unmapped => ?_⟩
    obtain ⟨whole, head, rest, answered, parsed, -⟩ := mirrors
    have refused := (produced_unmapped get typed hello icon unmapped).symm.trans answered
    rw [← Except.ok.inj refused, errorBytes_headless 404 (by decide)] at parsed
    cases parsed
  · rintro ⟨hello, icon, readable⟩
    obtain ⟨body, mapped⟩ := Option.ne_none_iff_exists'.mp readable
    obtain ⟨sized, answered⟩ := produced_mapped get typed hello icon mapped
    have mirrored := produced_sized head typed hello icon sized
    let replied := replyHead (keepAliveRequested s.headers) (fileTypeOf_no_cr typed) body.length
    have written : replied.bytes = s.fileHead fileType body.length := replyHead_bytes ..
    refine ⟨_, replied, body ++ text "\r\n", answered, parseHead_reply .., ?_⟩
    rw [written]
    exact mirrored

/-- A `HEAD` of the echo resource is sent its body. -/
theorem head_with_body : ¬ HeadMirrors { new 5 with fileName := text "hello" }
    (steady (fun _ => .missing) [] [] []) := headMirrors_builtIn (.inl rfl)

end HttpData

end WebServer
