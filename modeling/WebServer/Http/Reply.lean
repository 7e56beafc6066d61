import WebServer.Http.State
import WebServer.Kernel

/-! # Replies

`AnalysisRequest` queues the reply of a parsed request, `HandleError` writes an error reply past
`out_buffer_`, and `HandleWrite` sends what is queued.
-/

namespace WebServer

open Lib

/-- The server's icon. -/
def favicon : Bytes :=
  [137, 80, 78, 71, 13, 10, 26, 10, 0, 0, 0, 13, 73, 72, 68, 82, 0, 0, 0, 16, 0, 0, 0, 16, 8, 6,
   0, 0, 0, 31, 243, 255, 97, 0, 0, 0, 25, 116, 69, 88, 116, 83, 111, 102, 116, 119, 97, 114, 101,
   0, 65, 100, 111, 98, 101, 32, 73, 109, 97, 103, 101, 82, 101, 97, 100, 121, 113, 201, 101, 60,
   0, 0, 1, 205, 73, 68, 65, 84, 120, 218, 148, 147, 57, 72, 3, 65, 20, 134, 255, 93, 98, 167, 4,
   82, 196, 109, 34, 30, 160, 70, 36, 8, 22, 22, 118, 10, 54, 186, 74, 154, 128, 8, 65, 180, 113,
   133, 88, 137, 71, 176, 73, 169, 81, 36, 205, 166, 8, 164, 72, 99, 145, 66, 11, 175, 86, 193,
   70, 180, 21, 207, 34, 88, 152, 11, 84, 72, 138, 100, 147, 141, 251, 70, 103, 201, 26, 20, 125,
   240, 102, 118, 102, 223, 124, 239, 231, 103, 70, 168, 213, 106, 72, 36, 18, 42, 0, 5, 191, 71,
   212, 239, 247, 47, 54, 236, 18, 32, 30, 143, 215, 170, 213, 234, 175, 73, 53, 70, 170, 84, 95,
   159, 34, 65, 42, 149, 10, 131, 229, 114, 57, 100, 179, 89, 150, 153, 76, 6, 233, 116, 154, 37,
   133, 44, 203, 84, 167, 196, 98, 49, 181, 94, 0, 3, 104, 154, 198, 22, 130, 32, 88, 82, 20, 69,
   54, 83, 148, 203, 101, 120, 189, 94, 170, 85, 84, 35, 76, 192, 224, 226, 193, 143, 0, 158, 188,
   9, 65, 124, 62, 31, 131, 68, 34, 17, 213, 84, 64, 63, 56, 128, 119, 229, 51, 7, 184, 92, 46,
   72, 146, 4, 135, 195, 129, 64, 32, 64, 103, 152, 233, 54, 26, 166, 103, 21, 4, 227, 215, 200,
   189, 21, 225, 105, 183, 67, 171, 234, 120, 47, 106, 88, 146, 187, 24, 32, 159, 207, 51, 195,
   184, 233, 78, 167, 211, 108, 74, 0, 105, 54, 124, 142, 225, 254, 86, 132, 231, 60, 159, 114,
   43, 58, 66, 123, 55, 102, 119, 174, 142, 14, 243, 189, 82, 169, 100, 2, 66, 175, 133, 50, 102,
   70, 186, 12, 217, 159, 29, 154, 108, 34, 230, 199, 58, 44, 128, 239, 193, 21, 144, 7, 147, 162,
   40, 160, 83, 106, 177, 184, 223, 41, 53, 67, 14, 63, 88, 252, 152, 218, 121, 106, 80, 64, 0,
   135, 174, 27, 23, 66, 180, 58, 63, 190, 121, 199, 10, 38, 182, 238, 217, 154, 96, 20, 147, 219,
   143, 13, 10, 46, 233, 35, 149, 41, 88, 0, 39, 235, 110, 86, 112, 188, 214, 203, 214, 71, 171,
   61, 108, 125, 184, 210, 221, 160, 96, 131, 186, 239, 95, 164, 234, 204, 2, 78, 174, 94, 112,
   26, 236, 179, 64, 57, 172, 254, 242, 145, 137, 103, 145, 133, 33, 168, 135, 183, 88, 126, 126,
   133, 187, 205, 78, 78, 98, 116, 64, 250, 147, 137, 236, 30, 236, 134, 2, 72, 38, 147, 208, 117,
   29, 127, 9, 50, 149, 191, 31, 219, 215, 99, 138, 26, 247, 92, 193, 255, 34, 74, 195, 135, 0, 3,
   0, 75, 187, 248, 214, 42, 118, 152, 73, 0, 0, 0, 0, 73, 69, 78, 68, 174, 66, 96, 130]

/-- The table that `MimeType::Init` fills. -/
def mime : List (Bytes × Bytes) :=
  [(text ".html", text "text/html"),
   (text ".avi", text "video/x-msvideo"),
   (text ".bmp", text "image/bmp"),
   (text ".c", text "text/plain"),
   (text ".doc", text "application/msword"),
   (text ".gif", text "image/gif"),
   (text ".gz", text "application/x-gzip"),
   (text ".htm", text "text/html"),
   (text ".ico", text "image/x-icon"),
   (text ".jpg", text "image/jpeg"),
   (text ".png", text "image/png"),
   (text ".txt", text "text/plain"),
   (text ".mp3", text "audio/mp3"),
   (text "default", text "text/html")]

/-- `MimeType::GetMime`. -/
def getMime (suffix : Bytes) : Bytes :=
  match mime.lookup suffix with
  | some type => type
  | none => (mime.lookup (text "default")).getD []

namespace HttpData

/-- The bytes of an error reply: its header part and its body, as `HandleError` builds them. -/
def errorReply (errNum : Nat) (shortMsg : Bytes) : Bytes × Bytes :=
  let shortMsg := text " " ++ shortMsg
  let bodyBuff := text "\n哎~出错了\n" ++ (decimal errNum ++ shortMsg) ++
    text "\nLicheng Jiang's Web Server\n"
  let headerBuff := text "HTTP/1.1 " ++ decimal errNum ++ shortMsg ++ text "\r\n" ++
    text "Content-Type: text/html\r\n" ++ text "Connection: Close\r\n" ++
    text "Content-Length: " ++ decimal bodyBuff.length ++ text "\r\n" ++
    text "Server: Licheng Jiang's Web Server"
  (cstr headerBuff, cstr bodyBuff)

/-- `HandleError`: two direct writes, whose results are ignored. -/
def handleError (errNum : Nat) (shortMsg : Bytes) (s : HttpData) (k : Kernel) :
    HttpData × Kernel :=
  let (headerBuff, bodyBuff) := errorReply errNum shortMsg
  let (first, k) := k.write headerBuff
  let (second, k) := k.write bodyBuff
  let complete := first.left.isEmpty && second.left.isEmpty
  ({ s with history := s.history ++ [.direct (headerBuff ++ bodyBuff) s.outBuffer complete] }, k)

/-- `HandleWrite`. -/
def handleWrite (s : HttpData) (k : Kernel) : HttpData × Kernel :=
  if !s.error && s.connectionState ≠ .hDisconnected then
    let (writeSum, outBuffer, k) := writeN k s.outBuffer
    let s : HttpData := { s with outBuffer }
    let s := if writeSum < 0 then { s.setEvents 0#32 with error := true } else s
    (if s.outBuffer.length > 0 then s.addEvents EPOLLOUT else s, k)
  else (s, k)

/-- The request asks to keep the connection. -/
def keepAliveRequested (headers : HeaderMap) : Bool :=
  match headers (text "Connection") with
  | some value => value == text "Keep-Alive" || value == text "Keep-alive"
  | none => false

/-- The start of the header part, up to the lines that depend on the resource. -/
def replyStart (keepAlive : Bool) : Bytes :=
  text "HTTP/1.1 200 OK\r\n" ++
    if keepAlive then
      text "Connection: Keep-Alive\r\n" ++ text "Keep-Alive: timeout=" ++
        decimal kDefaultKeepAliveTime ++ text "\r\n"
    else []

theorem replyStart_ne_nil (keepAlive : Bool) (rest : Bytes) : replyStart keepAlive ++ rest ≠ [] := by
  have some_bytes : text "HTTP/1.1 200 OK\r\n" ≠ [] := by decide
  unfold replyStart
  simp [some_bytes]

/-- The lines of the header part that depend on the resource, and the blank line. -/
def replyEnd (fileType : Bytes) (length : Nat) : Bytes :=
  text "Content-Type: " ++ fileType ++ text "\r\n" ++
    text "Content-Length: " ++ decimal length ++ text "\r\n" ++
    text "Server: Licheng Jiang's Web Server\r\n" ++ text "\r\n"

/-- The reply to a request for `hello`. -/
def echoReply : Bytes :=
  text "HTTP/1.1 200 OK\r\nContent-type: text/plain\r\n\r\nHello World"

/-- The type of a file, by the part of its name from the first dot on. -/
def fileTypeOf (fileName : Bytes) : Except Fault Bytes :=
  let dotPos := toInt (find fileName [DOT] 0)
  if dotPos < 0 then .ok (getMime (text "default"))
  else do
    let suffix ← substr fileName (sizeT dotPos) npos
    .ok (getMime suffix)

theorem fileTypeOf_returns (fileName : Bytes) : ∃ fileType, fileTypeOf fileName = .ok fileType := by
  simp only [fileTypeOf]
  split_ifs with missing
  · exact ⟨_, rfl⟩
  · rcases find_cases fileName [DOT] 0 with absent | ⟨-, inside⟩
    · simp [absent] at missing
    · have inside := inside (List.cons_ne_nil _ _)
      have below := toInt_le (find fileName [DOT] 0)
      have high : toInt (find fileName [DOT] 0) < 2 ^ 31 := by
        simp only [toInt]
        split <;> omega
      have position : sizeT (toInt (find fileName [DOT] 0)) ≤ fileName.length := by
        simp only [sizeT, List.length_singleton] at inside ⊢
        omega
      rw [substr_of_le npos position]
      exact ⟨_, rfl⟩

/-- Queue a reply by `out_buffer_ += reply`. -/
def append (reply : Bytes) (s : HttpData) : HttpData :=
  { s with outBuffer := s.outBuffer ++ reply, history := s.history ++ [.appended reply] }

/-- Queue a reply by `out_buffer_ = reply`. -/
def assign (reply : Bytes) (s : HttpData) : HttpData :=
  { s with outBuffer := reply, history := s.history ++ [.assigned reply s.outBuffer] }

/-- `out_buffer_.clear()`, after a header part was queued behind what `s` still had unsent. -/
def clearOutput (s : HttpData) : HttpData :=
  { s with outBuffer := [], history := s.history ++ [.cleared s.outBuffer] }

/-- The answer to a `GET` or `HEAD` request that names neither built-in resource. -/
def analysisFile (header fileType : Bytes) (s : HttpData) (k : Kernel) :
    AnalysisState × HttpData × Kernel :=
  let (view, k) := k.lookup (cstr s.fileName)
  match view.stSize with
  | none => (.analysisError, handleError 404 (text "Not Found!") s k)
  | some size =>
      let header := header ++ replyEnd fileType size
      if s.method = .methodHead then (.analysisSuccess, s.append header, k)
      else
        match view.mapped with
        | none => (.analysisError, handleError 404 (text "Not Found!") s.clearOutput k)
        | some body => (.analysisSuccess, s.append (header ++ body ++ text "\r\n"), k)

/-- `AnalysisRequest`. -/
def analysisRequest (s : HttpData) (k : Kernel) :
    Except Fault (AnalysisState × HttpData × Kernel) :=
  match s.method with
  | .methodPost => .ok (.analysisError, s, k)
  | .methodGet | .methodHead => do
      let keep := keepAliveRequested s.headers
      let s := if keep then { s with keepAlive := true } else s
      let header := replyStart keep
      let fileType ← fileTypeOf s.fileName
      if s.fileName = text "hello" then .ok (.analysisSuccess, s.assign echoReply, k)
      else if s.fileName = text "favicon.ico" then
        .ok (.analysisSuccess,
          s.append (header ++ replyEnd (text "image/png") favicon.length ++ favicon), k)
      else .ok (analysisFile header fileType s k)

theorem analysisRequest_post {s : HttpData} (post : s.method = .methodPost) (k : Kernel) :
    analysisRequest s k = .ok (.analysisError, s, k) := by
  unfold analysisRequest
  rw [post]

/-- A `GET` or `HEAD` request is answered by the name of its resource. -/
theorem analysisRequest_eq {s : HttpData} (asks : s.method ≠ .methodPost) :
    ∃ fileType, fileTypeOf s.fileName = .ok fileType ∧ ∀ k, analysisRequest s k =
      let t := { s with keepAlive := s.keepAlive || keepAliveRequested s.headers }
      let header := replyStart (keepAliveRequested s.headers)
      if s.fileName = text "hello" then .ok (.analysisSuccess, t.assign echoReply, k)
      else if s.fileName = text "favicon.ico" then
        .ok (.analysisSuccess,
          t.append (header ++ replyEnd (text "image/png") favicon.length ++ favicon), k)
      else .ok (analysisFile header fileType t k) := by
  obtain ⟨fileType, typed⟩ := fileTypeOf_returns s.fileName
  refine ⟨fileType, typed, fun k => ?_⟩
  have kept : (if keepAliveRequested s.headers = true then { s with keepAlive := true } else s) =
      { s with keepAlive := s.keepAlive || keepAliveRequested s.headers } := by
    cases keepAliveRequested s.headers <;> simp
  unfold analysisRequest
  cases method : s.method with
  | methodPost => exact absurd method asks
  | methodGet | methodHead =>
      dsimp only
      rw [← method, kept]
      simp only [typed, bind, Except.bind]

end HttpData

end WebServer
