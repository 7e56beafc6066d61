import WebServer.Http.Partial
import WebServer.Http.RequestLine
import WebServer.Http.Verdict

/-! # The body of a `POST`

`HandleRead` compares `Content-length` with the size of `in_buffer_`. That is the number of body bytes
received when the chunk that ends the header part ends with it; otherwise `ParseHeaders` has taken the
first byte of the body, and the request waits for one byte too many.
-/

namespace WebServer

open Lib

/-- A `POST` request whose header part tells the length of its body. -/
structure PostRequest where
  target : Bytes
  httpVersion : HttpVersion
  first : Field
  others : List Field
  body : Bytes
  oneWord : SPACE ∉ target ∧ CR ∉ target
  /-- The header part is below the size where an `int` position overflows. -/
  short : (requestLine .methodPost target httpVersion).length +
    (headerSection (first :: others)).length + 2 < 2 ^ 31
  /-- A `std::string` can hold the body. -/
  sized : body.length < 2 ^ 62
  counted : storeFields (fun _ => none) (first :: others) (text "Content-length") =
    some (decimal body.length)

namespace PostRequest

def line (r : PostRequest) : Bytes := requestLine .methodPost r.target r.httpVersion

def fields (r : PostRequest) : List Field := r.first :: r.others

/-- The request up to its body. -/
def block (r : PostRequest) : Bytes := r.line ++ CR :: LF :: headerSection r.fields

/-- What the client sends. -/
def bytes (r : PostRequest) : Bytes := r.block ++ r.body

theorem line_no_cr (r : PostRequest) : CR ∉ r.line :=
  requestLine_no_cr .methodPost r.httpVersion r.oneWord.2

end PostRequest

namespace HttpData

variable {files : Bytes → FileView} {looked : List Bytes} {sent got : Bytes} {s : HttpData}
  {r : PostRequest}

/-- The request waits for its body, of which these bytes are counted. -/
structure Receiving (r : PostRequest) (got : Bytes) (s : HttpData) : Prop extends Ready s where
  state : s.state = .stateRecvBody
  method : s.method = .methodPost
  headers : s.headers (text "Content-length") = some (decimal r.body.length)
  inBuffer : s.inBuffer = got

/-- The call has seen as many bytes as the body has, or goes on waiting. -/
def Counts (r : PostRequest) (got : Bytes) (s : HttpData) : Prop :=
  if got.length < r.body.length then Receiving r got s
  else s.error = true ∧ s.state = .stateAnalysis

variable {fd : Nat} {first front : Bytes} {later : List Bytes}

end HttpData

end WebServer
