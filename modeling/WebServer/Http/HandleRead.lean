import WebServer.Http.ParseHeaders
import WebServer.Http.ParseUri
import WebServer.Http.Reply

/-! # `HandleRead`

The `do { ... } while (false)` block is a chain of stages, one for each `ProcessState`; a `break`
returns from the chain. `handleReadTurn` is one invocation without its recursive call, and says
whether that call is made.
-/

namespace WebServer.HttpData

open Lib

/-- What a handler leaves behind, unless it does not return. -/
abbrev Outcome := Except Fault (HttpData × Kernel)

/-- Set `error_` and write a `400` reply. -/
def badRequest (shortMsg : Bytes) (s : HttpData) (k : Kernel) : HttpData × Kernel :=
  handleError 400 shortMsg { s with error := true } k

def analysisStage (s : HttpData) (k : Kernel) : Outcome :=
  if s.state = .stateAnalysis then do
    let (flag, s, k) ← analysisRequest s k
    match flag with
    | .analysisSuccess => .ok ({ s with state := .stateFinish }, k)
    | .analysisError => .ok ({ s with error := true }, k)
  else .ok (s, k)

def bodyStage (s : HttpData) (k : Kernel) : Outcome :=
  if s.state = .stateRecvBody then
    match s.headers (text "Content-length") with
    | none => .ok (badRequest (text "Bad Request: Lack of argument (Content-length)") s k)
    | some value => do
        let contentLength ← stoi value
        if toInt s.inBuffer.length < contentLength then .ok (s, k)
        else analysisStage { s with state := .stateAnalysis } k
  else analysisStage s k

def headerStage (s : HttpData) (k : Kernel) : Outcome :=
  if s.state = .stateParseHeaders then do
    let (flag, s) ← parseHeaders s
    match flag with
    | .parseHeaderAgain => .ok (s, k)
    | .parseHeaderError => .ok (badRequest (text "Bad Request") s k)
    | .parseHeaderSuccess =>
        if s.method = .methodPost then bodyStage { s with state := .stateRecvBody } k
        else bodyStage { s with state := .stateAnalysis } k
  else bodyStage s k

def uriStage (s : HttpData) (k : Kernel) : Outcome :=
  if s.state = .stateParseUri then do
    let (flag, s) ← parseURI s
    match flag with
    | .parseUriAgain => .ok (s, k)
    | .parseUriError => .ok (badRequest (text "Bad Request") { s with inBuffer := [] } k)
    | .parseUriSuccess => headerStage { s with state := .stateParseHeaders } k
  else headerStage s k

/-- The whole block: `ReadN`, then the stages. -/
def receive (s : HttpData) (k : Kernel) : Outcome :=
  let r := readN k.reads 0 s.inBuffer
  let s := { s with inBuffer := r.inBuffer }
  let k := { k with reads := r.rest }
  if s.connectionState = .hDisconnecting then .ok ({ s with inBuffer := [] }, k)
  else if r.readNum < 0 then .ok (badRequest (text "Bad Request") s k)
  else if r.zero then
    let s := { s with connectionState := .hDisconnecting }
    if r.readNum = 0 then .ok (s, k) else uriStage s k
  else uriStage s k

/-- Send what is queued, as `HandleRead` does after its block. -/
def flush (s : HttpData) (k : Kernel) : HttpData × Kernel :=
  if s.outBuffer.length > 0 then handleWrite s k else (s, k)

/-- What `HandleRead` does after its block; the flag tells that it calls itself. -/
def settle (s : HttpData) (k : Kernel) : Bool × HttpData × Kernel :=
  if s.error then (false, s, k)
  else
    let (s, k) := flush s k
    if !s.error && s.state = .stateFinish then
      let s := s.reset
      (s.inBuffer.length > 0 && s.connectionState ≠ .hDisconnecting, s, k)
    else if !s.error && s.connectionState ≠ .hDisconnected then (false, s.addEvents EPOLLIN, k)
    else (false, s, k)

/-- One invocation of `HandleRead` up to its recursive call. -/
def handleReadTurn (s : HttpData) (k : Kernel) : Except Fault (Bool × HttpData × Kernel) :=
  (receive s k).map fun (s, k) => settle s k

/-- `HandleRead` with at most `depth` nested invocations. -/
def handleReadTo : (depth : Nat) → HttpData → Kernel → Outcome
  | 0, s, k => .ok (s, k)
  | depth + 1, s, k => do
      let (again, s, k) ← handleReadTurn s k
      if again then handleReadTo depth s k else .ok (s, k)

/-- More invocations than `HandleRead` can nest: each nested one starts with fewer bytes buffered
    or still to be read. Only an invocation that finds a request half parsed may take none. -/
def depthBound (s : HttpData) (k : Kernel) : Nat :=
  s.inBuffer.length + k.incoming +
    (if s.state = .stateParseUri ∧ s.hState = .hStart then 0 else 1) + 1

/-- `HandleRead`. -/
def handleRead (s : HttpData) (k : Kernel) : Outcome :=
  handleReadTo (depthBound s k) s k

theorem analysisStage_post {s : HttpData} (analysing : s.state = .stateAnalysis)
    (post : s.method = .methodPost) (k : Kernel) :
    analysisStage s k = .ok ({ s with error := true }, k) := by
  unfold analysisStage
  rw [if_pos analysing, analysisRequest_post post]
  rfl

end WebServer.HttpData
