import Mathlib.Logic.Function.Basic
import WebServer.Channel

/-! # The state of one connection

`HttpData` with the members its handlers read. Two members are not in the source: `cleared`
collects the timer nodes on which a handler called `ClearReq`, for the event loop to apply, and
`history` is a ghost that records what was produced for the peer.
-/

namespace WebServer

open Lib

inductive ProcessState where
  | stateParseUri
  | stateParseHeaders
  | stateRecvBody
  | stateAnalysis
  | stateFinish
  deriving Repr, DecidableEq

inductive UriState where
  | parseUriAgain
  | parseUriError
  | parseUriSuccess
  deriving Repr, DecidableEq

inductive HeaderState where
  | parseHeaderSuccess
  | parseHeaderAgain
  | parseHeaderError
  deriving Repr, DecidableEq

inductive AnalysisState where
  | analysisSuccess
  | analysisError
  deriving Repr, DecidableEq

inductive ParseState where
  | hStart
  | hKey
  | hColon
  | hSpacesAfterColon
  | hValue
  | hCr
  | hLf
  | hEndCr
  | hEndLf
  deriving Repr, DecidableEq

inductive ConnectionState where
  | hConnected
  | hDisconnecting
  | hDisconnected
  deriving Repr, DecidableEq

inductive HttpMethod where
  | methodPost
  | methodGet
  | methodHead
  deriving Repr, DecidableEq

inductive HttpVersion where
  | http10
  | http11
  deriving Repr, DecidableEq

/-- `std::map<string, string>`, read through `find` and `operator[]` only. -/
abbrev HeaderMap := Bytes → Option Bytes

/-- One way bytes for the peer were produced or given up. `unsent` is what earlier replies still
    had in `out_buffer_` at that moment. -/
inductive Output where
  /-- A reply was appended to `out_buffer_`. -/
  | appended (reply : Bytes)
  /-- A reply was assigned to `out_buffer_`. -/
  | assigned (reply unsent : Bytes)
  /-- `out_buffer_` was cleared. -/
  | cleared (unsent : Bytes)
  /-- A reply was written past `out_buffer_`; `complete` tells whether all of it was accepted. -/
  | direct (reply unsent : Bytes) (complete : Bool)
  deriving Repr, DecidableEq

structure HttpData where
  channel : Channel
  fd : Nat
  inBuffer : Bytes
  outBuffer : Bytes
  error : Bool
  connectionState : ConnectionState
  method : HttpMethod
  httpVersion : HttpVersion
  fileName : Bytes
  nowReadPos : Nat
  state : ProcessState
  hState : ParseState
  keepAlive : Bool
  headers : HeaderMap
  /-- The node that `timer_.lock()` yields. -/
  timer : Option Nat
  cleared : List Nat
  history : List Output

def kDefaultEvent : Mask := EPOLLIN ||| EPOLLET ||| EPOLLONESHOT

/-- In milliseconds. -/
def kDefaultExpiredTime : Nat := 2000

/-- In milliseconds. -/
def kDefaultKeepAliveTime : Nat := 5 * 60 * 1000

def CR : UInt8 := 13
def LF : UInt8 := 10
def COLON : UInt8 := 58
def SPACE : UInt8 := 32
def SLASH : UInt8 := 47
def QUESTION : UInt8 := 63
def DOT : UInt8 := 46

namespace HttpData

/-- `HttpData(loop, connfd)`. -/
def new (connfd : Nat) : HttpData where
  channel := Channel.new connfd
  fd := connfd
  inBuffer := []
  outBuffer := []
  error := false
  connectionState := .hConnected
  method := .methodGet
  httpVersion := .http11
  fileName := []
  nowReadPos := 0
  state := .stateParseUri
  hState := .hStart
  keepAlive := false
  headers := fun _ => none
  timer := none
  cleared := []
  history := []

/-- `SeperateTimer`: neutralise the node the connection is linked to, if it still exists. -/
def seperateTimer (s : HttpData) : HttpData :=
  { s with timer := none, cleared := s.cleared ++ s.timer.toList }

/-- `Reset`. -/
def reset (s : HttpData) : HttpData :=
  { s.seperateTimer with
    fileName := []
    nowReadPos := 0
    state := .stateParseUri
    hState := .hStart
    headers := fun _ => none }

/-- Set `events_` of the connection's channel. -/
def setEvents (events : Mask) (s : HttpData) : HttpData :=
  { s with channel := { s.channel with events } }

/-- `events |= flag`. -/
def addEvents (flag : Mask) (s : HttpData) : HttpData :=
  s.setEvents (s.channel.events ||| flag)

end HttpData

end WebServer
