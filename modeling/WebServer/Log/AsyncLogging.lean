import Mathlib.Logic.Function.Basic
import WebServer.Lib.ByteString
import WebServer.Lib.RecordStream
import WebServer.Lib.Transition

/-! # Asynchronous logging

Producers fill `current_buffer_` under the mutex; the logging thread swaps the filled buffers out
and writes them without it. Each critical section is one step, so the order of the `append` steps is
the order in which `Append` acquires the lock, and `cond_.WaitForSeconds` may return at any time.

A buffer is known by its address. Beside its bytes a ghost keeps the positions of the records it
holds, so that reused buffers and equal records stay apart.
-/

namespace WebServer

open Lib

def kLargeBuffer : Nat := 4000 * 1000

/-- `FixedBuffer<SIZE>`, by the bytes between `data_` and `cur_`. -/
structure FixedBuffer (size : Nat) where
  data : Bytes
  fits : data.length ≤ size

namespace FixedBuffer

variable {size : Nat}

/-- A buffer after its constructor or `Reset`. -/
def empty : FixedBuffer size := ⟨[], Nat.zero_le _⟩

/-- `Avail`. -/
def avail (b : FixedBuffer size) : Nat := size - b.data.length

/-- `Append`: a string that does not fit is dropped. -/
def append (b : FixedBuffer size) (buf : Bytes) : FixedBuffer size :=
  if room : buf.length < b.avail then
    ⟨b.data ++ buf, by
      rw [List.length_append]
      simp only [avail] at room
      omega⟩
  else b

theorem append_data {b : FixedBuffer size} {buf : Bytes} (room : buf.length < b.avail) :
    (b.append buf).data = b.data ++ buf := by
  rw [append, dif_pos room]

end FixedBuffer

abbrev Buffer := FixedBuffer kLargeBuffer

/-- The address of a buffer. -/
abbrev BufferPtr := Nat

/-- Where the logging thread stands in `ThreadFunc`. -/
inductive ThreadFuncPc where
  /-- Before its own two buffers are allocated. -/
  | boot
  /-- Before `while (running_)`. -/
  | test
  /-- Before the mutex is acquired. -/
  | lock
  /-- In `cond_.WaitForSeconds`, without the mutex. -/
  | wait
  /-- After the swap. -/
  | trim
  /-- In the loop that writes, at index `i`. -/
  | write (i : Nat)
  /-- After that loop. -/
  | recycle
  /-- The thread has ended. -/
  | done
  deriving Repr, DecidableEq

/-- A swap that found too many buffers, and the positions of the records it erased. -/
structure Erasure where
  found : Nat
  records : List Nat
  deriving Repr, DecidableEq

/-- `AsyncLogging` with the locals of `ThreadFunc`. -/
structure AsyncLogging where
  running : Bool
  heap : BufferPtr → Buffer
  /-- Every address from here on is unused. -/
  unused : BufferPtr
  currentBuffer : Option BufferPtr
  nextBuffer : Option BufferPtr
  buffers : List BufferPtr
  newBuffer1 : Option BufferPtr
  newBuffer2 : Option BufferPtr
  buffersToWrite : List BufferPtr
  /-- The bytes handed to `LogFile::Append`. -/
  output : Bytes
  pc : ThreadFuncPc
  /-- Ghost: the records appended, in the order in which `Append` acquired the lock. -/
  log : List Bytes
  /-- Ghost: the positions of the records each buffer holds. -/
  held : BufferPtr → List Nat
  /-- Ghost: the positions of the records handed to `LogFile::Append`. -/
  written : List Nat
  erasures : List Erasure

/-- A step of a producer, of the logging thread or of the thread that calls `Stop`. -/
inductive LogAction where
  | append (logline : Bytes)
  | thread
  | stop
  deriving Repr, DecidableEq

namespace AsyncLogging

/-- After the constructor and `Start`. -/
def started : AsyncLogging where
  running := true
  heap := fun _ => .empty
  unused := 2
  currentBuffer := some 0
  nextBuffer := some 1
  buffers := []
  newBuffer1 := none
  newBuffer2 := none
  buffersToWrite := []
  output := []
  pc := .boot
  log := []
  held := fun _ => []
  written := []
  erasures := []

/-- `buffer->Append(logline, len)`, which the ghost follows. -/
def store (s : AsyncLogging) (buffer : BufferPtr) (logline : Bytes) : AsyncLogging :=
  { s with
    heap := Function.update s.heap buffer ((s.heap buffer).append logline)
    held := if logline.length < (s.heap buffer).avail
      then Function.update s.held buffer (s.held buffer ++ [s.log.length]) else s.held
    log := s.log ++ [logline] }

/-- `new Buffer`. -/
def allocate (s : AsyncLogging) : BufferPtr × AsyncLogging :=
  (s.unused,
    { s with
      unused := s.unused + 1
      heap := Function.update s.heap s.unused .empty
      held := Function.update s.held s.unused [] })

/-- `buffer->Reset()`. -/
def resetBuffer (s : AsyncLogging) (buffer : BufferPtr) : AsyncLogging :=
  { s with
    heap := Function.update s.heap buffer .empty
    held := Function.update s.held buffer [] }

/-- `Append`. Without a current buffer it would follow a null pointer. -/
def append (s : AsyncLogging) (logline : Bytes) : Option AsyncLogging :=
  match s.currentBuffer with
  | none => none
  | some current =>
      if logline.length < (s.heap current).avail then some (s.store current logline)
      else
        let s := { s with buffers := s.buffers ++ [current], currentBuffer := none }
        match s.nextBuffer with
        | some next =>
            some ({ s with currentBuffer := some next, nextBuffer := none }.store next logline)
        | none =>
            let (new, s) := s.allocate
            some ({ s with currentBuffer := some new }.store new logline)

/-- `Stop` up to `Join`. The destructor calls it only while `running_` is set. -/
def stop (s : AsyncLogging) : Option AsyncLogging :=
  if s.running then some { s with running := false } else none

/-- The rest of the critical section of `ThreadFunc`, after the test of `buffers_`. -/
def swap (s : AsyncLogging) : Option AsyncLogging :=
  match s.currentBuffer with
  | none => none
  | some current =>
      let s := { s with
        currentBuffer := s.newBuffer1
        newBuffer1 := none
        buffersToWrite := s.buffers ++ [current]
        buffers := s.buffersToWrite
        pc := .trim }
      match s.nextBuffer with
      | some _ => some s
      | none => some { s with nextBuffer := s.newBuffer2, newBuffer2 := none }

/-- Erase what exceeds two buffers, when more than 25 are to be written. -/
def trim (s : AsyncLogging) : AsyncLogging :=
  if s.buffersToWrite.length > 25 then
    { s with
      buffersToWrite := s.buffersToWrite.take 2
      erasures := s.erasures ++
        [⟨s.buffersToWrite.length, (s.buffersToWrite.drop 2).flatMap s.held⟩]
      pc := .write 0 }
  else { s with pc := .write 0 }

/-- `output.Append(buffers_to_write[i]->data(), buffers_to_write[i]->length())`. -/
def writeBuffer (s : AsyncLogging) (buffer : BufferPtr) : AsyncLogging :=
  { s with
    output := s.output ++ (s.heap buffer).data
    written := s.written ++ s.held buffer }

/-- `buffers_to_write.back()`, taken off and reset. -/
def takeBack (s : AsyncLogging) : Option (BufferPtr × AsyncLogging) :=
  s.buffersToWrite.getLast?.map fun back =>
    (back, { s with buffersToWrite := s.buffersToWrite.dropLast }.resetBuffer back)

def refill1 (s : AsyncLogging) : Option AsyncLogging :=
  match s.newBuffer1 with
  | some _ => some s
  | none => s.takeBack.map fun (back, s) => { s with newBuffer1 := some back }

def refill2 (s : AsyncLogging) : Option AsyncLogging :=
  match s.newBuffer2 with
  | some _ => some s
  | none => s.takeBack.map fun (back, s) => { s with newBuffer2 := some back }

/-- From `resize` to the end of the loop body; refilling from no buffer fails an assertion. -/
def recycle (s : AsyncLogging) : Option AsyncLogging :=
  let s := { s with buffersToWrite := s.buffersToWrite.take 2 }
  (s.refill1.bind refill2).map fun s => { s with buffersToWrite := [], pc := .test }

/-- The next step of `ThreadFunc`. -/
def threadFunc (s : AsyncLogging) : Option AsyncLogging :=
  match s.pc with
  | .boot =>
      let (new1, s) := s.allocate
      let (new2, s) := s.allocate
      some { s with newBuffer1 := some new1, newBuffer2 := some new2, pc := .test }
  | .test => some { s with pc := if s.running then .lock else .done }
  | .lock => if s.buffers.isEmpty then some { s with pc := .wait } else s.swap
  | .wait => s.swap
  | .trim => some s.trim
  | .write i =>
      match s.buffersToWrite[i]? with
      | some buffer => some { s.writeBuffer buffer with pc := .write (i + 1) }
      | none => some { s with pc := .recycle }
  | .recycle => s.recycle
  | .done => none

def step (s : AsyncLogging) : LogAction → Option AsyncLogging
  | .append logline => s.append logline
  | .thread => s.threadFunc
  | .stop => s.stop

/-- The buffers that are swapped out and not yet written. -/
def swappedOut (s : AsyncLogging) : List BufferPtr :=
  match s.pc with
  | .write i => s.buffersToWrite.drop i
  | .recycle => []
  | _ => s.buffersToWrite

/-- The buffers that producers have filled or are filling. -/
def filling (s : AsyncLogging) : List BufferPtr := s.buffers ++ s.currentBuffer.toList

/-- The buffers not yet written, in order. -/
def unwritten (s : AsyncLogging) : List BufferPtr := s.swappedOut ++ s.filling

/-- The positions of the records erased. -/
def erased (s : AsyncLogging) : List Nat := s.erasures.flatMap Erasure.records

/-- The records on their way to the file. -/
def stream (s : AsyncLogging) : RecordStream Bytes where
  log := s.log
  delivered := s.written
  pending := s.unwritten.flatMap s.held
  lost := s.erased

end AsyncLogging

/-- The logger, with any number of producers. -/
def asyncLogging : System AsyncLogging LogAction where
  init s := s = AsyncLogging.started
  step := AsyncLogging.step

end WebServer
