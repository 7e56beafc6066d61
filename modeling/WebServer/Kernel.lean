import WebServer.Lib.ByteString

/-! # The socket and the file system seen by a connection

Results of `read`, `write`, `stat`, `open` and `mmap` are scripted: a connection's code can meet
any script. `ReadN` and `WriteN` are the loops of `util.cpp` over these scripts.
-/

namespace WebServer

open Lib

/-- One result of `read`: the bytes it stored (none at end of file) or its `errno`. -/
inductive ReadResult where
  | ok (bytes : Bytes)
  | eintr
  | eagain
  | fail
  deriving Repr, DecidableEq

/-- One result of `write`: the count the kernel is ready to accept or its `errno`. -/
inductive WriteResult where
  | ok (count : Nat)
  | eintr
  | eagain
  | fail
  deriving Repr, DecidableEq

/-- What `stat`, `open` and `mmap` answer for one path. -/
inductive FileView where
  /-- `stat` fails. -/
  | missing
  /-- `stat` gives a size and `open` fails. -/
  | unreadable (stSize : Nat)
  /-- `stat` and `open` succeed and `mmap` fails, as on a directory. -/
  | unmappable (stSize : Nat)
  /-- A readable regular file; mapping it fails when it is empty. -/
  | regular (content : Bytes)
  deriving Repr, DecidableEq

namespace FileView

/-- `s_buf.st_size`, when `stat` succeeds. -/
def stSize : FileView → Option Nat
  | missing => none
  | unreadable size | unmappable size => some size
  | regular content => some content.length

/-- The bytes `mmap` makes readable, when `open` and `mmap` succeed. -/
def mapped : FileView → Option Bytes
  | missing | unreadable _ | unmappable _ => none
  | regular content => if content.length = 0 then none else some content

end FileView

/-- The system-call results a connection still has to meet, and what it did so far. -/
structure Kernel where
  /-- Results of `read` to come; `EAGAIN` when used up. -/
  reads : List ReadResult
  /-- Results of `write` to come; everything is accepted when used up. -/
  writes : List WriteResult
  /-- The file system at the `n`-th lookup. -/
  files : Nat → Bytes → FileView
  /-- The paths looked up, oldest first. -/
  looked : List Bytes
  /-- The bytes the socket has accepted. -/
  sent : Bytes

namespace Kernel

/-- The bytes the reads to come can still deliver. -/
def incoming (k : Kernel) : Nat :=
  (k.reads.map fun | .ok bytes => bytes.length | _ => 0).sum

/-- Look a path up, as the `stat` of a request does. -/
def lookup (k : Kernel) (path : Bytes) : FileView × Kernel :=
  (k.files k.looked.length path, { k with looked := k.looked ++ [path] })

end Kernel

/-- The outcome of `ReadN`: its return value, `zero`, the buffer and the reads left. -/
structure ReadOutcome where
  readSum : Int
  zero : Bool
  inBuffer : Bytes
  rest : List ReadResult

/-- `int read_num = ReadN(...)`, which keeps the low 32 bits of a `ssize_t`. -/
def ReadOutcome.readNum (r : ReadOutcome) : Int := r.readSum.bmod (2 ^ 32)

/-- `ReadN(fd, in_buffer, zero)`: read until `EAGAIN`, end of file or an error. -/
def readN : List ReadResult → (readSum : Nat) → (inBuffer : Bytes) → ReadOutcome
  | [], readSum, inBuffer => ⟨readSum, false, inBuffer, []⟩
  | .ok bytes :: rest, readSum, inBuffer =>
      if bytes.length = 0 then ⟨readSum, true, inBuffer, rest⟩
      else readN rest (readSum + bytes.length) (inBuffer ++ bytes)
  | .eintr :: rest, readSum, inBuffer => readN rest readSum inBuffer
  | .eagain :: rest, readSum, inBuffer => ⟨readSum, false, inBuffer, rest⟩
  | .fail :: rest, _, inBuffer => ⟨-1, false, inBuffer, rest⟩

theorem readNum_of_lt {n : Nat} (small : n < 2 ^ 31) : (n : Int).bmod (2 ^ 32) = n :=
  Int.bmod_eq_of_le (by omega) (by omega)

/-- How a `WriteN` loop ends. -/
inductive WriteStop where
  | complete
  | again
  | failed
  deriving Repr, DecidableEq

/-- The state of a `WriteN` loop at its end: the bytes not accepted and the writes left. -/
structure WriteOutcome where
  stop : WriteStop
  left : Bytes
  rest : List WriteResult

/-- The loop shared by both `WriteN`s. -/
def writeLoop : List WriteResult → (left : Bytes) → WriteOutcome
  | rest, [] => ⟨.complete, [], rest⟩
  | [], _ :: _ => ⟨.complete, [], []⟩
  | .ok count :: rest, left => writeLoop rest (left.drop count)
  | .eintr :: rest, left => writeLoop rest left
  | .eagain :: rest, left => ⟨.again, left, rest⟩
  | .fail :: rest, left => ⟨.failed, left, rest⟩

/-- The bytes of `buff` the kernel accepted before the loop stopped. -/
def WriteOutcome.accepted (o : WriteOutcome) (buff : Bytes) : Bytes :=
  buff.take (buff.length - o.left.length)

/-- Record a finished write loop over `buff`. -/
def Kernel.write (k : Kernel) (buff : Bytes) : WriteOutcome × Kernel :=
  let o := writeLoop k.writes buff
  (o, { k with writes := o.rest, sent := k.sent ++ o.accepted buff })

/-- `WriteN(fd, s_buff)`: its result is negative on failure, when `sBuff` keeps all its bytes.
    The comparison with the size goes through `int`. -/
def writeN (k : Kernel) (sBuff : Bytes) : Int × Bytes × Kernel :=
  let (o, k) := k.write sBuff
  match o.stop with
  | .failed => (-1, sBuff, k)
  | .complete | .again =>
      let writeSum := sBuff.length - o.left.length
      if (writeSum : Int) = toInt sBuff.length then (writeSum, [], k)
      else (writeSum, sBuff.drop writeSum, k)

theorem writeLoop_suffix (results : List WriteResult) (buff : Bytes) :
    (writeLoop results buff).left <:+ buff := by
  fun_induction writeLoop results buff with
  | case1 => exact List.suffix_refl _
  | case2 => exact List.nil_suffix
  | case3 count rest left nonempty ih => exact ih.trans (List.drop_suffix _ _)
  | case4 rest left nonempty ih => exact ih
  | case5 => exact List.suffix_refl _
  | case6 => exact List.suffix_refl _

theorem accepted_append_left (results : List WriteResult) (buff : Bytes) :
    (writeLoop results buff).accepted buff ++ (writeLoop results buff).left = buff := by
  obtain ⟨front, whole⟩ := writeLoop_suffix results buff
  have length : buff.length - (writeLoop results buff).left.length = front.length := by
    rw [← congrArg List.length whole, List.length_append, Nat.add_sub_cancel]
  have front_taken : buff.take front.length = front := by
    conv_lhs => rw [← whole]
    exact List.take_left
  rw [WriteOutcome.accepted, length, front_taken, whole]

theorem drop_accepted (results : List WriteResult) (buff : Bytes) :
    buff.drop (buff.length - (writeLoop results buff).left.length) =
      (writeLoop results buff).left := by
  obtain ⟨front, whole⟩ := writeLoop_suffix results buff
  have length : buff.length - (writeLoop results buff).left.length = front.length := by
    rw [← congrArg List.length whole, List.length_append, Nat.add_sub_cancel]
  rw [length]
  conv_lhs => rw [← whole]
  exact List.drop_left

end WebServer
