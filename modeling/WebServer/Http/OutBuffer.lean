import WebServer.Http.Turns

/-! # Draining the output buffer

`out_buffer_` between appends and calls of `WriteN`. A call that meets `EAGAIN` keeps the bytes the
socket did not accept, unless their number compared as an `int` passes for the whole size.
-/

namespace WebServer

open Lib

/-- The output buffer, the socket behind it and everything that was appended so far. -/
structure Draining where
  outBuffer : Bytes
  kernel : Kernel
  appended : Bytes

inductive BufferOp where
  | append (bytes : Bytes)
  /-- `WriteN(fd_, out_buffer_)`. -/
  | writeN
  deriving Repr, DecidableEq

/-- The bytes that one result of `write` accepts. -/
def WriteResult.count : WriteResult → Nat
  | .ok count => count
  | _ => 0

/-- The bytes that the results of several `write`s accept. -/
def countOf (results : List WriteResult) : Nat := (results.map WriteResult.count).sum

namespace Draining

def start (k : Kernel) : Draining where
  outBuffer := []
  kernel := { k with sent := [] }
  appended := []

def step (d : Draining) : BufferOp → Draining
  | .append bytes =>
      { d with outBuffer := d.outBuffer ++ bytes, appended := d.appended ++ bytes }
  | .writeN =>
      let (_, outBuffer, kernel) := WebServer.writeN d.kernel d.outBuffer
      { d with outBuffer, kernel }

def run (d : Draining) (ops : List BufferOp) : Draining := ops.foldl step d

/-- No byte is lost or repeated, and a call of `WriteN` would return the number of bytes it sent,
    with nothing left or after an `EAGAIN`. -/
structure Exact (d : Draining) : Prop where
  conserved : d.kernel.sent ++ d.outBuffer = d.appended
  counted : ∃ front, (d.step .writeN).kernel.sent = d.kernel.sent ++ front ∧
    (WebServer.writeN d.kernel d.outBuffer).1 = front.length
  drained : (d.step .writeN).outBuffer = [] ∨ (d.kernel.write d.outBuffer).1.stop = .again

/-- `EAGAIN` comes after exactly `static_cast<int>(size)` bytes of a longer buffer. -/
def CutShort (d : Draining) : Prop :=
  ∃ before rest, d.kernel.writes = before ++ .eagain :: rest ∧ .eagain ∉ before ∧
    (countOf before : Int) = toInt d.outBuffer.length ∧ countOf before < d.outBuffer.length

end Draining

@[simp] theorem countOf_cons (result : WriteResult) (results : List WriteResult) :
    countOf (result :: results) = result.count + countOf results := by
  simp [countOf]

theorem writeLoop_cut {before rest : List WriteResult} {left : Bytes}
    (answering : .fail ∉ before) (unblocked : .eagain ∉ before)
    (short : countOf before < left.length) :
    writeLoop (before ++ .eagain :: rest) left = ⟨.again, left.drop (countOf before), rest⟩ := by
  induction before generalizing left with
  | nil =>
      cases left with
      | nil => simp at short
      | cons c cs => rfl
  | cons result before ih =>
      simp only [List.mem_cons, not_or] at answering unblocked
      rw [countOf_cons] at short
      have shorter : countOf before < (left.drop result.count).length := by
        rw [List.length_drop]
        omega
      have later := ih answering.2 unblocked.2 shorter
      rw [List.drop_drop] at later
      rw [countOf_cons, List.cons_append]
      cases left with
      | nil => simp at short
      | cons c cs =>
          cases result with
          | ok count => exact later
          | eintr => exact later
          | eagain => exact absurd rfl unblocked.1
          | fail => exact absurd rfl answering.1

/-- A loop that stops for now met `EAGAIN` before the buffer was used up. -/
theorem writeLoop_again {results : List WriteResult} {left : Bytes}
    (stopped : (writeLoop results left).stop = .again) :
    ∃ before rest, results = before ++ .eagain :: rest ∧ .eagain ∉ before ∧
      countOf before < left.length ∧ (writeLoop results left).left = left.drop (countOf before) := by
  fun_induction writeLoop results left with
  | case1 | case2 => cases stopped
  | case3 count rest left nonempty ih =>
      obtain ⟨before, later, whole, unblocked, short, kept⟩ := ih stopped
      refine ⟨.ok count :: before, later, by rw [whole]; rfl, by simp [unblocked], ?_, ?_⟩
      · rw [List.length_drop] at short
        rw [countOf_cons]
        exact Nat.add_lt_of_lt_sub' short
      · rw [kept, countOf_cons, List.drop_drop]
        rfl
  | case4 rest left nonempty ih =>
      obtain ⟨before, later, whole, unblocked, short, kept⟩ := ih stopped
      have none : countOf (.eintr :: before) = countOf before := by
        rw [countOf_cons]
        exact Nat.zero_add _
      exact ⟨.eintr :: before, later, by rw [whole]; rfl, by simp [unblocked], none ▸ short,
        none ▸ kept⟩
  | case5 rest left nonempty =>
      have positive : 0 < left.length := List.length_pos_iff.mpr (by simpa using nonempty)
      exact ⟨[], rest, rfl, by simp, positive, rfl⟩
  | case6 => cases stopped

theorem writeLoop_complete {results : List WriteResult} {left : Bytes}
    (stopped : (writeLoop results left).stop = .complete) : (writeLoop results left).left = [] := by
  fun_induction writeLoop results left with
  | case1 | case2 => rfl
  | case3 count rest left nonempty ih => exact ih stopped
  | case4 rest left nonempty ih => exact ih stopped
  | case5 => cases stopped
  | case6 => cases stopped

theorem writeLoop_answering {results : List WriteResult} (answering : .fail ∉ results)
    (left : Bytes) :
    (writeLoop results left).stop ≠ .failed ∧ .fail ∉ (writeLoop results left).rest := by
  fun_induction writeLoop results left with
  | case1 => exact ⟨by simp, answering⟩
  | case2 => exact ⟨by simp, List.not_mem_nil⟩
  | case3 count rest left nonempty ih =>
      exact ih fun later => answering (List.mem_cons_of_mem _ later)
  | case4 rest left nonempty ih =>
      exact ih fun later => answering (List.mem_cons_of_mem _ later)
  | case5 rest left nonempty =>
      exact ⟨by simp, fun later => answering (List.mem_cons_of_mem _ later)⟩
  | case6 => exact absurd List.mem_cons_self answering

namespace Draining

variable {d : Draining}

theorem step_writeN_kernel (d : Draining) :
    (d.step .writeN).kernel = (d.kernel.write d.outBuffer).2 :=
  HttpData.writeN_kernel d.kernel d.outBuffer

theorem step_answering (answering : .fail ∉ d.kernel.writes) (op : BufferOp) :
    .fail ∉ (d.step op).kernel.writes := by
  cases op with
  | append bytes => exact answering
  | writeN =>
      rw [step_writeN_kernel]
      exact (writeLoop_answering answering d.outBuffer).2

theorem step_sent (d : Draining) :
    (d.step .writeN).kernel.sent =
      d.kernel.sent ++ (writeLoop d.kernel.writes d.outBuffer).accepted d.outBuffer :=
  congrArg Kernel.sent (step_writeN_kernel d)

theorem accepted_length (results : List WriteResult) (buff : Bytes) :
    ((writeLoop results buff).accepted buff).length =
      buff.length - (writeLoop results buff).left.length := by
  rw [WriteOutcome.accepted, List.length_take]
  exact Nat.min_eq_left (Nat.sub_le _ _)

theorem writeN_answering (answering : .fail ∉ d.kernel.writes) :
    (WebServer.writeN d.kernel d.outBuffer).1 =
        ((writeLoop d.kernel.writes d.outBuffer).accepted d.outBuffer).length ∧
      (d.step .writeN).outBuffer =
        if (((writeLoop d.kernel.writes d.outBuffer).accepted d.outBuffer).length : Int) =
            toInt d.outBuffer.length
        then [] else (writeLoop d.kernel.writes d.outBuffer).left := by
  have alive := (writeLoop_answering answering d.outBuffer).1
  have rest := drop_accepted d.kernel.writes d.outBuffer
  rw [accepted_length]
  unfold step WebServer.writeN Kernel.write
  dsimp only
  cases stop : (writeLoop d.kernel.writes d.outBuffer).stop with
  | failed => exact absurd stop alive
  | complete | again =>
      dsimp only
      split_ifs with passes
      · exact ⟨rfl, rfl⟩
      · exact ⟨rfl, rest⟩

/-- A call loses bytes exactly where it is cut short. -/
theorem step_conserves_iff (answering : .fail ∉ d.kernel.writes) :
    (d.step .writeN).kernel.sent ++ (d.step .writeN).outBuffer =
      d.kernel.sent ++ d.outBuffer ↔ ¬ CutShort d := by
  obtain ⟨-, kept⟩ := writeN_answering answering
  have parts := accepted_append_left d.kernel.writes d.outBuffer
  have size := accepted_length d.kernel.writes d.outBuffer
  rw [step_sent, List.append_assoc, List.append_cancel_left_eq, kept]
  constructor
  · rintro whole ⟨before, rest, script, unblocked, same, short⟩
    have loop : writeLoop d.kernel.writes d.outBuffer =
        ⟨.again, d.outBuffer.drop (countOf before), rest⟩ := by
      rw [script]
      rw [script, List.mem_append, not_or] at answering
      exact writeLoop_cut answering.1 unblocked short
    rw [loop] at whole size
    rw [List.length_drop] at size
    have count : (WriteOutcome.accepted
        ⟨.again, d.outBuffer.drop (countOf before), rest⟩ d.outBuffer).length =
          countOf before := by
      omega
    rw [count, if_pos same, List.append_nil] at whole
    have lengths := congrArg List.length whole
    omega
  · intro fits
    split_ifs with passes
    · cases stop : (writeLoop d.kernel.writes d.outBuffer).stop with
      | failed => exact absurd stop (writeLoop_answering answering d.outBuffer).1
      | complete => rwa [writeLoop_complete stop] at parts
      | again =>
          obtain ⟨before, rest, script, unblocked, short, left⟩ := writeLoop_again stop
          rw [left, List.length_drop] at size
          have count : ((writeLoop d.kernel.writes d.outBuffer).accepted d.outBuffer).length =
              countOf before := by
            omega
          rw [count] at passes
          exact absurd ⟨before, rest, script, unblocked, passes, short⟩ fits
    · exact parts

theorem exact_of_conserved (answering : .fail ∉ d.kernel.writes)
    (conserved : d.kernel.sent ++ d.outBuffer = d.appended) : Exact d := by
  obtain ⟨count, kept⟩ := writeN_answering answering
  refine ⟨conserved, ⟨_, step_sent d, count⟩, ?_⟩
  cases stop : (writeLoop d.kernel.writes d.outBuffer).stop with
  | failed => exact absurd stop (writeLoop_answering answering d.outBuffer).1
  | complete =>
      left
      rw [kept, writeLoop_complete stop, ite_self]
  | again => exact .inr stop

theorem CutShort.large (cut : CutShort d) : 2 ^ 32 ≤ d.outBuffer.length := by
  obtain ⟨before, rest, -, -, same, short⟩ := cut
  unfold toInt at same
  dsimp only at same
  split_ifs at same <;> omega

theorem handleWrite_step {s : HttpData} {k : Kernel} (fine : s.error = false)
    (running : s.connectionState ≠ .hDisconnected) (appended : Bytes) :
    let d : Draining := { outBuffer := s.outBuffer, kernel := k, appended }
    d.step .writeN =
      { outBuffer := (HttpData.handleWrite s k).1.outBuffer, kernel := (HttpData.handleWrite s k).2,
        appended } := by
  have active : (!s.error && s.connectionState ≠ .hDisconnected) = true := by simp [fine, running]
  have queue : (HttpData.handleWrite s k).1.outBuffer = (WebServer.writeN k s.outBuffer).2.1 := by
    simp only [HttpData.handleWrite, active, if_true]
    split_ifs <;> rfl
  have kernel : (HttpData.handleWrite s k).2 = (WebServer.writeN k s.outBuffer).2.2 := by
    simp only [HttpData.handleWrite, active, if_true]
  rw [queue, kernel]
  rfl

theorem run_append (d : Draining) (ops : List BufferOp) (op : BufferOp) :
    d.run (ops ++ [op]) = (d.run ops).step op := by
  rw [run, List.foldl_append]
  rfl

theorem run_answering (answering : .fail ∉ d.kernel.writes) (ops : List BufferOp) :
    .fail ∉ (d.run ops).kernel.writes := by
  induction ops generalizing d with
  | nil => exact answering
  | cons op ops ih => exact ih (step_answering answering op)

/-- Bytes are conserved through a run exactly where none of its calls is cut short. -/
theorem run_exact_iff (k : Kernel) (answering : .fail ∉ k.writes) (ops : List BufferOp) :
    (∀ done, done <+: ops → Exact ((start k).run done)) ↔
      ∀ done, done ++ [.writeN] <+: ops → ¬ CutShort ((start k).run done) := by
  have alive (done : List BufferOp) := run_answering (d := start k) answering done
  constructor
  · intro exact done within
    have before := (exact done ((List.prefix_append done _).trans within)).conserved
    have after := (exact _ within).conserved
    rw [run_append] at after
    exact (step_conserves_iff (alive done)).1 (after.trans before.symm)
  · intro fits done within
    apply exact_of_conserved (alive done)
    induction done using List.reverseRecOn with
    | nil => rfl
    | append_singleton done op ih =>
        have before := ih ((List.prefix_append done _).trans within)
        rw [run_append]
        cases op with
        | append bytes =>
            show ((start k).run done).kernel.sent ++ (((start k).run done).outBuffer ++ bytes) =
              ((start k).run done).appended ++ bytes
            rw [← List.append_assoc, before]
        | writeN => exact ((step_conserves_iff (alive done)).2 (fits done within)).trans before

/-- A socket that accepts one byte and then asks to wait. -/
def oneByte : Kernel where
  reads := []
  writes := [.ok 1, .eagain]
  files := fun _ _ => .missing
  looked := []
  sent := []

theorem run_exact_oneByte :
    (∀ done, done <+: [.append (text "ab"), .writeN] → Exact ((start oneByte).run done)) ↔
      ∀ done, done ++ [.writeN] <+: [.append (text "ab"), .writeN] →
        ¬ CutShort ((start oneByte).run done) :=
  run_exact_iff oneByte (by decide) _

theorem wrapped_lost {bytes : Bytes} (size : bytes.length = 2 ^ 32 + 1) :
    let d := (start oneByte).run [.append bytes, .writeN]
    d.kernel.sent ++ d.outBuffer ≠ d.appended := by
  intro d whole
  let before := (start oneByte).step (.append bytes)
  have answering : .fail ∉ oneByte.writes := by decide
  have cut : CutShort before := by
    refine ⟨[.ok 1], [], rfl, by decide, ?_, ?_⟩
    · show (1 : Int) = toInt bytes.length
      rw [size]
      decide
    · show 1 < bytes.length
      omega
  exact (step_conserves_iff (d := before) answering).1 whole cut

/-- Of `2 ^ 32 + 1` bytes one is sent and none is kept. -/
theorem flood_lost :
    let d := (start oneByte).run [.append (List.replicate (2 ^ 32 + 1) 65), .writeN]
    d.kernel.sent ++ d.outBuffer ≠ d.appended :=
  wrapped_lost (List.length_replicate ..)

end Draining

end WebServer
