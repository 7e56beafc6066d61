import WebServer.Lib.ByteString
import WebServer.Lib.Observation

/-! # The log file

`AppendFile` hands its bytes to stdio, which keeps them in `buffer_` and passes them on to the file,
and `LogFile` flushes after every `kFlushEveryN_` appends. The results of `fwrite_unlocked` and
`fflush` are scripted. A stream that fails takes fewer bytes and may lose bytes it holds.
-/

namespace WebServer

open Lib

/-- One result of `fwrite_unlocked`. -/
inductive FwriteResult where
  /-- All bytes are taken and the first `passed` of those held are passed on to the file. -/
  | ok (passed : Nat)
  /-- At most `taken` bytes are taken; of those held `passed` are passed on and `lost` are lost. -/
  | fail (taken passed lost : Nat)
  deriving Repr, DecidableEq

/-- One result of `fflush`. -/
inductive FflushResult where
  /-- Everything held is passed on. -/
  | ok
  | fail (passed lost : Nat)
  deriving Repr, DecidableEq

/-- `AppendFile`, by its stream. -/
structure AppendFile where
  /-- Results of `fwrite_unlocked` to come; everything is taken and kept when used up. -/
  writes : List FwriteResult
  /-- Results of `fflush` to come; everything is passed on when used up. -/
  flushes : List FflushResult
  /-- The bytes the stream holds, in `buffer_`. -/
  buffer : Bytes
  /-- The bytes in the file. -/
  file : Bytes
  deriving Repr, DecidableEq

namespace AppendFile

/-- The constructor. -/
def opened (writes : List FwriteResult) (flushes : List FflushResult) : AppendFile :=
  { writes, flushes, buffer := [], file := [] }

/-- Take bytes into the stream; of all it holds then, pass some on and lose some. -/
def hold (f : AppendFile) (bytes : Bytes) (passed lost : Nat) : AppendFile :=
  { f with
    buffer := (f.buffer ++ bytes).drop (passed + lost)
    file := f.file ++ (f.buffer ++ bytes).take passed }

/-- `Write`: the bytes taken. Writing nothing leaves the stream alone. -/
def write (f : AppendFile) (logline : Bytes) : Nat × AppendFile :=
  if logline.isEmpty then (0, f)
  else match f.writes with
    | [] => (logline.length, f.hold logline 0 0)
    | .ok passed :: rest => (logline.length, { f with writes := rest }.hold logline passed 0)
    | .fail taken passed lost :: rest =>
        (min taken logline.length,
          { f with writes := rest }.hold (logline.take taken) passed lost)

/-- The loop of `Append`. It runs at most once for each unit of `fuel`, which is the length of what
    remains. -/
def appendLoop : Nat → (remain : Bytes) → AppendFile → AppendFile
  | 0, _, f => f
  | fuel + 1, remain, f =>
      if remain.length > 0 then
        let (x, f) := f.write remain
        if x = 0 then f else appendLoop fuel (remain.drop x) f
      else f

/-- `Append`. -/
def append (f : AppendFile) (logline : Bytes) : AppendFile :=
  let (n, f) := f.write logline
  appendLoop (logline.length - n) (logline.drop n) f

/-- `Flush`. -/
def flush (f : AppendFile) : AppendFile :=
  match f.flushes with
  | [] => f.hold [] f.buffer.length 0
  | .ok :: rest => { f with flushes := rest }.hold [] f.buffer.length 0
  | .fail passed lost :: rest => { f with flushes := rest }.hold [] passed lost

/-- All bytes that reached the stream and are not lost. -/
def content (f : AppendFile) : Bytes := f.file ++ f.buffer

/-- No result to come is a failure. -/
structure Sound (f : AppendFile) : Prop where
  writes : ∀ r ∈ f.writes, ∃ passed, r = .ok passed
  flushes : ∀ r ∈ f.flushes, r = .ok

end AppendFile

/-- `LogFile`. -/
structure LogFile where
  kFlushEveryN : Int
  count : Int
  file : AppendFile
  deriving Repr, DecidableEq

namespace LogFile

/-- The constructor. -/
def opened (writes : List FwriteResult) (flushes : List FflushResult) (flushEveryN : Int) :
    LogFile :=
  { kFlushEveryN := flushEveryN, count := 0, file := .opened writes flushes }

/-- `Append`, which is `AppendUnlocked` under the mutex. -/
def append (l : LogFile) (logline : Bytes) : LogFile :=
  let l := { l with file := l.file.append logline, count := l.count + 1 }
  if l.count ≥ l.kFlushEveryN then { l with count := 0, file := l.file.flush } else l

/-- `Flush`. -/
def flush (l : LogFile) : LogFile := { l with file := l.file.flush }

end LogFile

/-- A call on a `LogFile`; the mutex makes each of them one step. -/
inductive LogFileCall where
  | append (logline : Bytes)
  | flush
  deriving Repr, DecidableEq

/-- A log file and the calls made on it. -/
def logFile : System LogFile LogFileCall where
  init l := ∃ writes flushes flushEveryN, l = .opened writes flushes flushEveryN
  step
    | l, .append logline => some (l.append logline)
    | l, .flush => some l.flush

namespace AppendFile

variable {f : AppendFile} {bytes : Bytes}

theorem hold_content (f : AppendFile) (bytes : Bytes) (passed : Nat) :
    (f.hold bytes passed 0).content = f.content ++ bytes := by
  simp only [content, hold, Nat.add_zero, List.append_assoc, List.take_append_drop]

theorem hold_sublist (f : AppendFile) (bytes : Bytes) (passed lost : Nat) :
    (f.hold bytes passed lost).content.Sublist (f.content ++ bytes) := by
  have later : ((f.buffer ++ bytes).drop (passed + lost)).Sublist
      ((f.buffer ++ bytes).drop passed) := by
    rw [← List.drop_drop]
    exact List.drop_sublist _ _
  have whole := (List.Sublist.refl ((f.buffer ++ bytes).take passed)).append later
  rw [List.take_append_drop] at whole
  simpa only [content, hold, List.append_assoc] using
    (List.Sublist.refl f.file).append whole

theorem write_sublist (f : AppendFile) (logline : Bytes) :
    (f.write logline).2.content.Sublist (f.content ++ logline.take (f.write logline).1) := by
  unfold write
  split_ifs with nothing
  · simp
  · split
    · simpa using hold_sublist f logline 0 0
    · rename_i passed rest _
      rw [List.take_length]
      exact hold_sublist { f with writes := rest } logline passed 0
    · rename_i taken passed lost rest _
      rw [← List.take_eq_take_min]
      exact hold_sublist { f with writes := rest } (logline.take taken) passed lost

theorem appendLoop_sublist (fuel : Nat) (remain : Bytes) (f : AppendFile) :
    (appendLoop fuel remain f).content.Sublist (f.content ++ remain) := by
  induction fuel generalizing remain f with
  | zero => exact List.sublist_append_left _ _
  | succ fuel ih =>
      have taken := write_sublist f remain
      simp only [appendLoop]
      split_ifs with positive none_taken
      · rw [none_taken, List.take_zero, List.append_nil] at taken
        exact taken.trans (List.sublist_append_left _ _)
      · have rest := ih (remain.drop (f.write remain).1) (f.write remain).2
        have more := rest.trans (taken.append_right (remain.drop (f.write remain).1))
        rwa [List.append_assoc, List.take_append_drop] at more
      · exact List.sublist_append_left _ _

theorem append_sublist (f : AppendFile) (logline : Bytes) :
    (f.append logline).content.Sublist (f.content ++ logline) := by
  have taken := write_sublist f logline
  have rest := appendLoop_sublist (logline.length - (f.write logline).1)
    (logline.drop (f.write logline).1) (f.write logline).2
  have more := rest.trans (taken.append_right (logline.drop (f.write logline).1))
  rwa [List.append_assoc, List.take_append_drop] at more

theorem flush_sublist (f : AppendFile) : f.flush.content.Sublist f.content := by
  unfold flush
  rw [← List.append_nil f.content]
  split
  · exact hold_sublist f [] f.buffer.length 0
  · rename_i rest _
    exact hold_sublist { f with flushes := rest } [] f.buffer.length 0
  · rename_i passed lost rest _
    exact hold_sublist { f with flushes := rest } [] passed lost

theorem hold_prefix (f : AppendFile) (bytes : Bytes) (passed lost : Nat) :
    f.file <+: (f.hold bytes passed lost).file :=
  List.prefix_append _ _

/-- A stream that does not fail takes a whole line. -/
structure Appended (f f' : AppendFile) (logline : Bytes) : Prop where
  sound : f'.Sound
  content : f'.content = f.content ++ logline
  file : f.file <+: f'.file

theorem Sound.write (sound : f.Sound) (logline : Bytes) :
    (f.write logline).1 = logline.length ∧ Appended f (f.write logline).2 logline := by
  unfold AppendFile.write
  split_ifs with nothing
  · obtain rfl := List.isEmpty_iff.mp nothing
    exact ⟨rfl, sound, (List.append_nil _).symm, List.prefix_refl _⟩
  · split
    · exact ⟨rfl, ⟨sound.writes, sound.flushes⟩, hold_content f logline 0, hold_prefix f logline 0 0⟩
    · rename_i passed rest same
      refine ⟨rfl, ⟨fun r here => ?_, sound.flushes⟩, hold_content _ logline passed,
        hold_prefix { f with writes := rest } logline passed 0⟩
      exact sound.writes r (same ▸ List.mem_cons_of_mem _ here)
    · rename_i taken passed lost rest same
      obtain ⟨passed', failed⟩ := sound.writes (.fail taken passed lost) (same ▸ List.mem_cons_self)
      cases failed

theorem Sound.append (sound : f.Sound) (logline : Bytes) : Appended f (f.append logline) logline := by
  obtain ⟨whole, appended⟩ := sound.write logline
  have same : f.append logline = (f.write logline).2 := by
    simp only [AppendFile.append, whole, Nat.sub_self, appendLoop]
  exact same ▸ appended

theorem Sound.flush (sound : f.Sound) :
    f.flush.Sound ∧ f.flush.buffer = [] ∧ f.flush.file = f.content := by
  unfold AppendFile.flush
  split
  · exact ⟨⟨sound.writes, sound.flushes⟩, by simp [hold], by simp [hold, content]⟩
  · rename_i rest same
    refine ⟨⟨sound.writes, fun r here => ?_⟩, by simp [hold], by simp [hold, content]⟩
    exact sound.flushes r (same ▸ List.mem_cons_of_mem _ here)
  · rename_i passed lost rest same
    cases sound.flushes (.fail passed lost) (same ▸ List.mem_cons_self)

end AppendFile

namespace LogFile

/-- What a call appends. -/
def offered (_ : LogFile) : LogFileCall → List Bytes
  | .append logline => [logline]
  | .flush => []

theorem step_sublist {l l' : LogFile} {call : LogFileCall} (made : logFile.step l call = some l') :
    l'.file.content.Sublist (l.file.content ++ (l.offered call).flatten) := by
  cases call with
  | append logline =>
      obtain rfl := Option.some.inj made
      have appended := l.file.append_sublist logline
      simp only [append, offered, List.flatten_singleton]
      split_ifs
      · exact (AppendFile.flush_sublist _).trans appended
      · exact appended
  | flush =>
      obtain rfl := Option.some.inj made
      simpa [flush, offered] using l.file.flush_sublist

/-- The lines appended are in the file, but for the last `count`, which may wait in `buffer_`. -/
structure Written (l : LogFile) (lines : List Bytes) : Prop where
  sound : l.file.Sound
  content : l.file.content = lines.flatten
  counted : 0 ≤ l.count ∧ l.count.toNat ≤ lines.length
  few : l.count = 0 ∨ l.count < l.kFlushEveryN
  file : (lines.take (lines.length - l.count.toNat)).flatten <+: l.file.file

theorem append_written {l : LogFile} {lines : List Bytes} (written : l.Written lines)
    (logline : Bytes) : (l.append logline).Written (lines ++ [logline]) := by
  obtain ⟨sound, content, file⟩ := written.sound.append logline
  have whole : (l.file.append logline).content = (lines ++ [logline]).flatten := by
    rw [content, written.content, List.flatten_append, List.flatten_singleton]
  obtain ⟨positive, inside⟩ := written.counted
  simp only [append]
  split_ifs with full
  · obtain ⟨sound', empty, flushed⟩ := sound.flush
    refine ⟨sound', ?_, ⟨Int.le_refl _, Nat.zero_le _⟩, .inl rfl, ?_⟩
    · rw [AppendFile.content, empty, flushed, List.append_nil, whole]
    · simp only [Int.toNat_zero, Nat.sub_zero, List.take_length, flushed, whole]
      exact List.prefix_refl _
  · have few : l.count + 1 < l.kFlushEveryN := not_le.mp full
    refine ⟨sound, whole, ⟨by show 0 ≤ l.count + 1; omega, ?_⟩, .inr few, ?_⟩
    · simp only [List.length_append, List.length_singleton]
      omega
    · have older : (lines ++ [logline]).length - (l.count + 1).toNat =
          lines.length - l.count.toNat := by
        simp only [List.length_append, List.length_singleton]
        omega
      rw [older, List.take_append_of_le_length (Nat.sub_le _ _)]
      exact written.file.trans file

theorem flush_written {l : LogFile} {lines : List Bytes} (written : l.Written lines) :
    l.flush.Written lines ∧ l.flush.file.file = lines.flatten := by
  obtain ⟨sound, empty, flushed⟩ := written.sound.flush
  refine ⟨⟨sound, ?_, written.counted, written.few, ?_⟩, flushed.trans written.content⟩
  · rw [AppendFile.content, flush, empty, flushed, List.append_nil, written.content]
  · have whole : l.flush.file.file = lines.flatten := flushed.trans written.content
    rw [whole]
    conv_rhs => rw [← List.take_append_drop (lines.length - l.count.toNat) lines]
    rw [List.flatten_append]
    exact List.prefix_append _ _

theorem opened_written {l : LogFile} (start : logFile.init l) (sound : l.file.Sound) :
    l.Written [] := by
  obtain ⟨writes, flushes, flushEveryN, rfl⟩ := start
  exact ⟨sound, rfl, ⟨Int.le_refl _, Nat.le_refl _⟩, .inl rfl, List.prefix_refl _⟩

/-- Whatever stdio answers, the file and `buffer_` hold bytes of the lines appended, in their order.
    Without failures they hold all of them, fewer than `kFlushEveryN_` lines wait in `buffer_`, and
    `Flush` brings these to the file too. -/
theorem lines_written {l₀ l : LogFile} {calls : List LogFileCall} (start : logFile.init l₀)
    (ran : logFile.replay l₀ calls = some l) :
    l.file.content.Sublist (logFile.observed offered l₀ calls).flatten ∧
      (l₀.file.Sound →
        l.Written (logFile.observed offered l₀ calls) ∧
          ∀ l', logFile.step l .flush = some l' →
            l'.file.file = (logFile.observed offered l₀ calls).flatten) := by
  have kept : l.file.content.Sublist (logFile.observed offered l₀ calls).flatten := by
    apply System.replay_induction (P := fun calls l =>
      l.file.content.Sublist (logFile.observed offered l₀ calls).flatten) _ _ ran
    · obtain ⟨writes, flushes, flushEveryN, rfl⟩ := start
      exact List.Sublist.refl _
    · intro calls l call l' before ih made
      rw [System.observed_concat offered before, List.flatten_append]
      exact (step_sublist made).trans (ih.append_right _)
  refine ⟨kept, fun sound => ?_⟩
  have written : l.Written (logFile.observed offered l₀ calls) := by
    apply System.replay_induction (P := fun calls l =>
      l.Written (logFile.observed offered l₀ calls)) _ _ ran
    · exact opened_written start sound
    · intro calls l call l' before ih made
      rw [System.observed_concat offered before]
      cases call with
      | append logline =>
          obtain rfl := Option.some.inj made
          exact append_written ih logline
      | flush =>
          obtain rfl := Option.some.inj made
          simpa only [offered, List.append_nil] using (flush_written ih).1
  refine ⟨written, fun l' made => ?_⟩
  obtain rfl := Option.some.inj made
  exact (flush_written written).2

/-- Two lines with a flush after every second one, and a third. -/
def threeLines : List LogFileCall := [.append (text "a"), .append (text "b"), .append (text "c")]

theorem lines_written_three :
    ∃ l, logFile.replay (.opened [.ok 0, .ok 1] [] 2) threeLines = some l ∧
      l.file.file = text "ab" ∧ l.Written [text "a", text "b", text "c"] := by
  obtain ⟨l, ran⟩ := Option.isSome_iff_exists.mp
    (show (logFile.replay (.opened [.ok 0, .ok 1] [] 2) threeLines).isSome = true from rfl)
  have file : (logFile.replay (.opened [.ok 0, .ok 1] [] 2) threeLines).map (·.file.file) =
      some (text "ab") := by decide
  rw [ran] at file
  refine ⟨l, ran, Option.some.inj file, ((lines_written ⟨_, _, _, rfl⟩ ran).2 ⟨?_, ?_⟩).1⟩
  · simp [opened, AppendFile.opened]
  · simp [opened, AppendFile.opened]

end LogFile

end WebServer
