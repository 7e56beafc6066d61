import Mathlib.Data.List.Flatten
import WebServer.Log.LogFile
import WebServer.Log.RecordEnd
import WebServer.Log.Stop

/-! # From a `LOG` statement to the log file

A `LOG` statement formats its record in a `LogStream`, `Append` stores it in a buffer, and the logging
thread hands whole buffers to its `LogFile`, which it flushes at the end of each round and when it
ends. Opening the file succeeds.
-/

namespace WebServer

open Lib

/-- `LOG << ...`, with the memory its stream gets and what `FormatTime` puts into `str_t`. -/
structure LogStatement where
  memory : LogStream
  strT : Bytes
  fileName : Bytes
  line : Int32
  insertions : List Insertion

/-- The record the destructor of `Logger` hands to `Output`. -/
def LogStatement.record (l : LogStatement) : Except Overrun Bytes := do
  let logger ← Logger.logged l.memory l.strT l.fileName l.line l.insertions
  logger.destruct

/-- The logger and the local `output` of `ThreadFunc`. -/
structure LogPipeline where
  logging : AsyncLogging
  output : LogFile

/-- A step of a thread that logs, of the logging thread or of the one that calls `Stop`. -/
inductive PipelineAction where
  | log (statement : LogStatement)
  | thread
  | stop

namespace LogPipeline

/-- What the next step of `ThreadFunc` does to `output`. -/
def nextOutput (s : LogPipeline) : LogFile :=
  match s.logging.pc with
  | .test => if s.logging.running then s.output else s.output.flush
  | .write i =>
      match s.logging.buffersToWrite[i]? with
      | some buffer => s.output.append (s.logging.heap buffer).data
      | none => s.output
  | .recycle => s.output.flush
  | .boot | .lock | .wait | .trim | .done => s.output

/-- A statement that would write outside its stream is no step. -/
def step (s : LogPipeline) : PipelineAction → Option LogPipeline
  | .log statement =>
      match statement.record with
      | .ok record => (s.logging.append record).map fun logging => { s with logging }
      | .error _ => none
  | .thread => s.logging.threadFunc.map fun logging => { logging, output := s.nextOutput }
  | .stop => s.logging.stop.map fun logging => { s with logging }

/-- What a step logs. -/
def logged (_ : LogPipeline) : PipelineAction → List Bytes
  | .log statement =>
      match statement.record with
      | .ok record => [record]
      | .error _ => []
  | .thread | .stop => []

/-- The bytes in buffers that are not yet handed to the file. -/
def waiting (s : LogPipeline) : Bytes :=
  s.logging.unwritten.flatMap fun b => (s.logging.heap b).data

end LogPipeline

/-- The logger with its file and any number of threads that log. -/
def logPipeline : System LogPipeline PipelineAction where
  init s := s.logging = .started ∧ logFile.init s.output
  step := LogPipeline.step

namespace LogPipeline

open AsyncLogging

theorem record_short {l : LogStatement} {record : Bytes} (formatted : l.record = .ok record) :
    record.length < kSmallBuffer := by
  have small : kSmallBuffer < 2 ^ 31 := by decide
  cases built : Logger.logged l.memory l.strT l.fileName l.line l.insertions with
  | error overrun => simp [LogStatement.record, built, bind, Except.bind] at formatted
  | ok logger =>
      have destructed : logger.destruct = .ok record := by
        simpa only [LogStatement.record, built, bind, Except.bind] using formatted
      cases closed : logger.stream.insertAll logger.closing with
      | error overrun => simp [Logger.destruct, closed, bind, Except.bind] at destructed
      | ok stream =>
          have inside := RawBuffer.insertAll_inside small (Logger.logged_inside built) closed
          simp only [Logger.destruct, closed, bind, Except.bind, pure, Except.pure] at destructed
          cases destructed
          rw [RawBuffer.content_length inside]
          exact inside

/-- A statement whose strings an `int` can measure hands over a record. -/
theorem record_formatted {l : LogStatement} (stamp : (cstr l.strT).length < 2 ^ 31)
    (name : (cstr l.fileName).length < 2 ^ 31)
    (short : ∀ i ∈ l.insertions, i.formatted = false → i.rendering.length < 2 ^ 31) :
    ∃ record, l.record = .ok record := by
  have start : l.memory.reset.cur < kSmallBuffer := by
    show 0 < kSmallBuffer
    decide
  obtain ⟨b₁, stamped, inside₁, -⟩ := RawBuffer.insert_offered (i := .cString (some l.strT)) start
    (RawBuffer.not_mistaken_of_short fun _ => stamp)
  obtain ⟨b₂, filled, inside₂, -⟩ := RawBuffer.insertAll_offered inside₁ short
  let logger : Logger := { stream := b₂, line := l.line, basename := cstr l.fileName }
  have built : Logger.logged l.memory l.strT l.fileName l.line l.insertions = .ok logger := by
    simp only [Logger.logged, Logger.construct, stamped, bind, Except.bind, pure, Except.pure, filled]
    rfl
  have closing : ∀ i ∈ logger.closing, i.formatted = false → i.rendering.length < 2 ^ 31 := by
    intro i here whole
    simp only [Logger.closing, List.mem_cons, List.not_mem_nil, or_false] at here
    rcases here with rfl | rfl | rfl | rfl | rfl
    · decide
    · exact name
    · decide
    · cases whole
    · decide
  obtain ⟨b₃, closed, -, -⟩ := RawBuffer.insertAll_offered inside₂ closing
  refine ⟨b₃.content, ?_⟩
  simp only [LogStatement.record, built, bind, Except.bind, Logger.destruct, logger, closed, pure,
    Except.pure]

/-- What a step of the pipeline is to the logger. -/
inductive Logging (s s' : LogPipeline) : PipelineAction → Prop where
  | log {statement : LogStatement} {record : Bytes} (formatted : statement.record = .ok record)
      (appended : s.logging.append record = some s'.logging) (output : s'.output = s.output) :
      Logging s s' (.log statement)
  | thread (ran : s.logging.threadFunc = some s'.logging) (output : s'.output = s.nextOutput) :
      Logging s s' .thread
  | stop (stopped : s.logging.stop = some s'.logging) (output : s'.output = s.output) :
      Logging s s' .stop

theorem step_cases {s s' : LogPipeline} {a : PipelineAction} (moved : s.step a = some s') :
    Logging s s' a := by
  cases a with
  | log statement =>
      cases formatted : statement.record with
      | error overrun => simp [step, formatted] at moved
      | ok record =>
          simp only [step, formatted, Option.map_eq_some_iff] at moved
          obtain ⟨logging, appended, rfl⟩ := moved
          exact .log formatted appended rfl
  | thread =>
      obtain ⟨logging, ran, rfl⟩ := Option.map_eq_some_iff.mp moved
      exact .thread ran rfl
  | stop =>
      obtain ⟨logging, stopped, rfl⟩ := Option.map_eq_some_iff.mp moved
      exact .stop stopped rfl

theorem record_inside {l : LogStatement} {record : Bytes} (formatted : l.record = .ok record) :
    record.length < kLargeBuffer :=
  (record_short formatted).trans (by decide)

theorem Logging.step {s s' : LogPipeline} {a : PipelineAction} (moved : Logging s s' a) :
    ∃ action, Short s.logging action ∧ s.logging.step action = some s'.logging := by
  cases moved with
  | log formatted appended output => exact ⟨.append _, record_inside formatted, appended⟩
  | thread ran output => exact ⟨.thread, trivial, ran⟩
  | stop stopped output => exact ⟨.stop, trivial, stopped⟩

theorem reached_logging {C : LogPipeline → PipelineAction → Prop} {s : LogPipeline}
    (reached : logPipeline.Reached C s) : asyncLogging.Reached Short s.logging := by
  induction reached with
  | init start => exact .init start.1
  | step _ _ moved ih =>
      obtain ⟨action, short, stepped⟩ := (step_cases moved).step
      exact .step ih short stepped

theorem stop_eq {s s' : AsyncLogging} (stopped : s.stop = some s') :
    s.running = true ∧ s' = { s with running := false } := by
  simp only [AsyncLogging.stop] at stopped
  split_ifs at stopped with running
  exact ⟨running, (Option.some.inj stopped).symm⟩

theorem step_log {s s' : LogPipeline} {a : PipelineAction} (tidy : Tidy s.logging)
    (shape : Shape s.logging) (moved : s.step a = some s') :
    s'.logging.log = s.logging.log ++ s.logged a := by
  cases step_cases moved with
  | log formatted appended output =>
      have short : Short s.logging (.append _) := record_inside formatted
      simp only [logged, formatted]
      exact step_appended tidy shape short appended
  | thread ran output =>
      have short : Short s.logging .thread := trivial
      exact step_appended tidy shape short ran
  | stop stopped output =>
      have short : Short s.logging .stop := trivial
      exact step_appended tidy shape short stopped

/-- The bytes a step of `ThreadFunc` hands to `LogFile::Append`. -/
def handed (s : AsyncLogging) : Bytes :=
  match s.pc with
  | .write i => (s.buffersToWrite[i]?.map fun b => (s.heap b).data).getD []
  | _ => []

theorem threadFunc_output {s s' : AsyncLogging} (tidy : Tidy s) (shape : Shape s)
    (ran : s.threadFunc = some s') : s'.output = s.output ++ handed s := by
  cases state : s.pc with
  | boot | test | done =>
      simp only [threadFunc, state] at ran
      cases ran <;> simp [handed, state, allocate]
  | lock =>
      simp only [threadFunc, state] at ran
      split_ifs at ran with empty
      · cases ran
        simp [handed, state]
      · obtain ⟨current, new, next, newBuffer2, -, -, -, same, -⟩ :=
          swap_cases shape (.inl state) tidy.current
        obtain rfl := Option.some.inj (same.symm.trans ran)
        simp [handed, state, afterSwap]
  | wait =>
      simp only [threadFunc, state] at ran
      obtain ⟨current, new, next, newBuffer2, -, -, -, same, -⟩ :=
        swap_cases shape (.inr state) tidy.current
      obtain rfl := Option.some.inj (same.symm.trans ran)
      simp [handed, state, afterSwap]
  | trim =>
      simp only [threadFunc, state, trim] at ran
      split_ifs at ran <;> cases ran <;> simp [handed, state]
  | write i =>
      simp only [threadFunc, state] at ran
      split at ran
      · rename_i buffer found
        cases ran
        simp [handed, state, found, writeBuffer]
      · rename_i found
        cases ran
        simp [handed, state, found]
  | recycle =>
      have recycled : s.recycle = some s' := by simpa only [threadFunc, state] using ran
      obtain ⟨kept, -⟩ := recycle_kept recycled
      have tidy' := recycle_tidy tidy shape state recycled
      rw [tidy'.output, tidy.output, kept.log, kept.written]
      simp [handed, state]

/-- Between two rounds the logging thread has flushed its file. -/
def Rested (s : AsyncLogging) : Prop := (∀ i, s.pc ≠ .write i) ∧ s.pc ≠ .recycle

/-- What the file has of the bytes handed over, where `sound` tells that stdio never fails. -/
structure Handed (sound : Prop) (s : LogPipeline) : Prop where
  kept : s.output.file.content.Sublist s.logging.output
  whole : sound → s.output.file.Sound ∧ s.output.file.content = s.logging.output
  flushed : sound → Rested s.logging → s.output.file.buffer = []

theorem append_handed {l : LogFile} (bytes : Bytes) :
    (l.append bytes).file.content.Sublist (l.file.content ++ bytes) ∧
      (l.file.Sound → (l.append bytes).file.Sound ∧
        (l.append bytes).file.content = l.file.content ++ bytes) := by
  have made : logFile.step l (.append bytes) = some (l.append bytes) := rfl
  have kept := LogFile.step_sublist made
  refine ⟨by simpa [LogFile.offered] using kept, fun sound => ?_⟩
  have appended := sound.append bytes
  simp only [LogFile.append]
  split_ifs
  · obtain ⟨sound', empty, flushed⟩ := appended.sound.flush
    refine ⟨sound', ?_⟩
    rw [AppendFile.content, empty, flushed, List.append_nil, appended.content]
  · exact ⟨appended.sound, appended.content⟩

theorem flush_handed {l : LogFile} :
    l.flush.file.content.Sublist l.file.content ∧
      (l.file.Sound → l.flush.file.Sound ∧ l.flush.file.buffer = [] ∧
        l.flush.file.content = l.file.content) := by
  refine ⟨l.file.flush_sublist, fun sound => ?_⟩
  obtain ⟨sound', empty, flushed⟩ := sound.flush
  refine ⟨sound', empty, ?_⟩
  rw [AppendFile.content, LogFile.flush, empty, flushed, List.append_nil]

theorem nextOutput_content (s : LogPipeline) :
    s.nextOutput.file.content.Sublist (s.output.file.content ++ handed s.logging) ∧
      (s.output.file.Sound → s.nextOutput.file.Sound ∧
        s.nextOutput.file.content = s.output.file.content ++ handed s.logging) := by
  unfold nextOutput
  cases state : s.logging.pc with
  | boot | lock | wait | trim | done => simp [handed, state]
  | test =>
      simp only [handed, state, List.append_nil]
      split_ifs
      · exact ⟨List.Sublist.refl _, fun sound => ⟨sound, rfl⟩⟩
      · exact ⟨flush_handed.1, fun sound => ⟨(flush_handed.2 sound).1, (flush_handed.2 sound).2.2⟩⟩
  | write i =>
      cases found : s.logging.buffersToWrite[i]? with
      | none => simp [handed, state, found]
      | some b => simpa [handed, state, found] using append_handed (s.logging.heap b).data
  | recycle =>
      simp only [handed, state, List.append_nil]
      exact ⟨flush_handed.1, fun sound => ⟨(flush_handed.2 sound).1, (flush_handed.2 sound).2.2⟩⟩

/-- A step that ends a round, or the thread, flushes. -/
theorem nextOutput_flushed {s : LogPipeline} {t : AsyncLogging} (ran : s.logging.threadFunc = some t)
    (sound : s.output.file.Sound) (flushed : Rested s.logging → s.output.file.buffer = [])
    (rested : Rested t) : s.nextOutput.file.buffer = [] := by
  unfold nextOutput
  cases state : s.logging.pc with
  | boot | lock | wait => exact flushed ⟨by simp [state], by simp [state]⟩
  | trim =>
      simp only [threadFunc, state, trim] at ran
      split_ifs at ran <;> cases ran <;> exact absurd rfl (rested.1 0)
  | done => simp [threadFunc, state] at ran
  | test =>
      dsimp only
      split_ifs
      · exact flushed ⟨by simp [state], by simp [state]⟩
      · exact (flush_handed.2 sound).2.1
  | write i =>
      simp only [threadFunc, state] at ran
      split at ran
      · cases ran
        exact absurd rfl (rested.1 (i + 1))
      · cases ran
        exact absurd rfl rested.2
  | recycle => exact (flush_handed.2 sound).2.1

theorem append_output {s s' : AsyncLogging} {r : Bytes} (appended : s.append r = some s') :
    s'.output = s.output ∧ s'.pc = s.pc := by
  cases current : s.currentBuffer with
  | none => simp [append, current] at appended
  | some b =>
      simp only [append, current] at appended
      split_ifs at appended
      · cases appended
        exact ⟨rfl, rfl⟩
      · cases spare : s.nextBuffer with
        | some next =>
            simp only [spare] at appended
            cases appended
            exact ⟨rfl, rfl⟩
        | none =>
            simp only [spare] at appended
            cases appended
            exact ⟨rfl, rfl⟩

theorem step_handed {sound : Prop} {s s' : LogPipeline} {a : PipelineAction}
    (tidy : Tidy s.logging) (shape : Shape s.logging) (handed : Handed sound s)
    (moved : s.step a = some s') : Handed sound s' := by
  cases step_cases moved with
  | log formatted appended output =>
      obtain ⟨same, pc⟩ := append_output appended
      refine ⟨by rw [output, same]; exact handed.kept, by rw [output, same]; exact handed.whole, ?_⟩
      rw [output, Rested, pc]
      exact handed.flushed
  | thread ran output =>
      obtain ⟨kept, whole⟩ := nextOutput_content s
      have bytes := threadFunc_output tidy shape ran
      refine ⟨?_, fun steady => ?_, fun steady rested => ?_⟩
      · rw [output, bytes]
        exact kept.trans (handed.kept.append_right _)
      · obtain ⟨sound', content⟩ := handed.whole steady
        rw [output, bytes, ← content]
        exact whole sound'
      · rw [output]
        exact nextOutput_flushed ran (handed.whole steady).1 (handed.flushed steady) rested
  | stop stopped output =>
      obtain ⟨-, same⟩ := stop_eq stopped
      exact ⟨by rw [output, same]; exact handed.kept, by rw [output, same]; exact handed.whole,
        by rw [output, same]; exact handed.flushed⟩

/-- What holds after a run from `s₀` that logged `records`. -/
structure Kept (s₀ : LogPipeline) (records : List Bytes) (s : LogPipeline) : Prop where
  tidy : Tidy s.logging
  shape : Shape s.logging
  handed : Handed s₀.output.file.Sound s
  log : s.logging.log = records
  short : ∀ r ∈ records, r.length < kSmallBuffer

theorem init_kept {s : LogPipeline} (start : logPipeline.init s) : Kept s [] s := by
  obtain ⟨started, writes, flushes, flushEveryN, opened⟩ := start
  obtain ⟨tidy, shape⟩ := started_tidy
  refine ⟨started ▸ tidy, started ▸ shape, ⟨?_, fun sound => ⟨sound, ?_⟩, fun _ _ => ?_⟩, ?_, nofun⟩
  · rw [started, opened]
    exact List.Sublist.refl _
  · rw [started, opened]
    rfl
  · rw [opened]
    rfl
  · rw [started]
    rfl

theorem step_kept {s₀ s s' : LogPipeline} {a : PipelineAction} {records : List Bytes}
    (kept : Kept s₀ records s) (moved : s.step a = some s') :
    Kept s₀ (records ++ s.logged a) s' := by
  have log := step_log kept.tidy kept.shape moved
  have still : Tidy s'.logging ∧ Shape s'.logging := by
    cases step_cases moved with
    | log formatted appended output =>
        exact ⟨append_tidy kept.tidy (record_inside formatted) appended,
          append_shape kept.tidy kept.shape (record_inside formatted) appended⟩
    | thread ran output =>
        have going : s.logging.pc ≠ .done := by
          intro ended
          simp [threadFunc, ended] at ran
        obtain ⟨t, again, still⟩ := threadFunc_tidy kept.tidy kept.shape going
        exact Option.some.inj (again.symm.trans ran) ▸ still
    | stop stopped output =>
        rw [(stop_eq stopped).2]
        exact ⟨kept.tidy.setPc _ false rfl, kept.shape⟩
  refine ⟨still.1, still.2, step_handed kept.tidy kept.shape kept.handed moved,
    log.trans (congrArg (· ++ s.logged a) kept.log), fun r here => ?_⟩
  rcases List.mem_append.mp here with older | newest
  · exact kept.short r older
  · cases step_cases moved with
    | log formatted appended output =>
        simp only [logged, formatted, List.mem_singleton] at newest
        exact newest ▸ record_short formatted
    | thread | stop => simp [logged] at newest

theorem run_kept {s₀ s : LogPipeline} {actions : List PipelineAction} (start : logPipeline.init s₀)
    (ran : logPipeline.replay s₀ actions = some s) :
    Kept s₀ (logPipeline.observed logged s₀ actions) s := by
  apply System.replay_induction (P := fun actions s =>
    Kept s₀ (logPipeline.observed logged s₀ actions) s) (init_kept start) _ ran
  intro actions s a s' before kept moved
  rw [System.observed_concat logged before]
  exact step_kept kept moved

theorem filterMap_range {α : Type} (xs : List α) :
    (List.range xs.length).filterMap (xs[·]?) = xs := by
  induction xs with
  | nil => rfl
  | cons x xs ih =>
      rw [List.length_cons, List.range_succ_eq_map, List.filterMap_cons, List.filterMap_map]
      exact congrArg (x :: ·) ih

/-- Whatever stdio answers, the file holds bytes of the records logged, in their order. Without
    failures the file, `buffer_` and the buffers of the logger hold every record whole and once, in
    the order in which `Append` got the lock, but for those erased at a swap that found more than 25
    buffers, and `buffer_` is empty between two rounds of the logging thread. -/
theorem records_reach_file {s₀ s : LogPipeline} {actions : List PipelineAction}
    (start : logPipeline.init s₀) (ran : logPipeline.replay s₀ actions = some s) :
    s.output.file.content.Sublist (logPipeline.observed logged s₀ actions).flatten ∧
      (s₀.output.file.Sound →
        ∃ kept : List Nat,
          kept.Sublist (List.range (logPipeline.observed logged s₀ actions).length) ∧
          s.output.file.content ++ s.waiting =
            (kept.filterMap ((logPipeline.observed logged s₀ actions)[·]?)).flatten ∧
          (∀ i < (logPipeline.observed logged s₀ actions).length, i ∉ kept ↔
            ∃ e ∈ s.logging.erasures, 25 < e.found ∧ i ∈ e.records) ∧
          (Rested s.logging → s.output.file.buffer = [])) := by
  obtain ⟨tidy, shape, handed, log, -⟩ := run_kept start ran
  have reached : logPipeline.Reachable s := .replay (fun _ _ _ => trivial) (.init start) ran
  obtain ⟨kept, inOrder, whole, lost⟩ := records_conserved (reached_logging reached)
  rw [log] at inOrder whole lost
  constructor
  · have fewer := (inOrder.filterMap ((logPipeline.observed logged s₀ actions)[·]?))
    rw [filterMap_range] at fewer
    exact (handed.kept.trans (List.sublist_append_left _ _)).trans (whole ▸ fewer.flatten)
  · intro sound
    refine ⟨kept, inOrder, ?_, lost, handed.flushed sound⟩
    rw [(handed.whole sound).2]
    exact whole

/-- A logger that has just been started, with a stdio that never fails. -/
def opened : LogPipeline := ⟨.started, .opened [] [] 1024⟩

theorem opened_init : logPipeline.init opened := ⟨rfl, _, _, _, rfl⟩

theorem opened_sound : opened.output.file.Sound := ⟨nofun, nofun⟩

def greeting : LogStatement where
  memory := RawBuffer.zeroes
  strT := text "2024-01-01 00:00:00\n"
  fileName := text "main.cpp"
  line := 1
  insertions := [.cString (some (text "up"))]

theorem greeting_formatted : ∃ record, greeting.record = .ok record := by
  apply record_formatted
  · decide
  · decide
  · intro i here _
    obtain rfl := List.mem_singleton.mp here
    decide

theorem greeting_logged {record : Bytes} (formatted : greeting.record = .ok record)
    (later : List PipelineAction) :
    logPipeline.replay opened (.log greeting :: later) =
      logPipeline.replay ⟨AsyncLogging.started.store 0 record, opened.output⟩ later ∧
    logPipeline.observed logged opened (.log greeting :: later) =
      record :: logPipeline.observed logged ⟨AsyncLogging.started.store 0 record, opened.output⟩
        later := by
  have moved : logPipeline.step opened (.log greeting) =
      some ⟨AsyncLogging.started.store 0 record, opened.output⟩ := by
    have room : record.length < (AsyncLogging.started.heap 0).avail := record_inside formatted
    have appended : AsyncLogging.started.append record =
        some (AsyncLogging.started.store 0 record) := if_pos room
    simp only [logPipeline, step, formatted, opened, appended, Option.map_some]
  constructor
  · rw [System.replay, moved, Option.bind_some]
  · rw [System.observed, moved]
    simp only [logged, formatted, List.singleton_append]

/-- A round that swaps after a wait, and writes one buffer. -/
def oneRound : List PipelineAction :=
  [.thread, .thread, .thread, .thread, .thread, .thread, .thread]

theorem records_reach_file_greeting : ∃ record s,
    greeting.record = .ok record ∧
      logPipeline.replay opened (.log greeting :: .thread :: oneRound) = some s ∧
      s.output.file.buffer = [] ∧ s.waiting = [] ∧
      ∃ kept : List Nat, kept.Sublist (List.range 1) ∧
        s.output.file.content ++ s.waiting = (kept.filterMap ([record][·]?)).flatten ∧
        ∀ i < 1, i ∉ kept ↔ ∃ e ∈ s.logging.erasures, 25 < e.found ∧ i ∈ e.records := by
  obtain ⟨record, formatted⟩ := greeting_formatted
  obtain ⟨replayed, noted⟩ := greeting_logged formatted (.thread :: oneRound)
  obtain ⟨s, ran, testing, waiting⟩ : ∃ s,
      logPipeline.replay opened (.log greeting :: .thread :: oneRound) = some s ∧
        s.logging.pc = .test ∧ s.waiting = [] := ⟨_, replayed, rfl, rfl⟩
  obtain ⟨-, whole⟩ := records_reach_file opened_init ran
  obtain ⟨kept, inOrder, bytes, lost, flushed⟩ := whole opened_sound
  have only : logPipeline.observed logged opened (.log greeting :: .thread :: oneRound) = [record] :=
    noted
  rw [only] at inOrder bytes lost
  have rested : Rested s.logging := ⟨by simp [testing], by simp [testing]⟩
  exact ⟨record, s, formatted, ran, flushed rested, waiting, kept, inOrder, bytes, lost⟩

/-- No swap leaves one of the first `n` records behind: the next one is still to come, or the thread
    has ended, or none of them waits for a swap. -/
def Passing (n : Nat) (s : AsyncLogging) : Prop :=
  s.Swapping ∨ s.pc = .done ∨ ∀ i ∈ s.unswapped, n ≤ i

theorem step_passing {n : Nat} {s s' : AsyncLogging} {action : LogAction} (tidy : Tidy s)
    (shape : Shape s) (older : n ≤ s.log.length) (passing : Passing n s) (short : Short s action)
    (moved : s.step action = some s') : Passing n s' := by
  cases action with
  | append r =>
      obtain ⟨joined, -, pc, -⟩ := append_unswapped tidy short moved
      rcases passing with swapping | ended | later
      · exact .inl (by simpa only [Swapping, pc] using swapping)
      · exact .inr (.inl (pc.trans ended))
      · refine .inr (.inr fun i here => ?_)
        rw [joined, List.mem_append, List.mem_singleton] at here
        rcases here with old | rfl
        · exact later i old
        · exact older
  | thread =>
      by_cases swapping : s.Swapping
      · obtain ⟨-, -, still | nothing⟩ := swap_unswapped tidy shape moved swapping
        · exact .inl still
        · exact .inr (.inr (by simp [nothing]))
      · obtain ⟨same, -⟩ := threadFunc_unswapped tidy shape moved swapping
        rcases passing with now | ended | later
        · exact absurd now swapping
        · simp [AsyncLogging.step, threadFunc, ended] at moved
        · exact .inr (.inr (same ▸ later))
  | stop =>
      rw [(stop_eq moved).2]
      exact passing

theorem test_passing (n : Nat) {s s' : AsyncLogging} (testing : s.pc = .test)
    (ran : s.threadFunc = some s') : Passing n s' := by
  simp only [threadFunc, testing] at ran
  cases ran
  cases s.running with
  | true => exact .inl (.inl rfl)
  | false => exact .inr (.inl rfl)

/-- The run is still before its first step of the logging thread, or that step has passed. -/
def Begun (n : Nat) (actions : List PipelineAction) (s : LogPipeline) : Prop :=
  s.logging.pc = .test ∧ .thread ∉ actions ∨ Passing n s.logging

theorem step_begun {n : Nat} {actions : List PipelineAction} {s s' : LogPipeline}
    {a : PipelineAction} (tidy : Tidy s.logging) (shape : Shape s.logging)
    (older : n ≤ s.logging.log.length) (begun : Begun n actions s) (moved : s.step a = some s') :
    Begun n (actions ++ [a]) s' := by
  rcases begun with ⟨testing, idle⟩ | passing
  · cases step_cases moved with
    | log formatted appended output =>
        exact .inl ⟨(append_output appended).2.trans testing, by simp [idle]⟩
    | thread ran output => exact .inr (test_passing n testing ran)
    | stop stopped output => exact .inl ⟨by rw [(stop_eq stopped).2, testing], by simp [idle]⟩
  · obtain ⟨action, short, stepped⟩ := (step_cases moved).step
    exact .inr (step_passing tidy shape older passing short stepped)

/-- At the end of a round the file has every record that is neither erased nor waits for a swap. -/
theorem rested_file {s₀ s : LogPipeline} {records : List Bytes} (kept : Kept s₀ records s)
    (sound : s₀.output.file.Sound) (testing : s.logging.pc = .test) :
    s.output.file.file = (s.logging.written.filterMap (records[·]?)).flatten ∧
      s.logging.written.Sublist (List.range records.length) ∧
      ∀ i < records.length, i ∈ s.logging.written ∨ i ∈ s.logging.unswapped ∨
        ∃ e ∈ s.logging.erasures, 25 < e.found ∧ i ∈ e.records := by
  obtain ⟨tidy, shape, handed, log, -⟩ := kept
  have rested : Rested s.logging := ⟨by simp [testing], by simp [testing]⟩
  have empty := handed.flushed sound rested
  have whole := (handed.whole sound).2
  rw [AppendFile.content, empty, List.append_nil, tidy.output, bytesOf, log] at whole
  have order := tidy.sound.order
  simp only [Shape, testing] at shape
  have pending : s.logging.stream.pending = s.logging.unswapped := by
    simp [stream, unwritten, swappedOut, testing, shape.2.2, unswapped]
  refine ⟨whole, ?_, fun i inside => ?_⟩
  · have fewer : s.logging.written.Sublist s.logging.stream.kept := by
      rw [← order]
      exact List.sublist_append_left _ _
    exact log ▸ fewer.trans List.filter_sublist
  · by_cases lost : i ∈ s.logging.erased
    · obtain ⟨e, here, erased⟩ := List.mem_flatMap.mp lost
      exact .inr (.inr ⟨e, here, tidy.crowded e here, erased⟩)
    · have here : i ∈ s.logging.stream.kept :=
        RecordStream.mem_kept.mpr ⟨by rw [← log] at inside; exact inside, lost⟩
      rw [← order, pending] at here
      rcases List.mem_append.mp here with written | waiting
      · exact .inl written
      · exact .inr (.inl waiting)

/-- A whole round of the logging thread brings every record logged before it to the file, whatever is
    logged meanwhile, unless the swap of the round erased it. -/
theorem round_reaches_file {s₀ s s' : LogPipeline} {earlier actions : List PipelineAction}
    (start : logPipeline.init s₀) (sound : s₀.output.file.Sound)
    (before : logPipeline.replay s₀ earlier = some s) (testing : s.logging.pc = .test)
    (ran : logPipeline.replay s actions = some s') (worked : .thread ∈ actions)
    (again : s'.logging.pc = .test) :
    ∃ kept : List Nat,
      kept.Sublist (List.range (logPipeline.observed logged s₀ (earlier ++ actions)).length) ∧
      s'.output.file.file =
        (kept.filterMap ((logPipeline.observed logged s₀ (earlier ++ actions))[·]?)).flatten ∧
      ∀ i < (logPipeline.observed logged s₀ earlier).length, i ∈ kept ∨
        ∃ e ∈ s'.logging.erasures, 25 < e.found ∧ i ∈ e.records := by
  have first := run_kept start before
  have joined {actions t} (on : logPipeline.replay s actions = some t) :
      logPipeline.replay s₀ (earlier ++ actions) = some t := by
    rw [System.replay_append, before, Option.bind_some, on]
  have begun : s.logging.log.length ≤ s'.logging.log.length ∧
      Begun s.logging.log.length actions s' := by
    apply System.replay_induction (P := fun actions t =>
      s.logging.log.length ≤ t.logging.log.length ∧ Begun s.logging.log.length actions t) _ _ ran
    · exact ⟨Nat.le_refl _, .inl ⟨testing, List.not_mem_nil⟩⟩
    · rintro actions t a t' on ⟨older, begun⟩ moved
      have kept := run_kept start (joined on)
      refine ⟨?_, step_begun kept.tidy kept.shape older begun moved⟩
      rw [step_log kept.tidy kept.shape moved, List.length_append]
      omega
  have kept := run_kept start (joined ran)
  obtain ⟨file, inOrder, known⟩ := rested_file kept sound again
  refine ⟨s'.logging.written, inOrder, file, fun i old => ?_⟩
  have logged_before : i < s.logging.log.length := by
    rw [first.log]
    exact old
  have inside : i < (logPipeline.observed logged s₀ (earlier ++ actions)).length := by
    rw [← kept.log]
    exact logged_before.trans_le begun.1
  rcases known i inside with written | waiting | lost
  · exact .inl written
  · rcases begun.2 with ⟨-, idle⟩ | swapping | ended | later
    · exact absurd worked idle
    · simp [Swapping, again] at swapping
    · simp [again] at ended
    · exact absurd (later i waiting) (by omega)
  · exact .inr lost

theorem round_reaches_file_greeting : ∃ record s s',
    greeting.record = .ok record ∧ logPipeline.replay opened [.log greeting, .thread] = some s ∧
      logPipeline.replay s oneRound = some s' ∧ s'.output.file.file = record := by
  obtain ⟨record, formatted⟩ := greeting_formatted
  obtain ⟨s, s', before, testing, round, again, calm⟩ : ∃ s s',
      logPipeline.replay opened [.log greeting, .thread] = some s ∧ s.logging.pc = .test ∧
        logPipeline.replay s oneRound = some s' ∧ s'.logging.pc = .test ∧
        s'.logging.erasures = [] :=
    ⟨_, _, (greeting_logged formatted [.thread]).1, rfl, rfl, rfl, rfl⟩
  obtain ⟨kept, inOrder, file, known⟩ := round_reaches_file opened_init opened_sound before testing
    round List.mem_cons_self again
  have noted : logPipeline.observed logged opened ([.log greeting, .thread] ++ oneRound) =
      [record] := (greeting_logged formatted _).2
  have noted_before : logPipeline.observed logged opened [.log greeting, .thread] = [record] :=
    (greeting_logged formatted _).2
  rw [noted_before] at known
  rw [noted] at inOrder file
  have first : 0 ∈ kept := by
    rcases known 0 Nat.zero_lt_one with here | ⟨e, erased, -⟩
    · exact here
    · simp [calm] at erased
  have only : kept = [0] := by
    rcases List.sublist_singleton.mp (show kept.Sublist [0] from inOrder) with rfl | rfl
    · cases first
    · rfl
  refine ⟨record, s, s', formatted, before, round, ?_⟩
  rw [file, only]
  simp

/-- The steps that one more round will take, where a record waits for a swap. -/
def behind (s : AsyncLogging) : Nat := if s.unswapped = [] then 0 else s.buffers.length + 20

/-- A bound on the steps to the end of the round that leaves nothing to swap. -/
def rank (s : AsyncLogging) : Nat :=
  match s.pc with
  | .boot | .recycle => behind s + 2
  | .test => behind s + 1
  | .lock => s.buffers.length + 12
  | .wait => s.buffers.length + 11
  | .trim => behind s + s.buffersToWrite.length + 5
  | .write i => behind s + (s.buffersToWrite.length - i) + 3
  | .done => 0

theorem recycle_buffers {s s' : AsyncLogging} (recycled : s.recycle = some s') :
    s'.buffers = s.buffers := by
  simp only [recycle, Option.map_eq_some_iff, Option.bind_eq_some_iff] at recycled
  obtain ⟨u, ⟨t, first, second⟩, rfl⟩ := recycled
  have one : t.buffers = s.buffers := by
    rcases refill1_cases first with rfl | ⟨back, front, -, rfl⟩ <;> rfl
  have two : u.buffers = t.buffers := by
    rcases refill2_cases second with rfl | ⟨back, front, -, rfl⟩ <;> rfl
  exact two.trans one

theorem swap_rank {s s' : AsyncLogging} (tidy : Tidy s) (shape : Shape s)
    (swapping : s.Swapping) (swapped : s.swap = some s') : rank s' < s.buffers.length + 11 := by
  obtain ⟨current, new, next, newBuffer2, -, given1, -, same, -⟩ :=
    swap_cases shape swapping tidy.current
  obtain rfl := Option.some.inj (same.symm.trans swapped)
  have none_held : s.held new = [] := tidy.spare new (by simp [spares, given1])
  have nothing : (s.afterSwap current new next newBuffer2).unswapped = [] := by
    simp [unswapped, filling, afterSwap, none_held]
  have idle : behind (s.afterSwap current new next newBuffer2) = 0 := if_pos nothing
  show behind (s.afterSwap current new next newBuffer2) + (s.buffers ++ [current]).length + 5 < _
  rw [idle, List.length_append, List.length_singleton]
  omega

/-- Unless the round is over and nothing waits for a swap, the thread gets nearer to that. -/
theorem threadFunc_rank {s s' : AsyncLogging} (tidy : Tidy s) (shape : Shape s)
    (running : s.running = true) (unfinished : ¬ (s.pc = .test ∧ s.unswapped = []))
    (ran : s.threadFunc = some s') : rank s' < rank s := by
  have same (past : ¬ s.Swapping) (buffers : s'.buffers = s.buffers) : behind s' = behind s := by
    unfold behind
    rw [(threadFunc_unswapped tidy shape ran past).1, buffers]
  cases state : s.pc with
  | boot =>
      have less := same (by simp [Swapping, state])
      simp only [threadFunc, state] at ran
      cases ran
      simp only [rank, state, less rfl]
      omega
  | test =>
      have waiting : s.unswapped ≠ [] := fun nothing => unfinished ⟨state, nothing⟩
      simp only [threadFunc, state, running, if_true] at ran
      cases ran
      simp only [rank, state, behind, if_neg waiting]
      omega
  | lock =>
      simp only [threadFunc, state] at ran
      split_ifs at ran
      · cases ran
        simp only [rank, state]
        omega
      · have less := swap_rank tidy shape (.inl state) ran
        simp only [rank, state] at less ⊢
        omega
  | wait =>
      simp only [threadFunc, state] at ran
      have less := swap_rank tidy shape (.inr state) ran
      simp only [rank, state] at less ⊢
      omega
  | trim =>
      have less := same (by simp [Swapping, state])
      simp only [threadFunc, state, trim] at ran
      split_ifs at ran <;> cases ran
      · simp only [rank, state, less rfl, List.length_take]
        omega
      · simp only [rank, state, less rfl]
        omega
  | write i =>
      have less := same (by simp [Swapping, state])
      simp only [threadFunc, state] at ran
      split at ran
      · rename_i b found
        have inside := (List.getElem?_eq_some_iff.mp found).1
        cases ran
        show behind _ + (s.buffersToWrite.length - (i + 1)) + 3 < _
        simp only [rank, state, less rfl]
        omega
      · cases ran
        simp only [rank, state, less rfl]
        omega
  | recycle =>
      have recycled : s.recycle = some s' := by simpa only [threadFunc, state] using ran
      have less := same (by simp [Swapping, state]) (recycle_buffers recycled)
      simp only [rank, state, (recycle_kept recycled).2, less]
      omega
  | done => simp [threadFunc, state] at ran

theorem threadFunc_done {s s' : AsyncLogging} (tidy : Tidy s) (shape : Shape s)
    (ran : s.threadFunc = some s') (ended : s'.pc = .done) : s'.running = false := by
  have swapped (swapping : s.Swapping) : s.swap ≠ some s' := by
    obtain ⟨current, new, next, newBuffer2, -, -, -, same, -⟩ :=
      swap_cases shape swapping tidy.current
    rw [same]
    rintro ⟨⟩
    cases ended
  cases state : s.pc with
  | boot =>
      simp only [threadFunc, state] at ran
      cases ran
      cases ended
  | test =>
      simp only [threadFunc, state] at ran
      cases ran
      cases running : s.running with
      | true => simp [running] at ended
      | false => rfl
  | lock =>
      simp only [threadFunc, state] at ran
      split_ifs at ran
      · cases ran
        cases ended
      · exact absurd ran (swapped (.inl state))
  | wait => exact absurd (by simpa only [threadFunc, state] using ran) (swapped (.inr state))
  | trim =>
      simp only [threadFunc, state, trim] at ran
      split_ifs at ran <;> cases ran <;> cases ended
  | write i =>
      simp only [threadFunc, state] at ran
      split at ran <;> cases ran <;> cases ended
  | recycle =>
      have recycled : s.recycle = some s' := by simpa only [threadFunc, state] using ran
      rw [(recycle_kept recycled).2] at ended
      cases ended
  | done => simp [threadFunc, state] at ran

theorem done_stopped {s : AsyncLogging} (reached : asyncLogging.Reached Short s) :
    s.pc = .done → s.running = false := by
  apply reached.invariant_with (Q := fun s => Tidy s ∧ Shape s) fun _ => reached_tidy
  · rintro s rfl ended
    cases ended
  · rintro s action s' ⟨tidy, shape⟩ ended short moved joined
    cases action with
    | append r =>
        obtain ⟨-, -, pc, running⟩ := append_unswapped tidy short moved
        exact running.trans (ended (pc.symm.trans joined))
    | thread => exact threadFunc_done tidy shape moved joined
    | stop => rw [(stop_eq moved).2]

/-- As long as nobody calls `Stop`, the logging thread alone brings every record logged so far to the
    file, in a bounded number of steps, unless a swap erases it. -/
theorem thread_reaches_file {s₀ s : LogPipeline} {actions : List PipelineAction}
    (start : logPipeline.init s₀) (sound : s₀.output.file.Sound)
    (ran : logPipeline.replay s₀ actions = some s) (running : s.logging.running = true) :
    logPipeline.CanReach (· = .thread) (fun t =>
      ∃ kept : List Nat,
        kept.Sublist (List.range (logPipeline.observed logged s₀ actions).length) ∧
        t.output.file.file =
          (kept.filterMap ((logPipeline.observed logged s₀ actions)[·]?)).flatten ∧
        ∀ i < (logPipeline.observed logged s₀ actions).length, i ∈ kept ∨
          ∃ e ∈ t.logging.erasures, 25 < e.found ∧ i ∈ e.records) s := by
  have reachable : logPipeline.Reachable s := .replay (fun _ _ _ => trivial) (.init start) ran
  have going : s.logging.pc ≠ .done := by
    intro ended
    have stopped := done_stopped (reached_logging reachable) ended
    rw [running] at stopped
    cases stopped
  have kept := run_kept start ran
  generalize logPipeline.observed logged s₀ actions = records at kept ⊢
  apply System.CanReach.of_rank (P := fun t =>
    Kept s₀ records t ∧ t.logging.running = true ∧ t.logging.pc ≠ .done) (fun t => rank t.logging)
  · rintro t ⟨kept, running, going⟩ unfinished
    obtain ⟨next, ran, tidy, shape⟩ := threadFunc_tidy kept.tidy kept.shape going
    have moved : t.step .thread = some ⟨next, t.nextOutput⟩ := by
      simp only [step, ran, Option.map_some]
    have on : next.running = true := by
      by_cases swapping : t.logging.Swapping
      · exact (swap_unswapped kept.tidy kept.shape ran swapping).2.1.trans running
      · exact (threadFunc_unswapped kept.tidy kept.shape ran swapping).2.2.1.trans running
    refine ⟨.thread, _, rfl, moved, ⟨?_, on, fun ended => ?_⟩, ?_⟩
    · simpa only [logged, List.append_nil] using step_kept kept moved
    · rw [threadFunc_done kept.tidy kept.shape ran ended] at on
      cases on
    · apply threadFunc_rank kept.tidy kept.shape running _ ran
      rintro ⟨testing, nothing⟩
      obtain ⟨file, inOrder, known⟩ := rested_file kept sound testing
      refine unfinished ⟨t.logging.written, inOrder, file, fun i inside => ?_⟩
      rcases known i inside with written | waiting | lost
      · exact .inl written
      · simp [nothing] at waiting
      · exact .inr lost
  · exact ⟨kept, running, going⟩

theorem thread_reaches_file_greeting : ∃ record s,
    greeting.record = .ok record ∧ logPipeline.replay opened [.log greeting] = some s ∧
      logPipeline.CanReach (· = .thread) (fun t =>
        ∃ kept : List Nat, kept.Sublist (List.range 1) ∧
          t.output.file.file = (kept.filterMap ([record][·]?)).flatten ∧
          ∀ i < 1, i ∈ kept ∨ ∃ e ∈ t.logging.erasures, 25 < e.found ∧ i ∈ e.records) s := by
  obtain ⟨record, formatted⟩ := greeting_formatted
  obtain ⟨replayed, noted⟩ := greeting_logged formatted []
  have reached := thread_reaches_file opened_init opened_sound replayed rfl
  rw [noted] at reached
  exact ⟨record, _, formatted, replayed, reached⟩

end LogPipeline

end WebServer
