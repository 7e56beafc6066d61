import WebServer.Lib.Observation
import WebServer.Log.Conservation

/-! # What `Stop` leaves behind

`ThreadFunc` tests `running_` before it swaps. A `Stop` that comes between the test and the swap is
followed by a swap and its writes; any other finds the thread past its last swap, and what producers
had filled by then stays in memory.
-/

namespace WebServer.AsyncLogging

open Lib

/-- The logging thread is between its test of `running_` and its swap. -/
def Swapping (s : AsyncLogging) : Prop := s.pc = .lock ∨ s.pc = .wait

/-- The logging thread is about to swap, or nothing waits for a swap. -/
def Draining (s : AsyncLogging) : Prop := s.Swapping ∨ s.unswapped = []

/-- A short record joins those that wait. -/
theorem append_unswapped {s s' : AsyncLogging} {r : Bytes} (tidy : Tidy s)
    (short : r.length < kLargeBuffer) (appended : s.append r = some s') :
    s'.unswapped = s.unswapped ++ [s.log.length] ∧ s'.log.length = s.log.length + 1 ∧
      s'.pc = s.pc ∧ s'.running = s.running := by
  obtain ⟨t, b, prepared, rfl⟩ := append_prepared tidy short appended
  have apart : b ∉ t.buffers := by
    have distinct := prepared.tidy.distinct
    simp only [slots, filling, prepared.current, Option.toList_some, List.nodup_append,
      List.mem_append, List.mem_singleton] at distinct
    exact fun here => distinct.1.2.1.2.2 b here b rfl rfl
  have filling : t.filling = t.buffers ++ [b] := by
    simp only [AsyncLogging.filling, prepared.current, Option.toList_some]
  have stored : (t.store b r).unswapped =
      t.filling.flatMap (Function.update t.held b (t.held b ++ [t.log.length])) := by
    simp only [unswapped, store, if_pos prepared.room]
    rfl
  refine ⟨?_, by simp [store, prepared.log], prepared.pc, prepared.running⟩
  rw [stored, filling, flatMap_update_last _ apart, ← prepared.unswapped, ← prepared.log, unswapped,
    filling]
  simp

/-- The members that a step of the logging thread leaves alone. -/
structure Kept (s s' : AsyncLogging) : Prop where
  log : s'.log = s.log
  written : s'.written = s.written
  erasures : s'.erasures = s.erasures
  running : s'.running = s.running

theorem recycle_kept {s s' : AsyncLogging} (recycled : s.recycle = some s') :
    Kept s s' ∧ s'.pc = .test := by
  simp only [recycle, Option.map_eq_some_iff, Option.bind_eq_some_iff] at recycled
  obtain ⟨u, ⟨t, first, second⟩, rfl⟩ := recycled
  have one : Kept s t := by
    rcases refill1_cases first with rfl | ⟨back, front, -, rfl⟩ <;> exact ⟨rfl, rfl, rfl, rfl⟩
  have two : Kept t u := by
    rcases refill2_cases second with rfl | ⟨back, front, -, rfl⟩ <;> exact ⟨rfl, rfl, rfl, rfl⟩
  exact ⟨⟨two.log.trans one.log, two.written.trans one.written, two.erasures.trans one.erasures,
    two.running.trans one.running⟩, rfl⟩

/-- Between two swaps the thread takes no record over, and it swaps again only if `running_` is
    still set. -/
theorem threadFunc_unswapped {s s' : AsyncLogging} (tidy : Tidy s) (shape : Shape s)
    (ran : s.threadFunc = some s') (past : ¬ s.Swapping) :
    s'.unswapped = s.unswapped ∧ s'.log = s.log ∧ s'.running = s.running ∧
      (s.running = false → ¬ s'.Swapping) := by
  cases state : s.pc with
  | boot =>
      simp only [threadFunc, state] at ran
      cases ran
      refine ⟨?_, rfl, rfl, fun _ => by simp [Swapping]⟩
      have older : ∀ b ∈ s.filling, b < s.unused := fun b here =>
        tidy.allocated b (by simp only [slots, List.mem_append]; tauto)
      refine List.flatMap_congr fun b here => ?_
      have first : b ≠ s.unused := (older b here).ne
      have second : b ≠ s.unused + 1 := (Nat.lt_succ_of_lt (older b here)).ne
      simp only [allocate, Function.update_of_ne second, Function.update_of_ne first]
  | test =>
      simp only [threadFunc, state] at ran
      cases ran
      exact ⟨rfl, rfl, rfl, fun stopped => by simp [Swapping, stopped]⟩
  | lock => exact absurd (.inl state) past
  | wait => exact absurd (.inr state) past
  | trim =>
      simp only [threadFunc, state, trim] at ran
      split_ifs at ran <;> cases ran <;> exact ⟨rfl, rfl, rfl, fun _ => by simp [Swapping]⟩
  | write i =>
      simp only [threadFunc, state] at ran
      split at ran <;> cases ran <;> exact ⟨rfl, rfl, rfl, fun _ => by simp [Swapping]⟩
  | recycle =>
      have recycled : s.recycle = some s' := by simpa only [threadFunc, state] using ran
      obtain ⟨kept, tested⟩ := recycle_kept recycled
      have tidy' := recycle_tidy tidy shape state recycled
      obtain ⟨t, again, -, shape'⟩ := recycle_apart tidy.apart shape state
      obtain rfl : t = s' := Option.some.inj (again.symm.trans recycled)
      refine ⟨?_, kept.log, kept.running, fun _ => by simp [Swapping, tested]⟩
      have empty : t.buffersToWrite = [] := by
        simp only [Shape, tested] at shape'
        exact shape'.2.2
      have before := tidy.sound.order
      have after := tidy'.sound.order
      simp only [stream, RecordStream.kept, unwritten, swappedOut, state, tested, empty, erased,
        kept.log, kept.written, kept.erasures, List.nil_append] at before after
      exact List.append_cancel_left (after.trans before.symm)
  | done => simp [threadFunc, state] at ran

theorem swap_unswapped {s s' : AsyncLogging} (tidy : Tidy s) (shape : Shape s)
    (ran : s.threadFunc = some s') (swapping : s.Swapping) :
    s'.log = s.log ∧ s'.running = s.running ∧ (s'.Swapping ∨ s'.unswapped = []) := by
  have swap : s.swap = some s' →
      s'.log = s.log ∧ s'.running = s.running ∧ (s'.Swapping ∨ s'.unswapped = []) := by
    intro swapped
    obtain ⟨current, new, next, newBuffer2, -, given1, -, same, -⟩ :=
      swap_cases shape swapping tidy.current
    obtain rfl := Option.some.inj (same.symm.trans swapped)
    refine ⟨rfl, rfl, .inr ?_⟩
    have none_held : s.held new = [] := tidy.spare new (by simp [spares, given1])
    simp [unswapped, filling, afterSwap, none_held]
  rcases swapping with state | state
  · simp only [threadFunc, state] at ran
    split_ifs at ran with empty
    · cases ran
      exact ⟨rfl, rfl, .inl (.inr rfl)⟩
    · exact swap ran
  · exact swap (by simpa only [threadFunc, state] using ran)

/-- What a step appends. -/
def appendedAt (_ : AsyncLogging) : LogAction → List Bytes
  | .append logline => [logline]
  | .thread | .stop => []

theorem step_appended {s s' : AsyncLogging} {action : LogAction} (tidy : Tidy s) (shape : Shape s)
    (short : Short s action) (moved : s.step action = some s') :
    s'.log = s.log ++ appendedAt s action := by
  cases action with
  | append r =>
      obtain ⟨t, b, prepared, rfl⟩ := append_prepared tidy short moved
      simp only [appendedAt, store, prepared.log]
  | thread =>
      by_cases swapping : s.Swapping
      · simp [appendedAt, (swap_unswapped tidy shape moved swapping).1]
      · simp [appendedAt, (threadFunc_unswapped tidy shape moved swapping).2.1]
  | stop =>
      simp only [step, stop] at moved
      split_ifs at moved
      cases moved
      simp [appendedAt]

theorem log_appended {s : AsyncLogging} {actions : List LogAction}
    (short : ∀ action ∈ actions, Short s action)
    (ran : asyncLogging.replay started actions = some s) :
    s.log = asyncLogging.observed appendedAt started actions := by
  have run : (∀ action ∈ actions, Short s action) →
      s.log = asyncLogging.observed appendedAt started actions ∧ Tidy s ∧ Shape s := by
    apply System.replay_induction (P := fun actions t => (∀ action ∈ actions, Short s action) →
      t.log = asyncLogging.observed appendedAt started actions ∧ Tidy t ∧ Shape t) _ _ ran
    · exact fun _ => ⟨rfl, started_tidy⟩
    · intro actions t action u before ih moved short
      have earlier := fun a here => short a (List.mem_append_left _ here)
      have last : Short t action := short action (List.mem_append_right _ List.mem_cons_self)
      obtain ⟨log, tidy, shape⟩ := ih earlier
      refine ⟨?_, reached_tidy (.step (.replay (fun a here _ => earlier a here) (.init rfl) before)
        last moved)⟩
      rw [System.observed_concat appendedAt before, step_appended tidy shape last moved, log]
  exact (run short).1

/-- What holds in every state after `Stop`; `n` records were appended before. -/
structure Stopped (n : Nat) (s : AsyncLogging) : Prop where
  tidy : Tidy s
  shape : Shape s
  running : s.running = false
  older : n ≤ s.log.length

theorem stopped_step {n : Nat} {s s' : AsyncLogging} {action : LogAction} (stopped : Stopped n s)
    (short : Short s action) (moved : s.step action = some s') : Stopped n s' := by
  cases action with
  | append r =>
      obtain ⟨-, length, -, running⟩ := append_unswapped stopped.tidy short moved
      exact ⟨append_tidy stopped.tidy short moved,
        append_shape stopped.tidy stopped.shape short moved, running.trans stopped.running,
        by have := stopped.older; omega⟩
  | thread =>
      have going : s.pc ≠ .done := by
        intro ended
        simp [step, threadFunc, ended] at moved
      obtain ⟨t, ran, tidy, shape⟩ := threadFunc_tidy stopped.tidy stopped.shape going
      obtain rfl : t = s' := Option.some.inj (ran.symm.trans moved)
      by_cases swapping : s.Swapping
      · obtain ⟨log, running, -⟩ := swap_unswapped stopped.tidy stopped.shape ran swapping
        exact ⟨tidy, shape, running.trans stopped.running, log ▸ stopped.older⟩
      · obtain ⟨-, log, running, -⟩ := threadFunc_unswapped stopped.tidy stopped.shape ran swapping
        exact ⟨tidy, shape, running.trans stopped.running, log ▸ stopped.older⟩
  | stop => simp [step, stop, stopped.running] at moved

/-- The records of before `Stop` are on their way to the file. -/
def Flushing (n : Nat) (s : AsyncLogging) : Prop :=
  Stopped n s ∧ (s.Swapping ∨ ∀ i ∈ s.unswapped, n ≤ i)

/-- A record is left where no swap will take it. -/
def Stranded (n i : Nat) (s : AsyncLogging) : Prop :=
  Stopped n s ∧ ¬ s.Swapping ∧ i ∈ s.unswapped

theorem flushing_step {n : Nat} {s s' : AsyncLogging} {action : LogAction} (flushing : Flushing n s)
    (short : Short s action) (moved : s.step action = some s') : Flushing n s' := by
  obtain ⟨stopped, on_way⟩ := flushing
  refine ⟨stopped_step stopped short moved, ?_⟩
  cases action with
  | append r =>
      obtain ⟨joined, -, pc, -⟩ := append_unswapped stopped.tidy short moved
      rcases on_way with swapping | later
      · exact .inl (by simpa only [Swapping, pc] using swapping)
      · refine .inr fun i here => ?_
        rw [joined, List.mem_append, List.mem_singleton] at here
        rcases here with old | rfl
        · exact later i old
        · exact stopped.older
  | thread =>
      by_cases swapping : s.Swapping
      · obtain ⟨-, -, still | nothing⟩ := swap_unswapped stopped.tidy stopped.shape moved swapping
        · exact .inl still
        · exact .inr (by simp [nothing])
      · obtain ⟨same, -⟩ := threadFunc_unswapped stopped.tidy stopped.shape moved swapping
        exact .inr (same ▸ on_way.resolve_left swapping)
  | stop => simp [step, stop, stopped.running] at moved

theorem stranded_step {n i : Nat} {s s' : AsyncLogging} {action : LogAction}
    (stranded : Stranded n i s) (short : Short s action) (moved : s.step action = some s') :
    Stranded n i s' := by
  obtain ⟨stopped, past, left⟩ := stranded
  refine ⟨stopped_step stopped short moved, ?_⟩
  cases action with
  | append r =>
      obtain ⟨joined, -, pc, -⟩ := append_unswapped stopped.tidy short moved
      exact ⟨by simpa only [Swapping, pc] using past, joined ▸ List.mem_append_left _ left⟩
  | thread =>
      obtain ⟨same, -, -, never⟩ := threadFunc_unswapped stopped.tidy stopped.shape moved past
      exact ⟨never stopped.running, same ▸ left⟩
  | stop => simp [step, stop, stopped.running] at moved

theorem done_written {n : Nat} {s : AsyncLogging} (stopped : Stopped n s) (joined : s.pc = .done)
    (calm : s.erasures = []) {i : Nat} (old : i < n) : i ∈ s.written ↔ i ∉ s.unswapped := by
  have shape := stopped.shape
  simp only [Shape, joined] at shape
  have pending : s.stream.pending = s.unswapped := by
    simp [stream, unwritten, swappedOut, joined, shape.2.2, unswapped]
  have order := stopped.tidy.sound.order
  have distinct := stopped.tidy.sound.nodup
  rw [pending] at order distinct
  have kept : i ∈ s.stream.kept := by
    have inside : i < s.stream.log.length := old.trans_le stopped.older
    rw [RecordStream.mem_kept]
    exact ⟨inside, by simp [stream, erased, calm]⟩
  rw [← order, List.mem_append] at kept
  constructor
  · intro written left
    exact (List.nodup_append.mp distinct).2.2 i written i left rfl
  · exact kept.resolve_right

/-- When the thread has ended after `Stop`, the records appended before `Stop` are written exactly
    if `Stop` found the thread about to swap or nothing waiting for a swap. -/
theorem stop_flushes_iff {s₀ s₁ s₂ : AsyncLogging} (reached : asyncLogging.Reached Short s₀)
    (stopping : s₀.step .stop = some s₁) (run : (asyncLogging.restart s₁).Reached Short s₂)
    (joined : s₂.pc = .done) (calm : s₂.erasures = []) :
    (∀ i < s₀.log.length, i ∈ s₂.written) ↔ s₀.Draining := by
  obtain ⟨tidy, shape⟩ := reached_tidy reached
  have stopped : Stopped s₀.log.length s₁ ∧ s₁.unswapped = s₀.unswapped ∧ s₁.pc = s₀.pc := by
    simp only [step, stop] at stopping
    split_ifs at stopping
    cases stopping
    exact ⟨⟨tidy.setPc s₀.pc false rfl, shape, rfl, le_rfl⟩, rfl, rfl⟩
  obtain ⟨stopped, same, pc⟩ := stopped
  constructor
  · intro flushed
    by_contra blocked
    simp only [Draining, not_or] at blocked
    obtain ⟨i, left⟩ := List.exists_mem_of_ne_nil _ blocked.2
    have stranded : Stranded s₀.log.length i s₂ := by
      refine run.invariant (P := Stranded s₀.log.length i) ?_ fun s a s' => stranded_step
      rintro s rfl
      exact ⟨stopped, by simpa only [Swapping, pc] using blocked.1, same ▸ left⟩
    have old : i < s₀.log.length := by
      obtain ⟨b, -, here⟩ := List.mem_flatMap.mp left
      exact tidy.inside b i here
    exact (done_written stranded.1 joined calm old).mp (flushed i old) stranded.2.2
  · intro draining i old
    have flushing : Flushing s₀.log.length s₂ := by
      refine run.invariant (P := Flushing s₀.log.length) ?_ fun s a s' => flushing_step
      rintro s rfl
      refine ⟨stopped, ?_⟩
      rcases draining with swapping | nothing
      · exact .inl (by simpa only [Swapping, pc] using swapping)
      · exact .inr (by simp [same, nothing])
    refine (done_written flushing.1 joined calm old).mpr fun left => ?_
    rcases flushing.2 with swapping | later
    · simp [Swapping, joined] at swapping
    · exact absurd (later i left) (by omega)

/-- A record that is appended while the thread is about to swap. -/
theorem stop_flushes_iff_swapping : ∃ s₀ s₁ s₂ : AsyncLogging,
    asyncLogging.replay started [.thread, .thread, .append (text "x\n")] = some s₀ ∧
      s₀.step .stop = some s₁ ∧ s₂.written = [0] ∧
      ((∀ i < s₀.log.length, i ∈ s₂.written) ↔ s₀.Draining) := by
  obtain ⟨s₀, s₁, s₂, before, stopping, after, joined, calm, written⟩ :
      ∃ s₀ s₁ s₂ : AsyncLogging,
        asyncLogging.replay started [.thread, .thread, .append (text "x\n")] = some s₀ ∧
          s₀.step .stop = some s₁ ∧
          (asyncLogging.restart s₁).replay s₁
            [.thread, .thread, .thread, .thread, .thread, .thread, .thread] = some s₂ ∧
          s₂.pc = .done ∧ s₂.erasures = [] ∧ s₂.written = [0] :=
    ⟨_, _, _, rfl, rfl, rfl, rfl, rfl, rfl⟩
  have short : ∀ s : AsyncLogging, Short s (.append (text "x\n")) := fun _ => by
    show (text "x\n").length < kLargeBuffer
    decide
  have reached : asyncLogging.Reached Short s₀ :=
    .replay (by simpa [Short] using short) (.init rfl) before
  have run : (asyncLogging.restart s₁).Reached Short s₂ :=
    .replay (by simp [Short]) (.init rfl) after
  exact ⟨s₀, s₁, s₂, before, stopping, written, stop_flushes_iff reached stopping run joined calm⟩

/-- A record is lost when `Stop` comes before the thread tests `running_` again. -/
theorem stop_strands :
    ¬ ∀ s₀ s₁ s₂ : AsyncLogging, asyncLogging.Reached Short s₀ → s₀.step .stop = some s₁ →
      (asyncLogging.restart s₁).Reached Short s₂ → s₂.pc = .done → s₂.erasures = [] →
        ∀ i < s₀.log.length, i ∈ s₂.written := by
  intro flushes
  obtain ⟨s₀, s₁, s₂, before, stopping, after, joined, calm, log, written⟩ :
      ∃ s₀ s₁ s₂ : AsyncLogging,
        asyncLogging.replay started [.thread, .append (text "x\n")] = some s₀ ∧
          s₀.step .stop = some s₁ ∧ (asyncLogging.restart s₁).replay s₁ [.thread] = some s₂ ∧
          s₂.pc = .done ∧ s₂.erasures = [] ∧ s₀.log.length = 1 ∧ s₂.written = [] :=
    ⟨_, _, _, rfl, rfl, rfl, rfl, rfl, rfl, rfl⟩
  have short : ∀ s : AsyncLogging, Short s (.append (text "x\n")) := fun _ => by
    show (text "x\n").length < kLargeBuffer
    decide
  have reached : asyncLogging.Reached Short s₀ :=
    .replay (by simpa [Short] using short) (.init rfl) before
  have run : (asyncLogging.restart s₁).Reached Short s₂ :=
    .replay (by simp [Short]) (.init rfl) after
  have flushed := flushes s₀ s₁ s₂ reached stopping run joined calm 0 (by omega)
  simp [written] at flushed

end WebServer.AsyncLogging
