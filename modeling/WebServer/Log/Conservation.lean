import WebServer.Log.DoubleBuffer

/-! # No record is lost on the way to the file

The buffers of a logger are kept apart and each holds the bytes of its records. So the records
written, those waiting in the unwritten buffers and those erased are all the records appended, in the
order in which the lock was acquired.
-/

namespace WebServer.AsyncLogging

open Lib

/-- The bytes of the records at some positions. -/
def bytesOf (log : List Bytes) (positions : List Nat) : Bytes :=
  (positions.filterMap (log[·]?)).flatten

structure Tidy (s : AsyncLogging) : Prop where
  distinct : s.slots.Nodup
  allocated : ∀ b ∈ s.slots, b < s.unused
  spare : ∀ b ∈ s.spares, s.held b = []
  bytes : ∀ b, (s.heap b).data = bytesOf s.log (s.held b)
  inside : ∀ b, ∀ i ∈ s.held b, i < s.log.length
  sound : s.stream.Sound
  output : s.output = bytesOf s.log s.written
  current : s.currentBuffer ≠ none
  handed : s.nextBuffer = none → s.buffers ≠ []
  crowded : ∀ e ∈ s.erasures, 25 < e.found

theorem Tidy.apart {s : AsyncLogging} (tidy : Tidy s) : Apart s := by
  refine ⟨tidy.distinct, tidy.allocated, fun b here => ?_, tidy.current, tidy.handed⟩
  rw [tidy.bytes b, tidy.spare b here]
  rfl

theorem bytesOf_append (log : List Bytes) (is js : List Nat) :
    bytesOf log (is ++ js) = bytesOf log is ++ bytesOf log js := by
  simp [bytesOf]

theorem bytesOf_log_append {log : List Bytes} {is : List Nat} (r : Bytes)
    (inside : ∀ i ∈ is, i < log.length) : bytesOf (log ++ [r]) is = bytesOf log is := by
  rw [bytesOf, bytesOf, List.filterMap_congr fun i here =>
    List.getElem?_append_left (inside i here)]

theorem bytesOf_newest (log : List Bytes) (r : Bytes) : bytesOf (log ++ [r]) [log.length] = r := by
  simp [bytesOf]

theorem flatMap_update_last {f : BufferPtr → List Nat} {xs : List BufferPtr} {b : BufferPtr}
    (v : List Nat) (fresh : b ∉ xs) :
    (xs ++ [b]).flatMap (Function.update f b v) = xs.flatMap f ++ v := by
  have others : xs.flatMap (Function.update f b v) = xs.flatMap f :=
    List.flatMap_congr fun c here => by
      rw [Function.update_of_ne (fun same : c = b => fresh (same ▸ here))]
  rw [List.flatMap_append, others]
  simp

theorem swappedOut_sublist (s : AsyncLogging) : s.swappedOut.Sublist s.buffersToWrite := by
  simp only [swappedOut]
  split
  · exact List.drop_sublist _ _
  · exact List.nil_sublist _
  · exact List.Sublist.refl _

theorem store_tidy {s : AsyncLogging} {b : BufferPtr} {r : Bytes} (tidy : Tidy s)
    (current : s.currentBuffer = some b) (room : r.length < (s.heap b).avail) :
    Tidy (s.store b r) := by
  have slots : (s.store b r).slots = s.slots := rfl
  have alone : b ∉ s.swappedOut ++ s.buffers := by
    have distinct := tidy.distinct
    simp only [AsyncLogging.slots, filling, current, Option.toList_some, List.nodup_append,
      List.mem_append, List.mem_singleton] at distinct
    intro here
    rcases List.mem_append.mp here with swapped | filled
    · exact distinct.1.2.2 b (s.swappedOut_sublist.mem swapped) b (.inr rfl) rfl
    · exact distinct.1.2.1.2.2 b filled b rfl rfl
  have held : (s.store b r).held = Function.update s.held b (s.held b ++ [s.log.length]) := by
    simp only [store, if_pos room]
  have pending : (s.store b r).stream.pending = s.stream.pending ++ [s.log.length] := by
    have unwritten : s.unwritten = (s.swappedOut ++ s.buffers) ++ [b] := by
      simp only [AsyncLogging.unwritten, filling, current, Option.toList_some, List.append_assoc]
    have same : (s.store b r).stream.pending = s.unwritten.flatMap (s.store b r).held := rfl
    rw [same, held, unwritten, flatMap_update_last _ alone]
    simp only [stream, unwritten, List.flatMap_append, List.flatMap_singleton, List.append_assoc]
  refine ⟨tidy.distinct, tidy.allocated, fun c here => ?_, fun c => ?_, fun c i here => ?_, ?_, ?_,
    tidy.current, tidy.handed, tidy.crowded⟩
  · have other : c ≠ b := fun same => tidy.apart.current_not_spare current (same ▸ here)
    rw [held, Function.update_of_ne other]
    exact tidy.spare c here
  · rw [held]
    by_cases same : c = b
    · subst same
      simp only [store, Function.update_self, FixedBuffer.append_data room, bytesOf_append,
        bytesOf_newest, bytesOf_log_append r (tidy.inside c), tidy.bytes c]
    · simp only [store, Function.update_of_ne same, bytesOf_log_append r (tidy.inside c),
        tidy.bytes c]
  · rw [held] at here
    simp only [store, List.length_append, List.length_singleton]
    by_cases same : c = b
    · subst same
      simp only [Function.update_self, List.mem_append, List.mem_singleton] at here
      rcases here with old | new
      · have := tidy.inside c i old
        omega
      · omega
    · rw [Function.update_of_ne same] at here
      have := tidy.inside c i here
      omega
  · have accepted := tidy.sound.accept r
    have stream : (s.store b r).stream =
        { s.stream with log := s.log ++ [r], pending := s.stream.pending ++ [s.log.length] } := by
      rw [← pending]
      rfl
    rw [stream]
    exact accepted
  · have older : ∀ i ∈ s.written, i < s.log.length := fun i here =>
      tidy.sound.inside (List.mem_append_left _ here)
    simp only [store, bytesOf_log_append r older, tidy.output]

theorem resetBuffer_tidy {s : AsyncLogging} {b : BufferPtr} (tidy : Tidy s)
    (idle : b ∉ s.unwritten) : Tidy (s.resetBuffer b) where
  distinct := tidy.distinct
  allocated := tidy.allocated
  spare c here := by
    by_cases same : c = b
    · subst same
      exact Function.update_self ..
    · simp only [resetBuffer, Function.update_of_ne same]
      exact tidy.spare c here
  bytes c := by
    by_cases same : c = b
    · subst same
      simp [resetBuffer, FixedBuffer.empty, bytesOf]
    · simp only [resetBuffer, Function.update_of_ne same, tidy.bytes c]
  inside c i here := by
    by_cases same : c = b
    · subst same
      simp [resetBuffer] at here
    · simp only [resetBuffer, Function.update_of_ne same] at here
      exact tidy.inside c i here
  sound := by
    have stream : (s.resetBuffer b).stream = s.stream := by
      have pending : s.unwritten.flatMap (Function.update s.held b []) =
          s.unwritten.flatMap s.held := List.flatMap_congr fun c here => by
        rw [Function.update_of_ne (fun same : c = b => idle (same ▸ here))]
      simp only [AsyncLogging.stream]
      exact congrArg (fun pending => (⟨s.log, s.written, pending, s.erased⟩ : RecordStream Bytes))
        pending
    exact stream ▸ tidy.sound
  output := tidy.output
  current := tidy.current
  handed := tidy.handed
  crowded := tidy.crowded

theorem unwritten_subset (s : AsyncLogging) {b : BufferPtr} (here : b ∈ s.unwritten) :
    b ∈ s.slots := by
  simp only [unwritten, slots, List.mem_append] at here ⊢
  rcases here with swapped | filled
  · exact .inl (.inl (s.swappedOut_sublist.mem swapped))
  · exact .inl (.inr filled)

theorem allocate_tidy {s : AsyncLogging} (tidy : Tidy s) :
    Tidy s.allocate.2 ∧ s.allocate.2.held s.unused = [] := by
  have absent : s.unused ∉ s.slots := fun here => Nat.lt_irrefl _ (tidy.allocated _ here)
  have reset := resetBuffer_tidy tidy fun here => absent (s.unwritten_subset here)
  refine ⟨⟨reset.distinct, fun b here => ?_, reset.spare, reset.bytes, reset.inside, reset.sound,
    reset.output, reset.current, reset.handed, reset.crowded⟩, Function.update_self ..⟩
  exact Nat.lt_succ_of_lt (tidy.allocated b here)

theorem Tidy.rearrange {s s' : AsyncLogging} (tidy : Tidy s) (apart : Apart s')
    (spare : ∀ b ∈ s'.spares, s'.held b = []) (stream : s'.stream = s.stream)
    (heap : s'.heap = s.heap) (held : s'.held = s.held) (output : s'.output = s.output)
    (erasures : s'.erasures = s.erasures) : Tidy s' := by
  have log : s'.log = s.log := congrArg RecordStream.log stream
  have written : s'.written = s.written := congrArg RecordStream.delivered stream
  exact ⟨apart.distinct, apart.allocated, spare, by rw [heap, held, log]; exact tidy.bytes,
    by rw [held, log]; exact tidy.inside, stream ▸ tidy.sound,
    by rw [output, log, written]; exact tidy.output, apart.current, apart.handed,
    erasures ▸ tidy.crowded⟩

theorem rotate_next_tidy {s : AsyncLogging} {b next : BufferPtr} (tidy : Tidy s)
    (current : s.currentBuffer = some b) (spare : s.nextBuffer = some next) :
    Tidy { s with
      buffers := s.buffers ++ [b], currentBuffer := some next, nextBuffer := none } := by
  have none_held : s.held next = [] := tidy.spare next (by simp [spares, spare])
  refine tidy.rearrange (rotate_next_apart tidy.apart current spare) (fun c here => ?_) ?_ rfl rfl rfl
    rfl
  · apply tidy.spare c
    simp only [spares, Option.toList_none, List.nil_append, List.mem_append] at here ⊢
    tauto
  · simp [stream, unwritten, swappedOut, filling, current, none_held, erased]

theorem rotate_new_tidy {s : AsyncLogging} {b : BufferPtr} (tidy : Tidy s)
    (current : s.currentBuffer = some b) (spare : s.nextBuffer = none) :
    Tidy { s.allocate.2 with
      buffers := s.buffers ++ [b], currentBuffer := some s.unused } := by
  obtain ⟨allocated, -⟩ := allocate_tidy tidy
  refine allocated.rearrange (rotate_new_apart tidy.apart current spare) allocated.spare ?_ rfl rfl
    rfl rfl
  have kept : s.allocate.2.currentBuffer = some b := current
  simp only [stream, unwritten, filling, kept, Option.toList_some]
  simp [swappedOut, allocate, erased]

/-- The positions of the records that no swap has taken over. -/
def unswapped (s : AsyncLogging) : List Nat := s.filling.flatMap s.held

/-- A state `t` in which `Append` has made room in the buffer `b`. -/
structure Prepared (s t : AsyncLogging) (b : BufferPtr) (r : Bytes) : Prop where
  tidy : Tidy t
  current : t.currentBuffer = some b
  room : r.length < (t.heap b).avail
  unswapped : t.unswapped = s.unswapped
  log : t.log = s.log
  running : t.running = s.running
  pc : t.pc = s.pc
  newBuffer1 : t.newBuffer1 = s.newBuffer1
  newBuffer2 : t.newBuffer2 = s.newBuffer2
  buffersToWrite : t.buffersToWrite = s.buffersToWrite

/-- `Append` stores a record shorter than a buffer whole, after making room for it. -/
theorem append_prepared {s s' : AsyncLogging} {r : Bytes} (tidy : Tidy s)
    (short : r.length < kLargeBuffer) (appended : s.append r = some s') :
    ∃ t b, Prepared s t b r ∧ s' = t.store b r := by
  have room : ∀ {t : AsyncLogging} {b : BufferPtr}, Tidy t → t.held b = [] →
      r.length < (t.heap b).avail := by
    intro t b tidy none_held
    have none_stored : (t.heap b).data = [] := by
      rw [tidy.bytes b, none_held]
      rfl
    simpa [FixedBuffer.avail, none_stored] using short
  cases current : s.currentBuffer with
  | none => simp [append, current] at appended
  | some b =>
      simp only [append, current] at appended
      split_ifs at appended with fits
      · cases appended
        exact ⟨s, b, ⟨tidy, current, fits, rfl, rfl, rfl, rfl, rfl, rfl, rfl⟩, rfl⟩
      · cases spare : s.nextBuffer with
        | some next =>
            simp only [spare] at appended
            cases appended
            have none_held : s.held next = [] := tidy.spare next (by simp [spares, spare])
            have rotated := rotate_next_tidy tidy current spare
            refine ⟨_, next, ⟨rotated, rfl, room rotated none_held, ?_, rfl, rfl, rfl, rfl, rfl, rfl⟩,
              rfl⟩
            simp [unswapped, filling, current, none_held]
        | none =>
            simp only [spare] at appended
            cases appended
            have none_held := (allocate_tidy tidy).2
            have rotated := rotate_new_tidy tidy current spare
            refine ⟨_, s.unused, ⟨rotated, rfl, room rotated none_held, ?_, rfl, rfl, rfl, rfl, rfl,
              rfl⟩, by simp [allocate, store, spare]⟩
            have absent : s.unused ∉ s.buffers ++ [b] := fun here =>
              Nat.lt_irrefl _ (tidy.allocated _ (by
                simp only [slots, filling, current, Option.toList_some, List.mem_append] at here ⊢
                tauto))
            have same := flatMap_update_last (f := s.held) [] absent
            simpa [unswapped, filling, current, allocate] using same

theorem append_tidy {s s' : AsyncLogging} {r : Bytes} (tidy : Tidy s)
    (short : r.length < kLargeBuffer) (appended : s.append r = some s') : Tidy s' := by
  obtain ⟨t, b, prepared, rfl⟩ := append_prepared tidy short appended
  exact store_tidy prepared.tidy prepared.current prepared.room

theorem append_shape {s s' : AsyncLogging} {r : Bytes} (tidy : Tidy s) (shape : Shape s)
    (short : r.length < kLargeBuffer) (appended : s.append r = some s') : Shape s' := by
  obtain ⟨t, b, prepared, rfl⟩ := append_prepared tidy short appended
  simpa only [Shape, store, prepared.pc, prepared.newBuffer1, prepared.newBuffer2,
    prepared.buffersToWrite] using shape

theorem Tidy.setPc {s : AsyncLogging} (tidy : Tidy s) (pc : ThreadFuncPc) (running : Bool)
    (same : AsyncLogging.swappedOut { s with pc, running } = s.swappedOut) :
    Tidy { s with pc, running } := by
  have apart : Apart { s with pc, running } :=
    tidy.apart.shrink (fun _ => Nat.le_refl _) rfl tidy.apart.blank tidy.current tidy.handed
  refine tidy.rearrange apart tidy.spare ?_ rfl rfl rfl rfl
  simp only [stream, unwritten, same]
  rfl

theorem boot_tidy {s s' : AsyncLogging} (tidy : Tidy s) (booting : s.pc = .boot) (apart : Apart s')
    (ran : s.threadFunc = some s') : Tidy s' := by
  simp only [threadFunc, booting] at ran
  cases ran
  obtain ⟨first, none_held1⟩ := allocate_tidy tidy
  obtain ⟨second, none_held2⟩ := allocate_tidy first
  have kept_none : s.allocate.2.allocate.2.held s.unused = [] :=
    (Function.update_of_ne (Nat.ne_of_lt (Nat.lt_succ_self _)) ..).trans none_held1
  refine second.rearrange apart (fun c here => ?_) ?_ rfl rfl rfl rfl
  · have known : c ∈ s.allocate.2.allocate.2.nextBuffer.toList ∨ c = s.unused ∨ c = s.unused + 1 := by
      simpa [spares, allocate, or_assoc] using here
    rcases known with waiting | rfl | rfl
    · exact second.spare c (List.mem_append_left _ (List.mem_append_left _ waiting))
    · exact kept_none
    · exact none_held2
  · simp [stream, unwritten, swappedOut, allocate, booting, filling, erased]

theorem swap_tidy {s s' : AsyncLogging} (tidy : Tidy s) (shape : Shape s)
    (locked : s.pc = .lock ∨ s.pc = .wait) (apart : Apart s') (swapped : s.swap = some s') :
    Tidy s' := by
  obtain ⟨current, new, next, newBuffer2, here, given1, nothing, done, second⟩ :=
    swap_cases shape locked tidy.current
  obtain rfl := Option.some.inj (done.symm.trans swapped)
  have none_held : s.held new = [] := tidy.spare new (by simp [spares, given1])
  have unswapped : s.swappedOut = [] := by
    rcases locked with state | state <;> simp [swappedOut, state, nothing]
  refine tidy.rearrange apart (fun b inside => ?_) ?_ rfl rfl rfl rfl
  · exact tidy.spare b (afterSwap_spares second inside)
  · have out : (s.afterSwap current new next newBuffer2).swappedOut = s.buffers ++ [current] := rfl
    simp only [stream, unwritten, out, unswapped, filling]
    simp [afterSwap, here, none_held, erased]

theorem trim_tidy {s : AsyncLogging} (tidy : Tidy s) (apart : Apart s.trim)
    (trimming : s.pc = .trim) : Tidy s.trim := by
  simp only [trim] at apart ⊢
  split_ifs at apart ⊢ with crowd
  · have waiting : s.stream.pending = (s.buffersToWrite.take 2).flatMap s.held ++
        (s.buffersToWrite.drop 2).flatMap s.held ++ s.filling.flatMap s.held := by
      rw [← List.flatMap_append, List.take_append_drop, ← List.flatMap_append]
      simp only [stream, unwritten, swappedOut, trimming]
    have lost := tidy.sound.lose waiting
    refine ⟨apart.distinct, apart.allocated, tidy.spare, tidy.bytes, tidy.inside, ?_, tidy.output,
      tidy.current, tidy.handed, ?_⟩
    · have stream : AsyncLogging.stream { s with
          buffersToWrite := s.buffersToWrite.take 2,
          erasures := s.erasures ++
            [⟨s.buffersToWrite.length, (s.buffersToWrite.drop 2).flatMap s.held⟩],
          pc := .write 0 } =
          { s.stream with
            pending := (s.buffersToWrite.take 2).flatMap s.held ++ s.filling.flatMap s.held
            lost := s.stream.lost ++ (s.buffersToWrite.drop 2).flatMap s.held } := by
        simp [AsyncLogging.stream, unwritten, swappedOut, erased, filling]
      rw [stream]
      exact lost
    · intro e here
      rcases List.mem_append.mp here with old | new
      · exact tidy.crowded e old
      · rw [List.mem_singleton.mp new]
        exact crowd
  · exact tidy.setPc (.write 0) s.running (by simp [swappedOut, trimming])

theorem write_tidy {s s' : AsyncLogging} {i : Nat} (tidy : Tidy s) (writing : s.pc = .write i)
    (ran : s.threadFunc = some s') : Tidy s' := by
  simp only [threadFunc, writing] at ran
  cases found : s.buffersToWrite[i]? with
  | none =>
      simp only [found] at ran
      cases ran
      have past := List.getElem?_eq_none_iff.mp found
      apply tidy.setPc .recycle s.running
      simp [swappedOut, writing, List.drop_of_length_le past]
  | some b =>
      simp only [found] at ran
      cases ran
      obtain ⟨inside, here⟩ := List.getElem?_eq_some_iff.mp found
      have next : s.buffersToWrite.drop i = b :: s.buffersToWrite.drop (i + 1) := by
        rw [List.drop_eq_getElem_cons inside, here]
      have waiting : s.stream.pending = s.held b ++
          (s.buffersToWrite.drop (i + 1) ++ s.filling).flatMap s.held := by
        simp only [stream, unwritten, swappedOut, writing, next, List.cons_append, List.flatMap_cons]
      refine ⟨tidy.distinct, tidy.allocated, tidy.spare, tidy.bytes, tidy.inside,
        tidy.sound.deliver waiting, ?_, tidy.current, tidy.handed, tidy.crowded⟩
      simp only [writeBuffer, tidy.output, tidy.bytes, bytesOf_append]

theorem Tidy.keepFewer {s : AsyncLogging} {kept : List BufferPtr} {pc : ThreadFuncPc} (tidy : Tidy s)
    (recycling : s.pc = .recycle) (fewer : kept.Sublist s.buffersToWrite)
    (none_waiting : AsyncLogging.swappedOut { s with buffersToWrite := kept, pc } = []) :
    Tidy { s with buffersToWrite := kept, pc } := by
  refine tidy.rearrange (tidy.apart.keepFewer fewer pc s.erasures) tidy.spare ?_ rfl rfl rfl rfl
  have before : s.swappedOut = [] := by simp only [swappedOut, recycling]
  simp only [stream, unwritten, none_waiting, before]
  rfl

/-- A written buffer that is taken back becomes a spare one. -/
theorem Tidy.reuse {s : AsyncLogging} {back : BufferPtr} {front : List BufferPtr}
    {newBuffer1 newBuffer2 : Option BufferPtr} (tidy : Tidy s) (recycling : s.pc = .recycle)
    (whole : s.buffersToWrite = front ++ [back])
    (apart : Apart { s.resetBuffer back with buffersToWrite := front, newBuffer1, newBuffer2 })
    (given1 : ∀ b, newBuffer1 = some b → b = back ∨ s.newBuffer1 = some b)
    (given2 : ∀ b, newBuffer2 = some b → b = back ∨ s.newBuffer2 = some b) :
    Tidy { s.resetBuffer back with buffersToWrite := front, newBuffer1, newBuffer2 } := by
  have idle : back ∉ s.unwritten := by
    have distinct := tidy.distinct
    simp only [slots, whole, List.nodup_append, List.mem_append, List.mem_singleton] at distinct
    simp only [unwritten, swappedOut, recycling, List.nil_append]
    exact fun here => distinct.1.2.2 back (.inr rfl) back here rfl
  have reset := resetBuffer_tidy tidy idle
  refine reset.rearrange apart (fun b here => ?_) ?_ rfl rfl rfl rfl
  · have empty : (s.resetBuffer back).held back = [] := Function.update_self ..
    simp only [spares, List.mem_append, Option.mem_toList] at here
    rcases here with (waiting | hand1) | hand2
    · exact reset.spare b (by
        simp only [spares, List.mem_append, Option.mem_toList]
        exact .inl (.inl waiting))
    · rcases given1 b hand1 with rfl | old
      · exact empty
      · exact reset.spare b (by
          simp only [spares, List.mem_append, Option.mem_toList]
          exact .inl (.inr old))
    · rcases given2 b hand2 with rfl | old
      · exact empty
      · exact reset.spare b (by
          simp only [spares, List.mem_append, Option.mem_toList]
          exact .inr old)
  · simp [stream, unwritten, swappedOut, recycling, filling, resetBuffer, erased]

theorem refill1_tidy {s t : AsyncLogging} (tidy : Tidy s) (recycling : s.pc = .recycle)
    (apart : Apart t) (refilled : s.refill1 = some t) : Tidy t ∧ t.pc = .recycle := by
  rcases refill1_cases refilled with rfl | ⟨back, front, whole, rfl⟩
  · exact ⟨tidy, recycling⟩
  · exact ⟨tidy.reuse recycling whole apart (fun b same => .inl (Option.some.inj same).symm)
      (fun b same => .inr same), recycling⟩

theorem refill2_tidy {s t : AsyncLogging} (tidy : Tidy s) (recycling : s.pc = .recycle)
    (apart : Apart t) (refilled : s.refill2 = some t) : Tidy t ∧ t.pc = .recycle := by
  rcases refill2_cases refilled with rfl | ⟨back, front, whole, rfl⟩
  · exact ⟨tidy, recycling⟩
  · exact ⟨tidy.reuse recycling whole apart (fun b same => .inr same)
      (fun b same => .inl (Option.some.inj same).symm), recycling⟩

theorem recycle_tidy {s s' : AsyncLogging} (tidy : Tidy s) (shape : Shape s)
    (recycling : s.pc = .recycle) (recycled : s.recycle = some s') : Tidy s' := by
  obtain ⟨-, t, refilled1, apart1, -, u, refilled2, apart2, -⟩ :=
    refills_apart tidy.apart shape recycling
  have resized : Tidy s.resized :=
    tidy.keepFewer recycling (List.take_sublist _ _) (by simp only [swappedOut, recycling])
  obtain ⟨tidy1, recycling1⟩ := refill1_tidy resized recycling apart1 refilled1
  obtain ⟨tidy2, recycling2⟩ := refill2_tidy tidy1 recycling1 apart2 refilled2
  obtain rfl := Option.some.inj ((recycle_refilled refilled1 refilled2).symm.trans recycled)
  exact tidy2.keepFewer recycling2 (List.nil_sublist _) rfl

/-- The logging thread never fails an assertion or follows a null pointer before it ends, and each
    of its steps keeps the records. -/
theorem threadFunc_tidy {s : AsyncLogging} (tidy : Tidy s) (shape : Shape s) (going : s.pc ≠ .done) :
    ∃ s', s.threadFunc = some s' ∧ Tidy s' ∧ Shape s' := by
  obtain ⟨s', ran, apart, shape'⟩ := threadFunc_apart tidy.apart shape going
  refine ⟨s', ran, ?_, shape'⟩
  cases state : s.pc with
  | boot => exact boot_tidy tidy state apart ran
  | test =>
      simp only [threadFunc, state] at ran
      cases ran
      apply tidy.setPc _ s.running
      cases s.running <;> simp [swappedOut, state]
  | lock =>
      cases empty : s.buffers.isEmpty with
      | true =>
          simp only [threadFunc, state, empty, if_true] at ran
          cases ran
          exact tidy.setPc .wait s.running (by simp [swappedOut, state])
      | false =>
          exact swap_tidy tidy shape (.inl state) apart (by simpa [threadFunc, state, empty] using ran)
  | wait => exact swap_tidy tidy shape (.inr state) apart (by simpa [threadFunc, state] using ran)
  | trim =>
      simp only [threadFunc, state] at ran
      cases ran
      exact trim_tidy tidy apart state
  | write i => exact write_tidy tidy state ran
  | recycle => exact recycle_tidy tidy shape state (by simpa [threadFunc, state] using ran)
  | done => exact absurd state going

/-- The appended record is shorter than a buffer. -/
def Short (_ : AsyncLogging) : LogAction → Prop
  | .append logline => logline.length < kLargeBuffer
  | .thread | .stop => True

theorem started_tidy : Tidy started ∧ Shape started := by
  refine ⟨⟨by decide, by decide, fun _ _ => rfl, fun _ => rfl, by simp [started], ⟨rfl, by simp
    [stream, erased, started]⟩, rfl, by simp [started], by simp [started], by simp [started]⟩,
    by simp [Shape, started]⟩

theorem reached_tidy {s : AsyncLogging} (reached : asyncLogging.Reached Short s) :
    Tidy s ∧ Shape s := by
  apply reached.invariant (P := fun s => Tidy s ∧ Shape s)
  · rintro s rfl
    exact started_tidy
  · rintro s action s' ⟨tidy, shape⟩ short moved
    cases action with
    | append r => exact ⟨append_tidy tidy short moved, append_shape tidy shape short moved⟩
    | thread =>
        have going : s.pc ≠ .done := by
          intro ended
          simp [asyncLogging, step, threadFunc, ended] at moved
        obtain ⟨t, ran, kept⟩ := threadFunc_tidy tidy shape going
        obtain rfl : t = s' := Option.some.inj (ran.symm.trans moved)
        exact kept
    | stop =>
        simp only [asyncLogging, step, stop] at moved
        split_ifs at moved
        cases moved
        exact ⟨tidy.setPc s.pc false rfl, shape⟩

/-- In every reachable state the bytes written and those in the unwritten buffers are the records
    appended, in the order in which the lock was acquired, without those in buffers erased at a swap
    that found more than 25. -/
theorem records_conserved {s : AsyncLogging} (reached : asyncLogging.Reached Short s) :
    ∃ kept : List Nat, kept.Sublist (List.range s.log.length) ∧
      s.output ++ s.unwritten.flatMap (fun b => (s.heap b).data) =
        (kept.filterMap (s.log[·]?)).flatten ∧
      ∀ i, i < s.log.length → (i ∉ kept ↔ ∃ e ∈ s.erasures, 25 < e.found ∧ i ∈ e.records) := by
  obtain ⟨tidy, -⟩ := reached_tidy reached
  refine ⟨s.stream.kept, List.filter_sublist, ?_, fun i inside => ?_⟩
  · have waiting : s.unwritten.flatMap (fun b => (s.heap b).data) =
        bytesOf s.log (s.unwritten.flatMap s.held) := by
      induction s.unwritten with
      | nil => rfl
      | cons b rest ih => rw [List.flatMap_cons, List.flatMap_cons, bytesOf_append, ih, tidy.bytes b]
    rw [tidy.output, waiting, ← bytesOf_append]
    exact congrArg (bytesOf s.log) tidy.sound.order
  · have lost : i ∈ s.erased ↔ ∃ e ∈ s.erasures, 25 < e.found ∧ i ∈ e.records := by
      simp only [erased, List.mem_flatMap]
      exact ⟨fun ⟨e, here, there⟩ => ⟨e, here, tidy.crowded e here, there⟩,
        fun ⟨e, here, _, there⟩ => ⟨e, here, there⟩⟩
    have known : i < s.stream.log.length := inside
    rw [RecordStream.mem_kept, ← lost]
    simp only [known, true_and, not_not]
    rfl

/-- Two records are appended, a round of `ThreadFunc` writes them, and a third comes between its swap and
    its end. -/
def writtenRound : List LogAction :=
  [.append (text "a\n"), .thread, .append (text "b\n"), .thread, .thread, .thread, .thread,
    .append (text "c\n"), .thread, .thread, .thread]

theorem records_conserved_round : ∃ s, asyncLogging.replay started writtenRound = some s ∧
    s.pc = .test ∧ s.output = text "a\nb\n" ∧
      ∃ kept : List Nat, kept.Sublist (List.range 3) ∧
        s.output ++ s.unwritten.flatMap (fun b => (s.heap b).data) =
          (kept.filterMap ([text "a\n", text "b\n", text "c\n"][·]?)).flatten ∧
        ∀ i, i < 3 → (i ∉ kept ↔ ∃ e ∈ s.erasures, 25 < e.found ∧ i ∈ e.records) := by
  obtain ⟨s, ran, pc, output, log⟩ : ∃ s, asyncLogging.replay started writtenRound = some s ∧
      s.pc = .test ∧ s.output = text "a\nb\n" ∧
      s.log = [text "a\n", text "b\n", text "c\n"] := ⟨_, rfl, rfl, rfl, rfl⟩
  have short : ∀ action ∈ writtenRound, ∀ s, Short s action := by
    have state : Nonempty AsyncLogging := ⟨started⟩
    simp only [writtenRound, Short, List.forall_mem_cons, List.not_mem_nil, false_implies, forall_const,
      implies_true, and_true, true_and]
    decide
  have conserved := records_conserved (.replay short (.init rfl) ran)
  rw [log] at conserved
  exact ⟨s, ran, pc, output, conserved⟩

end WebServer.AsyncLogging
