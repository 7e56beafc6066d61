import WebServer.Log.AsyncLogging

/-! # The buffers of the logger

No two slots of a logger hold the same buffer and the spare ones are empty. The second spare is given
away only when producers have used theirs, and then at least two buffers are swapped out, so both
spares can be refilled.
-/

namespace WebServer.AsyncLogging

open Lib

/-- The buffers that wait to be filled. -/
def spares (s : AsyncLogging) : List BufferPtr :=
  s.nextBuffer.toList ++ s.newBuffer1.toList ++ s.newBuffer2.toList

/-- All buffers the logger refers to. -/
def slots (s : AsyncLogging) : List BufferPtr := s.buffersToWrite ++ s.filling ++ s.spares

/-- What the logging thread has in hand at each point of its loop. -/
def Shape (s : AsyncLogging) : Prop :=
  match s.pc with
  | .boot => s.newBuffer1 = none ∧ s.newBuffer2 = none ∧ s.buffersToWrite = []
  | .test | .lock | .wait | .done =>
      s.newBuffer1 ≠ none ∧ s.newBuffer2 ≠ none ∧ s.buffersToWrite = []
  | .trim | .write _ | .recycle =>
      s.newBuffer1 = none ∧ s.buffersToWrite ≠ [] ∧
        (s.newBuffer2 = none → 2 ≤ s.buffersToWrite.length)

/-- What holds of the buffers in every reachable state. -/
structure Apart (s : AsyncLogging) : Prop where
  distinct : s.slots.Nodup
  allocated : ∀ b ∈ s.slots, b < s.unused
  blank : ∀ b ∈ s.spares, (s.heap b).data = []
  current : s.currentBuffer ≠ none
  handed : s.nextBuffer = none → s.buffers ≠ []

theorem spares_subset {s : AsyncLogging} {b : BufferPtr} (here : b ∈ s.spares) : b ∈ s.slots :=
  List.mem_append_right _ here

theorem Apart.arrange {s s' : AsyncLogging} (new : List BufferPtr) (apart : Apart s)
    (different : new.Nodup) (fresh : ∀ b ∈ new, s.unused ≤ b ∧ b < s'.unused)
    (slots : ∀ b, s'.slots.count b ≤ (new ++ s.slots).count b) (unused : s.unused ≤ s'.unused)
    (blank : ∀ b ∈ s'.spares, (s'.heap b).data = []) (current : s'.currentBuffer ≠ none)
    (handed : s'.nextBuffer = none → s'.buffers ≠ []) : Apart s' := by
  have distinct : (new ++ s.slots).Nodup := by
    refine List.nodup_append.mpr ⟨different, apart.distinct, fun b here c there same => ?_⟩
    have old := apart.allocated c there
    exact absurd old (Nat.not_lt.mpr (same ▸ (fresh b here).1))
  refine ⟨List.nodup_iff_count.mpr fun b => ?_, fun b here => ?_, blank, current, handed⟩
  · exact (slots b).trans (List.nodup_iff_count.mp distinct b)
  · have known : b ∈ new ++ s.slots :=
      List.count_pos_iff.mp ((List.count_pos_iff.mpr here).trans_le (slots b))
    rcases List.mem_append.mp known with young | old
    · exact (fresh b young).2
    · exact (apart.allocated b old).trans_le unused

theorem Apart.shrink {s s' : AsyncLogging} (apart : Apart s)
    (slots : ∀ b, s'.slots.count b ≤ s.slots.count b) (unused : s'.unused = s.unused)
    (blank : ∀ b ∈ s'.spares, (s'.heap b).data = []) (current : s'.currentBuffer ≠ none)
    (handed : s'.nextBuffer = none → s'.buffers ≠ []) : Apart s' :=
  apart.arrange [] List.nodup_nil nofun slots unused.ge blank current handed

theorem Apart.current_not_spare {s : AsyncLogging} {b : BufferPtr} (apart : Apart s)
    (current : s.currentBuffer = some b) : b ∉ s.spares := by
  intro spare
  have distinct := apart.distinct
  simp only [slots, filling, current, Option.toList_some, List.nodup_append, List.mem_append,
    List.mem_singleton] at distinct
  exact distinct.2.2 b (.inr (.inr rfl)) b spare rfl

theorem store_apart {s : AsyncLogging} {b : BufferPtr} {r : Bytes} (apart : Apart s)
    (current : s.currentBuffer = some b) : Apart (s.store b r) := by
  refine apart.shrink (fun _ => Nat.le_refl _) rfl (fun c here => ?_) apart.current apart.handed
  have other : c ≠ b := fun same => apart.current_not_spare current (same ▸ here)
  have kept : (s.store b r).heap c = s.heap c := Function.update_of_ne other ..
  rw [kept]
  exact apart.blank c here

theorem rotate_next_apart {s : AsyncLogging} {b next : BufferPtr} (apart : Apart s)
    (current : s.currentBuffer = some b) (spare : s.nextBuffer = some next) :
    Apart { s with
      buffers := s.buffers ++ [b], currentBuffer := some next, nextBuffer := none } := by
  refine apart.shrink (fun c => ?_) rfl (fun c here => ?_) nofun (by simp)
  · simp only [slots, filling, spares, current, spare, Option.toList_some, Option.toList_none,
      List.count_append, List.count_nil]
    omega
  · apply apart.blank c
    simp only [spares, Option.toList_none, List.nil_append, List.mem_append] at here ⊢
    tauto

theorem rotate_new_apart {s : AsyncLogging} {b : BufferPtr} (apart : Apart s)
    (current : s.currentBuffer = some b) (spare : s.nextBuffer = none) :
    Apart { s.allocate.2 with
      buffers := s.buffers ++ [b], currentBuffer := some s.unused } := by
  refine apart.arrange [s.unused] (List.nodup_singleton _) (fun c here => ?_) (fun c => ?_)
    (Nat.le_succ _) (fun c here => ?_) nofun (by simp)
  · rw [List.mem_singleton.mp here]
    exact ⟨Nat.le_refl _, Nat.lt_succ_self _⟩
  · simp only [slots, filling, spares, allocate, current, spare, Option.toList_some,
      List.count_append]
    omega
  · have known : c ∈ s.spares := by simpa only [spares, allocate, spare] using here
    have old := apart.allocated c (spares_subset known)
    have kept : s.allocate.2.heap c = s.heap c := Function.update_of_ne (Nat.ne_of_lt old) ..
    exact (congrArg FixedBuffer.data kept).trans (apart.blank c known)

theorem append_apart {s : AsyncLogging} (apart : Apart s) (shape : Shape s) (r : Bytes) :
    ∃ s', s.append r = some s' ∧ Apart s' ∧ Shape s' := by
  obtain ⟨b, current⟩ := Option.ne_none_iff_exists'.mp apart.current
  simp only [append, current]
  split_ifs with fits
  · exact ⟨_, rfl, store_apart apart current, shape⟩
  · cases spare : s.nextBuffer with
    | some next => exact ⟨_, rfl, store_apart (rotate_next_apart apart current spare) rfl, shape⟩
    | none =>
        have kept := store_apart (r := r) (rotate_new_apart apart current spare) rfl
        simp only [allocate, spare] at kept ⊢
        exact ⟨_, rfl, kept, shape⟩

theorem boot_apart {s : AsyncLogging} (apart : Apart s) (shape : Shape s) (booting : s.pc = .boot) :
    ∃ s', s.threadFunc = some s' ∧ Apart s' ∧ Shape s' := by
  simp only [Shape, booting] at shape
  obtain ⟨none1, none2, nothing⟩ := shape
  refine ⟨{ s.allocate.2.allocate.2 with
      newBuffer1 := some s.unused, newBuffer2 := some (s.unused + 1), pc := .test },
    by simp only [threadFunc, booting]; rfl, ?_, nofun, nofun, nothing⟩
  refine apart.arrange [s.unused, s.unused + 1] (by simp) (fun c here => ?_) (fun c => ?_)
    (Nat.le_add_right _ 2) (fun c here => ?_) apart.current apart.handed
  · simp only [List.mem_cons, List.not_mem_nil, or_false] at here
    rcases here with rfl | rfl
    · exact ⟨Nat.le_refl _, Nat.lt_succ_of_lt (Nat.lt_succ_self _)⟩
    · exact ⟨Nat.le_succ _, Nat.lt_succ_self _⟩
  · simp only [slots, filling, spares, allocate, none1, none2, Option.toList_some,
      Option.toList_none, List.count_append, List.count_cons, List.count_nil]
    omega
  · simp only [spares, allocate, Option.toList_some, List.mem_append, List.mem_singleton] at here
    simp only [allocate]
    by_cases second : c = s.unused + 1
    · subst second
      rw [Function.update_self]
      rfl
    · rw [Function.update_of_ne second]
      by_cases first : c = s.unused
      · subst first
        rw [Function.update_self]
        rfl
      · rw [Function.update_of_ne first]
        apply apart.blank c
        simp only [spares, List.mem_append]
        tauto

/-- The state after a swap of `current`, which the spare buffer `new` replaces. -/
def afterSwap (s : AsyncLogging) (current new next : BufferPtr) (newBuffer2 : Option BufferPtr) :
    AsyncLogging :=
  { s with
    currentBuffer := some new
    nextBuffer := some next
    newBuffer1 := none
    newBuffer2
    buffersToWrite := s.buffers ++ [current]
    buffers := []
    pc := .trim }

/-- What a swap does: the second spare buffer is given away only when producers have used theirs. -/
theorem swap_cases {s : AsyncLogging} (shape : Shape s) (locked : s.pc = .lock ∨ s.pc = .wait)
    (full : s.currentBuffer ≠ none) :
    ∃ current new next newBuffer2, s.currentBuffer = some current ∧ s.newBuffer1 = some new ∧
      s.buffersToWrite = [] ∧ s.swap = some (s.afterSwap current new next newBuffer2) ∧
      (s.nextBuffer = some next ∧ newBuffer2 = s.newBuffer2 ∧ newBuffer2 ≠ none ∨
        s.nextBuffer = none ∧ s.newBuffer2 = some next ∧ newBuffer2 = none) := by
  have hands : s.newBuffer1 ≠ none ∧ s.newBuffer2 ≠ none ∧ s.buffersToWrite = [] := by
    rcases locked with state | state <;> simpa only [Shape, state] using shape
  obtain ⟨some1, some2, nothing⟩ := hands
  obtain ⟨current, here⟩ := Option.ne_none_iff_exists'.mp full
  obtain ⟨new, given1⟩ := Option.ne_none_iff_exists'.mp some1
  obtain ⟨new2, given2⟩ := Option.ne_none_iff_exists'.mp some2
  cases next : s.nextBuffer with
  | some spare =>
      refine ⟨current, new, spare, some new2, here, given1, nothing, ?_,
        .inl ⟨rfl, given2.symm, by simp⟩⟩
      simp only [swap, here, next, afterSwap, given1, given2, nothing]
  | none =>
      refine ⟨current, new, new2, none, here, given1, nothing, ?_, .inr ⟨rfl, given2, rfl⟩⟩
      simp only [swap, here, next, afterSwap, given1, given2, nothing]

theorem afterSwap_spares {s : AsyncLogging} {current new next b : BufferPtr}
    {newBuffer2 : Option BufferPtr}
    (second : s.nextBuffer = some next ∧ newBuffer2 = s.newBuffer2 ∧ newBuffer2 ≠ none ∨
      s.nextBuffer = none ∧ s.newBuffer2 = some next ∧ newBuffer2 = none)
    (inside : b ∈ (s.afterSwap current new next newBuffer2).spares) : b ∈ s.spares := by
  rcases second with ⟨spare, same, -⟩ | ⟨used, given2, rfl⟩
  · simp only [spares, afterSwap, Option.toList_none, List.append_nil, List.mem_append, spare,
      same] at inside ⊢
    tauto
  · simp only [spares, afterSwap, Option.toList_none, List.append_nil, List.mem_append, used,
      given2] at inside ⊢
    tauto

theorem swap_apart {s : AsyncLogging} (apart : Apart s) (shape : Shape s)
    (locked : s.pc = .lock ∨ s.pc = .wait) : ∃ s', s.swap = some s' ∧ Apart s' ∧ Shape s' := by
  obtain ⟨current, new, next, newBuffer2, here, given1, nothing, swapped, second⟩ :=
    swap_cases shape locked apart.current
  refine ⟨_, swapped, ?_, rfl, ?_, ?_⟩
  · refine apart.shrink (fun c => ?_) rfl (fun c inside => ?_) nofun nofun
    · rcases second with ⟨spare, same, -⟩ | ⟨used, given2, rfl⟩
      · simp only [slots, filling, spares, afterSwap, here, spare, given1, nothing, same,
          Option.toList_some, Option.toList_none, List.count_append, List.count_nil]
        omega
      · simp only [slots, filling, spares, afterSwap, here, used, given1, given2, nothing,
          Option.toList_some, Option.toList_none, List.count_append, List.count_nil]
        omega
    · exact apart.blank c (afterSwap_spares second inside)
  · simp [afterSwap]
  · intro missing
    rcases second with ⟨-, -, kept⟩ | ⟨used, -, -⟩
    · exact absurd missing kept
    · have := List.length_pos_iff.mpr (apart.handed used)
      simp only [afterSwap, List.length_append, List.length_singleton]
      omega

theorem Apart.keepFewer {s : AsyncLogging} {kept : List BufferPtr} (apart : Apart s)
    (fewer : kept.Sublist s.buffersToWrite) (pc : ThreadFuncPc) (erasures : List Erasure) :
    Apart { s with buffersToWrite := kept, pc, erasures } := by
  refine apart.shrink (fun c => ?_) rfl apart.blank apart.current apart.handed
  have count := fewer.count_le c
  simp only [slots, List.count_append]
  exact Nat.add_le_add_right (Nat.add_le_add_right count _) _

theorem trim_apart {s : AsyncLogging} (apart : Apart s) (shape : Shape s) (trimming : s.pc = .trim) :
    Apart s.trim ∧ Shape s.trim := by
  simp only [Shape, trimming] at shape
  obtain ⟨none1, some_left, two⟩ := shape
  simp only [trim]
  split_ifs with crowd
  · refine ⟨apart.keepFewer (List.take_sublist _ _) _ _, none1, ?_, fun _ => ?_⟩
    · simp [some_left]
    · simp only [List.length_take]
      omega
  · exact ⟨apart.keepFewer (List.Sublist.refl _) _ _, none1, some_left, two⟩

theorem takeBack_cases {s : AsyncLogging} (some_left : s.buffersToWrite ≠ []) :
    ∃ back front, s.buffersToWrite = front ++ [back] ∧
      s.takeBack = some (back, { s with buffersToWrite := front }.resetBuffer back) := by
  obtain ⟨front, back, whole⟩ := (List.eq_nil_or_concat' s.buffersToWrite).resolve_left some_left
  exact ⟨back, front, whole, by simp [takeBack, whole]⟩

/-- A buffer taken back becomes a spare one. -/
theorem Apart.reuse {s s' : AsyncLogging} {back : BufferPtr} {front : List BufferPtr}
    (apart : Apart s) (whole : s.buffersToWrite = front ++ [back])
    (left : s'.buffersToWrite = front) (filling : s'.filling = s.filling)
    (spares : ∀ b, s'.spares.count b = (back :: s.spares).count b)
    (heap : s'.heap = Function.update s.heap back .empty) (unused : s'.unused = s.unused)
    (current : s'.currentBuffer = s.currentBuffer) (buffers : s'.buffers = s.buffers)
    (next : s'.nextBuffer = s.nextBuffer) : Apart s' := by
  refine apart.shrink (fun c => ?_) unused (fun c here => ?_) (current ▸ apart.current)
    (by rw [next, buffers]; exact apart.handed)
  · have other := spares c
    simp only [slots, left, filling, whole, List.count_append, List.count_cons, List.count_nil]
      at other ⊢
    omega
  · have known : c ∈ back :: s.spares := List.count_pos_iff.mp (spares c ▸ List.count_pos_iff.mpr here)
    rw [heap]
    by_cases same : c = back
    · rw [same, Function.update_self]
      rfl
    · rw [Function.update_of_ne same]
      exact apart.blank c ((List.mem_cons.mp known).resolve_left same)

theorem takeBack_map {s t : AsyncLogging} {refill : BufferPtr × AsyncLogging → AsyncLogging}
    (refilled : s.takeBack.map refill = some t) :
    ∃ back front, s.buffersToWrite = front ++ [back] ∧
      t = refill (back, { s with buffersToWrite := front }.resetBuffer back) := by
  have some_left : s.buffersToWrite ≠ [] := by
    intro none_left
    simp [takeBack, none_left] at refilled
  obtain ⟨back, front, whole, taken⟩ := takeBack_cases some_left
  rw [taken] at refilled
  exact ⟨back, front, whole, (Option.some.inj refilled).symm⟩

theorem refill1_cases {s t : AsyncLogging} (refilled : s.refill1 = some t) :
    t = s ∨ ∃ back front, s.buffersToWrite = front ++ [back] ∧
      t = { ({ s with buffersToWrite := front } : AsyncLogging).resetBuffer back with
        newBuffer1 := some back } := by
  unfold refill1 at refilled
  split at refilled
  · exact .inl (Option.some.inj refilled).symm
  · exact .inr (takeBack_map refilled)

theorem refill2_cases {s t : AsyncLogging} (refilled : s.refill2 = some t) :
    t = s ∨ ∃ back front, s.buffersToWrite = front ++ [back] ∧
      t = { ({ s with buffersToWrite := front } : AsyncLogging).resetBuffer back with
        newBuffer2 := some back } := by
  unfold refill2 at refilled
  split at refilled
  · exact .inl (Option.some.inj refilled).symm
  · exact .inr (takeBack_map refilled)

theorem refill1_apart {s : AsyncLogging} (apart : Apart s) (missing : s.newBuffer1 = none)
    (some_left : s.buffersToWrite ≠ []) :
    ∃ t, s.refill1 = some t ∧ Apart t ∧ t.newBuffer1 ≠ none ∧ t.newBuffer2 = s.newBuffer2 ∧
      t.buffersToWrite = s.buffersToWrite.dropLast := by
  obtain ⟨back, front, whole, taken⟩ := takeBack_cases some_left
  have refilled : s.refill1 =
      some { { s with buffersToWrite := front }.resetBuffer back with newBuffer1 := some back } := by
    unfold refill1
    rw [missing, taken]
    rfl
  refine ⟨_, refilled, ?_, nofun, rfl, ?_⟩
  · refine apart.reuse whole rfl rfl (fun c => ?_) rfl rfl rfl rfl rfl
    simp only [spares, resetBuffer, missing, Option.toList_some, Option.toList_none,
      List.count_append, List.count_cons, List.count_nil]
    omega
  · simp [resetBuffer, whole]

theorem refill2_apart {s : AsyncLogging} (apart : Apart s)
    (enough : s.newBuffer2 = none → s.buffersToWrite ≠ []) :
    ∃ t, s.refill2 = some t ∧ Apart t ∧ t.newBuffer1 = s.newBuffer1 ∧ t.newBuffer2 ≠ none := by
  cases given : s.newBuffer2 with
  | some new2 =>
      have refilled : s.refill2 = some s := by
        unfold refill2
        rw [given]
      exact ⟨s, refilled, apart, rfl, by simp [given]⟩
  | none =>
      obtain ⟨back, front, whole, taken⟩ := takeBack_cases (enough given)
      have refilled : s.refill2 = some
          { { s with buffersToWrite := front }.resetBuffer back with newBuffer2 := some back } := by
        unfold refill2
        rw [given, taken]
        rfl
      refine ⟨_, refilled, ?_, rfl, nofun⟩
      refine apart.reuse whole rfl rfl (fun c => ?_) rfl rfl rfl rfl rfl
      simp only [spares, resetBuffer, given, Option.toList_some, Option.toList_none,
        List.count_append, List.count_cons, List.count_nil]
      omega

/-- What `resize` leaves of the buffers that were written. -/
def resized (s : AsyncLogging) : AsyncLogging :=
  { s with buffersToWrite := s.buffersToWrite.take 2 }

theorem refills_apart {s : AsyncLogging} (apart : Apart s) (shape : Shape s)
    (recycling : s.pc = .recycle) :
    s.resized.buffersToWrite ≠ [] ∧ ∃ t, s.resized.refill1 = some t ∧ Apart t ∧
      (t.newBuffer2 = none → t.buffersToWrite ≠ []) ∧ ∃ u, t.refill2 = some u ∧ Apart u ∧
        u.newBuffer1 ≠ none ∧ u.newBuffer2 ≠ none := by
  simp only [Shape, recycling] at shape
  obtain ⟨none1, some_left, two⟩ := shape
  have fewer : Apart s.resized := apart.keepFewer (List.take_sublist _ _) s.pc s.erasures
  have positive : s.resized.buffersToWrite ≠ [] := by simp [resized, some_left]
  obtain ⟨t, refilled1, apart1, some1, hand2, left⟩ := refill1_apart fewer none1 positive
  have enough : t.newBuffer2 = none → t.buffersToWrite ≠ [] := by
    intro missing nothing
    have long := two (hand2.symm.trans missing)
    have lengths := congrArg List.length (left.symm.trans nothing)
    simp only [resized, List.length_dropLast, List.length_take, List.length_nil] at lengths
    omega
  obtain ⟨u, refilled2, apart2, hand1, some2⟩ := refill2_apart apart1 enough
  exact ⟨positive, t, refilled1, apart1, enough, u, refilled2, apart2, hand1 ▸ some1, some2⟩

theorem recycle_refilled {s t u : AsyncLogging} (refilled1 : s.resized.refill1 = some t)
    (refilled2 : t.refill2 = some u) :
    s.recycle = some { u with buffersToWrite := [], pc := .test } := by
  have refilled : s.resized.refill1.bind refill2 = some u := by
    rw [refilled1, Option.bind_some, refilled2]
  exact congrArg (Option.map _) refilled

theorem recycle_apart {s : AsyncLogging} (apart : Apart s) (shape : Shape s)
    (recycling : s.pc = .recycle) : ∃ s', s.recycle = some s' ∧ Apart s' ∧ Shape s' := by
  obtain ⟨-, t, refilled1, -, -, u, refilled2, apart2, some1, some2⟩ :=
    refills_apart apart shape recycling
  exact ⟨_, recycle_refilled refilled1 refilled2,
    apart2.keepFewer (List.nil_sublist _) .test u.erasures, some1, some2, rfl⟩

/-- The logging thread never fails an assertion or follows a null pointer before it ends. -/
theorem threadFunc_apart {s : AsyncLogging} (apart : Apart s) (shape : Shape s)
    (going : s.pc ≠ .done) : ∃ s', s.threadFunc = some s' ∧ Apart s' ∧ Shape s' := by
  have hands := shape
  have moved (pc : ThreadFuncPc) : Apart { s with pc } :=
    apart.keepFewer (List.Sublist.refl _) pc s.erasures
  cases state : s.pc with
  | boot => exact boot_apart apart shape state
  | test =>
      simp only [Shape, state] at hands
      refine ⟨_, by simp only [threadFunc, state]; rfl, moved _, ?_⟩
      cases s.running <;> exact hands
  | lock =>
      simp only [Shape, state] at hands
      cases empty : s.buffers.isEmpty with
      | true =>
          exact ⟨_, by simp only [threadFunc, state, empty, if_true], moved .wait, hands⟩
      | false =>
          obtain ⟨s', swapped, kept⟩ := swap_apart apart shape (.inl state)
          exact ⟨s', by simpa [threadFunc, state, empty] using swapped, kept⟩
  | wait =>
      obtain ⟨s', swapped, kept⟩ := swap_apart apart shape (.inr state)
      exact ⟨s', by simpa [threadFunc, state] using swapped, kept⟩
  | trim => exact ⟨s.trim, by simp only [threadFunc, state], trim_apart apart shape state⟩
  | write i =>
      simp only [Shape, state] at hands
      cases found : s.buffersToWrite[i]? with
      | none => exact ⟨_, by simp only [threadFunc, state, found], moved .recycle, hands⟩
      | some b =>
          refine ⟨{ s.writeBuffer b with pc := .write (i + 1) },
            by simp only [threadFunc, state, found], ?_, hands⟩
          exact apart.shrink (fun _ => Nat.le_refl _) rfl apart.blank apart.current apart.handed
  | recycle =>
      obtain ⟨s', recycled, kept⟩ := recycle_apart apart shape state
      exact ⟨s', by simpa [threadFunc, state] using recycled, kept⟩
  | done => exact absurd state going

theorem started_apart : Apart started ∧ Shape started :=
  ⟨⟨by decide, by decide, fun _ _ => rfl, nofun, nofun⟩, rfl, rfl, rfl⟩

theorem reachable_apart {s : AsyncLogging} (reachable : asyncLogging.Reachable s) :
    Apart s ∧ Shape s := by
  apply reachable.invariant (P := fun s => Apart s ∧ Shape s)
  · rintro s rfl
    exact started_apart
  · rintro s action s' ⟨apart, shape⟩ - moved
    cases action with
    | append r =>
        obtain ⟨t, appended, kept⟩ := append_apart apart shape r
        exact Option.some.inj (appended.symm.trans moved) ▸ kept
    | thread =>
        have going : s.pc ≠ .done := by
          intro ended
          simp [asyncLogging, step, threadFunc, ended] at moved
        obtain ⟨t, ran, kept⟩ := threadFunc_apart apart shape going
        exact Option.some.inj (ran.symm.trans moved) ▸ kept
    | stop =>
        simp only [asyncLogging, step, stop] at moved
        split_ifs at moved
        cases moved
        exact ⟨apart.shrink (fun _ => Nat.le_refl _) rfl apart.blank apart.current apart.handed,
          shape⟩

/-- The spare buffers of the logging thread while it waits for a swap. -/
structure SparesReady (s : AsyncLogging) : Prop where
  first : ∃ b, s.newBuffer1 = some b ∧ (s.heap b).data = []
  second : ∃ b, s.newBuffer2 = some b ∧ (s.heap b).data = []
  different : s.newBuffer1 ≠ s.newBuffer2
  unshared : ∀ b, s.newBuffer1 = some b ∨ s.newBuffer2 = some b →
    s.currentBuffer ≠ some b ∧ s.nextBuffer ≠ some b ∧ b ∉ s.buffers

/-- Where `new_buffer_1` and then `new_buffer_2` are refilled, there is a buffer to take back. -/
structure RefillsReady (s : AsyncLogging) : Prop where
  first : s.resized.newBuffer1 = none → s.resized.buffersToWrite ≠ []
  second : ∀ t, s.resized.refill1 = some t → t.newBuffer2 = none → t.buffersToWrite ≠ []

/-- The assertions of `ThreadFunc`, and that no null pointer is followed. -/
structure Asserted (s : AsyncLogging) : Prop where
  spares : s.pc = .test ∨ s.pc = .lock ∨ s.pc = .wait → SparesReady s ∧ s.buffersToWrite = []
  swapped : s.pc = .trim → s.buffersToWrite ≠ []
  current : s.currentBuffer ≠ none
  refills : s.pc = .recycle → RefillsReady s
  appends : ∀ r, s.append r ≠ none
  runs : s.pc ≠ .done → s.threadFunc ≠ none

theorem Apart.sparesReady {s : AsyncLogging} (apart : Apart s) (some1 : s.newBuffer1 ≠ none)
    (some2 : s.newBuffer2 ≠ none) : SparesReady s := by
  obtain ⟨b1, given1⟩ := Option.ne_none_iff_exists'.mp some1
  obtain ⟨b2, given2⟩ := Option.ne_none_iff_exists'.mp some2
  have distinct := apart.distinct
  simp only [slots, filling, AsyncLogging.spares, given1, given2, Option.toList_some,
    List.nodup_append, List.mem_append, List.mem_singleton, Option.mem_toList] at distinct
  obtain ⟨⟨-, -, next1⟩, -, next2⟩ := distinct.2.1
  have live := distinct.2.2
  refine ⟨⟨b1, given1, apart.blank b1 ?_⟩, ⟨b2, given2, apart.blank b2 ?_⟩, ?_, fun b here => ?_⟩
  · simp [AsyncLogging.spares, given1]
  · simp [AsyncLogging.spares, given2]
  · rw [given1, given2]
    exact fun same => next2 b1 (.inr rfl) b2 rfl (Option.some.inj same)
  · have spare : (s.nextBuffer = some b ∨ b = b1) ∨ b = b2 := by
      rw [given1, given2] at here
      rcases here with same | same
      · exact .inl (.inr (Option.some.inj same).symm)
      · exact .inr (Option.some.inj same).symm
    refine ⟨fun used => ?_, fun waiting => ?_, fun filled => ?_⟩
    · exact live b (.inr (.inr used)) b spare rfl
    · rcases here with same | same
      · exact next1 b waiting b1 rfl (Option.some.inj (same.symm.trans given1))
      · exact next2 b (.inl waiting) b2 rfl (Option.some.inj (same.symm.trans given2))
    · exact live b (.inr (.inl filled)) b spare rfl

/-- Whatever producers append and whenever they do, no assertion on the buffers fails. -/
theorem reachable_asserted {s : AsyncLogging} (reachable : asyncLogging.Reachable s) :
    Asserted s := by
  obtain ⟨apart, shape⟩ := reachable_apart reachable
  refine ⟨fun top => ?_, fun trimming => ?_, apart.current, fun recycling => ?_, fun r => ?_,
    fun going => ?_⟩
  · have hands : s.newBuffer1 ≠ none ∧ s.newBuffer2 ≠ none ∧ s.buffersToWrite = [] := by
      rcases top with state | state | state <;> simpa only [Shape, state] using shape
    exact ⟨apart.sparesReady hands.1 hands.2.1, hands.2.2⟩
  · simp only [Shape, trimming] at shape
    exact shape.2.1
  · obtain ⟨positive, t, refilled, -, enough, -⟩ := refills_apart apart shape recycling
    refine ⟨fun _ => positive, fun u refilled' => ?_⟩
    exact Option.some.inj (refilled.symm.trans refilled') ▸ enough
  · obtain ⟨t, appended, -⟩ := append_apart apart shape r
    exact appended ▸ nofun
  · obtain ⟨t, ran, -⟩ := threadFunc_apart apart shape going
    exact ran ▸ nofun

/-- The boot, an append and a swap after an empty wait. -/
def firstSwap : List LogAction := [.thread, .append (text "x"), .thread, .thread, .thread]

theorem first_swap_asserted :
    ∃ s, asyncLogging.replay started firstSwap = some s ∧ s.pc = .trim ∧ Asserted s := by
  obtain ⟨s, done⟩ := Option.isSome_iff_exists.mp
    (show (asyncLogging.replay started firstSwap).isSome = true from rfl)
  have trimming : (asyncLogging.replay started firstSwap).map pc = some .trim := rfl
  rw [done] at trimming
  exact ⟨s, done, Option.some.inj trimming,
    reachable_asserted (.replay (fun _ _ _ => trivial) (.init rfl) done)⟩

end WebServer.AsyncLogging
