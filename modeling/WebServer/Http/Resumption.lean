import WebServer.Http.HeaderCodec
import WebServer.Http.Session
import WebServer.Http.Verdict

/-! # Calls of `ParseHeaders` that resume

A call that runs out of bytes keeps the automaton's state and the bytes from the start of the line on,
but not its indices, and the next call scans the kept bytes again in that state. That goes well only if
the automaton still waits for its first key.
-/

namespace WebServer

open Lib

namespace HttpData

variable {str front rest : Bytes} {i : Nat} {c : UInt8} {l l' : HeaderLoop}

/-- Where the bytes that a call keeps begin, when it has scanned `front`. -/
def Kept (front : Bytes) (l : HeaderLoop) : Prop :=
  match l.hState with
  | .hStart => l.nowReadLineBegin = 0 ∧ ∀ c ∈ front, c = CR ∨ c = LF
  | .hLf => ∃ before, front = before ++ [LF] ∧ l.nowReadLineBegin = before.length
  | .hEndCr => ∃ before, front = before ++ [LF, CR] ∧ l.nowReadLineBegin = before.length
  | .hKey | .hColon | .hSpacesAfterColon | .hValue | .hCr | .hEndLf => True

theorem headerStep_kept (kept : Kept front l) (short : front.length < 2 ^ 31)
    (moved : headerStep str front.length c l = .ok (.next l')) : Kept (front ++ [c]) l' := by
  have position : toInt front.length = front.length := toInt_of_lt short
  unfold Kept at kept
  unfold headerStep at moved
  cases state : l.hState with
  | hStart =>
      simp only [state] at kept moved
      split_ifs at moved with eol
      · cases moved
        unfold Kept
        simp only [state]
        refine ⟨kept.1, fun d there => ?_⟩
        rcases List.mem_append.mp there with before | last
        · exact kept.2 d before
        · rw [List.mem_singleton.mp last]
          exact eol.symm
      · cases moved
        trivial
  | hLf =>
      simp only [state] at kept moved
      obtain ⟨before, rfl, line⟩ := kept
      split_ifs at moved with cr
      · cases moved
        subst cr
        exact ⟨before, List.append_assoc .., line⟩
      · cases moved
        trivial
  | hCr =>
      simp only [state] at moved
      split_ifs at moved with lf
      · cases key : slice str l.keyStart l.keyEnd with
        | error e =>
            simp only [key, bind, Except.bind] at moved
            cases moved
        | ok name =>
            cases value : slice str l.valueStart l.valueEnd with
            | error e =>
                simp only [key, value, bind, Except.bind] at moved
                cases moved
            | ok content =>
                simp only [key, value, bind, Except.bind] at moved
                cases moved
                subst lf
                exact ⟨front, rfl, position⟩
      · cases moved
  | hKey | hValue =>
      simp only [state] at moved
      split_ifs at moved <;> cases moved <;> simp [Kept, state]
  | hColon | hEndCr =>
      simp only [state] at moved
      split_ifs at moved
      · cases moved
        trivial
      · cases moved
  | hSpacesAfterColon | hEndLf =>
      simp only [state] at moved
      cases moved
      simp [Kept]

/-- Only behind the blank line does a step end the loop. -/
theorem headerStep_ends (moved : headerStep str i c l = .ok (.next l')) :
    l'.notFinished = l.notFinished ∨ l'.hState = .hEndLf := by
  unfold headerStep at moved
  cases state : l.hState with
  | hEndLf =>
      simp only [state] at moved
      cases moved
      exact .inr rfl
  | hCr =>
      simp only [state] at moved
      split_ifs at moved
      · simp only [bind, Except.bind] at moved
        split at moved
        · cases moved
        · split at moved <;> cases moved
          exact .inl rfl
      · cases moved
  | hStart | hKey | hColon | hSpacesAfterColon | hValue | hLf | hEndCr =>
      simp only [state] at moved
      try split_ifs at moved
      all_goals
        cases moved
        try exact .inl rfl

theorem headerLoop_over {j : Nat} (atEnd : l.hState = .hEndLf)
    (ended : headerLoop str i rest l = .ok (.done j l')) : l'.hState = .hEndLf := by
  induction rest generalizing i l with
  | nil =>
      cases ended
      exact atEnd
  | cons c rest ih =>
      rw [headerLoop] at ended
      split_ifs at ended
      · unfold headerStep at ended
        simp only [atEnd, bind, Except.bind] at ended
        exact ih rfl ended
      · cases ended
        exact atEnd

/-- A scan that is not over has come to the end of its bytes. -/
theorem headerLoop_kept {j : Nat} (kept : Kept front l) (running : l.notFinished = true)
    (short : (front ++ rest).length < 2 ^ 31)
    (ended : headerLoop str front.length rest l = .ok (.done j l')) (open_ : l'.hState ≠ .hEndLf) :
    Kept (front ++ rest) l' ∧ l'.notFinished = true ∧ j = (front ++ rest).length := by
  induction rest generalizing front l with
  | nil =>
      cases ended
      rw [List.append_nil]
      exact ⟨kept, running, rfl⟩
  | cons c rest ih =>
      have whole : front ++ c :: rest = (front ++ [c]) ++ rest := by
        rw [List.append_assoc, List.singleton_append]
      have next : front.length + 1 = (front ++ [c]).length := by
        rw [List.length_append, List.length_singleton]
      rw [whole] at short ⊢
      rw [headerLoop, if_pos running] at ended
      cases step : headerStep str front.length c l with
      | error e =>
          simp only [step, bind, Except.bind] at ended
          cases ended
      | ok result =>
          simp only [step, bind, Except.bind] at ended
          cases result with
          | reject l₁ => cases ended
          | next l₁ =>
              dsimp only at ended
              rw [next] at ended
              rw [List.length_append, List.length_append] at short
              have kept₁ := headerStep_kept kept (by omega) step
              rcases headerStep_ends step with same | atEnd
              · refine ih kept₁ (same.trans running) ?_ ended
                rw [List.length_append, List.length_append]
                exact short
              · exact absurd (headerLoop_over atEnd ended) open_

theorem slice_extend {first last : Int} (low : 0 ≤ first) (ordered : first ≤ last)
    (high : last ≤ str.length) (back : Bytes) :
    slice (str ++ back) first last = slice str first last := by
  have inside : last ≤ (str ++ back).length := by
    rw [List.length_append]
    omega
  rw [slice_inside low ordered inside, slice_inside low ordered high,
    List.drop_append_of_le_length (by omega), List.take_append_of_le_length]
  rw [List.length_drop]
  omega

theorem headerStep_extend (indexed : Indexed i l) (inside : i < str.length) (back : Bytes) :
    headerStep (str ++ back) i c l = headerStep str i c l := by
  obtain ⟨-, indices⟩ := indexed
  unfold headerStep
  cases state : l.hState with
  | hCr =>
      simp only [state] at indices
      dsimp only
      rw [slice_extend indices.1 (by omega) (by omega), slice_extend (by omega) (by omega) (by omega)]
  | hStart | hKey | hColon | hSpacesAfterColon | hValue | hLf | hEndCr | hEndLf => rfl

theorem headerLoop_extend (indexed : Indexed i l) (whole : i + rest.length ≤ str.length)
    (short : str.length < 2 ^ 31) (back : Bytes) :
    headerLoop (str ++ back) i rest l = headerLoop str i rest l := by
  induction rest generalizing i l with
  | nil => rfl
  | cons c rest ih =>
      rw [List.length_cons] at whole
      rw [headerLoop, headerLoop, headerStep_extend indexed (by omega)]
      split_ifs with running
      · rcases headerStep_indexed (c := c) indexed (by omega : i < str.length) short with
          ⟨l', refused⟩ | ⟨l', moved, indexed'⟩
        · rw [refused]
          rfl
        · rw [moved]
          exact ih indexed' (by omega)
      · rfl

/-- The shortest bytes that finish a header line from inside it. -/
def lineEnd : ParseState → Bytes
  | .hKey => [COLON, SPACE, 97, CR, LF]
  | .hColon => [SPACE, 97, CR, LF]
  | .hSpacesAfterColon => [97, CR, LF]
  | .hValue => [CR, LF]
  | .hStart | .hCr | .hLf | .hEndCr | .hEndLf => [LF]

/-- The scan ends behind a line. -/
def EndsLine (str : Bytes) (i : Nat) (rest : Bytes) (l : HeaderLoop) : Prop :=
  ∃ l', headerLoop str i rest l = .ok (.done (i + rest.length) l') ∧ l'.hState = .hLf ∧
    l'.nowReadLineBegin = (i + rest.length - 1 : Nat)

theorem EndsLine.step (moved : headerStep str i c l = .ok (.next l'))
    (running : l.notFinished = true) (ends : EndsLine str (i + 1) rest l') :
    EndsLine str i (c :: rest) l := by
  obtain ⟨l₁, ended, state, line⟩ := ends
  have length : i + (c :: rest).length = i + 1 + rest.length := by
    rw [List.length_cons]
    omega
  refine ⟨l₁, ?_, state, ?_⟩
  · rw [headerLoop_next moved running, ended, length]
  · rw [line, length]

theorem endsLine_cr (state : l.hState = .hCr) (running : l.notFinished = true)
    (indexed : Indexed i l) (inside : i < str.length) (short : str.length < 2 ^ 31) :
    EndsLine str i [LF] l := by
  have indices := indexed.2
  simp only [state] at indices
  have key := slice_inside (s := str) indices.1 (by omega : l.keyStart ≤ l.keyEnd) (by omega)
  have value := slice_inside (s := str) (by omega : 0 ≤ l.valueStart)
    (by omega : l.valueStart ≤ l.valueEnd) (by omega)
  have moved : ∃ l', headerStep str i LF l = .ok (.next l') ∧ l'.hState = .hLf ∧
      l'.nowReadLineBegin = toInt i := by
    unfold headerStep
    simp only [state, if_true, key, value, bind, Except.bind]
    exact ⟨_, rfl, rfl, rfl⟩
  obtain ⟨l', moved, state', line⟩ := moved
  refine ⟨l', ?_, state', ?_⟩
  · rw [headerLoop_next moved running]
    rfl
  · rw [line, toInt_of_lt (by omega)]
    rfl

theorem endsLine_value (state : l.hState = .hValue) (running : l.notFinished = true)
    (indexed : Indexed i l) (inside : i + 1 < str.length) (short : str.length < 2 ^ 31) :
    EndsLine str i [CR, LF] l := by
  have position : toInt i = i := toInt_of_lt (by omega)
  have indices := indexed.2
  simp only [state] at indices
  have moved : headerStep str i CR l =
      .ok (.next { l with hState := .hCr, valueEnd := toInt i }) := by
    unfold headerStep
    simp only [state, if_true, position]
    rw [if_neg (by omega)]
  refine .step moved running (endsLine_cr rfl running ?_ inside short)
  have line := indexed.1
  simp only [Indexed, position]
  omega

theorem endsLine_spaces (state : l.hState = .hSpacesAfterColon) (running : l.notFinished = true)
    (indexed : Indexed i l) (inside : i + 2 < str.length) (short : str.length < 2 ^ 31) :
    EndsLine str i [97, CR, LF] l := by
  have position : toInt i = i := toInt_of_lt (by omega)
  have indices := indexed.2
  simp only [state] at indices
  have moved : headerStep str i 97 l =
      .ok (.next { l with hState := .hValue, valueStart := toInt i }) := by
    unfold headerStep
    simp only [state]
  refine .step moved running (endsLine_value rfl running ?_ inside short)
  have line := indexed.1
  simp only [Indexed, position]
  omega

theorem endsLine_colon (state : l.hState = .hColon) (running : l.notFinished = true)
    (indexed : Indexed i l) (inside : i + 3 < str.length) (short : str.length < 2 ^ 31) :
    EndsLine str i [SPACE, 97, CR, LF] l := by
  have indices := indexed.2
  simp only [state] at indices
  have moved : headerStep str i SPACE l = .ok (.next { l with hState := .hSpacesAfterColon }) := by
    unfold headerStep
    simp only [state, if_true]
  refine .step moved running (endsLine_spaces rfl running ?_ inside short)
  have line := indexed.1
  simp only [Indexed]
  omega

theorem endsLine_key (state : l.hState = .hKey) (running : l.notFinished = true)
    (indexed : Indexed i l) (inside : i + 4 < str.length) (short : str.length < 2 ^ 31) :
    EndsLine str i [COLON, SPACE, 97, CR, LF] l := by
  have position : toInt i = i := toInt_of_lt (by omega)
  have indices := indexed.2
  simp only [state] at indices
  have moved : headerStep str i COLON l =
      .ok (.next { l with hState := .hColon, keyEnd := toInt i }) := by
    unfold headerStep
    simp only [state, if_true, position]
    rw [if_neg (by omega)]
  refine .step moved running (endsLine_colon rfl running ?_ inside short)
  have line := indexed.1
  simp only [Indexed, position]
  omega

/-- From inside a line these bytes lead behind it. -/
theorem endsLine_mid (mid : MidLine l.hState) (running : l.notFinished = true)
    (indexed : Indexed i l) (inside : i + (lineEnd l.hState).length ≤ str.length)
    (short : str.length < 2 ^ 31) : EndsLine str i (lineEnd l.hState) l := by
  cases state : l.hState with
  | hKey =>
      rw [state] at inside
      exact endsLine_key state running indexed (Nat.lt_of_succ_le inside) short
  | hColon =>
      rw [state] at inside
      exact endsLine_colon state running indexed (Nat.lt_of_succ_le inside) short
  | hSpacesAfterColon =>
      rw [state] at inside
      exact endsLine_spaces state running indexed (Nat.lt_of_succ_le inside) short
  | hValue =>
      rw [state] at inside
      exact endsLine_value state running indexed (Nat.lt_of_succ_le inside) short
  | hCr =>
      rw [state] at inside
      exact endsLine_cr state running indexed (Nat.lt_of_succ_le inside) short
  | hStart | hLf | hEndCr | hEndLf =>
      rw [state] at mid
      exact mid.elim

variable {s t : HttpData}

/-- What a call of `ParseHeaders` shows: its result, `headers_` and `in_buffer_`. -/
def shown (s : HttpData) : Except Fault (HeaderState × HeaderMap × Bytes) :=
  (parseHeaders s).map fun (flag, t) => (flag, t.headers, t.inBuffer)

theorem indexed_start (start : s.hState = .hStart) :
    Indexed 0 { hState := s.hState, headers := s.headers } := by
  refine ⟨⟨le_rfl, le_rfl⟩, ?_⟩
  simp only [start]

/-- What is known of a call that asks for more bytes. -/
structure Paused (s t : HttpData) (l : HeaderLoop) : Prop where
  scanned : headerLoop s.inBuffer 0 s.inBuffer { hState := s.hState, headers := s.headers } =
    .ok (.done s.inBuffer.length l)
  running : l.notFinished = true
  kept : Kept s.inBuffer l
  indexed : Indexed s.inBuffer.length l
  unfinished : l.hState ≠ .hEndLf
  left : t = { s with
    hState := l.hState
    headers := l.headers
    inBuffer := s.inBuffer.drop l.nowReadLineBegin.toNat }

theorem parseHeaders_paused (start : s.hState = .hStart) (short : s.inBuffer.length < 2 ^ 31)
    (asked : parseHeaders s = .ok (.parseHeaderAgain, t)) : ∃ l, Paused s t l := by
  have kept : Kept [] { hState := s.hState, headers := s.headers } := by simp [Kept, start]
  rcases headerLoop_indexed s.inBuffer (indexed_start start) (Nat.zero_add _) short with
    ⟨l', refused⟩ | ⟨j, l, scanned, indexed, inside⟩
  · rw [parseHeaders_rejected refused] at asked
    cases asked
  · have unfinished : l.hState ≠ .hEndLf := by
      intro finished
      rw [parseHeaders_success scanned finished (substr_of_le npos inside)] at asked
      cases asked
    obtain ⟨kept', running, length⟩ := headerLoop_kept kept rfl short scanned unfinished
    rw [List.nil_append] at kept' length
    subst length
    have low := indexed.1.1
    have high := indexed.1.2
    have position : sizeT l.nowReadLineBegin = l.nowReadLineBegin.toNat := by
      unfold sizeT
      omega
    have cut : substr s.inBuffer (sizeT l.nowReadLineBegin) npos =
        .ok (s.inBuffer.drop l.nowReadLineBegin.toNat) := by
      rw [position, substr_npos]
      · omega
      · unfold npos
        omega
    rw [parseHeaders_again scanned unfinished cut] at asked
    cases asked
    exact ⟨l, scanned, running, kept', indexed, unfinished, rfl⟩

theorem Paused.whole (paused : Paused s t l) (start : s.hState = .hStart)
    (short : s.inBuffer.length < 2 ^ 31) (back : Bytes) :
    headerLoop (s.inBuffer ++ back) 0 (s.inBuffer ++ back)
        { hState := s.hState, headers := s.headers } =
      headerLoop (s.inBuffer ++ back) s.inBuffer.length back l := by
  have extended := headerLoop_extend (indexed_start start) (Nat.zero_add _).le short back
  rw [paused.scanned] at extended
  exact headerLoop_append extended paused.running back

theorem parseHeaders_breaks (start : s.hState = .hStart) (sized : s.inBuffer.length ≤ npos)
    (breaks : ∀ c ∈ s.inBuffer, c = CR ∨ c = LF) :
    parseHeaders s = .ok (.parseHeaderAgain, s) := by
  have scanned : headerLoop s.inBuffer 0 (s.inBuffer ++ [])
      { hState := s.hState, headers := s.headers } = _ := headerLoop_breaks start rfl breaks
  rw [List.append_nil, headerLoop] at scanned
  have whole : substr s.inBuffer (sizeT 0) npos = .ok s.inBuffer := by
    rw [show sizeT 0 = 0 from rfl, substr_zero, List.take_of_length_le sized]
  exact parseHeaders_again scanned (by simp [start]) whole

/-- A call that resumes inside a line fails, rejects or keeps everything. -/
theorem shown_resumed {result : HeaderState × HeaderMap × Bytes} (mid : MidLine s.hState)
    (short : s.inBuffer.length < 2 ^ 31) (returned : shown s = .ok result) :
    result.1 = .parseHeaderError ∨ result.2.2 = s.inBuffer := by
  have inside := headerLoop_resumed s.inBuffer 0 s.inBuffer
    (l := { hState := s.hState, headers := s.headers }) mid (by simp) rfl
  unfold shown at returned
  cases scanned : headerLoop s.inBuffer 0 s.inBuffer { hState := s.hState, headers := s.headers } with
  | error e =>
      rw [parseHeaders_error scanned] at returned
      cases returned
  | ok scan =>
      rw [scanned] at inside
      cases inside with
      | rejected =>
          rw [parseHeaders_rejected scanned] at returned
          cases returned
          exact .inl rfl
      | @done i l' same =>
          have small : s.inBuffer.length ≤ npos := by
            unfold npos
            omega
          have whole : substr s.inBuffer (sizeT l'.nowReadLineBegin) npos = .ok s.inBuffer := by
            rw [same.nowReadLineBegin, show sizeT 0 = 0 from rfl, substr_zero,
              List.take_of_length_le small]
          rw [parseHeaders_again scanned same.mid.unfinished whole] at returned
          cases returned
          exact .inr rfl

theorem shown_endsLine {front back tail : Bytes} (last : tail = back ++ [LF])
    (ends : EndsLine s.inBuffer front.length tail l)
    (whole : s.inBuffer = front ++ tail) (short : s.inBuffer.length < 2 ^ 31)
    (scanned : headerLoop s.inBuffer 0 s.inBuffer { hState := s.hState, headers := s.headers } =
      headerLoop s.inBuffer front.length tail l) :
    ∃ m, shown s = .ok (.parseHeaderAgain, m, [LF]) := by
  subst last
  obtain ⟨l', ended, state, line⟩ := ends
  have cut : substr s.inBuffer (sizeT l'.nowReadLineBegin) npos = .ok [LF] := by
    refine substr_rest (front ++ back) (whole.trans (List.append_assoc ..).symm) ?_ (by omega)
    have length := congrArg List.length whole
    rw [List.length_append, List.length_append, List.length_singleton] at length
    rw [line, List.length_append, List.length_append, List.length_singleton]
    unfold sizeT
    omega
  unfold shown
  rw [parseHeaders_again (scanned.trans ended) (by simp [state]) cut]
  exact ⟨_, rfl⟩

theorem lineEnd_last (state : ParseState) : ∃ front, lineEnd state = front ++ [LF] := by
  cases state
  case hKey => exact ⟨[COLON, SPACE, 97, CR], rfl⟩
  case hColon => exact ⟨[SPACE, 97, CR], rfl⟩
  case hSpacesAfterColon => exact ⟨[97, CR], rfl⟩
  case hValue => exact ⟨[CR], rfl⟩
  all_goals exact ⟨[], rfl⟩

/-- Inside a line some bytes are not resumed on: those that finish it. -/
theorem Paused.mid (paused : Paused s t l) (start : s.hState = .hStart)
    (short : s.inBuffer.length + 5 < 2 ^ 31) (mid : MidLine l.hState) :
    shown { t with inBuffer := t.inBuffer ++ lineEnd l.hState } ≠
      shown { s with inBuffer := s.inBuffer ++ lineEnd l.hState } := by
  intro same
  have length : (lineEnd l.hState).length ≤ 5 := by cases l.hState <;> decide
  obtain ⟨back, last⟩ := lineEnd_last l.hState
  have total : (s.inBuffer ++ lineEnd l.hState).length < 2 ^ 31 := by
    rw [List.length_append]
    omega
  have ends : EndsLine (s.inBuffer ++ lineEnd l.hState) s.inBuffer.length (lineEnd l.hState) l :=
    endsLine_mid mid paused.running
    paused.indexed (List.length_append ..).ge total
  have whole := paused.whole start (by omega) (lineEnd l.hState)
  have state : t.hState = l.hState := by rw [paused.left]
  have cut : t.inBuffer.length ≤ s.inBuffer.length := by
    rw [paused.left]
    exact (List.length_drop ..).trans_le (Nat.sub_le ..)
  have total' : (t.inBuffer ++ lineEnd l.hState).length < 2 ^ 31 := by
    rw [List.length_append] at total ⊢
    omega
  obtain ⟨m, single⟩ := shown_endsLine (s := { s with inBuffer := s.inBuffer ++ lineEnd l.hState })
    last ends rfl total whole
  rw [single] at same
  rcases shown_resumed (s := { t with inBuffer := t.inBuffer ++ lineEnd l.hState }) (state ▸ mid)
    total' same with failed | all
  · cases failed
  -- Nothing but the `\n` is there to resume on, and it finishes the line.
  · rw [last, ← List.append_assoc] at all
    have nothing : t.inBuffer ++ back = [] := (List.append_left_inj [LF]).mp all.symm
    obtain ⟨empty, short_end⟩ := List.append_eq_nil_iff.mp nothing
    have cr : l.hState = .hCr := by
      rw [short_end] at last
      revert last mid
      cases l.hState <;> decide
    have finishes : FinishesLine { t with inBuffer := t.inBuffer ++ lineEnd l.hState } := by
      refine ⟨state ▸ mid, [], [], 0, _, ?_, rfl, state.trans cr⟩
      rw [empty, last, short_end]
      rfl
    obtain ⟨e, faulted⟩ := (parseHeaders_fault_iff total').mpr finishes
    rw [shown, faulted] at same
    cases same

theorem shown_keptLf (state : s.hState = .hLf) (buffered : s.inBuffer = [LF, CR, LF]) :
    shown s = .ok (.parseHeaderError, s.headers, s.inBuffer) := by
  unfold shown parseHeaders
  rw [state, buffered]
  rfl

theorem shown_blankLine {front : Bytes} {headers : HeaderMap}
    (whole : s.inBuffer = front ++ [CR, LF])
    (scanned : headerLoop s.inBuffer 0 s.inBuffer { hState := s.hState, headers := s.headers } =
      headerLoop s.inBuffer front.length [CR, LF] l)
    (done : LineDone front.length headers l) (small : s.inBuffer.length < 2 ^ 63) :
    shown s = .ok (.parseHeaderSuccess, headers, []) := by
  unfold shown
  rw [parseHeaders_blankLine front whole scanned done small]
  rfl

theorem shown_lastLf (state : s.hState = .hEndCr) (buffered : s.inBuffer = [LF, CR]) :
    shown s = .ok (.parseHeaderSuccess, s.headers, []) := by
  unfold shown parseHeaders
  rw [state, buffered]
  rfl

/-- A scan that went past its first key is not resumed on some bytes. -/
theorem Paused.strays (paused : Paused s t l) (start : s.hState = .hStart)
    (short : s.inBuffer.length + 5 < 2 ^ 31)
    (asked : parseHeaders s = .ok (.parseHeaderAgain, t)) (begun : l.hState ≠ .hStart) :
    ∃ b, shown { t with inBuffer := t.inBuffer ++ b } ≠
      shown { s with inBuffer := s.inBuffer ++ b } := by
  have kept := paused.kept
  have left := congrArg HttpData.inBuffer paused.left
  have state := congrArg HttpData.hState paused.left
  unfold Kept at kept
  dsimp only at left state
  cases stopped : l.hState with
  | hStart => exact absurd stopped begun
  | hEndLf => exact absurd stopped paused.unfinished
  | hKey | hColon | hSpacesAfterColon | hValue | hCr =>
      exact ⟨_, paused.mid start short (by rw [stopped]; trivial)⟩
  | hLf =>
      simp only [stopped] at kept
      obtain ⟨before, whole, line⟩ := kept
      refine ⟨[CR, LF], fun same => ?_⟩
      have done : LineDone s.inBuffer.length l.headers l := by
        refine ⟨stopped, rfl, ?_, paused.running⟩
        rw [line, whole, List.length_append, List.length_singleton]
        omega
      rw [shown_blankLine (s := { s with inBuffer := s.inBuffer ++ [CR, LF] }) rfl
        (paused.whole start (by omega) _) done (by simp; omega)] at same
      have buffered : t.inBuffer ++ [CR, LF] = [LF, CR, LF] := by
        rw [left, line, whole, Int.toNat_natCast, List.drop_left]
        rfl
      rw [shown_keptLf (s := { t with inBuffer := t.inBuffer ++ [CR, LF] }) (state.trans stopped)
        buffered] at same
      cases same
  | hEndCr =>
      simp only [stopped] at kept
      obtain ⟨before, whole, line⟩ := kept
      refine ⟨[], fun same => ?_⟩
      have buffered : t.inBuffer = [LF, CR] := by
        rw [left, line, whole, Int.toNat_natCast, List.drop_left]
      rw [List.append_nil, List.append_nil, shown_lastLf (state.trans stopped) buffered, shown,
        asked] at same
      cases same

/-- A call that asked for more bytes can be resumed, whatever these are, exactly if it met nothing but
    line breaks. -/
theorem resumable_iff (start : s.hState = .hStart) (sized : s.inBuffer.length ≤ npos)
    (asked : parseHeaders s = .ok (.parseHeaderAgain, t)) :
    ((∀ c ∈ s.inBuffer, c = CR ∨ c = LF) →
      ∀ b, shown { t with inBuffer := t.inBuffer ++ b } =
        shown { s with inBuffer := s.inBuffer ++ b }) ∧
    -- An index of a longer string is no `int`.
    (s.inBuffer.length + 5 < 2 ^ 31 →
      (∀ b, shown { t with inBuffer := t.inBuffer ++ b } =
        shown { s with inBuffer := s.inBuffer ++ b }) →
      ∀ c ∈ s.inBuffer, c = CR ∨ c = LF) := by
  constructor
  · intro breaks b
    rw [parseHeaders_breaks start sized breaks] at asked
    cases asked
    rfl
  · intro short resumes
    obtain ⟨l, paused⟩ := parseHeaders_paused start (by omega) asked
    by_cases begun : l.hState = .hStart
    · have kept := paused.kept
      unfold Kept at kept
      simp only [begun] at kept
      exact kept.2
    · obtain ⟨b, strays⟩ := paused.strays start short asked begun
      exact absurd (resumes b) strays

theorem resumable_iff_key :
    ∃ t, parseHeaders { HttpData.new 5 with inBuffer := text "A" } = .ok (.parseHeaderAgain, t) ∧
      ¬ ∀ b, shown { t with inBuffer := t.inBuffer ++ b } =
        shown { HttpData.new 5 with inBuffer := text "A" ++ b } := by
  refine ⟨_, rfl, fun resumes => ?_⟩
  have breaks := (resumable_iff (s := { HttpData.new 5 with inBuffer := text "A" }) rfl (by decide)
    rfl).2 (by decide) resumes
  exact absurd (breaks 65 List.mem_cons_self) (by decide)

theorem blankLine_not_resumed :
    ∃ t, parseHeaders { HttpData.new 5 with inBuffer := text "A: b\r\n" } =
        .ok (.parseHeaderAgain, t) ∧
      shown { t with inBuffer := t.inBuffer ++ text "\r\n" } ≠
        shown { HttpData.new 5 with inBuffer := text "A: b\r\n" ++ text "\r\n" } := by
  refine ⟨_, rfl, fun same => ?_⟩
  have results := congrArg (Except.map (·.1)) same
  exact absurd results (by decide)

end HttpData

end WebServer
