import WebServer.Http.State

/-! # `ParseHeaders`

The automaton's state is a member and survives a call that runs out of bytes; its four indices
are locals that start at `-1` in every call. Indices are `int`, positions are `size_t`.
-/

namespace WebServer.HttpData

open Lib

/-- The members and locals that the loop of `ParseHeaders` changes. -/
structure HeaderLoop where
  hState : ParseState
  headers : HeaderMap
  keyStart : Int := -1
  keyEnd : Int := -1
  valueStart : Int := -1
  valueEnd : Int := -1
  nowReadLineBegin : Int := 0
  notFinished : Bool := true

/-- What one iteration does: go on, or return `PARSE_HEADER_ERROR`. -/
inductive HeaderStep where
  | next (l : HeaderLoop)
  | reject (l : HeaderLoop)

/-- One iteration of the loop, at the byte `c = str[i]`. -/
def headerStep (str : Bytes) (i : Nat) (c : UInt8) (l : HeaderLoop) : Except Fault HeaderStep :=
  match l.hState with
  | .hStart =>
      if c = LF ∨ c = CR then .ok (.next l)
      else .ok (.next { l with hState := .hKey, keyStart := toInt i, nowReadLineBegin := toInt i })
  | .hKey =>
      if c = COLON then
        let l := { l with keyEnd := toInt i }
        if l.keyEnd - l.keyStart ≤ 0 then .ok (.reject l)
        else .ok (.next { l with hState := .hColon })
      else if c = LF ∨ c = CR then .ok (.reject l)
      else .ok (.next l)
  | .hColon =>
      if c = SPACE then .ok (.next { l with hState := .hSpacesAfterColon })
      else .ok (.reject l)
  | .hSpacesAfterColon => .ok (.next { l with hState := .hValue, valueStart := toInt i })
  | .hValue =>
      if c = CR then
        let l := { l with hState := .hCr, valueEnd := toInt i }
        if l.valueEnd - l.valueStart ≤ 0 then .ok (.reject l)
        else .ok (.next l)
      else if sizeT (i - l.valueStart) > 255 then .ok (.reject l)
      else .ok (.next l)
  | .hCr =>
      if c = LF then do
        let key ← slice str l.keyStart l.keyEnd
        let value ← slice str l.valueStart l.valueEnd
        .ok (.next { l with
          hState := .hLf
          headers := Function.update l.headers key (some value)
          nowReadLineBegin := toInt i })
      else .ok (.reject l)
  | .hLf =>
      if c = CR then .ok (.next { l with hState := .hEndCr })
      else .ok (.next { l with hState := .hKey, keyStart := toInt i })
  | .hEndCr =>
      if c = LF then .ok (.next { l with hState := .hEndLf })
      else .ok (.reject l)
  | .hEndLf =>
      .ok (.next { l with notFinished := false, keyStart := toInt i, nowReadLineBegin := toInt i })

/-- How the loop ends: with its index, or by returning `PARSE_HEADER_ERROR`. -/
inductive HeaderScan where
  | done (i : Nat) (l : HeaderLoop)
  | rejected (l : HeaderLoop)

/-- The loop from index `i`, where `rest` is what `str` holds from there on. -/
def headerLoop (str : Bytes) : (i : Nat) → (rest : Bytes) → HeaderLoop → Except Fault HeaderScan
  | i, [], l => .ok (.done i l)
  | i, c :: rest, l =>
      if l.notFinished then do
        match ← headerStep str i c l with
        | .next l => headerLoop str (i + 1) rest l
        | .reject l => .ok (.rejected l)
      else .ok (.done i l)

/-- `ParseHeaders`. -/
def parseHeaders (s : HttpData) : Except Fault (HeaderState × HttpData) := do
  match ← headerLoop s.inBuffer 0 s.inBuffer { hState := s.hState, headers := s.headers } with
  | .rejected l => .ok (.parseHeaderError, { s with hState := l.hState, headers := l.headers })
  | .done i l =>
      let s := { s with hState := l.hState, headers := l.headers }
      if s.hState = .hEndLf then do
        let str ← substr s.inBuffer i npos
        .ok (.parseHeaderSuccess, { s with inBuffer := str })
      else do
        let str ← substr s.inBuffer (sizeT l.nowReadLineBegin) npos
        .ok (.parseHeaderAgain, { s with inBuffer := str })

section Ends

variable {s : HttpData} {str : Bytes} {i : Nat} {l : HeaderLoop}

theorem parseHeaders_error {e : Fault}
    (failed : headerLoop s.inBuffer 0 s.inBuffer { hState := s.hState, headers := s.headers } =
      .error e) : parseHeaders s = .error e := by
  unfold parseHeaders
  rw [failed]
  rfl

theorem parseHeaders_rejected
    (refused : headerLoop s.inBuffer 0 s.inBuffer { hState := s.hState, headers := s.headers } =
      .ok (.rejected l)) :
    parseHeaders s = .ok (.parseHeaderError, { s with hState := l.hState, headers := l.headers }) := by
  unfold parseHeaders
  rw [refused]
  rfl

theorem parseHeaders_again
    (scanned : headerLoop s.inBuffer 0 s.inBuffer { hState := s.hState, headers := s.headers } =
      .ok (.done i l)) (unfinished : l.hState ≠ .hEndLf)
    (cut : substr s.inBuffer (sizeT l.nowReadLineBegin) npos = .ok str) :
    parseHeaders s = .ok (.parseHeaderAgain,
      { s with hState := l.hState, headers := l.headers, inBuffer := str }) := by
  unfold parseHeaders
  simp only [scanned, bind, Except.bind, if_neg unfinished, cut]

theorem parseHeaders_success
    (scanned : headerLoop s.inBuffer 0 s.inBuffer { hState := s.hState, headers := s.headers } =
      .ok (.done i l)) (finished : l.hState = .hEndLf)
    (cut : substr s.inBuffer i npos = .ok str) :
    parseHeaders s = .ok (.parseHeaderSuccess,
      { s with hState := l.hState, headers := l.headers, inBuffer := str }) := by
  unfold parseHeaders
  simp only [scanned, bind, Except.bind, if_pos finished, cut]

end Ends

/-! From the first byte of a key to the `\r` that ends its value the automaton is inside a line. A
call that starts there has no start of the key, so it cannot finish the line: it rejects, reads
out of range or stays inside. -/

/-- The states of the automaton inside a header line. -/
def MidLine : ParseState → Prop
  | .hKey | .hColon | .hSpacesAfterColon | .hValue | .hCr => True
  | .hStart | .hLf | .hEndCr | .hEndLf => False

instance : DecidablePred MidLine := fun h => by
  cases h <;> simp only [MidLine] <;> infer_instance

theorem MidLine.unfinished {state : ParseState} (mid : MidLine state) : state ≠ .hEndLf := by
  rintro rfl
  exact mid

/-- What a step inside a line leaves alone. -/
structure SameLine (l l' : HeaderLoop) : Prop where
  mid : MidLine l'.hState
  headers : l'.headers = l.headers
  keyStart : l'.keyStart = l.keyStart
  nowReadLineBegin : l'.nowReadLineBegin = l.nowReadLineBegin
  notFinished : l'.notFinished = l.notFinished

theorem SameLine.trans {l l' l'' : HeaderLoop} (first : SameLine l l') (second : SameLine l' l'') :
    SameLine l l'' where
  mid := second.mid
  headers := second.headers.trans first.headers
  keyStart := second.keyStart.trans first.keyStart
  nowReadLineBegin := second.nowReadLineBegin.trans first.nowReadLineBegin
  notFinished := second.notFinished.trans first.notFinished

/-- Inside a line a step rejects or stays inside, unless it meets the `\n` after the `\r`. -/
theorem headerStep_mid (str : Bytes) (i : Nat) {c : UInt8} {l : HeaderLoop}
    (mid : MidLine l.hState) (open_ : ¬ (l.hState = .hCr ∧ c = LF)) :
    (∃ l', headerStep str i c l = .ok (.reject l')) ∨
      ∃ l', headerStep str i c l = .ok (.next l') ∧ SameLine l l' ∧ (l'.hState = .hCr → c = CR) := by
  cases state : l.hState with
  | hKey =>
      simp only [headerStep, state]
      split_ifs with colon early eol
      · exact .inl ⟨_, rfl⟩
      · exact .inr ⟨_, rfl, ⟨trivial, rfl, rfl, rfl, rfl⟩, by simp⟩
      · exact .inl ⟨_, rfl⟩
      · exact .inr ⟨_, rfl, ⟨mid, rfl, rfl, rfl, rfl⟩, by simp [state]⟩
  | hColon =>
      simp only [headerStep, state]
      split_ifs
      · exact .inr ⟨_, rfl, ⟨trivial, rfl, rfl, rfl, rfl⟩, by simp⟩
      · exact .inl ⟨_, rfl⟩
  | hSpacesAfterColon =>
      simp only [headerStep, state]
      exact .inr ⟨_, rfl, ⟨trivial, rfl, rfl, rfl, rfl⟩, by simp⟩
  | hValue =>
      simp only [headerStep, state]
      split_ifs with cr early long
      · exact .inl ⟨_, rfl⟩
      · exact .inr ⟨_, rfl, ⟨trivial, rfl, rfl, rfl, rfl⟩, fun _ => cr⟩
      · exact .inl ⟨_, rfl⟩
      · exact .inr ⟨_, rfl, ⟨mid, rfl, rfl, rfl, rfl⟩, by simp [state]⟩
  | hCr =>
      have other : c ≠ LF := fun lf => open_ ⟨state, lf⟩
      simp only [headerStep, state, if_neg other]
      exact .inl ⟨_, rfl⟩
  | hStart | hLf | hEndCr | hEndLf => simp [state, MidLine] at mid

theorem headerStep_finish (str : Bytes) (i : Nat) {c : UInt8} {l : HeaderLoop}
    (state : l.hState = .hCr) (lf : c = LF) (lost : l.keyStart < 0) :
    ∃ fault, headerStep str i c l = .error fault := by
  simp only [headerStep, state, lf, if_true, slice, lost, true_or, bind, Except.bind]
  split
  · exact ⟨_, rfl⟩
  · rename_i ok
    split at ok <;> cases ok

/-- How a call ends that starts inside a line. -/
inductive StaysInside (l : HeaderLoop) : Except Fault HeaderScan → Prop where
  | fault {e} : StaysInside l (.error e)
  | rejected {l'} : StaysInside l (.ok (.rejected l'))
  | done {i l'} : SameLine l l' → StaysInside l (.ok (.done i l'))

theorem StaysInside.of_step {l l' : HeaderLoop} (same : SameLine l l') {result}
    (inside : StaysInside l' result) : StaysInside l result := by
  cases inside with
  | fault => exact .fault
  | rejected => exact .rejected
  | done rest => exact .done (same.trans rest)

theorem headerLoop_resumed (str : Bytes) (i : Nat) (rest : Bytes) {l : HeaderLoop}
    (mid : MidLine l.hState) (lost : l.keyStart < 0) (running : l.notFinished = true) :
    StaysInside l (headerLoop str i rest l) := by
  induction rest generalizing i l with
  | nil => exact .done ⟨mid, rfl, rfl, rfl, rfl⟩
  | cons c rest ih =>
      rw [headerLoop, if_pos running]
      by_cases finish : l.hState = .hCr ∧ c = LF
      · obtain ⟨e, raised⟩ := headerStep_finish str i finish.1 finish.2 lost
        rw [raised]
        exact .fault
      · rcases headerStep_mid str i mid finish with ⟨l', refused⟩ | ⟨l', moved, same, -⟩
        · rw [refused]
          exact .rejected
        · rw [moved]
          exact .of_step same
            (ih _ same.mid (same.keyStart ▸ lost) (same.notFinished.trans running))

theorem headerLoop_no_lf {str : Bytes} {i : Nat} {rest : Bytes} {l : HeaderLoop}
    (mid : MidLine l.hState) (running : l.notFinished = true) (no_lf : LF ∉ rest) :
    StaysInside l (headerLoop str i rest l) := by
  induction rest generalizing i l with
  | nil => exact .done ⟨mid, rfl, rfl, rfl, rfl⟩
  | cons c rest ih =>
      simp only [List.mem_cons, not_or] at no_lf
      rw [headerLoop, if_pos running]
      rcases headerStep_mid str i mid (fun both => no_lf.1 both.2.symm) with
        ⟨l', refused⟩ | ⟨l', moved, same, -⟩
      · rw [refused]
        exact .rejected
      · rw [moved]
        exact .of_step same (ih same.mid (same.notFinished.trans running) no_lf.2)

theorem headerLoop_no_cr {str : Bytes} {i : Nat} {rest : Bytes} {l : HeaderLoop}
    (mid : MidLine l.hState) (value : l.hState ≠ .hCr) (running : l.notFinished = true)
    (no_cr : CR ∉ rest) : StaysInside l (headerLoop str i rest l) := by
  induction rest generalizing i l with
  | nil => exact .done ⟨mid, rfl, rfl, rfl, rfl⟩
  | cons c rest ih =>
      simp only [List.mem_cons, not_or] at no_cr
      rw [headerLoop, if_pos running]
      rcases headerStep_mid str i mid (fun both => value both.1) with
        ⟨l', refused⟩ | ⟨l', moved, same, at_cr⟩
      · rw [refused]
        exact .rejected
      · rw [moved]
        exact .of_step same (ih same.mid (fun ended => no_cr.1 (at_cr ended).symm)
          (same.notFinished.trans running) no_cr.2)

theorem headerLoop_index {str : Bytes} {i j : Nat} {rest : Bytes} {l l' : HeaderLoop}
    (ended : headerLoop str i rest l = .ok (.done j l')) :
    i ≤ j ∧ j ≤ i + rest.length ∧ (j = i → l' = l) := by
  induction rest generalizing i l with
  | nil =>
      cases ended
      exact ⟨le_rfl, le_rfl, fun _ => rfl⟩
  | cons c rest ih =>
      rw [List.length_cons]
      rw [headerLoop] at ended
      split at ended
      · simp only [bind, Except.bind] at ended
        split at ended
        · cases ended
        · split at ended
          · have later := ih ended
            exact ⟨by omega, by omega, fun same => by omega⟩
          · cases ended
      · cases ended
        exact ⟨le_rfl, by omega, fun _ => rfl⟩

/-- `ParseHeaders` changes no other member, and consumes a byte when it reaches the end. -/
theorem parseHeaders_frame {s s' : HttpData} {flag : HeaderState}
    (parsed : parseHeaders s = .ok (flag, s')) :
    s'.inBuffer.length ≤ s.inBuffer.length ∧
      (flag = .parseHeaderSuccess → s.hState ≠ .hEndLf →
        s'.inBuffer.length < s.inBuffer.length) ∧
      ∃ b h m, s' = { s with inBuffer := b, hState := h, headers := m } := by
  simp only [parseHeaders, bind, Except.bind] at parsed
  split at parsed
  · cases parsed
  · rename_i result scanned
    cases result with
    | rejected l =>
        cases parsed
        exact ⟨le_rfl, by simp, _, _, _, rfl⟩
    | done i l =>
        dsimp only at parsed
        split at parsed
        · rename_i ended
          split at parsed
          · cases parsed
          · rename_i str cut
            cases parsed
            have bound := substr_suffix cut
            refine ⟨by dsimp only; omega, fun _ open_ => ?_, _, _, _, rfl⟩
            obtain ⟨-, inside, still⟩ := headerLoop_index scanned
            have consumed : i ≠ 0 := by
              rintro rfl
              rw [still rfl] at ended
              exact open_ ended
            dsimp only
            omega
        · split at parsed
          · cases parsed
          · rename_i str cut
            cases parsed
            have bound := substr_suffix cut
            exact ⟨by dsimp only; omega, by simp, _, _, _, rfl⟩

theorem parseHeaders_unfinished {s s' : HttpData}
    (parsed : parseHeaders s = .ok (.parseHeaderAgain, s')) : s'.hState ≠ .hEndLf := by
  simp only [parseHeaders, bind, Except.bind] at parsed
  split at parsed
  · cases parsed
  · split at parsed
    · cases parsed
    · split at parsed
      · split at parsed <;> cases parsed
      · rename_i unfinished
        split at parsed
        · cases parsed
        · cases parsed
          exact unfinished

/-! A call that starts between two lines sets every index before it uses it. -/

/-- What the indices satisfy when the loop stands before index `i`. -/
def Indexed (i : Nat) (l : HeaderLoop) : Prop :=
  (0 ≤ l.nowReadLineBegin ∧ l.nowReadLineBegin ≤ i) ∧
    match l.hState with
    | .hKey => 0 ≤ l.keyStart ∧ l.keyStart < i
    | .hColon | .hSpacesAfterColon => 0 ≤ l.keyStart ∧ l.keyStart < l.keyEnd ∧ l.keyEnd < i
    | .hValue =>
        0 ≤ l.keyStart ∧ l.keyStart < l.keyEnd ∧ l.keyEnd < i ∧ 0 ≤ l.valueStart ∧ l.valueStart < i
    | .hCr =>
        0 ≤ l.keyStart ∧ l.keyStart < l.keyEnd ∧ l.keyEnd < i ∧
          0 ≤ l.valueStart ∧ l.valueStart < l.valueEnd ∧ l.valueEnd < i
    | .hStart | .hLf | .hEndCr | .hEndLf => True

theorem slice_inside {s : Bytes} {first last : Int} (low : 0 ≤ first) (ordered : first ≤ last)
    (high : last ≤ s.length) :
    slice s first last = .ok ((s.drop first.toNat).take (last - first).toNat) := by
  rw [slice, if_neg (by omega), if_neg (by omega)]

theorem headerStep_indexed {str : Bytes} {i : Nat} {c : UInt8} {l : HeaderLoop}
    (indexed : Indexed i l) (inside : i < str.length) (short : str.length < 2 ^ 31) :
    (∃ l', headerStep str i c l = .ok (.reject l')) ∨
      ∃ l', headerStep str i c l = .ok (.next l') ∧ Indexed (i + 1) l' := by
  obtain ⟨line, indices⟩ := indexed
  have exact_i : toInt i = i := toInt_of_lt (by omega)
  cases state : l.hState with
  | hStart =>
      simp only [headerStep, state]
      split_ifs
      · exact .inr ⟨_, rfl, ⟨by omega, by omega⟩, by simp [state]⟩
      · exact .inr ⟨_, rfl, by simp only [Indexed, exact_i]; omega⟩
  | hKey =>
      simp only [state] at indices
      simp only [headerStep, state]
      split_ifs
      · exact .inl ⟨_, rfl⟩
      · exact .inr ⟨_, rfl, by simp only [Indexed, exact_i]; omega⟩
      · exact .inl ⟨_, rfl⟩
      · exact .inr ⟨_, rfl, by simp only [Indexed, state]; omega⟩
  | hColon =>
      simp only [state] at indices
      simp only [headerStep, state]
      split_ifs
      · exact .inr ⟨_, rfl, by simp only [Indexed]; omega⟩
      · exact .inl ⟨_, rfl⟩
  | hSpacesAfterColon =>
      simp only [state] at indices
      simp only [headerStep, state]
      exact .inr ⟨_, rfl, by simp only [Indexed, exact_i]; omega⟩
  | hValue =>
      simp only [state] at indices
      simp only [headerStep, state]
      split_ifs
      · exact .inl ⟨_, rfl⟩
      · exact .inr ⟨_, rfl, by simp only [Indexed, exact_i]; omega⟩
      · exact .inl ⟨_, rfl⟩
      · exact .inr ⟨_, rfl, by simp only [Indexed, state]; omega⟩
  | hCr =>
      simp only [state] at indices
      have key := slice_inside (s := str) indices.1 (by omega : l.keyStart ≤ l.keyEnd) (by omega)
      have value := slice_inside (s := str) (by omega : 0 ≤ l.valueStart)
        (by omega : l.valueStart ≤ l.valueEnd) (by omega)
      simp only [headerStep, state, key, value, bind, Except.bind]
      split_ifs
      · exact .inr ⟨_, rfl, by simp only [exact_i]; omega, trivial⟩
      · exact .inl ⟨_, rfl⟩
  | hLf =>
      simp only [headerStep, state]
      split_ifs
      · exact .inr ⟨_, rfl, ⟨line.1, by simp only; omega⟩, trivial⟩
      · exact .inr ⟨_, rfl, by simp only [Indexed, exact_i]; omega⟩
  | hEndCr =>
      simp only [headerStep, state]
      split_ifs
      · exact .inr ⟨_, rfl, ⟨line.1, by simp only; omega⟩, trivial⟩
      · exact .inl ⟨_, rfl⟩
  | hEndLf =>
      simp only [headerStep, state]
      exact .inr ⟨_, rfl, by simp only [exact_i]; omega, by simp⟩

theorem headerLoop_indexed {str : Bytes} {i : Nat} (rest : Bytes) {l : HeaderLoop}
    (indexed : Indexed i l) (whole : i + rest.length = str.length) (short : str.length < 2 ^ 31) :
    (∃ l', headerLoop str i rest l = .ok (.rejected l')) ∨
      ∃ j l', headerLoop str i rest l = .ok (.done j l') ∧ Indexed j l' ∧ j ≤ str.length := by
  induction rest generalizing i l with
  | nil => exact .inr ⟨i, l, rfl, indexed, by simp at whole; omega⟩
  | cons c rest ih =>
      rw [headerLoop]
      split_ifs with running
      · rw [List.length_cons] at whole
        rcases headerStep_indexed (c := c) indexed (by omega : i < str.length) short with
          ⟨l', refused⟩ | ⟨l', moved, indexed'⟩
        · rw [refused]
          exact .inl ⟨l', rfl⟩
        · rw [moved]
          exact ih indexed' (by omega)
      · exact .inr ⟨i, l, rfl, indexed, by omega⟩

/-- A finished part of the loop can be cut off. -/
theorem headerLoop_append {str : Bytes} {i j : Nat} {front : Bytes} {l l' : HeaderLoop}
    (ended : headerLoop str i front l = .ok (.done j l')) (running : l'.notFinished = true)
    (back : Bytes) : headerLoop str i (front ++ back) l = headerLoop str j back l' := by
  induction front generalizing i l with
  | nil =>
      cases ended
      rfl
  | cons c front ih =>
      rw [headerLoop] at ended
      rw [List.cons_append, headerLoop]
      split_ifs at ended ⊢ with going
      · simp only [bind, Except.bind] at ended ⊢
        split at ended
        · cases ended
        · rename_i step _
          cases step with
          | next l1 => exact ih ended
          | reject l1 => cases ended
      · cases ended
        exact absurd running going

/-- A resumed call faults exactly when it meets the end of the line. -/
theorem headerLoop_fault_iff (str : Bytes) (i : Nat) (rest : Bytes) {l : HeaderLoop}
    (mid : MidLine l.hState) (lost : l.keyStart < 0) (running : l.notFinished = true) :
    (∃ e, headerLoop str i rest l = .error e) ↔
      ∃ front back j l', rest = front ++ LF :: back ∧
        headerLoop str i front l = .ok (.done j l') ∧ l'.hState = .hCr := by
  constructor
  · rintro ⟨e, faulted⟩
    induction rest generalizing i l with
    | nil => cases faulted
    | cons c rest ih =>
        rw [headerLoop, if_pos running] at faulted
        by_cases finish : l.hState = .hCr ∧ c = LF
        · exact ⟨[], rest, i, l, by simp [finish.2], rfl, finish.1⟩
        · rcases headerStep_mid str i mid finish with
            ⟨l', refused⟩ | ⟨l', moved, same, -⟩
          · simp [refused, bind, Except.bind] at faulted
          · rw [moved] at faulted
            obtain ⟨front, back, j, l'', rfl, ended, state⟩ :=
              ih _ same.mid (same.keyStart ▸ lost) (same.notFinished.trans running) faulted
            refine ⟨c :: front, back, j, l'', rfl, ?_, state⟩
            rw [headerLoop, if_pos running, moved]
            exact ended
  · rintro ⟨front, back, j, l', rfl, ended, state⟩
    have inside := headerLoop_resumed str i front mid lost running
    rw [ended] at inside
    obtain - | - | same := inside
    obtain ⟨e, raised⟩ := headerStep_finish str j state rfl (same.keyStart ▸ lost)
    refine ⟨e, ?_⟩
    have going : l'.notFinished = true := same.notFinished.trans running
    rw [headerLoop_append ended going, headerLoop, if_pos going, raised]
    rfl

/-- A call that resumes inside a line and meets its end. -/
def FinishesLine (s : HttpData) : Prop :=
  MidLine s.hState ∧ ∃ front back j l, s.inBuffer = front ++ LF :: back ∧
    headerLoop s.inBuffer 0 front { hState := s.hState, headers := s.headers } = .ok (.done j l) ∧
    l.hState = .hCr

theorem parseHeaders_of_scan {s : HttpData} {scan : HeaderScan}
    (scanned : headerLoop s.inBuffer 0 s.inBuffer { hState := s.hState, headers := s.headers } =
      .ok scan)
    (line : ∀ i l, scan = .done i l →
      i ≤ s.inBuffer.length ∧ 0 ≤ l.nowReadLineBegin ∧ l.nowReadLineBegin ≤ s.inBuffer.length)
    (short : s.inBuffer.length < 2 ^ 31) : ∃ r, parseHeaders s = .ok r := by
  cases scan with
  | rejected l => exact ⟨_, parseHeaders_rejected scanned⟩
  | done i l =>
      obtain ⟨inside, low, high⟩ := line i l rfl
      have position : sizeT l.nowReadLineBegin ≤ s.inBuffer.length := by
        simp only [sizeT]
        omega
      by_cases finished : l.hState = .hEndLf
      · exact ⟨_, parseHeaders_success scanned finished (substr_of_le npos inside)⟩
      · exact ⟨_, parseHeaders_again scanned finished (substr_of_le npos position)⟩

/-- `ParseHeaders` slices out of range exactly in the calls that finish a line they did not
    start. -/
theorem parseHeaders_fault_iff {s : HttpData} (short : s.inBuffer.length < 2 ^ 31) :
    (∃ e, parseHeaders s = .error e) ↔ FinishesLine s := by
  by_cases mid : MidLine s.hState
  · rw [FinishesLine, and_iff_right mid]
    rw [← headerLoop_fault_iff s.inBuffer 0 s.inBuffer
      (l := { hState := s.hState, headers := s.headers }) mid (by simp) rfl]
    have inside := headerLoop_resumed s.inBuffer 0 s.inBuffer
      (l := { hState := s.hState, headers := s.headers }) mid (by simp) rfl
    cases scanned : headerLoop s.inBuffer 0 s.inBuffer { hState := s.hState, headers := s.headers } with
    | error e =>
        exact ⟨fun _ => ⟨e, rfl⟩, fun _ => ⟨e, parseHeaders_error scanned⟩⟩
    | ok scan =>
        obtain ⟨r, returned⟩ := parseHeaders_of_scan scanned (fun i l ended => by
          rw [scanned, ended] at inside
          obtain - | - | same := inside
          refine ⟨(headerLoop_index (ended ▸ scanned)).2.1.trans_eq (Nat.zero_add _), ?_, ?_⟩
          · rw [same.nowReadLineBegin]
          · rw [same.nowReadLineBegin]
            exact Int.natCast_nonneg _) short
        simp [returned]
  · have indexed : Indexed 0 { hState := s.hState, headers := s.headers } := by
      refine ⟨⟨le_rfl, le_rfl⟩, ?_⟩
      revert mid
      cases s.hState <;> simp [MidLine]
    rcases headerLoop_indexed s.inBuffer indexed (Nat.zero_add _) short with
      ⟨l', refused⟩ | ⟨j, l', ended, indexed', inside⟩
    · obtain ⟨r, returned⟩ := parseHeaders_of_scan refused (by simp) short
      simp [returned, FinishesLine, mid]
    · obtain ⟨r, returned⟩ := parseHeaders_of_scan ended (fun i l same => by
        cases same
        exact ⟨inside, indexed'.1.1, indexed'.1.2.trans (by exact_mod_cast inside)⟩) short
      simp [returned, FinishesLine, mid]

end WebServer.HttpData
