import WebServer.Http.HeaderCodec
import WebServer.Http.HeaderSlices

/-! # What a header section stores

A call of `ParseHeaders` that starts and succeeds has read line breaks, header lines and a blank
line. The automaton lets some bytes pass unchecked, and these are the only ones that can get into a
key or a value where they do not belong.
-/

namespace WebServer

open Lib

theorem storeRaw_concat (headers : HeaderMap) (lines : List RawField) (f : RawField) :
    storeRaw headers (lines ++ [f]) =
      Function.update (storeRaw headers lines) f.name (some f.value) := by
  simp [storeRaw]

/-- An entry comes from the last line of its key. -/
theorem storeRaw_some_iff {lines : List RawField} {key value : Bytes} :
    storeRaw (fun _ => none) lines key = some value ↔
      ∃ front f back, lines = front ++ f :: back ∧ f.name = key ∧ f.value = value ∧
        ∀ g ∈ back, g.name ≠ key := by
  induction lines using List.reverseRecOn with
  | nil => simp [storeRaw]
  | append_singleton lines f ih =>
      rw [storeRaw_concat]
      by_cases same : f.name = key
      · rw [← same, Function.update_self, Option.some_inj]
        constructor
        · rintro rfl
          exact ⟨lines, f, [], rfl, rfl, rfl, by simp⟩
        · rintro ⟨front, g, back, split, -, rfl, last⟩
          rcases List.eq_nil_or_concat back with rfl | ⟨back, h, rfl⟩
          · exact congrArg RawField.value (List.head_eq_of_cons_eq (List.append_inj_right' split rfl))
          · rw [List.concat_eq_append, ← List.cons_append, ← List.append_assoc] at split
            obtain rfl := List.head_eq_of_cons_eq (List.append_inj_right' split rfl)
            exact absurd rfl (last f (by simp))
      · rw [Function.update_of_ne (Ne.symm same), ih]
        constructor
        · rintro ⟨front, g, back, rfl, named, valued, last⟩
          refine ⟨front, g, back ++ [f], by simp, named, valued, ?_⟩
          intro h there
          rcases List.mem_append.mp there with inside | final
          · exact last h inside
          · exact List.mem_singleton.mp final ▸ same
        · rintro ⟨front, g, back, split, named, valued, last⟩
          rcases List.eq_nil_or_concat back with rfl | ⟨back, h, rfl⟩
          · obtain rfl := List.head_eq_of_cons_eq (List.append_inj_right' split rfl)
            exact absurd named same
          · rw [List.concat_eq_append, ← List.cons_append, ← List.append_assoc] at split
            refine ⟨front, g, back, List.append_inj_left' split rfl, named, valued, fun h there => ?_⟩
            exact last h (by simp [there])

namespace HttpData

variable {str rest : Bytes} {i j : Nat} {c : UInt8} {l l' : HeaderLoop}

theorem builds_of_done (mid : MidLine l.hState) (running : l.notFinished = true)
    (ended : headerLoop str i rest l = .ok (.done j l')) (outside : ¬ MidLine l'.hState) :
    ∃ m, Builds str i rest l m := by
  induction rest generalizing i l with
  | nil =>
      cases ended
      exact absurd mid outside
  | cons c rest ih =>
      by_cases finish : l.hState = .hCr ∧ c = LF
      · rw [finish.2]
        exact ⟨l, .here running finish.1⟩
      · rcases headerStep_mid str i mid finish with ⟨l₁, refused⟩ | ⟨l₁, moved, same, -⟩
        · rw [headerLoop, if_pos running, refused] at ended
          cases ended
        · rw [headerLoop_next moved running] at ended
          obtain ⟨m, builds⟩ := ih same.mid (same.notFinished.trans running) ended
          exact ⟨m, .later running moved builds⟩

/-- From the first byte of a key on, a scan that reaches the end of the section reads a line. -/
theorem line_of_done {before : Bytes} (whole : str = before ++ c :: rest) (start : BeforeKey c l)
    (running : l.notFinished = true) (short : str.length < 2 ^ 31)
    (ended : headerLoop str before.length (c :: rest) l = .ok (.done j l'))
    (finished : l'.hState = .hEndLf) :
    ∃ (f : RawField) (tail : Bytes), f.first = c ∧ c :: rest = f.bytes ++ tail ∧
      ∃ l₁, headerLoop str (before ++ f.bytes).length tail l₁ = .ok (.done j l') ∧
        LineDone (before ++ f.bytes).length (Function.update l.headers f.name (some f.value)) l₁ := by
  have size := congrArg List.length whole
  rw [List.length_append, List.length_cons] at size
  obtain ⟨l₁, moved, state, keyStart, -, same⟩ :=
    headerStep_firstByte str start (by omega : before.length < 2 ^ 31)
  have inLine := ended
  rw [headerLoop_next moved running] at inLine
  have outside : ¬ MidLine l'.hState := by simp [finished, MidLine]
  have builds := builds_of_done (by simp [state, MidLine]) (same.trans running) inLine outside
  rw [builds_key state (same.trans running) (by rw [keyStart]; omega) (by omega)] at builds
  obtain ⟨key, d, back, rfl, plain, value, tail, rfl, no_cr, fits⟩ := builds
  let f : RawField := ⟨c, key, d, value, start.1, plain, no_cr, by omega⟩
  have spelled : c :: (key ++ COLON :: SPACE :: d :: (value ++ CR :: LF :: tail)) =
      f.bytes ++ tail := (headerLine_cons c d key value).symm
  rw [spelled] at ended whole
  have inside : before.length + f.bytes.length < 2 ^ 31 := by
    rw [whole, List.length_append, List.length_append] at short
    omega
  obtain ⟨l₂, read, done⟩ := headerLoop_line before tail whole start running plain
    (List.cons_ne_nil d value) (Nat.succ_le_succ f.fits) no_cr inside
  refine ⟨f, tail, rfl, spelled, l₂, ?_, ?_⟩
  · rw [List.length_append]
    exact read.symm.trans ended
  · rw [List.length_append]
    exact done

/-- Between two lines, a scan that reaches the end of the section reads lines and a blank line. -/
theorem lines_of_done {before : Bytes} {headers : HeaderMap} (whole : str = before ++ rest)
    (done : LineDone before.length headers l) (short : str.length < 2 ^ 31)
    (ended : headerLoop str before.length rest l = .ok (.done j l'))
    (finished : l'.hState = .hEndLf) :
    ∃ (lines : List RawField) (tail : Bytes),
      rest = lines.flatMap RawField.bytes ++ CR :: LF :: tail := by
  -- Strong induction on what is left to scan: every line takes some of it.
  induction size : rest.length using Nat.strong_induction_on generalizing before rest l headers with
  | _ n ih =>
      cases rest with
      | nil =>
          cases ended
          simp [done.hState] at finished
      | cons c rest =>
          by_cases cr : c = CR
          · have moved :
                headerStep str before.length CR l = .ok (.next { l with hState := .hEndCr }) := by
              unfold headerStep
              simp only [done.hState, if_true]
            rw [cr, headerLoop_next moved done.notFinished] at ended
            cases rest with
            | nil =>
                cases ended
                cases finished
            | cons d tail =>
                by_cases lf : d = LF
                · exact ⟨[], tail, by rw [cr, lf]; rfl⟩
                · have refused : headerStep str (before.length + 1) d { l with hState := .hEndCr } =
                      .ok (.reject { l with hState := .hEndCr }) := by
                    unfold headerStep
                    simp only [if_neg lf]
                  rw [headerLoop, if_pos done.notFinished, refused] at ended
                  cases ended
          · obtain ⟨f, tail, -, spelled, l₁, later, done₁⟩ :=
              line_of_done whole ⟨cr, .inl done.hState⟩ done.notFinished short ended finished
            rw [spelled] at whole size ⊢
            have less : tail.length < n := by
              rw [List.length_append] at size
              have : 0 < f.bytes.length := List.length_pos_iff.mpr (List.cons_ne_nil _ _)
              omega
            obtain ⟨lines, tail, rfl⟩ := ih _ less (whole.trans (List.append_assoc ..).symm) done₁
              later rfl
            exact ⟨f :: lines, tail, by rw [List.flatMap_cons, List.append_assoc]⟩

/-- Line breaks, these lines and a blank line, then anything. -/
structure Section (str : Bytes) (lines : List RawField) : Prop where
  split : ∃ lead tail, (∀ c ∈ lead, c = CR ∨ c = LF) ∧
    str = lead ++ (lines.flatMap RawField.bytes ++ CR :: LF :: tail)
  opening : ∃ f others, lines = f :: others ∧ f.first ≠ LF

/-- A scan from the start that reaches the end of the section has read one. -/
theorem section_of_done {lead : Bytes} (whole : str = lead ++ rest)
    (breaks : ∀ c ∈ lead, c = CR ∨ c = LF) (start : l.hState = .hStart)
    (running : l.notFinished = true) (short : str.length < 2 ^ 31)
    (ended : headerLoop str lead.length rest l = .ok (.done j l')) (finished : l'.hState = .hEndLf) :
    ∃ lines, Section str lines := by
  -- `lead` collects the line breaks that the loop skips before the first key.
  induction rest generalizing lead with
  | nil =>
      cases ended
      simp [start] at finished
  | cons c rest ih =>
      by_cases skipped : c = LF ∨ c = CR
      · have moved : headerStep str lead.length c l = .ok (.next l) := by
          unfold headerStep
          simp only [start, if_pos skipped]
        rw [headerLoop_next moved running] at ended
        refine ih (show str = (lead ++ [c]) ++ rest by simp [whole]) ?_ (by simpa using ended)
        intro d there
        rcases List.mem_append.mp there with earlier | here
        · exact breaks d earlier
        · exact List.mem_singleton.mp here ▸ skipped.symm
      · rw [not_or] at skipped
        obtain ⟨f, tail, first, spelled, l₁, later, done⟩ :=
          line_of_done whole ⟨skipped.2, .inr ⟨start, skipped.1⟩⟩ running short ended finished
        rw [spelled] at whole
        obtain ⟨lines, tail, rfl⟩ :=
          lines_of_done (whole.trans (List.append_assoc ..).symm) done short later finished
        refine ⟨f :: lines, ⟨lead, tail, breaks, ?_⟩, f, lines, rfl, first ▸ skipped.1⟩
        rw [whole, List.flatMap_cons, List.append_assoc]

variable {s s' : HttpData}

theorem section_of_success (start : s.hState = .hStart) (short : s.inBuffer.length < 2 ^ 31)
    (parsed : parseHeaders s = .ok (.parseHeaderSuccess, s')) :
    ∃ lines, Section s.inBuffer lines := by
  cases scanned : headerLoop s.inBuffer 0 s.inBuffer { hState := s.hState, headers := s.headers } with
  | error e => rw [parseHeaders_error scanned] at parsed; cases parsed
  | ok scan =>
      cases scan with
      | rejected l => rw [parseHeaders_rejected scanned] at parsed; cases parsed
      | done i l =>
          by_cases finished : l.hState = .hEndLf
          · exact section_of_done (List.nil_append _).symm (by simp) start rfl short scanned finished
          · unfold parseHeaders at parsed
            simp only [scanned, bind, Except.bind, if_neg finished] at parsed
            split at parsed <;> cases parsed

theorem headers_of_section {lines : List RawField} (start : s.hState = .hStart)
    (short : s.inBuffer.length < 2 ^ 31)
    (parsed : parseHeaders s = .ok (.parseHeaderSuccess, s')) (read : Section s.inBuffer lines) :
    s'.headers = storeRaw s.headers lines := by
  obtain ⟨⟨lead, tail, breaks, buffered⟩, f, others, rfl, opening⟩ := read
  rw [parseHeaders_raw start breaks opening buffered short] at parsed
  cases parsed
  rfl

/-- A key without `:` and line break, and a value without line break. -/
structure IntactEntry (key value : Bytes) : Prop where
  named : key ≠ []
  key : ∀ c ∈ key, c ≠ COLON ∧ c ≠ CR ∧ c ≠ LF
  valued : value ≠ []
  value : ∀ c ∈ value, c ≠ CR ∧ c ≠ LF

/-- None of the bytes that the automaton does not check breaks the line. -/
structure Intact (f : RawField) : Prop where
  first : f.first ≠ COLON ∧ f.first ≠ LF
  valueFirst : f.valueFirst ≠ CR ∧ f.valueFirst ≠ LF
  valueRest : LF ∉ f.valueRest

theorem intactEntry_iff (f : RawField) : IntactEntry f.name f.value ↔ Intact f := by
  constructor
  · rintro ⟨-, key, -, value⟩
    obtain ⟨colon, -, lf⟩ := key f.first List.mem_cons_self
    exact ⟨⟨colon, lf⟩, value f.valueFirst List.mem_cons_self,
      fun there => (value LF (List.mem_cons_of_mem _ there)).2 rfl⟩
  · rintro ⟨first, valueFirst, valueRest⟩
    refine ⟨List.cons_ne_nil _ _, ?_, List.cons_ne_nil _ _, ?_⟩
    · intro c there
      rcases List.mem_cons.mp there with rfl | later
      · exact ⟨first.1, f.begun, first.2⟩
      · obtain ⟨colon, lf, cr⟩ := f.key c later
        exact ⟨colon, cr, lf⟩
    · intro c there
      rcases List.mem_cons.mp there with rfl | later
      · exact valueFirst
      · exact ⟨fun cr => f.oneLine (cr ▸ later), fun lf => valueRest (lf ▸ later)⟩

/-- In every line that no later line of the same key replaces, the first byte is neither `:` nor
    `\n`, the first byte of the value is no line break, and the value holds no `\n`. -/
def IntactSection (str : Bytes) : Prop :=
  ∃ lines, Section str lines ∧ ∀ front f back, lines = front ++ f :: back →
    (∀ g ∈ back, g.name ≠ f.name) → Intact f

/-- The headers of an accepted section are intact exactly when its lines are. -/
theorem headers_intact_iff (start : s.hState = .hStart) (empty : s.headers = fun _ => none)
    (short : s.inBuffer.length < 2 ^ 31)
    (parsed : parseHeaders s = .ok (.parseHeaderSuccess, s')) :
    (∀ key value, s'.headers key = some value → IntactEntry key value) ↔
      IntactSection s.inBuffer := by
  have stored : ∀ lines, Section s.inBuffer lines → s'.headers = storeRaw (fun _ => none) lines :=
    fun lines read => empty ▸ headers_of_section start short parsed read
  constructor
  · intro intact
    obtain ⟨lines, read⟩ := section_of_success start short parsed
    refine ⟨lines, read, fun front f back split last => ?_⟩
    rw [← intactEntry_iff]
    apply intact
    rw [stored lines read]
    exact storeRaw_some_iff.mpr ⟨front, f, back, split, rfl, rfl, last⟩
  · rintro ⟨lines, read, intact⟩ key value entry
    rw [stored lines read] at entry
    obtain ⟨front, f, back, split, rfl, rfl, last⟩ := storeRaw_some_iff.mp entry
    exact (intactEntry_iff f).mpr (intact front f back split last)

theorem headers_intact_single :
    ∃ s', parseHeaders { new 5 with inBuffer := text "\nA: b\r\n\r\n" } =
        .ok (.parseHeaderSuccess, s') ∧
      ∀ key value, s'.headers key = some value → IntactEntry key value := by
  have read : Section (text "\nA: b\r\n\r\n") [firstField.raw] :=
    ⟨⟨[LF], [], by simp, rfl⟩, firstField.raw, [], rfl, by decide⟩
  refine ⟨_, rfl, (headers_intact_iff (s := { new 5 with inBuffer := text "\nA: b\r\n\r\n" }) rfl rfl
    (by decide) rfl).mpr ⟨_, read, fun front f back split last => ?_⟩⟩
  have only : f ∈ [firstField.raw] := split ▸ List.mem_append_right front List.mem_cons_self
  rw [List.mem_singleton.mp only]
  exact ⟨by decide, by decide, by decide⟩

/-- A line of its own passes for a part of the value before it. -/
theorem headers_smuggled :
    ∃ s', parseHeaders { new 5 with inBuffer := text "\nA: b\nC: d\r\n\r\n" } =
        .ok (.parseHeaderSuccess, s') ∧
      ¬ ∀ key value, s'.headers key = some value → IntactEntry key value := by
  refine ⟨_, rfl, fun intact => ?_⟩
  have entry := intact (text "A") (text "b\nC: d") rfl
  exact (entry.value LF (by decide)).2 rfl

end HttpData

end WebServer
