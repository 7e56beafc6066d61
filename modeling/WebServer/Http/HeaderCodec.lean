import WebServer.Http.Request

/-! # Header sections are decoded

`ParseHeaders` undoes the encoding of a list of fields: one call that finds the whole header section,
behind any line breaks, stores every field under its key, and a later one of a key replaces an earlier
one.
-/

namespace WebServer

open Lib

theorem storeFields_append (headers : HeaderMap) (front back : List Field) :
    storeFields headers (front ++ back) = storeFields (storeFields headers front) back :=
  List.foldl_append ..

theorem storeFields_other {fields : List Field} {key : Bytes} (absent : ∀ f ∈ fields, f.name ≠ key)
    (headers : HeaderMap) : storeFields headers fields key = headers key := by
  induction fields generalizing headers with
  | nil => rfl
  | cons f fields ih =>
      have later : ∀ g ∈ fields, g.name ≠ key := fun g there => absent g (List.mem_cons_of_mem f there)
      have step : storeFields headers (f :: fields) =
          storeFields (Function.update headers f.name (some f.value)) fields := rfl
      rw [step, ih later]
      exact Function.update_of_ne (absent f List.mem_cons_self).symm _ _

theorem storeFields_last {front back : List Field} {f : Field} (last : ∀ g ∈ back, g.name ≠ f.name)
    (headers : HeaderMap) : storeFields headers (front ++ f :: back) f.name = some f.value := by
  have step : storeFields (storeFields headers front) (f :: back) =
      storeFields (Function.update (storeFields headers front) f.name (some f.value)) back := rfl
  rw [storeFields_append, step, storeFields_other last]
  exact Function.update_self ..

namespace HttpData

variable {str rest : Bytes} {l : HeaderLoop}

theorem headerLoop_breaks {i : Nat} {lead : Bytes} (start : l.hState = .hStart)
    (running : l.notFinished = true) (breaks : ∀ c ∈ lead, c = CR ∨ c = LF) :
    headerLoop str i (lead ++ rest) l = headerLoop str (i + lead.length) rest l := by
  induction lead generalizing i with
  | nil => rfl
  | cons c lead ih =>
      have skip : headerStep str i c l = .ok (.next l) := by
        unfold headerStep
        simp only [start]
        rw [if_pos (breaks c List.mem_cons_self).symm]
      rw [List.cons_append, headerLoop_next skip running,
        ih fun d later => breaks d (List.mem_cons_of_mem c later), List.length_cons]
      congr 1
      omega

/-- From `H_START` on, the lines behind the line breaks are stored. -/
theorem headerLoop_start {lead : Bytes} {f : RawField} {lines : List RawField}
    (whole : str = lead ++ ((f :: lines).flatMap RawField.bytes ++ rest)) (start : l.hState = .hStart)
    (running : l.notFinished = true) (breaks : ∀ c ∈ lead, c = CR ∨ c = LF) (opening : f.first ≠ LF)
    (short : (lead ++ (f :: lines).flatMap RawField.bytes).length < 2 ^ 31) :
    ∃ l', headerLoop str 0 str l =
        headerLoop str (lead ++ (f :: lines).flatMap RawField.bytes).length rest l' ∧
      LineDone (lead ++ (f :: lines).flatMap RawField.bytes).length
        (storeRaw l.headers (f :: lines)) l' := by
  have fits : f.value.length ≤ 256 := Nat.succ_le_succ f.fits
  rw [List.flatMap_cons, List.length_append, List.length_append] at short
  have opened : headerLoop str 0 str l =
      headerLoop str lead.length (f.bytes ++ (lines.flatMap RawField.bytes ++ rest)) l := by
    have skipped : headerLoop str 0 (lead ++ ((f :: lines).flatMap RawField.bytes ++ rest)) l = _ :=
      headerLoop_breaks start running breaks
    rw [← whole, Nat.zero_add, List.flatMap_cons, List.append_assoc] at skipped
    exact skipped
  rw [List.flatMap_cons, List.append_assoc] at whole
  obtain ⟨l₁, first, done₁⟩ := headerLoop_line lead (lines.flatMap RawField.bytes ++ rest)
    whole ⟨f.begun, .inr ⟨start, opening⟩⟩ running f.key (List.cons_ne_nil _ _) fits f.oneLine
    (Nat.lt_of_le_of_lt (Nat.add_le_add_left (Nat.le_add_right f.bytes.length _) _) short)
  change headerLoop str lead.length (f.bytes ++ _) l = headerLoop str (lead.length + f.bytes.length) _ _
    at first
  change LineDone (lead.length + f.bytes.length) _ l₁ at done₁
  rw [← List.length_append] at first done₁
  obtain ⟨l', later, done'⟩ := headerLoop_rawFields (lead ++ f.bytes)
    (whole.trans (List.append_assoc ..).symm) done₁ (by
      rw [List.length_append]
      omega)
  have total : (lead ++ f.bytes).length + (lines.flatMap RawField.bytes).length =
      (lead ++ (f :: lines).flatMap RawField.bytes).length := by
    rw [List.flatMap_cons, List.length_append, List.length_append, List.length_append]
    omega
  rw [opened, first, later, total]
  exact ⟨l', rfl, total ▸ done'⟩

theorem parseHeaders_raw {s : HttpData} {lead trailing : Bytes} {f : RawField} {lines : List RawField}
    (start : s.hState = .hStart) (breaks : ∀ c ∈ lead, c = CR ∨ c = LF) (opening : f.first ≠ LF)
    (buffered : s.inBuffer = lead ++ ((f :: lines).flatMap RawField.bytes ++ CR :: LF :: trailing))
    (short : s.inBuffer.length < 2 ^ 31) :
    parseHeaders s = .ok (.parseHeaderSuccess, { s with
      hState := .hEndLf
      inBuffer := trailing.tail
      headers := storeRaw s.headers (f :: lines) }) := by
  have length := congrArg List.length buffered
  rw [List.length_append, List.length_append] at length
  obtain ⟨l, scanned, done⟩ := headerLoop_start
    (l := { hState := s.hState, headers := s.headers }) buffered start rfl breaks opening (by
      rw [List.length_append]
      omega)
  exact parseHeaders_blankLine _ (buffered.trans (List.append_assoc ..).symm) scanned done (by omega)

theorem parseHeaders_encoded {s : HttpData} {lead trailing : Bytes} {f : Field} {fields : List Field}
    (start : s.hState = .hStart) (breaks : ∀ c ∈ lead, c = CR ∨ c = LF)
    (buffered : s.inBuffer = lead ++ (headerSection (f :: fields) ++ trailing))
    (short : s.inBuffer.length < 2 ^ 31) :
    parseHeaders s = .ok (.parseHeaderSuccess, { s with
      hState := .hEndLf
      inBuffer := trailing.tail
      headers := storeFields s.headers (f :: fields) }) := by
  have opening : f.raw.first ≠ LF := (f.key _ (List.head_mem f.named)).2.1
  rw [← storeRaw_map, List.map_cons]
  refine parseHeaders_raw start breaks opening ?_ short
  rw [buffered, ← List.map_cons, Field.raw_flatMap]
  unfold headerSection
  rw [List.append_assoc (List.flatMap _ _)]
  rfl

/-- A call on an encoded header section succeeds; the last field of a key gives its value, and other
    keys keep theirs. -/
theorem headers_decoded (s : HttpData) (lead trailing : Bytes) (fields : List Field)
    (start : s.hState = .hStart) (breaks : ∀ c ∈ lead, c = CR ∨ c = LF) (some_field : fields ≠ [])
    (buffered : s.inBuffer = lead ++ (headerSection fields ++ trailing))
    (short : s.inBuffer.length < 2 ^ 31) :
    ∃ t, parseHeaders s = .ok (.parseHeaderSuccess, t) ∧
      t.headers =
        fields.foldl (fun (m : HeaderMap) f => Function.update m f.name (some f.value)) s.headers ∧
      (∀ front f back, fields = front ++ f :: back → (∀ g ∈ back, g.name ≠ f.name) →
        t.headers f.name = some f.value) ∧
      ∀ key, (∀ f ∈ fields, f.name ≠ key) → t.headers key = s.headers key := by
  obtain ⟨f, fields, rfl⟩ := List.exists_cons_of_ne_nil some_field
  refine ⟨_, parseHeaders_encoded start breaks buffered short, rfl, ?_, ?_⟩
  · intro front g back split last
    show storeFields s.headers (f :: fields) g.name = _
    rw [split]
    exact storeFields_last last s.headers
  · intro key absent
    exact storeFields_other absent s.headers

/-- Two fields of one key. -/
def firstField : Field :=
  ⟨text "A", text "b", by decide, List.all_iff_forall_prop.1 (by decide), by decide,
    List.all_iff_forall_prop.1 (by decide), by decide⟩

def secondField : Field :=
  ⟨text "A", text "c", by decide, List.all_iff_forall_prop.1 (by decide), by decide,
    List.all_iff_forall_prop.1 (by decide), by decide⟩

theorem headers_decoded_repeated :
    ∃ t, parseHeaders { HttpData.new 5 with inBuffer := text "\r\nA: b\r\nA: c\r\n\r\nGET" } =
        .ok (.parseHeaderSuccess, t) ∧ t.headers (text "A") = some (text "c") := by
  obtain ⟨t, parsed, -, last, -⟩ := headers_decoded
    { HttpData.new 5 with inBuffer := text "\r\nA: b\r\nA: c\r\n\r\nGET" } (text "\r\n") (text "GET")
    [firstField, secondField] rfl (List.all_iff_forall_prop.1 (by decide)) (by decide) (by decide)
    (by decide)
  exact ⟨t, parsed, last [firstField] secondField [] rfl (by simp)⟩

end HttpData

end WebServer
