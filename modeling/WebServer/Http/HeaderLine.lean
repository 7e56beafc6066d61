import WebServer.Http.Answer
import WebServer.Http.RequestLine

/-! # Header lines of any length

`ParseHeaders` takes values of at most 256 bytes. A longer one makes the request a bad one, whatever the
other lines are.
-/

namespace WebServer

open Lib

/-- A header line with a value of any length. -/
structure HeaderLine where
  name : Bytes
  value : Bytes
  named : name ≠ []
  key : ∀ c ∈ name, c ≠ COLON ∧ c ≠ LF ∧ c ≠ CR
  valued : value ≠ []
  oneLine : ∀ c ∈ value, c ≠ LF ∧ c ≠ CR

namespace HeaderLine

def bytes (l : HeaderLine) : Bytes := headerLine l.name l.value

/-- `ParseHeaders` takes the value. -/
def Fits (l : HeaderLine) : Prop := l.value.length ≤ 256

instance : DecidablePred Fits := fun _ => inferInstanceAs (Decidable (_ ≤ _))

theorem value_no_cr (l : HeaderLine) : CR ∉ l.value := fun found => (l.oneLine CR found).2 rfl

end HeaderLine

def Field.toLine (f : Field) : HeaderLine := { f with }

/-- The header lines and the blank line. -/
def headerPart (lines : List HeaderLine) : Bytes := lines.flatMap HeaderLine.bytes ++ [CR, LF]

/-- What the client sends. -/
def requestBytes (line : Bytes) (lines : List HeaderLine) (body : Bytes) : Bytes :=
  line ++ CR :: LF :: (headerPart lines ++ body)

def HeaderLine.store (h : HeaderMap) (l : HeaderLine) : HeaderMap :=
  Function.update h l.name (some l.value)

/-- The headers once these lines are read. -/
def headersOf (lines : List HeaderLine) : HeaderMap := lines.foldl HeaderLine.store fun _ => none

variable {lines : List HeaderLine}

theorem headerPart_map (fields : List Field) :
    headerPart (fields.map Field.toLine) = headerSection fields := by
  simp only [headerPart, headerSection, List.flatMap_map]
  rfl

theorem headersOf_map (fields : List Field) :
    headersOf (fields.map Field.toLine) = storeFields (fun _ => none) fields := by
  simp only [headersOf, storeFields, List.foldl_map]
  rfl

theorem exists_fields (fit : ∀ l ∈ lines, l.Fits) :
    ∃ fields : List Field, lines = fields.map Field.toLine := by
  induction lines with
  | nil => exact ⟨[], rfl⟩
  | cons l lines ih =>
      obtain ⟨fields, rfl⟩ := ih fun m later => fit m (List.mem_cons_of_mem l later)
      exact ⟨{ l with fits := fit l List.mem_cons_self } :: fields, rfl⟩

theorem exists_tooLong (long : ¬ ∀ l ∈ lines, l.Fits) :
    ∃ (front : List Field) (l : HeaderLine) (back : List HeaderLine),
      lines = front.map Field.toLine ++ l :: back ∧ ¬ l.Fits := by
  induction lines with
  | nil => simp at long
  | cons l lines ih =>
      by_cases fit : l.Fits
      · have later : ¬ ∀ m ∈ lines, m.Fits := by
          intro all
          exact long (List.forall_mem_cons.mpr ⟨fit, all⟩)
        obtain ⟨front, m, back, rfl, too_long⟩ := ih later
        exact ⟨{ l with fits := fit } :: front, m, back, rfl, too_long⟩
      · exact ⟨[], l, lines, rfl, fit⟩

namespace HttpData

variable {str rest : Bytes} {i : Nat} {h : HeaderLoop}

/-- The loop gives up inside the value. -/
theorem headerLoop_tooLong {c : UInt8} {cs value : Bytes} (start : BeforeKey c h)
    (running : h.notFinished = true) (key : ∀ b ∈ cs, b ≠ COLON ∧ b ≠ LF ∧ b ≠ CR)
    (long : 256 < value.length) (no_cr : CR ∉ value) (short : i + cs.length + 3 < 2 ^ 31) :
    ∃ h', headerLoop str i (headerLine (c :: cs) value ++ rest) h = .ok (.rejected h') := by
  obtain ⟨d, ds, rfl⟩ := List.exists_cons_of_length_pos (by omega : 0 < value.length)
  rw [List.length_cons] at long
  rw [List.mem_cons, not_or] at no_cr
  obtain ⟨h₁, toValue, inValue⟩ :=
    headerLoop_toValue str (ds ++ CR :: LF :: rest) (d := d) start running key short
  obtain ⟨e, es, split⟩ := List.exists_cons_of_length_pos (by simp; omega : 0 < (ds.drop 255).length)
  have front : (ds.take 255).length = 255 := by
    rw [List.length_take]
    omega
  have whole : ds = ds.take 255 ++ e :: es := by rw [← split, List.take_append_drop]
  have front_no_cr : CR ∉ ds.take 255 := fun found => no_cr.2 (List.mem_of_mem_take found)
  have other : e ≠ CR := by
    rintro rfl
    exact no_cr.2 (whole ▸ List.mem_append_right _ List.mem_cons_self)
  have refused : headerStep str (i + cs.length + 4 + 255) e h₁ = .ok (.reject h₁) := by
    have over_limit : sizeT ((i + cs.length + 4 + 255 : Nat) - h₁.valueStart) > 255 := by
      rw [inValue.valueStart]
      unfold sizeT
      omega
    unfold headerStep
    simp only [inValue.hState, if_neg other, if_pos over_limit]
  refine ⟨h₁, ?_⟩
  rw [headerLine_cons, toValue, whole, List.append_assoc, headerLoop_value inValue.hState
    inValue.notFinished (by rw [inValue.valueStart]; omega) (by rw [inValue.valueStart, front]; omega)
    front_no_cr, front, List.cons_append, headerLoop, if_pos inValue.notFinished, refused]
  rfl

variable {s : HttpData} {front : List Field} {l : HeaderLine}

theorem headerLoop_fieldsTooLong (whole : str = LF :: (front.flatMap Field.bytes ++ (l.bytes ++ rest)))
    (start : h.hState = .hStart) (running : h.notFinished = true) (long : ¬ l.Fits)
    (short : (front.flatMap Field.bytes ++ l.bytes).length + 1 < 2 ^ 31) :
    ∃ h', headerLoop str 0 str h = .ok (.rejected h') := by
  obtain ⟨c, cs, name⟩ := List.exists_cons_of_ne_nil l.named
  have key := l.key
  rw [name] at key
  obtain ⟨-, not_lf, not_cr⟩ := key c List.mem_cons_self
  have bytes : l.bytes = headerLine (c :: cs) l.value := by rw [HeaderLine.bytes, name]
  rw [bytes, List.length_append, headerLine_length, List.length_cons] at short
  rw [bytes] at whole
  have refused : ∀ {i : Nat} {h₁ : HeaderLoop}, BeforeKey c h₁ → h₁.notFinished = true →
      i = (front.flatMap Field.bytes).length + 1 →
      ∃ h', headerLoop str i (headerLine (c :: cs) l.value ++ rest) h₁ = .ok (.rejected h') := by
    intro i h₁ before going at_line
    exact headerLoop_tooLong before going (fun b later => key b (List.mem_cons_of_mem c later))
      (Nat.lt_of_not_le long) l.value_no_cr (by omega)
  cases front with
  | nil =>
      have skip : headerStep str 0 LF h = .ok (.next h) := by
        unfold headerStep
        simp only [start, true_or, if_true]
      obtain ⟨h', refused⟩ := refused ⟨not_cr, .inr ⟨start, not_lf⟩⟩ running rfl
      refine ⟨h', ?_⟩
      rw [← refused]
      exact (congrArg (headerLoop str 0 · h) whole).trans (headerLoop_next skip running)
  | cons f front =>
      obtain ⟨h₁, lines, done⟩ := headerLoop_lines whole (.inl start) running (by omega)
      obtain ⟨h', refused⟩ := refused ⟨not_cr, .inl done.hState⟩ done.notFinished rfl
      exact ⟨h', lines.trans refused⟩

/-- A value that does not fit makes the request a bad one. -/
theorem uriStage_tooLong (vacant : Vacant s) {line body : Bytes} {q : RequestLine}
    (buffered : s.inBuffer = requestBytes line lines body) (first : CR ∉ line)
    (request : lineRequest line = some q) (long : ¬ ∀ l ∈ lines, l.Fits)
    (short : (headerPart lines).length < 2 ^ 31) (small : s.inBuffer.length < 2 ^ 63) (k : Kernel) :
    ∃ t, t.outBuffer = [] ∧ uriStage s k = .ok (badRequest (text "Bad Request") t k) := by
  have size := small
  rw [buffered, requestBytes, List.length_append] at size
  have decoded : decodeLine line = some q := (decodeLine_request (by omega)).trans request
  obtain ⟨front, l, back, rfl, too_long⟩ := exists_tooLong long
  have part : headerPart (front.map Field.toLine ++ l :: back) =
      front.flatMap Field.bytes ++ (l.bytes ++ headerPart back) := by
    simp only [headerPart, List.flatMap_append, List.flatMap_cons, List.flatMap_map, List.append_assoc]
    rfl
  have whole : LF :: (headerPart (front.map Field.toLine ++ l :: back) ++ body) =
      LF :: (front.flatMap Field.bytes ++ (l.bytes ++ (headerPart back ++ body))) := by
    rw [part, List.append_assoc, List.append_assoc]
  have blank : 2 ≤ (headerPart back).length := by
    unfold headerPart
    rw [List.length_append]
    exact Nat.le_add_left _ _
  rw [part, ← List.append_assoc, List.length_append] at short
  obtain ⟨h', refused⟩ := headerLoop_fieldsTooLong
    (h := { hState := s.hState, headers := s.headers }) whole vacant.hState rfl too_long (by omega)
  have parsed := parseHeaders_rejected (s := s.atLine q
    (LF :: (headerPart (front.map Field.toLine ++ l :: back) ++ body))) refused
  have entered := uriStage_line (k := k) vacant buffered first small decoded
  refine ⟨_, ?_, entered.trans (headerStage_rejects parsed rfl)⟩
  exact vacant.outBuffer

end HttpData

end WebServer
