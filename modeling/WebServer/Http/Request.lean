import Mathlib.Data.Bool.AllAny
import WebServer.Http.ParseHeaders
import WebServer.Http.ParseUri

/-! # Well-formed requests

A `GET` or `HEAD` request as a client writes it: the request line, header lines `key: value`, a blank
line. The automaton of `ParseHeaders` reads such a header section line by line.
-/

namespace WebServer

open Lib

/-- A header line. A value has at most the 256 bytes that `ParseHeaders` takes. -/
structure Field where
  name : Bytes
  value : Bytes
  named : name ≠ []
  key : ∀ c ∈ name, c ≠ COLON ∧ c ≠ LF ∧ c ≠ CR
  valued : value ≠ []
  oneLine : ∀ c ∈ value, c ≠ LF ∧ c ≠ CR
  fits : value.length ≤ 256

/-- `key: value` and the end of the line. -/
def headerLine (key value : Bytes) : Bytes := key ++ COLON :: SPACE :: (value ++ [CR, LF])

def Field.bytes (f : Field) : Bytes := headerLine f.name f.value

theorem Field.bytes_cons (f : Field) : ∃ c cs, f.name = c :: cs ∧ c ≠ LF ∧ c ≠ CR ∧
    ∀ b ∈ cs, b ≠ COLON ∧ b ≠ LF ∧ b ≠ CR := by
  obtain ⟨c, cs, name⟩ := List.exists_cons_of_ne_nil f.named
  have key := f.key
  rw [name] at key
  exact ⟨c, cs, name, (key c List.mem_cons_self).2.1, (key c List.mem_cons_self).2.2,
    fun b later => key b (List.mem_cons_of_mem c later)⟩

theorem Field.value_no_cr (f : Field) : CR ∉ f.value := fun found => (f.oneLine CR found).2 rfl

theorem Field.tail_no_cr (f : Field) : CR ∉ f.value.tail :=
  fun found => f.value_no_cr (List.mem_of_mem_tail found)

theorem Field.lf_last (g : Field) : ∃ front, g.bytes = front ++ [LF] ∧ LF ∉ front := by
  refine ⟨g.name ++ COLON :: SPACE :: (g.value ++ [CR]), ?_, ?_⟩
  · simp only [Field.bytes, headerLine, List.append_assoc, List.cons_append, List.nil_append]
  · have colon : LF ≠ COLON := by decide
    have space : LF ≠ SPACE := by decide
    have cr : LF ≠ CR := by decide
    intro found
    rcases List.mem_append.mp found with here | later
    · exact (g.key LF here).2.1 rfl
    rcases List.mem_cons.mp later with here | later
    · exact colon here
    rcases List.mem_cons.mp later with here | later
    · exact space here
    rcases List.mem_append.mp later with here | later
    · exact (g.oneLine LF here).1 rfl
    · exact cr (List.mem_singleton.mp later)

theorem Field.part_no_lf {g : Field} {x y : Bytes} (parts : g.bytes = x ++ y) (more : y ≠ []) :
    LF ∉ x := by
  obtain ⟨front, whole, absent⟩ := g.lf_last
  have shorter : front = x ++ y.dropLast := by
    rw [← List.dropLast_append_of_ne_nil more, ← parts, whole, List.dropLast_concat]
  intro found
  rw [shorter] at absent
  exact absent (List.mem_append_left _ found)

theorem Field.part_first {g : Field} {x y : Bytes} (parts : g.bytes = x ++ y) (begun : x ≠ []) :
    ∃ c x', x = c :: x' ∧ c ≠ LF ∧ c ≠ CR := by
  obtain ⟨c, cs, name, not_lf, not_cr, -⟩ := g.bytes_cons
  obtain ⟨d, x', rfl⟩ := List.exists_cons_of_ne_nil begun
  unfold Field.bytes headerLine at parts
  rw [name, List.cons_append, List.cons_append] at parts
  obtain rfl := (List.cons.inj parts).1
  exact ⟨c, x', rfl, not_lf, not_cr⟩

/-- A header line as the automaton reads it: the first byte of a key or of a value can be almost any,
    and a value can hold a `\n`. -/
structure RawField where
  first : UInt8
  keyRest : Bytes
  valueFirst : UInt8
  valueRest : Bytes
  begun : first ≠ CR
  key : ∀ c ∈ keyRest, c ≠ COLON ∧ c ≠ LF ∧ c ≠ CR
  oneLine : CR ∉ valueRest
  fits : valueRest.length ≤ 255

namespace RawField

def name (f : RawField) : Bytes := f.first :: f.keyRest

def value (f : RawField) : Bytes := f.valueFirst :: f.valueRest

def bytes (f : RawField) : Bytes := headerLine f.name f.value

end RawField

/-- A well-formed line is read as it is written. -/
def Field.raw (f : Field) : RawField where
  first := f.name.head f.named
  keyRest := f.name.tail
  valueFirst := f.value.head f.valued
  valueRest := f.value.tail
  begun := (f.key _ (List.head_mem f.named)).2.2
  key c there := f.key c (List.mem_of_mem_tail there)
  oneLine := f.tail_no_cr
  fits := by
    rw [List.length_tail]
    have := f.fits
    omega

@[simp] theorem Field.raw_name (f : Field) : f.raw.name = f.name := List.cons_head_tail f.named

@[simp] theorem Field.raw_value (f : Field) : f.raw.value = f.value := List.cons_head_tail f.valued

@[simp] theorem Field.raw_bytes (f : Field) : f.raw.bytes = f.bytes := by
  rw [RawField.bytes, f.raw_name, f.raw_value, Field.bytes]

theorem Field.raw_flatMap (fields : List Field) :
    (fields.map Field.raw).flatMap RawField.bytes = fields.flatMap Field.bytes := by
  simp [List.flatMap_map]

/-- The header lines and the blank line. -/
def headerSection (fields : List Field) : Bytes := fields.flatMap Field.bytes ++ [CR, LF]

def methodName : HttpMethod → Bytes
  | .methodPost => text "POST"
  | .methodGet => text "GET"
  | .methodHead => text "HEAD"

def versionName : HttpVersion → Bytes
  | .http10 => text "1.0"
  | .http11 => text "1.1"

def requestLine (method : HttpMethod) (target : Bytes) (httpVersion : HttpVersion) : Bytes :=
  methodName method ++ SPACE :: (target ++ SPACE :: (text "HTTP/" ++ versionName httpVersion))

theorem requestLine_no_cr (method : HttpMethod) {target : Bytes} (httpVersion : HttpVersion)
    (free : CR ∉ target) : CR ∉ requestLine method target httpVersion := by
  have name : CR ∉ methodName method := by cases method <;> decide
  have version : CR ∉ text "HTTP/" ++ versionName httpVersion := by
    cases httpVersion <;> decide
  have space : CR ≠ SPACE := by decide
  unfold requestLine
  intro found
  rcases List.mem_append.mp found with here | later
  · exact name here
  rcases List.mem_cons.mp later with here | later
  · exact space here
  rcases List.mem_append.mp later with here | later
  · exact free here
  rcases List.mem_cons.mp later with here | later
  · exact space here
  · exact version later

/-- A request with at least one header line, below the size where an `int` position overflows. -/
structure Request where
  method : HttpMethod
  target : Bytes
  httpVersion : HttpVersion
  first : Field
  others : List Field
  asks : method ≠ .methodPost
  oneWord : SPACE ∉ target ∧ CR ∉ target
  short : (requestLine method target httpVersion).length +
    (headerSection (first :: others)).length + 2 < 2 ^ 31

theorem get_ne_post : HttpMethod.methodGet ≠ .methodPost := by decide

theorem hello_oneWord : SPACE ∉ text "/hello" ∧ CR ∉ text "/hello" := by decide

namespace Request

def line (r : Request) : Bytes := requestLine r.method r.target r.httpVersion

def fields (r : Request) : List Field := r.first :: r.others

/-- What the client sends. -/
def bytes (r : Request) : Bytes := r.line ++ CR :: LF :: headerSection r.fields

theorem line_no_cr (r : Request) : CR ∉ r.line := requestLine_no_cr r.method r.httpVersion r.oneWord.2

theorem line_cons (r : Request) : ∃ c cs, r.line = c :: cs ∧ c ≠ LF := by
  unfold line requestLine methodName
  cases r.method <;> exact ⟨_, _, rfl, by decide⟩

theorem bytes_length (r : Request) :
    r.bytes.length = r.line.length + (headerSection r.fields).length + 2 := by
  unfold bytes
  simp only [List.length_append, List.length_cons]
  omega

theorem bytes_short (r : Request) : r.bytes.length < 2 ^ 31 := by
  rw [bytes_length]
  exact r.short

end Request

/-- The headers once these lines are read. -/
def storeFields (headers : HeaderMap) (fields : List Field) : HeaderMap :=
  fields.foldl (fun m f => Function.update m f.name (some f.value)) headers

/-- The same for lines as the automaton reads them. -/
def storeRaw (headers : HeaderMap) (lines : List RawField) : HeaderMap :=
  lines.foldl (fun m f => Function.update m f.name (some f.value)) headers

theorem storeRaw_map (headers : HeaderMap) (fields : List Field) :
    storeRaw headers (fields.map Field.raw) = storeFields headers fields := by
  simp [storeRaw, storeFields, List.foldl_map]

/-- The headers of the request alone. -/
def Request.headers (r : Request) : HeaderMap := storeFields (fun _ => none) r.fields

namespace HttpData

theorem starts_of_take {p : Bytes} {rest : Bytes} (taken : p.take 3 = 49 :: rest) :
    ∃ cs, p = 49 :: cs := by
  cases p with
  | nil => cases taken
  | cons c cs =>
      obtain ⟨rfl, -⟩ := List.cons.inj taken
      exact ⟨cs, rfl⟩

/-- An accepted version is the start of the line, or stands behind a `/`. -/
theorem parseVersion_shape {p : Bytes} {pos : Nat} {s s' : HttpData}
    (parsed : parseVersion p pos s = .ok (.parseUriSuccess, s')) :
    (∃ cs, p = 49 :: cs) ∨
      ∃ front b, p = front ++ SLASH :: b ∧ find p [SLASH] pos = front.length ∧
        pos ≤ front.length ∧ 3 ≤ b.length := by
  unfold parseVersion at parsed
  simp only [Nat.not_lt_zero, if_false] at parsed
  rcases find_byte_cut p SLASH pos with missing | ⟨front, b, cut, found, after⟩
  · left
    rw [missing, sizeT_npos_succ] at parsed
    simp only [substr_zero, bind, Except.bind] at parsed
    split_ifs at parsed with low v10 v11
    · cases parsed
    · exact starts_of_take v10
    · exact starts_of_take v11
    · cases parsed
  · right
    refine ⟨front, b, cut, found, after, ?_⟩
    rw [found] at parsed
    split_ifs at parsed with low
    · cases parsed
    · have length := congrArg List.length cut
      rw [List.length_append, List.length_cons] at length
      unfold sizeT at low
      omega

/-- What `ParseURI` accepts has a `/`, later a blank, and later a `/` with three bytes behind; unless
    the version is the start of the line. -/
theorem parseFileName_shape {p : Bytes} {pos : Nat} {s s' : HttpData} (short : p.length < 2 ^ 63)
    (parsed : parseFileName p pos s = .ok (.parseUriSuccess, s')) :
    (∃ cs, p = 49 :: cs) ∨
      ∃ a z b, p = a ++ SPACE :: (z ++ SLASH :: b) ∧ SLASH ∈ a ∧ 3 ≤ b.length := by
  have below : p.length ≤ npos := by
    unfold npos
    omega
  unfold parseFileName at parsed
  simp only [Nat.not_lt_zero, if_false] at parsed
  obtain ⟨name, named⟩ := targetName_ok short pos
  rw [named] at parsed
  rcases parseVersion_shape parsed with start | ⟨front, b, cut, found, after, long⟩
  · exact .inl start
  · right
    have inside : front.length < npos := by
      rw [cut, List.length_append, List.length_cons] at below
      omega
    -- Both earlier searches succeed, since a failed one makes the next ones fail.
    rcases find_byte_cut p SPACE (find p [SLASH] pos) with missing | ⟨a, y, atSpace, space, later⟩
    · omega
    rcases find_byte_cut p SLASH pos with missing | ⟨x, w, atSlash, slash, -⟩
    · have nowhere : find p [SPACE] (find p [SLASH] pos) = npos := by
        rw [missing, find_byte_npos SPACE below]
      omega
    have differ : SLASH ≠ SPACE := by decide
    obtain ⟨z, before, -⟩ := cut_before_cut (atSlash.symm.trans atSpace) differ (by omega)
    obtain ⟨z', behind, -⟩ := cut_before_cut (atSpace.symm.trans cut) differ.symm (by omega)
    refine ⟨a, z', b, ?_, ?_, long⟩
    · rw [cut, behind, List.append_assoc, List.cons_append]
    · rw [before]
      exact List.mem_append_right _ List.mem_cons_self

end HttpData

theorem HttpData.decodeLine_shape {p : Bytes} (short : p.length < 2 ^ 63)
    {r : HttpData.RequestLine} (decoded : HttpData.decodeLine p = some r) :
    (∃ cs, p = 49 :: cs) ∨
      ∃ a z b, p = a ++ SPACE :: (z ++ SLASH :: b) ∧ SLASH ∈ a ∧ 3 ≤ b.length := by
  have parsed := HttpData.parseRequestLine_some short decoded (HttpData.new 0)
  unfold HttpData.parseRequestLine at parsed
  dsimp only at parsed
  split_ifs at parsed
  · exact HttpData.parseFileName_shape short parsed
  · exact HttpData.parseFileName_shape short parsed
  · exact HttpData.parseFileName_shape short parsed
  · cases parsed

/-- No proper part of a request line is accepted. -/
theorem decodeLine_part {method : HttpMethod} {target : Bytes} {httpVersion : HttpVersion}
    {p t : Bytes} (parts : p ++ t = requestLine method target httpVersion)
    (oneWord : SPACE ∉ target) (short : p.length < 2 ^ 63) (more : t ≠ []) :
    HttpData.decodeLine p = none := by
  cases decoded : HttpData.decodeLine p with
  | none => rfl
  | some r =>
      exfalso
      unfold requestLine at parts
      rcases HttpData.decodeLine_shape short decoded with ⟨cs, rfl⟩ | ⟨a, z, b, rfl, slash, long⟩
      · have letter : ∃ c name, methodName method = c :: name ∧ c ≠ 49 := by
          cases method <;> exact ⟨_, _, rfl, by decide⟩
        obtain ⟨c, name, spelled, other⟩ := letter
        rw [spelled, List.cons_append] at parts
        exact other (List.cons.inj parts).1.symm
      · rw [List.append_assoc, List.cons_append, List.append_assoc, List.cons_append] at parts
        have noSlash : SLASH ∉ methodName method := by cases method <;> decide
        have noSpace : SPACE ∉ methodName method := by cases method <;> decide
        -- The blank behind the `/` is the second one.
        rcases cut_eq_cut parts noSpace with ⟨rfl, -⟩ | ⟨a', rfl, tail⟩
        · exact noSlash slash
        rcases cut_eq_cut tail.symm oneWord with ⟨-, version⟩ | ⟨a'', -, version⟩
        · have http : SLASH ∉ text "HTTP" := by decide
          have split_version : z ++ SLASH :: (b ++ t) =
              text "HTTP" ++ SLASH :: versionName httpVersion := version
          have noSlash' : SLASH ∉ versionName httpVersion := by cases httpVersion <;> decide
          have three : (versionName httpVersion).length = 3 := by cases httpVersion <;> decide
          rcases cut_eq_cut split_version http with ⟨-, behind⟩ | ⟨z', -, behind⟩
          · have length := congrArg List.length behind
            have := List.length_pos_iff.mpr more
            rw [List.length_append] at length
            omega
          · rw [behind] at noSlash'
            exact noSlash' (List.mem_append_right _ List.mem_cons_self)
        · have noSpace' : SPACE ∉ text "HTTP/" ++ versionName httpVersion := by
            cases httpVersion <;> decide
          rw [version] at noSpace'
          exact noSpace' (List.mem_append_right _ List.mem_cons_self)

namespace HttpData

variable {str rest : Bytes} {i : Nat} {l : HeaderLoop}

theorem headerLoop_next {c : UInt8} {l' : HeaderLoop}
    (moved : headerStep str i c l = .ok (.next l')) (running : l.notFinished = true) :
    headerLoop str i (c :: rest) l = headerLoop str (i + 1) rest l' := by
  rw [headerLoop, if_pos running, moved]
  rfl

theorem headerLoop_key {cs : Bytes} (state : l.hState = .hKey) (running : l.notFinished = true)
    (key : ∀ c ∈ cs, c ≠ COLON ∧ c ≠ LF ∧ c ≠ CR) :
    headerLoop str i (cs ++ rest) l = headerLoop str (i + cs.length) rest l := by
  induction cs generalizing i with
  | nil => rfl
  | cons c cs ih =>
      obtain ⟨colon, lf, cr⟩ := key c List.mem_cons_self
      have stays : headerStep str i c l = .ok (.next l) := by
        unfold headerStep
        simp only [state, if_neg colon, lf, cr, or_self, if_false]
      rw [List.cons_append, headerLoop_next stays running,
        ih fun d later => key d (List.mem_cons_of_mem c later), List.length_cons]
      congr 1
      omega

theorem headerLoop_value {cs : Bytes} (state : l.hState = .hValue) (running : l.notFinished = true)
    (low : l.valueStart ≤ i) (fits : i + cs.length ≤ l.valueStart + 256) (no_cr : CR ∉ cs) :
    headerLoop str i (cs ++ rest) l = headerLoop str (i + cs.length) rest l := by
  induction cs generalizing i with
  | nil => rfl
  | cons c cs ih =>
      rw [List.mem_cons, not_or] at no_cr
      rw [List.length_cons] at fits
      have inside : ¬ sizeT (i - l.valueStart) > 255 := by
        unfold sizeT
        omega
      have stays : headerStep str i c l = .ok (.next l) := by
        unfold headerStep
        simp only [state, if_neg (Ne.symm no_cr.1), if_neg inside]
      rw [List.cons_append, headerLoop_next stays running, ih (by omega) (by omega) no_cr.2,
        List.length_cons]
      congr 1
      omega

/-- The loop stands before index `i`, right after the `\n` of a header line. -/
structure LineDone (i : Nat) (headers : HeaderMap) (l : HeaderLoop) : Prop where
  hState : l.hState = .hLf
  headers : l.headers = headers
  nowReadLineBegin : l.nowReadLineBegin = i - 1
  notFinished : l.notFinished = true

/-- The automaton stands where a key may begin with `c`. -/
def BeforeKey (c : UInt8) (l : HeaderLoop) : Prop :=
  c ≠ CR ∧ (l.hState = .hLf ∨ l.hState = .hStart ∧ c ≠ LF)

theorem headerStep_firstByte (str : Bytes) {c : UInt8} (before : BeforeKey c l) (small : i < 2 ^ 31) :
    ∃ l', headerStep str i c l = .ok (.next l') ∧ l'.hState = .hKey ∧ l'.keyStart = i ∧
      l'.headers = l.headers ∧ l'.notFinished = l.notFinished := by
  obtain ⟨not_cr, lf | ⟨start, not_lf⟩⟩ := before
  · refine ⟨{ l with hState := .hKey, keyStart := toInt i }, ?_, rfl, toInt_of_lt small, rfl, rfl⟩
    unfold headerStep
    simp only [lf, if_neg not_cr]
  · refine ⟨{ l with hState := .hKey, keyStart := toInt i, nowReadLineBegin := toInt i }, ?_, rfl,
      toInt_of_lt small, rfl, rfl⟩
    unfold headerStep
    simp only [start, not_cr, not_lf, or_self, if_false]

theorem slice_at (before after : Bytes) {mid : Bytes} {first last : Int}
    (whole : str = before ++ (mid ++ after)) (first_eq : first = before.length)
    (last_eq : last = (before.length + mid.length : Nat)) : slice str first last = .ok mid := by
  subst whole first_eq last_eq
  rw [← List.append_assoc]
  exact slice_append before mid after

/-- Where the loop stands after the first byte of a value. -/
structure InValue (first last start : Nat) (headers : HeaderMap) (l : HeaderLoop) : Prop where
  hState : l.hState = .hValue
  keyStart : l.keyStart = first
  keyEnd : l.keyEnd = last
  valueStart : l.valueStart = start
  headers : l.headers = headers
  notFinished : l.notFinished = true

/-- From the start of a line to the first byte of its value. -/
theorem headerLoop_toValue (str rest : Bytes) {c d : UInt8} {cs : Bytes} (start : BeforeKey c l)
    (running : l.notFinished = true) (key : ∀ b ∈ cs, b ≠ COLON ∧ b ≠ LF ∧ b ≠ CR)
    (short : i + cs.length + 3 < 2 ^ 31) :
    ∃ l', headerLoop str i (c :: (cs ++ COLON :: SPACE :: d :: rest)) l =
        headerLoop str (i + cs.length + 4) rest l' ∧
      InValue i (i + cs.length + 1) (i + cs.length + 3) l.headers l' := by
  obtain ⟨l₁, first, state, keyStart, headers, same⟩ :=
    headerStep_firstByte str start (by omega : i < 2 ^ 31)
  have running₁ : l₁.notFinished = true := same.trans running
  have keyEnd : toInt (i + 1 + cs.length) = (i + cs.length + 1 : Nat) := by
    rw [toInt_of_lt (by omega)]
    omega
  have valueStart : toInt (i + 1 + cs.length + 1 + 1) = (i + cs.length + 3 : Nat) := by
    rw [toInt_of_lt (by omega)]
    omega
  have colon : headerStep str (i + 1 + cs.length) COLON l₁ =
      .ok (.next { l₁ with hState := .hColon, keyEnd := (i + cs.length + 1 : Nat) }) := by
    unfold headerStep
    simp only [state, if_true, keyEnd, keyStart]
    rw [if_neg (by omega)]
  have space : headerStep str (i + 1 + cs.length + 1) SPACE
      { l₁ with hState := .hColon, keyEnd := (i + cs.length + 1 : Nat) } = .ok (.next { l₁ with
        hState := .hSpacesAfterColon, keyEnd := (i + cs.length + 1 : Nat) }) := rfl
  have value : headerStep str (i + 1 + cs.length + 1 + 1) d
      { l₁ with hState := .hSpacesAfterColon, keyEnd := (i + cs.length + 1 : Nat) } =
        .ok (.next { l₁ with
          hState := .hValue
          keyEnd := (i + cs.length + 1 : Nat)
          valueStart := toInt (i + 1 + cs.length + 1 + 1) }) := rfl
  rw [headerLoop_next first running, headerLoop_key state running₁ key,
    headerLoop_next colon running₁, headerLoop_next space running₁, headerLoop_next value running₁]
  refine ⟨_, congrArg (headerLoop str · rest _) (by omega), ?_⟩
  exact ⟨rfl, keyStart, rfl, valueStart, headers, running₁⟩

/-- From there past the end of the line. -/
theorem headerLoop_lineEnd (rest : Bytes) {key value ds : Bytes} {first last start : Nat}
    {headers : HeaderMap}
    (inValue : InValue first last start headers l) (low : start < i)
    (fits : i + ds.length ≤ start + 256) (no_cr : CR ∉ ds)
    (keySlice : slice str first last = .ok key)
    (valueSlice : slice str start (i + ds.length : Nat) = .ok value)
    (short : i + ds.length + 2 < 2 ^ 31) :
    ∃ l', headerLoop str i (ds ++ CR :: LF :: rest) l =
        headerLoop str (i + ds.length + 2) rest l' ∧
      LineDone (i + ds.length + 2) (Function.update headers key (some value)) l' := by
  obtain ⟨state, keyStart, keyEnd, valueStart, rfl, running⟩ := inValue
  have valueEnd : toInt (i + ds.length) = (i + ds.length : Nat) := toInt_of_lt (by omega)
  have lineBegin : toInt (i + ds.length + 1) = (i + ds.length + 1 : Nat) := toInt_of_lt (by omega)
  have cr : headerStep str (i + ds.length) CR l =
      .ok (.next { l with hState := .hCr, valueEnd := (i + ds.length : Nat) }) := by
    unfold headerStep
    simp only [state, if_true, valueEnd, valueStart]
    rw [if_neg (by omega)]
  have lf : headerStep str (i + ds.length + 1) LF
      { l with hState := .hCr, valueEnd := (i + ds.length : Nat) } = .ok (.next { l with
        hState := .hLf
        valueEnd := (i + ds.length : Nat)
        headers := Function.update l.headers key (some value)
        nowReadLineBegin := (i + ds.length + 1 : Nat) }) := by
    unfold headerStep
    simp only [if_true, keyStart, keyEnd, valueStart, keySlice, valueSlice, lineBegin, bind,
      Except.bind]
  rw [headerLoop_value state running (by omega) (by omega) no_cr, headerLoop_next cr running,
    headerLoop_next lf running]
  refine ⟨_, rfl, rfl, rfl, ?_, running⟩
  push_cast
  omega

theorem headerLine_cons (c d : UInt8) (cs ds : Bytes) :
    headerLine (c :: cs) (d :: ds) ++ rest =
      c :: (cs ++ COLON :: SPACE :: d :: (ds ++ CR :: LF :: rest)) := by
  unfold headerLine
  simp only [List.cons_append, List.append_assoc, List.nil_append]

theorem headerLine_length (key value : Bytes) :
    (headerLine key value).length = key.length + value.length + 4 := by
  unfold headerLine
  simp only [List.length_append, List.length_cons, List.length_nil]
  omega

/-- A whole header line is read and stored. -/
theorem headerLoop_line (before rest : Bytes) {value cs : Bytes} {c : UInt8}
    (whole : str = before ++ (headerLine (c :: cs) value ++ rest)) (start : BeforeKey c l)
    (running : l.notFinished = true) (key : ∀ b ∈ cs, b ≠ COLON ∧ b ≠ LF ∧ b ≠ CR)
    (valued : value ≠ []) (fits : value.length ≤ 256) (no_cr : CR ∉ value.tail)
    (short : before.length + (headerLine (c :: cs) value).length < 2 ^ 31) :
    ∃ l', headerLoop str before.length (headerLine (c :: cs) value ++ rest) l =
        headerLoop str (before.length + (headerLine (c :: cs) value).length) rest l' ∧
      LineDone (before.length + (headerLine (c :: cs) value).length)
        (Function.update l.headers (c :: cs) (some value)) l' := by
  obtain ⟨d, ds, rfl⟩ := List.exists_cons_of_ne_nil valued
  rw [headerLine_length, List.length_cons, List.length_cons] at short ⊢
  rw [List.length_cons] at fits
  rw [List.tail_cons] at no_cr
  obtain ⟨l₁, toValue, inValue⟩ := headerLoop_toValue str (ds ++ CR :: LF :: rest) (d := d) start
    running key (by omega : before.length + cs.length + 3 < _)
  have keySlice : slice str before.length (before.length + cs.length + 1 : Nat) = .ok (c :: cs) := by
    refine slice_at before (COLON :: SPACE :: d :: (ds ++ CR :: LF :: rest)) ?_ rfl rfl
    rw [whole, headerLine_cons, List.cons_append]
  have valueSlice : slice str (before.length + cs.length + 3 : Nat)
      (before.length + cs.length + 4 + ds.length : Nat) = .ok (d :: ds) := by
    refine slice_at (before ++ c :: (cs ++ [COLON, SPACE])) (CR :: LF :: rest) ?_
      ?_ ?_
    · rw [whole, headerLine_cons]
      simp only [List.append_assoc, List.cons_append, List.nil_append]
    · simp only [List.length_append, List.length_cons, List.length_nil]
      omega
    · simp only [List.length_append, List.length_cons, List.length_nil]
      omega
  obtain ⟨l₂, toEnd, done⟩ := headerLoop_lineEnd rest inValue (by omega) (by omega) no_cr
    keySlice valueSlice (by omega)
  have length : before.length + (cs.length + 1 + (ds.length + 1) + 4) =
      before.length + cs.length + 4 + ds.length + 2 := by omega
  rw [headerLine_cons, toValue, toEnd, length]
  exact ⟨l₂, rfl, done⟩

/-- Lines are read one after the other. -/
theorem headerLoop_rawFields (before : Bytes) {lines : List RawField} {headers : HeaderMap}
    (whole : str = before ++ (lines.flatMap RawField.bytes ++ rest))
    (done : LineDone before.length headers l)
    (short : before.length + (lines.flatMap RawField.bytes).length < 2 ^ 31) :
    ∃ l', headerLoop str before.length (lines.flatMap RawField.bytes ++ rest) l =
        headerLoop str (before.length + (lines.flatMap RawField.bytes).length) rest l' ∧
      LineDone (before.length + (lines.flatMap RawField.bytes).length)
        (storeRaw headers lines) l' := by
  induction lines generalizing before headers l with
  | nil => exact ⟨l, rfl, done⟩
  | cons f lines ih =>
      rw [List.flatMap_cons, List.append_assoc] at whole ⊢
      rw [List.flatMap_cons, List.length_append] at short
      rw [List.length_append]
      have fits : f.value.length ≤ 256 := Nat.succ_le_succ f.fits
      obtain ⟨l₁, first, done₁⟩ := headerLoop_line before (lines.flatMap RawField.bytes ++ rest)
        whole ⟨f.begun, .inl done.hState⟩ done.notFinished f.key (List.cons_ne_nil _ _) fits f.oneLine
        (Nat.lt_of_le_of_lt (Nat.add_le_add_left (Nat.le_add_right f.bytes.length _) _) short)
      change LineDone (before.length + f.bytes.length) _ l₁ at done₁
      rw [done.headers] at done₁
      have next : (before ++ f.bytes).length = before.length + f.bytes.length := List.length_append
      rw [← next] at done₁
      obtain ⟨l', later, done'⟩ :=
        ih (before ++ f.bytes) (by rw [whole, List.append_assoc]) done₁ (by omega)
      rw [next, Nat.add_assoc] at later done'
      exact ⟨l', first.trans later, done'⟩

theorem headerLoop_fields (before : Bytes) {fields : List Field} {headers : HeaderMap}
    (whole : str = before ++ (fields.flatMap Field.bytes ++ rest))
    (done : LineDone before.length headers l)
    (short : before.length + (fields.flatMap Field.bytes).length < 2 ^ 31) :
    ∃ l', headerLoop str before.length (fields.flatMap Field.bytes ++ rest) l =
        headerLoop str (before.length + (fields.flatMap Field.bytes).length) rest l' ∧
      LineDone (before.length + (fields.flatMap Field.bytes).length)
        (storeFields headers fields) l' := by
  rw [← Field.raw_flatMap] at whole short ⊢
  rw [← storeRaw_map]
  exact headerLoop_rawFields before whole done short

/-- The key under which a call stores its first line: a call that resumes between two lines finds the
    `\n` that ended the line before, and takes it for the first byte of the key. -/
def resumedKey (hState : ParseState) (f : Field) : Bytes :=
  if hState = .hLf then LF :: f.name else f.name

/-- What the header lines of one call add to the headers. -/
def storeLines (hState : ParseState) (headers : HeaderMap) (f : Field) (fields : List Field) :
    HeaderMap :=
  storeFields (Function.update headers (resumedKey hState f) (some f.value)) fields

/-- A call that starts between two lines, with the `\n` of the one before still buffered, reads whole
    lines. -/
theorem headerLoop_lines {f : Field} {fields : List Field}
    (whole : str = LF :: ((f :: fields).flatMap Field.bytes ++ rest))
    (between : l.hState = .hStart ∨ l.hState = .hLf) (running : l.notFinished = true)
    (short : ((f :: fields).flatMap Field.bytes).length + 1 < 2 ^ 31) :
    ∃ l', headerLoop str 0 str l =
        headerLoop str (((f :: fields).flatMap Field.bytes).length + 1) rest l' ∧
      LineDone (((f :: fields).flatMap Field.bytes).length + 1)
        (storeLines l.hState l.headers f fields) l' := by
  obtain ⟨c, cs, name, not_lf, not_cr, key⟩ := f.bytes_cons
  have bytes : f.bytes = headerLine (c :: cs) f.value := by rw [Field.bytes, name]
  rw [List.flatMap_cons, List.append_assoc] at whole
  rw [List.flatMap_cons, List.length_append] at short
  have spelled : headerLoop str 0 str l =
      headerLoop str 0 (LF :: (f.bytes ++ (fields.flatMap Field.bytes ++ rest))) l :=
    congrArg (headerLoop str 0 · l) whole
  -- Either way the first line ends right before the others.
  have opened : ∃ l₁, headerLoop str 0 str l =
      headerLoop str (LF :: f.bytes).length (fields.flatMap Field.bytes ++ rest) l₁ ∧
        LineDone (LF :: f.bytes).length
          (Function.update l.headers (resumedKey l.hState f) (some f.value)) l₁ := by
    rcases between with start | resumed
    · have skip : headerStep str 0 LF l = .ok (.next l) := by
        unfold headerStep
        simp only [start, true_or, if_true]
      obtain ⟨l₁, first, done⟩ := headerLoop_line [LF]
        (fields.flatMap Field.bytes ++ rest) (bytes ▸ whole)
        ⟨not_cr, .inr ⟨start, not_lf⟩⟩ running key f.valued f.fits f.tail_no_cr
        (by rw [← bytes, List.length_singleton]; omega)
      rw [← bytes, List.length_singleton, Nat.add_comm] at done first
      refine ⟨l₁, ?_, ?_⟩
      · rw [spelled, List.length_cons, ← first]
        exact headerLoop_next skip running
      · rw [resumedKey, start, if_neg (by decide), name]
        exact done
    · have line : LF :: f.bytes = headerLine (LF :: f.name) f.value := rfl
      have no_lf : LF ≠ CR := by decide
      obtain ⟨l₁, first, done⟩ := headerLoop_line []
        (fields.flatMap Field.bytes ++ rest) whole ⟨no_lf, .inl resumed⟩ running
        f.key f.valued f.fits f.tail_no_cr (by
          rw [← line, List.length_nil, List.length_cons]
          omega)
      rw [← line, List.length_nil, Nat.zero_add] at done first
      refine ⟨l₁, ?_, ?_⟩
      · rw [spelled, ← first]
        rfl
      · rw [resumedKey, resumed, if_pos rfl]
        exact done
  obtain ⟨l₁, first, done₁⟩ := opened
  obtain ⟨l', later, done'⟩ := headerLoop_fields (LF :: f.bytes) whole done₁ (by
    rw [List.length_cons]
    omega)
  have total : (LF :: f.bytes).length + (fields.flatMap Field.bytes).length =
      ((f :: fields).flatMap Field.bytes).length + 1 := by
    rw [List.flatMap_cons, List.length_append, List.length_cons]
    omega
  rw [first, later, total]
  exact ⟨l', rfl, total ▸ done'⟩

theorem lines_end (f : Field) (fields : List Field) :
    ∃ front, (f :: fields).flatMap Field.bytes = front ++ [LF] := by
  induction fields generalizing f with
  | nil =>
      obtain ⟨front, line, -⟩ := f.lf_last
      exact ⟨front, by rw [List.flatMap_cons, List.flatMap_nil, List.append_nil, line]⟩
  | cons g fields ih =>
      obtain ⟨front, lines⟩ := ih g
      refine ⟨f.bytes ++ front, ?_⟩
      rw [List.flatMap_cons, lines, List.append_assoc]

theorem substr_rest (before : Bytes) {after : Bytes} {pos : Nat} (whole : str = before ++ after)
    (at_pos : pos = before.length) (short : str.length < 2 ^ 63) :
    substr str pos npos = .ok after := by
  subst whole at_pos
  rw [List.length_append] at short
  rw [substr_npos]
  · rw [List.drop_left]
  · rw [List.length_append]
    omega
  · rw [List.length_append]
    unfold npos
    omega

variable {s : HttpData} {f : Field} {fields : List Field}

/-- The connection after a call that ends at `rest`. -/
def afterLines (s : HttpData) (f : Field) (fields : List Field) (hState : ParseState)
    (inBuffer : Bytes) : HttpData :=
  { s with hState, inBuffer, headers := storeLines s.hState s.headers f fields }

/-- A call that ends with a header line keeps the `\n` of that line. -/
theorem parseHeaders_lines (between : s.hState = .hStart ∨ s.hState = .hLf)
    (buffered : s.inBuffer = LF :: (f :: fields).flatMap Field.bytes)
    (short : s.inBuffer.length < 2 ^ 31) :
    parseHeaders s = .ok (.parseHeaderAgain, afterLines s f fields .hLf [LF]) := by
  have whole : s.inBuffer = LF :: ((f :: fields).flatMap Field.bytes ++ []) := by
    rw [buffered, List.append_nil]
  obtain ⟨l, scanned, done⟩ := headerLoop_lines
    (l := { hState := s.hState, headers := s.headers }) whole between rfl (by
      rw [buffered, List.length_cons] at short
      exact short)
  obtain ⟨front, lines⟩ := lines_end f fields
  have cut : substr s.inBuffer (sizeT l.nowReadLineBegin) npos = .ok [LF] := by
    refine substr_rest (LF :: front) (by rw [buffered, lines]; rfl) ?_ (by omega)
    rw [done.nowReadLineBegin, lines, List.length_append, List.length_singleton, List.length_cons]
    rw [buffered, lines] at short
    simp only [List.length_cons, List.length_append, List.length_nil] at short
    unfold sizeT
    omega
  rw [headerLoop] at scanned
  rw [parseHeaders_again scanned (by simp [done.hState]) cut, done.hState, done.headers]
  rfl

/-- A call that ends with the `\r` of the blank line keeps the two bytes before. -/
theorem parseHeaders_blankCr (between : s.hState = .hStart ∨ s.hState = .hLf)
    (buffered : s.inBuffer = LF :: ((f :: fields).flatMap Field.bytes ++ [CR]))
    (short : s.inBuffer.length < 2 ^ 31) :
    parseHeaders s = .ok (.parseHeaderAgain, afterLines s f fields .hEndCr [LF, CR]) := by
  obtain ⟨l, scanned, done⟩ := headerLoop_lines
    (l := { hState := s.hState, headers := s.headers }) buffered between rfl (by
      rw [buffered, List.length_cons, List.length_append] at short
      omega)
  obtain ⟨front, lines⟩ := lines_end f fields
  have cr : ∀ i, headerStep s.inBuffer i CR l = .ok (.next { l with hState := .hEndCr }) := by
    intro i
    unfold headerStep
    simp only [done.hState, if_true]
  have cut : substr s.inBuffer (sizeT l.nowReadLineBegin) npos = .ok [LF, CR] := by
    refine substr_rest (LF :: front) ?_ ?_ (by omega)
    · rw [buffered, lines, List.append_assoc]
      rfl
    · rw [done.nowReadLineBegin, lines, List.length_append, List.length_singleton, List.length_cons]
      rw [buffered, lines] at short
      simp only [List.length_cons, List.length_append, List.length_nil] at short
      unfold sizeT
      omega
  rw [headerLoop_next (cr _) done.notFinished, headerLoop] at scanned
  rw [parseHeaders_again scanned (by simp) cut, done.headers]
  rfl

/-- A call that comes to the blank line succeeds. It takes one more byte, if there is one. -/
theorem parseHeaders_blankLine (front : Bytes) {after : Bytes} {headers : HeaderMap}
    (whole : s.inBuffer = front ++ CR :: LF :: after)
    (scanned : headerLoop s.inBuffer 0 s.inBuffer { hState := s.hState, headers := s.headers } =
      headerLoop s.inBuffer front.length (CR :: LF :: after) l)
    (done : LineDone front.length headers l) (small : s.inBuffer.length < 2 ^ 63) :
    parseHeaders s = .ok (.parseHeaderSuccess,
      { s with hState := .hEndLf, inBuffer := after.tail, headers }) := by
  have cr : ∀ i, headerStep s.inBuffer i CR l = .ok (.next { l with hState := .hEndCr }) := by
    intro i
    unfold headerStep
    simp only [done.hState, if_true]
  have lf : ∀ i, headerStep s.inBuffer i LF { l with hState := .hEndCr } =
      .ok (.next { l with hState := .hEndLf }) := by
    intro i
    unfold headerStep
    simp only [if_true]
  rw [headerLoop_next (cr _) done.notFinished, headerLoop_next (lf _) done.notFinished] at scanned
  cases after with
  | nil =>
      have cut : substr s.inBuffer (front.length + 2) npos = .ok [] := by
        refine substr_rest s.inBuffer (List.append_nil _).symm ?_ small
        rw [whole]
        simp only [List.length_append, List.length_cons, List.length_nil]
      rw [headerLoop] at scanned
      rw [parseHeaders_success scanned rfl cut, done.headers]
      rfl
  | cons c after =>
      -- The automaton notices the end of the section only at the next byte.
      have extra : headerLoop s.inBuffer (front.length + 2) (c :: after) { l with hState := .hEndLf } =
          .ok (.done (front.length + 3) { l with
            hState := .hEndLf
            notFinished := false
            keyStart := toInt (front.length + 2)
            nowReadLineBegin := toInt (front.length + 2) }) := by
        rw [headerLoop_next (l := { l with hState := .hEndLf }) rfl done.notFinished]
        cases after with
        | nil => rfl
        | cons d after => rfl
      have cut : substr s.inBuffer (front.length + 3) npos = .ok after := by
        refine substr_rest (front ++ [CR, LF, c]) ?_ ?_ small
        · rw [whole]
          simp only [List.append_assoc, List.cons_append, List.nil_append]
        · simp only [List.length_append, List.length_cons, List.length_nil]
      rw [parseHeaders_success (scanned.trans extra) rfl cut, done.headers]
      rfl

theorem parseHeaders_section {after : Bytes} (between : s.hState = .hStart ∨ s.hState = .hLf)
    (buffered : s.inBuffer = LF :: ((f :: fields).flatMap Field.bytes ++ CR :: LF :: after))
    (short : ((f :: fields).flatMap Field.bytes).length + 1 < 2 ^ 31)
    (small : s.inBuffer.length < 2 ^ 63) :
    parseHeaders s = .ok (.parseHeaderSuccess, afterLines s f fields .hEndLf after.tail) := by
  obtain ⟨l, scanned, done⟩ := headerLoop_lines
    (l := { hState := s.hState, headers := s.headers }) buffered between rfl short
  exact parseHeaders_blankLine (LF :: (f :: fields).flatMap Field.bytes) buffered scanned done small

end HttpData

end WebServer
