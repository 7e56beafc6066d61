import WebServer.Http.HeaderCodec
import WebServer.Http.Partial

/-! # Requests cut into chunks

A request that arrives in several chunks is answered like the whole one only if every cut falls where
both parsers can resume: behind the `\r` or the `\n` of the request line, before a later header line, or
before the last byte. Even there a resumed call takes the `\n` that it kept for the first byte of the
next key, and the last byte, coming alone, is left over.
-/

namespace WebServer

open Lib

/-- Where the chunks after the first `n` bytes begin. -/
def cutsFrom : Nat → List Bytes → List Nat
  | _, [] => []
  | n, chunk :: chunks => n :: cutsFrom (n + chunk.length) chunks

/-- Where the chunks but the first begin. -/
def cuts : List Bytes → List Nat
  | [] => []
  | chunk :: chunks => cutsFrom chunk.length chunks

/-- Where these header lines begin, the first of them at `n`. -/
def lineStarts : Nat → List Field → List Nat
  | _, [] => []
  | n, f :: fields => n :: lineStarts (n + f.bytes.length) fields

/-- The headers once lines from `n` on are read by calls that begin at `cuts`. -/
def seenFields (cuts : List Nat) : Nat → List Field → HeaderMap → HeaderMap
  | _, [], headers => headers
  | n, f :: fields, headers =>
      let name := if n ∈ cuts then LF :: f.name else f.name
      seenFields cuts (n + f.bytes.length) fields (Function.update headers name (some f.value))

/-- The cuts that the parsers survive in header lines that begin with `f` at `n`. -/
def safeFrom (n : Nat) (f : Field) (fields : List Field) : List Nat :=
  lineStarts (n + f.bytes.length) fields ++ [n + (headerSection (f :: fields)).length - 1]

theorem cutsFrom_ge {n k : Nat} {chunks : List Bytes} (cut : k ∈ cutsFrom n chunks) : n ≤ k := by
  induction chunks generalizing n with
  | nil => cases cut
  | cons chunk chunks ih =>
      rcases List.mem_cons.mp cut with rfl | later
      · exact le_rfl
      · exact le_trans (Nat.le_add_right n _) (ih later)

theorem Field.bytes_pos (f : Field) : 0 < f.bytes.length := by
  unfold Field.bytes
  rw [HttpData.headerLine_length]
  omega

theorem lineStarts_bounds {n k : Nat} {fields : List Field} (start : k ∈ lineStarts n fields) :
    n ≤ k ∧ k < n + (fields.flatMap Field.bytes).length := by
  induction fields generalizing n with
  | nil => cases start
  | cons f fields ih =>
      have := f.bytes_pos
      rw [List.flatMap_cons, List.length_append]
      rcases List.mem_cons.mp start with rfl | later
      · omega
      · have := ih later
        omega

theorem lineStarts_append (n : Nat) (done rest : List Field) :
    lineStarts n (done ++ rest) =
      lineStarts n done ++ lineStarts (n + (done.flatMap Field.bytes).length) rest := by
  induction done generalizing n with
  | nil => rfl
  | cons f done ih =>
      rw [List.cons_append, lineStarts, ih, List.flatMap_cons, List.length_append, lineStarts,
        List.cons_append, Nat.add_assoc]

theorem headerSection_append (done rest : List Field) :
    headerSection (done ++ rest) = done.flatMap Field.bytes ++ headerSection rest := by
  unfold headerSection
  rw [List.flatMap_append, List.append_assoc]

theorem headerSection_length (fields : List Field) :
    (headerSection fields).length = (fields.flatMap Field.bytes).length + 2 := by
  unfold headerSection
  exact List.length_append

theorem safeFrom_eq (n : Nat) (f g : Field) (done rest : List Field) :
    safeFrom n f (done ++ g :: rest) = lineStarts (n + f.bytes.length) done ++
      (n + ((f :: done).flatMap Field.bytes).length) ::
        safeFrom (n + ((f :: done).flatMap Field.bytes).length) g rest := by
  have whole := congrArg List.length (headerSection_append (f :: done) (g :: rest))
  have next : n + f.bytes.length + (done.flatMap Field.bytes).length =
      n + ((f :: done).flatMap Field.bytes).length := by
    rw [List.flatMap_cons, List.length_append]
    omega
  have last : n + (headerSection (f :: (done ++ g :: rest))).length - 1 =
      n + ((f :: done).flatMap Field.bytes).length + (headerSection (g :: rest)).length - 1 := by
    rw [List.length_append, List.cons_append] at whole
    omega
  unfold safeFrom
  rw [lineStarts_append, next, last, List.append_assoc]
  rfl

theorem safeFrom_next {n k : Nat} {f g : Field} {done rest : List Field}
    (later : n + ((f :: done).flatMap Field.bytes).length < k) :
    k ∈ safeFrom n f (done ++ g :: rest) ↔
      k ∈ safeFrom (n + ((f :: done).flatMap Field.bytes).length) g rest := by
  have before : k ∉ lineStarts (n + f.bytes.length) done := by
    intro start
    have := (lineStarts_bounds start).2
    rw [List.flatMap_cons, List.length_append] at later
    omega
  rw [safeFrom_eq, List.mem_append, List.mem_cons]
  constructor
  · rintro (start | here | rest)
    · exact absurd start before
    · omega
    · exact rest
  · exact fun rest => .inr (.inr rest)

theorem safeFrom_start (n : Nat) (f g : Field) (done rest : List Field) :
    n + ((f :: done).flatMap Field.bytes).length ∈ safeFrom n f (done ++ g :: rest) := by
  rw [safeFrom_eq]
  exact List.mem_append_right _ List.mem_cons_self

theorem safeFrom_low {n k : Nat} {f : Field} {fields : List Field} (low : k < n + f.bytes.length) :
    k ∉ safeFrom n f fields := by
  unfold safeFrom
  rw [List.mem_append, List.mem_singleton]
  rintro (start | last)
  · have := (lineStarts_bounds start).1
    omega
  · rw [headerSection_length, List.flatMap_cons, List.length_append] at last
    omega

theorem safeFrom_inside {n : Nat} {f g : Field} {fields done rest : List Field} {x y : Bytes}
    (lines : f :: fields = done ++ g :: rest) (parts : g.bytes = x ++ y) (begun : x ≠ [])
    (more : y ≠ []) : n + (done.flatMap Field.bytes ++ x).length ∉ safeFrom n f fields := by
  have length := congrArg List.length parts
  have := List.length_pos_iff.mpr begun
  have := List.length_pos_iff.mpr more
  rw [List.length_append] at length ⊢
  cases done with
  | nil =>
      obtain ⟨rfl, rfl⟩ := List.cons.inj lines
      apply safeFrom_low
      rw [List.flatMap_nil, List.length_nil]
      omega
  | cons d done =>
      obtain ⟨rfl, split⟩ := List.cons.inj lines
      have later : fields = done ++ g :: rest := split
      rw [later, safeFrom_next (by omega)]
      apply safeFrom_low
      omega

theorem safeFrom_blank (n : Nat) (f : Field) (fields : List Field) :
    n + ((f :: fields).flatMap Field.bytes).length ∉ safeFrom n f fields := by
  unfold safeFrom
  rw [List.mem_append, List.mem_singleton]
  rintro (start | last)
  · have := (lineStarts_bounds start).2
    rw [List.flatMap_cons, List.length_append] at this
    omega
  · rw [headerSection_length] at last
    omega

/-- A part of a header section ends between two lines, behind the last `\r`, with the section, or
    inside a line. -/
theorem headerSection_parts {fields : List Field} {front back : Bytes}
    (parts : front ++ back = headerSection fields) :
    (∃ done rest, fields = done ++ rest ∧ front = done.flatMap Field.bytes ∧
        back = headerSection rest) ∨
      (front = fields.flatMap Field.bytes ++ [CR] ∧ back = [LF]) ∨
      (front = headerSection fields ∧ back = []) ∨
      ∃ done g rest x y, fields = done ++ g :: rest ∧ g.bytes = x ++ y ∧ x ≠ [] ∧ y ≠ [] ∧
        front = done.flatMap Field.bytes ++ x ∧ back = y ++ headerSection rest := by
  induction fields generalizing front with
  | nil =>
      rcases front with _ | ⟨c, _ | ⟨d, front⟩⟩
      · exact .inl ⟨[], [], rfl, rfl, parts⟩
      · obtain ⟨rfl, rfl⟩ := List.cons.inj parts
        exact .inr (.inl ⟨rfl, rfl⟩)
      · obtain ⟨rfl, tail⟩ := List.cons.inj parts
        obtain ⟨rfl, last⟩ := List.cons.inj tail
        obtain ⟨rfl, rfl⟩ := List.append_eq_nil_iff.mp last
        exact .inr (.inr (.inl ⟨rfl, rfl⟩))
  | cons f fields ih =>
      have whole : headerSection (f :: fields) = f.bytes ++ headerSection fields := by
        unfold headerSection
        rw [List.flatMap_cons, List.append_assoc]
      rw [whole] at parts
      rcases List.append_eq_append_iff.mp parts with ⟨y, line, rfl⟩ | ⟨front', rfl, later⟩
      · by_cases begun : front = []
        · subst begun
          refine .inl ⟨[], f :: fields, rfl, rfl, ?_⟩
          rw [whole, line]
          rfl
        by_cases more : y = []
        · subst more
          rw [List.append_nil] at line
          refine .inl ⟨[f], fields, rfl, ?_, rfl⟩
          rw [List.flatMap_cons, List.flatMap_nil, List.append_nil, line]
        · exact .inr (.inr (.inr ⟨[], f, fields, front, y, rfl, line, begun, more, rfl, rfl⟩))
      · rcases ih later.symm with
          ⟨done, rest, rfl, rfl, rfl⟩ | ⟨rfl, rfl⟩ | ⟨rfl, rfl⟩ |
            ⟨done, g, rest, x, y, rfl, line, begun, more, rfl, rfl⟩
        · refine .inl ⟨f :: done, rest, rfl, ?_, rfl⟩
          rw [List.flatMap_cons]
        · refine .inr (.inl ⟨?_, rfl⟩)
          rw [List.flatMap_cons, List.append_assoc]
        · exact .inr (.inr (.inl ⟨whole.symm, rfl⟩))
        · refine .inr (.inr (.inr ⟨f :: done, g, rest, x, y, rfl, line, begun, more, ?_, rfl⟩))
          rw [List.flatMap_cons, List.append_assoc]

theorem seenFields_append (cuts : List Nat) (n : Nat) (done rest : List Field) (m : HeaderMap) :
    seenFields cuts n (done ++ rest) m =
      seenFields cuts (n + (done.flatMap Field.bytes).length) rest (seenFields cuts n done m) := by
  induction done generalizing n m with
  | nil => rfl
  | cons f done ih =>
      rw [List.cons_append, seenFields, ih, seenFields, List.flatMap_cons, List.length_append,
        Nat.add_assoc]

theorem seenFields_plain {cuts : List Nat} {n : Nat} {fields : List Field}
    (late : ∀ k ∈ cuts, n + (fields.flatMap Field.bytes).length ≤ k) (m : HeaderMap) :
    seenFields cuts n fields m = storeFields m fields := by
  induction fields generalizing n m with
  | nil => rfl
  | cons f fields ih =>
      have pos := f.bytes_pos
      rw [List.flatMap_cons, List.length_append] at late
      have uncut : n ∉ cuts := by
        intro cut
        have := late n cut
        omega
      rw [seenFields, if_neg uncut, ih]
      · rfl
      · intro k cut
        have := late k cut
        omega

theorem seenFields_behind {cuts : List Nat} {k n : Nat} (behind : k < n) (fields : List Field)
    (m : HeaderMap) : seenFields (k :: cuts) n fields m = seenFields cuts n fields m := by
  induction fields generalizing n m with
  | nil => rfl
  | cons f fields ih =>
      have same : n ∈ k :: cuts ↔ n ∈ cuts := by
        rw [List.mem_cons]
        exact ⟨fun cut => cut.resolve_left (by omega), .inr⟩
      rw [seenFields, seenFields, ih (by omega)]
      simp only [same]

/-- What is left behind the request, whose last byte is the one at `last`. -/
def leftOver (cuts : List Nat) (last : Nat) : Bytes := if last ∈ cuts then [LF] else []

theorem leftOver_behind {cuts : List Nat} {k last : Nat} (behind : k < last) :
    leftOver (k :: cuts) last = leftOver cuts last := by
  have same : last ∈ k :: cuts ↔ last ∈ cuts := by
    rw [List.mem_cons]
    exact ⟨fun cut => cut.resolve_left (by omega), .inr⟩
  unfold leftOver
  simp only [same]

namespace HttpData

/-- What becomes of a connection that `ParseHeaders` is called on, and that is then offered chunks. -/
def fate (files : Bytes → FileView) (t : HttpData) (chunks : List Bytes) : Except Fault Answer :=
  ((resume t (steady files [] [] [])).bind fun (s, k) => deliver files s k.sent chunks).map observed

variable {files : Bytes → FileView} {s t : HttpData} {q : RequestLine} {f : Field}
  {fields : List Field} {chunks : List Bytes}

theorem fate_strays (strays : Strays (resume t (steady files [] [] []))) (chunks : List Bytes) :
    Lost (fate files t chunks) :=
  strays_lost strays chunks

/-- The connection waited for more bytes, and these arrived. -/
def offered (s : HttpData) (chunk : Bytes) : HttpData :=
  { s.addEvents EPOLLIN with inBuffer := s.inBuffer ++ chunk }

theorem AtHeaders.offered (atHeaders : AtHeaders q s) (chunk : Bytes) :
    AtHeaders q (s.offered chunk) :=
  ⟨⟨atHeaders.error, atHeaders.connectionState, atHeaders.outBuffer, atHeaders.nowReadPos⟩,
    atHeaders.state, atHeaders.keepAlive, atHeaders.asked⟩

theorem chunk_short (front : Bytes) {chunk whole : Bytes} {chunks : List Bytes}
    (parts : front ++ (chunk :: chunks).flatten = whole) (short : whole.length < 2 ^ 31) :
    chunk.length < 2 ^ 31 := by
  rw [← parts, List.flatten_cons, List.length_append, List.length_append] at short
  omega

theorem fate_waits (atHeaders : AtHeaders q s)
    (waits : resume t (steady files [] [] []) = .ok (s.addEvents EPOLLIN, steady files [] [] []))
    {chunk : Bytes} (brought : chunk.length < 2 ^ 31) (chunks : List Bytes) :
    fate files t (chunk :: chunks) = fate files (s.offered chunk) chunks := by
  unfold fate
  rw [waits]
  have called := deliver_cons files [] (s := s.addEvents EPOLLIN) atHeaders.error chunk chunks
  rw [handleRead_parsing (s := s.addEvents EPOLLIN) atHeaders.connectionState atHeaders.state
    (counted_of_lt brought)] at called
  exact congrArg (Except.map observed) called

theorem fate_success (parsed : parseHeaders s = .ok (.parseHeaderSuccess, t))
    (parsing : s.state = .stateParseHeaders) (atHeaders : AtHeaders q t)
    (left : t.inBuffer = [] ∨ t.inBuffer = [LF]) :
    fate files s [] = (answer files q t.headers t.inBuffer).map (withLeft t.inBuffer) := by
  rw [← resume_success parsed parsing atHeaders left]
  unfold fate
  cases resume s (steady files [] [] []) with
  | error e => rfl
  | ok result => rfl

/-- What header lines, the first of them at `n`, come to when calls begin at `cuts`; the first one is
    already stored in the headers. -/
inductive Comes (files : Bytes → FileView) (q : RequestLine) (n : Nat) (f : Field)
    (fields : List Field) (headers : HeaderMap) (cuts : List Nat) : Except Fault Answer → Prop where
  | answered (safe : ∀ k ∈ cuts, k ∈ safeFrom n f fields) :
      Comes files q n f fields headers cuts
        ((answer files q (seenFields cuts (n + f.bytes.length) fields headers)
          (leftOver cuts (n + (headerSection (f :: fields)).length - 1))).map
            (withLeft (leftOver cuts (n + (headerSection (f :: fields)).length - 1))))
  | lost {o : Except Fault Answer} {k : Nat} (cut : k ∈ cuts) (harmful : k ∉ safeFrom n f fields)
      (lost : Lost o) : Comes files q n f fields headers cuts o

/-- A cut before the line of `g` leaves the `\n` in front of its key. -/
theorem Comes.next {n : Nat} {g : Field} {done rest : List Field} {headers : HeaderMap}
    {cuts : List Nat} {o : Except Fault Answer}
    (later : ∀ k ∈ cuts, n + ((f :: done).flatMap Field.bytes).length < k)
    (comes : Comes files q (n + ((f :: done).flatMap Field.bytes).length) g rest
      (Function.update (storeFields headers done) (LF :: g.name) (some g.value)) cuts o) :
    Comes files q n f (done ++ g :: rest) headers
      ((n + ((f :: done).flatMap Field.bytes).length) :: cuts) o := by
  have pos := g.bytes_pos
  cases comes with
  | lost cut harmful lost =>
      refine .lost (List.mem_cons_of_mem _ cut) (fun safe => harmful ?_) lost
      have := later _ cut
      exact (safeFrom_next (by omega)).mp safe
  | answered safe =>
      have start : n + f.bytes.length + (done.flatMap Field.bytes).length =
          n + ((f :: done).flatMap Field.bytes).length := by
        rw [List.flatMap_cons, List.length_append]
        omega
      have late : ∀ k ∈ (n + ((f :: done).flatMap Field.bytes).length) :: cuts,
          n + f.bytes.length + (done.flatMap Field.bytes).length ≤ k := by
        intro k cut
        rw [start]
        rcases List.mem_cons.mp cut with rfl | cut
        · exact le_rfl
        · have := later k cut
          omega
      have before := seenFields_plain late headers
      have length := congrArg List.length (headerSection_append (f :: done) (g :: rest))
      rw [List.length_append, List.cons_append] at length
      have behind : 0 < (headerSection (g :: rest)).length - 1 := by
        rw [headerSection_length]
        omega
      have seen : seenFields ((n + ((f :: done).flatMap Field.bytes).length) :: cuts)
            (n + f.bytes.length) (done ++ g :: rest) headers =
          seenFields cuts (n + ((f :: done).flatMap Field.bytes).length + g.bytes.length) rest
            (Function.update (storeFields headers done) (LF :: g.name) (some g.value)) := by
        rw [seenFields_append, start, before, seenFields, if_pos List.mem_cons_self,
          seenFields_behind (by omega)]
      have last : n + (headerSection (f :: (done ++ g :: rest))).length - 1 =
          n + ((f :: done).flatMap Field.bytes).length + (headerSection (g :: rest)).length - 1 := by
        omega
      have inside : n + ((f :: done).flatMap Field.bytes).length <
          n + (headerSection (f :: (done ++ g :: rest))).length - 1 := by omega
      rw [← seen, ← last, ← leftOver_behind inside]
      refine .answered fun k cut => ?_
      rcases List.mem_cons.mp cut with rfl | cut
      · exact safeFrom_start n f g done rest
      · have := later k cut
        exact (safeFrom_next (by omega)).mpr (safe k cut)

theorem comes_complete {n : Nat} (atHeaders : AtHeaders q t)
    (between : t.hState = .hStart ∨ t.hState = .hLf)
    (buffered : t.inBuffer = LF :: headerSection (f :: fields)) (short : t.inBuffer.length < 2 ^ 31) :
    Comes files q n f fields (Function.update t.headers (resumedKey t.hState f) (some f.value)) []
      (fate files t []) := by
  rw [fate_success (parseHeaders_complete between buffered short) atHeaders.state
    (atHeaders.afterLines f fields .hEndLf []) (.inl rfl)]
  have seen : (afterLines t f fields .hEndLf []).headers =
      seenFields [] (n + f.bytes.length) fields
        (Function.update t.headers (resumedKey t.hState f) (some f.value)) := by
    rw [seenFields_plain (by simp)]
    rfl
  rw [seen]
  exact .answered (by simp)

/-- The last byte comes alone. -/
theorem comes_lastByte {n : Nat} (atHeaders : AtHeaders q t)
    (between : t.hState = .hStart ∨ t.hState = .hLf)
    (buffered : t.inBuffer = LF :: ((f :: fields).flatMap Field.bytes ++ [CR]))
    (short : t.inBuffer.length < 2 ^ 31) :
    Comes files q n f fields (Function.update t.headers (resumedKey t.hState f) (some f.value))
      [n + (headerSection (f :: fields)).length - 1] (fate files t [[LF]]) := by
  have waiting := (atHeaders.afterLines f fields .hEndCr [LF, CR]).offered [LF]
  have parsed := parseHeaders_lastByte
    (s := (afterLines t f fields .hEndCr [LF, CR]).offered [LF]) rfl rfl
  rw [fate_waits (atHeaders.afterLines f fields .hEndCr [LF, CR])
      (resume_blankCr atHeaders between buffered short) (by decide),
    fate_success parsed waiting.state ⟨⟨waiting.error, waiting.connectionState, waiting.outBuffer,
      waiting.nowReadPos⟩, waiting.state, waiting.keepAlive, waiting.asked⟩ (.inr rfl)]
  have length := headerSection_length (f :: fields)
  have seen : storeLines t.hState t.headers f fields =
      seenFields [n + (headerSection (f :: fields)).length - 1] (n + f.bytes.length) fields
        (Function.update t.headers (resumedKey t.hState f) (some f.value)) := by
    refine (seenFields_plain ?_ _).symm
    intro k cut
    rw [List.mem_singleton] at cut
    rw [List.flatMap_cons, List.length_append] at length
    omega
  have left : [LF] = leftOver [n + (headerSection (f :: fields)).length - 1]
      (n + (headerSection (f :: fields)).length - 1) := (if_pos List.mem_cons_self).symm
  have answered : Comes files q n f fields
      (Function.update t.headers (resumedKey t.hState f) (some f.value))
      [n + (headerSection (f :: fields)).length - 1] _ := .answered (by
    intro k cut
    rw [List.mem_singleton] at cut
    rw [cut]
    exact List.mem_append_right _ List.mem_cons_self)
  rw [← seen, ← left] at answered
  exact answered

theorem nonempty_flatten {chunks : List Bytes} {b : UInt8} {bs : Bytes}
    (flat : chunks.flatten = b :: bs) :
    ∃ chunk rest, chunks = chunk :: rest := by
  cases chunks with
  | nil => cases flat
  | cons chunk rest => exact ⟨chunk, rest, rfl⟩

theorem flatten_nil {chunks : List Bytes} (nonempty : ∀ c ∈ chunks, c ≠ [])
    (flat : chunks.flatten = []) : chunks = [] := by
  cases chunks with
  | nil => rfl
  | cons chunk rest =>
      exact absurd (List.append_eq_nil_iff.mp flat).1 (nonempty chunk List.mem_cons_self)

theorem flatten_cons {chunks : List Bytes} (nonempty : ∀ c ∈ chunks, c ≠ []) {b : UInt8} {bs : Bytes}
    (flat : chunks.flatten = b :: bs) :
    ∃ chunk rest, chunks = (b :: chunk) :: rest ∧ chunk ++ rest.flatten = bs := by
  obtain ⟨chunk, rest, rfl⟩ := nonempty_flatten flat
  obtain ⟨c, chunk', rfl⟩ := List.exists_cons_of_ne_nil (nonempty chunk List.mem_cons_self)
  rw [List.flatten_cons, List.cons_append] at flat
  obtain ⟨rfl, behind⟩ := List.cons.inj flat
  exact ⟨chunk', rest, rfl, behind⟩

/-- Header lines that come in chunks are answered, or lost at the first harmful cut. -/
theorem comes_chunks (files : Bytes → FileView) (n : Nat) (chunks : List Bytes)
    {front : Bytes} (atHeaders : AtHeaders q t)
    (between : t.hState = .hStart ∨ t.hState = .hLf) (buffered : t.inBuffer = LF :: front)
    (begun : front ≠ []) (parts : front ++ chunks.flatten = headerSection (f :: fields))
    (nonempty : ∀ c ∈ chunks, c ≠ []) (short : (headerSection (f :: fields)).length + 1 < 2 ^ 31) :
    Comes files q n f fields (Function.update t.headers (resumedKey t.hState f) (some f.value))
      (cutsFrom (n + front.length) chunks) (fate files t chunks) := by
  have small : t.inBuffer.length < 2 ^ 31 := by
    have := congrArg List.length parts
    rw [List.length_append] at this
    rw [buffered, List.length_cons]
    omega
  induction chunks generalizing t f fields n front with
  | nil =>
      rw [List.flatten_nil, List.append_nil] at parts
      exact comes_complete atHeaders between (buffered.trans (congrArg _ parts)) small
  | cons chunk chunks ih =>
      have here : n + front.length ∈ cutsFrom (n + front.length) (chunk :: chunks) :=
        List.mem_cons_self
      rcases headerSection_parts parts with
        ⟨done, rest, lines, rfl, back⟩ | ⟨rfl, back⟩ | ⟨-, back⟩ |
          ⟨done, g, rest, x, y, lines, line, some_x, some_y, rfl, back⟩
      · cases done with
        | nil => exact absurd rfl begun
        | cons d done =>
            obtain ⟨rfl, split⟩ := List.cons.inj lines
            have lines : fields = done ++ rest := split
            have waiting := atHeaders.afterLines f done .hLf [LF]
            rw [fate_waits waiting (resume_lines atHeaders between buffered small)
              (chunk_short _ parts (by omega)), lines]
            cases rest with
            | nil =>
                obtain ⟨tail, rest, same, -⟩ := flatten_cons nonempty back
                obtain ⟨rfl, rfl⟩ := List.cons.inj same
                refine .lost here ?_ (fate_strays (resume_blankLine (waiting.offered _) rfl rfl) _)
                rw [List.append_nil]
                exact safeFrom_blank n f done
            | cons g rest =>
                have some_bytes := nonempty chunk List.mem_cons_self
                have positive := List.length_pos_iff.mpr some_bytes
                have length := congrArg List.length (headerSection_append (f :: done) (g :: rest))
                rw [List.length_append, List.cons_append, ← lines] at length
                refine Comes.next ?_ (ih _ (waiting.offered chunk) (.inr rfl) rfl some_bytes back
                  (fun c later => nonempty c (List.mem_cons_of_mem _ later)) (by omega) ?_)
                · intro k cut
                  have := cutsFrom_ge cut
                  omega
                · have := congrArg List.length back
                  rw [List.flatten_cons, List.length_append] at this
                  show (LF :: chunk).length < 2 ^ 31
                  rw [List.length_cons]
                  omega
      · obtain ⟨tail, rest, same, last⟩ := flatten_cons nonempty back
        obtain ⟨rfl, rfl⟩ := List.cons.inj same
        obtain ⟨rfl, none_left⟩ := List.append_eq_nil_iff.mp last
        obtain rfl := flatten_nil (fun c later => nonempty c (List.mem_cons_of_mem _ later)) none_left
        have position : n + ((f :: fields).flatMap Field.bytes ++ [CR]).length =
            n + (headerSection (f :: fields)).length - 1 := by
          rw [headerSection_length, List.length_append, List.length_singleton]
          omega
        rw [position]
        exact comes_lastByte atHeaders between buffered small
      · exact absurd (List.append_eq_nil_iff.mp back).1 (nonempty chunk List.mem_cons_self)
      · exact .lost here (safeFrom_inside lines line some_x some_y) (fate_strays
          (resume_midLine atHeaders between line some_x some_y buffered small) _)

end HttpData

namespace Request

/-- The cuts that the parsers survive: behind the `\r` or the `\n` of the request line, before a later
    header line, before the last byte. -/
def safeCuts (r : Request) : List Nat :=
  (r.line.length + 1) :: (r.line.length + 2) :: safeFrom (r.line.length + 2) r.first r.others

/-- The headers that are seen when calls begin at `cuts`. -/
def seenHeaders (r : Request) (cuts : List Nat) : HeaderMap :=
  seenFields cuts (r.line.length + 2 + r.first.bytes.length) r.others
    (Function.update (fun _ => none) r.first.name (some r.first.value))

/-- What is left over then. -/
def leftOver (r : Request) (cuts : List Nat) : Bytes :=
  WebServer.leftOver cuts (r.bytes.length - 1)

end Request

/-- What a request comes to when calls begin at `cuts`. -/
inductive Arrives (files : Bytes → FileView) (r : Request) (cuts : List Nat) :
    Except Fault Answer → Prop where
  | answered {q : HttpData.RequestLine} (decoded : HttpData.decodeLine r.line = some q)
      (safe : ∀ k ∈ cuts, k ∈ r.safeCuts) :
      Arrives files r cuts
        ((answer files q (r.seenHeaders cuts) (r.leftOver cuts)).map
          (HttpData.withLeft (r.leftOver cuts)))
  | refused (decoded : HttpData.decodeLine r.line = none) :
      Arrives files r cuts (requestAnswer files r.line r.headers [])
  | lost {q : HttpData.RequestLine} (decoded : HttpData.decodeLine r.line = some q)
      {o : Except Fault Answer} {k : Nat} (cut : k ∈ cuts) (harmful : k ∉ r.safeCuts)
      (lost : HttpData.Lost o) : Arrives files r cuts o

namespace HttpData

variable {files : Bytes → FileView} {t : HttpData} {q : RequestLine} {r : Request}

section

variable {cuts : List Nat} {o : Except Fault Answer}

theorem Comes.arrives (decoded : decodeLine r.line = some q)
    (later : ∀ k ∈ cuts, r.line.length + 2 < k)
    (comes : Comes files q (r.line.length + 2) r.first r.others
      (Function.update (fun _ => none) r.first.name (some r.first.value)) cuts o) :
    Arrives files r cuts o := by
  cases comes with
  | answered safe =>
      have last : r.line.length + 2 + (headerSection (r.first :: r.others)).length - 1 =
          r.bytes.length - 1 := by
        have length := r.bytes_length
        unfold Request.fields at length
        omega
      rw [last]
      exact .answered decoded fun k cut => .tail _ (.tail _ (safe k cut))
  | lost cut harmful lost =>
      refine .lost decoded cut ?_ lost
      have := later _ cut
      unfold Request.safeCuts
      rw [List.mem_cons, List.mem_cons]
      rintro (start | start | safe)
      · omega
      · omega
      · exact harmful safe

/-- The cuts before the first header line do no harm. -/
theorem arrives_cut {k : Nat} (before : k = r.line.length + 1 ∨ k = r.line.length + 2)
    (arrives : Arrives files r cuts o) : Arrives files r (k :: cuts) o := by
  cases arrives with
  | refused decoded => exact .refused decoded
  | lost decoded cut harmful lost => exact .lost decoded (.tail _ cut) harmful lost
  | answered decoded safe =>
      have pos := r.first.bytes_pos
      have length := r.bytes_length
      have section_length := headerSection_length r.fields
      have first : (r.fields.flatMap Field.bytes).length =
          r.first.bytes.length + (r.others.flatMap Field.bytes).length := List.length_append
      have seen : r.seenHeaders (k :: cuts) = r.seenHeaders cuts := seenFields_behind (by omega) _ _
      have left : r.leftOver (k :: cuts) = r.leftOver cuts := leftOver_behind (by omega)
      rw [← seen, ← left]
      refine .answered decoded fun k' cut => ?_
      rcases List.mem_cons.mp cut with rfl | cut
      · rcases before with rfl | rfl
        · exact .head _
        · exact .tail _ (.head _)
      · exact safe k' cut

end

/-- The `\n` of the request line is there, and maybe header lines. -/
theorem arrives_lineEnd (files : Bytes → FileView) (front : Bytes) (chunks : List Bytes)
    (decoded : decodeLine r.line = some q)
    (atHeaders : AtHeaders q t) (start : t.hState = .hStart) (headers : t.headers = fun _ => none)
    (buffered : t.inBuffer = LF :: front)
    (parts : front ++ chunks.flatten = headerSection r.fields) (nonempty : ∀ c ∈ chunks, c ≠ []) :
    Arrives files r (cutsFrom (r.line.length + 2 + front.length) chunks) (fate files t chunks) := by
  have short : (headerSection (r.first :: r.others)).length + 1 < 2 ^ 31 := by
    have := r.short
    omega
  have key : resumedKey t.hState r.first = r.first.name := by
    rw [start]
    rfl
  by_cases begun : front = []
  · subst begun
    have some_bytes : ∃ b bs, headerSection r.fields = b :: bs := by
      refine List.exists_cons_of_ne_nil fun empty => ?_
      have length := headerSection_length r.fields
      rw [empty, List.length_nil] at length
      omega
    obtain ⟨b, bs, spelled⟩ := some_bytes
    rw [List.nil_append] at parts
    obtain ⟨chunk, chunks, rfl⟩ := nonempty_flatten (parts.trans spelled)
    rw [List.length_nil, Nat.add_zero, fate_waits atHeaders
      (resume_lineEnd atHeaders start (.inr buffered))
      (chunk_short [] parts (by
        unfold Request.fields
        omega))]
    refine arrives_cut (.inr rfl) (Comes.arrives decoded ?_ ?_)
    · intro k cut
      have := cutsFrom_ge cut
      have := List.length_pos_iff.mpr (nonempty chunk List.mem_cons_self)
      omega
    · have comes := comes_chunks files (r.line.length + 2) chunks
        (atHeaders.offered chunk) (.inl start) (congrArg (· ++ chunk) buffered)
        (nonempty chunk List.mem_cons_self) parts
        (fun c later => nonempty c (List.mem_cons_of_mem _ later)) short
      rw [← headers, ← key]
      exact comes
  · apply Comes.arrives decoded
    · intro k cut
      have := cutsFrom_ge cut
      have := List.length_pos_iff.mpr begun
      omega
    · have comes := comes_chunks files (r.line.length + 2) chunks atHeaders
        (.inl start) buffered begun parts nonempty short
      rw [← headers, ← key]
      exact comes

/-- The `\r` of the request line is there. -/
theorem arrives_line (files : Bytes → FileView) (chunks : List Bytes)
    (decoded : decodeLine r.line = some q)
    (atHeaders : AtHeaders q t) (start : t.hState = .hStart) (headers : t.headers = fun _ => none)
    (parts : t.inBuffer ++ chunks.flatten = LF :: headerSection r.fields)
    (nonempty : ∀ c ∈ chunks, c ≠ []) :
    Arrives files r (cutsFrom (r.line.length + 1 + t.inBuffer.length) chunks)
      (fate files t chunks) := by
  cases buffered : t.inBuffer with
  | nil =>
      rw [buffered, List.nil_append] at parts
      obtain ⟨chunk, chunks, rfl, behind⟩ := flatten_cons nonempty parts
      have brought : (LF :: chunk).length < 2 ^ 31 := by
        have whole := congrArg List.length parts
        have length := r.bytes_length
        have short := r.bytes_short
        simp only [List.flatten_cons, List.length_append, List.length_cons] at whole ⊢
        omega
      rw [List.length_nil, Nat.add_zero, fate_waits atHeaders
        (resume_lineEnd atHeaders start (.inl buffered)) brought]
      have arrives := arrives_lineEnd files chunk chunks decoded
        (atHeaders.offered (LF :: chunk)) start headers
        (congrArg (· ++ LF :: chunk) buffered) behind
        (fun c later => nonempty c (List.mem_cons_of_mem _ later))
      have next : r.line.length + 1 + (LF :: chunk).length = r.line.length + 2 + chunk.length := by
        rw [List.length_cons]
        omega
      rw [cutsFrom, next]
      exact arrives_cut (.inl rfl) arrives
  | cons c front =>
      rw [buffered, List.cons_append] at parts
      obtain ⟨rfl, behind⟩ := List.cons.inj parts
      have next : r.line.length + 1 + (LF :: front).length = r.line.length + 2 + front.length := by
        rw [List.length_cons]
        omega
      rw [next]
      exact arrives_lineEnd files front chunks decoded atHeaders start headers buffered behind nonempty

/-- A line that is not accepted, up to its `\r` or as far as it came, ends the connection. -/
theorem outcome_refused (fd : Nat) (files : Bytes → FileView) {p chunk : Bytes}
    (refused : decodeLine p = none) (first : CR ∉ p)
    (read : chunk = p ∨ ∃ rest, chunk = p ++ CR :: rest) (brought : chunk.length < 2 ^ 31)
    (chunks : List Bytes) :
    outcome fd files (chunk :: chunks) = .ok
      { sent := errorBytes 400 (text "Bad Request")
        error := true
        state := .stateParseUri
        keepAlive := false } := by
  have vacant : Vacant { HttpData.new fd with inBuffer := chunk } :=
    ⟨⟨rfl, rfl, rfl, rfl⟩, rfl, rfl, rfl⟩
  have small : chunk.length < 2 ^ 63 := by omega
  have parsed : ∃ b, parseURI { HttpData.new fd with inBuffer := chunk } =
      parseRequestLine p { HttpData.new fd with inBuffer := b } := by
    rcases read with rfl | ⟨rest, rfl⟩
    · exact ⟨chunk, parseURI_no_line (s := { HttpData.new fd with inBuffer := chunk }) small first⟩
    · exact ⟨rest, parseURI_line vacant.nowReadPos rfl small first⟩
  have short : p.length < 2 ^ 63 := by
    rcases read with rfl | ⟨rest, rfl⟩
    · exact small
    · rw [List.length_append] at small
      omega
  obtain ⟨b, parsed⟩ := parsed
  obtain ⟨s', ran, error, state, keepAlive⟩ := uriStage_badLine files [] [] [] vacant parsed
    ⟨_, rfl⟩ short refused
  have called : handleRead (HttpData.new fd) (steady files (arriving chunk) [] []) =
      .ok (s', steady files [] [] (errorBytes 400 (text "Bad Request"))) := by
    rw [handleRead_eq, handleReadTurn_arriving (s := HttpData.new fd) rfl (counted_of_lt brought)]
    exact congrArg (Except.bind · _) ran
  have started : outcome fd files (chunk :: chunks) = _ :=
    congrArg (Except.map observed) (deliver_cons files [] (s := HttpData.new fd) rfl chunk chunks)
  rw [started, called]
  simp only [Except.bind, deliver_error error]
  unfold observed
  simp only [Except.map, error, state, keepAlive, steady]
  rfl

theorem safeCuts_ge (r : Request) {k : Nat} (safe : k ∈ r.safeCuts) : r.line.length < k := by
  unfold Request.safeCuts at safe
  rw [List.mem_cons, List.mem_cons] at safe
  rcases safe with rfl | rfl | safe
  · omega
  · omega
  · by_contra low
    refine safeFrom_low ?_ safe
    have := r.first.bytes_pos
    omega

theorem atLine_new (fd : Nat) (q : RequestLine) (rest : Bytes) :
    AtHeaders q ((HttpData.new fd).atLine q rest) :=
  ⟨⟨rfl, rfl, rfl, rfl⟩, rfl, rfl, rfl⟩

theorem outcome_started (fd : Nat) {chunk : Bytes} (chunks : List Bytes)
    (started : handleRead (HttpData.new fd) (steady files (arriving chunk) [] []) =
      resume t (steady files [] [] [])) : outcome fd files (chunk :: chunks) = fate files t chunks := by
  unfold outcome fate
  rw [deliver_cons files [] rfl, started]

theorem line_cut {chunk rest : Bytes} (parts : chunk ++ rest = r.bytes) :
    (∃ y, r.line = chunk ++ y ∧ rest = y ++ CR :: LF :: headerSection r.fields) ∨
      ∃ y, chunk = r.line ++ CR :: y ∧ y ++ rest = LF :: headerSection r.fields := by
  rcases List.append_eq_append_iff.mp parts with ⟨y, line, behind⟩ | ⟨y, line, behind⟩
  · exact .inl ⟨y, line, behind⟩
  · cases y with
    | nil =>
        rw [List.append_nil] at line
        exact .inl ⟨[], by rw [line, List.append_nil], behind.symm⟩
    | cons c y =>
        rw [List.cons_append] at behind
        obtain ⟨rfl, later⟩ := List.cons.inj behind
        exact .inr ⟨y, line, later.symm⟩

/-- A request whose line is cut before the `\r`. -/
theorem arrives_partLine (fd : Nat) (files : Bytes → FileView) {chunk next y : Bytes}
    {later : List Bytes} (line : r.line = chunk ++ y) :
    Arrives files r (cuts (chunk :: next :: later)) (outcome fd files (chunk :: next :: later)) := by
  have length := r.bytes_length
  have short := r.bytes_short
  have brought : chunk.length < 2 ^ 31 := by
    rw [line, List.length_append] at length
    omega
  have small : chunk.length < 2 ^ 63 := by omega
  have missing : CR ∉ chunk := by
    intro found
    apply r.line_no_cr
    rw [line]
    exact List.mem_append_left _ found
  have harmful : chunk.length ∉ r.safeCuts := by
    intro safe
    have := safeCuts_ge r safe
    rw [line, List.length_append] at this
    omega
  cases decoded : decodeLine r.line with
  | none =>
      have refused : decodeLine chunk = none := by
        by_cases more : y = []
        · rw [more, List.append_nil] at line
          rw [← line, decoded]
        · exact decodeLine_part line.symm r.oneWord.1 small more
      have answered : requestAnswer files r.line r.headers [] =
          outcome fd files (chunk :: next :: later) := by
        rw [outcome_refused fd files refused missing (.inl rfl) brought]
        unfold requestAnswer
        rw [decoded]
      rw [← answered]
      exact .refused decoded
  | some q =>
      refine .lost decoded List.mem_cons_self harmful ?_
      by_cases more : y = []
      · rw [more, List.append_nil] at line
        obtain ⟨c, cs, spelled, not_lf⟩ := r.line_cons
        rw [line] at decoded spelled length
        have started : handleRead (HttpData.new fd) (steady files (arriving chunk) [] []) = _ :=
          handleRead_lineOnly (new_vacant fd) missing small (counted_of_lt brought) decoded
        rw [outcome_started fd _ started]
        exact fate_strays (resume_lineOnly (atLine_new fd q chunk) rfl spelled not_lf missing
          (by show chunk.length < 2 ^ 31; omega)) _
      · have refused := decodeLine_part line.symm r.oneWord.1 small more
        rw [outcome_refused fd files refused missing (.inl rfl) brought]
        exact .inr ⟨rfl, rfl⟩

/-- A request whose line comes with its `\r`. -/
theorem arrives_wholeLine (fd : Nat) (files : Bytes → FileView) {y : Bytes} {chunks : List Bytes}
    (parts : y ++ chunks.flatten = LF :: headerSection r.fields) (nonempty : ∀ c ∈ chunks, c ≠ []) :
    Arrives files r (cuts ((r.line ++ CR :: y) :: chunks))
      (outcome fd files ((r.line ++ CR :: y) :: chunks)) := by
  have length : (r.line ++ CR :: y).length = r.line.length + 1 + y.length := by
    rw [List.length_append, List.length_cons]
    omega
  have brought : (r.line ++ CR :: y).length < 2 ^ 31 := by
    have := congrArg List.length parts
    have := r.bytes_length
    have := r.bytes_short
    rw [List.length_append, List.length_cons] at *
    omega
  have small : (r.line ++ CR :: y).length < 2 ^ 63 := by omega
  cases decoded : decodeLine r.line with
  | none =>
      have answered : requestAnswer files r.line r.headers [] =
          outcome fd files ((r.line ++ CR :: y) :: chunks) := by
        rw [outcome_refused fd files decoded r.line_no_cr (.inr ⟨y, rfl⟩) brought]
        unfold requestAnswer
        rw [decoded]
      rw [← answered]
      exact .refused decoded
  | some q =>
      have buffered : (HttpData.new fd).inBuffer ++ (r.line ++ CR :: y) = r.line ++ CR :: y := rfl
      have started : handleRead (HttpData.new fd)
          (steady files (arriving (r.line ++ CR :: y)) [] []) = _ :=
        handleRead_line (new_vacant fd) buffered r.line_no_cr small
          (counted_of_lt brought) decoded
      have arrives := arrives_line files chunks decoded (atLine_new fd q y) rfl rfl
        parts nonempty
      rw [outcome_started fd chunks started, cuts, length]
      exact arrives

theorem outcome_arrives (fd : Nat) (files : Bytes → FileView) (r : Request) {chunks : List Bytes}
    (nonempty : ∀ c ∈ chunks, c ≠ []) (whole : chunks.flatten = r.bytes) :
    Arrives files r (cuts chunks) (outcome fd files chunks) := by
  cases chunks with
  | nil =>
      have length := congrArg List.length whole
      rw [r.bytes_length, List.flatten_nil, List.length_nil] at length
      omega
  | cons chunk chunks =>
      rcases line_cut whole with ⟨y, line, behind⟩ | ⟨y, rfl, parts⟩
      · cases chunks with
        | nil => exact absurd (List.append_eq_nil_iff.mp behind.symm).2 (List.cons_ne_nil _ _)
        | cons next later =>
            exact arrives_partLine fd files line
      · exact arrives_wholeLine fd files parts fun c later =>
          nonempty c (List.mem_cons_of_mem _ later)

end HttpData

/-- Whether `STATE_RECV_BODY` waits with these headers and these bytes behind them. -/
def awaitsBody (headers : HeaderMap) (left : Bytes) : Option (Except Fault Bool) :=
  (headers (text "Content-length")).map fun value =>
    (stoi value).map fun contentLength => decide (toInt left.length < contentLength)

/-- A request read with the headers `seen`, and with `left` behind it, is answered as with `headers`:
    by another `Connection` the connection is kept alive or not, and a byte left over is taken for
    another request unless the request was answered `404`. -/
def SameAnswer (files : Bytes → FileView) (q : HttpData.RequestLine) (seen headers : HeaderMap)
    (left : Bytes) : Prop :=
  if q.method = .methodPost then awaitsBody seen left = awaitsBody headers []
  else HttpData.keepAliveRequested seen = HttpData.keepAliveRequested headers ∧
    (left = [] ∨ servedReply files q (HttpData.keepAliveRequested headers) = none)

/-- Every cut is one that the parsers survive, and the headers and the byte that it may change do not
    matter; or the request line is not accepted anyway. -/
def Unharmed (files : Bytes → FileView) (r : Request) (cuts : List Nat) : Prop :=
  ∀ q, HttpData.decodeLine r.line = some q →
    (∀ k ∈ cuts, k ∈ r.safeCuts) ∧
      SameAnswer files q (r.seenHeaders cuts) r.headers (r.leftOver cuts)

namespace HttpData

variable {files : Bytes → FileView} {q : RequestLine} {seen headers : HeaderMap} {left : Bytes}

/-- The answer of `STATE_RECV_BODY`. -/
def bodyAnswer : Option (Except Fault Bool) → Except Fault Answer
  | none => .ok
      { sent := errorBytes 400 (text "Bad Request: Lack of argument (Content-length)")
        error := true
        state := .stateRecvBody
        keepAlive := false }
  | some (.error e) => .error e
  | some (.ok true) => .ok { sent := [], error := false, state := .stateRecvBody, keepAlive := false }
  | some (.ok false) => .ok { sent := [], error := true, state := .stateAnalysis, keepAlive := false }

theorem answer_post (files : Bytes → FileView) (post : q.method = .methodPost) (headers : HeaderMap)
    (left : Bytes) : answer files q headers left = bodyAnswer (awaitsBody headers left) := by
  unfold answer awaitsBody
  rw [if_pos post]
  cases headers (text "Content-length") with
  | none => rfl
  | some value =>
      simp only [Option.map_some, bind, Except.bind]
      cases stoi value with
      | error e => rfl
      | ok n =>
          dsimp only [Except.map]
          split_ifs with waits
          · rw [decide_eq_true waits]
            rfl
          · rw [decide_eq_false waits]
            rfl

theorem bodyAnswer_injective {a b : Option (Except Fault Bool)} (same : bodyAnswer a = bodyAnswer b) :
    a = b := by
  rcases a with _ | ⟨e⟩ | ⟨_ | _⟩ <;> rcases b with _ | ⟨e'⟩ | ⟨_ | _⟩ <;>
    simp_all [bodyAnswer]

theorem withLeft_stops {a : Answer} (stops : ¬ a.GoesOn) : withLeft left a = a :=
  if_neg fun goes => stops goes.1

theorem bodyAnswer_withLeft (left : Bytes) (a : Option (Except Fault Bool)) :
    (bodyAnswer a).map (withLeft left) = bodyAnswer a := by
  rcases a with _ | ⟨e⟩ | ⟨_ | _⟩
  · exact congrArg Except.ok (withLeft_stops (by simp [Answer.GoesOn]))
  · rfl
  · exact congrArg Except.ok (withLeft_stops (by simp [Answer.GoesOn]))
  · exact congrArg Except.ok (withLeft_stops (by simp [Answer.GoesOn]))

theorem withLeft_nil (a : Answer) : withLeft [] a = a := if_neg fun goes => goes.2 rfl

theorem withLeft_keepAlive (left : Bytes) (a : Answer) : (withLeft left a).keepAlive = a.keepAlive := by
  unfold withLeft
  split_ifs <;> rfl

theorem answer_get (files : Bytes → FileView) (other : ¬ q.method = .methodPost)
    (headers : HeaderMap) (left : Bytes) :
    ∃ a, answer files q headers left = .ok a ∧ a.keepAlive = keepAliveRequested headers ∧
      (a.GoesOn ↔ servedReply files q (keepAliveRequested headers) ≠ none) := by
  unfold answer
  rw [if_neg other]
  dsimp only
  cases servedReply files q (keepAliveRequested headers) with
  | none => exact ⟨_, rfl, rfl, by simp [Answer.GoesOn]⟩
  | some reply => exact ⟨_, rfl, rfl, by simp [Answer.GoesOn]⟩

theorem answer_keepAlive (other : ¬ q.method = .methodPost) (left : Bytes)
    (same : keepAliveRequested seen = keepAliveRequested headers) :
    answer files q seen left = answer files q headers [] := by
  unfold answer
  rw [if_neg other, if_neg other, same]

theorem sameAnswer_iff : (answer files q seen left).map (withLeft left) = answer files q headers [] ↔
    SameAnswer files q seen headers left := by
  unfold SameAnswer
  split_ifs with post
  · rw [answer_post files post, answer_post files post, bodyAnswer_withLeft]
    exact ⟨bodyAnswer_injective, fun same => by rw [same]⟩
  · obtain ⟨a, answers, keepAlive, goes⟩ := answer_get files post seen left
    constructor
    · intro same
      obtain ⟨b, whole, keepAlive', goes'⟩ := answer_get files post headers []
      rw [answers, whole] at same
      have equal : withLeft left a = b := Except.ok.inj same
      have keep : keepAliveRequested seen = keepAliveRequested headers := by
        rw [← keepAlive, ← keepAlive', ← equal, withLeft_keepAlive]
      refine ⟨keep, ?_⟩
      by_contra both
      obtain ⟨left_over, served⟩ := not_or.mp both
      rw [keep] at goes
      have extra : (withLeft left a).error = true := by
        unfold withLeft
        rw [if_pos ⟨goes.mpr served, left_over⟩]
      have fine : b.error = false := (goes'.mpr served).1
      rw [equal, fine] at extra
      cases extra
    · rintro ⟨keep, nothing_left | refused⟩
      · rw [answer_keepAlive post left keep, nothing_left]
        obtain ⟨b, whole, -⟩ := answer_get files post headers []
        rw [whole]
        exact congrArg Except.ok (withLeft_nil b)
      · rw [keep] at goes
        rw [← answer_keepAlive post left keep, answers]
        exact congrArg Except.ok (withLeft_stops fun goesOn => goes.mp goesOn refused)

theorem answer_not_lost (files : Bytes → FileView) (q : RequestLine) (headers : HeaderMap)
    (left : Bytes) : ¬ Lost (answer files q headers left) := by
  unfold answer
  split_ifs
  · cases headers (text "Content-length") with
    | none => simp [Lost]
    | some value =>
        simp only [bind, Except.bind]
        cases number : stoi value with
        | error e => rcases stoi_fault number with rfl | rfl <;> simp [Lost, SliceFault]
        | ok n =>
            dsimp only
            split_ifs <;> simp [Lost]
  · dsimp only
    split <;> simp [Lost]

end HttpData

/-- A whole request brings its answer. -/
theorem outcome_whole (fd : Nat) (files : Bytes → FileView) (r : Request) :
    outcome fd files [r.bytes] = requestAnswer files r.line r.headers [] := by
  have some_bytes : r.bytes ≠ [] := by
    intro empty
    have length := r.bytes_length
    rw [empty, List.length_nil] at length
    omega
  have arrives : Arrives files r (cuts [r.bytes]) (outcome fd files [r.bytes]) :=
    HttpData.outcome_arrives fd files r (by simpa using some_bytes) (List.append_nil _)
  generalize outcome fd files [r.bytes] = o at arrives
  cases arrives with
  | refused => rfl
  | lost decoded cut => cases cut
  | @answered q decoded safe =>
      have seen : r.seenHeaders (cuts [r.bytes]) = r.headers :=
        seenFields_plain (by simp [cuts, cutsFrom]) _
      have left : r.leftOver (cuts [r.bytes]) = [] := rfl
      have same : SameAnswer files q (r.seenHeaders (cuts [r.bytes])) r.headers
          (r.leftOver (cuts [r.bytes])) := by
        rw [seen, left]
        unfold SameAnswer
        split_ifs
        · rfl
        · exact ⟨rfl, .inl rfl⟩
      rw [HttpData.sameAnswer_iff.mpr same]
      unfold requestAnswer
      rw [decoded]

/-- A request that comes in chunks is answered like the whole one exactly if the cuts do no harm. -/
theorem fragmented_iff (fd : Nat) (files : Bytes → FileView) (r : Request) (chunks : List Bytes)
    (nonempty : ∀ c ∈ chunks, c ≠ []) (whole : chunks.flatten = r.bytes) :
    outcome fd files chunks = outcome fd files [r.bytes] ↔ Unharmed files r (cuts chunks) := by
  have arrives := HttpData.outcome_arrives fd files r nonempty whole
  rw [outcome_whole]
  generalize outcome fd files chunks = o at arrives ⊢
  unfold Unharmed
  cases arrives with
  | refused refused =>
      refine iff_of_true rfl fun q decoded => ?_
      rw [refused] at decoded
      cases decoded
  | @answered q decoded safe =>
      have answers : requestAnswer files r.line r.headers [] = answer files q r.headers [] := by
        unfold requestAnswer
        rw [decoded]
      rw [answers, HttpData.sameAnswer_iff]
      constructor
      · intro same q' decoded'
        obtain rfl : q = q' := Option.some.inj (decoded.symm.trans decoded')
        exact ⟨safe, same⟩
      · intro unharmed
        exact (unharmed q decoded).2
  | @lost q decoded o k cut harmful lost =>
      constructor
      · intro same
        subst same
        apply absurd lost
        unfold requestAnswer
        rw [decoded]
        exact HttpData.answer_not_lost files q r.headers []
      · intro unharmed
        exact absurd ((unharmed q decoded).1 k cut) harmful

/-- A request for the echo reply, with one header line. -/
def wholeRequest : Request where
  method := .methodGet
  target := text "/hello"
  httpVersion := .http11
  first := HttpData.firstField
  others := []
  asks := get_ne_post
  oneWord := hello_oneWord
  short := by decide

theorem fragmented_iff_line :
    outcome 5 (fun _ => .missing) [text "GET /he", text "llo HTTP/1.1\r\nA: b\r\n\r\n"] =
        outcome 5 (fun _ => .missing) [wholeRequest.bytes] ↔
      Unharmed (fun _ => .missing) wholeRequest
        (cuts [text "GET /he", text "llo HTTP/1.1\r\nA: b\r\n\r\n"]) :=
  fragmented_iff 5 _ wholeRequest _ (by decide) (by decide)

/-- A request line that comes in two chunks is answered `400`. -/
theorem split_line_refused :
    outcome 5 (fun _ => .missing) [text "GET /he", text "llo HTTP/1.1\r\nA: b\r\n\r\n"] ≠
      outcome 5 (fun _ => .missing) [wholeRequest.bytes] := by
  intro same
  have errors := congrArg (fun o => o.toOption.map Answer.error) same
  revert errors
  decide +kernel

end WebServer
