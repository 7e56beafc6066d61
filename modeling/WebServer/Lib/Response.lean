import WebServer.Lib.ByteString

/-! # HTTP responses

A response is a status line and header lines, each ended by `\r\n`, an empty line, and a body as long
as its header says. `parseResponse` reads one response off the front of a byte string; what it reads
is what a response is written as, so a response says by itself where it ends.
-/

namespace WebServer.Lib

/-- The lines up to an empty one, and what follows it. `line` is the part of the first line that is
    read already. -/
def readLines (line : Bytes) : Bytes → Option (List Bytes × Bytes)
  | 13 :: 10 :: rest =>
      if line = [] then some ([], rest)
      else (readLines [] rest).map fun (lines, rest) => (line :: lines, rest)
  | 13 :: _ => none
  | c :: rest => readLines (line ++ [c]) rest
  | [] => none

/-- Lines as they are written. -/
def lineBytes (lines : List Bytes) : Bytes := lines.flatMap (· ++ [13, 10])

@[simp] theorem lineBytes_cons (line : Bytes) (lines : List Bytes) :
    lineBytes (line :: lines) = line ++ 13 :: 10 :: lineBytes lines := by
  simp [lineBytes]

/-- A line that does not end a header. -/
def IsLine (line : Bytes) : Prop := line ≠ [] ∧ 13 ∉ line

instance : DecidablePred IsLine := fun _ => inferInstanceAs (Decidable (_ ∧ _))

theorem readLines_part {more : Bytes} (line rest : Bytes) (free : 13 ∉ more) :
    readLines line (more ++ rest) = readLines (line ++ more) rest := by
  induction more generalizing line with
  | nil => rw [List.nil_append, List.append_nil]
  | cons c more ih =>
      rw [List.mem_cons, not_or] at free
      have step : readLines line (c :: (more ++ rest)) = readLines (line ++ [c]) (more ++ rest) := by
        rw [readLines]
        · exact fun _ same => absurd same.symm free.1
        · exact fun same => absurd same.symm free.1
      rw [List.cons_append, step, ih _ free.2, List.append_assoc, List.singleton_append]

theorem readLines_lines {lines : List Bytes} (ok : ∀ line ∈ lines, IsLine line) (rest : Bytes) :
    readLines [] (lineBytes lines ++ 13 :: 10 :: rest) = some (lines, rest) := by
  induction lines with
  | nil => rfl
  | cons line lines ih =>
      obtain ⟨nonempty, free⟩ := ok line List.mem_cons_self
      rw [lineBytes_cons, List.append_assoc, readLines_part [] _ free, List.nil_append,
        List.cons_append, List.cons_append, readLines, if_neg nonempty,
        ih fun later there => ok later (List.mem_cons_of_mem line there)]
      rfl

theorem readLines_sound {line bs rest : Bytes} {lines : List Bytes} (free : 13 ∉ line)
    (read : readLines line bs = some (lines, rest)) :
    line ++ bs = lineBytes lines ++ 13 :: 10 :: rest ∧ ∀ l ∈ lines, IsLine l := by
  fun_induction readLines line bs generalizing lines with
  | case1 rest' =>
      cases read
      exact ⟨rfl, by simp⟩
  | case2 line rest' nonempty ih =>
      obtain ⟨⟨later, rest''⟩, found, same⟩ := Option.map_eq_some_iff.mp read
      cases same
      obtain ⟨whole, ok⟩ := ih (by simp) found
      rw [List.nil_append] at whole
      refine ⟨by rw [whole, lineBytes_cons, List.append_assoc]; rfl, ?_⟩
      intro l there
      rcases List.mem_cons.mp there with rfl | below
      · exact ⟨nonempty, free⟩
      · exact ok l below
  | case3 => cases read
  | case4 line c rest' other other' ih =>
      have free' : 13 ∉ line ++ [c] := by
        intro there
        rcases List.mem_append.mp there with earlier | here
        · exact free earlier
        · exact other' (List.mem_singleton.mp here).symm
      obtain ⟨whole, ok⟩ := ih free' read
      exact ⟨by rw [← whole, List.append_assoc, List.singleton_append], ok⟩
  | case5 => cases read

/-- The status code of a status line. -/
def statusCode (line : Bytes) : Option Nat :=
  let code := ((line.dropWhile (· ≠ 32)).drop 1).takeWhile isDigit
  if (text "HTTP/").isPrefixOf line && !code.isEmpty then some (digitsValue code) else none

def IsStatusLine (line : Bytes) : Prop := IsLine line ∧ (statusCode line).isSome

instance : DecidablePred IsStatusLine := fun _ => inferInstanceAs (Decidable (_ ∧ _))

/-- `name: value`. -/
def IsFieldLine (line : Bytes) : Prop := IsLine line ∧ upTo 58 line ≠ [] ∧ 58 ∈ line

instance : DecidablePred IsFieldLine := fun _ => inferInstanceAs (Decidable (_ ∧ _ ∧ _))

/-- A letter in lower case. -/
def lower (c : UInt8) : UInt8 := if 65 ≤ c && c ≤ 90 then c + 32 else c

/-- The value of the first line of that name. -/
def fieldValue (name : Bytes) (fields : List Bytes) : Option Bytes :=
  (fields.find? fun line => (upTo 58 line).map lower == name.map lower).map fun line =>
    ((line.dropWhile (· ≠ 58)).drop 1).dropWhile (· = 32)

/-- The status line and the header lines of a response. -/
structure ResponseHead where
  statusLine : Bytes
  fields : List Bytes
  status : IsStatusLine statusLine
  named : ∀ line ∈ fields, IsFieldLine line

namespace ResponseHead

/-- The head as it is written, with the empty line. -/
def bytes (h : ResponseHead) : Bytes := lineBytes (h.statusLine :: h.fields) ++ [13, 10]

def code (h : ResponseHead) : Option Nat := statusCode h.statusLine

/-- The announced length of the body. -/
def contentLength (h : ResponseHead) : Option Nat :=
  (fieldValue (text "Content-Length") h.fields).bind fun value =>
    if value ≠ [] ∧ value.all isDigit then some (digitsValue value) else none

theorem lines (h : ResponseHead) : ∀ line ∈ h.statusLine :: h.fields, IsLine line := by
  intro line there
  rcases List.mem_cons.mp there with rfl | later
  · exact h.status.1
  · exact (h.named line later).1

end ResponseHead

/-- Read a head. -/
def parseHead (bs : Bytes) : Option (ResponseHead × Bytes) :=
  match readLines [] bs with
  | some (statusLine :: fields, rest) =>
      if ok : IsStatusLine statusLine ∧ ∀ line ∈ fields, IsFieldLine line then
        some (⟨statusLine, fields, ok.1, ok.2⟩, rest)
      else none
  | _ => none

theorem parseHead_bytes (h : ResponseHead) (rest : Bytes) :
    parseHead (h.bytes ++ rest) = some (h, rest) := by
  have read : readLines [] (h.bytes ++ rest) = some (h.statusLine :: h.fields, rest) := by
    rw [ResponseHead.bytes, List.append_assoc]
    exact readLines_lines h.lines rest
  unfold parseHead
  simp only [read]
  rw [dif_pos ⟨h.status, h.named⟩]

theorem parseHead_sound {bs rest : Bytes} {h : ResponseHead} (parsed : parseHead bs = some (h, rest)) :
    bs = h.bytes ++ rest := by
  unfold parseHead at parsed
  split at parsed
  · rename_i statusLine fields rest' read
    split_ifs at parsed
    cases parsed
    obtain ⟨whole, -⟩ := readLines_sound (by simp) read
    rw [ResponseHead.bytes, List.append_assoc]
    exact whole
  · cases parsed

theorem ResponseHead.emptyLine (h : ResponseHead) : [13, 10, 13, 10] <:+: h.bytes := by
  obtain ⟨lines, last, split⟩ : ∃ lines last, h.statusLine :: h.fields = lines ++ [last] :=
    ⟨_, _, (List.dropLast_concat_getLast (List.cons_ne_nil _ _)).symm⟩
  refine ⟨lineBytes lines ++ last, [], ?_⟩
  rw [ResponseHead.bytes, split]
  simp [lineBytes]

/-- A response, with a body of the announced length. -/
structure Response where
  head : ResponseHead
  body : Bytes
  framed : head.contentLength = some body.length

def Response.bytes (r : Response) : Bytes := r.head.bytes ++ r.body

/-- Read a response. -/
def parseResponse (bs : Bytes) : Option (Response × Bytes) :=
  match parseHead bs with
  | none => none
  | some (head, rest) =>
      if enough : head.contentLength = some (rest.take (head.contentLength.getD 0)).length then
        some (⟨head, rest.take (head.contentLength.getD 0), enough⟩,
          rest.drop (head.contentLength.getD 0))
      else none

theorem parseResponse_bytes (r : Response) (rest : Bytes) :
    parseResponse (r.bytes ++ rest) = some (r, rest) := by
  have body : (r.body ++ rest).take (r.head.contentLength.getD 0) = r.body := by
    rw [r.framed, Option.getD_some, List.take_left]
  have behind : (r.body ++ rest).drop (r.head.contentLength.getD 0) = rest := by
    rw [r.framed, Option.getD_some, List.drop_left]
  unfold parseResponse
  rw [Response.bytes, List.append_assoc, parseHead_bytes]
  simp only [body, behind]
  rw [dif_pos r.framed]

def fieldLine (name value : Bytes) : Bytes := name ++ 58 :: 32 :: value

section FieldLine

variable {name value : Bytes} {fields : List Bytes}

theorem isFieldLine_fieldLine (named : name ≠ []) (key : 58 ∉ name ∧ 13 ∉ name) (free : 13 ∉ value) :
    IsFieldLine (fieldLine name value) := by
  unfold fieldLine
  refine ⟨⟨by simp, ?_⟩, ?_, by simp⟩
  · simp [key.2, free]
  · rw [upTo_cut _ key.1]
    exact named

theorem fieldValue_other (other : Bytes) (key : 58 ∉ name)
    (differ : name.map lower ≠ other.map lower) :
    fieldValue other (fieldLine name value :: fields) = fieldValue other fields := by
  unfold fieldValue fieldLine
  rw [List.find?_cons_of_neg (by simpa [upTo_cut _ key] using differ)]

theorem fieldValue_here (key : 58 ∉ name) :
    fieldValue name (fieldLine name value :: fields) = some (value.dropWhile (· = 32)) := by
  unfold fieldValue fieldLine
  rw [List.find?_cons_of_pos (by simp [upTo_cut _ key]), Option.map_some, dropWhile_cut _ key]
  rfl

end FieldLine

theorem decimal_no_byte {c : UInt8} (other : isDigit c = false) (n : Nat) : c ∉ decimal n := by
  intro there
  rw [decimal_isDigit n c there] at other
  cases other

theorem contentLength_decimal {h : ResponseHead} {n : Nat}
    (announced : fieldValue (text "Content-Length") h.fields = some (decimal n)) :
    h.contentLength = some n := by
  have digits : decimal n ≠ [] ∧ (decimal n).all isDigit :=
    ⟨decimal_ne_nil n, List.all_eq_true.mpr (decimal_isDigit n)⟩
  unfold ResponseHead.contentLength
  rw [announced, Option.bind_some, if_pos digits, digitsValue_decimal]

theorem decimal_dropWhile_space (n : Nat) : (decimal n).dropWhile (· = 32) = decimal n := by
  cases digits : decimal n with
  | nil => rfl
  | cons c cs =>
      have other : ¬ c = 32 := fun same =>
        decimal_no_byte (c := 32) (by decide) n (digits ▸ same ▸ List.mem_cons_self)
      rw [List.dropWhile_cons_of_neg (by simpa using other)]

end WebServer.Lib
