import WebServer.Http.State

/-! # `ParseURI`

The positions are `size_t`: the tests `pos < 0` and `_pos < 0` never hold, and a failed search
flows on as `npos`.
-/

namespace WebServer.HttpData

open Lib

/-- The version part of `ParseURI`, searched from `pos`. -/
def parseVersion (requestLine : Bytes) (pos : Nat) (s : HttpData) :
    Except Fault (UriState × HttpData) :=
  let pos := find requestLine [SLASH] pos
  if pos < 0 then .ok (.parseUriError, s)
  else if sizeT (requestLine.length - pos) ≤ 3 then .ok (.parseUriError, s)
  else do
    let ver ← substr requestLine (sizeT (pos + 1)) 3
    if ver = text "1.0" then .ok (.parseUriSuccess, { s with httpVersion := .http10 })
    else if ver = text "1.1" then .ok (.parseUriSuccess, { s with httpVersion := .http11 })
    else .ok (.parseUriError, s)

/-- The file name between the `/` at `pos` and the blank at `_pos`, up to its first `?`. -/
def targetName (requestLine : Bytes) (pos _pos : Nat) : Except Fault Bytes :=
  if sizeT (_pos - pos) > 1 then do
    let name ← substr requestLine (sizeT (pos + 1)) (sizeT (_pos - pos - 1))
    let __pos := find name [QUESTION] 0
    if __pos ≥ 0 then substr name 0 __pos else .ok name
  else .ok (text "index.html")

/-- The file name part of `ParseURI`, searched from the method at `pos`. -/
def parseFileName (requestLine : Bytes) (pos : Nat) (s : HttpData) :
    Except Fault (UriState × HttpData) :=
  let pos := find requestLine [SLASH] pos
  if pos < 0 then
    .ok (.parseUriSuccess, { s with fileName := text "index.html", httpVersion := .http11 })
  else
    let _pos := find requestLine [SPACE] pos
    if _pos < 0 then .ok (.parseUriError, s)
    else do
      let name ← targetName requestLine pos _pos
      parseVersion requestLine _pos { s with fileName := name }

/-- `ParseURI` after the request line is taken off the buffer. -/
def parseRequestLine (requestLine : Bytes) (s : HttpData) : Except Fault (UriState × HttpData) :=
  let posGet := toInt (find requestLine (text "GET") 0)
  let posPost := toInt (find requestLine (text "POST") 0)
  let posHead := toInt (find requestLine (text "HEAD") 0)
  if posGet ≥ 0 then parseFileName requestLine (sizeT posGet) { s with method := .methodGet }
  else if posPost ≥ 0 then parseFileName requestLine (sizeT posPost) { s with method := .methodPost }
  else if posHead ≥ 0 then parseFileName requestLine (sizeT posHead) { s with method := .methodHead }
  else .ok (.parseUriError, s)

/-- `ParseURI`. -/
def parseURI (s : HttpData) : Except Fault (UriState × HttpData) :=
  let str := s.inBuffer
  let pos := find str [CR] s.nowReadPos
  if pos < 0 then .ok (.parseUriAgain, s)
  else do
    let requestLine ← substr str 0 pos
    let str ← if str.length > sizeT (pos + 1) then substr str (sizeT (pos + 1)) npos else .ok []
    parseRequestLine requestLine { s with inBuffer := str }

theorem parseVersion_frame {requestLine : Bytes} {pos : Nat} {s s' : HttpData} {flag : UriState}
    (parsed : parseVersion requestLine pos s = .ok (flag, s')) :
    ∃ v, s' = { s with httpVersion := v } := by
  simp only [parseVersion, bind, Except.bind] at parsed
  repeat' split at parsed
  all_goals first
    | cases parsed
      exact ⟨_, rfl⟩
    | cases parsed

theorem parseFileName_frame {requestLine : Bytes} {pos : Nat} {s s' : HttpData} {flag : UriState}
    (parsed : parseFileName requestLine pos s = .ok (flag, s')) :
    ∃ f v, s' = { s with fileName := f, httpVersion := v } := by
  simp only [parseFileName, Nat.not_lt_zero, if_false, bind, Except.bind] at parsed
  split at parsed
  · cases parsed
  · obtain ⟨v, rfl⟩ := parseVersion_frame parsed
    exact ⟨_, _, rfl⟩

theorem parseRequestLine_frame {requestLine : Bytes} {s s' : HttpData} {flag : UriState}
    (parsed : parseRequestLine requestLine s = .ok (flag, s')) :
    ∃ m f v, s' = { s with method := m, fileName := f, httpVersion := v } := by
  simp only [parseRequestLine] at parsed
  split at parsed
  · obtain ⟨f, v, rfl⟩ := parseFileName_frame parsed
    exact ⟨_, _, _, rfl⟩
  split at parsed
  · obtain ⟨f, v, rfl⟩ := parseFileName_frame parsed
    exact ⟨_, _, _, rfl⟩
  split at parsed
  · obtain ⟨f, v, rfl⟩ := parseFileName_frame parsed
    exact ⟨_, _, _, rfl⟩
  · cases parsed
    exact ⟨_, _, _, rfl⟩

theorem parseURI_frame {s s' : HttpData} {flag : UriState} (parsed : parseURI s = .ok (flag, s')) :
    ∃ b m f v, s' = { s with inBuffer := b, method := m, fileName := f, httpVersion := v } ∧
      b.length ≤ s.inBuffer.length := by
  simp only [parseURI, Nat.not_lt_zero, if_false, substr_zero, bind, Except.bind] at parsed
  split at parsed
  · split at parsed
    · cases parsed
    · rename_i b cut
      obtain ⟨m, f, v, rfl⟩ := parseRequestLine_frame parsed
      exact ⟨b, m, f, v, rfl, (substr_suffix cut).trans (Nat.sub_le _ _)⟩
  · obtain ⟨m, f, v, rfl⟩ := parseRequestLine_frame parsed
    exact ⟨[], m, f, v, rfl, Nat.zero_le _⟩

theorem parseVersion_decides {requestLine : Bytes} {pos : Nat} {s s' : HttpData} {flag : UriState}
    (parsed : parseVersion requestLine pos s = .ok (flag, s')) : flag ≠ .parseUriAgain := by
  simp only [parseVersion, bind, Except.bind] at parsed
  repeat' split at parsed
  all_goals
    cases parsed
    try exact UriState.noConfusion

theorem parseFileName_decides {requestLine : Bytes} {pos : Nat} {s s' : HttpData} {flag : UriState}
    (parsed : parseFileName requestLine pos s = .ok (flag, s')) : flag ≠ .parseUriAgain := by
  simp only [parseFileName, Nat.not_lt_zero, if_false, bind, Except.bind] at parsed
  split at parsed
  · cases parsed
  · exact parseVersion_decides parsed

theorem parseRequestLine_decides {requestLine : Bytes} {s s' : HttpData} {flag : UriState}
    (parsed : parseRequestLine requestLine s = .ok (flag, s')) : flag ≠ .parseUriAgain := by
  simp only [parseRequestLine] at parsed
  split at parsed
  · exact parseFileName_decides parsed
  split at parsed
  · exact parseFileName_decides parsed
  split at parsed
  · exact parseFileName_decides parsed
  · cases parsed
    exact UriState.noConfusion

theorem parseURI_decides {s s' : HttpData} {flag : UriState} (parsed : parseURI s = .ok (flag, s')) :
    flag ≠ .parseUriAgain := by
  simp only [parseURI, Nat.not_lt_zero, if_false, substr_zero, bind, Except.bind] at parsed
  split at parsed
  · split at parsed
    · cases parsed
    · exact parseRequestLine_decides parsed
  · exact parseRequestLine_decides parsed

variable {requestLine : Bytes}

theorem find_byte_npos (c : UInt8) (short : requestLine.length ≤ npos) :
    find requestLine [c] npos = npos := by
  apply find_of_search_none
  rw [List.drop_of_length_le short]
  rfl

theorem next_inside (short : requestLine.length < 2 ^ 63) (c : UInt8) (start : Nat) :
    sizeT (find requestLine [c] start + 1) ≤ requestLine.length := by
  rcases find_cases requestLine [c] start with missing | ⟨-, inside⟩
  · rw [missing, sizeT_npos_succ]
    exact Nat.zero_le _
  · have inside := inside (List.cons_ne_nil _ _)
    rw [List.length_singleton] at inside
    have exact_pos : sizeT (find requestLine [c] start + 1 : Int) =
        find requestLine [c] start + 1 := by
      exact_mod_cast sizeT_natCast (n := find requestLine [c] start + 1) (by omega)
    rw [exact_pos]
    exact inside

theorem targetName_ok (short : requestLine.length < 2 ^ 63) (start : Nat) :
    ∃ name, targetName requestLine (find requestLine [SLASH] start)
      (find requestLine [SPACE] (find requestLine [SLASH] start)) = .ok name := by
  simp only [targetName]
  split
  · rw [substr_of_le _ (next_inside short SLASH start)]
    simp [bind, Except.bind]
  · exact ⟨_, rfl⟩

theorem parseVersion_cases (short : requestLine.length < 2 ^ 63) (pos : Nat) :
    (∃ v, ∀ s, parseVersion requestLine pos s = .ok (.parseUriSuccess, { s with httpVersion := v })) ∨
      ∀ s, parseVersion requestLine pos s = .ok (.parseUriError, s) := by
  obtain ⟨ver, sliced⟩ : ∃ ver,
      substr requestLine (sizeT (find requestLine [SLASH] pos + 1)) 3 = .ok ver :=
    ⟨_, substr_of_le _ (next_inside short SLASH pos)⟩
  by_cases low : sizeT (requestLine.length - find requestLine [SLASH] pos) ≤ 3
  · exact .inr fun s => by simp [parseVersion, low]
  · by_cases v10 : ver = text "1.0"
    · exact .inl ⟨.http10, fun s => by simp [parseVersion, low, sliced, v10, bind, Except.bind]⟩
    by_cases v11 : ver = text "1.1"
    · refine .inl ⟨.http11, fun s => ?_⟩
      have differ : text "1.1" ≠ text "1.0" := by decide
      simp [parseVersion, low, sliced, v11, differ, bind, Except.bind]
    · exact .inr fun s => by simp [parseVersion, low, sliced, v10, v11, bind, Except.bind]

theorem parseFileName_cases (short : requestLine.length < 2 ^ 63) (pos : Nat) :
    (∃ f v, ∀ s, parseFileName requestLine pos s =
        .ok (.parseUriSuccess, { s with fileName := f, httpVersion := v })) ∨
      ∃ f, ∀ s, parseFileName requestLine pos s = .ok (.parseUriError, { s with fileName := f }) := by
  obtain ⟨name, named⟩ := targetName_ok short pos
  have parsed : ∀ s, parseFileName requestLine pos s =
      parseVersion requestLine (find requestLine [SPACE] (find requestLine [SLASH] pos))
        { s with fileName := name } := fun s => by
    simp [parseFileName, named, bind, Except.bind]
  rcases parseVersion_cases short
      (find requestLine [SPACE] (find requestLine [SLASH] pos)) with ⟨v, accepted⟩ | rejected
  · exact .inl ⟨name, v, fun s => by rw [parsed, accepted]⟩
  · exact .inr ⟨name, fun s => by rw [parsed, rejected]⟩

/-- What a request line asks for. -/
structure RequestLine where
  method : HttpMethod
  fileName : Bytes
  httpVersion : HttpVersion
  deriving Repr, DecidableEq

/-- Store a decoded request line in the connection. -/
def withLine (s : HttpData) (r : RequestLine) : HttpData :=
  { s with method := r.method, fileName := r.fileName, httpVersion := r.httpVersion }

/-- What `ParseURI` makes of a request line, when it accepts it. -/
def decodeLine (requestLine : Bytes) : Option RequestLine :=
  match parseRequestLine requestLine (new 0) with
  | .ok (.parseUriSuccess, s) => some ⟨s.method, s.fileName, s.httpVersion⟩
  | _ => none

theorem parseRequestLine_cases (short : requestLine.length < 2 ^ 63) :
    (∃ r, ∀ s, parseRequestLine requestLine s = .ok (.parseUriSuccess, s.withLine r)) ∨
      ∀ s, ∃ m f, parseRequestLine requestLine s =
        .ok (.parseUriError, { s with method := m, fileName := f }) := by
  have keyword : ∀ (m : HttpMethod) (pos : Nat),
      (∀ s, parseRequestLine requestLine s = parseFileName requestLine pos { s with method := m }) →
      (∃ r, ∀ s, parseRequestLine requestLine s = .ok (.parseUriSuccess, s.withLine r)) ∨
        ∀ s, ∃ m f, parseRequestLine requestLine s =
          .ok (.parseUriError, { s with method := m, fileName := f }) := by
    intro m pos parsed
    rcases parseFileName_cases short pos with ⟨f, v, accepted⟩ | ⟨f, rejected⟩
    · exact .inl ⟨⟨m, f, v⟩, fun s => by rw [parsed, accepted]; rfl⟩
    · exact .inr fun s => ⟨m, f, by rw [parsed, rejected]⟩
  by_cases get : toInt (find requestLine (text "GET") 0) ≥ 0
  · exact keyword .methodGet (sizeT (toInt (find requestLine (text "GET") 0))) fun s => by
      simp only [parseRequestLine, get, if_true]
  by_cases post : toInt (find requestLine (text "POST") 0) ≥ 0
  · exact keyword .methodPost (sizeT (toInt (find requestLine (text "POST") 0))) fun s => by
      simp only [parseRequestLine, get, post, if_true, if_false]
  by_cases head : toInt (find requestLine (text "HEAD") 0) ≥ 0
  · exact keyword .methodHead (sizeT (toInt (find requestLine (text "HEAD") 0))) fun s => by
      simp only [parseRequestLine, get, post, head, if_true, if_false]
  · exact .inr fun s => ⟨s.method, s.fileName, by
      simp only [parseRequestLine, get, post, head, if_false]⟩

theorem parseRequestLine_some (short : requestLine.length < 2 ^ 63) {r : RequestLine}
    (decoded : decodeLine requestLine = some r) (s : HttpData) :
    parseRequestLine requestLine s = .ok (.parseUriSuccess, s.withLine r) := by
  rcases parseRequestLine_cases short with ⟨r', accepted⟩ | rejected
  · rw [decodeLine, accepted] at decoded
    obtain rfl := Option.some.inj decoded
    exact accepted s
  · obtain ⟨m, f, refused⟩ := rejected (new 0)
    simp [decodeLine, refused] at decoded

theorem parseRequestLine_none (short : requestLine.length < 2 ^ 63)
    (refused : decodeLine requestLine = none) (s : HttpData) :
    ∃ m f, parseRequestLine requestLine s =
      .ok (.parseUriError, { s with method := m, fileName := f }) := by
  rcases parseRequestLine_cases short with ⟨r', accepted⟩ | rejected
  · simp [decodeLine, accepted] at refused
  · exact rejected s

theorem parseURI_line {s : HttpData} {line rest : Bytes} (start : s.nowReadPos = 0)
    (buffered : s.inBuffer = line ++ CR :: rest) (short : s.inBuffer.length < 2 ^ 63)
    (first : CR ∉ line) : parseURI s = parseRequestLine line { s with inBuffer := rest } := by
  have found : find s.inBuffer [CR] s.nowReadPos = line.length := by
    rw [start, buffered, find_byte rest first]
  have length : s.inBuffer.length = line.length + 1 + rest.length := by
    simp only [buffered, List.length_append, List.length_cons]
    omega
  have next : sizeT (line.length + 1 : Int) = line.length + 1 := by
    exact_mod_cast sizeT_natCast (n := line.length + 1) (by omega)
  have taken : s.inBuffer.take line.length = line := by rw [buffered, List.take_left]
  have dropped : s.inBuffer.drop (line.length + 1) = rest := by
    rw [buffered, ← List.drop_drop, List.drop_left]
    rfl
  simp only [parseURI, found, Nat.not_lt_zero, if_false, substr_zero, taken, next, bind, Except.bind]
  by_cases more : s.inBuffer.length > line.length + 1
  · rw [if_pos more, substr_npos (by omega) (by simp only [npos]; omega), dropped]
  · have none_left : rest = [] := List.length_eq_zero_iff.mp (by omega)
    rw [if_neg more, none_left]

theorem parseURI_no_line {s : HttpData} (short : s.inBuffer.length < 2 ^ 63)
    (missing : CR ∉ s.inBuffer) : parseURI s = parseRequestLine s.inBuffer s := by
  have found : find s.inBuffer [CR] s.nowReadPos = npos := find_byte_absent _ missing
  have below : s.inBuffer.length ≤ npos := by simp only [npos]; omega
  simp only [parseURI, found, Nat.not_lt_zero, if_false, substr_zero, sizeT_npos_succ,
    List.take_of_length_le below, bind, Except.bind]
  by_cases more : s.inBuffer.length > 0
  · rw [if_pos more]
  · have empty : s.inBuffer = [] := List.length_eq_zero_iff.mp (by omega)
    rw [if_neg more, ← empty]

/-- A call of `substr`: the string that it is applied to and its first argument. -/
structure Slice where
  string : Bytes
  pos : Nat

/-- It does not throw `std::out_of_range`. -/
def Slice.InRange (c : Slice) : Prop := c.pos ≤ c.string.length

/-- The call for the version, which is searched from `pos`. -/
def versionSlices (requestLine : Bytes) (pos : Nat) : List Slice :=
  let pos := find requestLine [SLASH] pos
  if sizeT (requestLine.length - pos) ≤ 3 then [] else [⟨requestLine, sizeT (pos + 1)⟩]

/-- The calls for the file name between `pos` and `_pos`. -/
def targetSlices (requestLine : Bytes) (pos _pos : Nat) : List Slice :=
  if sizeT (_pos - pos) > 1 then
    let fileName := (requestLine.drop (sizeT (pos + 1))).take (sizeT (_pos - pos - 1))
    [⟨requestLine, sizeT (pos + 1)⟩, ⟨fileName, 0⟩]
  else []

/-- The calls from the method at `pos` on. -/
def fileNameSlices (requestLine : Bytes) (pos : Nat) : List Slice :=
  let pos := find requestLine [SLASH] pos
  let _pos := find requestLine [SPACE] pos
  targetSlices requestLine pos _pos ++ versionSlices requestLine _pos

/-- The calls on the request line. -/
def requestLineSlices (requestLine : Bytes) : List Slice :=
  let posGet := toInt (find requestLine (text "GET") 0)
  let posPost := toInt (find requestLine (text "POST") 0)
  let posHead := toInt (find requestLine (text "HEAD") 0)
  if posGet ≥ 0 then fileNameSlices requestLine (sizeT posGet)
  else if posPost ≥ 0 then fileNameSlices requestLine (sizeT posPost)
  else if posHead ≥ 0 then fileNameSlices requestLine (sizeT posHead)
  else []

/-- The calls of `substr` in `ParseURI`, in their order. -/
def parseURISlices (s : HttpData) : List Slice :=
  let str := s.inBuffer
  let pos := find str [CR] s.nowReadPos
  let requestLine := str.take pos
  ⟨str, 0⟩ :: ((if str.length > sizeT (pos + 1) then [⟨str, sizeT (pos + 1)⟩] else []) ++
    requestLineSlices requestLine)

theorem fileNameSlices_inRange (short : requestLine.length < 2 ^ 63) (pos : Nat) :
    ∀ c ∈ fileNameSlices requestLine pos, c.InRange := by
  intro c there
  rcases List.mem_append.mp there with target | version
  · unfold targetSlices at target
    split_ifs at target
    · rcases List.mem_pair.mp target with rfl | rfl
      · exact next_inside short SLASH pos
      · exact Nat.zero_le _
    · cases target
  · unfold versionSlices at version
    dsimp only at version
    split_ifs at version
    · cases version
    · obtain rfl := List.mem_singleton.mp version
      exact next_inside short SLASH _

theorem requestLineSlices_inRange (short : requestLine.length < 2 ^ 63) :
    ∀ c ∈ requestLineSlices requestLine, c.InRange := by
  unfold requestLineSlices
  dsimp only
  split_ifs
  · exact fileNameSlices_inRange short _
  · exact fileNameSlices_inRange short _
  · exact fileNameSlices_inRange short _
  · exact List.forall_mem_nil _

theorem parseURISlices_inRange {s : HttpData} (short : s.inBuffer.length < 2 ^ 63) :
    ∀ c ∈ parseURISlices s, c.InRange := by
  intro c there
  unfold parseURISlices at there
  rcases List.mem_cons.mp there with rfl | there
  · exact Nat.zero_le _
  rcases List.mem_append.mp there with buffer | line
  · split_ifs at buffer with more
    · obtain rfl := List.mem_singleton.mp buffer
      exact more.le
    · cases buffer
  · refine requestLineSlices_inRange ?_ c line
    rw [List.length_take]
    omega

theorem substr_isOk (string : Bytes) (pos n : Nat) :
    (substr string pos n).isOk = true ↔ Slice.InRange ⟨string, pos⟩ := by
  unfold substr Slice.InRange
  split_ifs with inside
  · exact iff_of_true rfl inside
  · exact iff_of_false Bool.false_ne_true inside

theorem parseVersion_isOk (pos : Nat) (s : HttpData) :
    (parseVersion requestLine pos s).isOk = true ↔ ∀ c ∈ versionSlices requestLine pos, c.InRange := by
  simp only [parseVersion, versionSlices, Nat.not_lt_zero, if_false]
  split_ifs with low
  · exact iff_of_true rfl (List.forall_mem_nil _)
  · rw [List.forall_mem_singleton, ← substr_isOk requestLine _ 3]
    cases substr requestLine (sizeT (find requestLine [SLASH] pos + 1 : Int)) 3 with
    | error e => exact Iff.rfl
    | ok ver =>
        refine iff_of_true ?_ rfl
        dsimp only [bind, Except.bind]
        split_ifs <;> rfl

theorem targetName_isOk (pos _pos : Nat) :
    (targetName requestLine pos _pos).isOk = true ↔
      ∀ c ∈ targetSlices requestLine pos _pos, c.InRange := by
  unfold targetName targetSlices
  split_ifs with named
  · have start (name : Bytes) : Slice.InRange ⟨name, 0⟩ := Nat.zero_le _
    rw [List.forall_mem_cons, List.forall_mem_singleton, and_iff_left (start _),
      ← substr_isOk requestLine _ (sizeT (_pos - pos - 1))]
    cases substr requestLine (sizeT (pos + 1 : Int)) (sizeT (_pos - pos - 1)) with
    | error e => exact Iff.rfl
    | ok name =>
        refine iff_of_true ?_ rfl
        simp [bind, Except.bind, Except.isOk, Except.toBool]
  · exact iff_of_true rfl (List.forall_mem_nil _)

theorem parseFileName_isOk (pos : Nat) (s : HttpData) :
    (parseFileName requestLine pos s).isOk = true ↔
      ∀ c ∈ fileNameSlices requestLine pos, c.InRange := by
  simp only [parseFileName, fileNameSlices, Nat.not_lt_zero, if_false, List.forall_mem_append,
    ← targetName_isOk, bind, Except.bind]
  split
  · rename_i e failed
    rw [failed]
    exact iff_of_false Bool.false_ne_true fun both => Bool.false_ne_true both.1
  · rename_i name named
    rw [named, parseVersion_isOk]
    exact (and_iff_right rfl).symm

theorem parseRequestLine_isOk (s : HttpData) :
    (parseRequestLine requestLine s).isOk = true ↔
      ∀ c ∈ requestLineSlices requestLine, c.InRange := by
  unfold parseRequestLine requestLineSlices
  dsimp only
  split_ifs
  · exact parseFileName_isOk _ _
  · exact parseFileName_isOk _ _
  · exact parseFileName_isOk _ _
  · exact iff_of_true rfl (List.forall_mem_nil _)

theorem parseURI_isOk (s : HttpData) :
    (parseURI s).isOk = true ↔ ∀ c ∈ parseURISlices s, c.InRange := by
  have start : Slice.InRange ⟨s.inBuffer, 0⟩ := Nat.zero_le _
  simp only [parseURI, parseURISlices, Nat.not_lt_zero, if_false, substr_zero, List.forall_mem_cons,
    List.forall_mem_append, bind, Except.bind]
  rw [and_iff_right start]
  split_ifs with more
  · rw [List.forall_mem_singleton, ← substr_isOk s.inBuffer _ npos]
    split
    · rename_i e failed
      rw [failed]
      exact iff_of_false Bool.false_ne_true fun both => Bool.false_ne_true both.1
    · rename_i rest cut
      rw [cut, parseRequestLine_isOk]
      exact (and_iff_right rfl).symm
  · rw [parseRequestLine_isOk]
    exact (and_iff_right (List.forall_mem_nil _)).symm

theorem parseURI_suffix {s s' : HttpData} {flag : UriState} (short : s.inBuffer.length < 2 ^ 63)
    (parsed : parseURI s = .ok (flag, s')) : s'.inBuffer <:+ s.inBuffer := by
  simp only [parseURI, Nat.not_lt_zero, if_false, substr_zero, bind, Except.bind] at parsed
  split_ifs at parsed with more
  · rw [substr_npos more.le (by simp only [npos]; omega)] at parsed
    obtain ⟨m, f, v, rfl⟩ := parseRequestLine_frame parsed
    exact List.drop_suffix _ _
  · obtain ⟨m, f, v, rfl⟩ := parseRequestLine_frame parsed
    exact List.nil_suffix

theorem parseURI_returns {s : HttpData} (short : s.inBuffer.length < 2 ^ 63) :
    ∃ flag s', parseURI s = .ok (flag, s') := by
  have returns := (parseURI_isOk s).mpr (parseURISlices_inRange short)
  cases parsed : parseURI s with
  | error e =>
      rw [parsed] at returns
      cases returns
  | ok result => exact ⟨result.1, result.2, rfl⟩

/-- Whatever is buffered, each `substr` of `ParseURI` begins inside its string, so that none throws. -/
theorem parseURI_inRange (s : HttpData) (short : s.inBuffer.length < 2 ^ 31) :
    (∀ c ∈ parseURISlices s, c.InRange) ∧
      ∃ flag s', parseURI s = .ok (flag, s') ∧ s'.inBuffer <:+ s.inBuffer := by
  have fits : s.inBuffer.length < 2 ^ 63 := by omega
  obtain ⟨flag, s', parsed⟩ := parseURI_returns fits
  exact ⟨parseURISlices_inRange fits, flag, s', parsed, parseURI_suffix fits parsed⟩

theorem parseURI_inRange_bare :
    (∀ c ∈ parseURISlices { new 0 with inBuffer := text "GET" }, c.InRange) ∧
      ∃ flag s', parseURI { new 0 with inBuffer := text "GET" } = .ok (flag, s') ∧
        s'.inBuffer <:+ text "GET" :=
  parseURI_inRange _ (by decide)

end WebServer.HttpData
