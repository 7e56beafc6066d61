import WebServer.Http.Request

/-! # Request lines

`ParseURI` undoes the encoding of a request line, unless the target holds the name of a method that
is searched for first. A second version of the procedure has signed positions, so that its tests for
a failed search can hold; the two differ on some lines that lack a delimiter.
-/

namespace WebServer.HttpData

open Lib

/-- The method that `ParseURI` finds in a line, and where its name starts. -/
def keyword (requestLine : Bytes) : Option (HttpMethod × Nat) :=
  let posGet := toInt (find requestLine (text "GET") 0)
  let posPost := toInt (find requestLine (text "POST") 0)
  let posHead := toInt (find requestLine (text "HEAD") 0)
  if posGet ≥ 0 then some (.methodGet, sizeT posGet)
  else if posPost ≥ 0 then some (.methodPost, sizeT posPost)
  else if posHead ≥ 0 then some (.methodHead, sizeT posHead)
  else none

theorem parseRequestLine_keyword (requestLine : Bytes) (s : HttpData) :
    parseRequestLine requestLine s =
      match keyword requestLine with
      | some (method, pos) => parseFileName requestLine pos { s with method }
      | none => .ok (.parseUriError, s) := by
  unfold parseRequestLine keyword
  dsimp only
  split_ifs <;> rfl

/-- A line that names a method has three bytes, and the name starts inside it. -/
theorem keyword_inside {requestLine : Bytes} {method : HttpMethod} {pos : Nat}
    (found : keyword requestLine = some (method, pos)) :
    3 ≤ requestLine.length ∧ pos ≤ requestLine.length := by
  have inside : ∀ pat : Bytes, 3 ≤ pat.length → toInt (find requestLine pat 0) ≥ 0 →
      3 ≤ requestLine.length ∧ sizeT (toInt (find requestLine pat 0)) ≤ requestLine.length := by
    intro pat long nonneg
    rcases find_cases requestLine pat 0 with missing | ⟨-, inside⟩
    · simp [missing] at nonneg
    · have inside := inside (List.ne_nil_of_length_pos (by omega))
      have below := toInt_le (find requestLine pat 0)
      have high : toInt (find requestLine pat 0) < 2 ^ 31 := by
        simp only [toInt]
        split <;> omega
      simp only [sizeT]
      omega
  unfold keyword at found
  dsimp only at found
  split_ifs at found with get post head
  all_goals
    cases found
    exact inside _ (by decide) (by assumption)

/-! Behind the method come a `/`, a blank and another `/`. What each search finds decides the rest. -/

/-- The version named by the three bytes behind the last `/`. -/
def versionOf (ver : Bytes) : Option HttpVersion :=
  if ver = text "1.0" then some .http10
  else if ver = text "1.1" then some .http11
  else none

/-- Accept a line with this version, or reject it. -/
def versionVerdict (version : Option HttpVersion) (s : HttpData) : Except Fault (UriState × HttpData) :=
  match version with
  | some httpVersion => .ok (.parseUriSuccess, { s with httpVersion })
  | none => .ok (.parseUriError, s)

theorem versionOf_short {ver : Bytes} (short : ver.length < 3) : versionOf ver = none := by
  unfold versionOf
  rw [if_neg, if_neg] <;> exact fun same => absurd (same ▸ short) (by decide)

/-- The file name of a target. -/
def wordName (word : Bytes) : Bytes :=
  if word = [] then text "index.html" else upTo QUESTION word

section Delimiters

variable {requestLine front back target word gap ver : Bytes} {pos : Nat}

theorem sizeT_succ {n : Nat} (inside : n < npos) : sizeT (n + 1 : Int) = n + 1 := by
  unfold npos at inside
  exact_mod_cast sizeT_natCast (n := n + 1) (by omega)

theorem parseVersion_found (cut : requestLine.drop pos = gap ++ SLASH :: ver) (first : SLASH ∉ gap)
    (short : requestLine.length < 2 ^ 63) (s : HttpData) :
    parseVersion requestLine pos s = versionVerdict (versionOf (ver.take 3)) s := by
  have length := congrArg List.length cut
  rw [List.length_drop, List.length_append, List.length_cons] at length
  have next := sizeT_succ (n := pos + gap.length) (by simp only [npos]; omega)
  have low : sizeT (requestLine.length - (pos + gap.length : Nat)) = ver.length + 1 := by
    simp only [sizeT]
    omega
  have behind : requestLine.drop (pos + gap.length + 1) = ver := by
    rw [← List.drop_drop, ← List.drop_drop, cut, List.drop_left]
    rfl
  unfold parseVersion
  simp only [find_byte_drop cut first, Nat.not_lt_zero, if_false, low, next]
  by_cases three : ver.length + 1 ≤ 3
  · have few : (ver.take 3).length < 3 := by
      rw [List.length_take]
      omega
    rw [if_pos three, versionOf_short few]
    rfl
  · rw [if_neg three, substr_of_le 3 (by omega), behind]
    simp only [bind, Except.bind, versionOf]
    split_ifs <;> rfl

theorem parseVersion_absent (absent : SLASH ∉ requestLine.drop pos) (long : 3 ≤ requestLine.length)
    (short : requestLine.length < 2 ^ 63) (s : HttpData) :
    parseVersion requestLine pos s = versionVerdict (versionOf (requestLine.take 3)) s := by
  have low : ¬ sizeT (requestLine.length - npos) ≤ 3 := by
    simp only [sizeT, npos]
    omega
  unfold parseVersion
  simp only [find_byte_drop_absent absent, Nat.not_lt_zero, if_false, if_neg low, sizeT_npos_succ,
    substr_zero, bind, Except.bind, versionOf]
  split_ifs <;> rfl

theorem take_find_question (name : Bytes) (short : name.length < 2 ^ 63) :
    name.take (find name [QUESTION] 0) = upTo QUESTION name := by
  rcases search_byte_cases QUESTION name with ⟨-, absent⟩ | ⟨before, after, rfl, first, -⟩
  · rw [find_byte_absent 0 absent, upTo_absent absent]
    exact List.take_of_length_le (by simp only [npos]; omega)
  · rw [find_byte after first, upTo_cut after first, List.take_left]

theorem targetName_word (whole : requestLine = front ++ SLASH :: (word ++ SPACE :: back))
    (short : requestLine.length < 2 ^ 63) :
    targetName requestLine front.length (front.length + 1 + word.length) = .ok (wordName word) := by
  have length := congrArg List.length whole
  simp only [List.length_append, List.length_cons] at length
  have next := sizeT_succ (n := front.length) (by simp only [npos]; omega)
  have distance : sizeT ((front.length + 1 + word.length : Nat) - front.length) = word.length + 1 := by
    simp only [sizeT]
    omega
  have size : sizeT ((front.length + 1 + word.length : Nat) - front.length - 1) = word.length := by
    simp only [sizeT]
    omega
  have behind : (requestLine.drop (front.length + 1)).take word.length = word := by
    rw [whole, ← List.drop_drop, List.drop_left]
    exact List.take_left
  unfold targetName wordName
  simp only [distance, size, next]
  cases word with
  | nil => rfl
  | cons c word =>
      rw [if_pos (by simp), substr_of_le _ (by omega), behind, if_neg (List.cons_ne_nil c word)]
      simp only [bind, Except.bind, ge_iff_le, Nat.zero_le, if_true, substr_zero]
      rw [take_find_question _ (by omega)]

/-- Without a blank everything behind the `/` is the name. -/
theorem targetName_open (whole : requestLine = front ++ SLASH :: target)
    (short : requestLine.length < 2 ^ 63) :
    targetName requestLine front.length npos = .ok (upTo QUESTION target) := by
  have length := congrArg List.length whole
  simp only [List.length_append, List.length_cons] at length
  have next := sizeT_succ (n := front.length) (by simp only [npos]; omega)
  have distance : sizeT ((npos : Nat) - front.length) > 1 := by
    simp only [sizeT, npos]
    omega
  have size : target.length ≤ sizeT ((npos : Nat) - front.length - 1) := by
    simp only [sizeT, npos]
    omega
  have behind : requestLine.drop (front.length + 1) = target := by
    rw [whole, ← List.drop_drop, List.drop_left]
    rfl
  unfold targetName
  simp only [if_pos distance, next]
  rw [substr_of_le _ (by omega), behind, List.take_of_length_le size]
  simp only [bind, Except.bind, ge_iff_le, Nat.zero_le, if_true, substr_zero]
  rw [take_find_question _ (by omega)]

theorem parseFileName_slashless (absent : SLASH ∉ requestLine.drop pos)
    (long : 3 ≤ requestLine.length) (short : requestLine.length < 2 ^ 63) (s : HttpData) :
    parseFileName requestLine pos s =
      versionVerdict (versionOf (requestLine.take 3)) { s with fileName := text "index.html" } := by
  have below : requestLine.length ≤ npos := by
    unfold npos
    omega
  have nowhere : targetName requestLine npos npos = .ok (text "index.html") := by
    unfold targetName
    rw [if_neg (by simp [sizeT])]
  have behind : SLASH ∉ requestLine.drop npos := by
    rw [List.drop_of_length_le below]
    exact List.not_mem_nil
  unfold parseFileName
  simp only [find_byte_drop_absent absent, find_byte_npos SPACE below, nowhere, Nat.not_lt_zero,
    if_false, bind, Except.bind]
  exact parseVersion_absent behind long short _

theorem whole_of_drop (cut : requestLine.drop pos = gap ++ SLASH :: target)
    (inside : pos ≤ requestLine.length) :
    requestLine = (requestLine.take pos ++ gap) ++ SLASH :: target ∧
      (requestLine.take pos ++ gap).length = pos + gap.length := by
  constructor
  · rw [List.append_assoc, ← cut, List.take_append_drop]
  · rw [List.length_append, List.length_take, Nat.min_eq_left inside]

theorem drop_to_slash (cut : requestLine.drop pos = gap ++ SLASH :: target) :
    requestLine.drop (pos + gap.length) = SLASH :: target := by
  rw [← List.drop_drop, cut, List.drop_left]

theorem parseFileName_open (cut : requestLine.drop pos = gap ++ SLASH :: target)
    (first : SLASH ∉ gap) (blankless : SPACE ∉ target) (inside : pos ≤ requestLine.length)
    (long : 3 ≤ requestLine.length) (short : requestLine.length < 2 ^ 63) (s : HttpData) :
    parseFileName requestLine pos s =
      versionVerdict (versionOf (requestLine.take 3)) { s with fileName := upTo QUESTION target } := by
  have below : requestLine.length ≤ npos := by
    unfold npos
    omega
  have noBlank : SPACE ∉ requestLine.drop (pos + gap.length) := by
    rw [drop_to_slash cut, List.mem_cons, not_or]
    exact ⟨by decide, blankless⟩
  obtain ⟨whole, length⟩ := whole_of_drop cut inside
  have named := targetName_open whole short
  rw [length] at named
  have behind : SLASH ∉ requestLine.drop npos := by
    rw [List.drop_of_length_le below]
    exact List.not_mem_nil
  unfold parseFileName
  simp only [find_byte_drop cut first, find_byte_drop_absent noBlank, named, Nat.not_lt_zero,
    if_false, bind, Except.bind]
  exact parseVersion_absent behind long short _

theorem parseFileName_word (cut : requestLine.drop pos = gap ++ SLASH :: (word ++ SPACE :: back))
    (first : SLASH ∉ gap) (oneWord : SPACE ∉ word) (inside : pos ≤ requestLine.length)
    (short : requestLine.length < 2 ^ 63) (s : HttpData) :
    parseFileName requestLine pos s =
      parseVersion requestLine (pos + gap.length + 1 + word.length)
        { s with fileName := wordName word } := by
  have noBlank : SPACE ∉ SLASH :: word := by
    rw [List.mem_cons, not_or]
    exact ⟨by decide, oneWord⟩
  have blank : find requestLine [SPACE] (pos + gap.length) = pos + gap.length + 1 + word.length := by
    rw [find_byte_drop ((drop_to_slash cut).trans (List.cons_append ..).symm) noBlank,
      List.length_cons]
    omega
  obtain ⟨whole, length⟩ := whole_of_drop cut inside
  have named := targetName_word whole short
  rw [length] at named
  unfold parseFileName
  simp only [find_byte_drop cut first, blank, named, Nat.not_lt_zero, if_false, bind, Except.bind]

theorem drop_to_blank (cut : requestLine.drop pos = gap ++ SLASH :: (word ++ SPACE :: back)) :
    requestLine.drop (pos + gap.length + 1 + word.length) = SPACE :: back := by
  rw [Nat.add_assoc (pos + gap.length), ← List.drop_drop, drop_to_slash cut, Nat.add_comm 1,
    List.drop_succ_cons, List.drop_left]

end Delimiters

/-- The delimiters that stand behind a method name. -/
inductive Delimited (requestLine : Bytes) (pos : Nat) : Prop where
  | slashless (absent : SLASH ∉ requestLine.drop pos)
  | blankless {gap target : Bytes} (cut : requestLine.drop pos = gap ++ SLASH :: target)
      (first : SLASH ∉ gap) (absent : SPACE ∉ target)
  | unversioned {gap word back : Bytes}
      (cut : requestLine.drop pos = gap ++ SLASH :: (word ++ SPACE :: back)) (first : SLASH ∉ gap)
      (oneWord : SPACE ∉ word) (absent : SLASH ∉ SPACE :: back)
  | versioned {gap word back gap' ver : Bytes}
      (cut : requestLine.drop pos = gap ++ SLASH :: (word ++ SPACE :: back)) (first : SLASH ∉ gap)
      (oneWord : SPACE ∉ word) (cut' : SPACE :: back = gap' ++ SLASH :: ver) (first' : SLASH ∉ gap')

theorem delimited (requestLine : Bytes) (pos : Nat) : Delimited requestLine pos := by
  rcases search_byte_cases SLASH (requestLine.drop pos) with
    ⟨-, absent⟩ | ⟨gap, target, cut, first, -⟩
  · exact .slashless absent
  rcases search_byte_cases SPACE target with ⟨-, absent⟩ | ⟨word, back, rfl, oneWord, -⟩
  · exact .blankless cut first absent
  rcases search_byte_cases SLASH (SPACE :: back) with ⟨-, absent⟩ | ⟨gap', ver, cut', first', -⟩
  · exact .unversioned cut first oneWord absent
  · exact .versioned cut first oneWord cut' first'

/-- What a request line asks for, when `ParseURI` accepts it: the bytes behind the first `/` after the
    method's name, up to a blank, and the version behind the next `/`. -/
def lineRequest (requestLine : Bytes) : Option RequestLine :=
  match keyword requestLine with
  | none => none
  | some (method, pos) =>
      let (fileName, ver) :=
        match (requestLine.drop pos).dropWhile (· ≠ SLASH) with
        | [] => (text "index.html", requestLine)
        | _ :: target =>
            match target.dropWhile (· ≠ SPACE) with
            | [] => (upTo QUESTION target, requestLine)
            | blank =>
                match blank.dropWhile (· ≠ SLASH) with
                | [] => (wordName (upTo SPACE target), requestLine)
                | _ :: ver => (wordName (upTo SPACE target), ver)
      (versionOf (ver.take 3)).map fun httpVersion => { method, fileName, httpVersion }

theorem versionVerdict_cases (version : Option HttpVersion) (method : HttpMethod) (fileName : Bytes)
    (s : HttpData) :
    (∃ r, version.map (fun httpVersion => { method, fileName, httpVersion : RequestLine }) = some r ∧
        versionVerdict version { s with method, fileName } = .ok (.parseUriSuccess, s.withLine r)) ∨
      version.map (fun httpVersion => { method, fileName, httpVersion : RequestLine }) = none ∧
        ∃ t, versionVerdict version { s with method, fileName } = .ok (.parseUriError, t) := by
  cases version with
  | none => exact .inr ⟨rfl, _, rfl⟩
  | some v => exact .inl ⟨_, rfl, rfl⟩

theorem parseRequestLine_request {requestLine : Bytes} (short : requestLine.length < 2 ^ 63)
    (s : HttpData) :
    (∃ r, lineRequest requestLine = some r ∧
        parseRequestLine requestLine s = .ok (.parseUriSuccess, s.withLine r)) ∨
      lineRequest requestLine = none ∧
        ∃ t, parseRequestLine requestLine s = .ok (.parseUriError, t) := by
  rw [parseRequestLine_keyword]
  unfold lineRequest
  cases found : keyword requestLine with
  | none => exact .inr ⟨rfl, s, rfl⟩
  | some named =>
      obtain ⟨method, pos⟩ := named
      obtain ⟨long, inside⟩ := keyword_inside found
      dsimp only
      cases delimited requestLine pos with
      | slashless absent =>
          rw [parseFileName_slashless absent long short, dropWhile_absent absent]
          exact versionVerdict_cases _ _ _ s
      | @blankless gap target cut first absent =>
          rw [cut, dropWhile_cut target first]
          dsimp only
          rw [parseFileName_open cut first absent inside long short, dropWhile_absent absent]
          exact versionVerdict_cases _ _ _ s
      | @unversioned gap word back cut first oneWord absent =>
          rw [cut, dropWhile_cut _ first]
          dsimp only
          rw [parseFileName_word cut first oneWord inside short, dropWhile_cut back oneWord,
            upTo_cut back oneWord]
          dsimp only
          rw [parseVersion_absent (drop_to_blank cut ▸ absent) long short, dropWhile_absent absent]
          exact versionVerdict_cases _ _ _ s
      | @versioned gap word back gap' ver cut first oneWord cut' first' =>
          rw [cut, dropWhile_cut _ first]
          dsimp only
          rw [parseFileName_word cut first oneWord inside short, dropWhile_cut back oneWord,
            upTo_cut back oneWord]
          dsimp only
          rw [parseVersion_found ((drop_to_blank cut).trans cut') first' short, cut',
            dropWhile_cut ver first']
          exact versionVerdict_cases _ _ _ s

theorem decodeLine_request {requestLine : Bytes} (short : requestLine.length < 2 ^ 63) :
    decodeLine requestLine = lineRequest requestLine := by
  unfold decodeLine
  rcases parseRequestLine_request short (new 0) with ⟨r, request, parsed⟩ | ⟨request, t, parsed⟩
  · rw [request, parsed]
    rfl
  · rw [request, parsed]

/-- The target does not hold the name of a method that `ParseURI` searches for before this one. -/
def Unambiguous (method : HttpMethod) (target : Bytes) : Prop :=
  match method with
  | .methodGet => True
  | .methodPost => ¬ text "GET" <:+: target
  | .methodHead => ¬ text "GET" <:+: target ∧ ¬ text "POST" <:+: target

instance (method : HttpMethod) (target : Bytes) : Decidable (Unambiguous method target) := by
  cases method <;> unfold Unambiguous <;> infer_instance

theorem infix_requestLine {pat t : Bytes} {method : HttpMethod} {v : HttpVersion}
    (free : SPACE ∉ pat ∧ SLASH ∉ pat) (other : ¬ pat <:+: methodName method)
    (unversioned : ¬ pat <:+: text "HTTP" ∧ ¬ pat <:+: versionName v) :
    pat <:+: requestLine method (SLASH :: t) v ↔ pat <:+: t := by
  constructor
  · intro inside
    rcases infix_beside free.1 inside with here | later
    · exact absurd here other
    rcases infix_beside free.1 later with target | version
    · refine (infix_beside free.2 (show pat <:+: [] ++ SLASH :: t from target)).elim (fun none => ?_) id
      exact none.trans List.nil_infix
    · rcases infix_beside free.2 (show pat <:+: text "HTTP" ++ SLASH :: versionName v from version) with
        here | here
      · exact absurd here unversioned.1
      · exact absurd here unversioned.2
  · intro inside
    exact inside.trans ⟨methodName method ++ [SPACE, SLASH],
      SPACE :: (text "HTTP/" ++ versionName v), by
        unfold requestLine
        simp only [List.append_assoc, List.cons_append, List.nil_append]⟩

theorem methodName_find (method : HttpMethod) (rest : Bytes) :
    find (methodName method ++ rest) (methodName method) 0 = 0 := by
  cases method <;> rfl

theorem find_absent {s pat : Bytes} (absent : ¬ pat <:+: s) : find s pat 0 = npos :=
  find_of_search_none (search_eq_none.mpr absent)

theorem find_present {s pat : Bytes} (present : pat <:+: s) (short : s.length < 2 ^ 31) :
    toInt (find s pat 0) ≥ 0 := by
  cases found : search pat (s.drop 0) with
  | none => exact absurd present (search_eq_none.mp found)
  | some k =>
      have inside := search_le found
      rw [List.length_drop] at inside
      rw [find_of_search_some found, toInt_of_lt (by omega)]
      exact Int.natCast_nonneg _

/-- The first method name of an encoded line is its method, when the target leaves it so. -/
theorem keyword_requestLine {method : HttpMethod} {t : Bytes} {v : HttpVersion}
    (unambiguous : Unambiguous method t) :
    keyword (requestLine method (SLASH :: t) v) = some (method, 0) := by
  have own := methodName_find method (SPACE :: (SLASH :: t ++ SPACE :: (text "HTTP/" ++ versionName v)))
  have noGet : method ≠ .methodGet → ¬ text "GET" <:+: t →
      find (requestLine method (SLASH :: t) v) (text "GET") 0 = npos := by
    intro other absent
    refine find_absent fun present => absent ?_
    refine (infix_requestLine (by decide) ?_ ?_).mp present
    · cases method <;> first | exact absurd rfl other | decide
    · cases v <;> decide
  unfold requestLine at noGet ⊢
  unfold keyword
  cases method with
  | methodGet =>
      change find _ (text "GET") 0 = 0 at own
      rw [own]
      rfl
  | methodPost =>
      change find _ (text "POST") 0 = 0 at own
      rw [own, noGet (by decide) unambiguous]
      rfl
  | methodHead =>
      change find _ (text "HEAD") 0 = 0 at own
      have noPost : find (requestLine .methodHead (SLASH :: t) v) (text "POST") 0 = npos :=
        find_absent fun present => unambiguous.2
          ((infix_requestLine (by decide) (by decide) (by cases v <;> decide)).mp present)
      unfold requestLine at noPost
      rw [own, noGet (by decide) unambiguous.1, noPost]
      rfl

/-- Where the target does hold one, another method is found. -/
theorem keyword_ambiguous {method : HttpMethod} {t : Bytes} {v : HttpVersion}
    (ambiguous : ¬ Unambiguous method t)
    (short : (requestLine method (SLASH :: t) v).length < 2 ^ 31) :
    ∃ other pos, keyword (requestLine method (SLASH :: t) v) = some (other, pos) ∧
      other ≠ method := by
  have whole : t <:+: requestLine method (SLASH :: t) v :=
    ⟨methodName method ++ [SPACE, SLASH], SPACE :: (text "HTTP/" ++ versionName v), by
      unfold requestLine
      simp only [List.append_assoc, List.cons_append, List.nil_append]⟩
  unfold keyword
  dsimp only
  by_cases get : text "GET" <:+: t
  · rw [if_pos (find_present (get.trans whole) short)]
    refine ⟨_, _, rfl, ?_⟩
    rintro rfl
    exact ambiguous trivial
  · cases method with
    | methodGet => exact absurd trivial ambiguous
    | methodPost => exact absurd get ambiguous
    | methodHead =>
        have post : text "POST" <:+: t := by
          by_contra absent
          exact ambiguous ⟨get, absent⟩
        rw [if_pos (find_present (post.trans whole) short)]
        split_ifs
        · exact ⟨_, _, rfl, by decide⟩
        · exact ⟨_, _, rfl, by decide⟩

theorem lineRequest_encoded {method : HttpMethod} {t : Bytes} {v : HttpVersion} (oneWord : SPACE ∉ t)
    (unambiguous : Unambiguous method t) :
    lineRequest (requestLine method (SLASH :: t) v) = some ⟨method, wordName t, v⟩ := by
  have cut : (requestLine method (SLASH :: t) v).drop 0 =
      (methodName method ++ [SPACE]) ++ SLASH :: (t ++ SPACE :: (text "HTTP/" ++ versionName v)) := by
    unfold requestLine
    simp only [List.drop_zero, List.append_assoc, List.cons_append, List.nil_append]
  have slash : SLASH ∉ methodName method ++ [SPACE] := by cases method <;> decide
  have gap : SPACE :: (text "HTTP/" ++ versionName v) =
      (SPACE :: text "HTTP") ++ SLASH :: versionName v :=
    rfl
  have version : versionOf ((versionName v).take 3) = some v := by cases v <;> rfl
  unfold lineRequest
  rw [keyword_requestLine unambiguous]
  dsimp only
  rw [cut, dropWhile_cut _ slash]
  dsimp only
  rw [dropWhile_cut _ oneWord, upTo_cut _ oneWord]
  dsimp only
  rw [gap, dropWhile_cut _ (by decide)]
  dsimp only
  rw [version]
  rfl

theorem lineRequest_ambiguous {method : HttpMethod} {t : Bytes} {v : HttpVersion}
    (ambiguous : ¬ Unambiguous method t)
    (short : (requestLine method (SLASH :: t) v).length < 2 ^ 31) {r : RequestLine}
    (request : lineRequest (requestLine method (SLASH :: t) v) = some r) : r.method ≠ method := by
  obtain ⟨other, pos, found, differs⟩ := keyword_ambiguous ambiguous short
  unfold lineRequest at request
  rw [found] at request
  dsimp only at request
  obtain ⟨version, -, rfl⟩ := Option.map_eq_some_iff.mp request
  exact differs

/-- An encoded line is decoded exactly when the target leaves its method alone. -/
theorem parseURI_encoded_iff {s : HttpData} {method : HttpMethod} {t rest : Bytes} {v : HttpVersion}
    (start : s.nowReadPos = 0) (oneWord : SPACE ∉ t ∧ CR ∉ t)
    (buffered : s.inBuffer = requestLine method (SLASH :: t) v ++ CR :: rest)
    (short : s.inBuffer.length < 2 ^ 31) :
    (∃ s', parseURI s = .ok (.parseUriSuccess, s') ∧ s'.method = method ∧ s'.httpVersion = v ∧
        s'.fileName = (if t = [] then text "index.html" else upTo QUESTION t) ∧
        s'.inBuffer = rest) ↔ Unambiguous method t := by
  have first : CR ∉ requestLine method (SLASH :: t) v := by
    apply requestLine_no_cr method v
    rw [List.mem_cons, not_or]
    exact ⟨by decide, oneWord.2⟩
  have line_short : (requestLine method (SLASH :: t) v).length < 2 ^ 31 := by
    rw [buffered, List.length_append] at short
    omega
  rw [parseURI_line start buffered (by omega) first]
  have small : (requestLine method (SLASH :: t) v).length < 2 ^ 63 := by omega
  rcases parseRequestLine_request small { s with inBuffer := rest } with
    ⟨r, request, parsed⟩ | ⟨refused, t', parsed⟩
  · rw [parsed]
    constructor
    · rintro ⟨s', same, rfl, -⟩
      cases same
      by_contra ambiguous
      exact lineRequest_ambiguous ambiguous line_short request rfl
    · intro unambiguous
      rw [lineRequest_encoded oneWord.1 unambiguous] at request
      cases request
      exact ⟨_, rfl, rfl, rfl, rfl, rfl⟩
  · rw [parsed]
    apply iff_of_false
    · rintro ⟨s', same, -⟩
      cases same
    · intro unambiguous
      rw [lineRequest_encoded oneWord.1 unambiguous] at refused
      cases refused

theorem parseURI_encoded_head :
    ∃ s', parseURI { new 5 with inBuffer := text "HEAD /a/b?c HTTP/1.0\r\nGET" } =
        .ok (.parseUriSuccess, s') ∧ s'.method = .methodHead ∧ s'.httpVersion = .http10 ∧
      s'.fileName = upTo QUESTION (text "a/b?c") ∧ s'.inBuffer = text "\nGET" := by
  have buffered : text "HEAD /a/b?c HTTP/1.0\r\nGET" =
      requestLine .methodHead (SLASH :: text "a/b?c") .http10 ++ CR :: text "\nGET" := rfl
  exact (parseURI_encoded_iff (s := { new 5 with inBuffer := text "HEAD /a/b?c HTTP/1.0\r\nGET" }) rfl
    (by decide) buffered (by decide)).mpr (by decide)

/-- A `POST` whose target holds `GET` is not decoded. -/
theorem parseURI_posted_get :
    ¬ ∃ s', parseURI { new 5 with inBuffer := text "POST /GET HTTP/1.1\r\n" } =
        .ok (.parseUriSuccess, s') ∧ s'.method = .methodPost ∧ s'.httpVersion = .http11 ∧
      s'.fileName = text "GET" ∧ s'.inBuffer = text "\n" := by
  rintro ⟨s', parsed, -⟩
  have refused : parseURI { new 5 with inBuffer := text "POST /GET HTTP/1.1\r\n" } =
      .ok (.parseUriError, { new 5 with fileName := text "1.1", inBuffer := text "\n" }) := rfl
  rw [refused] at parsed
  cases parsed

/-! What the procedure would do if a failed search yielded `-1`. -/

/-- `find` with a signed result. -/
def findSigned (s pat : Bytes) (pos : Int) : Int :=
  match search pat (s.drop pos.toNat) with
  | some k => pos + k
  | none => -1

/-- `parseVersion` with signed positions. -/
def parseVersionSigned (requestLine : Bytes) (pos : Int) (s : HttpData) :
    Except Fault (UriState × HttpData) :=
  let pos := findSigned requestLine [SLASH] pos
  if pos < 0 then .ok (.parseUriError, s)
  else if requestLine.length - pos ≤ 3 then .ok (.parseUriError, s)
  else do
    let ver ← substr requestLine (pos + 1).toNat 3
    if ver = text "1.0" then .ok (.parseUriSuccess, { s with httpVersion := .http10 })
    else if ver = text "1.1" then .ok (.parseUriSuccess, { s with httpVersion := .http11 })
    else .ok (.parseUriError, s)

/-- `targetName` with signed positions. -/
def targetNameSigned (requestLine : Bytes) (pos _pos : Int) : Except Fault Bytes :=
  if _pos - pos > 1 then do
    let name ← substr requestLine (pos + 1).toNat (_pos - pos - 1).toNat
    let __pos := findSigned name [QUESTION] 0
    if __pos ≥ 0 then substr name 0 __pos.toNat else .ok name
  else .ok (text "index.html")

/-- `parseFileName` with signed positions. -/
def parseFileNameSigned (requestLine : Bytes) (pos : Int) (s : HttpData) :
    Except Fault (UriState × HttpData) :=
  let pos := findSigned requestLine [SLASH] pos
  if pos < 0 then
    .ok (.parseUriSuccess, { s with fileName := text "index.html", httpVersion := .http11 })
  else
    let _pos := findSigned requestLine [SPACE] pos
    if _pos < 0 then .ok (.parseUriError, s)
    else do
      let name ← targetNameSigned requestLine pos _pos
      parseVersionSigned requestLine _pos { s with fileName := name }

/-- `parseRequestLine` with signed positions, which `int` truncates as it does the unsigned ones. -/
def parseRequestLineSigned (requestLine : Bytes) (s : HttpData) :
    Except Fault (UriState × HttpData) :=
  let posGet := toInt (sizeT (findSigned requestLine (text "GET") 0))
  let posPost := toInt (sizeT (findSigned requestLine (text "POST") 0))
  let posHead := toInt (sizeT (findSigned requestLine (text "HEAD") 0))
  if posGet ≥ 0 then parseFileNameSigned requestLine posGet { s with method := .methodGet }
  else if posPost ≥ 0 then parseFileNameSigned requestLine posPost { s with method := .methodPost }
  else if posHead ≥ 0 then parseFileNameSigned requestLine posHead { s with method := .methodHead }
  else .ok (.parseUriError, s)

/-- `parseURI` with signed positions. -/
def parseURISigned (s : HttpData) : Except Fault (UriState × HttpData) :=
  let str := s.inBuffer
  let pos := findSigned str [CR] s.nowReadPos
  if pos < 0 then .ok (.parseUriAgain, s)
  else do
    let requestLine ← substr str 0 pos.toNat
    let str ← if str.length > pos + 1 then substr str (pos + 1).toNat npos else .ok []
    parseRequestLineSigned requestLine { s with inBuffer := str }

section Signed

variable {requestLine back target word gap ver : Bytes} {pos : Nat}

theorem findSigned_drop {c : UInt8} {n : Nat} {s before after : Bytes}
    (cut : s.drop n = before ++ c :: after) (absent : c ∉ before) :
    findSigned s [c] n = (n + before.length : Nat) := by
  unfold findSigned
  rw [Int.toNat_natCast, cut, search_byte after absent]
  push_cast
  rfl

theorem findSigned_drop_absent {c : UInt8} {n : Nat} {s : Bytes} (absent : c ∉ s.drop n) :
    findSigned s [c] n = -1 := by
  unfold findSigned
  rw [Int.toNat_natCast, search_byte_absent absent]

theorem sizeT_findSigned {s : Bytes} (pat : Bytes) (short : s.length < 2 ^ 63) :
    sizeT (findSigned s pat 0) = find s pat 0 := by
  unfold findSigned find
  rw [Int.toNat_zero]
  cases found : search pat (s.drop 0) with
  | none => rfl
  | some k =>
      have inside := search_le found
      rw [List.length_drop] at inside
      simp only [Int.zero_add, Nat.zero_add]
      exact sizeT_natCast (by omega)

theorem parseVersionSigned_found (cut : requestLine.drop pos = gap ++ SLASH :: ver)
    (first : SLASH ∉ gap) (s : HttpData) :
    parseVersionSigned requestLine pos s = versionVerdict (versionOf (ver.take 3)) s := by
  have length := congrArg List.length cut
  rw [List.length_drop, List.length_append, List.length_cons] at length
  have behind : requestLine.drop (pos + gap.length + 1) = ver := by
    rw [← List.drop_drop, ← List.drop_drop, cut, List.drop_left]
    rfl
  have next : ((pos + gap.length : Nat) + 1 : Int).toNat = pos + gap.length + 1 := by omega
  unfold parseVersionSigned
  simp only [findSigned_drop cut first, next]
  rw [if_neg (by omega)]
  by_cases three : ver.length + 1 ≤ 3
  · have few : (ver.take 3).length < 3 := by
      rw [List.length_take]
      omega
    rw [if_pos (by omega), versionOf_short few]
    rfl
  · rw [if_neg (by omega), substr_of_le 3 (by omega), behind]
    simp only [bind, Except.bind, versionOf]
    split_ifs <;> rfl

theorem parseVersionSigned_absent (absent : SLASH ∉ requestLine.drop pos) (s : HttpData) :
    parseVersionSigned requestLine pos s = .ok (.parseUriError, s) := by
  unfold parseVersionSigned
  rw [findSigned_drop_absent absent]
  rfl

theorem take_findSigned_question (name : Bytes) :
    (if findSigned name [QUESTION] 0 ≥ 0 then substr name 0 (findSigned name [QUESTION] 0).toNat
      else .ok name) = .ok (upTo QUESTION name) := by
  rcases search_byte_cases QUESTION name with ⟨-, absent⟩ | ⟨before, after, rfl, first, -⟩
  · have nowhere : findSigned name [QUESTION] 0 = -1 := findSigned_drop_absent (n := 0) absent
    rw [nowhere, upTo_absent absent]
    rfl
  · have found : findSigned (before ++ QUESTION :: after) [QUESTION] 0 = (0 + before.length : Nat) :=
      findSigned_drop (n := 0) rfl first
    rw [found, Nat.zero_add, if_pos (Int.natCast_nonneg _), Int.toNat_natCast, substr_zero,
      List.take_left, upTo_cut after first]

theorem targetNameSigned_word {front : Bytes}
    (whole : requestLine = front ++ SLASH :: (word ++ SPACE :: back)) :
    targetNameSigned requestLine front.length (front.length + 1 + word.length : Nat) =
      .ok (wordName word) := by
  have length := congrArg List.length whole
  simp only [List.length_append, List.length_cons] at length
  have next : ((front.length : Int) + 1).toNat = front.length + 1 := by omega
  have size : ((front.length + 1 + word.length : Nat) - front.length - 1 : Int).toNat =
      word.length := by omega
  have behind : (requestLine.drop (front.length + 1)).take word.length = word := by
    rw [whole, ← List.drop_drop, List.drop_left]
    exact List.take_left
  unfold targetNameSigned wordName
  rw [size, next]
  cases word with
  | nil =>
      rw [if_neg (by simp)]
      rfl
  | cons c word =>
      rw [if_pos (by simp only [List.length_cons]; omega), substr_of_le _ (by omega), behind,
        if_neg (List.cons_ne_nil c word)]
      exact take_findSigned_question _

theorem parseFileNameSigned_slashless (absent : SLASH ∉ requestLine.drop pos) (s : HttpData) :
    parseFileNameSigned requestLine pos s =
      .ok (.parseUriSuccess, { s with fileName := text "index.html", httpVersion := .http11 }) := by
  unfold parseFileNameSigned
  rw [findSigned_drop_absent absent]
  rfl

theorem parseFileNameSigned_open (cut : requestLine.drop pos = gap ++ SLASH :: target)
    (first : SLASH ∉ gap) (blankless : SPACE ∉ target) (s : HttpData) :
    parseFileNameSigned requestLine pos s = .ok (.parseUriError, s) := by
  have noBlank : SPACE ∉ requestLine.drop (pos + gap.length) := by
    rw [drop_to_slash cut, List.mem_cons, not_or]
    exact ⟨by decide, blankless⟩
  unfold parseFileNameSigned
  dsimp only
  rw [findSigned_drop cut first, findSigned_drop_absent noBlank, if_neg (by omega)]
  rfl

theorem parseFileNameSigned_word
    (cut : requestLine.drop pos = gap ++ SLASH :: (word ++ SPACE :: back)) (first : SLASH ∉ gap)
    (oneWord : SPACE ∉ word) (inside : pos ≤ requestLine.length) (s : HttpData) :
    parseFileNameSigned requestLine pos s =
      parseVersionSigned requestLine (pos + gap.length + 1 + word.length : Nat)
        { s with fileName := wordName word } := by
  have noBlank : SPACE ∉ SLASH :: word := by
    rw [List.mem_cons, not_or]
    exact ⟨by decide, oneWord⟩
  have blank : findSigned requestLine [SPACE] (pos + gap.length : Nat) =
      (pos + gap.length + 1 + word.length : Nat) := by
    rw [findSigned_drop ((drop_to_slash cut).trans (List.cons_append ..).symm) noBlank,
      List.length_cons, Nat.add_assoc (pos + gap.length), Nat.add_comm 1]
  obtain ⟨whole, length⟩ := whole_of_drop cut inside
  have named := targetNameSigned_word whole
  rw [length] at named
  unfold parseFileNameSigned
  dsimp only
  rw [findSigned_drop cut first, if_neg (by omega), blank, if_neg (by omega), named]
  rfl

theorem parseRequestLineSigned_keyword (short : requestLine.length < 2 ^ 63) (s : HttpData) :
    parseRequestLineSigned requestLine s =
      match keyword requestLine with
      | some (method, pos) => parseFileNameSigned requestLine pos { s with method }
      | none => .ok (.parseUriError, s) := by
  have position : ∀ pat, toInt (find requestLine pat 0) ≥ 0 →
      ((sizeT (toInt (find requestLine pat 0)) : Nat) : Int) = toInt (find requestLine pat 0) := by
    intro pat nonneg
    have high : toInt (find requestLine pat 0) < 2 ^ 31 := by
      simp only [toInt]
      split <;> omega
    simp only [sizeT]
    omega
  unfold parseRequestLineSigned keyword
  simp only [sizeT_findSigned _ short]
  split_ifs with get post head
  · exact congrArg (parseFileNameSigned requestLine · _) (position _ get).symm
  · exact congrArg (parseFileNameSigned requestLine · _) (position _ post).symm
  · exact congrArg (parseFileNameSigned requestLine · _) (position _ head).symm
  · rfl

end Signed

/-- What `ParseURI` decides about a line. -/
def verdict (r : UriState × HttpData) : UriState × HttpMethod × Bytes × HttpVersion :=
  (r.1, r.2.method, r.2.fileName, r.2.httpVersion)

/-- The lines that `ParseURI` decides as its tests are written: they name no method, or have a `/`, a
    blank and a `/` behind it, or what the start of the line is taken for makes no difference. -/
def AsWritten (requestLine fileName : Bytes) : Prop :=
  match keyword requestLine with
  | none => True
  | some (_, pos) =>
      match (requestLine.drop pos).dropWhile (· ≠ SLASH) with
      | [] => versionOf (requestLine.take 3) = some .http11
      | _ :: target =>
          match target.dropWhile (· ≠ SPACE) with
          | [] => versionOf (requestLine.take 3) = none ∧ fileName = upTo QUESTION target
          | blank => SLASH ∈ blank ∨ versionOf (requestLine.take 3) = none

theorem parseRequestLine_signed_iff {requestLine : Bytes} (short : requestLine.length < 2 ^ 63)
    (s : HttpData) :
    (parseRequestLine requestLine s).map verdict = (parseRequestLineSigned requestLine s).map verdict ↔
      AsWritten requestLine s.fileName := by
  rw [parseRequestLine_keyword, parseRequestLineSigned_keyword short]
  unfold AsWritten
  cases found : keyword requestLine with
  | none => exact iff_of_true rfl trivial
  | some named =>
      obtain ⟨method, pos⟩ := named
      obtain ⟨long, inside⟩ := keyword_inside found
      dsimp only
      cases delimited requestLine pos with
      | slashless absent =>
          rw [parseFileName_slashless absent long short, parseFileNameSigned_slashless absent,
            dropWhile_absent absent]
          cases versionOf (requestLine.take 3) with
          | none => simp [versionVerdict, Except.map, verdict]
          | some v => simp [versionVerdict, Except.map, verdict]
      | @blankless gap target cut first absent =>
          rw [cut, dropWhile_cut target first]
          dsimp only
          rw [parseFileName_open cut first absent inside long short,
            parseFileNameSigned_open cut first absent, dropWhile_absent absent]
          cases versionOf (requestLine.take 3) with
          | none => simp [versionVerdict, Except.map, verdict, eq_comm]
          | some v => simp [versionVerdict, Except.map, verdict]
      | @unversioned gap word back cut first oneWord absent =>
          have absent' := drop_to_blank cut ▸ absent
          rw [cut, dropWhile_cut _ first]
          dsimp only
          rw [parseFileName_word cut first oneWord inside short,
            parseFileNameSigned_word cut first oneWord inside, dropWhile_cut back oneWord,
            parseVersion_absent absent' long short, parseVersionSigned_absent absent']
          cases versionOf (requestLine.take 3) with
          | none => simp [versionVerdict, Except.map, verdict]
          | some v => simp [versionVerdict, Except.map, verdict, absent]
      | @versioned gap word back gap' ver cut first oneWord cut' first' =>
          have present : SLASH ∈ SPACE :: back := by
            rw [cut']
            exact List.mem_append_right _ List.mem_cons_self
          have behind := (drop_to_blank cut).trans cut'
          rw [cut, dropWhile_cut _ first]
          dsimp only
          rw [parseFileName_word cut first oneWord inside short,
            parseFileNameSigned_word cut first oneWord inside, dropWhile_cut back oneWord,
            parseVersion_found behind first' short, parseVersionSigned_found behind first']
          exact iff_of_true rfl (.inl present)

theorem parseURISigned_line {s : HttpData} {line rest : Bytes} (start : s.nowReadPos = 0)
    (buffered : s.inBuffer = line ++ CR :: rest) (short : s.inBuffer.length < 2 ^ 63)
    (first : CR ∉ line) :
    parseURISigned s = parseRequestLineSigned line { s with inBuffer := rest } := by
  have found : findSigned s.inBuffer [CR] s.nowReadPos = line.length := by
    rw [start, findSigned_drop (n := 0) buffered first,
      Nat.zero_add]
  have length : s.inBuffer.length = line.length + 1 + rest.length := by
    simp only [buffered, List.length_append, List.length_cons]
    omega
  have next : ((line.length : Int) + 1).toNat = line.length + 1 := by omega
  have taken : s.inBuffer.take line.length = line := by rw [buffered, List.take_left]
  have dropped : s.inBuffer.drop (line.length + 1) = rest := by
    rw [buffered, ← List.drop_drop, List.drop_left]
    rfl
  unfold parseURISigned
  dsimp only
  rw [found, if_neg (by omega), next, Int.toNat_natCast, substr_zero, taken]
  simp only [bind, Except.bind]
  by_cases more : (s.inBuffer.length : Int) > line.length + 1
  · rw [if_pos more, substr_npos (by omega) (by simp only [npos]; omega), dropped]
  · have none_left : rest = [] := List.length_eq_zero_iff.mp (by omega)
    rw [if_neg more, none_left]

/-- With a complete line buffered, `ParseURI` decides as its tests are written exactly for these
    lines. -/
theorem parseURI_signed_iff {s : HttpData} (start : s.nowReadPos = 0) (complete : CR ∈ s.inBuffer)
    (short : s.inBuffer.length < 2 ^ 63) :
    (parseURI s).map verdict = (parseURISigned s).map verdict ↔
      AsWritten (upTo CR s.inBuffer) s.fileName := by
  obtain ⟨line, rest, buffered, first⟩ := List.eq_append_cons_of_mem complete
  have line_short : line.length < 2 ^ 63 := by
    rw [buffered, List.length_append] at short
    omega
  rw [parseURI_line start buffered short first, parseURISigned_line start buffered short first,
    parseRequestLine_signed_iff line_short, buffered, upTo_cut rest first]

theorem parseURI_signed_get :
    (parseURI { new 5 with inBuffer := text "GET /a HTTP/1.1\r\n" }).map verdict =
      (parseURISigned { new 5 with inBuffer := text "GET /a HTTP/1.1\r\n" }).map verdict :=
  (parseURI_signed_iff (s := { new 5 with inBuffer := text "GET /a HTTP/1.1\r\n" }) rfl (by decide)
    (by decide)).mpr (show SLASH ∈ text " HTTP/1.1" ∨ _ from .inl (by decide))

/-- A line of a method alone is meant to ask for the index, and is refused. -/
theorem parseURI_bare_get :
    (parseURI { new 5 with inBuffer := text "GET\r\n" }).map verdict ≠
      (parseURISigned { new 5 with inBuffer := text "GET\r\n" }).map verdict := by
  have refused : (parseURI { new 5 with inBuffer := text "GET\r\n" }).map verdict =
      .ok (.parseUriError, .methodGet, text "index.html", .http11) := rfl
  have accepted : (parseURISigned { new 5 with inBuffer := text "GET\r\n" }).map verdict =
      .ok (.parseUriSuccess, .methodGet, text "index.html", .http11) := rfl
  rw [refused, accepted]
  simp

end WebServer.HttpData
