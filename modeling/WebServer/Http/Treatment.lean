import WebServer.Http.HeaderLine
import WebServer.Http.ReplyFormat

/-! # What a request is for

The text of a request and the files decide how it is treated. Of two different treatments the replies
differ before either ends, unless one serves the file whose head the other sends.
-/

namespace WebServer

open Lib HttpData

namespace HttpData

variable {c : UInt8} {cs : Bytes}

theorem toInt_find (line pat : Bytes) (short : line.length < 2 ^ 31) :
    toInt (find line pat 0) =
      match search pat line with
      | some k => (k : Int)
      | none => -1 := by
  cases found : search pat line with
  | none => rw [find_of_search_none found, toInt_npos]
  | some k =>
      have inside := search_le found
      rw [find_of_search_some found, Nat.zero_add, toInt_of_lt (by omega)]

/-- The method names are searched for one after the other. -/
theorem keyword_eq {line : Bytes} (short : line.length < 2 ^ 31) :
    keyword line =
      match search (text "GET") line, search (text "POST") line, search (text "HEAD") line with
      | some k, _, _ => some (.methodGet, k)
      | none, some k, _ => some (.methodPost, k)
      | none, none, some k => some (.methodHead, k)
      | none, none, none => none := by
  have position {pat : Bytes} {k : Nat} (found : search pat line = some k) : sizeT (k : Int) = k := by
    have inside := search_le found
    exact sizeT_natCast (by omega)
  unfold keyword
  simp only [toInt_find line _ short]
  cases get : search (text "GET") line with
  | some k => simp [position get]
  | none =>
      cases post : search (text "POST") line with
      | some k => simp [position post]
      | none =>
          cases head : search (text "HEAD") line with
          | some k => simp [position head]
          | none => simp

/-- A line that starts with the method starts with its name. -/
theorem keyword_prefix {line : Bytes} {method : HttpMethod} (short : line.length < 2 ^ 31)
    (first : keyword line = some (method, 0)) : methodName method <+: line := by
  have starts {pat : Bytes} (found : search pat line = some 0) : pat <+: line := by
    obtain ⟨before, after, rfl, none⟩ := search_append found
    rw [List.length_eq_zero_iff.mp none]
    exact List.prefix_append _ _
  rw [keyword_eq short] at first
  cases get : search (text "GET") line with
  | some k =>
      simp only [get, Option.some.injEq, Prod.mk.injEq] at first
      obtain ⟨rfl, rfl⟩ := first
      exact starts get
  | none =>
      cases post : search (text "POST") line with
      | some k =>
          simp only [get, post, Option.some.injEq, Prod.mk.injEq] at first
          obtain ⟨rfl, rfl⟩ := first
          exact starts post
      | none =>
          cases head : search (text "HEAD") line with
          | some k =>
              simp only [get, post, head, Option.some.injEq, Prod.mk.injEq] at first
              obtain ⟨rfl, rfl⟩ := first
              exact starts head
          | none => simp [get, post, head] at first

theorem search_cons (pat : Bytes) (c : UInt8) (cs : Bytes) :
    search pat (c :: cs) = some 0 ∨ search pat (c :: cs) = (search pat cs).map (· + 1) := by
  by_cases here : pat.isPrefixOf (c :: cs) = true
  · exact .inl (by rw [search, if_pos here])
  · exact .inr (by rw [search, if_neg here])

/-- A method that is found behind the first byte is found without it. -/
theorem keyword_tail (short : (c :: cs).length < 2 ^ 31) :
    (∃ method, keyword (c :: cs) = some (method, 0)) ∨
      keyword (c :: cs) = (keyword cs).map fun (method, pos) => (method, pos + 1) := by
  have shorter : cs.length < 2 ^ 31 := Nat.lt_of_succ_lt short
  rw [keyword_eq short, keyword_eq shorter]
  rcases search_cons (text "GET") c cs with get | get
  · exact .inl ⟨.methodGet, by rw [get]⟩
  cases get' : search (text "GET") cs with
  | some k => exact .inr (by rw [get, get']; rfl)
  | none =>
      rw [get'] at get
      rcases search_cons (text "POST") c cs with post | post
      · exact .inl ⟨.methodPost, by rw [get, post]; rfl⟩
      cases post' : search (text "POST") cs with
      | some k => exact .inr (by rw [get, post, post']; rfl)
      | none =>
          rw [post'] at post
          rcases search_cons (text "HEAD") c cs with head | head
          · exact .inl ⟨.methodHead, by rw [get, post, head]; rfl⟩
          · refine .inr ?_
            rw [get, post, head]
            cases search (text "HEAD") cs <;> rfl

/-- A line asks for the same without its first byte, unless it starts with the method. -/
theorem lineRequest_tail (short : (c :: cs).length < 2 ^ 31)
    (letters : versionOf ((c :: cs).take 3) = none ∧ versionOf (cs.take 3) = none) :
    (∃ method, keyword (c :: cs) = some (method, 0)) ∨ lineRequest cs = lineRequest (c :: cs) := by
  rcases keyword_tail short with first | same
  · exact .inl first
  · refine .inr ?_
    unfold lineRequest
    rw [same]
    cases keyword cs with
    | none => rfl
    | some named =>
        obtain ⟨method, pos⟩ := named
        simp only [Option.map_some, List.drop_succ_cons]
        cases (cs.drop pos).dropWhile (· ≠ SLASH) with
        | nil => simp only [letters.1, letters.2, Option.map_none]
        | cons _ target =>
            dsimp only
            cases target.dropWhile (· ≠ SPACE) with
            | nil => simp only [letters.1, letters.2, Option.map_none]
            | cons b blank =>
                dsimp only
                cases (b :: blank).dropWhile (· ≠ SLASH) with
                | nil => simp only [letters.1, letters.2, Option.map_none]
                | cons _ ver => rfl

end HttpData

/-- How a request is treated. -/
inductive Treatment where
  /-- A `400`, for the line or for a value that is too long. -/
  | refused
  /-- A `400`, for a `POST` without a `Content-length`. -/
  | unlengthed
  /-- `stoi` throws. -/
  | thrown
  /-- A `POST`, which has no reply. -/
  | silent
  | missing
  | echo
  | icon (keepAlive : Bool)
  /-- The head of a file's reply. -/
  | head (keepAlive : Bool) (fileType : Bytes) (size : Nat)
  /-- A file. -/
  | page (keepAlive : Bool) (fileType : Bytes) (content : Bytes)
  deriving DecidableEq

namespace Treatment

/-- The connection is ready for another request. -/
def GoesOn : Treatment → Prop
  | echo | icon _ | head .. | page .. => True
  | refused | unlengthed | thrown | silent | missing => False

instance : DecidablePred GoesOn := by
  intro t
  cases t <;> unfold GoesOn <;> infer_instance

/-- The reply, unless the connection's thread is gone. -/
def reply : Treatment → Option Bytes
  | refused => some (errorBytes 400 (text "Bad Request"))
  | unlengthed => some (errorBytes 400 (text "Bad Request: Lack of argument (Content-length)"))
  | thrown => none
  | silent => some []
  | missing => some (errorBytes 404 (text "Not Found!"))
  | echo => some echoReply
  | icon keepAlive =>
      some (replyStart keepAlive ++ replyEnd (text "image/png") favicon.length ++ favicon)
  | head keepAlive fileType size => some (replyStart keepAlive ++ replyEnd fileType size)
  | page keepAlive fileType content =>
      some (replyStart keepAlive ++ replyEnd fileType content.length ++ content ++ text "\r\n")

end Treatment

/-- The treatment of a file. -/
def fileTreatment (file : FileView) (method : HttpMethod) (keepAlive : Bool) (fileType : Bytes) :
    Treatment :=
  match file.stSize with
  | none => .missing
  | some size =>
      if method = .methodHead then .head keepAlive fileType size
      else
        match file.mapped with
        | none => .missing
        | some content => .page keepAlive fileType content

/-- What a line asks for, with these headers. -/
def lineTreatment (files : Bytes → FileView) (q : RequestLine) (headers : HeaderMap) : Treatment :=
  if q.method = .methodPost then
    match headers (text "Content-length") with
    | none => .unlengthed
    | some value =>
        match stoi value with
        | .error _ => .thrown
        | .ok _ => .silent
  else if q.fileName = text "hello" then .echo
  else if q.fileName = text "favicon.ico" then .icon (keepAliveRequested headers)
  else
    match fileTypeOf q.fileName with
    | .error _ => .missing
    | .ok fileType => fileTreatment (files (cstr q.fileName)) q.method (keepAliveRequested headers) fileType

/-- The treatment of a request with this text. -/
def treatment (files : Bytes → FileView) (line : Bytes) (lines : List HeaderLine) : Treatment :=
  match lineRequest line with
  | none => .refused
  | some q => if ∀ l ∈ lines, l.Fits then lineTreatment files q (headersOf lines) else .refused

section

variable {files : Bytes → FileView} {line : Bytes} {lines : List HeaderLine}

theorem mapped_length {file : FileView} {content : Bytes} (mapped : file.mapped = some content) :
    file.stSize = some content.length := by
  cases file with
  | missing | unreadable | unmappable => cases mapped
  | regular bytes =>
      simp only [FileView.mapped] at mapped
      split_ifs at mapped
      cases mapped
      rfl

theorem servedFile_treatment (files : Bytes → FileView) (q : RequestLine) (keepAlive : Bool)
    (fileType : Bytes) :
    let t := fileTreatment (files (cstr q.fileName)) q.method keepAlive fileType
    (servedFile files q (replyStart keepAlive) fileType = none ∧ t = .missing) ∨
      (servedFile files q (replyStart keepAlive) fileType = t.reply ∧ t.GoesOn) := by
  unfold servedFile fileTreatment
  dsimp only
  cases size : (files (cstr q.fileName)).stSize with
  | none => exact .inl ⟨rfl, rfl⟩
  | some n =>
      dsimp only
      split_ifs
      · exact .inr ⟨rfl, trivial⟩
      · cases mapped : (files (cstr q.fileName)).mapped with
        | none => exact .inl ⟨rfl, rfl⟩
        | some content =>
            rw [mapped_length mapped] at size
            cases size
            exact .inr ⟨rfl, trivial⟩

theorem servedReply_treatment (files : Bytes → FileView) (q : RequestLine) (headers : HeaderMap)
    (asks : q.method ≠ .methodPost) :
    let t := lineTreatment files q headers
    (servedReply files q (keepAliveRequested headers) = none ∧ t = .missing) ∨
      (servedReply files q (keepAliveRequested headers) = t.reply ∧ t.GoesOn) := by
  unfold servedReply lineTreatment
  dsimp only
  rw [if_neg asks]
  split_ifs
  · exact .inr ⟨rfl, trivial⟩
  · exact .inr ⟨rfl, trivial⟩
  · obtain ⟨fileType, typed⟩ := fileTypeOf_returns q.fileName
    rw [typed]
    exact servedFile_treatment files q (keepAliveRequested headers) fileType

/-- The answer is the reply of the treatment, whatever is buffered behind the request. -/
theorem answer_treatment (files : Bytes → FileView) (q : RequestLine) (headers : HeaderMap)
    (left : Bytes) :
    match answer files q headers left with
    | .error _ => lineTreatment files q headers = .thrown
    | .ok a => (lineTreatment files q headers).reply = some a.sent ∧
        (a.GoesOn ↔ (lineTreatment files q headers).GoesOn) := by
  unfold answer
  by_cases post : q.method = .methodPost
  · unfold lineTreatment
    rw [if_pos post, if_pos post]
    cases headers (text "Content-length") with
    | none => exact ⟨rfl, by simp [Answer.GoesOn, Treatment.GoesOn]⟩
    | some value =>
        simp only [bind, Except.bind]
        cases stoi value with
        | error e => rfl
        | ok n =>
            dsimp only
            split_ifs <;> exact ⟨rfl, by simp [Answer.GoesOn, Treatment.GoesOn]⟩
  · rw [if_neg post]
    rcases servedReply_treatment files q headers post with ⟨none, missing⟩ | ⟨served, goesOn⟩
    · simp only [none]
      rw [missing]
      exact ⟨rfl, by simp [Answer.GoesOn, Treatment.GoesOn]⟩
    · obtain ⟨reply, given⟩ : ∃ reply, (lineTreatment files q headers).reply = some reply := by
        cases treated : lineTreatment files q headers with
        | thrown => simp [treated, Treatment.GoesOn] at goesOn
        | _ => exact ⟨_, rfl⟩
      simp only [served, given]
      exact ⟨trivial, by simp [Answer.GoesOn, goesOn]⟩

end

namespace Treatment

/-- What a reply begins with. -/
def mark : Treatment → Bytes
  | refused => text "HTTP/1.1 400 Bad Request\r\n"
  | unlengthed => text "HTTP/1.1 400 Bad Request: "
  | thrown | silent => []
  | missing => text "HTTP/1.1 404 Not Found!\r\nC"
  | echo => text "HTTP/1.1 200 OK\r\nContent-t"
  | icon keepAlive | head keepAlive .. | page keepAlive .. =>
      text "HTTP/1.1 200 OK\r\n" ++ if keepAlive then text "Connectio" else text "Content-T"

/-- The lines of the head that depend on the request, and what comes behind the head. -/
def served : Treatment → Option (Bool × Bytes × Nat × Bytes)
  | icon keepAlive => some (keepAlive, text "image/png", favicon.length, favicon)
  | head keepAlive fileType size => some (keepAlive, fileType, size, [])
  | page keepAlive fileType content =>
      some (keepAlive, fileType, content.length, content ++ text "\r\n")
  | _ => none

theorem reply_take {t : Treatment} {reply : Bytes} (given : t.reply = some reply) :
    reply.take 26 = t.mark := by
  cases t with
  | thrown => cases given
  | refused | unlengthed | silent | missing | echo =>
      cases given
      decide +kernel
  | icon keepAlive | head keepAlive | page keepAlive =>
      cases given
      cases keepAlive <;> rfl

theorem reply_served {t : Treatment} {keepAlive : Bool} {fileType body : Bytes} {size : Nat}
    (parts : t.served = some (keepAlive, fileType, size, body)) :
    t.reply = some (replyStart keepAlive ++ replyEnd fileType size ++ body) := by
  cases t with
  | icon | head | page =>
      cases parts
      simp [reply]
  | _ => cases parts

/-- Replies without a file. -/
def plain : List Treatment := [refused, unlengthed, missing, echo]

theorem mark_cases (t : Treatment) :
    t.mark = [] ∨ t ∈ plain ∨ ∃ keepAlive, t.mark = (icon keepAlive).mark ∧ t.served ≠ none := by
  cases t with
  | thrown | silent => exact .inl rfl
  | refused | unlengthed | missing | echo => exact .inr (.inl (by decide))
  | icon keepAlive | head keepAlive | page keepAlive =>
      exact .inr (.inr ⟨keepAlive, rfl, nofun⟩)

theorem served_of_mark {t u : Treatment} (same : t.mark = u.mark) (speaks : t.mark ≠ [])
    (differ : t ≠ u) : t.served ≠ none ∧ u.served ≠ none := by
  have apart : ∀ t ∈ plain, ∀ u ∈ plain, t.mark = u.mark → t = u := by decide
  have bodiless : ∀ t ∈ plain, ∀ keepAlive, t.mark ≠ (icon keepAlive).mark := by decide
  rcases mark_cases t with empty | here | ⟨keepAlive, marked, serves⟩
  · exact absurd empty speaks
  · rcases mark_cases u with empty | there | ⟨keepAlive, marked, -⟩
    · exact absurd (same.trans empty) speaks
    · exact absurd (apart t here u there same) differ
    · exact absurd (same.trans marked) (bodiless t here keepAlive)
  · rcases mark_cases u with empty | there | ⟨_, -, serves'⟩
    · exact absurd (same.trans empty) speaks
    · exact absurd (same.symm.trans marked) (bodiless u there keepAlive)
    · exact ⟨serves, serves'⟩

/-- Its type is one of the table's. -/
def Typed : Treatment → Prop
  | head _ fileType _ | page _ fileType _ => CR ∉ fileType
  | _ => True

theorem Typed.served {t : Treatment} (typed : t.Typed) {keepAlive : Bool} {fileType body : Bytes}
    {size : Nat} (parts : t.served = some (keepAlive, fileType, size, body)) : CR ∉ fileType := by
  cases t with
  | icon =>
      cases parts
      decide
  | head | page =>
      cases parts
      exact typed
  | _ => cases parts

theorem replyHead_injective {keepAlive keepAlive' : Bool} {fileType fileType' : Bytes} {n n' : Nat}
    {typed : CR ∉ fileType} {typed' : CR ∉ fileType'}
    (same : replyHead keepAlive typed n = replyHead keepAlive' typed' n') :
    keepAlive = keepAlive' ∧ fileType = fileType' ∧ n = n' := by
  have length := replyHead_contentLength keepAlive typed n
  rw [same, replyHead_contentLength] at length
  have fields := congrArg ResponseHead.fields same
  unfold replyHead at fields
  dsimp only at fields
  have kept : keepAlive = keepAlive' := by
    have lengths := congrArg List.length fields
    cases keepAlive <;> cases keepAlive' <;> simp [keepAliveFields] at lengths ⊢
  subst kept
  have line := (List.cons.inj (List.append_cancel_left fields)).1
  unfold fieldLine at line
  have value := List.append_cancel_left line
  simp only [List.cons.injEq, true_and] at value
  exact ⟨rfl, value, (Option.some.inj length).symm⟩

/-- What can follow a reply: nothing, or another reply. -/
def Follows (rest : Bytes) : Prop := rest = [] ∨ text "HTTP/1.1 " <+: rest

/-- One serves a file, the other only its head, and the file begins like a reply. -/
def Disguises : Treatment → Treatment → Prop
  | page keepAlive fileType content, head keepAlive' fileType' size =>
      (keepAlive', fileType', size) = (keepAlive, fileType, content.length) ∧
        text "HTTP/1.1 " <+: content
  | _, _ => False

theorem Follows.first {c : UInt8} {rest : Bytes} (follows : Follows (c :: rest)) : c = 72 := by
  rcases follows with none | ⟨more, whole⟩
  · cases none
  · exact (List.cons.inj whole).1.symm

theorem Follows.page {content rest : Bytes} (follows : Follows (content ++ CR :: rest)) :
    text "HTTP/1.1 " <+: content := by
  rcases follows with none | ⟨more, whole⟩
  · simp at none
  rcases List.append_eq_append_iff.mp whole with ⟨gap, longer, -⟩ | ⟨gap, longer, behind⟩
  · exact ⟨gap, longer.symm⟩
  cases gap with
  | nil => exact ⟨[], by rw [List.append_nil, longer, List.append_nil]⟩
  | cons c gap =>
      have free : CR ∉ text "HTTP/1.1 " := by decide
      rw [longer, (List.cons.inj behind).1.symm] at free
      exact absurd (List.mem_append_right _ List.mem_cons_self) free

/-- Behind equal heads only a file and its head alone do not tell each other apart. -/
theorem bodies_apart {t u : Treatment} (differ : t ≠ u) {keepAlive : Bool} {fileType b b' : Bytes}
    {n : Nat} (parts : t.served = some (keepAlive, fileType, n, b))
    (parts' : u.served = some (keepAlive, fileType, n, b')) {rest rest' : Bytes}
    (follows : Follows rest) (follows' : Follows rest') (same : b ++ rest = b' ++ rest') :
    Disguises t u ∨ Disguises u t := by
  have icon_head {rest rest' : Bytes} (follows' : Follows rest') : favicon ++ rest ≠ rest' := by
    rintro rfl
    exact absurd follows'.first (by decide)
  have icon_page {content rest rest' : Bytes} (size : content.length = favicon.length)
      (follows : Follows rest) : favicon ++ rest ≠ content ++ text "\r\n" ++ rest' := by
    intro same
    rw [List.append_assoc] at same
    obtain ⟨-, rfl⟩ := List.append_inj same size.symm
    exact absurd follows.first (by decide)
  cases t with
  | icon =>
      cases parts
      cases u with
      | icon => cases parts'; exact absurd rfl differ
      | head => cases parts'; exact absurd same (icon_head follows')
      | page =>
          simp only [served, Option.some.injEq, Prod.mk.injEq] at parts'
          obtain ⟨-, -, size, rfl⟩ := parts'
          exact absurd same (icon_page size follows)
      | _ => cases parts'
  | head =>
      cases parts
      cases u with
      | icon => cases parts'; exact absurd same.symm (icon_head follows)
      | head => cases parts'; exact absurd rfl differ
      | page =>
          cases parts'
          rw [List.nil_append, List.append_assoc] at same
          exact .inr ⟨rfl, (same ▸ follows).page⟩
      | _ => cases parts'
  | page =>
      cases parts
      cases u with
      | icon =>
          simp only [served, Option.some.injEq, Prod.mk.injEq] at parts'
          obtain ⟨-, -, size, rfl⟩ := parts'
          exact absurd same.symm (icon_page size.symm follows')
      | head =>
          cases parts'
          rw [List.nil_append, List.append_assoc] at same
          exact .inl ⟨rfl, (same ▸ follows').page⟩
      | page =>
          simp only [served, Option.some.injEq, Prod.mk.injEq] at parts'
          obtain ⟨rfl, rfl, size, rfl⟩ := parts'
          rw [List.append_assoc, List.append_assoc] at same
          obtain ⟨rfl, -⟩ := List.append_inj same size.symm
          exact absurd rfl differ
      | _ => cases parts'
  | _ => cases parts

theorem mark_length {t : Treatment} {reply : Bytes} (given : t.reply = some reply)
    (speaks : reply ≠ []) : t.mark.length = 26 := by
  cases t with
  | silent => cases given; exact absurd rfl speaks
  | thrown => cases given
  | icon keepAlive | head keepAlive | page keepAlive => cases keepAlive <;> rfl
  | _ => rfl

theorem reply_start {t : Treatment} {reply : Bytes} (given : t.reply = some reply)
    (speaks : reply ≠ []) (rest : Bytes) : (reply ++ rest).take 26 = t.mark := by
  have marked := reply_take given
  have length := congrArg List.length marked
  rw [mark_length given speaks, List.length_take] at length
  rw [List.take_append_of_le_length (by omega), marked]

/-- A reply ends where it says, or is the head of the other. -/
theorem reply_apart {t u : Treatment} (typed : t.Typed) (typed' : u.Typed) (differ : t ≠ u)
    {x y rest rest' : Bytes} (given : t.reply = some x) (given' : u.reply = some y)
    (speaks : x ≠ []) (speaks' : y ≠ []) (follows : Follows rest) (follows' : Follows rest')
    (same : x ++ rest = y ++ rest') : Disguises t u ∨ Disguises u t := by
  have marks : t.mark = u.mark := by
    rw [← reply_start given speaks rest, same, reply_start given' speaks' rest']
  have marked : t.mark ≠ [] := by
    have length := mark_length given speaks
    exact List.ne_nil_of_length_pos (by omega)
  obtain ⟨serves, serves'⟩ := served_of_mark marks marked differ
  obtain ⟨⟨keepAlive, fileType, n, b⟩, parts⟩ := Option.ne_none_iff_exists'.mp serves
  obtain ⟨⟨keepAlive', fileType', n', b'⟩, parts'⟩ := Option.ne_none_iff_exists'.mp serves'
  obtain rfl := Option.some.inj ((reply_served parts).symm.trans given)
  obtain rfl := Option.some.inj ((reply_served parts').symm.trans given')
  have heads := congrArg parseHead same
  rw [List.append_assoc, List.append_assoc _ b',
    parseHead_reply keepAlive (typed.served parts) n (b ++ rest),
    parseHead_reply keepAlive' (typed'.served parts') n' (b' ++ rest'), Option.some.injEq,
    Prod.mk.injEq] at heads
  obtain ⟨rfl, rfl, rfl⟩ := replyHead_injective heads.1
  exact bodies_apart differ parts parts' follows follows' heads.2

end Treatment

section

variable {files : Bytes → FileView} {line : Bytes} {lines : List HeaderLine}

/-- A request with this method can be treated so. -/
def Treatment.AskedBy (method : HttpMethod) : Treatment → Prop
  | .refused => True
  | .unlengthed | .thrown | .silent => method = .methodPost
  | .missing | .echo | .icon _ => method ≠ .methodPost
  | .head _ fileType _ => method = .methodHead ∧ CR ∉ fileType
  | .page _ fileType _ => method = .methodGet ∧ CR ∉ fileType

theorem fileTreatment_askedBy (file : FileView) {method : HttpMethod} (asks : method ≠ .methodPost)
    (keepAlive : Bool) {fileType : Bytes} (typed : CR ∉ fileType) :
    (fileTreatment file method keepAlive fileType).AskedBy method := by
  unfold fileTreatment
  cases file.stSize with
  | none => exact asks
  | some size =>
      dsimp only
      by_cases head : method = .methodHead
      · rw [if_pos head]
        exact ⟨head, typed⟩
      · rw [if_neg head]
        cases file.mapped with
        | none => exact asks
        | some content =>
            refine ⟨?_, typed⟩
            cases method with
            | methodGet => rfl
            | methodPost => exact absurd rfl asks
            | methodHead => exact absurd rfl head

theorem lineTreatment_askedBy (files : Bytes → FileView) (q : RequestLine) (headers : HeaderMap) :
    (lineTreatment files q headers).AskedBy q.method := by
  unfold lineTreatment
  split_ifs with post
  · cases headers (text "Content-length") with
    | none => exact post
    | some value =>
        dsimp only
        cases stoi value with
        | error e => exact post
        | ok n => exact post
  · exact post
  · exact post
  · obtain ⟨fileType, typed⟩ := fileTypeOf_returns q.fileName
    rw [typed]
    exact fileTreatment_askedBy _ post _ (fileTypeOf_no_cr typed)

theorem Treatment.AskedBy.typed {t : Treatment} {method : HttpMethod} (asked : t.AskedBy method) :
    t.Typed := by
  cases t with
  | head | page => exact asked.2
  | _ => trivial

theorem Treatment.Disguises.methods {t u : Treatment} {method method' : HttpMethod}
    (disguised : t.Disguises u) (asked : t.AskedBy method) (asked' : u.AskedBy method') :
    method = .methodGet ∧ method' = .methodHead := by
  cases t with
  | page =>
      cases u with
      | head => exact ⟨asked.1, asked'.1⟩
      | _ => exact disguised.elim
  | _ => exact disguised.elim

theorem Treatment.Disguises.accepted {t u : Treatment} (disguised : t.Disguises u) :
    t ≠ .refused ∧ u ≠ .refused := by
  cases t with
  | page =>
      cases u with
      | head => exact ⟨nofun, nofun⟩
      | _ => exact disguised.elim
  | _ => exact disguised.elim

theorem lineRequest_keyword {q : RequestLine} (request : lineRequest line = some q) :
    ∃ pos, keyword line = some (q.method, pos) := by
  unfold lineRequest at request
  cases found : keyword line with
  | none => simp [found] at request
  | some named =>
      obtain ⟨method, pos⟩ := named
      simp only [found, Option.map_eq_some_iff] at request
      obtain ⟨version, -, rfl⟩ := request
      exact ⟨pos, rfl⟩

theorem treatment_askedBy (files : Bytes → FileView) (line : Bytes) (lines : List HeaderLine) :
    treatment files line lines = .refused ∨ ∃ method pos,
      keyword line = some (method, pos) ∧ (treatment files line lines).AskedBy method := by
  unfold treatment
  cases request : lineRequest line with
  | none => exact .inl rfl
  | some q =>
      dsimp only
      split_ifs
      · obtain ⟨pos, named⟩ := lineRequest_keyword request
        exact .inr ⟨q.method, pos, named, lineTreatment_askedBy files q _⟩
      · exact .inl rfl

theorem treatment_typed (files : Bytes → FileView) (line : Bytes) (lines : List HeaderLine) :
    (treatment files line lines).Typed := by
  rcases treatment_askedBy files line lines with refused | ⟨method, pos, -, asked⟩
  · rw [refused]
    trivial
  · exact asked.typed

end

section

variable {c : UInt8} {cs : Bytes}

theorem treatment_tail (files : Bytes → FileView) (lines : List HeaderLine)
    (short : (c :: cs).length < 2 ^ 31)
    (letters : versionOf ((c :: cs).take 3) = none ∧ versionOf (cs.take 3) = none) :
    (∃ method, keyword (c :: cs) = some (method, 0)) ∨
      treatment files cs lines = treatment files (c :: cs) lines := by
  refine (lineRequest_tail short letters).imp_right fun same => ?_
  unfold treatment
  rw [same]

theorem keyword_head_tail (short : (c :: cs).length < 2 ^ 31) {pos pos' : Nat}
    (head : keyword (c :: cs) = some (.methodHead, pos)) : keyword cs ≠ some (.methodGet, pos') := by
  intro get
  have shorter : cs.length < 2 ^ 31 := Nat.lt_of_succ_lt short
  rw [keyword_eq short] at head
  rw [keyword_eq shorter] at get
  cases absent : search (text "GET") (c :: cs) with
  | some k => simp [absent] at head
  | none =>
      have absent' : search (text "GET") cs = none := by
        rcases search_cons (text "GET") c cs with here | later
        · cases absent.symm.trans here
        · exact Option.map_eq_none_iff.mp (later.symm.trans absent)
      rw [absent'] at get
      cases post : search (text "POST") cs with
      | some k => simp [post] at get
      | none => cases head' : search (text "HEAD") cs <;> simp [post, head'] at get

end

end WebServer
