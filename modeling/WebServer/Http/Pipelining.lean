import Mathlib.Data.List.Forall2
import WebServer.Http.HeaderCodec
import WebServer.Http.Treatment
import WebServer.Http.Turns

/-! # Pipelined requests

`ParseHeaders` notices the end of a header section only at the byte behind it, and takes that byte. So
of requests that arrive together, each but the first is read without the first byte of its line. The
replies are those of the whole requests if every such line asks for the same as the whole one.
-/

namespace WebServer

open Lib HttpData

/-- The bytes that are on the socket when `HandleRead` returns, if it does. -/
def written (o : HttpData.Outcome) : Option Bytes := o.toOption.map fun result => result.2.sent

/-- What a fresh connection writes when this chunk arrives. -/
def sentBy (fd : Nat) (files : Bytes → FileView) (chunk : Bytes) : Option Bytes :=
  written ((HttpData.new fd).handleRead (steady files (HttpData.arriving chunk) [] []))

/-- A request without a body, with at least one header line. -/
structure ClientRequest where
  method : HttpMethod
  target : Bytes
  httpVersion : HttpVersion
  first : HeaderLine
  others : List HeaderLine
  asks : method ≠ .methodPost
  oneWord : SPACE ∉ target ∧ CR ∉ target

namespace ClientRequest

def line (r : ClientRequest) : Bytes := requestLine r.method r.target r.httpVersion

def lines (r : ClientRequest) : List HeaderLine := r.first :: r.others

/-- What the client sends. -/
def bytes (r : ClientRequest) : Bytes := requestBytes r.line r.lines []

def whole (files : Bytes → FileView) (r : ClientRequest) : Treatment :=
  treatment files r.line r.lines

/-- The same without the first byte of the line. -/
def beheaded (files : Bytes → FileView) (r : ClientRequest) : Treatment :=
  treatment files r.line.tail r.lines

end ClientRequest

/-- Together the requests bring what each brings alone, in order. -/
def Pipelines (fd : Nat) (files : Bytes → FileView) (rs : List ClientRequest) : Prop :=
  ∃ replies, List.Forall₂ (fun r reply => sentBy fd files r.bytes = some reply) rs replies ∧
    sentBy fd files (rs.flatMap ClientRequest.bytes) = some replies.flatten

/-- Without its first byte each later line asks for what it asks for as a whole, up to a request that
    ends the connection. The requests behind that one have no reply. -/
def Survives (files : Bytes → FileView) : ClientRequest → List ClientRequest → Prop
  | r, [] => r.whole files ≠ .thrown
  | r, x :: rest =>
      if (r.whole files).GoesOn then x.beheaded files = x.whole files ∧ Survives files x rest
      else r.whole files ≠ .thrown ∧ ∀ y ∈ x :: rest, y.whole files = .silent

instance survivesDecidable (files : Bytes → FileView) :
    ∀ r rs, Decidable (Survives files r rs)
  | r, [] => inferInstanceAs (Decidable (r.whole files ≠ .thrown))
  | r, x :: rest =>
      have := survivesDecidable files x rest
      inferInstanceAs (Decidable (if (r.whole files).GoesOn then
        x.beheaded files = x.whole files ∧ Survives files x rest
        else r.whole files ≠ .thrown ∧ ∀ y ∈ x :: rest, y.whole files = .silent))

/-- The replies that are given one after the other, until one ends the connection. -/
def joined : List Treatment → Option Bytes
  | [] => some []
  | t :: rest =>
      match t.reply with
      | none => none
      | some reply => if t.GoesOn then (joined rest).map (reply ++ ·) else some reply

namespace HttpData

variable {files : Bytes → FileView} {looked : List Bytes} {sent : Bytes} {s : HttpData}

theorem requestAnswer_treatment (files : Bytes → FileView) {line : Bytes} {q : RequestLine}
    (fields : List Field) (short : line.length < 2 ^ 63) (decoded : decodeLine line = some q)
    (left : Bytes) :
    match requestAnswer files line (storeFields (fun _ => none) fields) left with
    | .error _ => treatment files line (fields.map Field.toLine) = .thrown
    | .ok a => (treatment files line (fields.map Field.toLine)).reply = some a.sent ∧
        (a.GoesOn ↔ (treatment files line (fields.map Field.toLine)).GoesOn) := by
  have fit : ∀ l ∈ fields.map Field.toLine, l.Fits := by
    intro l there
    obtain ⟨f, -, rfl⟩ := List.mem_map.mp there
    exact f.fits
  have treated : treatment files line (fields.map Field.toLine) =
      lineTreatment files q (storeFields (fun _ => none) fields) := by
    unfold treatment
    rw [← decodeLine_request short, decoded]
    dsimp only
    rw [if_pos fit, headersOf_map]
  unfold requestAnswer
  rw [decoded, treated]
  exact answer_treatment files q (storeFields (fun _ => none) fields) left

/-- A request whose line or header lines are refused. -/
theorem written_refused (files : Bytes → FileView) (looked : List Bytes) (sent : Bytes)
    {line after chunk : Bytes} {lines : List HeaderLine} (vacant : Vacant s) (first : CR ∉ line)
    (whole : s.inBuffer ++ chunk = requestBytes line lines after)
    (small : (s.inBuffer ++ chunk).length < 2 ^ 31)
    (bad : decodeLine line = none ∨ ¬ ∀ l ∈ lines, l.Fits) :
    treatment files line lines = .refused ∧
      written (s.handleRead (steady files (arriving chunk) looked sent)) =
        some (sent ++ errorBytes 400 (text "Bad Request")) := by
  have vacant' := vacant.arrived (s.inBuffer ++ chunk)
  have size := congrArg List.length whole
  unfold requestBytes at size
  simp only [List.length_append, List.length_cons] at size small
  have short : line.length < 2 ^ 63 := by omega
  have brought : chunk.length < 2 ^ 31 := by omega
  have turn : handleReadTurn s (steady files (arriving chunk) looked sent) = _ :=
    handleReadTurn_arriving vacant.connectionState (counted_of_lt brought)
  rw [handleRead_eq, turn]
  unfold treatment
  rw [← decodeLine_request short]
  cases decoded : decodeLine line with
  | none =>
      have parsed := parseURI_line vacant'.nowReadPos whole (by simp only [List.length_append]; omega)
        first
      obtain ⟨s', refused, -⟩ := uriStage_badLine files [] looked sent vacant' parsed ⟨_, rfl⟩ short
        decoded
      rw [refused]
      exact ⟨rfl, rfl⟩
  | some q =>
      have long : ¬ ∀ l ∈ lines, l.Fits := bad.resolve_left (by simp [decoded])
      obtain ⟨t, -, staged⟩ := uriStage_tooLong vacant' whole first
        ((decodeLine_request short).symm.trans decoded) long (by omega)
        (by simp only [List.length_append]; omega) (steady files [] looked sent)
      rw [staged, steady_badRequest]
      dsimp only
      rw [if_neg long]
      exact ⟨rfl, rfl⟩

/-- The first request is answered; if it goes on and bytes are left, so does `HandleRead` with them. -/
theorem written_first (files : Bytes → FileView) (looked : List Bytes) (sent : Bytes)
    {line after chunk : Bytes} {l : HeaderLine} {lines : List HeaderLine} (vacant : Vacant s)
    (first : CR ∉ line) (whole : s.inBuffer ++ chunk = requestBytes line (l :: lines) after)
    (small : (s.inBuffer ++ chunk).length < 2 ^ 31) :
    ((treatment files line (l :: lines)).reply = none ∧
        written (s.handleRead (steady files (arriving chunk) looked sent)) = none) ∨
      ∃ reply, (treatment files line (l :: lines)).reply = some reply ∧
        (¬ ((treatment files line (l :: lines)).GoesOn ∧ after.tail ≠ []) ∧
            written (s.handleRead (steady files (arriving chunk) looked sent)) = some (sent ++ reply) ∨
          (treatment files line (l :: lines)).GoesOn ∧ after.tail ≠ [] ∧
            ∃ s' looked', Vacant s' ∧ s'.inBuffer = after.tail ∧
              written (s.handleRead (steady files (arriving chunk) looked sent)) =
                written (s'.handleRead (steady files (arriving []) looked' (sent ++ reply)))) := by
  by_cases bad : decodeLine line = none ∨ ¬ ∀ m ∈ l :: lines, m.Fits
  · obtain ⟨refused, sends⟩ := written_refused files looked sent vacant first whole small bad
    rw [refused]
    exact .inr ⟨_, rfl, .inl ⟨fun goes => goes.1, sends⟩⟩
  rw [not_or, not_not] at bad
  obtain ⟨q, decoded⟩ := Option.ne_none_iff_exists'.mp bad.1
  obtain ⟨fields, same⟩ := exists_fields bad.2
  cases fields with
  | nil => cases same
  | cons f fields =>
      rw [same] at whole ⊢
      unfold requestBytes at whole
      rw [headerPart_map] at whole
      have size := congrArg List.length whole
      simp only [List.length_append, List.length_cons] at size small
      have answered := requestAnswer_treatment files (f :: fields) (by omega : line.length < 2 ^ 63)
        decoded after.tail
      have short : (headerSection (f :: fields)).length < 2 ^ 31 := by omega
      have small' : (s.inBuffer ++ chunk).length < 2 ^ 63 := by
        rw [List.length_append]
        omega
      rw [handleRead_eq]
      cases answers : requestAnswer files line (storeFields (fun _ => none) (f :: fields))
        after.tail with
      | error e =>
          rw [answers] at answered
          refine .inl ⟨by rw [answered]; rfl, ?_⟩
          rw [request_fault vacant whole first short small' (by omega) answers]
          rfl
      | ok a =>
          rw [answers] at answered
          obtain ⟨reply, goesOn⟩ := answered
          obtain ⟨again, s', looked', ran, done⟩ := steady_request files looked sent
            vacant whole first short small' (by omega) answers
          refine .inr ⟨a.sent, reply, ?_⟩
          rw [ran, ← goesOn]
          have calls := done.again
          cases again with
          | false =>
              refine .inl ⟨fun goes => ?_, rfl⟩
              simpa using calls.mpr goes
          | true =>
              obtain ⟨goes, left⟩ := calls.mp rfl
              obtain ⟨vacant', buffered⟩ := done.next goes
              exact .inr ⟨goes, left, s', looked', vacant', buffered, rfl⟩

end HttpData

namespace ClientRequest

theorem line_no_cr (r : ClientRequest) : CR ∉ r.line :=
  requestLine_no_cr r.method r.httpVersion r.oneWord.2

theorem line_cons (r : ClientRequest) : ∃ c cs, r.line = c :: cs := by
  unfold line requestLine methodName
  cases r.method <;> exact ⟨_, _, rfl⟩

theorem line_letters (r : ClientRequest) :
    versionOf (r.line.take 3) = none ∧ versionOf (r.line.tail.take 3) = none := by
  unfold line requestLine
  cases method : r.method with
  | methodPost => exact absurd method r.asks
  | methodGet | methodHead => exact ⟨rfl, rfl⟩

theorem keyword_of_differ {files : Bytes → FileView} (r : ClientRequest)
    (short : r.line.length < 2 ^ 31) (differ : r.beheaded files ≠ r.whole files) :
    ∃ method, keyword r.line = some (method, 0) ∧ method ≠ .methodPost := by
  have letters := r.line_letters
  obtain ⟨c, cs, line⟩ := r.line_cons
  unfold beheaded whole at differ
  rw [line] at letters short differ ⊢
  rcases treatment_tail files r.lines short letters with ⟨method, named⟩ | same
  · refine ⟨method, named, ?_⟩
    rintro rfl
    obtain ⟨more, starts⟩ := keyword_prefix short named
    rw [← line] at starts
    unfold ClientRequest.line requestLine at starts
    cases method : r.method with
    | methodPost => exact r.asks method
    | methodGet | methodHead =>
        rw [method] at starts
        exact absurd (List.cons.inj starts).1 (by decide)
  · exact absurd same differ

theorem bytes_tail (r : ClientRequest) (rest : Bytes) :
    (r.bytes ++ rest).tail = requestBytes r.line.tail r.lines rest := by
  obtain ⟨c, cs, line⟩ := r.line_cons
  unfold bytes requestBytes
  rw [line]
  simp only [List.cons_append, List.append_assoc, List.tail_cons, List.nil_append]

theorem bytes_append (r : ClientRequest) (rest : Bytes) :
    r.bytes ++ rest = requestBytes r.line r.lines rest := by
  unfold bytes requestBytes
  simp only [List.cons_append, List.append_assoc, List.nil_append]

theorem bytes_short_of_flatMap {rs : List ClientRequest}
    (small : (rs.flatMap bytes).length < 2 ^ 31) : ∀ x ∈ rs, x.bytes.length < 2 ^ 31 := by
  intro x here
  have part : x.bytes.length ≤ (rs.flatMap bytes).length :=
    (List.sublist_flatten_of_mem (List.mem_map_of_mem here)).length_le
  omega

theorem line_length_lt (r : ClientRequest) : r.line.length < r.bytes.length := by
  unfold bytes requestBytes
  simp only [List.length_append, List.length_cons]
  omega

end ClientRequest

/-- Requests that arrive together are answered one after the other, each but the first without the
    first byte of its line, until one ends the connection. -/
theorem HttpData.written_joined (files : Bytes → FileView) (looked : List Bytes) (sent : Bytes)
    {s : HttpData} {line chunk : Bytes} {l : HeaderLine} {lines : List HeaderLine}
    {rs : List ClientRequest} (vacant : Vacant s) (first : CR ∉ line)
    (whole : s.inBuffer ++ chunk = requestBytes line (l :: lines) (rs.flatMap ClientRequest.bytes))
    (small : (s.inBuffer ++ chunk).length < 2 ^ 31) :
    written (s.handleRead (steady files (arriving chunk) looked sent)) =
      (joined (treatment files line (l :: lines) :: rs.map (ClientRequest.beheaded files))).map
        (sent ++ ·) := by
  induction rs generalizing s line l lines chunk looked sent with
  | nil =>
      unfold joined
      rcases written_first files looked sent vacant first whole small with
        ⟨fails, stuck⟩ | ⟨reply, given, ⟨-, done⟩ | ⟨-, left, -⟩⟩
      · rw [stuck, fails]
        rfl
      · rw [done, given]
        dsimp only
        split_ifs
        · simp only [List.map_nil, joined, Option.map_some, List.append_nil]
        · rfl
      · exact absurd rfl left
  | cons q rs ih =>
      rw [List.flatMap_cons] at whole
      unfold joined
      rcases written_first files looked sent vacant first whole small with
        ⟨fails, stuck⟩ |
          ⟨reply, given, ⟨stops, done⟩ | ⟨goes, left, s', looked', vacant', buffered, later⟩⟩
      · rw [stuck, fails]
        rfl
      · have left : (q.bytes ++ rs.flatMap ClientRequest.bytes).tail ≠ [] := by
          rw [q.bytes_tail]
          simp [requestBytes]
        have ends : ¬ (treatment files line (l :: lines)).GoesOn := fun goes => stops ⟨goes, left⟩
        rw [done, given]
        dsimp only
        rw [if_neg ends]
        rfl
      · have second : CR ∉ q.line.tail := fun found => q.line_no_cr (List.mem_of_mem_tail found)
        have size := congrArg List.length whole
        have smaller : (s'.inBuffer ++ []).length < 2 ^ 31 := by
          rw [List.append_nil, buffered, List.length_tail]
          unfold requestBytes at size
          simp only [List.length_append, List.length_cons] at size small ⊢
          omega
        have whole' : s'.inBuffer ++ [] =
            requestBytes q.line.tail (q.first :: q.others) (rs.flatMap ClientRequest.bytes) := by
          rw [List.append_nil, buffered, q.bytes_tail]
          rfl
        have rest := ih looked' (sent ++ reply) vacant' second whole' smaller
        have behead : treatment files q.line.tail (q.first :: q.others) = q.beheaded files := rfl
        rw [later, rest, given, behead, List.map_cons]
        dsimp only
        rw [if_pos goes, Option.map_map]
        congr 1
        funext more
        exact List.append_assoc ..

theorem sentBy_joined (fd : Nat) (files : Bytes → FileView) (r : ClientRequest)
    (rs : List ClientRequest) (small : ((r :: rs).flatMap ClientRequest.bytes).length < 2 ^ 31) :
    sentBy fd files ((r :: rs).flatMap ClientRequest.bytes) =
      joined (r.whole files :: rs.map (ClientRequest.beheaded files)) := by
  have whole : (HttpData.new fd).inBuffer ++ (r :: rs).flatMap ClientRequest.bytes =
      requestBytes r.line (r.first :: r.others) (rs.flatMap ClientRequest.bytes) := by
    rw [List.flatMap_cons, r.bytes_append]
    rfl
  unfold sentBy
  rw [HttpData.written_joined files [] [] (HttpData.new_vacant fd) r.line_no_cr whole small]
  exact Option.map_id' ..

theorem joined_singleton (t : Treatment) : joined [t] = t.reply := by
  unfold joined
  cases t.reply with
  | none => rfl
  | some reply =>
      dsimp only
      split_ifs
      · simp only [joined, Option.map_some, List.append_nil]
      · rfl

theorem sentBy_alone (fd : Nat) (files : Bytes → FileView) (r : ClientRequest)
    (small : r.bytes.length < 2 ^ 31) : sentBy fd files r.bytes = (r.whole files).reply := by
  have one : [r].flatMap ClientRequest.bytes = r.bytes := List.append_nil _
  rw [← one, sentBy_joined fd files r [] (one ▸ small), List.map_nil, joined_singleton]

theorem pipelines_replies (fd : Nat) (files : Bytes → FileView) (r : ClientRequest)
    (rs : List ClientRequest) (small : ((r :: rs).flatMap ClientRequest.bytes).length < 2 ^ 31) :
    Pipelines fd files (r :: rs) ↔
      ∃ replies, List.Forall₂ (fun r reply => (r.whole files).reply = some reply) (r :: rs) replies ∧
        joined (r.whole files :: rs.map (ClientRequest.beheaded files)) = some replies.flatten := by
  have short := ClientRequest.bytes_short_of_flatMap small
  unfold Pipelines
  rw [sentBy_joined fd files r rs small]
  refine exists_congr fun replies => and_congr_left fun _ => ⟨fun each => ?_, fun each => ?_⟩
  · refine ((List.forall₂_and_left _ _).mpr ⟨short, each⟩).imp fun x reply ⟨part, sends⟩ => ?_
    rw [← sentBy_alone fd files x part, sends]
  · refine ((List.forall₂_and_left _ _).mpr ⟨short, each⟩).imp fun x reply ⟨part, sends⟩ => ?_
    rw [sentBy_alone fd files x part, sends]

section Necessity

variable {files : Bytes → FileView}

theorem Treatment.exists_reply {t : Treatment} (answers : t ≠ .thrown) :
    ∃ reply, t.reply = some reply := by
  cases t with
  | thrown => exact absurd rfl answers
  | _ => exact ⟨_, rfl⟩

theorem Treatment.reply_starts {t : Treatment} {reply : Bytes} (given : t.reply = some reply)
    (speaks : reply ≠ []) : text "HTTP/1.1 " <+: reply := by
  have marked : text "HTTP/1.1 " <+: t.mark := by
    have plain : ∀ t ∈ plain, text "HTTP/1.1 " <+: t.mark := by decide
    have icons : ∀ keepAlive, text "HTTP/1.1 " <+: (icon keepAlive).mark := by decide
    rcases t.mark_cases with empty | here | ⟨keepAlive, same, -⟩
    · have length := mark_length given speaks
      rw [empty] at length
      cases length
    · exact plain t here
    · exact same ▸ icons keepAlive
  rw [← reply_take given] at marked
  exact marked.trans (List.take_prefix _ _)

theorem Treatment.silent_of_reply {t : Treatment} (quiet : t.reply = some []) : t = .silent := by
  have marked := Treatment.reply_take quiet
  cases t with
  | silent => rfl
  | thrown => cases quiet
  | icon keepAlive | head keepAlive | page keepAlive => cases keepAlive <;> cases marked
  | _ => cases marked

theorem joined_follows {ts : List Treatment} {bytes : Bytes} (together : joined ts = some bytes) :
    Treatment.Follows bytes := by
  cases ts with
  | nil => exact .inl (Option.some.inj together).symm
  | cons t ts =>
      unfold joined at together
      cases given : t.reply with
      | none =>
          rw [given] at together
          cases together
      | some reply =>
          rw [given] at together
          dsimp only at together
          split_ifs at together with goes
          · obtain ⟨more, -, rfl⟩ := Option.map_eq_some_iff.mp together
            have speaks : reply ≠ [] := by
              rintro rfl
              rw [Treatment.silent_of_reply given] at goes
              exact goes
            exact .inr ((Treatment.reply_starts given speaks).trans (List.prefix_append _ _))
          · cases together
            by_cases speaks : bytes = []
            · exact .inl speaks
            · exact .inr (Treatment.reply_starts given speaks)

theorem flatten_follows {rs : List ClientRequest} {replies : List Bytes}
    (each : List.Forall₂ (fun r reply => (r.whole files).reply = some reply) rs replies) :
    Treatment.Follows replies.flatten := by
  induction each with
  | nil => exact .inl rfl
  | @cons r reply rs replies given _ ih =>
      rw [List.flatten_cons]
      by_cases speaks : reply = []
      · rw [speaks]
        exact ih
      · exact .inr ((Treatment.reply_starts given speaks).trans (List.prefix_append _ _))

theorem silent_of_flatten {rs : List ClientRequest} {replies : List Bytes}
    (each : List.Forall₂ (fun r reply => (r.whole files).reply = some reply) rs replies)
    (nothing : replies.flatten = []) : ∀ y ∈ rs, y.whole files = .silent := by
  induction each with
  | nil => exact nofun
  | cons given _ ih =>
      rw [List.flatten_cons, List.append_eq_nil_iff] at nothing
      rw [nothing.1] at given
      exact List.forall_mem_cons.mpr ⟨Treatment.silent_of_reply given, ih nothing.2⟩

theorem not_disguises_whole {x : ClientRequest} (short : x.line.length < 2 ^ 31) :
    ¬ (x.beheaded files).Disguises (x.whole files) := by
  obtain ⟨c, cs, line⟩ := x.line_cons
  unfold ClientRequest.beheaded ClientRequest.whole
  rw [line] at short ⊢
  intro disguised
  obtain ⟨method, pos, named, asked⟩ :=
    (treatment_askedBy files (c :: cs) x.lines).resolve_left disguised.accepted.2
  obtain ⟨method', pos', named', asked'⟩ :=
    (treatment_askedBy files cs x.lines).resolve_left disguised.accepted.1
  obtain ⟨rfl, rfl⟩ := disguised.methods asked' asked
  exact keyword_head_tail short named named'

/-- A later request that is treated otherwise without its first byte shows, unless it is disguised. -/
theorem disguised_of_joined {x : ClientRequest} {reply rest : Bytes} {ts : List Treatment}
    (short : x.line.length < 2 ^ 31) (differ : x.beheaded files ≠ x.whole files)
    (given : (x.whole files).reply = some reply) (follows : Treatment.Follows rest)
    (together : joined (x.beheaded files :: ts) = some (reply ++ rest)) :
    (x.whole files).Disguises (x.beheaded files) := by
  have speaks : reply ≠ [] := by
    rintro rfl
    obtain ⟨method, named, asks⟩ := x.keyword_of_differ short differ
    have silent := Treatment.silent_of_reply given
    unfold ClientRequest.whole at silent
    rcases treatment_askedBy files x.line x.lines with refused | ⟨method', pos, named', asked⟩
    · rw [refused] at silent
      cases silent
    · rw [named] at named'
      cases named'
      rw [silent] at asked
      exact asks asked
  obtain ⟨y, z, given', follows', same⟩ : ∃ y z, (x.beheaded files).reply = some y ∧
      Treatment.Follows z ∧ reply ++ rest = y ++ z := by
    unfold joined at together
    cases given' : (x.beheaded files).reply with
    | none =>
        rw [given'] at together
        cases together
    | some y =>
        rw [given'] at together
        dsimp only at together
        split_ifs at together
        · obtain ⟨z, later, same⟩ := Option.map_eq_some_iff.mp together
          exact ⟨y, z, rfl, joined_follows later, same.symm⟩
        · exact ⟨y, [], rfl, .inl rfl, by rw [List.append_nil]; exact (Option.some.inj together).symm⟩
  have speaks' : y ≠ [] := by
    rintro rfl
    have silent := Treatment.silent_of_reply given'
    unfold joined at together
    rw [silent] at together
    have nothing := Option.some.inj together
    exact speaks (List.append_eq_nil_iff.mp nothing.symm).1
  refine (Treatment.reply_apart (treatment_typed ..) (treatment_typed ..) differ.symm given given'
    speaks speaks' follows follows' same).resolve_right (not_disguises_whole short)

/-- Replies that are as expected together come from requests that survive. -/
theorem survives_of_joined {r : ClientRequest} {rs : List ClientRequest} {replies : List Bytes}
    (short : ∀ x ∈ rs, x.line.length < 2 ^ 31)
    (each : List.Forall₂ (fun r reply => (r.whole files).reply = some reply) (r :: rs) replies)
    (together : joined (r.whole files :: rs.map (ClientRequest.beheaded files)) =
      some replies.flatten) :
    Survives files r rs ∨ ∃ x ∈ rs, (x.whole files).Disguises (x.beheaded files) := by
  induction rs generalizing r replies with
  | nil =>
      obtain _ | ⟨given, -⟩ := each
      refine .inl fun thrown => ?_
      rw [thrown] at given
      cases given
  | cons x rest ih =>
      obtain _ | ⟨given, later⟩ := each
      unfold joined at together
      rw [given] at together
      dsimp only at together
      unfold Survives
      split_ifs at together ⊢ with goes
      · obtain ⟨more, behind, whole⟩ := Option.map_eq_some_iff.mp together
        obtain rfl := List.append_cancel_left whole
        rw [List.map_cons] at behind
        by_cases same : x.beheaded files = x.whole files
        · rw [same] at behind
          have shorter : ∀ y ∈ rest, y.line.length < 2 ^ 31 :=
            fun y there => short y (List.mem_cons_of_mem x there)
          rcases ih shorter later behind with survives | ⟨y, there, disguised⟩
          · exact .inl ⟨same, survives⟩
          · exact .inr ⟨y, List.mem_cons_of_mem x there, disguised⟩
        · obtain _ | ⟨given', later'⟩ := later
          exact .inr ⟨x, List.mem_cons_self, disguised_of_joined (short x List.mem_cons_self) same
            given' (flatten_follows later') behind⟩
      · have nothing := List.append_right_eq_self.mp (Option.some.inj together).symm
        refine .inl ⟨?_, silent_of_flatten later nothing⟩
        intro thrown
        rw [thrown] at given
        cases given

end Necessity

/-- Requests that survive bring together what each brings alone. -/
theorem joined_of_survives {files : Bytes → FileView} {r : ClientRequest} {rs : List ClientRequest}
    (survives : Survives files r rs) :
    ∃ replies, List.Forall₂ (fun r reply => (r.whole files).reply = some reply) (r :: rs) replies ∧
      joined (r.whole files :: rs.map (ClientRequest.beheaded files)) = some replies.flatten := by
  induction rs generalizing r with
  | nil =>
      obtain ⟨reply, given⟩ := Treatment.exists_reply survives
      refine ⟨[reply], .cons given .nil, ?_⟩
      rw [List.map_nil, joined_singleton, given, List.flatten_singleton]
  | cons x rest ih =>
      unfold Survives at survives
      split_ifs at survives with goes
      · obtain ⟨same, later⟩ := survives
        obtain ⟨replies, each, together⟩ := ih later
        have answers : r.whole files ≠ .thrown := by
          intro thrown
          rw [thrown] at goes
          exact goes
        obtain ⟨reply, given⟩ := Treatment.exists_reply answers
        refine ⟨reply :: replies, .cons given each, ?_⟩
        unfold joined
        rw [given, List.map_cons, same, together]
        dsimp only
        rw [if_pos goes]
        rfl
      · obtain ⟨answers, silent⟩ := survives
        obtain ⟨reply, given⟩ := Treatment.exists_reply answers
        refine ⟨reply :: (x :: rest).map fun _ => [], .cons given ?_, ?_⟩
        · refine List.forall₂_map_right_iff.mpr (List.forall₂_same.mpr fun y there => ?_)
          rw [silent y there]
          rfl
        · unfold joined
          rw [given]
          dsimp only
          rw [if_neg goes]
          simp

/-- Requests that arrive together bring what each brings alone if each later one asks for the same
    without the first byte of its line; otherwise one of them is taken for a `HEAD` of a file that
    begins like a reply. -/
theorem pipelined_survives (fd : Nat) (files : Bytes → FileView) (r : ClientRequest)
    (rs : List ClientRequest) (small : ((r :: rs).flatMap ClientRequest.bytes).length < 2 ^ 31) :
    (Survives files r rs → Pipelines fd files (r :: rs)) ∧
      (Pipelines fd files (r :: rs) →
        Survives files r rs ∨ ∃ x ∈ rs, (x.whole files).Disguises (x.beheaded files)) := by
  rw [pipelines_replies fd files r rs small]
  refine ⟨joined_of_survives, fun ⟨replies, each, together⟩ => survives_of_joined ?_ each together⟩
  intro x there
  exact x.line_length_lt.trans
    (ClientRequest.bytes_short_of_flatMap small x (List.mem_cons_of_mem r there))

theorem page_oneWord : SPACE ∉ text "/a.txt" ∧ CR ∉ text "/a.txt" := by decide

/-- A request for a file, with one header line. -/
def pageRequest : ClientRequest where
  method := .methodGet
  target := text "/a.txt"
  httpVersion := .http11
  first := firstField.toLine
  others := []
  asks := get_ne_post
  oneWord := page_oneWord

/-- A request whose query names the same resource once more. -/
def echoRequest : ClientRequest where
  method := .methodGet
  target := text "/hello?GET/hello"
  httpVersion := .http11
  first := firstField.toLine
  others := []
  asks := get_ne_post
  oneWord := by decide

theorem pipelined_survives_echo :
    Pipelines 5 (fun _ => .regular (text "x")) [pageRequest, echoRequest, echoRequest] :=
  (pipelined_survives 5 _ pageRequest [echoRequest, echoRequest] (by decide)).1 (by decide +kernel)

/-- `x` is the head of the reply that serves `z`, and `z` the end of the one that serves `y`. -/
def coincidentFiles (path : Bytes) : FileView :=
  let end_ := text "\r\n" ++ replyStart false ++ replyEnd (text "text/html") 1 ++ text "a"
  if path = text "x" then .regular (replyStart false ++ replyEnd (text "text/html") end_.length)
  else if path = text "y" then .regular (text "a")
  else .regular end_

-- Requests that do not survive and yet bring the same bytes.
example :
    let x := { echoRequest with target := text "/x?HEAD/x", oneWord := by decide }
    let y := { echoRequest with target := text "/y?GET/z", oneWord := by decide }
    ¬ Survives coincidentFiles echoRequest [x, y] ∧
      joined [echoRequest.whole coincidentFiles, x.beheaded coincidentFiles,
          y.beheaded coincidentFiles] =
        some ([echoRequest, x, y].filterMap fun r => (r.whole coincidentFiles).reply).flatten := by
  decide +kernel

/-- The second of two requests for the same file is answered with a `400`. -/
theorem second_request_lost :
    ¬ Pipelines 5 (fun _ => .regular (text "x")) [pageRequest, pageRequest] := by
  rintro ⟨replies, each, together⟩
  obtain _ | ⟨first, _ | ⟨second, _ | _⟩⟩ := each
  have alone : sentBy 5 (fun _ => .regular (text "x")) pageRequest.bytes = some _ := rfl
  rw [alone] at first second
  cases first
  cases second
  have lengths := congrArg (Option.map List.length) together
  revert lengths
  decide +kernel

end WebServer
