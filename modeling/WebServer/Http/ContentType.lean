import WebServer.Http.ReplyFormat

/-! # The content type of a served file

`AnalysisRequest` hands `GetMime` what follows the first dot of a file's name. A name with more dots
than the one of its extension gets the default type.
-/

namespace WebServer

open Lib

section Table

variable {suffix type e : Bytes}

theorem mime_mem (keyed : mime.lookup suffix = some type) : (suffix, type) ∈ mime := by
  obtain ⟨front, back, split, -⟩ := List.lookup_eq_some_iff.mp keyed
  rw [split]
  exact List.mem_append_right _ List.mem_cons_self

theorem mime_short (keyed : mime.lookup suffix = some type) : suffix.length ≤ 7 := by
  have table : ∀ entry ∈ mime, entry.1.length ≤ 7 := by decide
  exact table _ (mime_mem keyed)

theorem mime_oneDot (keyed : mime.lookup (DOT :: e) = some type) : DOT ∉ e := by
  have table : ∀ entry ∈ mime, entry.1.head? = some DOT → DOT ∉ entry.1.tail := by decide
  exact table _ (mime_mem keyed) rfl

theorem getMime_key (keyed : mime.lookup suffix = some type) : getMime suffix = type := by
  unfold getMime
  rw [keyed]

theorem getMime_other (other : mime.lookup suffix = none ∨ suffix.head? ≠ some DOT) :
    getMime suffix = text "text/html" := by
  have table : ∀ entry ∈ mime, entry.1.head? = some DOT ∨ entry.2 = text "text/html" := by decide
  unfold getMime
  cases keyed : mime.lookup suffix with
  | none => decide
  | some type =>
      have differs : suffix.head? ≠ some DOT := by
        rcases other with missing | differs
        · rw [missing] at keyed
          cases keyed
        · exact differs
      exact (table _ (mime_mem keyed)).resolve_left differs

theorem mime_take (long : 7 < suffix.length) : mime.lookup (suffix.take npos) = none := by
  cases keyed : mime.lookup (suffix.take npos) with
  | none => rfl
  | some type =>
      have short := mime_short keyed
      rw [List.length_take] at short
      norm_num [npos] at short
      omega

end Table

namespace HttpData

theorem fileTypeOf_dot {before : Bytes} (after : Bytes) (first : DOT ∉ before)
    (small : before.length < 2 ^ 31) :
    fileTypeOf (before ++ DOT :: after) = .ok (getMime ((DOT :: after).take npos)) := by
  have position : sizeT (before.length : Int) = before.length := sizeT_natCast (by omega)
  have inside : before.length ≤ (before ++ DOT :: after).length := by simp
  unfold fileTypeOf
  simp only [find_byte after first, toInt_of_lt small, position]
  rw [if_neg (by omega), substr_of_le npos inside, List.drop_left]
  rfl

/-- A dot farther back is taken for none, or for one where none is. -/
theorem fileTypeOf_far {before : Bytes} (after : Bytes) (first : DOT ∉ before)
    (large : 2 ^ 31 ≤ before.length) :
    fileTypeOf (before ++ DOT :: after) = .ok (text "text/html") := by
  unfold fileTypeOf
  simp only [find_byte after first]
  split_ifs with missing
  · exact congrArg Except.ok (getMime_key (by decide))
  · have position : sizeT (toInt before.length) < before.length := by
      have bound : toInt before.length < 2 ^ 31 := by
        simp only [toInt]
        split <;> omega
      simp only [sizeT]
      omega
    have inside : sizeT (toInt before.length) ≤ (before ++ DOT :: after).length := by
      rw [List.length_append]
      omega
    rw [substr_of_le npos inside, List.drop_append_of_le_length position.le]
    refine congrArg Except.ok (getMime_other (.inr ?_))
    cases rest : before.drop (sizeT (toInt before.length)) with
    | nil => exact absurd (List.drop_eq_nil_iff.mp rest) (by omega)
    | cons c cs =>
        have there : c ∈ before := List.mem_of_mem_drop (rest ▸ List.mem_cons_self)
        rw [List.cons_append, List.head?_take, if_neg (by decide), List.head?_cons]
        intro same
        exact first (Option.some.inj same ▸ there)

/-- The type of a file whose name ends in an extension of the table. -/
theorem fileTypeOf_extension (d : Bytes) {e type : Bytes} (keyed : mime.lookup (DOT :: e) = some type) :
    fileTypeOf (d ++ DOT :: e) =
      .ok (if DOT ∉ d ∧ d.length < 2 ^ 31 then type else text "text/html") := by
  by_cases dotted : DOT ∈ d
  · rw [if_neg fun alone => alone.1 dotted]
    obtain ⟨before, after, rfl, first⟩ := List.eq_append_cons_of_mem dotted
    rw [List.append_assoc, List.cons_append]
    rcases Nat.lt_or_ge before.length (2 ^ 31) with small | large
    · rw [fileTypeOf_dot _ first small]
      refine congrArg Except.ok (getMime_other (.inl ?_))
      by_cases long : 7 < (DOT :: (after ++ DOT :: e)).length
      · exact mime_take long
      · -- The name has a second dot behind the first.
        rw [List.take_of_length_le ((Nat.le_of_not_lt long).trans (by decide))]
        cases again : mime.lookup (DOT :: (after ++ DOT :: e)) with
        | none => rfl
        | some _ => exact absurd (by simp) (mime_oneDot again)
    · exact fileTypeOf_far _ first large
  · rcases Nat.lt_or_ge d.length (2 ^ 31) with small | large
    · have short := mime_short keyed
      rw [if_pos ⟨dotted, small⟩, fileTypeOf_dot e dotted small,
        List.take_of_length_le (short.trans (by decide)), getMime_key keyed]
    · rw [if_neg fun alone => by omega]
      exact fileTypeOf_far e dotted large

/-- The value of `Content-Type`. -/
def contentType (h : ResponseHead) : Option Bytes := fieldValue (text "Content-Type") h.fields

/-- The head of the `200` response that `AnalysisRequest` produces. -/
def Responds (s : HttpData) (k : Kernel) (head : ResponseHead) : Prop :=
  ∃ whole rest, produced s k = .ok whole ∧ parseHead whole = some (head, rest) ∧
    head.code = some 200

theorem replyHead_contentType (keepAlive : Bool) {fileType : Bytes} (typed : CR ∉ fileType)
    (length : Nat) : contentType (replyHead keepAlive typed length) =
      some (fileType.dropWhile (· = 32)) := by
  have key : 58 ∉ text "Content-Type" := by decide
  unfold contentType replyHead
  cases keepAlive with
  | false => exact fieldValue_here key
  | true =>
      have connection : (text "Connection").map lower ≠ (text "Content-Type").map lower := by decide
      have keep : (text "Keep-Alive").map lower ≠ (text "Content-Type").map lower := by decide
      exact (fieldValue_other _ (by decide) connection).trans
        ((fieldValue_other _ (by decide) keep).trans (fieldValue_here key))

variable {s : HttpData} {k : Kernel} {head : ResponseHead} {fileType : Bytes}

theorem produced_responds {size : Nat} {rest : Bytes} (typed : CR ∉ fileType)
    (answered : produced s k = .ok (s.fileHead fileType size ++ rest)) :
    Responds s k head ↔ head = replyHead (keepAliveRequested s.headers) typed size := by
  have read := parseHead_reply (keepAliveRequested s.headers) typed size rest
  constructor
  · rintro ⟨whole, left, answered', parsed, -⟩
    obtain rfl := Except.ok.inj (answered.symm.trans answered')
    have same := parsed.symm.trans read
    exact congrArg Prod.fst (Option.some.inj same)
  · rintro rfl
    have accepted : statusCode (text "HTTP/1.1 200 OK") = some 200 := by decide
    exact ⟨_, rest, answered, read, accepted⟩

/-- The answer to a request for a file is a `404`, or it begins with a served head. -/
theorem produced_cases (asks : s.method ≠ .methodPost) (typed : fileTypeOf s.fileName = .ok fileType)
    (hello : s.fileName ≠ text "hello") (icon : s.fileName ≠ text "favicon.ico") (k : Kernel) :
    (k.lookup (cstr s.fileName)).1.mapped = none ∧
        produced s k = .ok (errorBytes 404 (text "Not Found!")) ∨
      ∃ size rest, produced s k = .ok (s.fileHead fileType size ++ rest) := by
  cases method : s.method with
  | methodPost => exact absurd method asks
  | methodGet =>
      cases mapped : (k.lookup (cstr s.fileName)).1.mapped with
      | none => exact .inl ⟨rfl, produced_unmapped method typed hello icon mapped⟩
      | some body => exact .inr ⟨_, _, (produced_mapped method typed hello icon mapped).2⟩
  | methodHead =>
      cases sized : (k.lookup (cstr s.fileName)).1.stSize with
      | none =>
          have unmapped : (k.lookup (cstr s.fileName)).1.mapped = none := by
            cases view : (k.lookup (cstr s.fileName)).1 with
            | missing => rfl
            | unreadable | unmappable | regular => simp [view, FileView.stSize] at sized
          refine .inl ⟨unmapped, ?_⟩
          rw [produced_file asks typed hello icon, sized]
      | some size =>
          refine .inr ⟨size, [], ?_⟩
          rw [List.append_nil]
          exact produced_sized method typed hello icon sized

theorem exists_response (asks : s.method ≠ .methodPost) (hello : s.fileName ≠ text "hello")
    (readable : (k.lookup (cstr s.fileName)).1.mapped ≠ none) : ∃ head, Responds s k head := by
  by_cases icon : s.fileName = text "favicon.ico"
  · exact ⟨_, (produced_responds (by decide) (produced_icon asks icon)).mpr rfl⟩
  · obtain ⟨fileType, typed⟩ := fileTypeOf_returns s.fileName
    rcases produced_cases asks typed hello icon k with ⟨missing, -⟩ | ⟨size, rest, answered⟩
    · exact absurd missing readable
    · exact ⟨_, (produced_responds (fileTypeOf_no_cr typed) answered).mpr rfl⟩

theorem response_type (asks : s.method ≠ .methodPost) (typed : fileTypeOf s.fileName = .ok fileType)
    (hello : s.fileName ≠ text "hello") (icon : s.fileName ≠ text "favicon.ico")
    (responds : Responds s k head) : contentType head = some (fileType.dropWhile (· = 32)) := by
  rcases produced_cases asks typed hello icon k with ⟨-, refused⟩ | ⟨size, rest, answered⟩
  · obtain ⟨whole, left, answered, parsed, -⟩ := responds
    rw [← Except.ok.inj (refused.symm.trans answered), errorBytes_headless 404 (by decide)] at parsed
    cases parsed
  · rw [(produced_responds (fileTypeOf_no_cr typed) answered).mp responds]
    exact replyHead_contentType ..

theorem response_icon (asks : s.method ≠ .methodPost) (icon : s.fileName = text "favicon.ico")
    (responds : Responds s k head) : contentType head = some (text "image/png") := by
  rw [(produced_responds (by decide) (produced_icon asks icon)).mp responds]
  exact replyHead_contentType ..

theorem mime_trimmed {suffix type : Bytes} (keyed : mime.lookup suffix = some type) :
    type.dropWhile (· = 32) = type := by
  have table : ∀ entry ∈ mime, entry.2.dropWhile (· = 32) = entry.2 := by decide
  exact table _ (mime_mem keyed)

/-- A file's response has the type of the last extension if the name has no other dot, or if that type
    is the default one. The icon's response has another type than the table's. -/
theorem contentType_iff {d e type : Bytes} (asks : s.method ≠ .methodPost)
    (named : s.fileName = d ++ DOT :: e) (keyed : mime.lookup (DOT :: e) = some type)
    (responds : Responds s k head) :
    contentType head = some type ↔
      s.fileName ≠ text "favicon.ico" ∧
        (type = text "text/html" ∨ DOT ∉ d ∧ d.length < 2 ^ 31) := by
  have hello : s.fileName ≠ text "hello" := by
    intro same
    have dot : DOT ∈ text "hello" := by
      rw [← same, named]
      simp
    revert dot
    decide
  by_cases icon : s.fileName = text "favicon.ico"
  · have cut : d ++ DOT :: e = text "favicon" ++ DOT :: text "ico" := named.symm.trans icon
    have extension : e = text "ico" := by
      rcases cut_eq_cut cut (by decide) with ⟨-, same⟩ | ⟨more, -, longer⟩
      · exact same
      · have free : DOT ∉ text "ico" := by decide
        rw [longer] at free
        exact absurd (List.mem_append_right _ List.mem_cons_self) free
    subst extension
    have other : some (text "image/png") ≠ mime.lookup (DOT :: text "ico") := by decide
    rw [response_icon asks icon responds, ← keyed]
    exact iff_of_false other fun holds => holds.1 icon
  · have typed := fileTypeOf_extension d keyed
    rw [← named] at typed
    rw [response_type asks typed hello icon responds]
    split_ifs with alone
    · rw [mime_trimmed keyed]
      exact iff_of_true rfl ⟨icon, .inr alone⟩
    · have default : (text "text/html").dropWhile (· = 32) = text "text/html" := by decide
      rw [default, Option.some.injEq]
      exact ⟨fun same => ⟨icon, .inl same.symm⟩, fun holds => (holds.2.resolve_right alone).symm⟩

/-- A request for a file of that name. -/
def fileRequest (fileName : Bytes) : HttpData := { new 5 with fileName }

/-- A directory with one file of two bytes. -/
def oneFile : Kernel := steady (fun _ => .regular (text "hi")) [] [] []

theorem contentType_png :
    ∃ head, Responds (fileRequest (text "dir/a.png")) oneFile head ∧
      contentType head = some (text "image/png") := by
  have asks : (fileRequest (text "dir/a.png")).method ≠ .methodPost := nofun
  have keyed : mime.lookup (DOT :: text "png") = some (text "image/png") := by decide
  obtain ⟨head, responds⟩ := exists_response (k := oneFile) asks (by decide) (by decide)
  exact ⟨head, responds, (contentType_iff (d := text "dir/a") asks rfl keyed responds).mpr (by decide)⟩

/-- The second dot of a name hides the extension. -/
theorem contentType_twoDots :
    mime.lookup (DOT :: text "png") = some (text "image/png") ∧
      ∃ head, Responds (fileRequest (text "a.b.png")) oneFile head ∧
        contentType head ≠ some (text "image/png") := by
  have asks : (fileRequest (text "a.b.png")).method ≠ .methodPost := nofun
  have typed : fileTypeOf (text "a.b.png") = .ok (text "text/html") := by decide
  obtain ⟨head, responds⟩ := exists_response (k := oneFile) asks (by decide) (by decide)
  refine ⟨by decide, head, responds, ?_⟩
  rw [response_type asks typed (by decide) (by decide) responds]
  decide

end HttpData

end WebServer
