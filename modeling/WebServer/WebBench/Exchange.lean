import WebServer.Http.Fragmentation
import WebServer.Http.RequestLine
import WebServer.WebBench.BuildRequest

/-! # The benchmark and the server

What the server answers to the requests of WebBench. It knows two of the four methods and two of the
three versions.
-/

namespace WebServer.WebBench

open Lib HttpData

def Options.askedMethod (o : Options) : Option HttpMethod :=
  match o.method with
  | .methodGet => some .methodGet
  | .methodHead => some .methodHead
  | .methodOptions | .methodTrace => none

def Options.askedVersion (o : Options) : Option HttpVersion :=
  match o.version with
  | 1 => some .http10
  | 2 => some .http11
  | _ => none

/-- The server finds no other method in the target. -/
def Clear (o : Options) (target : Bytes) : Prop :=
  match o.askedMethod with
  | some method => Unambiguous method target
  | none => ∀ method, ¬ methodName method <:+: target

/-- The answer to a benchmark's request. -/
def benchAnswer (files : Bytes → FileView) (o : Options) (target : Bytes) : Answer :=
  match o.askedMethod, o.askedVersion with
  | some method, some httpVersion =>
      let keepAlive := 1 < o.version && o.keepAlive
      match servedReply files ⟨method, wordName target, httpVersion⟩ keepAlive with
      | some reply => { sent := reply, error := false, state := .stateParseUri, keepAlive }
      | none =>
          { sent := errorBytes 404 (text "Not Found!"), error := true, state := .stateAnalysis
            keepAlive }
  | _, _ =>
      { sent := errorBytes 400 (text "Bad Request"), error := true, state := .stateParseUri
        keepAlive := false }

variable {o : Options} {url t : Bytes}

/-- The request line as the benchmark writes it. -/
def benchLine (o : Options) (target : Bytes) : Bytes :=
  methodText o.method ++ SPACE :: (target ++ versionText o.version)

theorem versionText_asked {v : HttpVersion} (speaks : o.askedVersion = some v) :
    versionText o.version = SPACE :: (text "HTTP/" ++ versionName v) := by
  unfold Options.askedVersion at speaks
  split at speaks
  case h_1 one => cases speaks; rw [one]; rfl
  case h_2 two => cases speaks; rw [two]; rfl
  case h_3 => cases speaks

theorem versionText_none (silent : o.askedVersion = none) : versionText o.version = [] := by
  unfold Options.askedVersion at silent
  split at silent
  case h_1 => cases silent
  case h_2 => cases silent
  case h_3 one two =>
    unfold versionText
    rw [if_neg one, if_neg two, List.append_nil]

theorem methodText_asked {m : HttpMethod} (asks : o.askedMethod = some m) :
    methodText o.method = methodName m ∧ m ≠ .methodPost := by
  unfold Options.askedMethod at asks
  split at asks
  all_goals
    rename_i is
    rw [is]
    first
    | cases asks; exact ⟨rfl, by decide⟩
    | cases asks

theorem benchLine_asked {m : HttpMethod} {v : HttpVersion} (asks : o.askedMethod = some m)
    (speaks : o.askedVersion = some v) : benchLine o t = requestLine m t v := by
  unfold benchLine requestLine
  rw [(methodText_asked asks).1, versionText_asked speaks]

theorem methodText_free (method : Method) :
    SPACE ∉ methodText method ∧ SLASH ∉ methodText method ∧ CR ∉ methodText method := by
  cases method <;> decide

theorem methodName_free (m : HttpMethod) : SPACE ∉ methodName m ∧ SLASH ∉ methodName m := by
  cases m <;> decide

theorem versionText_foreign (o : Options) (m : HttpMethod) : ¬ methodName m <:+: versionText o.version := by
  cases speaks : o.askedVersion with
  | none =>
      rw [versionText_none speaks]
      cases m <;> decide
  | some v =>
      rw [versionText_asked speaks]
      cases v <;> cases m <;> decide

theorem methodText_foreign (foreign : o.askedMethod = none) (m : HttpMethod) :
    ¬ methodName m <:+: methodText o.method := by
  unfold Options.askedMethod at foreign
  cases method : o.method <;> rw [method] at foreign <;> cases foreign <;> cases m <;> decide

/-- The name of a method is found neither in the name of another nor in the version. -/
theorem keyword_foreign (foreign : o.askedMethod = none)
    (clear : ∀ m, ¬ methodName m <:+: t) : keyword (benchLine o (SLASH :: t)) = none := by
  have absent (m : HttpMethod) : find (benchLine o (SLASH :: t)) (methodName m) 0 = npos := by
    apply find_absent
    intro inside
    rcases infix_beside (methodName_free m).1 inside with here | later
    · exact methodText_foreign foreign m here
    have later : methodName m <:+: [] ++ SLASH :: (t ++ versionText o.version) := later
    rcases infix_beside (methodName_free m).2 later with here | later
    · cases m <;> revert here <;> decide
    cases speaks : o.askedVersion with
    | none =>
        rw [versionText_none speaks, List.append_nil] at later
        exact clear m later
    | some v =>
        have version := versionText_foreign o m
        rw [versionText_asked speaks] at later version
        rcases infix_beside (methodName_free m).1 later with here | later
        · exact clear m here
        · exact version (later.trans (List.suffix_cons ..).isInfix)
  have get := absent .methodGet
  have post := absent .methodPost
  have head := absent .methodHead
  unfold methodName at get post head
  unfold keyword
  rw [get, post, head]
  rfl

/-- Where a line has no version, its start is taken for one. -/
theorem lineRequest_unversioned {line name : Bytes} {c : UInt8} (line_eq : line = c :: name ++ SPACE :: SLASH :: t)
    (named : c ≠ 49) (slash : SLASH ∉ c :: name) (word : SPACE ∉ t) : lineRequest line = none := by
  have version : versionOf (line.take 3) = none := by
    rw [line_eq]
    unfold versionOf
    rw [if_neg, if_neg] <;> exact fun same => named (List.cons.inj same).1
  have front : SLASH ∉ c :: name ++ [SPACE] := by
    rw [List.mem_append, not_or]
    exact ⟨slash, by decide⟩
  unfold lineRequest
  cases keyword line with
  | none => rfl
  | some found =>
      obtain ⟨m, pos⟩ := found
      dsimp only
      by_cases more : SLASH ∈ line.drop pos
      · obtain ⟨gap, target, cut, first⟩ := List.eq_append_cons_of_mem more
        -- Behind every `/` of the line there is no blank.
        have wordless : SPACE ∉ target := by
          have whole : (line.take pos ++ gap) ++ SLASH :: target = (c :: name ++ [SPACE]) ++ SLASH :: t := by
            rw [List.append_assoc, ← cut, List.take_append_drop, line_eq, List.append_assoc]
            rfl
          rcases cut_eq_cut whole front with ⟨-, rfl⟩ | ⟨z, -, behind⟩
          · exact word
          · rw [behind] at word
            exact fun found => word (List.mem_append_right _ (List.mem_cons_of_mem _ found))
        rw [cut, dropWhile_cut target first]
        dsimp only
        rw [dropWhile_absent wordless]
        dsimp only
        rw [version]
        rfl
      · rw [dropWhile_absent more]
        dsimp only
        rw [version]
        rfl

theorem decodeLine_foreign (clear : Clear o t) (word : SPACE ∉ t)
    (short : (benchLine o (SLASH :: t)).length < 2 ^ 63)
    (foreign : o.askedMethod = none ∨ o.askedVersion = none) :
    decodeLine (benchLine o (SLASH :: t)) = none := by
  rw [decodeLine_request short]
  unfold Clear at clear
  cases asks : o.askedMethod with
  | none =>
      rw [asks] at clear
      unfold lineRequest
      rw [keyword_foreign asks clear]
  | some m =>
      rw [asks] at foreign
      have silent := foreign.resolve_left (Option.some_ne_none m)
      have line : benchLine o (SLASH :: t) = methodText o.method ++ SPACE :: SLASH :: t := by
        unfold benchLine
        rw [versionText_none silent, List.append_nil]
      have slash := (methodText_free o.method).2.1
      cases method : o.method <;> rw [method] at line slash <;>
        exact lineRequest_unversioned line (by decide) slash word

theorem versioned_pos {v : HttpVersion} (speaks : o.askedVersion = some v) : 0 < o.version := by
  unfold Options.askedVersion at speaks
  split at speaks
  case h_1 one => omega
  case h_2 two => omega
  case h_3 => cases speaks

def connectionValue (keepAlive : Bool) : Bytes := if keepAlive then text "Keep-Alive" else text "close"

theorem optionText_direct (direct : o.proxyhost = none) :
    optionText o =
      if 1 < o.version then headerLine (text "Connection") (connectionValue o.keepAlive) else [] := by
  unfold optionText connectionValue
  rw [if_neg fun proxied => proxied.2 direct]
  by_cases later : 1 < o.version
  · cases o.keepAlive with
    | false => simp [later, headerLine]; rfl
    | true => simp [later, headerLine]; rfl
  · simp [later]

/-- The header lines are well formed, and ask to keep the connection only in HTTP/1.1. -/
theorem bench_fields (host : Bytes) (direct : o.proxyhost = none) (versioned : 0 < o.version)
    (named : host ≠ []) (plain : ∀ c ∈ host, c ≠ LF ∧ c ≠ CR) (short : host.length < maxHostNameLen) :
    ∃ f fs, headerSection (f :: fs) = text "User-Agent: WebBench 1.5\r\n" ++ hostText o host ++
        optionText o ++ text "\r\n" ∧
      keepAliveRequested (storeFields (fun _ => none) (f :: fs)) = (1 < o.version && o.keepAlive) := by
  have most : maxHostNameLen = 64 := rfl
  let agent : Field :=
    { name := text "User-Agent", value := text "WebBench 1.5", named := by decide
      key := List.all_iff_forall_prop.mp (by decide), valued := by decide
      oneLine := List.all_iff_forall_prop.mp (by decide), fits := by decide }
  let hosted : Field :=
    { name := text "Host", value := host, named := by decide
      key := List.all_iff_forall_prop.mp (by decide), valued := named, oneLine := plain
      fits := by omega }
  let connection : Field :=
    { name := text "Connection", value := connectionValue o.keepAlive, named := by decide
      key := List.all_iff_forall_prop.mp (by decide)
      valued := by cases o.keepAlive <;> decide
      oneLine := by cases o.keepAlive <;> exact List.all_iff_forall_prop.mp (by decide)
      fits := by cases o.keepAlive <;> decide }
  have hostLine : hosted.bytes = hostText o host := by
    unfold hostText
    rw [if_pos ⟨direct, versioned⟩]
    simp [hosted, Field.bytes, headerLine]
    rfl
  by_cases later : 1 < o.version
  · refine ⟨agent, [hosted, connection], ?_, ?_⟩
    · rw [optionText_direct direct, if_pos later, ← hostLine]
      simp [headerSection]
      rfl
    · have asked : storeFields (fun _ => none) [agent, hosted, connection] (text "Connection") =
          some (connectionValue o.keepAlive) := by
        simp [storeFields, connection]
      unfold keepAliveRequested
      rw [asked]
      cases o.keepAlive <;> simp [later] <;> decide
  · refine ⟨agent, [hosted], ?_, ?_⟩
    · rw [optionText_direct direct, if_neg later, ← hostLine]
      simp [headerSection]
      rfl
    · have asked : storeFields (fun _ => none) [agent, hosted] (text "Connection") = none := rfl
      unfold keepAliveRequested
      rw [asked]
      simp [later]

theorem finishText_asked {host : Bytes} (versioned : 0 < o.version) :
    finishText o host = versionText o.version ++ CR :: LF ::
      (text "User-Agent: WebBench 1.5\r\n" ++ hostText o host ++ optionText o ++ text "\r\n") := by
  unfold finishText
  rw [if_pos versioned, if_pos versioned]
  simp only [List.append_assoc]
  rfl

theorem finishText_line (o : Options) (host : Bytes) :
    ∃ rest, finishText o host = versionText o.version ++ CR :: rest := by
  unfold finishText
  simp only [List.append_assoc]
  exact ⟨_, rfl⟩

theorem benchLine_no_cr (o : Options) (oneLine : CR ∉ t) : CR ∉ benchLine o (SLASH :: t) := by
  have version : CR ∉ versionText o.version := by
    cases speaks : o.askedVersion with
    | none =>
        rw [versionText_none speaks]
        exact List.not_mem_nil
    | some v =>
        rw [versionText_asked speaks]
        cases v <;> decide
  have blanks : CR ≠ SPACE ∧ CR ≠ SLASH := by decide
  unfold benchLine
  simp [(methodText_free o.method).2.2, blanks, oneLine, version]

theorem requestTarget_direct (accepted : Accepted url) (direct : o.proxyhost = none) :
    ∃ t, requestTarget o url = SLASH :: t ∧ ∀ c ∈ t, c ∈ url := by
  obtain ⟨gap, t, cut, first⟩ := List.eq_append_cons_of_mem accepted.slash
  refine ⟨t, ?_, fun c there => List.mem_of_mem_drop (i := 7) ?_⟩
  · unfold requestTarget
    rw [if_pos direct, cut, dropWhile_cut t first]
  · rw [cut]
    exact List.mem_append_right _ (List.mem_cons_of_mem _ there)

theorem mem_hostName {c : UInt8} {s : Bytes} (there : c ∈ hostName s) : c ∈ s := by
  have inside := (List.takeWhile_prefix (l := upTo SLASH s) (· ≠ COLON)).subset there
  exact (List.takeWhile_prefix (l := s) (· ≠ SLASH)).subset inside

/-- What an encoded request is answered. -/
theorem outcome_encoded (fd : Nat) (files : Bytes → FileView) {m : HttpMethod} {v : HttpVersion}
    {f : Field} {fs : List Field} (asks : m ≠ .methodPost) (word : SPACE ∉ t) (oneLine : CR ∉ t)
    (short : (requestLine m (SLASH :: t) v).length + (headerSection (f :: fs)).length + 2 < 2 ^ 31)
    (unambiguous : Unambiguous m t) :
    outcome fd files [requestLine m (SLASH :: t) v ++ CR :: LF :: headerSection (f :: fs)] =
      answer files ⟨m, wordName t, v⟩ (storeFields (fun _ => none) (f :: fs)) [] := by
  have free : SPACE ∉ SLASH :: t ∧ CR ∉ SLASH :: t := by
    rw [List.mem_cons, List.mem_cons, not_or, not_or]
    exact ⟨⟨by decide, word⟩, by decide, oneLine⟩
  have whole := outcome_whole fd files
    { method := m, target := SLASH :: t, httpVersion := v, first := f, others := fs, asks
      oneWord := free, short }
  have decoded : decodeLine (requestLine m (SLASH :: t) v) = some ⟨m, wordName t, v⟩ := by
    rw [decodeLine_request (by omega)]
    exact lineRequest_encoded word unambiguous
  apply whole.trans
  unfold requestAnswer Request.line
  dsimp only
  rw [decoded]
  rfl

theorem outcome_foreign (fd : Nat) (files : Bytes → FileView) {host content : Bytes}
    (written : content = methodText o.method ++ SPACE :: (SLASH :: t ++ finishText o host))
    (small : content.length < 2 ^ 31) (clear : Clear o t) (word : SPACE ∉ t) (oneLine : CR ∉ t)
    (foreign : o.askedMethod = none ∨ o.askedVersion = none) :
    outcome fd files [content] = .ok (benchAnswer files o t) := by
  obtain ⟨rest, finish⟩ := finishText_line o host
  have parts : content = benchLine o (SLASH :: t) ++ CR :: rest := by
    rw [written, finish]
    unfold benchLine
    simp only [List.append_assoc, List.cons_append]
  have short := congrArg List.length parts
  rw [List.length_append] at short
  rw [outcome_refused fd files (decodeLine_foreign clear word (by omega) foreign)
    (benchLine_no_cr o oneLine) (.inr ⟨rest, parts⟩) small []]
  unfold benchAnswer
  rcases foreign with asks | speaks
  · rw [asks]
  · rw [speaks]
    cases o.askedMethod <;> rfl

theorem outcome_known (fd : Nat) (files : Bytes → FileView) {host content : Bytes} {m : HttpMethod}
    {v : HttpVersion}
    (written : content = methodText o.method ++ SPACE :: (SLASH :: t ++ finishText o host))
    (small : content.length < 2 ^ 31) (direct : o.proxyhost = none) (named : host ≠ [])
    (plain : ∀ c ∈ host, c ≠ LF ∧ c ≠ CR) (short : host.length < maxHostNameLen)
    (clear : Clear o t) (word : SPACE ∉ t) (oneLine : CR ∉ t) (asks : o.askedMethod = some m)
    (speaks : o.askedVersion = some v) :
    outcome fd files [content] = .ok (benchAnswer files o t) := by
  have versioned := versioned_pos speaks
  obtain ⟨f, fs, fields, keep⟩ := bench_fields host direct versioned named plain short
  have parts : content = requestLine m (SLASH :: t) v ++ CR :: LF :: headerSection (f :: fs) := by
    rw [written, finishText_asked versioned, fields, ← benchLine_asked asks speaks]
    unfold benchLine
    simp only [List.append_assoc, List.cons_append]
  have length := congrArg List.length parts
  rw [List.length_append, List.length_cons, List.length_cons] at length
  have unambiguous : Unambiguous m t := by
    unfold Clear at clear
    rwa [asks] at clear
  rw [parts, outcome_encoded fd files (methodText_asked asks).2 word oneLine (by omega) unambiguous]
  unfold answer benchAnswer
  rw [if_neg (methodText_asked asks).2, keep, asks, speaks]
  dsimp only
  cases servedReply files ⟨m, wordName t, v⟩ (1 < o.version && o.keepAlive) with
  | none => rfl
  | some reply => rfl

/-- A request that the server knows is answered as any such request, with the file or with a `404`;
    all others are answered `400`. -/
theorem exchange (fd : Nat) (files : Bytes → FileView) {b : Built}
    (returns : buildRequest o url = .ok b) (direct : o.proxyhost = none)
    (plain : ∀ c ∈ url, c ≠ LF ∧ c ≠ CR ∧ c ≠ SPACE) (named : hostName (url.drop 7) ≠ [])
    (clear : Clear o (requestTarget o url).tail) :
    outcome fd files [b.request.content] = .ok (benchAnswer files o (requestTarget o url).tail) := by
  obtain ⟨accepted, fits⟩ := (buildRequest_ok_iff o url).mp ⟨b, returns⟩
  obtain ⟨t, target, inside⟩ := requestTarget_direct (o := o) accepted direct
  have written := buildRequest_text o url returns
  have size : requestSize = 2048 := rfl
  have within := b.request.within
  have word : SPACE ∉ t := fun there => (plain SPACE (inside SPACE there)).2.2 rfl
  have oneLine : CR ∉ t := fun there => (plain CR (inside CR there)).2.1 rfl
  rw [target, List.tail_cons] at clear ⊢
  unfold requestText at written
  rw [target] at written
  by_cases foreign : o.askedMethod = none ∨ o.askedVersion = none
  · exact outcome_foreign fd files written (by omega) clear word oneLine foreign
  · rw [not_or] at foreign
    obtain ⟨m, asks⟩ := Option.ne_none_iff_exists'.mp foreign.1
    obtain ⟨v, speaks⟩ := Option.ne_none_iff_exists'.mp foreign.2
    have host : requestHost o url = hostName (url.drop 7) := if_pos direct
    rw [host] at written
    apply outcome_known fd files written (by omega) direct named _ _ clear word oneLine asks speaks
    · intro c there
      have whole := plain c (List.mem_of_mem_drop (mem_hostName there))
      exact ⟨whole.1, whole.2.1⟩
    · exact (fits direct).2 (versioned_pos speaks)

/-- The benchmark of a file. -/
def getOptions : Options where
  method := .methodGet
  http10 := 2
  forceReload := false
  keepAlive := true
  proxyhost := none
  proxyport := 80

theorem exchange_file : ∃ b, buildRequest getOptions (text "http://localhost:8888/a.txt") = .ok b ∧
    outcome 5 (fun _ => .regular (text "x")) [b.request.content] =
      .ok (benchAnswer (fun _ => .regular (text "x")) getOptions (text "a.txt")) := by
  obtain ⟨b, returns⟩ := (buildRequest_ok_iff getOptions (text "http://localhost:8888/a.txt")).mpr
    (by decide)
  exact ⟨b, returns, exchange 5 _ returns rfl (List.all_iff_forall_prop.mp (by decide)) (by decide)
    trivial⟩

end WebServer.WebBench
