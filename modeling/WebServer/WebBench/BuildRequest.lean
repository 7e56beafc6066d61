import WebServer.Http.State
import WebServer.Lib.CString
import WebServer.Lib.Response

/-! # The request of the benchmark

`build_request` of WebBench puts a request together in an array, from a URL that it takes apart. It
bounds the length of the URL, but not what it copies into `host` and into its array for the port.
-/

namespace WebServer.WebBench

open Lib

inductive Method where
  | methodGet
  | methodHead
  | methodOptions
  | methodTrace
  deriving Repr, DecidableEq

/-- The global variables that the command line sets. -/
structure Options where
  method : Method
  /-- `0` for HTTP/0.9, `1` for HTTP/1.0 and `2` for HTTP/1.1. -/
  http10 : Nat
  forceReload : Bool
  keepAlive : Bool
  proxyhost : Option Bytes
  proxyport : Int

/-- `MAXHOSTNAMELEN` of the system. -/
def maxHostNameLen : Nat := 64

def requestSize : Nat := 2048

/-- The array for the port. -/
def tmpSize : Nat := 10

/-- The global variables that `build_request` sets. -/
structure Built where
  host : CharArray maxHostNameLen
  proxyport : Int
  request : CharArray requestSize

inductive Failure where
  /-- `exit(2)`, with a message. -/
  | exit
  | overrun (overrun : OutOfBounds)
  deriving Repr, DecidableEq

/-- What the C library does. -/
def checked {α : Type} (result : Except OutOfBounds α) : Except Failure α :=
  result.mapError .overrun

theorem checked_ok_iff {α : Type} {result : Except OutOfBounds α} {a : α} :
    checked result = .ok a ↔ result = .ok a := by
  unfold checked
  cases result with
  | error e => exact iff_of_false (fun same => by cases same) (fun same => by cases same)
  | ok b => exact ⟨fun same => congrArg Except.ok (Except.ok.inj same),
      fun same => congrArg Except.ok (Except.ok.inj same)⟩

/-- The version that is used. -/
def Options.version (o : Options) : Nat :=
  let http10 := if o.forceReload && o.proxyhost.isSome && o.http10 < 1 then 1 else o.http10
  let http10 := if o.method = .methodHead && http10 < 1 then 1 else http10
  let http10 := if o.method = .methodOptions && http10 < 2 then 2 else http10
  if o.method = .methodTrace && http10 < 2 then 2 else http10

def methodText : Method → Bytes
  | .methodHead => text "HEAD"
  | .methodOptions => text "OPTIONS"
  | .methodTrace => text "TRACE"
  | .methodGet => text "GET"

/-- Where the host begins, unless the URL is refused. -/
def hostStart (url : Bytes) : Except Failure Nat :=
  match search (text "://") url with
  | none => .error .exit
  | some i =>
      if 1500 < url.length then .error .exit
      else if (url.take 7).map lower ≠ text "http://" then .error .exit
      else if SLASH ∉ url.drop (i + 3) then .error .exit
      else .ok (i + 3)

/-- The host and the port of a URL, here from its host on. -/
def hostAndPort (url : Bytes) (proxyport : Int) :
    Except OutOfBounds (CharArray maxHostNameLen × Int) := do
  let host := CharArray.zeroed maxHostNameLen
  let slash := (upTo SLASH url).length
  let colon := (upTo COLON url).length
  if colon < slash then
    let host ← host.strncpy url colon
    let tmp ← (CharArray.zeroed tmpSize).strncpy (url.drop (colon + 1)) (slash - colon - 1)
    let port ← tmp.atoi
    .ok (host, if port = 0 then 80 else port)
  else
    let host ← host.strncpy url slash
    .ok (host, proxyport)

/-- A proxy gets the whole URL. -/
def hostAndTarget (o : Options) (url : Bytes) (i : Nat) :
    Except OutOfBounds (CharArray maxHostNameLen × Int × Bytes) :=
  match o.proxyhost with
  | none => do
      let (host, proxyport) ← hostAndPort (url.drop i) o.proxyport
      .ok (host, proxyport, (url.drop i).dropWhile (· ≠ SLASH))
  | some _ => .ok (CharArray.zeroed maxHostNameLen, o.proxyport, url)

/-- The line that names the host, unless a proxy does not need it. -/
def hostLine (o : Options) (host : CharArray maxHostNameLen) (request : CharArray requestSize) :
    Except OutOfBounds (CharArray requestSize) :=
  if o.proxyhost = none ∧ 0 < o.version then do
    let request ← request.strcat (text "Host: ")
    let name ← host.string
    let request ← request.strcat name
    request.strcat (text "\r\n")
  else .ok request

/-- What follows the target. -/
def finishRequest (o : Options) (host : CharArray maxHostNameLen) (request : CharArray requestSize) :
    Except OutOfBounds (CharArray requestSize) := do
  let request ← request.strcatIf (o.version = 1) (text " HTTP/1.0")
  let request ← request.strcatIf (o.version = 2) (text " HTTP/1.1")
  let request ← request.strcat (text "\r\n")
  let request ← request.strcatIf (0 < o.version) (text "User-Agent: WebBench 1.5\r\n")
  let request ← hostLine o host request
  let request ← request.strcatIf (o.forceReload ∧ o.proxyhost ≠ none) (text "Pragma: no-cache\r\n")
  let request ← request.strcatIf (1 < o.version ∧ ¬ o.keepAlive) (text "Connection: close\r\n")
  let request ← request.strcatIf (1 < o.version ∧ o.keepAlive) (text "Connection: Keep-Alive\r\n")
  request.strcatIf (0 < o.version) (text "\r\n")

/-- What follows the method. -/
def addTarget (o : Options) (url : Bytes) (i : Nat) (request : CharArray requestSize) :
    Except OutOfBounds Built := do
  let (host, proxyport, target) ← hostAndTarget o url i
  let request ← request.strcat target
  let request ← finishRequest o host request
  .ok { host, proxyport, request }

def buildRequest (o : Options) (url : Bytes) : Except Failure Built := do
  let request ← checked ((CharArray.zeroed requestSize).strcpy (methodText o.method))
  let request ← checked (request.strcat (text " "))
  let i ← hostStart url
  checked (addTarget o url i request)

def versionText (version : Nat) : Bytes :=
  (if version = 1 then text " HTTP/1.0" else []) ++ if version = 2 then text " HTTP/1.1" else []

def hostText (o : Options) (host : Bytes) : Bytes :=
  if o.proxyhost = none ∧ 0 < o.version then text "Host: " ++ host ++ text "\r\n" else []

/-- The header lines behind that of the host. -/
def optionText (o : Options) : Bytes :=
  (if o.forceReload ∧ o.proxyhost ≠ none then text "Pragma: no-cache\r\n" else []) ++
    (if 1 < o.version ∧ ¬ o.keepAlive then text "Connection: close\r\n" else []) ++
      if 1 < o.version ∧ o.keepAlive then text "Connection: Keep-Alive\r\n" else []

/-- What follows the target. -/
def finishText (o : Options) (host : Bytes) : Bytes :=
  versionText o.version ++ text "\r\n" ++
    (if 0 < o.version then text "User-Agent: WebBench 1.5\r\n" else []) ++ hostText o host ++
      optionText o ++ if 0 < o.version then text "\r\n" else []

variable {o : Options} (host : CharArray maxHostNameLen) (request : CharArray requestSize)

theorem hostLine_ok (room : request.content.length ≤ 1600)
    (named : o.proxyhost = none → 0 < o.version → host.content.length < maxHostNameLen) :
    ∃ b, hostLine o host request = .ok b ∧ b.content = request.content ++ hostText o host.content ∧
      b.content.length ≤ request.content.length + 71 := by
  unfold hostLine hostText
  split_ifs with names
  · have terminated := named names.1 names.2
    have prefixed : (text "Host: ").length = 6 := by decide
    have ended : (text "\r\n").length = 2 := by decide
    have size : requestSize = 2048 := rfl
    have most : maxHostNameLen = 64 := rfl
    obtain ⟨first, cat₁, content₁, length₁⟩ :=
      CharArray.strcat_ok (a := request) (s := text "Host: ") (by omega)
    obtain ⟨second, cat₂, content₂, length₂⟩ :=
      CharArray.strcat_ok (a := first) (s := host.content) (by omega)
    obtain ⟨third, cat₃, content₃, length₃⟩ :=
      CharArray.strcat_ok (a := second) (s := text "\r\n") (by omega)
    refine ⟨third, ?_, ?_, by omega⟩
    · simp only [cat₁, CharArray.string_ok terminated, cat₂, cat₃, bind, Except.bind]
    · rw [content₃, content₂, content₁]
      simp only [List.append_assoc]
  · exact ⟨request, rfl, (List.append_nil _).symm, Nat.le_add_right ..⟩

/-- The array has room for all of it. -/
theorem finishRequest_ok (room : request.content.length ≤ 1508)
    (named : o.proxyhost = none → 0 < o.version → host.content.length < maxHostNameLen) :
    ∃ b, finishRequest o host request = .ok b ∧
      b.content = request.content ++ finishText o host.content := by
  have size : requestSize = 2048 := rfl
  have v10 : (text " HTTP/1.0").length = 9 := by decide
  have v11 : (text " HTTP/1.1").length = 9 := by decide
  have ended : (text "\r\n").length = 2 := by decide
  have agent : (text "User-Agent: WebBench 1.5\r\n").length = 26 := by decide
  have pragma : (text "Pragma: no-cache\r\n").length = 18 := by decide
  have closes : (text "Connection: close\r\n").length = 19 := by decide
  have keeps : (text "Connection: Keep-Alive\r\n").length = 24 := by decide
  obtain ⟨a, cat₁, content₁, length₁⟩ := CharArray.strcatIf_ok (p := o.version = 1)
    (show request.content.length + (text " HTTP/1.0").length < requestSize by omega)
  obtain ⟨b, cat₂, content₂, length₂⟩ := CharArray.strcatIf_ok (p := o.version = 2)
    (show a.content.length + (text " HTTP/1.1").length < requestSize by omega)
  obtain ⟨c, cat₃, content₃, length₃⟩ :=
    CharArray.strcat_ok (a := b) (s := text "\r\n") (by omega)
  obtain ⟨d, cat₄, content₄, length₄⟩ := CharArray.strcatIf_ok (p := 0 < o.version)
    (show c.content.length + (text "User-Agent: WebBench 1.5\r\n").length < requestSize by omega)
  obtain ⟨e, cat₅, content₅, length₅⟩ := hostLine_ok host d (by omega) named
  obtain ⟨f, cat₆, content₆, length₆⟩ :=
    CharArray.strcatIf_ok (p := o.forceReload ∧ o.proxyhost ≠ none)
      (show e.content.length + (text "Pragma: no-cache\r\n").length < requestSize by omega)
  obtain ⟨g, cat₇, content₇, length₇⟩ := CharArray.strcatIf_ok (p := 1 < o.version ∧ ¬ o.keepAlive)
    (show f.content.length + (text "Connection: close\r\n").length < requestSize by omega)
  obtain ⟨h, cat₈, content₈, length₈⟩ := CharArray.strcatIf_ok (p := 1 < o.version ∧ o.keepAlive)
    (show g.content.length + (text "Connection: Keep-Alive\r\n").length < requestSize by omega)
  obtain ⟨i, cat₉, content₉, -⟩ := CharArray.strcatIf_ok (p := 0 < o.version)
    (show h.content.length + (text "\r\n").length < requestSize by omega)
  refine ⟨i, ?_, ?_⟩
  · unfold finishRequest
    simp only [cat₁, cat₂, cat₃, cat₄, cat₅, cat₆, cat₇, cat₈, bind, Except.bind]
    exact cat₉
  · rw [content₉, content₈, content₇, content₆, content₅, content₄, content₃, content₂, content₁]
    unfold finishText versionText optionText
    simp only [List.append_assoc]

variable {host request}

theorem ok_of_bind {ε α β : Type} {x : Except ε α} {f : α → Except ε β} {b : β}
    (ok : (x >>= f) = .ok b) : ∃ a, x = .ok a ∧ f a = .ok b := by
  cases x with
  | error e => cases ok
  | ok a => exact ⟨a, rfl, ok⟩

theorem finishRequest_named {b : CharArray requestSize} (ok : finishRequest o host request = .ok b)
    (direct : o.proxyhost = none) (names : 0 < o.version) : host.content.length < maxHostNameLen := by
  unfold finishRequest at ok
  obtain ⟨_, -, ok⟩ := ok_of_bind ok
  obtain ⟨_, -, ok⟩ := ok_of_bind ok
  obtain ⟨_, -, ok⟩ := ok_of_bind ok
  obtain ⟨_, -, ok⟩ := ok_of_bind ok
  obtain ⟨_, named, -⟩ := ok_of_bind ok
  unfold hostLine at named
  rw [if_pos ⟨direct, names⟩] at named
  obtain ⟨_, -, named⟩ := ok_of_bind named
  obtain ⟨_, read, -⟩ := ok_of_bind named
  unfold CharArray.string at read
  split_ifs at read with terminated
  exact terminated

/-- The URL is not refused. -/
def Accepted (url : Bytes) : Prop :=
  url.length ≤ 1500 ∧ (url.take 7).map lower = text "http://" ∧ SLASH ∈ url.drop 7

instance (url : Bytes) : Decidable (Accepted url) := inferInstanceAs (Decidable (_ ∧ _))

theorem lower_small {c b : UInt8} (same : lower c = b) (small : b < 97) : c = b := by
  unfold lower at same
  split_ifs at same with upper
  · grind
  · exact same

theorem scheme_found {url : Bytes} (scheme : (url.take 7).map lower = text "http://") :
    search (text "://") url = some 4 := by
  have spelled : text "http://" = [104, 116, 116, 112, 58, 47, 47] := by decide
  have mark : text "://" = [58, 47, 47] := by decide
  have letter {c b : UInt8} (same : lower c = b) (other : b ≠ 58) : c ≠ 58 := by
    rintro rfl
    exact other (same.symm.trans (by decide))
  rw [spelled] at scheme
  match url with
  | a :: b :: c :: d :: e :: f :: g :: rest =>
      simp only [List.take_succ_cons, List.take_zero, List.map_cons, List.map_nil, List.cons.injEq,
        and_true] at scheme
      obtain ⟨h, t₁, t₂, p, colon, slash₁, slash₂⟩ := scheme
      obtain rfl := lower_small colon (by decide)
      obtain rfl := lower_small slash₁ (by decide)
      obtain rfl := lower_small slash₂ (by decide)
      simp [mark, search, List.isPrefixOf, (letter h (by decide)).symm, (letter t₁ (by decide)).symm]
  | [] | [_] | [_, _] | [_, _, _] | [_, _, _, _] | [_, _, _, _, _] | [_, _, _, _, _, _] =>
      simp at scheme

theorem hostStart_eq (url : Bytes) :
    hostStart url = if Accepted url then .ok 7 else .error .exit := by
  unfold hostStart
  by_cases scheme : (url.take 7).map lower = text "http://"
  · rw [scheme_found scheme]
    dsimp only
    by_cases long : 1500 < url.length
    · rw [if_pos long, if_neg fun accepted => Nat.not_lt.mpr accepted.1 long]
    · rw [if_neg long, if_neg (not_not_intro scheme)]
      by_cases slash : SLASH ∈ url.drop 7
      · rw [if_neg (not_not_intro slash), if_pos ⟨Nat.not_lt.mp long, scheme, slash⟩]
      · rw [if_pos slash, if_neg fun accepted => slash accepted.2.2]
  · rw [if_neg fun accepted => scheme accepted.2.1]
    cases search (text "://") url with
    | none => rfl
    | some i =>
        dsimp only
        split_ifs
        · rfl
        · rfl

/-- The host of a URL, from its host on. -/
def hostName (url : Bytes) : Bytes := upTo COLON (upTo SLASH url)

/-- The bytes between the `:` behind the host and the `/`. -/
def portText (url : Bytes) : Bytes := (upTo SLASH url).drop ((hostName url).length + 1)

/-- `atoi` finds its end in the array for the port. -/
def PortFits (port : Bytes) : Prop :=
  port.length ≤ tmpSize ∧ ¬ ((CharArray.atoiDigits port).2 = [] ∧ port.length = tmpSize)

instance (port : Bytes) : Decidable (PortFits port) := inferInstanceAs (Decidable (_ ∧ _))

section Url

variable {url : Bytes}

theorem host_end (slash : SLASH ∈ url) :
    (∃ host port rest, COLON ∉ host ∧ SLASH ∉ host ++ COLON :: port ∧
      url = host ++ COLON :: (port ++ SLASH :: rest)) ∨
    ∃ host rest, COLON ∉ host ∧ SLASH ∉ host ∧ url = host ++ SLASH :: rest := by
  obtain ⟨front, rest, rfl, absent⟩ := List.eq_append_cons_of_mem slash
  by_cases colon : COLON ∈ front
  · obtain ⟨host, port, rfl, first⟩ := List.eq_append_cons_of_mem colon
    refine .inl ⟨host, port, rest, first, absent, ?_⟩
    rw [List.append_assoc, List.cons_append]
  · exact .inr ⟨front, rest, colon, absent, rfl⟩

variable {host port rest : Bytes}

theorem upTo_port (slash : SLASH ∉ host ++ COLON :: port) :
    upTo SLASH (host ++ COLON :: (port ++ SLASH :: rest)) = host ++ COLON :: port := by
  rw [← List.cons_append, ← List.append_assoc]
  exact upTo_cut rest slash

theorem drop_colon (s : Bytes) : (host ++ COLON :: s).drop (host.length + 1) = s := by
  rw [List.drop_append, List.drop_eq_nil_of_le (Nat.le_succ _), List.nil_append,
    Nat.add_sub_cancel_left, List.drop_succ_cons, List.drop_zero]

theorem hostName_port (colon : COLON ∉ host) (slash : SLASH ∉ host ++ COLON :: port) :
    hostName (host ++ COLON :: (port ++ SLASH :: rest)) = host := by
  unfold hostName
  rw [upTo_port slash, upTo_cut port colon]

theorem hostName_portless (colon : COLON ∉ host) (slash : SLASH ∉ host) :
    hostName (host ++ SLASH :: rest) = host := by
  unfold hostName
  rw [upTo_cut rest slash, upTo_absent colon]

theorem portText_port (colon : COLON ∉ host) (slash : SLASH ∉ host ++ COLON :: port) :
    portText (host ++ COLON :: (port ++ SLASH :: rest)) = port := by
  unfold portText
  rw [upTo_port slash, hostName_port colon slash, drop_colon]

theorem portText_portless (colon : COLON ∉ host) (slash : SLASH ∉ host) :
    portText (host ++ SLASH :: rest) = [] := by
  unfold portText
  rw [upTo_cut rest slash, hostName_portless colon slash]
  exact List.drop_eq_nil_of_le (Nat.le_succ _)

theorem hostAndPort_portless (proxyport : Int) (colon : COLON ∉ host) (slash : SLASH ∉ host) :
    hostAndPort (host ++ SLASH :: rest) proxyport =
      if fits : host.length ≤ maxHostNameLen then .ok (⟨host, fits⟩, proxyport)
      else .error .write := by
  have later : ¬ (upTo COLON (host ++ SLASH :: rest)).length < host.length := by
    have front : ∀ d ∈ host, (decide (d ≠ COLON)) = true := fun d there => by
      simpa using fun (same : d = COLON) => colon (same ▸ there)
    unfold upTo
    rw [List.takeWhile_append_of_pos front, List.length_append]
    omega
  unfold hostAndPort
  simp only [upTo_cut rest slash, if_neg later, CharArray.strncpy_append (SLASH :: rest) rfl]
  split_ifs
  · rfl
  · rfl

theorem hostAndPort_port (proxyport : Int) (colon : COLON ∉ host)
    (slash : SLASH ∉ host ++ COLON :: port) :
    hostAndPort (host ++ COLON :: (port ++ SLASH :: rest)) proxyport =
      if fits : host.length ≤ maxHostNameLen then
        if small : port.length ≤ tmpSize then
          (⟨port, small⟩ : CharArray tmpSize).atoi.map fun n =>
            (⟨host, fits⟩, if n = 0 then 80 else n)
        else .error .write
      else .error .write := by
  have length : (host ++ COLON :: port).length = host.length + port.length + 1 := by
    rw [List.length_append, List.length_cons, Nat.add_assoc]
  unfold hostAndPort
  simp only [upTo_port slash, upTo_cut (port ++ SLASH :: rest) colon, drop_colon, length,
    if_pos (show host.length < host.length + port.length + 1 by omega),
    CharArray.strncpy_append (COLON :: (port ++ SLASH :: rest)) rfl,
    CharArray.strncpy_append (n := host.length + port.length + 1 - host.length - 1) (s := port) (SLASH :: rest)
      (by omega)]
  split_ifs with fits small
  · cases number : (⟨port, small⟩ : CharArray tmpSize).atoi <;>
      simp only [bind, Except.bind, number, Except.map]
  · rfl
  · rfl
  · rfl

theorem portFits_iff (tmp : CharArray tmpSize) (holds : tmp.content = port) :
    PortFits port ↔ ∃ n, tmp.atoi = .ok n := by
  subst holds
  exact (and_iff_right tmp.within).trans CharArray.atoi_ok_iff.symm

theorem portFits_nil : PortFits [] := by decide

theorem hostAndPort_host {proxyport n : Int} {array : CharArray maxHostNameLen}
    (slash : SLASH ∈ url) (taken : hostAndPort url proxyport = .ok (array, n)) :
    array.content = hostName url := by
  rcases host_end slash with ⟨host, port, rest, colon, absent, rfl⟩ | ⟨host, rest, colon, absent, rfl⟩
  · rw [hostAndPort_port proxyport colon absent] at taken
    split_ifs at taken with fits small
    cases number : (⟨port, small⟩ : CharArray tmpSize).atoi with
    | error e => rw [number] at taken; cases taken
    | ok m =>
        rw [number] at taken
        cases taken
        exact (hostName_port colon absent).symm
  · rw [hostAndPort_portless proxyport colon absent] at taken
    split_ifs at taken with fits
    cases taken
    exact (hostName_portless colon absent).symm

/-- The copies stay within their arrays if and only if host and port are short. -/
theorem hostAndPort_returns_iff (proxyport : Int) (slash : SLASH ∈ url) :
    (∃ taken, hostAndPort url proxyport = .ok taken) ↔
      (hostName url).length ≤ maxHostNameLen ∧ PortFits (portText url) := by
  rcases host_end slash with ⟨host, port, rest, colon, absent, rfl⟩ | ⟨host, rest, colon, absent, rfl⟩
  · rw [hostAndPort_port proxyport colon absent, hostName_port colon absent,
      portText_port colon absent]
    split_ifs with fits small
    · rw [and_iff_right fits, portFits_iff ⟨port, small⟩ rfl]
      cases (⟨port, small⟩ : CharArray tmpSize).atoi with
      | error e =>
          apply iff_of_false
          · rintro ⟨_, ⟨⟩⟩
          · rintro ⟨_, ⟨⟩⟩
      | ok m => exact iff_of_true ⟨_, rfl⟩ ⟨m, rfl⟩
    · exact iff_of_false (by rintro ⟨_, ⟨⟩⟩) fun room => small room.2.1
    · exact iff_of_false (by rintro ⟨_, ⟨⟩⟩) fun room => fits room.1
  · rw [hostAndPort_portless proxyport colon absent, hostName_portless colon absent,
      portText_portless colon absent, and_iff_left portFits_nil]
    split_ifs with fits
    · exact iff_of_true ⟨_, rfl⟩ fits
    · exact iff_of_false (by rintro ⟨_, ⟨⟩⟩) fits

end Url

section Request

variable {url : Bytes}

theorem Accepted.slash (accepted : Accepted url) : SLASH ∈ url.drop 7 := accepted.2.2

/-- The host whose name the request holds. -/
def requestHost (o : Options) (url : Bytes) : Bytes :=
  if o.proxyhost = none then hostName (url.drop 7) else []

def requestTarget (o : Options) (url : Bytes) : Bytes :=
  if o.proxyhost = none then (url.drop 7).dropWhile (· ≠ SLASH) else url

def requestText (o : Options) (url : Bytes) : Bytes :=
  methodText o.method ++ SPACE :: (requestTarget o url ++ finishText o (requestHost o url))

theorem hostAndTarget_taken {array : CharArray maxHostNameLen} {n : Int} {target : Bytes}
    (accepted : Accepted url) (taken : hostAndTarget o url 7 = .ok (array, n, target)) :
    array.content = requestHost o url ∧ target = requestTarget o url := by
  unfold hostAndTarget at taken
  unfold requestHost requestTarget
  cases proxy : o.proxyhost with
  | none =>
      rw [proxy] at taken
      obtain ⟨⟨array, m⟩, found, same⟩ := ok_of_bind taken
      cases same
      exact ⟨hostAndPort_host accepted.slash found, rfl⟩
  | some name =>
      rw [proxy] at taken
      cases taken
      exact ⟨rfl, rfl⟩

theorem hostAndTarget_returns_iff (accepted : Accepted url) :
    (∃ taken, hostAndTarget o url 7 = .ok taken) ↔ (o.proxyhost = none →
      (hostName (url.drop 7)).length ≤ maxHostNameLen ∧ PortFits (portText (url.drop 7))) := by
  rw [← hostAndPort_returns_iff o.proxyport accepted.slash]
  unfold hostAndTarget
  cases o.proxyhost with
  | none =>
      constructor
      · rintro ⟨taken, found⟩ -
        obtain ⟨copied, found, -⟩ := ok_of_bind found
        exact ⟨copied, found⟩
      · intro direct
        obtain ⟨copied, found⟩ := direct rfl
        exact ⟨_, congrArg (· >>= _) found⟩
  | some name => exact iff_of_true ⟨_, rfl⟩ (fun direct => by cases direct)

/-- The copies of the URL stay within their arrays, and so does what reads them. -/
def Fits (o : Options) (url : Bytes) : Prop :=
  o.proxyhost = none →
    ((hostName (url.drop 7)).length ≤ maxHostNameLen ∧ PortFits (portText (url.drop 7))) ∧
      (0 < o.version → (hostName (url.drop 7)).length < maxHostNameLen)

instance (o : Options) (url : Bytes) : Decidable (Fits o url) := inferInstanceAs (Decidable (_ → _))

theorem requestTarget_length (accepted : Accepted url) : (requestTarget o url).length ≤ 1500 := by
  unfold requestTarget
  split_ifs
  · have shorter := ((url.drop 7).dropWhile_suffix (· ≠ SLASH)).length_le
    have dropped := List.length_drop (i := 7) (l := url)
    have whole := accepted.1
    omega
  · exact accepted.1

theorem addTarget_ok (accepted : Accepted url) (begun : request.content.length ≤ 8)
    (fits : Fits o url) : ∃ b, addTarget o url 7 request = .ok b := by
  have size : requestSize = 2048 := rfl
  have short := requestTarget_length (o := o) accepted
  obtain ⟨⟨host, proxyport, target⟩, taken⟩ :=
    (hostAndTarget_returns_iff accepted).mpr fun direct => (fits direct).1
  obtain ⟨name, rfl⟩ := hostAndTarget_taken accepted taken
  obtain ⟨longer, cat, -, length⟩ :=
    CharArray.strcat_ok (a := request) (s := requestTarget o url) (by omega)
  obtain ⟨whole, finished, -⟩ := finishRequest_ok (o := o) host longer
    (by omega) fun direct names => by
      have hostLength := (fits direct).2 names
      rwa [name, requestHost, if_pos direct]
  refine ⟨⟨host, proxyport, whole⟩, ?_⟩
  unfold addTarget
  simp only [taken, cat, finished, bind, Except.bind]

theorem addTarget_built {b : Built} (accepted : Accepted url) (begun : request.content.length ≤ 8)
    (built : addTarget o url 7 request = .ok b) :
    Fits o url ∧ b.request.content =
      request.content ++ (requestTarget o url ++ finishText o (requestHost o url)) := by
  have size : requestSize = 2048 := rfl
  have short := requestTarget_length (o := o) accepted
  obtain ⟨⟨host, proxyport, target⟩, taken, built⟩ := ok_of_bind built
  obtain ⟨name, rfl⟩ := hostAndTarget_taken accepted taken
  obtain ⟨longer, cat, content, length⟩ :=
    CharArray.strcat_ok (a := request) (s := requestTarget o url) (by omega)
  simp only [cat, bind, Except.bind] at built
  obtain ⟨whole, finished, built⟩ := ok_of_bind built
  cases built
  have names (direct : o.proxyhost = none) (version : 0 < o.version) :
      host.content.length < maxHostNameLen := finishRequest_named finished direct version
  constructor
  · intro direct
    refine ⟨(hostAndTarget_returns_iff accepted).mp ⟨_, taken⟩ direct, fun version => ?_⟩
    have hostLength := names direct version
    rwa [name, requestHost, if_pos direct] at hostLength
  · obtain ⟨other, same, text⟩ := finishRequest_ok (o := o) host longer
      (by omega) names
    rw [finished] at same
    cases same
    rw [text, content, name, List.append_assoc]

theorem methodText_length (method : Method) : (methodText method).length ≤ 7 := by
  cases method <;> decide

/-- The method is in the array when the URL is looked at. -/
theorem buildRequest_begun (o : Options) (url : Bytes) :
    ∃ begun : CharArray requestSize, begun.content = methodText o.method ++ [SPACE] ∧
      buildRequest o url =
        if Accepted url then checked (addTarget o url 7 begun) else .error .exit := by
  have size : requestSize = 2048 := rfl
  have method := methodText_length o.method
  have blank : text " " = [SPACE] := by decide
  obtain ⟨first, cat₁, content₁⟩ :
      ∃ a, (CharArray.zeroed requestSize).strcpy (methodText o.method) = .ok a ∧
        a.content = methodText o.method :=
    ⟨_, dif_pos (by omega), rfl⟩
  obtain ⟨begun, cat₂, content₂, -⟩ := CharArray.strcat_ok (a := first) (s := [SPACE]) (by
    rw [content₁, List.length_singleton]
    omega)
  refine ⟨begun, by rw [content₂, content₁], ?_⟩
  unfold buildRequest
  simp only [cat₁, blank, cat₂, checked, Except.mapError, bind, Except.bind, hostStart_eq]
  split_ifs
  · rfl
  · rfl

section Outcome

variable (o url)

theorem begun_short {begun : CharArray requestSize}
    (content : begun.content = methodText o.method ++ [SPACE]) : begun.content.length ≤ 8 := by
  rw [content, List.length_append, List.length_singleton]
  exact Nat.succ_le_succ (methodText_length o.method)

theorem buildRequest_exit_iff : buildRequest o url = .error .exit ↔ ¬ Accepted url := by
  obtain ⟨begun, -, same⟩ := buildRequest_begun o url
  rw [same]
  split_ifs with accepted
  · apply iff_of_false
    · intro exits
      cases added : addTarget o url 7 begun with
      | error e => rw [added] at exits; cases exits
      | ok b => rw [added] at exits; cases exits
    · exact not_not_intro accepted
  · exact iff_of_true rfl accepted

theorem buildRequest_ok_iff : (∃ b, buildRequest o url = .ok b) ↔ Accepted url ∧ Fits o url := by
  obtain ⟨begun, content, same⟩ := buildRequest_begun o url
  have short := begun_short o content
  rw [same]
  constructor
  · rintro ⟨b, returns⟩
    split_ifs at returns with accepted
    exact ⟨accepted, (addTarget_built accepted short (checked_ok_iff.mp returns)).1⟩
  · rintro ⟨accepted, fits⟩
    obtain ⟨b, added⟩ := addTarget_ok accepted short fits
    exact ⟨b, (if_pos accepted).trans (checked_ok_iff.mpr added)⟩

theorem buildRequest_text {b : Built} (returns : buildRequest o url = .ok b) :
    b.request.content = requestText o url := by
  obtain ⟨begun, content, same⟩ := buildRequest_begun o url
  rw [same] at returns
  split_ifs at returns with accepted
  rw [(addTarget_built accepted (begun_short o content) (checked_ok_iff.mp returns)).2, content,
    List.append_assoc, List.singleton_append]
  rfl

/-- The URL is what decides: it is refused, or what is copied from it leaves an array, or the array
    for the request holds the whole request, for which it is large enough. -/
theorem buildRequest_iff :
    (buildRequest o url = .error .exit ↔ ¬ Accepted url) ∧
      ((∃ b, buildRequest o url = .ok b) ↔ Accepted url ∧ Fits o url) ∧
      ∀ b, buildRequest o url = .ok b → b.request.content = requestText o url :=
  ⟨buildRequest_exit_iff o url, buildRequest_ok_iff o url, fun _ => buildRequest_text o url⟩

end Outcome

end Request

end WebServer.WebBench
