import WebServer.Http.Escape
import WebServer.Http.Request
import WebServer.Http.Session
import WebServer.Http.Verdict

/-! # The slices of `ParseHeaders`

A line is stored under a key and a value that are cut out of `str` at the four indices. Only a call
that begins the line has set the indices of its key, so it matters at which bytes the calls before it
stopped.
-/

namespace WebServer

open Lib

namespace HttpData

/-- In a scan from `l` on, `H_CR` builds key and value with the indices of `m`. -/
inductive Builds (str : Bytes) : Nat → Bytes → HeaderLoop → HeaderLoop → Prop where
  | here {i rest l} : l.notFinished = true → l.hState = .hCr → Builds str i (LF :: rest) l l
  | later {i c rest l l' m} : l.notFinished = true → headerStep str i c l = .ok (.next l') →
      Builds str (i + 1) rest l' m → Builds str i (c :: rest) l m

/-- The indices cut a key and a value out of `str`. -/
structure CutsInside (str : Bytes) (l : HeaderLoop) : Prop where
  keyStart : 0 ≤ l.keyStart
  key : l.keyStart < l.keyEnd
  keyEnd : l.keyEnd ≤ str.length
  valueStart : 0 ≤ l.valueStart
  value : l.valueStart < l.valueEnd
  valueEnd : l.valueEnd ≤ str.length

/-- Every key and every value of a call of `ParseHeaders` is cut out of `str`. -/
def SlicesInside (s : HttpData) : Prop :=
  ∀ l, Builds s.inBuffer 0 s.inBuffer { hState := s.hState, headers := s.headers } l →
    CutsInside s.inBuffer l

variable {str rest : Bytes} {i : Nat} {c : UInt8} {l l' m : HeaderLoop}

theorem builds_next (open_ : l.hState ≠ .hCr) (running : l.notFinished = true)
    (moved : headerStep str i c l = .ok (.next l')) :
    Builds str i (c :: rest) l m ↔ Builds str (i + 1) rest l' m := by
  constructor
  · intro builds
    cases builds with
    | here _ state => exact absurd state open_
    | later _ moved' later =>
        rw [moved] at moved'
        cases moved'
        exact later
  · exact .later running moved

theorem builds_reject (open_ : l.hState ≠ .hCr)
    (refused : headerStep str i c l = .ok (.reject l')) : ¬ Builds str i (c :: rest) l m := by
  intro builds
  cases builds with
  | here _ state => exact open_ state
  | later _ moved later =>
      rw [refused] at moved
      cases moved

theorem builds_nil : ¬ Builds str i [] l m := nofun

theorem Builds.inside (builds : Builds str i rest l m) (indexed : Indexed i l)
    (whole : i + rest.length = str.length) (short : str.length < 2 ^ 31) : CutsInside str m := by
  induction builds with
  | @here i rest l running state =>
      obtain ⟨-, indices⟩ := indexed
      simp only [state] at indices
      rw [List.length_cons] at whole
      obtain ⟨keyStart, key, keyEnd, valueStart, value, valueEnd⟩ := indices
      exact ⟨keyStart, key, by omega, valueStart, value, by omega⟩
  | @later i c rest l l' m running moved _ ih =>
      rw [List.length_cons] at whole
      refine ih ?_ (by omega)
      rcases headerStep_indexed (c := c) indexed (by omega) short with
        ⟨l₁, refused⟩ | ⟨l₁, moved', indexed'⟩
      · rw [refused] at moved
        cases moved
      · rw [moved'] at moved
        cases moved
        exact indexed'

theorem Builds.outside (builds : Builds str i rest l m) (mid : MidLine l.hState)
    (lost : l.keyStart < 0) : m.keyStart < 0 := by
  induction builds with
  | here => exact lost
  | @later i c rest l l' m running moved _ ih =>
      by_cases finish : l.hState = .hCr ∧ c = LF
      · obtain ⟨e, raised⟩ := headerStep_finish str i finish.1 finish.2 lost
        rw [raised] at moved
        cases moved
      · rcases headerStep_mid str i mid finish with ⟨l₁, refused⟩ | ⟨l₁, moved', same, -⟩
        · rw [refused] at moved
          cases moved
        · rw [moved'] at moved
          cases moved
          exact ih same.mid (same.keyStart ▸ lost)

/-- The rest of a value, up to the end of its line, when `taken` of its bytes are already counted. -/
def ValueRest (taken : Nat) (str : Bytes) : Prop :=
  ∃ value rest, str = value ++ CR :: LF :: rest ∧ CR ∉ value ∧ taken + value.length ≤ 256

/-- The bytes finish the line in which a call resumes. -/
def LineRest : ParseState → Bytes → Prop
  | .hKey, str => ∃ key c rest, str = key ++ COLON :: SPACE :: c :: rest ∧
      (∀ c ∈ key, c ≠ COLON ∧ c ≠ LF ∧ c ≠ CR) ∧ ValueRest 1 rest
  | .hColon, str => ∃ c rest, str = SPACE :: c :: rest ∧ ValueRest 1 rest
  | .hSpacesAfterColon, str => ∃ c rest, str = c :: rest ∧ ValueRest 1 rest
  -- The value has no start, so its bytes are counted from `-1` on.
  | .hValue, str => ValueRest 1 str
  | .hCr, str => ∃ rest, str = LF :: rest
  | .hStart, _ | .hLf, _ | .hEndCr, _ | .hEndLf, _ => False

theorem builds_cr (state : l.hState = .hCr) (running : l.notFinished = true) :
    (∃ m, Builds str i rest l m) ↔ LineRest .hCr rest := by
  constructor
  · rintro ⟨m, builds⟩
    cases builds with
    | here => exact ⟨_, rfl⟩
    | @later _ c rest _ l' _ _ moved _ =>
        by_cases lf : c = LF
        · exact ⟨rest, by rw [lf]⟩
        · unfold headerStep at moved
          simp only [state, if_neg lf] at moved
          cases moved
  · rintro ⟨rest, rfl⟩
    exact ⟨l, .here running state⟩

theorem valueRest_cr {taken : Nat} (room : taken ≤ 256) :
    ValueRest taken (CR :: rest) ↔ LineRest .hCr rest := by
  constructor
  · rintro ⟨value, back, split, no_cr, -⟩
    cases value with
    | nil => exact ⟨back, (List.cons.inj split).2⟩
    | cons d value =>
        rw [(List.cons.inj split).1] at no_cr
        exact absurd List.mem_cons_self no_cr
  · rintro ⟨back, rfl⟩
    exact ⟨[], back, rfl, List.not_mem_nil, room⟩

theorem valueRest_cons {taken : Nat} (other : c ≠ CR) :
    ValueRest taken (c :: rest) ↔ ValueRest (taken + 1) rest := by
  constructor
  · rintro ⟨value, back, split, no_cr, room⟩
    cases value with
    | nil => exact absurd (List.cons.inj split).1 other
    | cons d value =>
        rw [List.mem_cons, not_or] at no_cr
        rw [List.length_cons] at room
        exact ⟨value, back, (List.cons.inj split).2, no_cr.2, by omega⟩
  · rintro ⟨value, back, rfl, no_cr, room⟩
    refine ⟨c :: value, back, rfl, ?_, ?_⟩
    · rw [List.mem_cons, not_or]
      exact ⟨other.symm, no_cr⟩
    · rw [List.length_cons]
      omega

theorem valueRest_room {taken : Nat} (rests : ValueRest taken rest) : taken ≤ 256 := by
  obtain ⟨value, back, -, -, room⟩ := rests
  omega

theorem builds_value {taken : Nat} (state : l.hState = .hValue) (running : l.notFinished = true)
    (counted : (i : Int) - l.valueStart = taken) (some_taken : 0 < taken)
    (short : i + rest.length < 2 ^ 31) (room : taken ≤ 256) :
    (∃ m, Builds str i rest l m) ↔ ValueRest taken rest := by
  have open_ : l.hState ≠ .hCr := by simp [state]
  induction rest generalizing i taken with
  | nil =>
      constructor
      · rintro ⟨m, builds⟩
        exact absurd builds builds_nil
      · rintro ⟨value, back, split, -⟩
        simp at split
  | cons c rest ih =>
      rw [List.length_cons] at short
      have position : toInt i = i := toInt_of_lt (by omega)
      by_cases cr : c = CR
      · subst cr
        have moved : headerStep str i CR l =
            .ok (.next { l with hState := .hCr, valueEnd := toInt i }) := by
          unfold headerStep
          simp only [state, if_true, position]
          rw [if_neg (by omega)]
        rw [valueRest_cr room]
        simp only [builds_next open_ running moved]
        exact builds_cr rfl running
      · rw [valueRest_cons cr]
        have offset : sizeT (i - l.valueStart) = taken := by
          unfold sizeT
          omega
        by_cases long : taken > 255
        · have refused : headerStep str i c l = .ok (.reject l) := by
            unfold headerStep
            simp only [state, if_neg cr, offset, if_pos long]
          constructor
          · rintro ⟨m, builds⟩
            exact absurd builds (builds_reject open_ refused)
          · intro rests
            have := valueRest_room rests
            omega
        · have moved : headerStep str i c l = .ok (.next l) := by
            unfold headerStep
            simp only [state, if_neg cr, offset, if_neg long]
          simp only [builds_next open_ running moved]
          refine ih ?_ (by omega) (by omega) (by omega)
          push_cast
          omega

theorem builds_spaces (state : l.hState = .hSpacesAfterColon) (running : l.notFinished = true)
    (short : i + rest.length < 2 ^ 31) :
    (∃ m, Builds str i rest l m) ↔ LineRest .hSpacesAfterColon rest := by
  have open_ : l.hState ≠ .hCr := by simp [state]
  cases rest with
  | nil =>
      constructor
      · rintro ⟨m, builds⟩
        exact absurd builds builds_nil
      · rintro ⟨c, rest, split, -⟩
        cases split
  | cons c rest =>
      rw [List.length_cons] at short
      have position : toInt i = i := toInt_of_lt (by omega)
      have moved : headerStep str i c l =
          .ok (.next { l with hState := .hValue, valueStart := toInt i }) := by
        unfold headerStep
        simp only [state]
      simp only [builds_next open_ running moved]
      have value : (∃ m, Builds str (i + 1) rest
          { l with hState := .hValue, valueStart := toInt i } m) ↔ ValueRest 1 rest :=
        builds_value rfl running (by dsimp only; omega) (by omega) (by omega) (by omega)
      rw [value]
      constructor
      · exact fun rests => ⟨c, rest, rfl, rests⟩
      · rintro ⟨d, back, split, rests⟩
        rw [(List.cons.inj split).2]
        exact rests

theorem builds_colon (state : l.hState = .hColon) (running : l.notFinished = true)
    (short : i + rest.length < 2 ^ 31) :
    (∃ m, Builds str i rest l m) ↔ LineRest .hColon rest := by
  have open_ : l.hState ≠ .hCr := by simp [state]
  cases rest with
  | nil =>
      constructor
      · rintro ⟨m, builds⟩
        exact absurd builds builds_nil
      · rintro ⟨c, rest, split, -⟩
        cases split
  | cons c rest =>
      rw [List.length_cons] at short
      by_cases space : c = SPACE
      · subst space
        have moved : headerStep str i SPACE l =
            .ok (.next { l with hState := .hSpacesAfterColon }) := by
          unfold headerStep
          simp only [state, if_true]
        simp only [builds_next open_ running moved]
        have spaces : (∃ m, Builds str (i + 1) rest { l with hState := .hSpacesAfterColon } m) ↔
            LineRest .hSpacesAfterColon rest := builds_spaces rfl running (by omega)
        rw [spaces]
        constructor
        · rintro ⟨d, back, rfl, rests⟩
          exact ⟨d, back, rfl, rests⟩
        · rintro ⟨d, back, split, rests⟩
          exact ⟨d, back, (List.cons.inj split).2, rests⟩
      · have refused : headerStep str i c l = .ok (.reject l) := by
          unfold headerStep
          simp only [state, if_neg space]
        constructor
        · rintro ⟨m, builds⟩
          exact absurd builds (builds_reject open_ refused)
        · rintro ⟨d, back, split, -⟩
          exact absurd (List.cons.inj split).1 space

theorem lineRest_key (other : c ≠ COLON) (inLine : ¬ (c = LF ∨ c = CR)) :
    LineRest .hKey (c :: rest) ↔ LineRest .hKey rest := by
  constructor
  · rintro ⟨key, d, back, split, plain, rests⟩
    cases key with
    | nil => exact absurd (List.cons.inj split).1 other
    | cons e key =>
        exact ⟨key, d, back, (List.cons.inj split).2,
          fun x inside => plain x (List.mem_cons_of_mem e inside), rests⟩
  · rintro ⟨key, d, back, rfl, plain, rests⟩
    refine ⟨c :: key, d, back, rfl, ?_, rests⟩
    intro x inside
    rcases List.mem_cons.mp inside with rfl | later
    · exact ⟨other, fun lf => inLine (.inl lf), fun cr => inLine (.inr cr)⟩
    · exact plain x later

theorem builds_key (state : l.hState = .hKey) (running : l.notFinished = true)
    (begun : l.keyStart < i) (short : i + rest.length < 2 ^ 31) :
    (∃ m, Builds str i rest l m) ↔ LineRest .hKey rest := by
  have open_ : l.hState ≠ .hCr := by simp [state]
  induction rest generalizing i with
  | nil =>
      constructor
      · rintro ⟨m, builds⟩
        exact absurd builds builds_nil
      · rintro ⟨key, c, back, split, -⟩
        simp at split
  | cons c rest ih =>
      rw [List.length_cons] at short
      have position : toInt i = i := toInt_of_lt (by omega)
      by_cases colon : c = COLON
      · subst colon
        have moved : headerStep str i COLON l =
            .ok (.next { l with hState := .hColon, keyEnd := toInt i }) := by
          unfold headerStep
          simp only [state, if_true, position]
          rw [if_neg (by omega)]
        simp only [builds_next open_ running moved]
        have afterColon : (∃ m, Builds str (i + 1) rest
            { l with hState := .hColon, keyEnd := toInt i } m) ↔ LineRest .hColon rest :=
          builds_colon rfl running (by omega)
        rw [afterColon]
        constructor
        · rintro ⟨d, back, rfl, rests⟩
          exact ⟨[], d, back, rfl, by simp, rests⟩
        · rintro ⟨key, d, back, split, plain, rests⟩
          cases key with
          | nil => exact ⟨d, back, (List.cons.inj split).2, rests⟩
          | cons e key =>
              exact absurd (List.cons.inj split).1.symm (plain e List.mem_cons_self).1
      · by_cases eol : c = LF ∨ c = CR
        · have refused : headerStep str i c l = .ok (.reject l) := by
            unfold headerStep
            simp only [state, if_neg colon, if_pos eol]
          constructor
          · rintro ⟨m, builds⟩
            exact absurd builds (builds_reject open_ refused)
          · rintro ⟨key, d, back, split, plain, -⟩
            cases key with
            | nil => exact absurd (List.cons.inj split).1 colon
            | cons e key =>
                have inLine := (plain e List.mem_cons_self).2
                rw [← (List.cons.inj split).1] at inLine
                rcases eol with lf | cr
                · exact absurd lf inLine.1
                · exact absurd cr inLine.2
        · have moved : headerStep str i c l = .ok (.next l) := by
            unfold headerStep
            simp only [state, if_neg colon, if_neg eol]
          have later := ih (i := i + 1) (by push_cast; omega) (by omega)
          simp only [builds_next open_ running moved]
          exact later.trans (lineRest_key colon eol).symm

variable {s : HttpData}

theorem builds_resumed (mid : MidLine s.hState) (short : s.inBuffer.length < 2 ^ 31) :
    (∃ m, Builds s.inBuffer 0 s.inBuffer { hState := s.hState, headers := s.headers } m) ↔
      LineRest s.hState s.inBuffer := by
  cases state : s.hState with
  | hKey => exact builds_key rfl rfl (by simp) (by omega)
  | hColon => exact builds_colon rfl rfl (by omega)
  | hSpacesAfterColon => exact builds_spaces rfl rfl (by omega)
  | hValue => exact builds_value rfl rfl (by simp) (by omega) (by omega) (by omega)
  | hCr => exact builds_cr rfl rfl
  | hStart | hLf | hEndCr | hEndLf =>
      rw [state] at mid
      exact mid.elim

theorem slicesInside_of_lineRest (short : s.inBuffer.length < 2 ^ 31) :
    SlicesInside s ↔ ¬ LineRest s.hState s.inBuffer := by
  by_cases mid : MidLine s.hState
  · rw [← builds_resumed mid short]
    constructor
    · rintro inside ⟨m, builds⟩
      have lost : m.keyStart < 0 := builds.outside mid (by simp)
      have low := (inside m builds).keyStart
      omega
    · intro none m builds
      exact absurd ⟨m, builds⟩ none
  · have indexed : Indexed 0 { hState := s.hState, headers := s.headers } := by
      refine ⟨⟨le_rfl, le_rfl⟩, ?_⟩
      revert mid
      cases s.hState <;> simp [MidLine]
    have never : ¬ LineRest s.hState s.inBuffer := by
      revert mid
      cases s.hState <;> simp [MidLine, LineRest]
    constructor
    · exact fun _ => never
    · intro _ m builds
      exact builds.inside indexed (Nat.zero_add _) short

end HttpData

/-- In some run an event's read callback calls `ParseHeaders` on `s`. -/
def CallsParseHeaders (s : HttpData) : Prop :=
  ∃ σ e, connection.Reachable σ ∧ σ.Open ∧ ¬ HttpData.HangUp e.revents ∧
    HttpData.Readable e.revents ∧
    ∃ t kt u, HttpData.Invoked (σ.before e) (σ.kernel e) t kt ∧ HttpData.handed t kt = some u ∧
      u.atHeaders = some s

/-- A call cuts every key and value out of its string unless it resumes inside a line and finds the
    end of that line. -/
theorem slicesInside_iff : ∀ s, CallsParseHeaders s → s.inBuffer.length < 2 ^ 31 →
    (s.SlicesInside ↔ ¬ HttpData.LineRest s.hState s.inBuffer) :=
  fun _ _ short => HttpData.slicesInside_of_lineRest short

theorem slicesInside_iff_icon : ∃ s, CallsParseHeaders s ∧ s.SlicesInside := by
  obtain ⟨s, called, state, short⟩ :
      ∃ s, CallsParseHeaders s ∧ s.hState = .hStart ∧ s.inBuffer.length < 2 ^ 31 :=
    ⟨_, ⟨Session.registered 5, iconRequest, .init ⟨5, rfl⟩, by decide, by decide, by decide,
      _, _, _, .call, rfl, rfl⟩, by decide +kernel, by decide +kernel⟩
  refine ⟨s, called, (slicesInside_iff s called short).mpr ?_⟩
  rw [state]
  exact id

/-- A request that stops inside the value of its first field. -/
def cutValue : Event where
  revents := EPOLLIN
  reads := [.ok (text "GET / HTTP/1.1\r\nA: b")]
  writes := []
  files := fun _ _ => .missing

/-- The end of that line. -/
def lineBreak : Event where
  revents := EPOLLIN
  reads := [.ok (text "\r\n")]
  writes := []
  files := fun _ _ => .missing

theorem slices_outside : ¬ ∀ s, CallsParseHeaders s → s.SlicesInside := by
  intro inside
  have reached : connection.Reachable ((Session.registered 5).after cutValue) :=
    connection_after (.init ⟨5, rfl⟩) trivial (by decide)
  have called : CallsParseHeaders _ :=
    ⟨_, lineBreak, reached, by decide +kernel, by decide, by decide, _, _, _, .call, rfl, rfl⟩
  have rests := (HttpData.slicesInside_of_lineRest (by decide +kernel)).mp (inside _ called)
  exact rests ⟨text "A: b", [], by decide +kernel, by decide +kernel, by decide +kernel⟩

end WebServer
