import WebServer.Log.BufferBounds

/-! # How a log record ends

The destructor of `Logger` appends `--`, the file, `:`, the line and a newline, each of them on its
own condition. The record ends with all five where they fit, and otherwise only where the bytes that
are there happen to read like them.
-/

namespace WebServer

open Lib

/-- `Logger::Impl`. -/
structure Logger where
  stream : LogStream
  line : Int32
  basename : Bytes

namespace Logger

/-- The constructor, with what `FormatTime` puts into `str_t`. The stream's array holds whatever the
    memory held. -/
def construct (memory : LogStream) (strT fileName : Bytes) (line : Int32) :
    Except Overrun Logger := do
  let stream ← memory.reset.insert (.cString (some strT))
  return { stream, line, basename := cstr fileName }

/-- What the destructor inserts. -/
def closing (l : Logger) : List Insertion :=
  [.cString (some (text "--")), .string l.basename, .cString (some (text ":")), .int l.line,
    .char 10]

/-- The destructor: the record handed to `Output`. -/
def destruct (l : Logger) : Except Overrun Bytes := do
  let stream ← l.stream.insertAll l.closing
  return stream.content

/-- A `LOG` statement up to the destructor. -/
def logged (memory : LogStream) (strT fileName : Bytes) (line : Int32)
    (insertions : List Insertion) : Except Overrun Logger := do
  let l ← construct memory strT fileName line
  let stream ← l.stream.insertAll insertions
  return { l with stream }

/-- `--file:line` and a newline. -/
def ending (l : Logger) : Bytes :=
  text "--" ++ l.basename ++ text ":" ++ integerText l.line.toInt ++ [10]

/-- The destructor hands over a record that ends as it should. -/
def Terminates (l : Logger) : Prop := ∃ record, l.destruct = .ok record ∧ l.ending <:+ record

/-- The whole ending fits behind the content. -/
def Room (l : Logger) : Prop :=
  l.stream.content.length + l.basename.length + 35 ≤ kSmallBuffer

/-- The ending does not fit, and the bytes that are there read like it. -/
inductive ReadsAlike (l : Logger) : Prop where
  /-- One byte is free: nothing is inserted. -/
  | full : l.stream.content.length + 1 = kSmallBuffer →
      (l.basename.length = 0 ∨ 1 ≤ toInt l.basename.length) → l.ending <:+ l.stream.content →
      ReadsAlike l
  /-- Two bytes are free: a file name of one byte is all that is inserted. -/
  | single : l.stream.content.length + 2 = kSmallBuffer → l.basename.length = 1 →
      l.ending <:+ l.stream.content ++ l.basename → ReadsAlike l
  /-- Only the file name is dropped. -/
  | unnamed : l.stream.content.length + 35 ≤ kSmallBuffer →
      (kSmallBuffer : Int) ≤ l.stream.content.length + 2 + toInt l.basename.length →
      text "--" ++ l.basename <:+ l.stream.content ++ text "--" → ReadsAlike l

end Logger

namespace RawBuffer

/-- The content after an insertion that is not mistaken. -/
def offered (content : Bytes) (i : Insertion) : Bytes :=
  if content.length + (if i.formatted then 32 else i.rendering.length + 1) ≤ kSmallBuffer
  then content ++ i.rendering else content

theorem content_length {size : Nat} {b : RawBuffer size} (inside : b.cur < size) :
    b.content.length = b.cur := by
  rw [content, List.length_take, b.sized]
  exact Nat.min_eq_left (Nat.le_of_lt inside)

theorem admits_iff {b : LogStream} {i : Insertion} (inside : b.cur < kSmallBuffer) :
    b.Admits i ↔
      b.content.length + (if i.formatted then 32 else i.rendering.length + 1) ≤ kSmallBuffer := by
  rw [content_length inside]
  unfold Admits avail kMaxNumericSize
  split_ifs <;> omega

theorem insert_offered {b : LogStream} {i : Insertion} (inside : b.cur < kSmallBuffer)
    (seen : ¬ b.Mistaken i) :
    ∃ b', b.insert i = .ok b' ∧ b'.cur < kSmallBuffer ∧ b'.content = offered b.content i := by
  unfold offered
  by_cases room : b.Admits i
  · obtain ⟨b', inserted, appended⟩ := insert_admitted room
    refine ⟨b', inserted, appended.inside, ?_⟩
    rw [if_pos ((admits_iff inside).1 room)]
    exact appended.content
  · refine ⟨b, insert_refused room seen, inside, ?_⟩
    rw [if_neg fun fits => room ((admits_iff inside).2 fits)]

theorem not_mistaken_of_short {size : Nat} {b : RawBuffer size} {i : Insertion}
    (short : i.formatted = false → i.rendering.length < 2 ^ 31) : ¬ b.Mistaken i := by
  rintro ⟨whole, test, long⟩
  rw [toInt_of_lt (short whole)] at test
  omega

theorem insertAll_offered {b : LogStream} {insertions : List Insertion}
    (inside : b.cur < kSmallBuffer)
    (short : ∀ i ∈ insertions, i.formatted = false → i.rendering.length < 2 ^ 31) :
    ∃ b', b.insertAll insertions = .ok b' ∧ b'.cur < kSmallBuffer ∧
      b'.content = insertions.foldl offered b.content := by
  induction insertions generalizing b with
  | nil => exact ⟨b, rfl, inside, rfl⟩
  | cons i rest ih =>
      obtain ⟨first, inserted, inside', content⟩ :=
        insert_offered inside (not_mistaken_of_short (short i List.mem_cons_self))
      obtain ⟨b', done, last, final⟩ := ih inside' fun j later =>
        short j (List.mem_cons_of_mem i later)
      refine ⟨b', ?_, last, by rw [final, content]; rfl⟩
      have parts := insertAll_append b [i] rest
      rw [insertAll_singleton, inserted] at parts
      exact parts.trans done

end RawBuffer

namespace Logger

open RawBuffer

variable {l : Logger}

/-- The content after `--` was inserted. -/
def dashed (l : Logger) : Bytes := offered l.stream.content (.cString (some (text "--")))

/-- The content after the file name was inserted. -/
def named (l : Logger) : Bytes := offered l.dashed (.string l.basename)

/-- The content after `:` was inserted. -/
def parted (l : Logger) : Bytes := offered l.named (.cString (some (text ":")))

/-- The record, where the file name is not mistaken for a shorter one. -/
def closed (l : Logger) : Bytes := offered (offered l.parted (.int l.line)) (.char 10)

/-- The file name is taken for a shorter one that has room. -/
def NameMistaken (l : Logger) : Prop :=
  toInt l.basename.length < (kSmallBuffer : Int) - l.dashed.length ∧
    (kSmallBuffer : Int) - l.dashed.length ≤ l.basename.length

theorem destruct_cases (inside : l.stream.cur < kSmallBuffer) :
    l.NameMistaken ∧ l.destruct = .error .outsideData ∨
      ¬ l.NameMistaken ∧ l.destruct = .ok l.closed := by
  obtain ⟨b₁, first, inside₁, content₁⟩ := insert_offered (i := .cString (some (text "--"))) inside
    (not_mistaken_of_short fun _ => by decide)
  have same : b₁.Mistaken (.string l.basename) ↔ l.NameMistaken := by
    have length : l.dashed.length = b₁.cur := by
      rw [← content_length inside₁, content₁]
      rfl
    unfold Mistaken NameMistaken avail
    rw [length]
    exact ⟨fun mistaken => mistaken.2, fun mistaken => ⟨rfl, mistaken⟩⟩
  have split : l.stream.insertAll l.closing =
      (b₁.insert (.string l.basename)).bind fun b =>
        b.insertAll [.cString (some (text ":")), .int l.line, .char 10] := by
    have parts := insertAll_append l.stream [.cString (some (text "--"))]
      [.string l.basename, .cString (some (text ":")), .int l.line, .char 10]
    have more := insertAll_append b₁ [.string l.basename]
      [.cString (some (text ":")), .int l.line, .char 10]
    rw [insertAll_singleton] at parts more
    rw [first] at parts
    exact parts.trans more
  by_cases mistaken : l.NameMistaken
  · left
    refine ⟨mistaken, ?_⟩
    rw [destruct, split, insert_mistaken (by decide) (same.2 mistaken)]
    rfl
  · right
    refine ⟨mistaken, ?_⟩
    obtain ⟨b₂, second, inside₂, content₂⟩ := insert_offered inside₁ (mt same.1 mistaken)
    have short : ∀ i ∈ ([.cString (some (text ":")), .int l.line, .char 10] : List Insertion),
        i.formatted = false → i.rendering.length < 2 ^ 31 := by
      intro i here
      simp only [List.mem_cons, List.not_mem_nil, or_false] at here
      rcases here with rfl | rfl | rfl
      · exact fun _ => by decide
      · exact nofun
      · exact fun _ => by decide
    obtain ⟨b₃, third, -, content₃⟩ := insertAll_offered inside₂ short
    rw [destruct, split, second, Except.bind, third]
    apply congrArg Except.ok
    simp only [content₃, content₂, content₁, List.foldl_cons, List.foldl_nil, closed, parted, named,
      dashed]

theorem integerText_last (v : Int) : ∃ front d, integerText v = front ++ [d] ∧ isDigit d = true := by
  obtain ⟨front, d, whole⟩ := (List.eq_nil_or_concat' (decimal v.natAbs)).resolve_left
    (decimal_ne_nil _)
  refine ⟨(if v < 0 then text "-" else []) ++ front, d, ?_, ?_⟩
  · rw [integerText, whole, List.append_assoc]
  · exact decimal_isDigit v.natAbs d (by simp [whole])

theorem ending_eq (l : Logger) :
    l.ending = text "--" ++ l.basename ++ text ":" ++ integerText l.line.toInt ++ [10] := rfl

theorem not_ending_of_last {front : Bytes} {c : UInt8} (other : c ≠ 10) :
    ¬ l.ending <:+ front ++ [c] := by
  have single : [(10 : UInt8)].length = [c].length := rfl
  rw [ending_eq, List.suffix_append_inj_of_length_eq single]
  rintro ⟨-, same⟩
  exact other (List.singleton_inj.mp same).symm

theorem not_ending_of_colon {front : Bytes} : ¬ l.ending <:+ front ++ text ":" ++ [10] := by
  obtain ⟨digits, d, whole, digit⟩ := integerText_last l.line.toInt
  rw [ending_eq, List.suffix_append_self_iff, whole, ← List.append_assoc]
  have colon : text ":" = [58] := by decide
  have single : [d].length = [(58 : UInt8)].length := rfl
  rw [colon, List.suffix_append_inj_of_length_eq single]
  rintro ⟨-, same⟩
  rw [List.singleton_inj.mp same] at digit
  exact absurd digit (by decide)

theorem integerText_dashes (v : Int) : (integerText v).count 45 ≤ 1 := by
  have none : (decimal v.natAbs).count 45 = 0 := by
    refine List.count_eq_zero.mpr fun here => ?_
    exact absurd (decimal_isDigit _ _ here) (by decide)
  have sign : (text "-").count 45 = 1 := by decide
  rw [integerText, List.count_append, none]
  split_ifs
  · exact sign.le
  · exact Nat.zero_le _

/-- Where `--` and the file name are there, the rest of the ending cannot be read into them. -/
theorem not_ending_of_named {front : Bytes} :
    ¬ l.ending <:+ front ++ (text "--" ++ l.basename) := by
  intro ends
  let rest := text ":" ++ integerText l.line.toInt ++ [10]
  have parts : l.ending = (text "--" ++ l.basename) ++ rest := by
    simp only [ending_eq, rest, List.append_assoc]
  rw [parts] at ends
  have inner : text "--" ++ l.basename <:+ (text "--" ++ l.basename) ++ rest :=
    List.suffix_of_suffix_length_le (List.suffix_append _ _) ends (by simp)
  obtain ⟨head, whole⟩ := inner
  have colon : text ":" = [58] := by decide
  have dashes : text "--" = [45, 45] := by decide
  -- the bytes before the inner copy are as many as `rest` has, and begin with two dashes
  have length : head.length = rest.length := by
    have lengths := congrArg List.length whole
    simp only [List.length_append] at lengths
    omega
  have count : head.count 45 = rest.count 45 := by
    have counts := congrArg (List.count 45) whole
    simp only [List.count_append] at counts
    omega
  have few : rest.count 45 ≤ 1 := by
    have none : [(58 : UInt8)].count 45 = 0 ∧ [(10 : UInt8)].count 45 = 0 := by decide
    simp only [rest, colon, List.count_append, none.1, none.2, Nat.zero_add, Nat.add_zero]
    exact integerText_dashes l.line.toInt
  have some_digit : 2 ≤ rest.length := by simp [rest, colon]
  match head, length, count, whole with
  | [], length, _, _ | [_], length, _, _ =>
      simp only [List.length_nil, List.length_singleton] at length
      omega
  | a :: c :: more, _, count, whole =>
      rw [dashes] at whole
      simp only [List.cons_append, List.nil_append, List.cons.injEq] at whole
      obtain ⟨rfl, rfl, -⟩ := whole
      simp only [List.count_cons_self] at count
      omega

theorem dashed_eq (l : Logger) :
    l.dashed = if l.stream.content.length + 3 ≤ kSmallBuffer
      then l.stream.content ++ text "--" else l.stream.content := by
  have dashes : cstr (text "--") = text "--" := by decide
  have two : (text "--").length = 2 := by decide
  simp [dashed, offered, Insertion.formatted, Insertion.rendering, dashes, two]

theorem named_eq (l : Logger) :
    l.named = if l.dashed.length + (l.basename.length + 1) ≤ kSmallBuffer
      then l.dashed ++ l.basename else l.dashed := by
  simp [named, offered, Insertion.formatted, Insertion.rendering]

theorem parted_eq (l : Logger) :
    l.parted = if l.named.length + 2 ≤ kSmallBuffer then l.named ++ text ":" else l.named := by
  have colon : cstr (text ":") = text ":" := by decide
  have one : (text ":").length = 1 := by decide
  simp [parted, offered, Insertion.formatted, Insertion.rendering, colon, one]

/-- The line and the newline follow where `kMaxNumericSize` bytes are free behind the colon. -/
theorem closed_ends_iff (l : Logger) :
    l.ending <:+ l.closed ↔
      l.named.length + 33 ≤ kSmallBuffer ∧ text "--" ++ l.basename <:+ l.named ∨
        kSmallBuffer < l.named.length + 2 ∧ l.ending <:+ l.named := by
  have one : (text ":").length = 1 := by decide
  have parted := parted_eq l
  by_cases part : l.named.length + 2 ≤ kSmallBuffer
  · rw [if_pos part] at parted
    have length : l.parted.length = l.named.length + 1 := by rw [parted, List.length_append, one]
    by_cases line : l.parted.length + 32 ≤ kSmallBuffer
    · have short : (integerText l.line.toInt).length ≤ 21 := integerText_length (by
        have := l.line.toInt_lt
        have := l.line.le_toInt
        omega)
      have newline : (l.parted ++ integerText l.line.toInt).length + 2 ≤ kSmallBuffer := by
        rw [List.length_append]
        omega
      have whole : l.closed = l.named ++ text ":" ++ integerText l.line.toInt ++ [10] := by
        simp only [closed, offered, Insertion.formatted, Insertion.rendering, if_true, if_pos line,
          Bool.false_eq_true, if_false, List.length_singleton]
        rw [if_pos newline, parted]
      rw [whole, ending_eq, List.suffix_append_self_iff, List.suffix_append_self_iff,
        List.suffix_append_self_iff]
      constructor
      · exact fun ends => .inl ⟨by omega, ends⟩
      · rintro (⟨-, ends⟩ | ⟨full, -⟩)
        · exact ends
        · omega
    · have dropped : l.closed = l.parted ∨ l.closed = l.parted ++ [10] := by
        simp only [closed, offered, Insertion.formatted, Insertion.rendering, if_true, if_neg line,
          Bool.false_eq_true, if_false, List.length_singleton]
        split_ifs
        · exact .inr rfl
        · exact .inl rfl
      constructor
      · intro ends
        rcases dropped with same | same
        · rw [same, parted] at ends
          exact absurd ends (not_ending_of_last (by decide))
        · rw [same, parted] at ends
          exact absurd ends not_ending_of_colon
      · rintro (⟨room, -⟩ | ⟨full, -⟩) <;> omega
  · rw [if_neg part] at parted
    have whole : l.closed = l.named := by
      simp only [closed, offered, Insertion.formatted, Insertion.rendering, parted, if_true,
        Bool.false_eq_true, if_false, List.length_singleton]
      have full : ¬ l.named.length + 32 ≤ kSmallBuffer := by omega
      rw [if_neg full, if_neg (by omega)]
    rw [whole]
    constructor
    · exact fun ends => .inr ⟨by omega, ends⟩
    · rintro (⟨room, -⟩ | ⟨-, ends⟩)
      · omega
      · exact ends

/-- The file name is inserted: the rest of the ending fits, too, or is not there. -/
theorem closed_ends_named (dash : l.stream.content.length + 3 ≤ kSmallBuffer)
    (name : l.dashed.length + (l.basename.length + 1) ≤ kSmallBuffer) :
    ¬ l.NameMistaken ∧ l.ending <:+ l.closed ↔ l.Room ∨ l.ReadsAlike := by
  have least := toInt_le l.basename.length
  have two : (text "--").length = 2 := by decide
  have dashed := dashed_eq l
  have named := named_eq l
  rw [if_pos dash] at dashed
  rw [if_pos name] at named
  have length : l.dashed.length = l.stream.content.length + 2 := by
    rw [dashed, List.length_append, two]
  have total : l.named.length = l.stream.content.length + 2 + l.basename.length := by
    rw [named, List.length_append, length]
  have shown : l.named = l.stream.content ++ (text "--" ++ l.basename) := by
    rw [named, dashed, List.append_assoc]
  rw [closed_ends_iff, NameMistaken]
  constructor
  · rintro ⟨-, ⟨room, -⟩ | ⟨-, ends⟩⟩
    · left
      unfold Room
      omega
    · rw [shown] at ends
      exact absurd ends not_ending_of_named
  · rintro (room | alike)
    · unfold Room at room
      refine ⟨by omega, .inl ⟨by omega, ?_⟩⟩
      rw [shown]
      exact List.suffix_append _ _
    · cases alike <;> omega

/-- Only the file name is dropped: the content has to end with it and with two dashes. -/
theorem closed_ends_unnamed (dash : l.stream.content.length + 3 ≤ kSmallBuffer)
    (name : ¬ l.dashed.length + (l.basename.length + 1) ≤ kSmallBuffer) :
    ¬ l.NameMistaken ∧ l.ending <:+ l.closed ↔ l.Room ∨ l.ReadsAlike := by
  have least := toInt_le l.basename.length
  have two : (text "--").length = 2 := by decide
  have dashed := dashed_eq l
  have named := named_eq l
  rw [if_pos dash] at dashed
  rw [if_neg name] at named
  have length : l.dashed.length = l.stream.content.length + 2 := by
    rw [dashed, List.length_append, two]
  have shown : l.named = l.stream.content ++ text "--" := named.trans dashed
  have total : l.named.length = l.stream.content.length + 2 := by rw [named, length]
  rw [closed_ends_iff, NameMistaken]
  constructor
  · rintro ⟨seen, ⟨room, ends⟩ | ⟨-, ends⟩⟩
    · rw [shown] at ends
      exact .inr (.unnamed (by omega) (by omega) ends)
    · have last : text "--" = [45] ++ [45] := by decide
      rw [shown, last, ← List.append_assoc] at ends
      exact absurd ends (not_ending_of_last (by decide))
  · rintro (room | alike)
    · unfold Room at room
      omega
    · cases alike with
      | full tight | single tight => omega
      | unnamed room dropped ends => exact ⟨by omega, .inl ⟨by omega, shown ▸ ends⟩⟩

/-- At most two bytes are free: nothing but a file name of one byte is inserted. -/
theorem closed_ends_tight (below : l.stream.content.length < kSmallBuffer)
    (dash : ¬ l.stream.content.length + 3 ≤ kSmallBuffer) :
    ¬ l.NameMistaken ∧ l.ending <:+ l.closed ↔ l.Room ∨ l.ReadsAlike := by
  have least := toInt_le l.basename.length
  have dashed := dashed_eq l
  have named := named_eq l
  rw [if_neg dash] at dashed
  rw [closed_ends_iff, NameMistaken]
  rw [dashed] at named ⊢
  have closing : l.stream.content.length + (l.basename.length + 1) ≤ kSmallBuffer →
      l.named = l.stream.content ++ l.basename ∧
        l.named.length = l.stream.content.length + l.basename.length := by
    intro name
    rw [if_pos name] at named
    exact ⟨named, by rw [named, List.length_append]⟩
  constructor
  · rintro ⟨seen, ⟨room, -⟩ | ⟨full, ends⟩⟩
    · split_ifs at named
      · rw [named, List.length_append] at room
        omega
      · rw [named] at room
        omega
    · by_cases name : l.stream.content.length + (l.basename.length + 1) ≤ kSmallBuffer
      · obtain ⟨shown, total⟩ := closing name
        by_cases none : l.basename = []
        · have empty : l.basename.length = 0 := by rw [none]; rfl
          rw [shown, none, List.append_nil] at ends
          exact .inr (.full (by omega) (.inl empty) ends)
        · have some_byte := List.length_pos_iff.mpr none
          exact .inr (.single (by omega) (by omega) (shown ▸ ends))
      · rw [if_neg name] at named
        rw [named] at full ends
        exact .inr (.full (by omega) (by omega) ends)
  · rintro (room | alike)
    · unfold Room at room
      omega
    · cases alike with
      | unnamed room => omega
      | single tight one ends =>
          obtain ⟨shown, total⟩ := closing (by omega)
          exact ⟨by omega, .inr ⟨by omega, shown ▸ ends⟩⟩
      | full tight seen ends =>
          refine ⟨by omega, .inr ?_⟩
          by_cases name : l.stream.content.length + (l.basename.length + 1) ≤ kSmallBuffer
          · obtain ⟨shown, total⟩ := closing name
            have none : l.basename = [] := List.length_eq_zero_iff.mp (by omega)
            rw [shown, none, List.append_nil]
            exact ⟨by omega, ends⟩
          · rw [if_neg name] at named
            rw [named]
            exact ⟨by omega, ends⟩

/-- For a stream that is not full, the destructor's record ends as it should exactly where the
    ending fits or reads alike. -/
theorem terminates_iff_of_inside (inside : l.stream.cur < kSmallBuffer) :
    l.Terminates ↔ l.Room ∨ l.ReadsAlike := by
  have below : l.stream.content.length < kSmallBuffer := content_length inside ▸ inside
  have outcome : l.Terminates ↔ ¬ l.NameMistaken ∧ l.ending <:+ l.closed := by
    rcases destruct_cases inside with ⟨mistaken, failed⟩ | ⟨seen, done⟩
    · simp [Terminates, failed, mistaken]
    · simp [Terminates, done, seen]
  rw [outcome]
  by_cases dash : l.stream.content.length + 3 ≤ kSmallBuffer
  · by_cases name : l.dashed.length + (l.basename.length + 1) ≤ kSmallBuffer
    · exact closed_ends_named dash name
    · exact closed_ends_unnamed dash name
  · exact closed_ends_tight below dash

/-- Before the destructor the stream is not full. -/
theorem logged_inside {memory : LogStream} {strT fileName : Bytes} {line : Int32}
    {insertions : List Insertion} (built : logged memory strT fileName line insertions = .ok l) :
    l.stream.cur < kSmallBuffer := by
  have start : memory.reset.cur < kSmallBuffer := by
    show 0 < kSmallBuffer
    decide
  simp only [logged, construct, bind, Except.bind] at built
  split at built
  · cases built
  · rename_i first constructed
    split at constructed
    · cases constructed
    · rename_i stamped inserted
      cases constructed
      dsimp only at built
      split at built
      · cases built
      · rename_i filled all
        cases built
        exact insertAll_inside (by decide) (insert_inside (by decide) start inserted) all

/-- The record of a `LOG` statement ends as it should exactly where no insertion before has left the
    buffer and, when the destructor begins, the ending fits or reads alike. -/
theorem record_terminates_iff (memory : LogStream) (strT fileName : Bytes) (line : Int32)
    (insertions : List Insertion) :
    (∃ l, logged memory strT fileName line insertions = .ok l ∧ l.Terminates) ↔
      ∃ l, logged memory strT fileName line insertions = .ok l ∧ (l.Room ∨ l.ReadsAlike) := by
  constructor
  · rintro ⟨l, built, ends⟩
    exact ⟨l, built, (terminates_iff_of_inside (logged_inside built)).1 ends⟩
  · rintro ⟨l, built, fits⟩
    exact ⟨l, built, (terminates_iff_of_inside (logged_inside built)).2 fits⟩

theorem closed_of_full (full : l.stream.content.length + 1 = kSmallBuffer)
    (name : 0 < l.basename.length) : l.closed = l.stream.content := by
  have dashed : l.dashed = l.stream.content := by rw [dashed_eq, if_neg (by omega)]
  have named : l.named = l.stream.content := by rw [named_eq, dashed, if_neg (by omega)]
  have parted : l.parted = l.stream.content := by rw [parted_eq, named, if_neg (by omega)]
  simp only [closed, offered, Insertion.formatted, Insertion.rendering, parted, if_true,
    Bool.false_eq_true, if_false, List.length_singleton]
  have none : ¬ l.stream.content.length + 32 ≤ kSmallBuffer := by omega
  rw [if_neg none, if_neg (by omega)]

/-- `LOG << "Request: " << in_buffer_` with 3970 bytes in the buffer. -/
def longRequest : List Insertion :=
  [.cString (some (text "Request: ")), .string (List.replicate 3970 97)]

theorem longRequest_unterminated :
    ∃ l record, logged zeroes (text "2024-01-01 00:00:00\n") (text "http_data.cpp") 158 longRequest =
      .ok l ∧ l.destruct = .ok record ∧ ¬ [10] <:+ record := by
  have start : zeroes.reset.cur < kSmallBuffer := by
    show 0 < kSmallBuffer
    decide
  obtain ⟨b₁, stamped, inside₁, content₁⟩ :=
    insert_offered (i := .cString (some (text "2024-01-01 00:00:00\n"))) start
      (not_mistaken_of_short fun _ => by decide)
  have short : ∀ i ∈ longRequest, i.formatted = false → i.rendering.length < 2 ^ 31 := by
    intro i here
    simp only [longRequest, List.mem_cons, List.not_mem_nil, or_false] at here
    rcases here with rfl | rfl
    · exact fun _ => by decide
    · intro _
      rw [Insertion.rendering, List.length_replicate]
      decide
  obtain ⟨b₂, filled, inside₂, content₂⟩ := insertAll_offered inside₁ short
  have front : offered (offered zeroes.reset.content (.cString (some (text "2024-01-01 00:00:00\n"))))
      (.cString (some (text "Request: "))) = text "2024-01-01 00:00:00\nRequest: " := by decide
  have length : (text "2024-01-01 00:00:00\nRequest: ").length = 29 := by decide
  have content : b₂.content = text "2024-01-01 00:00:00\nRequest: " ++ List.replicate 3970 97 := by
    rw [content₂, content₁, longRequest, List.foldl_cons, List.foldl_cons, List.foldl_nil, front]
    simp only [offered, Insertion.formatted, Insertion.rendering, Bool.false_eq_true, if_false,
      List.length_replicate, length]
    rw [if_pos (by decide)]
  let l : Logger := { stream := b₂, line := 158, basename := text "http_data.cpp" }
  have full : l.stream.content.length + 1 = kSmallBuffer := by
    show b₂.content.length + 1 = kSmallBuffer
    rw [content, List.length_append, length, List.length_replicate]
    decide
  have name : l.basename.length = 13 := by
    show (text "http_data.cpp").length = 13
    decide
  have built : logged zeroes (text "2024-01-01 00:00:00\n") (text "http_data.cpp") 158 longRequest =
      .ok l := by
    have file : cstr (text "http_data.cpp") = text "http_data.cpp" := by decide
    simp only [logged, construct, stamped, bind, Except.bind, pure, Except.pure, filled, file]
    rfl
  have record := closed_of_full full (by omega)
  refine ⟨l, l.closed, built, ?_, ?_⟩
  · rcases destruct_cases (l := l) inside₂ with ⟨⟨test, long⟩, -⟩ | ⟨-, done⟩
    · rw [toInt_of_lt (by omega)] at test
      omega
    · exact done
  · have last : b₂.content =
        (text "2024-01-01 00:00:00\nRequest: " ++ List.replicate 3969 97) ++ [97] := by
      rw [content, List.append_assoc, ← List.replicate_succ']
    rw [record]
    show ¬ [10] <:+ b₂.content
    rw [last, List.singleton_suffix_append_singleton_iff]
    decide

end Logger

end WebServer
