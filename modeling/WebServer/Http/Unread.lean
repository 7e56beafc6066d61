import WebServer.Http.Turns

/-! # Only `ReadN` reads

What the stages of `HandleRead` do, and what follows them, does not depend on what can still be read. So
a call goes the same way with other reads to come, as long as its `ReadN`s find the same.
-/

namespace WebServer.HttpData

open Lib

/-- The same result with these reads still to come. -/
def reread (reads : List ReadResult) (result : HttpData × Kernel) : HttpData × Kernel :=
  (result.1, { result.2 with reads })

variable {s t : HttpData} {k kt : Kernel}

theorem analysisRequest_reread (s : HttpData) (k : Kernel) (reads : List ReadResult) :
    analysisRequest s { k with reads } =
      (analysisRequest s k).map fun (flag, result) => (flag, reread reads result) := by
  by_cases post : s.method = .methodPost
  · rw [analysisRequest_post post, analysisRequest_post post]
    rfl
  · obtain ⟨fileType, -, answered⟩ := analysisRequest_eq post
    rw [answered, answered]
    dsimp only
    split_ifs
    · rfl
    · rfl
    · unfold analysisFile Kernel.lookup
      dsimp only
      cases (k.files k.looked.length (cstr s.fileName)).stSize with
      | none => rfl
      | some size =>
          dsimp only
          split_ifs
          · rfl
          · cases (k.files k.looked.length (cstr s.fileName)).mapped <;> rfl

theorem analysisStage_reread (s : HttpData) (k : Kernel) (reads : List ReadResult) :
    analysisStage s { k with reads } = (analysisStage s k).map (reread reads) := by
  unfold analysisStage
  split_ifs
  · rw [analysisRequest_reread]
    cases analysisRequest s k with
    | error e => rfl
    | ok answer =>
        obtain ⟨flag, t, kt⟩ := answer
        cases flag <;> rfl
  · rfl

theorem bodyStage_reread (s : HttpData) (k : Kernel) (reads : List ReadResult) :
    bodyStage s { k with reads } = (bodyStage s k).map (reread reads) := by
  unfold bodyStage
  split_ifs
  · cases s.headers (text "Content-length") with
    | none => rfl
    | some value =>
        dsimp only [bind, Except.bind]
        cases stoi value with
        | error e => rfl
        | ok n =>
            dsimp only
            split_ifs
            · rfl
            · exact analysisStage_reread _ k reads
  · exact analysisStage_reread s k reads

theorem headerStage_reread (s : HttpData) (k : Kernel) (reads : List ReadResult) :
    headerStage s { k with reads } = (headerStage s k).map (reread reads) := by
  unfold headerStage
  split_ifs
  · dsimp only [bind, Except.bind]
    cases parseHeaders s with
    | error e => rfl
    | ok result =>
        obtain ⟨flag, t⟩ := result
        cases flag with
        | parseHeaderAgain => rfl
        | parseHeaderError => rfl
        | parseHeaderSuccess =>
            dsimp only
            split_ifs
            · exact bodyStage_reread _ k reads
            · exact bodyStage_reread _ k reads
  · exact bodyStage_reread s k reads

theorem uriStage_reread (s : HttpData) (k : Kernel) (reads : List ReadResult) :
    uriStage s { k with reads } = (uriStage s k).map (reread reads) := by
  unfold uriStage
  split_ifs
  · dsimp only [bind, Except.bind]
    cases parseURI s with
    | error e => rfl
    | ok result =>
        obtain ⟨flag, t⟩ := result
        cases flag with
        | parseUriAgain => rfl
        | parseUriError => rfl
        | parseUriSuccess => exact headerStage_reread _ k reads
  · exact headerStage_reread s k reads

theorem writeN_reread (k : Kernel) (buff : Bytes) (reads : List ReadResult) :
    writeN { k with reads } buff =
      ((writeN k buff).1, (writeN k buff).2.1, { (writeN k buff).2.2 with reads }) := by
  unfold writeN Kernel.write
  dsimp only
  cases (writeLoop k.writes buff).stop with
  | failed => rfl
  | complete | again =>
      dsimp only
      split_ifs <;> rfl

theorem handleWrite_reread (s : HttpData) (k : Kernel) (reads : List ReadResult) :
    handleWrite s { k with reads } = reread reads (handleWrite s k) := by
  unfold handleWrite reread
  rw [writeN_reread]
  split_ifs <;> rfl

theorem settle_reread (s : HttpData) (k : Kernel) (reads : List ReadResult) :
    settle s { k with reads } = ((settle s k).1, reread reads (settle s k).2) := by
  have flushed : flush s { k with reads } = reread reads (flush s k) := by
    unfold flush
    rw [handleWrite_reread]
    split_ifs <;> rfl
  unfold settle
  rw [flushed]
  unfold reread
  dsimp only
  split_ifs <;> rfl

/-- An invocation with other reads to come, whose `ReadN` finds the same. -/
theorem handleReadTurn_reread (s : HttpData) (k : Kernel) (reads : List ReadResult)
    (finds : readN reads 0 s.inBuffer =
      { readN k.reads 0 s.inBuffer with rest := (readN reads 0 s.inBuffer).rest }) :
    handleReadTurn s { k with reads } =
      (handleReadTurn s k).map (Prod.map id (reread (readN reads 0 s.inBuffer).rest)) := by
  have staged (s : HttpData) (k : Kernel) (reads : List ReadResult) :
      (uriStage s { k with reads }).map (fun result => settle result.1 result.2) =
        ((uriStage s k).map fun result => settle result.1 result.2).map
          (Prod.map id (reread reads)) := by
    rw [uriStage_reread]
    cases uriStage s k with
    | error e => rfl
    | ok result =>
        obtain ⟨t, kt⟩ := result
        exact congrArg Except.ok (settle_reread t kt reads)
  have settled (s : HttpData) (k : Kernel) (reads : List ReadResult) :
      Except.map (fun result => settle result.1 result.2) (.ok (s, { k with reads }) : Outcome) =
        (Except.map (fun result => settle result.1 result.2) (.ok (s, k) : Outcome)).map
          (Prod.map id (reread reads)) :=
    congrArg Except.ok (settle_reread s k reads)
  unfold handleReadTurn receive
  dsimp only
  rw [finds]
  generalize (readN reads 0 s.inBuffer).rest = rest
  generalize readN k.reads 0 s.inBuffer = found
  unfold ReadOutcome.readNum
  dsimp only
  split_ifs
  · exact settled _ { k with reads := found.rest } rest
  · exact settled
      (badRequest (text "Bad Request") { s with inBuffer := found.inBuffer }
        { k with reads := found.rest }).1
      (badRequest (text "Bad Request") { s with inBuffer := found.inBuffer }
        { k with reads := found.rest }).2 rest
  · exact settled _ { k with reads := found.rest } rest
  · exact staged _ { k with reads := found.rest } rest
  · exact staged _ { k with reads := found.rest } rest

/-- The end of file behind some `ReadN`s that find nothing. -/
def ended (n : Nat) : List ReadResult := List.replicate n .eagain ++ [.ok []]

theorem handleReadTurn_reads {again : Bool} (turn : handleReadTurn s k = .ok (again, t, kt)) :
    kt.reads = (readN k.reads 0 s.inBuffer).rest := by
  obtain ⟨u, ku, received, settled⟩ := handleReadTurn_parts turn
  have kept : (settle u ku).2.2.reads = ku.reads := by
    have same := (flush_flushed u ku).reads
    unfold settle
    split_ifs
    · rfl
    · dsimp only
      split_ifs <;> exact same
  rw [← receive_reads received, ← kept, settled]

theorem receive_ended (reads : k.reads = ended 0) :
    ∃ inBuffer, receive s k =
      .ok ({ s with inBuffer, connectionState := .hDisconnecting }, { k with reads := [] }) := by
  have found : readN k.reads 0 s.inBuffer = ⟨0, true, s.inBuffer, []⟩ := by
    rw [reads]
    rfl
  unfold receive
  rw [found]
  dsimp only
  split_ifs with disconnecting failed zero empty
  · exact ⟨[], by rw [← disconnecting]⟩
  · exact absurd failed (show ¬ (0 : Int).bmod (2 ^ 32) < 0 by decide)
  · exact ⟨s.inBuffer, rfl⟩
  · exact absurd rfl empty
  · exact absurd rfl zero

theorem handleReadTurn_ended (reads : k.reads = ended 0) :
    handleReadTurn s k ≠ .ok (true, t, kt) := by
  intro turn
  obtain ⟨u, ku, received, settled⟩ := handleReadTurn_parts turn
  obtain ⟨-, -, -, running, -⟩ := settle_again settled
  obtain ⟨inBuffer, closed⟩ := receive_ended (s := s) reads
  cases received.symm.trans closed
  exact running rfl

/-- Until it reads the end of file, a call goes as one that never reads it. -/
theorem Invoked.unended {chunk : Bytes} (some_bytes : chunk ≠ []) {n : Nat}
    (reads : k.reads = .ok chunk :: ended (n + 1)) (invoked : Invoked s k t kt) :
    (t, kt) = (s, k) ∨ ∃ j, kt.reads = ended j ∧
      Invoked s { k with reads := [.ok chunk] } t { kt with reads := [] } := by
  induction invoked with
  | call => exact .inl rfl
  | @nested t kt t' kt' _ turn ih =>
      right
      have after := handleReadTurn_reads turn
      rcases ih with first | ⟨j, reads', later⟩
      · cases first
        have positive : ¬ chunk.length = 0 := fun none => some_bytes (List.length_eq_zero_iff.mp none)
        have found (rest : List ReadResult) : readN (.ok chunk :: rest) 0 s.inBuffer =
            readN rest chunk.length (s.inBuffer ++ chunk) := by
          rw [readN, if_neg positive, Nat.zero_add]
        have alone := handleReadTurn_reread s k [.ok chunk] (by rw [reads, found, found]; rfl)
        rw [turn, found] at alone
        refine ⟨n, ?_, .nested .call alone⟩
        rw [after, reads, found]
        rfl
      · cases j with
        | zero => exact absurd turn (handleReadTurn_ended reads')
        | succ j =>
            have alone := handleReadTurn_reread t kt [] (by rw [reads']; rfl)
            rw [turn] at alone
            refine ⟨j, ?_, .nested later alone⟩
            rw [after, reads']
            rfl

end WebServer.HttpData
