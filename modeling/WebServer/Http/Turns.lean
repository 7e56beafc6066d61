import WebServer.Http.HandleRead

/-! # What the stages of `HandleRead` leave alone, and why it returns

Every stage keeps the channel, the descriptor, the timer and the position of the next line. A
request that is finished has used up at least one byte, so the recursive call starts with fewer
bytes buffered or still to be read and `depthBound` is never reached.
-/

namespace WebServer.HttpData

open Lib

/-- The members that no stage changes. -/
structure Untouched (s s' : HttpData) : Prop where
  channel : s'.channel = s.channel
  fd : s'.fd = s.fd
  timer : s'.timer = s.timer
  cleared : s'.cleared = s.cleared
  nowReadPos : s'.nowReadPos = s.nowReadPos

theorem Untouched.refl (s : HttpData) : Untouched s s := ⟨rfl, rfl, rfl, rfl, rfl⟩

/-- No request line is read, or no header byte of this request. -/
def Fresh (s : HttpData) : Prop :=
  (s.state = .stateParseUri ∨ s.state = .stateParseHeaders) ∧ s.hState = .hStart

/-- What the stages do from `(s, k)` to `(s', k')`. -/
structure Advance (s : HttpData) (k : Kernel) (s' : HttpData) (k' : Kernel) : Prop
    extends Untouched s s' where
  connectionState : s'.connectionState = s.connectionState
  files : k'.files = k.files
  reads : k'.reads = k.reads
  shorter : s'.inBuffer.length ≤ s.inBuffer.length
  consumed : Fresh s → s'.state = .stateFinish → s'.inBuffer ≠ [] →
    s'.inBuffer.length < s.inBuffer.length

/-- What a reply changes: only the output, the flags and the ghosts. -/
structure Replied (s : HttpData) (k : Kernel) (s' : HttpData) (k' : Kernel) : Prop
    extends Untouched s s' where
  connectionState : s'.connectionState = s.connectionState
  files : k'.files = k.files
  reads : k'.reads = k.reads
  inBuffer : s'.inBuffer = s.inBuffer

theorem badRequest_replied (shortMsg : Bytes) (s : HttpData) (k : Kernel) :
    Replied s k (badRequest shortMsg s k).1 (badRequest shortMsg s k).2 :=
  ⟨⟨rfl, rfl, rfl, rfl, rfl⟩, rfl, rfl, rfl, rfl⟩

@[simp] theorem badRequest_error (shortMsg : Bytes) (s : HttpData) (k : Kernel) :
    (badRequest shortMsg s k).1.error = true := rfl

theorem analysisFile_replied {header fileType : Bytes} {s s' : HttpData} {k k' : Kernel}
    {flag : AnalysisState} (answered : analysisFile header fileType s k = (flag, s', k')) :
    Replied s k s' k' := by
  simp only [analysisFile] at answered
  split at answered
  · cases answered
    exact ⟨⟨rfl, rfl, rfl, rfl, rfl⟩, rfl, rfl, rfl, rfl⟩
  · split_ifs at answered
    · cases answered
      exact ⟨⟨rfl, rfl, rfl, rfl, rfl⟩, rfl, rfl, rfl, rfl⟩
    · split at answered <;> cases answered <;>
        exact ⟨⟨rfl, rfl, rfl, rfl, rfl⟩, rfl, rfl, rfl, rfl⟩

theorem analysisRequest_replied {s s' : HttpData} {k k' : Kernel} {flag : AnalysisState}
    (answered : analysisRequest s k = .ok (flag, s', k')) : Replied s k s' k' := by
  simp only [analysisRequest, bind, Except.bind] at answered
  split at answered
  · cases answered
    exact ⟨⟨rfl, rfl, rfl, rfl, rfl⟩, rfl, rfl, rfl, rfl⟩
  all_goals
    split at answered
    · cases answered
    · split_ifs at answered
      all_goals first
        | cases answered
          exact ⟨⟨rfl, rfl, rfl, rfl, rfl⟩, rfl, rfl, rfl, rfl⟩
        | have file := analysisFile_replied (Except.ok.inj answered)
          exact ⟨⟨file.channel, file.fd, file.timer, file.cleared, file.nowReadPos⟩,
            file.connectionState, file.files, file.reads, file.inBuffer⟩

theorem Replied.advance {s t : HttpData} {k k' : Kernel} (replied : Replied s k t k')
    (error : Bool) (state : ProcessState) (away : ¬ Fresh s) :
    Advance s k { t with error, state } k' where
  toUntouched := ⟨replied.channel, replied.fd, replied.timer, replied.cleared, replied.nowReadPos⟩
  connectionState := replied.connectionState
  files := replied.files
  reads := replied.reads
  shorter := replied.inBuffer.symm ▸ le_rfl
  consumed := fun fresh => absurd fresh away

theorem Advance.refl {s : HttpData} {k : Kernel} (unfinished : s.state ≠ .stateFinish) :
    Advance s k s k :=
  ⟨.refl s, rfl, rfl, rfl, le_rfl, fun _ finished => absurd finished unfinished⟩

theorem analysisStage_advance {s s' : HttpData} {k k' : Kernel} (away : ¬ Fresh s)
    (ran : analysisStage s k = .ok (s', k')) : Advance s k s' k' := by
  simp only [analysisStage, bind, Except.bind] at ran
  split at ran
  · split at ran
    · cases ran
    · rename_i answer answered
      obtain ⟨flag, t, k'⟩ := answer
      have replied := analysisRequest_replied answered
      cases flag with
      | analysisSuccess =>
          cases ran
          exact replied.advance t.error .stateFinish away
      | analysisError =>
          cases ran
          exact replied.advance true t.state away
  · cases ran
    exact ⟨.refl s, rfl, rfl, rfl, le_rfl, fun fresh => absurd fresh away⟩

theorem bodyStage_advance {s s' : HttpData} {k k' : Kernel} (away : ¬ Fresh s)
    (ran : bodyStage s k = .ok (s', k')) : Advance s k s' k' := by
  simp only [bodyStage, bind, Except.bind] at ran
  split at ran
  · rename_i receiving
    split at ran
    · cases ran
      exact (badRequest_replied _ s k).advance true s.state away
    · split at ran
      · cases ran
      · split_ifs at ran
        · cases ran
          exact .refl (by simp [receiving])
        · have later : ¬ Fresh { s with state := .stateAnalysis } := by simp [Fresh]
          obtain ⟨⟨channel, fd, timer, cleared, pos⟩, conn, files, reads, shorter, -⟩ :=
            analysisStage_advance later ran
          exact ⟨⟨channel, fd, timer, cleared, pos⟩, conn, files, reads, shorter,
            fun fresh => absurd fresh away⟩
  · exact analysisStage_advance away ran

theorem headerStage_advance {s s' : HttpData} {k k' : Kernel} (past : s.state ≠ .stateParseUri)
    (ran : headerStage s k = .ok (s', k')) : Advance s k s' k' := by
  simp only [headerStage, bind, Except.bind] at ran
  split at ran
  · rename_i parsing
    split at ran
    · cases ran
    · rename_i parse parsed
      obtain ⟨flag, t⟩ := parse
      obtain ⟨shorter, consumed, b, h, m, rfl⟩ := parseHeaders_frame parsed
      cases flag with
      | parseHeaderAgain =>
          cases ran
          exact ⟨⟨rfl, rfl, rfl, rfl, rfl⟩, rfl, rfl, rfl, shorter, by simp [parsing]⟩
      | parseHeaderError =>
          cases ran
          exact ⟨⟨rfl, rfl, rfl, rfl, rfl⟩, rfl, rfl, rfl, shorter, by simp [parsing]⟩
      | parseHeaderSuccess =>
          have rest : ∀ next : ProcessState, next = .stateRecvBody ∨ next = .stateAnalysis →
              bodyStage { s with inBuffer := b, hState := h, headers := m, state := next } k =
                .ok (s', k') → Advance s k s' k' := by
            intro next which ran
            have away : ¬ Fresh
                { s with inBuffer := b, hState := h, headers := m, state := next } := by
              rcases which with rfl | rfl <;> simp [Fresh]
            obtain ⟨⟨channel, fd, timer, cleared, pos⟩, conn, files, reads, less, -⟩ :=
              bodyStage_advance away ran
            refine ⟨⟨channel, fd, timer, cleared, pos⟩, conn, files, reads, less.trans shorter, ?_⟩
            intro fresh _ _
            exact less.trans_lt (consumed rfl (by simp [fresh.2]))
          dsimp only at ran
          split_ifs at ran
          · exact rest _ (.inl rfl) ran
          · exact rest _ (.inr rfl) ran
  · rename_i parsed
    exact bodyStage_advance (by simp [Fresh, past, parsed]) ran

theorem uriStage_advance {s s' : HttpData} {k k' : Kernel}
    (ran : uriStage s k = .ok (s', k')) : Advance s k s' k' := by
  simp only [uriStage, bind, Except.bind] at ran
  split at ran
  · rename_i parsing
    split at ran
    · cases ran
    · rename_i parse parsed
      obtain ⟨flag, t⟩ := parse
      obtain ⟨b, m, f, v, rfl, shorter⟩ := parseURI_frame parsed
      cases flag with
      | parseUriAgain =>
          cases ran
          exact ⟨⟨rfl, rfl, rfl, rfl, rfl⟩, rfl, rfl, rfl, shorter, by simp [parsing]⟩
      | parseUriError =>
          cases ran
          exact ⟨⟨rfl, rfl, rfl, rfl, rfl⟩, rfl, rfl, rfl, Nat.zero_le _, by simp [parsing]⟩
      | parseUriSuccess =>
          obtain ⟨⟨channel, fd, timer, cleared, pos⟩, conn, files, reads, less, consumed⟩ :=
            headerStage_advance (by simp) ran
          exact ⟨⟨channel, fd, timer, cleared, pos⟩, conn, files, reads, less.trans shorter,
            fun fresh finished left =>
              (consumed ⟨.inr rfl, fresh.2⟩ finished left).trans_le shorter⟩
  · rename_i past
    exact headerStage_advance past ran

theorem readN_total (reads : List ReadResult) (readSum : Nat) (inBuffer : Bytes) :
    (readN reads readSum inBuffer).inBuffer.length +
        ((readN reads readSum inBuffer).rest.map fun | .ok bytes => bytes.length | _ => 0).sum =
      inBuffer.length + (reads.map fun | .ok bytes => bytes.length | _ => 0).sum := by
  fun_induction readN reads readSum inBuffer with
  | case1 => rfl
  | case2 readSum inBuffer bytes rest eof => simp [eof]
  | case3 readSum inBuffer bytes rest data ih =>
      rw [ih]
      simp only [List.length_append, List.map_cons, List.sum_cons]
      omega
  | case4 readSum inBuffer rest ih => simpa using ih
  | case5 | case6 => simp

/-- `receive` keeps what the stages keep, but may notice the end of the stream. -/
structure Received (s : HttpData) (k : Kernel) (s' : HttpData) (k' : Kernel) : Prop
    extends Untouched s s' where
  connectionState : s'.connectionState = s.connectionState ∨ s'.connectionState = .hDisconnecting
  files : k'.files = k.files
  shorter : s'.inBuffer.length + k'.incoming ≤ s.inBuffer.length + k.incoming
  consumed : Fresh s → s'.state = .stateFinish → s'.inBuffer ≠ [] →
    s'.inBuffer.length + k'.incoming < s.inBuffer.length + k.incoming

theorem receive_received {s s' : HttpData} {k k' : Kernel} (ran : receive s k = .ok (s', k')) :
    Received s k s' k' := by
  have total := readN_total k.reads 0 s.inBuffer
  simp only [receive] at ran
  generalize readN k.reads 0 s.inBuffer = r at total ran
  have unfinished : Fresh s → s.state ≠ .stateFinish := by
    rintro ⟨start | start, -⟩ <;> simp [start]
  have stages : ∀ c : ConnectionState, c = s.connectionState ∨ c = .hDisconnecting →
      uriStage { s with inBuffer := r.inBuffer, connectionState := c } { k with reads := r.rest } =
        .ok (s', k') → Received s k s' k' := by
    intro c which ran
    obtain ⟨⟨channel, fd, timer, cleared, pos⟩, conn, files, reads, shorter, consumed⟩ :=
      uriStage_advance ran
    have incoming : k'.incoming = Kernel.incoming { k with reads := r.rest } := by
      simp only [Kernel.incoming, reads]
    refine ⟨⟨channel, fd, timer, cleared, pos⟩, conn ▸ which, files, ?_, fun fresh finished left => ?_⟩
    · rw [incoming]
      exact (Nat.add_le_add_right shorter _).trans total.le
    · rw [incoming]
      exact (Nat.add_lt_add_right (consumed fresh finished left) _).trans_eq total
  split_ifs at ran
  · cases ran
    refine ⟨⟨rfl, rfl, rfl, rfl, rfl⟩, .inl rfl, rfl, ?_, by simp⟩
    exact (Nat.add_le_add_right (Nat.zero_le r.inBuffer.length) _).trans total.le
  · cases ran
    exact ⟨⟨rfl, rfl, rfl, rfl, rfl⟩, .inl rfl, rfl, total.le,
      fun fresh finished => absurd finished (unfinished fresh)⟩
  · cases ran
    exact ⟨⟨rfl, rfl, rfl, rfl, rfl⟩, .inr rfl, rfl, total.le,
      fun fresh finished => absurd finished (unfinished fresh)⟩
  · exact stages .hDisconnecting (.inr rfl) ran
  · exact stages s.connectionState (.inl rfl) ran

theorem receive_reads {s s' : HttpData} {k k' : Kernel} (ran : receive s k = .ok (s', k')) :
    k'.reads = (readN k.reads 0 s.inBuffer).rest := by
  simp only [receive] at ran
  generalize readN k.reads 0 s.inBuffer = r at ran ⊢
  split_ifs at ran
  · cases ran
    rfl
  · cases ran
    rfl
  · cases ran
    rfl
  · exact (uriStage_advance ran).reads
  · exact (uriStage_advance ran).reads

/-- What sending the queued bytes changes. -/
structure Flushed (s : HttpData) (k : Kernel) (s' : HttpData) (k' : Kernel) : Prop where
  kept : ∃ events outBuffer error, s' = { s.setEvents events with outBuffer, error }
  files : k'.files = k.files
  reads : k'.reads = k.reads

theorem writeN_kernel (k : Kernel) (sBuff : Bytes) :
    (writeN k sBuff).2.2 = (k.write sBuff).2 := by
  simp only [writeN]
  split
  · rfl
  all_goals split_ifs <;> rfl

theorem handleWrite_kernel (s : HttpData) (k : Kernel) :
    (handleWrite s k).2 = k ∨ (handleWrite s k).2 = (k.write s.outBuffer).2 := by
  simp only [handleWrite]
  split_ifs
  · exact .inr (writeN_kernel k s.outBuffer)
  · exact .inr (writeN_kernel k s.outBuffer)
  · exact .inr (writeN_kernel k s.outBuffer)
  · exact .inr (writeN_kernel k s.outBuffer)
  · exact .inl rfl

theorem handleWrite_flushed (s : HttpData) (k : Kernel) :
    Flushed s k (handleWrite s k).1 (handleWrite s k).2 := by
  refine ⟨?_, ?_, ?_⟩
  · simp only [handleWrite]
    split_ifs
    all_goals exact ⟨_, _, _, rfl⟩
  · rcases handleWrite_kernel s k with same | same
    · rw [same]
    · rw [same, Kernel.write]
  · rcases handleWrite_kernel s k with same | same
    · rw [same]
    · rw [same, Kernel.write]

theorem flush_flushed (s : HttpData) (k : Kernel) : Flushed s k (flush s k).1 (flush s k).2 := by
  simp only [flush]
  split_ifs
  · exact handleWrite_flushed s k
  · exact ⟨⟨s.channel.events, s.outBuffer, s.error, rfl⟩, rfl, rfl⟩

theorem settle_again {s s' : HttpData} {k k' : Kernel} (again : settle s k = (true, s', k')) :
    s.state = .stateFinish ∧ s.error = false ∧ s.inBuffer ≠ [] ∧
      s.connectionState ≠ .hDisconnecting ∧ k' = (flush s k).2 ∧
      ∃ events outBuffer, s' = { s.setEvents events with outBuffer }.reset := by
  obtain ⟨⟨events, outBuffer, error, kept⟩, -, -⟩ := flush_flushed s k
  simp only [settle] at again
  split_ifs at again with failed finished
  · simp at again
  · simp only [Prod.mk.injEq, Bool.and_eq_true, decide_eq_true_eq] at again
    obtain ⟨⟨nonempty, connected⟩, rfl, rfl⟩ := again
    rw [kept] at finished nonempty connected ⊢
    simp only [Bool.and_eq_true, Bool.not_eq_true', decide_eq_true_eq] at finished
    obtain ⟨rfl, finished⟩ := finished
    have running : s.error = false := by simpa using failed
    refine ⟨finished, running, List.length_pos_iff.mp nonempty, connected, rfl,
      events, outBuffer, ?_⟩
    simp only [running, setEvents]
  · simp at again
  · simp at again

theorem settle_keeps (s : HttpData) (k : Kernel) :
    (settle s k).2.1.inBuffer = s.inBuffer ∧ (settle s k).2.2.reads = k.reads := by
  obtain ⟨⟨events, outBuffer, error, kept⟩, -, reads⟩ := flush_flushed s k
  have inBuffer : (flush s k).1.inBuffer = s.inBuffer := by
    rw [kept]
    rfl
  unfold settle
  split_ifs
  · exact ⟨rfl, rfl⟩
  dsimp only
  split_ifs
  · exact ⟨inBuffer, reads⟩
  · exact ⟨inBuffer, reads⟩
  · exact ⟨inBuffer, reads⟩

theorem handleReadTurn_parts {s s' : HttpData} {k k' : Kernel} {again : Bool}
    (turn : handleReadTurn s k = .ok (again, s', k')) :
    ∃ t kt, receive s k = .ok (t, kt) ∧ settle t kt = (again, s', k') := by
  unfold handleReadTurn at turn
  cases received : receive s k with
  | error e => simp [received, Except.map] at turn
  | ok mid =>
      obtain ⟨t, kt⟩ := mid
      simp only [received, Except.map, Except.ok.injEq] at turn
      exact ⟨t, kt, rfl, turn⟩

theorem handleReadTurn_running {s s' : HttpData} {k k' : Kernel}
    (turn : handleReadTurn s k = .ok (true, s', k')) :
    s'.error = false ∧ s'.connectionState ≠ .hDisconnecting := by
  obtain ⟨t, kt, -, settled⟩ := handleReadTurn_parts turn
  obtain ⟨-, fine, -, running, -, events, outBuffer, rfl⟩ := settle_again settled
  exact ⟨fine, running⟩

theorem handleReadTurn_again {s s' : HttpData} {k k' : Kernel}
    (again : handleReadTurn s k = .ok (true, s', k')) : depthBound s' k' < depthBound s k := by
  obtain ⟨t, kt, ran, settled⟩ := handleReadTurn_parts again
  have received := receive_received ran
  obtain ⟨finished, -, left, -, rfl, events, outBuffer, rfl⟩ := settle_again settled
  have incoming : (flush t kt).2.incoming = kt.incoming := by
    simp only [Kernel.incoming, (flush_flushed t kt).reads]
  have shorter := received.shorter
  have small : depthBound ({ t.setEvents events with outBuffer }.reset) (flush t kt).2 =
      t.inBuffer.length + kt.incoming + 1 := by
    simp [depthBound, reset, seperateTimer, setEvents, incoming]
  rw [small, depthBound]
  split_ifs with fresh
  · have := received.consumed ⟨.inl fresh.1, fresh.2⟩ finished left
    omega
  · omega

theorem handleReadTo_stable {depth : Nat} {s : HttpData} {k : Kernel}
    (enough : depthBound s k ≤ depth) : handleReadTo depth s k = handleRead s k := by
  have any : ∀ fuel depth, ∀ s k, depthBound s k ≤ fuel → depthBound s k ≤ depth →
      handleReadTo fuel s k = handleReadTo depth s k := by
    intro fuel
    induction fuel with
    | zero => intro depth s k enough; simp [depthBound] at enough
    | succ fuel ih =>
        intro depth s k small large
        cases depth with
        | zero => simp [depthBound] at large
        | succ depth =>
            simp only [handleReadTo, bind, Except.bind]
            cases turn : handleReadTurn s k with
            | error e => rfl
            | ok next =>
                obtain ⟨again, s', k'⟩ := next
                cases again with
                | false => rfl
                | true =>
                    have less := handleReadTurn_again turn
                    simpa using ih depth s' k' (by omega) (by omega)
  exact any depth _ s k enough le_rfl

theorem handleRead_eq (s : HttpData) (k : Kernel) :
    handleRead s k = (handleReadTurn s k).bind fun (again, s', k') =>
      if again then handleRead s' k' else .ok (s', k') := by
  have unfolded : handleRead s k = handleReadTo (depthBound s k - 1 + 1) s k := rfl
  rw [unfolded]
  simp only [handleReadTo, bind, Except.bind]
  cases turn : handleReadTurn s k with
  | error e => rfl
  | ok next =>
      obtain ⟨again, s', k'⟩ := next
      cases again with
      | false => rfl
      | true =>
          have less := handleReadTurn_again turn
          exact handleReadTo_stable (Nat.le_sub_one_of_lt less)

/-- The invocations that one call of `HandleRead` makes. -/
inductive Invoked (s : HttpData) (k : Kernel) : HttpData → Kernel → Prop where
  | call : Invoked s k s k
  | nested {t : HttpData} {kt : Kernel} {t' : HttpData} {kt' : Kernel} :
      Invoked s k t kt → handleReadTurn t kt = .ok (true, t', kt') → Invoked s k t' kt'

theorem Invoked.of_nested {s t u : HttpData} {k kt ku : Kernel}
    (turn : handleReadTurn s k = .ok (true, t, kt)) (later : Invoked t kt u ku) :
    Invoked s k u ku := by
  induction later with
  | call => exact .nested .call turn
  | nested _ turn' ih => exact .nested ih turn'

theorem Invoked.single {s t : HttpData} {k kt : Kernel} (invoked : Invoked s k t kt)
    (last : (handleReadTurn s k).toOption.all (fun result => !result.1) = true) :
    t = s ∧ kt = k := by
  induction invoked with
  | call => exact ⟨rfl, rfl⟩
  | nested _ again ih =>
      obtain ⟨rfl, rfl⟩ := ih
      simp [again, Except.toOption] at last

theorem handleRead_last (s : HttpData) (k : Kernel) :
    ∃ t kt, Invoked s k t kt ∧ handleRead s k = (handleReadTurn t kt).map Prod.snd ∧
      ∀ t' kt', handleReadTurn t kt ≠ .ok (true, t', kt') := by
  induction size : depthBound s k using Nat.strong_induction_on generalizing s k with
  | _ n ih =>
      rw [handleRead_eq]
      cases turn : handleReadTurn s k with
      | error e => exact ⟨s, k, .call, by rw [turn]; rfl, by simp [turn]⟩
      | ok next =>
          obtain ⟨again, s', k'⟩ := next
          cases again with
          | false => exact ⟨s, k, .call, by rw [turn]; rfl, by simp [turn]⟩
          | true =>
              have less := handleReadTurn_again turn
              obtain ⟨t, kt, invoked, ends, last⟩ := ih _ (size ▸ less) s' k' rfl
              exact ⟨t, kt, .of_nested turn invoked, by simpa [Except.bind] using ends, last⟩

/-- The rule for `HandleRead`: what its invocations pass on, and what the last one ends with. -/
theorem handleRead_rule {P Q : HttpData → Kernel → Prop} {s s' : HttpData} {k k' : Kernel}
    (start : P s k)
    (nested : ∀ t kt t' kt', Invoked s k t kt → P t kt →
      handleReadTurn t kt = .ok (true, t', kt') → P t' kt')
    (last : ∀ t kt t' kt', Invoked s k t kt → P t kt →
      handleReadTurn t kt = .ok (false, t', kt') → Q t' kt')
    (ran : handleRead s k = .ok (s', k')) : Q s' k' := by
  obtain ⟨t, kt, invoked, ends, final⟩ := handleRead_last s k
  have kept : ∀ t kt, Invoked s k t kt → P t kt := by
    intro t kt invoked
    induction invoked with
    | call => exact start
    | nested before turn ih => exact nested _ _ _ _ before ih turn
  rw [ends] at ran
  cases turn : handleReadTurn t kt with
  | error e => simp [turn, Except.map] at ran
  | ok next =>
      obtain ⟨again, t', kt'⟩ := next
      simp only [turn, Except.map, Except.ok.injEq, Prod.mk.injEq] at ran
      obtain ⟨rfl, rfl⟩ := ran
      cases again with
      | true => exact absurd turn (final _ _)
      | false => exact last _ _ _ _ invoked (kept _ _ invoked) turn

end WebServer.HttpData
