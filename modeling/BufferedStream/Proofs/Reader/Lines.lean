import BufferedStream.Proofs.Reader.NextLine
import BufferedStream.Proofs.Split

/-!
# Reading lines to the end

Who reads lines from a stream until its end is reported, and joins each run of pieces with
the line that follows it, gets the lines of the stream.

* `Reader.lines`, `Reader.joined` — the lines of a byte string, and pieces joined to lines.
* `Reader.readsOut` — reading goes on to the end, from wherever the reader stands.
* `Reader.readLine_gives_lines` — from the start it brings all the lines.
-/

namespace BufferedStream

namespace Reader

/-! ## Lines -/

/-- The lines of a byte string: it is split at every newline, and one carriage return right
before the newline is removed; a last part that no newline ends is kept as it is, if it
is not empty. -/
def lines (b : Bytes) : List Bytes :=
  (Bytes.ended newline b).map dropReturn ++ Bytes.unlessEmpty (Bytes.leftover newline b)

example : lines [0x61, 0x0d, 0x0d, 0x0a, 0x0a, 0x62, 0x0d] = [[0x61, 0x0d], [], [0x62, 0x0d]] := by
  decide

/-- Join each run of pieces with the line that follows it; a run that no line follows is a
line by itself.  The run so far comes first, if there is one. -/
def joinFrom : (run : Option Bytes) → List (Bytes × Bool) → List Bytes
  | none, [] => []
  | some run, [] => [run]
  | run, (b, true) :: ls => joinFrom (some (run.getD [] ++ b)) ls
  | run, (b, false) :: ls => (run.getD [] ++ b) :: joinFrom none ls

/-- Join each run of pieces with the line that follows it. -/
def joined (ls : List (Bytes × Bool)) : List Bytes := joinFrom none ls

theorem joinFrom_line (run : Option Bytes) (b : Bytes) (ls : List (Bytes × Bool)) :
    joinFrom run ((b, false) :: ls) = (run.getD [] ++ b) :: joined ls := by
  cases run <;> rfl

theorem joinFrom_piece (run : Option Bytes) (b : Bytes) (ls : List (Bytes × Bool)) :
    joinFrom run ((b, true) :: ls) = joinFrom (some (run.getD [] ++ b)) ls := by
  cases run <;> rfl

theorem lines_append_cons {before : Bytes} (h : newline ∉ before) (rest : Bytes) :
    lines (before ++ newline :: rest) = dropReturn before :: lines rest := by
  rw [lines, Bytes.ended_append_cons h, Bytes.leftover_append_cons h]
  rfl

theorem lines_of_not_mem {b : Bytes} (h : newline ∉ b) : lines b = Bytes.unlessEmpty b := by
  rw [lines, Bytes.ended_of_not_mem h, Bytes.leftover_of_not_mem h]
  rfl

/-! ## Reading on to the end -/

section Ending

variable {τ : Type} [ByteSource τ] [EndingSource τ] {r r' r₁ : Reader τ} {ds : List Draw}

/-- Only the end may be latched, once nothing more comes from the source. -/
structure Ending (r : Reader τ) : Prop where
  wf : r.WF
  latched : ∀ e, r.fault = some e → e = .eof ∧ ErringSource.ahead r.source = []

theorem ending_withCapacity (s : τ) (size : Nat) (pool : PoolId) :
    (withCapacity s size pool).Ending :=
  ⟨wf_withCapacity s size pool, by rintro e ⟨⟩⟩

namespace Ending

theorem stop_eq (h : r.Ending) : r.stop = .eof := by
  cases hfault : r.fault with
  | none => rw [stop_of_fault_eq_none hfault, EndingSource.stop_eq]
  | some e => rw [stop_of_latched hfault, (h.latched e hfault).1]

theorem proper (h : r.Ending) : r.Proper := by
  refine ⟨h.wf, stop_ne_full_iff.mp ?_⟩
  rw [h.stop_eq]
  rintro ⟨⟩

theorem congr (h : r.Ending) (hwf : r'.WF) (hsource : r'.source = r.source)
    (hfault : r'.fault = none ∨ r'.fault = r.fault) : r'.Ending := by
  refine ⟨hwf, fun e he => ?_⟩
  rcases hfault with hnone | heq
  · rw [hnone] at he
    cases he
  · rw [hsource]
    exact h.latched e (heq ▸ he)

end Ending

theorem Pulled.ending (hp : r.Pulled ds r₁) (h : r.Ending) : r₁.Ending := by
  refine ⟨hp.wf, fun e he => ?_⟩
  by_cases hds : ds = []
  · subst hds
    rw [hp.calls.nil_eq]
    exact h.latched e (hp.fault_eq ▸ he)
  · rcases hp.leads hds with ⟨hnone, -⟩ | ⟨hstop, hahead⟩
    · rw [hnone] at he
      cases he
    · rw [he, Option.some.injEq, EndingSource.stop_eq] at hstop
      have hcalls := EndingSource.ahead_of_calls hp.calls
      rw [hahead, List.self_eq_append_right] at hcalls
      exact ⟨hstop, hcalls⟩

/-- A scan takes its bytes from the front of the stretch, also when it meets the end. -/
theorem Scans.ending {delim : UInt8} {p : Passage} (hs : r.Scans delim ds p r') (h : r.Ending) :
    r'.Ending ∧ r.stretch = p.bytes ++ r'.stretch := by
  have hwf := hs.wf
  cases hs with
  | @found r₁ i hp =>
    refine ⟨(hp.ending h).congr hwf rfl (.inr rfl), ?_⟩
    rw [← hp.stretch_eq]
    show r₁.window.unread ++ _ = r₁.window.unread.take _ ++ (r₁.window.unread.drop _ ++ _)
    rw [← List.append_assoc, List.take_append_drop]
  | full hp => exact ⟨(hp.ending h).congr hwf rfl (.inr rfl), hp.stretch_eq.symm⟩
  | @ended r₁ r₂ e hp hno he hs =>
    have h₁ := hp.ending h
    refine ⟨h₁.congr hwf hs.source_eq (.inl rfl), ?_⟩
    have hempty : r₂.cleared.stretch = [] := by
      rw [stretch_of_fault_eq_none rfl]
      show r₂.window.unread ++ ErringSource.ahead r₂.source = []
      rw [hs.unread_eq, hs.source_eq]
      exact (h₁.latched e he).2
    rw [hempty, List.append_nil, ← hp.stretch_eq, stretch_of_latched he]

/-- Reading a line keeps to the stream; a line that no newline ends is the last. -/
theorem ReadsLine.ending {l : Except Error (Bytes × Bool)} (hl : r.ReadsLine ds l r')
    (h : r.Ending) :
    r'.Ending ∧ (∀ b, l = .ok (b, false) → newline ∉ r.stretch → r'.stretch = []) := by
  have hwf := hl.wf
  cases hl with
  | piece hs _ hb =>
    have h₁ := (hs.ending h).1
    refine ⟨?_, by rintro b ⟨⟩⟩
    rcases holdBackReturn_eq hb with ⟨-, rfl⟩ | ⟨-, rfl⟩
    · exact h₁.congr hwf rfl (.inr rfl)
    · exact h₁.congr hwf rfl (.inr rfl)
  | @line p r₁ hs hfault =>
    obtain ⟨h₁, hstretch⟩ := hs.ending h
    refine ⟨h₁.congr hwf rfl (.inr rfl), fun b _ hno => ?_⟩
    cases hs.splits with
    | found _ _ hsplit =>
      rw [hsplit] at hno
      exact absurd (List.mem_append_right _ List.mem_cons_self) hno
    | full hfull => exact absurd hfull hfault
    | ended hp =>
      rw [hp, List.self_eq_append_right] at hstretch
      exact hstretch
  | failed hs => exact ⟨(hs.ending h).1.congr hwf rfl (.inr rfl), by rintro b ⟨⟩⟩

/-- The run of pieces `b` belongs to the line that the stretch goes on with.  If it ends with a
carriage return, another one was held back, so no newline comes next. -/
structure Continues (r : Reader τ) (b : Bytes) : Prop where
  not_mem : newline ∉ b
  head_ne : b.getLast? = some carriageReturn → r.stretch.head? ≠ some newline

theorem continues_nil (r : Reader τ) : r.Continues [] := ⟨List.not_mem_nil, by rintro ⟨⟩⟩

/-- What was read is joined to the lines of what the run and the stretch are together, and
then the end was reported. -/
def JoinsTo (run : Option Bytes) (b : Bytes) (entries : List (Entry Op Outcome (Reader τ))) :
    Prop :=
  ∃ ls : List (Bytes × Bool),
    entries.map Entry.outcome = ls.map (fun l => .line (.ok l)) ++ [.line (.error .eof)] ∧
      joinFrom run ls = lines (run.getD [] ++ b)

/-- Lines are read from the reader until the end is reported, which joins them to the run. -/
def ReadsOut (run : Option Bytes) (r : Reader τ) (sh : Shared) : Prop :=
  ∃ n, Act.Returns (Act.performAll perform (List.replicate n .readLine) r) sh fun entries _ =>
    JoinsTo run r.stretch entries

/-- One more line is read first. -/
theorem ReadsOut.cons {run run' : Option Bytes} {l : Bytes × Bool} {sh' : Shared}
    (hrest : r'.ReadsOut run' sh') (hfirst : perform .readLine r sh = .ok (.line (.ok l), r') sh')
    (hjoin : ∀ ls, joinFrom run' ls = lines (run'.getD [] ++ r'.stretch) →
      joinFrom run (l :: ls) = lines (run.getD [] ++ r.stretch)) : r.ReadsOut run sh := by
  obtain ⟨n, hrest⟩ := hrest
  refine ⟨n + 1, ?_⟩
  rw [List.replicate_succ, Act.performAll]
  refine Act.meets_bind.mpr (Act.meets_of_eq hfirst (Act.meets_bind.mpr (hrest.imp ?_)))
  rintro entries sh'' ⟨ls, houtcomes, hls⟩
  exact ⟨l :: ls, congrArg (Outcome.line (.ok l) :: ·) houtcomes, hjoin ls hls⟩

/-- A line completes its run. -/
theorem Continues.lines_eq {run before rest : Bytes} (h : r.Continues run)
    (hno : newline ∉ before) (hstretch : r.stretch = before ++ newline :: rest) :
    lines (run ++ r.stretch) = (run ++ dropReturn before) :: lines rest := by
  have hboth : newline ∉ run ++ before := by
    rw [List.mem_append, not_or]
    exact ⟨h.not_mem, hno⟩
  have hreturn : before = [] → run.getLast? ≠ some carriageReturn := by
    rintro rfl hlast
    refine h.head_ne hlast ?_
    rw [hstretch]
    rfl
  rw [hstretch, ← List.append_assoc, lines_append_cons hboth, dropReturn_append hreturn]

/-- A piece continues its run. -/
theorem Continues.piece {run : Bytes} (h : r.Continues run) (hover : r.Overfull) (hwf : r.WF)
    (hstretch : r.stretch = dropReturn (r.stretch.take r.size) ++ r'.stretch) :
    dropReturn (r.stretch.take r.size) ≠ [] ∧
      r'.Continues (run ++ dropReturn (r.stretch.take r.size)) := by
  have hlength : (r.stretch.take r.size).length = r.size := List.length_take_of_le hover.size_le
  have hsize : 2 ≤ r.size := Nat.le_trans (by decide) hwf.size_ge
  have hne : dropReturn (r.stretch.take r.size) ≠ [] := by
    have hle := length_le_dropReturn (r.stretch.take r.size)
    exact List.ne_nil_of_length_pos (by omega)
  refine ⟨hne, ?_, fun hlast => ?_⟩
  · rw [List.mem_append, not_or]
    exact ⟨h.not_mem, fun hmem => hover.not_mem ((dropReturn_isPrefix _).subset hmem)⟩
  · rw [List.getLast?_append, List.getLast?_eq_some_getLast hne, Option.some_or,
      ← List.getLast?_eq_some_getLast hne] at hlast
    rcases dropReturn_cases (r.stretch.take r.size) with heq | ⟨heq, hreturn⟩
    · -- the carriage return behind the piece is the next byte
      have hnext : r'.stretch = carriageReturn :: r.stretch.drop r.size := by
        have hsplit := List.take_append_drop r.size r.stretch
        rw [heq, List.append_assoc] at hsplit
        exact List.append_cancel_left (hstretch.symm.trans hsplit.symm)
      rw [hnext]
      show some carriageReturn ≠ some newline
      decide
    · rw [← heq] at hlast
      exact absurd hlast hreturn

/-- **Lines are read until the end.**  By recursion on the bytes ahead: every reading but the
last takes some of them. -/
theorem readsOut (run : Option Bytes) (r : Reader τ) (h : r.Ending) (hne : run ≠ some [])
    (hrun : r.Continues (run.getD [])) (sh : Shared) : r.ReadsOut run sh := by
  obtain ⟨⟨l, r'⟩, sh', hread, hnext, ds, hl⟩ := (readLine_nextLine h.proper sh).exists_ok
  obtain ⟨h', hlast⟩ := hl.ending h
  have hfirst : perform .readLine r sh = .ok (.line l, r') sh' := by
    simp only [perform, bind, EStateM.bind, hread]
    rfl
  cases hnext with
  | @line before _ hno hstretch =>
    have hshorter : r'.stretch.length < r.stretch.length := by
      rw [hstretch, List.length_append, List.length_cons]
      omega
    have hrest := readsOut none r' h' (by rintro ⟨⟩) (continues_nil r') sh'
    refine hrest.cons hfirst fun ls hls => ?_
    rw [joinFrom_line, hrun.lines_eq hno hstretch]
    exact congrArg (_ :: ·) hls
  | piece hover hstretch =>
    obtain ⟨hpiece, hcontinues⟩ := hrun.piece hover h.wf hstretch
    have hshorter : r'.stretch.length < r.stretch.length := by
      have hlength := congrArg List.length hstretch
      rw [List.length_append] at hlength
      have hpos := List.length_pos_iff.mpr hpiece
      omega
    have hrest := readsOut (some (run.getD [] ++ dropReturn (r.stretch.take r.size))) r' h'
      (by simp [hpiece]) hcontinues sh'
    refine hrest.cons hfirst fun ls hls => ?_
    rw [joinFrom_piece, hls]
    show lines (run.getD [] ++ _ ++ r'.stretch) = _
    rw [List.append_assoc, ← hstretch]
  | last hno hne' =>
    have hempty := hlast _ rfl hno
    have hshorter : r'.stretch.length < r.stretch.length := by
      rw [hempty]
      exact List.length_pos_iff.mpr hne'
    have hrest := readsOut none r' h' (by rintro ⟨⟩) (continues_nil r') sh'
    refine hrest.cons hfirst fun ls hls => ?_
    rw [hempty] at hls
    have hboth : newline ∉ run.getD [] ++ r.stretch := by
      rw [List.mem_append, not_or]
      exact ⟨hrun.not_mem, hno⟩
    rw [joinFrom_line, lines_of_not_mem hboth,
      Bytes.unlessEmpty_of_ne_nil (List.append_ne_nil_of_right_ne_nil _ hne')]
    exact congrArg (_ :: ·) hls
  | ended hempty =>
    refine ⟨1, ?_⟩
    refine Act.meets_bind.mpr (Act.meets_of_eq hfirst ?_)
    refine ⟨[], by rw [h.stop_eq]; rfl, ?_⟩
    rw [hempty, List.append_nil, lines_of_not_mem hrun.not_mem]
    cases run with
    | none => rfl
    | some b => exact (Bytes.unlessEmpty_of_ne_nil fun hb => hne (congrArg some hb)).symm
termination_by r.stretch.length

/-- **The lines of a stream come back.**  Over any source that ends, whatever pieces it hands
out, and with a buffer of any size: reading lines brings lines and pieces and, after so many
readings, the end.  Each run of pieces joined with the line that follows it, these are the
lines of the stream. -/
theorem readLine_gives_lines (s : τ) (size : Nat) (pool : PoolId) (sh : Shared) :
    ∃ n, Act.Returns
      (Act.performAll perform (List.replicate n .readLine) (withCapacity s size pool)) sh
      fun entries _ => ∃ ls : List (Bytes × Bool),
        entries.map Entry.outcome = ls.map (fun l => .line (.ok l)) ++ [.line (.error .eof)] ∧
          joined ls = lines (ErringSource.ahead s) := by
  have h := ending_withCapacity s size pool
  have hread := readsOut none (withCapacity s size pool) h (by rintro ⟨⟩) (continues_nil _) sh
  obtain ⟨n, hreturns⟩ := hread
  refine ⟨n, hreturns.imp ?_⟩
  rintro entries sh' ⟨ls, houtcomes, hjoined⟩
  exact ⟨ls, houtcomes, hjoined⟩

end Ending

/-- A newline that comes apart from its carriage return, a line that is longer than the buffer by
its newline, an empty line, and a last one that no newline ends. -/
def cutLines : Script.Steady where
  source :=
    { items := [.piece [0x61, 0x62, 0x0d] none, .piece [0x0a, 0x63, 0x64, 0x65, 0x66, 0x67, 0x68,
        0x69, 0x6a, 0x6b, 0x6c, 0x6d, 0x6e, 0x6f, 0x70, 0x71, 0x0d] none,
        .piece [0x0a, 0x0a, 0x72, 0x0d] (some .eof)] }

theorem readLine_gives_lines_cutLines :
    ∃ n, Act.Returns
      (Act.performAll perform (List.replicate n .readLine) (withCapacity cutLines 16 0))
      { pools := [] } fun entries _ => ∃ ls : List (Bytes × Bool),
        entries.map Entry.outcome = ls.map (fun l => .line (.ok l)) ++ [.line (.error .eof)] ∧
          joined ls = [[0x61, 0x62], [0x63, 0x64, 0x65, 0x66, 0x67, 0x68, 0x69, 0x6a, 0x6b, 0x6c,
            0x6d, 0x6e, 0x6f, 0x70, 0x71], [], [0x72, 0x0d]] := by
  obtain ⟨n, hreturns⟩ := readLine_gives_lines cutLines 16 0 { pools := [] }
  refine ⟨n, hreturns.imp ?_⟩
  rintro entries sh' ⟨ls, houtcomes, hjoined⟩
  exact ⟨ls, houtcomes, hjoined.trans (by decide)⟩

end Reader

end BufferedStream
