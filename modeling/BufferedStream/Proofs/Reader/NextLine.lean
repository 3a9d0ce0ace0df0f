import BufferedStream.Proofs.Calm
import BufferedStream.Proofs.Reader.Latched

/-!
# The next line or piece

A line that does not fit into the buffer comes in pieces, and a carriage return at the end
of a piece is held back, in case the newline follows it.  What the next line or piece is
depends on the stretch ahead, the size of the buffer, and whether an error is latched
(`Reader.NextLine`).

* `Reader.readLine_nextLine` — reading a line, in these terms.
* `Reader.piece_rest` — a piece is followed by more of its line, unless nothing is ahead.
-/

namespace BufferedStream

namespace Reader

/-- The bytes without a carriage return at their end. -/
def dropReturn (b : Bytes) : Bytes :=
  if b.getLast? = some carriageReturn then b.dropLast else b

theorem dropReturn_concat (b : Bytes) : dropReturn (b ++ [carriageReturn]) = b := by
  rw [dropReturn, if_pos List.getLast?_concat, List.dropLast_concat]

theorem dropReturn_of_ne {b : Bytes} (h : b.getLast? ≠ some carriageReturn) : dropReturn b = b :=
  if_neg h

/-- A carriage return at the end is dropped, or there is none. -/
theorem dropReturn_cases (b : Bytes) :
    b = dropReturn b ++ [carriageReturn] ∨
      (b = dropReturn b ∧ b.getLast? ≠ some carriageReturn) := by
  by_cases h : b.getLast? = some carriageReturn
  · obtain ⟨init, rfl⟩ := List.getLast?_eq_some_iff.mp h
    rw [dropReturn_concat]
    exact .inl rfl
  · rw [dropReturn_of_ne h]
    exact .inr ⟨rfl, h⟩

theorem dropReturn_isPrefix (b : Bytes) : dropReturn b <+: b := by
  rcases dropReturn_cases b with h | ⟨h, -⟩
  · exact ⟨_, h.symm⟩
  · exact ⟨[], (List.append_nil _).trans h.symm⟩

/-- Only the last byte may be dropped. -/
theorem length_le_dropReturn (b : Bytes) : b.length ≤ (dropReturn b).length + 1 := by
  rcases dropReturn_cases b with h | ⟨h, -⟩
  · have hlength := congrArg List.length h
    rw [List.length_append, List.length_singleton] at hlength
    omega
  · rw [← h]
    omega

/-- What stands in front has no part in it, unless there is nothing else. -/
theorem dropReturn_append {b c : Bytes} (h : c = [] → b.getLast? ≠ some carriageReturn) :
    dropReturn (b ++ c) = b ++ dropReturn c := by
  by_cases hc : c = []
  · subst hc
    rw [List.append_nil, dropReturn_of_ne (h rfl)]
    exact (List.append_nil b).symm
  · rcases dropReturn_cases c with heq | ⟨heq, hne⟩
    · rw [heq, ← List.append_assoc, dropReturn_concat, dropReturn_concat]
    · rw [← heq, dropReturn_of_ne]
      rwa [List.getLast?_append, List.getLast?_eq_some_getLast hc, Option.some_or,
        ← List.getLast?_eq_some_getLast hc]

/-- The line end is the newline and the carriage return before it. -/
theorem stripLineEnd_concat (b : Bytes) : stripLineEnd (b ++ [newline]) = dropReturn b := by
  rw [stripLineEnd, if_pos List.getLast?_concat, List.dropLast_concat]
  rfl

theorem stripLineEnd_of_not_mem {b : Bytes} (h : newline ∉ b) : stripLineEnd b = b :=
  if_neg fun hlast => h (List.mem_of_getLast? hlast)

variable {τ : Type} [ByteSource τ] [ErringSource τ] {r r' : Reader τ} {ds : List Draw}

/-! ## One line -/

/-- The buffer will be full before a newline comes, and no error is latched. -/
structure Overfull (r : Reader τ) : Prop where
  unlatched : r.fault = none
  size_le : r.size ≤ r.stretch.length
  not_mem : newline ∉ r.stretch.take r.size

/-- What the next line or piece is. -/
inductive NextLine (r : Reader τ) : Except Error (Bytes × Bool) → Reader τ → Prop
  | line {before : Bytes} {r' : Reader τ} (hno : newline ∉ before)
      (hstretch : r.stretch = before ++ newline :: r'.stretch) (hstop : r'.stop = r.stop)
      (hroom : before.length < r.size) : NextLine r (.ok (dropReturn before, false)) r'
  | piece {r' : Reader τ} (hover : r.Overfull)
      (hstretch : r.stretch = dropReturn (r.stretch.take r.size) ++ r'.stretch)
      (hstop : r'.stop = r.stop) :
      NextLine r (.ok (dropReturn (r.stretch.take r.size), true)) r'
  /-- An error behind the last bytes of the stretch is forgotten. -/
  | last {r' : Reader τ} (hno : newline ∉ r.stretch) (hne : r.stretch ≠ [])
      (hroom : r.fault = none → r.stretch.length < r.size) :
      NextLine r (.ok (r.stretch, false)) r'
  | ended {r' : Reader τ} (hempty : r.stretch = []) : NextLine r (.error r.stop) r'

omit [ByteSource τ] [ErringSource τ] in
theorem holdBackReturn_fst (b : Bytes) (r : Reader τ) : (r.holdBackReturn b).1 = dropReturn b := by
  unfold holdBackReturn dropReturn
  split <;> rfl

/-- The carriage return that is held back is ahead again. -/
theorem stretch_retreat {b : Bytes} (hpast : (b ++ [carriageReturn]).reverse <+: r.window.past) :
    ({ r with window := r.window.retreat 1 } : Reader τ).stretch =
      carriageReturn :: r.stretch := by
  obtain ⟨later, hlater⟩ := hpast
  show (r.window.past.take 1).reverse ++ r.window.unread ++ _ = _
  rw [← hlater, List.reverse_append]
  rfl

/-- **What reading a line comes to.** -/
theorem ReadsLine.nextLine {l : Except Error (Bytes × Bool)} (hl : r.ReadsLine ds l r')
    (h : r.stop ≠ .bufferFull) : r.NextLine l r' := by
  cases hl with
  | @piece p r₁ r₂ b hs hfull hb =>
    have hfills := hs.fills h hfull
    have htake : r.stretch.take r.size = p.bytes := by
      rw [hfills.stretch_eq, List.take_left' hfills.length_eq]
    have hover : r.Overfull := by
      refine ⟨hfills.latched, ?_, htake.symm ▸ hfills.not_mem⟩
      rw [hfills.stretch_eq, List.length_append, hfills.length_eq]
      exact Nat.le_add_right ..
    have hpiece : b = dropReturn (r.stretch.take r.size) := by
      rw [htake, ← r₁.holdBackReturn_fst, hb]
    rw [hpiece]
    rcases holdBackReturn_eq hb with ⟨rfl, rfl⟩ | ⟨hbytes, rfl⟩
    · refine .piece hover ?_ hfills.stop_eq
      rw [← hpiece]
      exact hfills.stretch_eq
    · refine .piece hover ?_ hfills.stop_eq
      have hpast := hfills.past
      rw [hbytes] at hpast
      rw [← hpiece, stretch_noteDelivered, stretch_retreat hpast, hfills.stretch_eq, hbytes,
        List.append_assoc]
      rfl
  | line hs hfault hne =>
    cases hs.splits with
    | found hp hno hstretch hstop hroom =>
      rw [hp, stripLineEnd_concat]
      exact .line hno hstretch hstop hroom
    | full hfull => exact absurd hfull hfault
    | ended hp hno _ hroom =>
      rw [hp] at hne ⊢
      rw [stripLineEnd_of_not_mem hno]
      exact .last hno hne hroom
  | @failed e r₁ hs he =>
    cases hs.splits with
    | found hp => cases congrArg Passage.fault hp
    | full hfull => exact absurd (Option.some.inj hfull) he
    | ended hp =>
      obtain ⟨hempty, hstop⟩ := Passage.mk.inj hp
      rw [Option.some.inj hstop]
      exact .ended hempty.symm

theorem readLine_nextLine (h : r.Proper) (sh : Shared) :
    Act.Returns r.readLine sh fun (l, r') _ =>
      r.NextLine l r' ∧ ∃ ds, r.ReadsLine ds l r' := by
  refine (readLine_meets h.wf).imp ?_
  rintro ⟨l, r'⟩ sh' ⟨ds, hl⟩
  exact ⟨hl.nextLine (stop_ne_full_iff.mpr h.fault_ne_full), ds, hl⟩

/-! ## After a piece -/

/-- More of the line `b` is handed out. -/
def GoesOn (b : Bytes) (l : Except Error (Bytes × Bool)) : Prop :=
  ∃ c isPiece, l = .ok (c, isPiece) ∧ c <+: b ∧ newline ∉ c

theorem NextLine.goesOn {l : Except Error (Bytes × Bool)} (h : r.NextLine l r')
    (hne : r.stretch ≠ []) : GoesOn r.stretch l := by
  cases h with
  | @line before _ hno hstretch =>
    refine ⟨dropReturn before, false, rfl, ?_, fun hmem => ?_⟩
    · rw [hstretch]
      exact (dropReturn_isPrefix before).trans (List.prefix_append ..)
    · exact hno ((dropReturn_isPrefix before).subset hmem)
  | piece hover =>
    refine ⟨_, true, rfl, (dropReturn_isPrefix _).trans (List.take_prefix ..), fun hmem => ?_⟩
    exact hover.not_mem ((dropReturn_isPrefix _).subset hmem)
  | last hno => exact ⟨r.stretch, false, rfl, List.prefix_rfl, hno⟩
  | ended hempty => exact absurd hempty hne

theorem Overfull.ne_nil (hover : r.Overfull) (hwf : r.WF) : r.stretch ≠ [] :=
  List.ne_nil_of_length_pos (Nat.lt_of_lt_of_le hwf.size_pos hover.size_le)

theorem NextLine.eq_error {l : Except Error (Bytes × Bool)} (h : r.NextLine l r') (hwf : r.WF)
    (hempty : r.stretch = []) : l = .error r.stop := by
  cases h with
  | line _ hstretch => exact absurd (hstretch.symm.trans hempty) (by simp)
  | piece hover => exact absurd hempty (hover.ne_nil hwf)
  | last _ hne => exact absurd hempty hne
  | ended => rfl

/-- A piece comes just if the buffer fills up before the newline. -/
theorem NextLine.isPiece_iff {l : Except Error (Bytes × Bool)} (h : r.NextLine l r')
    (hwf : r.WF) : (∃ b, l = .ok (b, true)) ↔ r.Overfull := by
  cases h with
  | @line before _ hno hstretch _ hroom =>
    refine ⟨by rintro ⟨b, ⟨⟩⟩, fun hover => absurd ?_ hover.not_mem⟩
    rw [hstretch, List.take_append, List.mem_append]
    right
    obtain ⟨k, hk⟩ : ∃ k, r.size - before.length = k + 1 := ⟨r.size - before.length - 1, by omega⟩
    rw [hk, List.take_succ_cons]
    exact List.mem_cons_self
  | piece hover => exact ⟨fun _ => hover, fun _ => ⟨_, rfl⟩⟩
  | last _ _ hroom =>
    refine ⟨by rintro ⟨b, ⟨⟩⟩, fun hover => ?_⟩
    exact absurd (hroom hover.unlatched) (Nat.not_lt.mpr hover.size_le)
  | ended hempty =>
    exact ⟨by rintro ⟨b, ⟨⟩⟩, fun hover => absurd hempty (hover.ne_nil hwf)⟩

/-- Nothing is ahead behind a piece just if the stretch was as long as the buffer and no
carriage return was held back. -/
theorem Overfull.rest_eq_nil_iff {rest : Bytes} (hover : r.Overfull)
    (hstretch : r.stretch = dropReturn (r.stretch.take r.size) ++ rest) :
    rest = [] ↔ r.stretch.length = r.size ∧ r.stretch.getLast? ≠ some carriageReturn := by
  have hlength : (r.stretch.take r.size).length = r.size := List.length_take_of_le hover.size_le
  constructor
  · rintro rfl
    rw [List.append_nil] at hstretch
    rcases dropReturn_cases (r.stretch.take r.size) with heq | ⟨heq, hreturn⟩
    · rw [← hstretch] at heq
      have hshort := congrArg List.length heq
      rw [hlength, List.length_append, List.length_singleton] at hshort
      have hlong := hover.size_le
      omega
    · rw [← heq] at hstretch
      rw [hstretch]
      exact ⟨hlength, hreturn⟩
  · rintro ⟨hsize, hreturn⟩
    rw [← hsize, List.take_length, dropReturn_of_ne hreturn, List.self_eq_append_right] at hstretch
    exact hstretch

/-- **A piece is followed by more of its line, unless nothing is ahead.**  Over any erring
source and in every state that the reader may be in: a piece comes just if the buffer fills up
before the newline, with no error latched.  The next reading hands out more of the line,
or, if the piece was all of the stretch, reports the error behind it; and that is so just if
the stretch was as long as the buffer and did not end with a carriage return. -/
theorem piece_rest {σ : Type} [BulkSource σ] [ErringSource σ] {r : Reader σ} (hr : r.Reachable)
    (sh : Shared) :
    Act.Returns r.readLine sh fun (l, r₁) _ =>
      ((∃ b, l = .ok (b, true)) ↔ r.Overfull) ∧
        ∀ b, l = .ok (b, true) → r.stretch = b ++ r₁.stretch ∧
          (r₁.stretch = [] ↔
            r.stretch.length = r.size ∧ r.stretch.getLast? ≠ some carriageReturn) ∧
          ∀ sh', Act.Returns r₁.readLine sh' fun (l', _) _ =>
            if r₁.stretch = [] then l' = .error r.stop else GoesOn r₁.stretch l' := by
  have h := hr.proper
  refine (readLine_nextLine h sh).imp ?_
  rintro ⟨l, r₁⟩ sh₁ ⟨hnext, ds, hl⟩
  refine ⟨hnext.isPiece_iff h.wf, ?_⟩
  rintro b rfl
  have h₁ : r₁.Proper := Performs.proper (.readLine hl) h
  cases hnext with
  | piece hover hstretch hstop =>
    refine ⟨hstretch, hover.rest_eq_nil_iff hstretch, fun sh' => ?_⟩
    refine (readLine_nextLine h₁ sh').imp ?_
    rintro ⟨l', r₂⟩ sh₂ ⟨hnext', -⟩
    dsimp only
    split
    · rename_i hempty
      rw [← hstop]
      exact hnext'.eq_error h₁.wf hempty
    · rename_i hne
      exact hnext'.goesOn hne

/-- Sixteen letters, which come with the end of the stream. -/
def sixteenLetters : Script.Calm where
  source :=
    { items := [.piece [0x41, 0x42, 0x43, 0x44, 0x45, 0x46, 0x47, 0x48, 0x49, 0x4a, 0x4b, 0x4c,
        0x4d, 0x4e, 0x4f, 0x50] (some .eof)] }

/-- A buffer that the letters fill. -/
def filledByLetters : Reader Script.Calm := withCapacity sixteenLetters 16 0

/-- What is left once the letters were read. -/
def behindLetters : Reader Script.Calm :=
  match filledByLetters.readLine { pools := [] } with
  | .ok (_, r) _ => r
  | .error _ _ => filledByLetters

theorem readLine_filledByLetters :
    filledByLetters.readLine { pools := [] } =
      .ok (.ok (ErringSource.ahead sixteenLetters, true), behindLetters) { pools := [] } := rfl

theorem piece_rest_sixteenLetters :
    filledByLetters.Reachable ∧ filledByLetters.Overfull ∧
      Act.Returns behindLetters.readLine { pools := [] } fun (l, _) _ => l = .error .eof := by
  have hreached : filledByLetters.Reachable := .start sixteenLetters 16 0
  obtain ⟨hpiece, hrest⟩ :=
    (piece_rest hreached { pools := [] }).of_ok readLine_filledByLetters
  obtain ⟨-, -, hnext⟩ := hrest _ rfl
  refine ⟨hreached, hpiece.mp ⟨_, rfl⟩, ?_⟩
  refine (hnext { pools := [] }).imp ?_
  have hempty : behindLetters.stretch = [] := by decide +kernel
  rintro ⟨l, r⟩ sh hl
  simp only [hempty, if_true] at hl
  exact hl

/-- The letters are handed out as a piece, and then the end is reported in place of the rest. -/
theorem letters_without_rest :
    ∃ r sh r' sh',
      filledByLetters.readLine { pools := [] } =
        .ok (.ok (ErringSource.ahead sixteenLetters, true), r) sh ∧
      r.readLine sh = .ok (.error .eof, r') sh' :=
  ⟨behindLetters, { pools := [] }, _, _, readLine_filledByLetters, rfl⟩

end Reader

end BufferedStream
