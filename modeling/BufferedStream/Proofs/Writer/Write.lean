import BufferedStream.Proofs.Rune
import BufferedStream.Proofs.Writer.Pass
import BufferedStream.Writer.Write

/-!
# What writing does

Writing takes at most two rounds, one that passes the topped-up buffer on and one
that passes the rest directly; then what is left fits and is queued.

* `Writer.Round`, `Writer.Rounds` — the rounds, and that two are enough
  (`Writer.Rounds.fits`).
* `Writer.write_meets`, `Writer.writeByte_meets`, `Writer.writeRune_meets` — the
  operations; `holds_eq` says of each what it adds to the bytes that the writer
  answers for.
-/

namespace BufferedStream

open Keeping (kept)

namespace Writer

variable {κ : Type} {H : Halt → Prop} {sh : Shared}

/-! ## Queueing what fits -/

/-- Queueing as many bytes as fit. -/
inductive Copies (b : Bytes) (w : Writer κ) : Writer κ → Prop
  | nothing (h : b = []) : Copies b w w
  | queued {length : Nat} {spare : Bytes} (h : b ≠ []) :
      Copies b w ((w.withBlock (some length) spare).enqueue (b.take w.available))

theorem copyIn_meets (b : Bytes) (w : Writer κ) :
    Act.Meets H (w.copyIn b) sh fun (n, w') _ =>
      n = (b.take w.available).length ∧ w.Copies b w' := by
  unfold copyIn
  split
  · rename_i h
    subst h
    exact ⟨by rw [List.take_nil]; rfl, .nothing rfl⟩
  · rename_i h
    refine Act.meets_bind.mpr ((acquire_meets w).imp ?_)
    rintro w₁ sh₁ ⟨length, spare, rfl⟩
    exact ⟨rfl, .queued h⟩

namespace Copies

variable {b : Bytes} {w w' : Writer κ}

theorem sink_eq (h : w.Copies b w') : w'.sink = w.sink := by cases h <;> rfl

theorem size_eq (h : w.Copies b w') : w'.size = w.size := by cases h <;> rfl

theorem queued_eq (h : w.Copies b w') : w'.queued = w.queued ++ b.take w.available := by
  cases h with
  | nothing h => rw [h, List.take_nil, List.append_nil]
  | queued => rfl

theorem fault_eq (h : w.Copies b w') : w'.fault = w.fault := by cases h <;> rfl

theorem wf (h : w.Copies b w') (hw : w.WF) : w'.WF := by
  cases h with
  | nothing => exact hw
  | queued => exact hw.enqueue (List.length_take_le ..) _ _

theorem holds_eq [Keeping κ] (h : w.Copies b w') :
    w'.holds = w.holds ++ b.take w.available := by
  cases h with
  | nothing h => rw [h, List.take_nil, List.append_nil]
  | queued => exact w.holds_enqueue ..

end Copies

variable [ByteSink κ] [Keeping κ]

/-! ## Rounds -/

/-- One round of writing bytes that do not fit: with an empty buffer they are
offered to the sink, otherwise the buffer is topped up and passed on. -/
inductive Round (b : Bytes) (w : Writer κ) : List Send → Nat → Writer κ → Prop
  | direct {receipt : Receipt} {w' : Writer κ} (hqueued : w.queued = [])
      (hp : w.Passes b receipt w') : Round b w [⟨b, receipt⟩] receipt.count w'
  | topped {ss : List Send} {w₁ w' : Writer κ} (hne : w.queued ≠ []) (hc : w.Copies b w₁)
      (hf : w₁.Flushes ss w') : Round b w ss (b.take w.available).length w'

namespace Round

variable {b : Bytes} {w w' : Writer κ} {ss : List Send} {n : Nat}

theorem sends (h : w.Round b ss n w') : Sends w.sink ss w'.sink := by
  cases h with
  | direct _ hp => exact .cons hp.writes (.nil _)
  | topped _ hc hf => exact hc.sink_eq ▸ hf.sends

theorem size_eq (h : w.Round b ss n w') : w'.size = w.size := by
  cases h with
  | direct _ hp => exact hp.size_eq
  | topped _ hc hf => exact hf.size_eq.trans hc.size_eq

theorem count_le (h : w.Round b ss n w') : n ≤ b.length := by
  cases h with
  | direct _ hp => exact hp.count_le
  | topped => exact List.length_take_le' ..

theorem wf (h : w.Round b ss n w') (hw : w.WF) : w'.WF := by
  cases h with
  | direct _ hp => exact hp.wf hw
  | topped _ hc hf => exact hf.wf (hc.wf hw)

theorem holds_eq (h : w.Round b ss n w') : w'.holds = w.holds ++ b.take n := by
  cases h with
  | direct hqueued hp =>
    rw [holds, holds, hp.kept_eq, hp.queued_eq, hqueued, List.append_nil, List.append_nil]
  | topped _ hc hf =>
    rw [hf.holds_eq, hc.holds_eq]
    simp

/-- Unless the sink failed, the round emptied the buffer, and took everything if
it was empty before. -/
theorem empties (h : w.Round b ss n w') (hfault : w'.fault = none) :
    w'.queued = [] ∧ (w.queued = [] → n = b.length) := by
  cases h with
  | direct hqueued hp => exact ⟨hp.queued_eq.trans hqueued, fun _ => hp.count_eq hfault⟩
  | topped hne hc hf => exact ⟨hf.queued_eq_nil hfault, fun h => absurd h hne⟩

end Round

/-- Rounds until the rest fits or the sink fails, at most so many. -/
inductive Rounds : (rounds : Nat) → Bytes → Writer κ → List Send → Nat → Writer κ → Prop
  | done {rounds : Nat} {b : Bytes} {w : Writer κ}
      (h : b.length ≤ w.available ∨ w.fault.isSome = true ∨ rounds = 0) :
      Rounds rounds b w [] 0 w
  | round {rounds : Nat} {b : Bytes} {w w₁ w₂ : Writer κ} {ss ts : List Send} {n m : Nat}
      (hlong : w.available < b.length) (hfault : w.fault = none) (hr : w.Round b ss n w₁)
      (hrest : Rounds rounds (b.drop n) w₁ ts m w₂) :
      Rounds (rounds + 1) b w (ss ++ ts) (n + m) w₂

/-- One round. -/
theorem writeRound_meets [HonestSink H κ] (b : Bytes) (w : Writer κ) :
    Act.Meets H (w.writeRound b) sh fun (n, w') _ => ∃ ss, w.Round b ss n w' := by
  unfold writeRound
  split
  · rename_i hqueued
    refine (pass_meets b w).imp ?_
    rintro ⟨n, w'⟩ sh' ⟨receipt, rfl, hp⟩
    exact ⟨_, .direct hqueued hp⟩
  · rename_i hne
    refine Act.meets_bind.mpr ((copyIn_meets b w).imp ?_)
    rintro ⟨n, w₁⟩ sh₁ ⟨rfl, hc⟩
    refine Act.meets_bind.mpr ((flushQueue_meets w₁).imp ?_)
    rintro w' sh' ⟨ss, hf⟩
    exact ⟨ss, .topped hne hc hf⟩

/-- By induction on the rounds: what was taken before is counted in front. -/
theorem writeRounds_meets [HonestSink H κ] (rounds total : Nat) (b : Bytes) (w : Writer κ) :
    Act.Meets H (w.writeRounds rounds total b) sh fun (total', rest, w') _ => ∃ ss n,
      w.Rounds rounds b ss n w' ∧ total' = total + n ∧ rest = b.drop n := by
  induction rounds generalizing total b w sh with
  | zero => exact ⟨[], 0, .done (.inr (.inr rfl)), rfl, rfl⟩
  | succ rounds ih =>
    rw [writeRounds]
    split
    · rename_i h
      simp only [Bool.and_eq_true, decide_eq_true_eq, Option.isNone_iff_eq_none] at h
      refine Act.meets_bind.mpr ((writeRound_meets b w).imp ?_)
      rintro ⟨n, w₁⟩ sh₁ ⟨ss, hr⟩
      refine (ih (total + n) (b.drop n) w₁).imp ?_
      rintro ⟨total', rest, w'⟩ sh' ⟨ts, m, hrest, rfl, rfl⟩
      exact ⟨_, _, .round h.1 h.2 hr hrest, Nat.add_assoc .., List.drop_drop⟩
    · rename_i h
      rw [Bool.not_eq_true, Bool.and_eq_false_iff, decide_eq_false_iff_not, Nat.not_lt,
        Option.isNone_eq_false_iff] at h
      exact ⟨[], 0, .done (h.imp id .inl), rfl, rfl⟩

namespace Rounds

variable {rounds n : Nat} {b : Bytes} {w w' : Writer κ} {ss : List Send}

theorem sends (h : Rounds rounds b w ss n w') : Sends w.sink ss w'.sink := by
  induction h with
  | done => exact .nil _
  | round _ _ hr _ ih => exact hr.sends.append ih

theorem size_eq (h : Rounds rounds b w ss n w') : w'.size = w.size := by
  induction h with
  | done => rfl
  | round _ _ hr _ ih => exact ih.trans hr.size_eq

theorem count_le (h : Rounds rounds b w ss n w') : n ≤ b.length := by
  induction h with
  | done => exact Nat.zero_le _
  | round _ _ hr _ ih =>
    have hle := hr.count_le
    rw [List.length_drop] at ih
    omega

theorem wf (h : Rounds rounds b w ss n w') (hw : w.WF) : w'.WF := by
  induction h with
  | done => exact hw
  | round _ _ hr _ ih => exact ih (hr.wf hw)

theorem holds_eq (h : Rounds rounds b w ss n w') : w'.holds = w.holds ++ b.take n := by
  induction h with
  | done => rw [List.take_zero, List.append_nil]
  | round _ _ hr _ ih => rw [ih, hr.holds_eq, List.append_assoc, ← List.take_add]

/-- **Two rounds are enough**, unless the sink fails: the first empties the buffer,
and what is too long for the empty buffer goes to the sink whole. -/
theorem fits (h : Rounds 2 b w ss n w') (hfault : w'.fault = none) :
    (b.drop n).length ≤ w'.available := by
  have hdone : ∀ {c : Bytes} {v : Writer κ} {rounds : Nat}, v.fault = none →
      c.length ≤ v.available ∨ v.fault.isSome = true ∨ rounds + 1 = 0 →
      (c.drop 0).length ≤ v.available := by
    intro c v rounds hv hc
    exact hc.resolve_right (by simp [hv])
  cases h with
  | done h => exact hdone hfault h
  | @round _ _ _ w₁ _ _ _ n₁ m _ _ hr hrest =>
    rw [← List.drop_drop]
    cases hrest with
    | done h => exact hdone hfault h
    | round _ hnone hr₁ hlast =>
      cases hlast with
      | done =>
        have hall := (hr₁.empties hfault).2 (hr.empties hnone).1
        rw [Nat.add_zero, hall, List.drop_length]
        exact Nat.zero_le _

end Rounds

/-! ## Writing bytes -/

/-- The ways of writing bytes. -/
inductive Writes (b : Bytes) (w : Writer κ) : List Send → Receipt → Writer κ → Prop
  | failed {ss : List Send} {n : Nat} {e : Error} {w' : Writer κ} (hr : Rounds 2 b w ss n w')
      (he : w'.fault = some e) : Writes b w ss ⟨n, some e⟩ w'
  | queued {ss : List Send} {n : Nat} {w₁ w' : Writer κ} (hr : Rounds 2 b w ss n w₁)
      (hnone : w₁.fault = none) (hc : w₁.Copies (b.drop n) w') :
      Writes b w ss ⟨b.length, none⟩ w'

theorem write_meets [HonestSink H κ] (b : Bytes) (w : Writer κ) :
    Act.Meets H (w.write b) sh fun (receipt, w') _ => ∃ ss, w.Writes b ss receipt w' := by
  refine Act.meets_bind.mpr ((writeRounds_meets 2 0 b w).imp ?_)
  rintro ⟨total, rest, w₁⟩ sh₁ ⟨ss, n, hr, rfl, rfl⟩
  dsimp only
  rw [Nat.zero_add]
  split
  · rename_i e he
    exact ⟨ss, .failed hr he⟩
  · rename_i hnone
    refine Act.meets_bind.mpr ((copyIn_meets _ w₁).imp ?_)
    rintro ⟨m, w'⟩ sh' ⟨rfl, hc⟩
    have hall : n + ((b.drop n).take w₁.available).length = b.length := by
      rw [List.take_of_length_le (hr.fits hnone), List.length_drop]
      have := hr.count_le
      omega
    rw [Act.meets_pure, hall]
    exact ⟨ss, .queued hr hnone hc⟩

namespace Writes

variable {b : Bytes} {w w' : Writer κ} {ss : List Send} {receipt : Receipt}

theorem sends (h : w.Writes b ss receipt w') : Sends w.sink ss w'.sink := by
  cases h with
  | failed hr => exact hr.sends
  | queued hr _ hc => exact hc.sink_eq ▸ hr.sends

theorem size_eq (h : w.Writes b ss receipt w') : w'.size = w.size := by
  cases h with
  | failed hr => exact hr.size_eq
  | queued hr _ hc => exact hc.size_eq.trans hr.size_eq

theorem fault_eq (h : w.Writes b ss receipt w') : w'.fault = receipt.fault := by
  cases h with
  | failed _ he => exact he
  | queued _ hnone hc => exact hc.fault_eq.trans hnone

theorem count_le (h : w.Writes b ss receipt w') : receipt.count ≤ b.length := by
  cases h with
  | failed hr => exact hr.count_le
  | queued => exact Nat.le_refl _

/-- Unless the sink failed, everything was accepted. -/
theorem count_eq (h : w.Writes b ss receipt w') (hfault : receipt.fault = none) :
    receipt.count = b.length := by
  cases h with
  | failed => cases hfault
  | queued => rfl

theorem wf (h : w.Writes b ss receipt w') (hw : w.WF) : w'.WF := by
  cases h with
  | failed hr => exact hr.wf hw
  | queued hr _ hc => exact hc.wf (hr.wf hw)

/-- **Writing accepts the bytes it counts**, from the front. -/
theorem holds_eq (h : w.Writes b ss receipt w') :
    w'.holds = w.holds ++ b.take receipt.count := by
  cases h with
  | failed hr => exact hr.holds_eq
  | queued hr hnone hc =>
    rw [hc.holds_eq, hr.holds_eq, List.take_of_length_le (hr.fits hnone), List.append_assoc,
      List.take_append_drop, List.take_length]

end Writes

/-! ## Writing one character -/

/-- Making room for `n` bytes and queueing `b`, unless the sink has failed. -/
inductive Puts (n : Nat) (b : Bytes) (w : Writer κ) : List Send → Writer κ → Prop
  | failed {ss : List Send} {w' : Writer κ} (hm : w.MakesRoom n ss w')
      (hsome : w'.fault.isSome = true) : Puts n b w ss w'
  | queued {ss : List Send} {w₁ : Writer κ} {length : Nat} {spare : Bytes}
      (hm : w.MakesRoom n ss w₁) (hnone : w₁.fault = none) (hroom : n ≤ w₁.available) :
      Puts n b w ss ((w₁.withBlock (some length) spare).enqueue b)

namespace Puts

variable {n : Nat} {b : Bytes} {w w' : Writer κ} {ss : List Send}

theorem sends (h : w.Puts n b ss w') : Sends w.sink ss w'.sink := by
  cases h with
  | failed hm => exact hm.sends
  | queued hm => exact hm.sends

theorem size_eq (h : w.Puts n b ss w') : w'.size = w.size := by
  cases h with
  | failed hm => exact hm.size_eq
  | queued hm => exact hm.size_eq

theorem wf (h : w.Puts n b ss w') (hb : b.length ≤ n) (hw : w.WF) : w'.WF := by
  cases h with
  | failed hm => exact hm.wf hw
  | queued hm _ hroom => exact (hm.wf hw).enqueue (Nat.le_trans hb hroom) _ _

/-- All is accepted, or nothing. -/
theorem holds_eq (h : w.Puts n b ss w') :
    (w'.fault = none ∧ w'.holds = w.holds ++ b) ∨
      (w'.fault.isSome = true ∧ w'.holds = w.holds) := by
  cases h with
  | failed hm hsome => exact .inr ⟨hsome, hm.holds_eq⟩
  | queued hm hnone =>
    refine .inl ⟨hnone, ?_⟩
    rw [holds_enqueue, hm.holds_eq]

end Puts

theorem writeByte_meets [HonestSink H κ] {w : Writer κ} (h : w.WF) (b : UInt8) :
    Act.Meets H (w.writeByte b) sh fun (result, w') _ => ∃ ss,
      w.Puts 1 [b] ss w' ∧ result = w'.outcome () := by
  refine Act.meets_bind.mpr ((makeRoom_meets 1 w).imp ?_)
  rintro w₁ sh₁ ⟨ss, hm⟩
  split
  · rename_i e he
    exact ⟨ss, .failed hm (by rw [he]; rfl), by rw [outcome, he]⟩
  · rename_i hnone
    refine Act.meets_bind.mpr ((acquire_meets w₁).imp ?_)
    rintro w₂ sh₂ ⟨length, spare, rfl⟩
    refine ⟨ss, .queued hm hnone (hm.available_pos h hnone), ?_⟩
    show Except.ok () = outcome () _
    rw [outcome, show ((w₁.withBlock (some length) spare).enqueue [b]).fault = none from hnone]

/-- The ways of writing a character. -/
inductive PutsRune (c : Char) (w : Writer κ) : List Send → Writer κ → Prop
  | put {n : Nat} {ss : List Send} {w' : Writer κ} (hn : (Rune.encode c).length ≤ n)
      (hp : w.Puts n (Rune.encode c) ss w') : PutsRune c w ss w'
  /-- A buffer too small for any character takes it byte by byte. -/
  | piecewise {ss ts : List Send} {receipt : Receipt} {w₁ w' : Writer κ}
      (hsize : w.size < Rune.maxWidth) (hm : w.MakesRoom Rune.maxWidth ss w₁)
      (hw : w₁.Writes (Rune.encode c) ts receipt w') : PutsRune c w (ss ++ ts) w'

theorem writeRune_meets [HonestSink H κ] {w : Writer κ} (h : w.WF) (c : Char) :
    Act.Meets H (w.writeRune c) sh fun (result, w') _ => ∃ ss,
      w.PutsRune c ss w' ∧ result = w'.outcome (Rune.encode c).length := by
  unfold writeRune
  split
  · rename_i hlt
    have hencode := Rune.encode_of_lt hlt
    refine Act.meets_bind.mpr ((writeByte_meets h _).imp ?_)
    rintro ⟨result, w'⟩ sh' ⟨ss, hp, rfl⟩
    rw [← hencode] at hp
    refine ⟨ss, .put (by rw [hencode]; exact Nat.le_refl 1) hp, ?_⟩
    rw [hencode]
    unfold outcome
    split <;> rfl
  · refine Act.meets_bind.mpr ((makeRoom_meets Rune.maxWidth w).imp ?_)
    rintro w₁ sh₁ ⟨ss, hm⟩
    split
    · rename_i e he
      exact ⟨ss, .put (Rune.length_encode_le c) (.failed hm (by rw [he]; rfl)), by rw [outcome, he]⟩
    · rename_i hnone
      split
      · rename_i hsmall
        have hsize : w.size < Rune.maxWidth := by
          rw [← hm.size_eq, ← (hm.room hnone).resolve_left (Nat.not_le.mpr hsmall)]
          exact hsmall
        refine Act.meets_bind.mpr ((write_meets _ w₁).imp ?_)
        rintro ⟨receipt, w'⟩ sh' ⟨ts, hw⟩
        have hfault := hw.fault_eq
        dsimp only
        split
        · rename_i e he
          rw [he] at hfault
          exact ⟨_, .piecewise hsize hm hw, by rw [outcome, hfault]⟩
        · rename_i he
          rw [he] at hfault
          exact ⟨_, .piecewise hsize hm hw, by rw [outcome, hfault, hw.count_eq he]⟩
      · rename_i hroom
        have hroom := Nat.le_of_not_lt hroom
        refine Act.meets_bind.mpr ((acquire_meets w₁).imp ?_)
        rintro w₂ sh₂ ⟨length, spare, rfl⟩
        refine ⟨ss, .put (Rune.length_encode_le c) (.queued hm hnone hroom), ?_⟩
        show Except.ok _ = outcome _ _
        rw [outcome, show ((w₁.withBlock (some length) spare).enqueue _).fault = none from hnone]

namespace PutsRune

variable {c : Char} {w w' : Writer κ} {ss : List Send}

theorem sends (h : w.PutsRune c ss w') : Sends w.sink ss w'.sink := by
  cases h with
  | put _ hp => exact hp.sends
  | piecewise _ hm hw => exact hm.sends.append hw.sends

theorem size_eq (h : w.PutsRune c ss w') : w'.size = w.size := by
  cases h with
  | put _ hp => exact hp.size_eq
  | piecewise _ hm hw => exact hw.size_eq.trans hm.size_eq

theorem wf (h : w.PutsRune c ss w') (hw : w.WF) : w'.WF := by
  cases h with
  | put hn hp => exact hp.wf hn hw
  | piecewise _ hm hws => exact hws.wf (hm.wf hw)

/-- A character is accepted whole if the writer has not failed.  If it has, only a
buffer too small for any character may have accepted a part. -/
theorem holds_eq (h : w.PutsRune c ss w') :
    (w'.fault = none ∧ w'.holds = w.holds ++ Rune.encode c) ∨
      (w'.fault.isSome = true ∧ ∃ n, w'.holds = w.holds ++ (Rune.encode c).take n ∧
        (Rune.maxWidth ≤ w.size → n = 0)) := by
  cases h with
  | put _ hp =>
    refine hp.holds_eq.imp id fun ⟨hsome, hholds⟩ => ⟨hsome, 0, ?_, fun _ => rfl⟩
    rw [hholds, List.take_zero, List.append_nil]
  | @piecewise _ _ receipt _ _ hsize hm hw =>
    have hholds := hw.holds_eq
    rw [hm.holds_eq] at hholds
    cases hfault : receipt.fault with
    | none =>
      refine .inl ⟨hw.fault_eq.trans hfault, ?_⟩
      rw [hholds, hw.count_eq hfault, List.take_length]
    | some e =>
      refine .inr ⟨by rw [hw.fault_eq, hfault]; rfl, receipt.count, hholds, fun hle => ?_⟩
      omega

end PutsRune

end Writer

end BufferedStream
