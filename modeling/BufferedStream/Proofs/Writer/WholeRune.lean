import BufferedStream.Proofs.Script
import BufferedStream.Proofs.Writer.Calls
import BufferedStream.Proofs.Writer.Latching

/-!
# Whole characters, or none

A character is queued whole, once there is room for it; if none can be made, because the sink
failed, nothing of it is accepted.  Only a buffer that is shorter than the character's encoding
passes it on as it is, and then the sink decides how much of it is accepted.

* `Writer.PutsRune.whole_or_front` — the three things that may come of a character.
* `Writer.writeRune_whole_or_none` — all or nothing, unless the buffer is too short for the
  character; then all, nothing, or what the sink took of it in one call.
* `Writer.writeRune_torn` — a character torn apart by a buffer of one byte.
-/

namespace BufferedStream

open Keeping (kept)

namespace Writer

section Sends

variable {κ : Type} [ByteSink κ] [Keeping κ] {c : Char} {w w' : Writer κ} {ss : List Send}

/-- Of bytes that find the buffer empty, and do not reach the sink whole, the sink was offered
all in one call. -/
theorem Writes.offered_at_once {b : Bytes} {receipt : Receipt} (h : w.Writes b ss receipt w')
    (hqueued : w.queued = []) (hnone : w.fault = none) (hfailed : receipt.fault.isSome = true) :
    w.size < b.length ∧ ∃ answer, ss = [⟨b, answer⟩] ∧ receipt.count = answer.count := by
  cases h with
  | failed hr he =>
    rcases hr.direct hqueued with ⟨-, rfl, -⟩ | ⟨answer, rfl, hcount, hlong⟩
    · rw [hnone] at he
      cases he
    · exact ⟨hlong, answer, rfl, hcount⟩
  | queued => cases hfailed

/-- **A character is accepted whole or not at all**, unless the buffer is shorter than its
encoding: then it may be that the sink was offered the encoding, and failed to take all of it. -/
theorem PutsRune.whole_or_front (h : w.PutsRune c ss w') :
    (w'.fault = none ∧ w'.holds = w.holds ++ Rune.encode c) ∨
      (w'.fault.isSome = true ∧ (w'.holds = w.holds ∨ w.size < (Rune.encode c).length ∧
        ∃ ts answer, ss = ts ++ [⟨Rune.encode c, answer⟩] ∧
          w'.holds = w.holds ++ (Rune.encode c).take answer.count)) := by
  cases h with
  | put _ hp => exact hp.holds_eq.imp id fun ⟨hsome, hholds⟩ => ⟨hsome, .inl hholds⟩
  | @piecewise ss ts receipt w₁ _ hsize hm hw =>
    have hholds := hw.holds_eq
    rw [hm.holds_eq] at hholds
    cases hfault : receipt.fault with
    | none =>
      refine .inl ⟨hw.fault_eq.trans hfault, ?_⟩
      rw [hholds, hw.count_eq hfault, List.take_length]
    | some e =>
      refine .inr ⟨by rw [hw.fault_eq, hfault]; rfl, ?_⟩
      cases he : w₁.fault with
      | some e =>
        left
        rw [(hw.refused he).2, hm.holds_eq]
      | none =>
        have hqueued : w₁.queued = [] := by
          cases hm with
          | enough hroom => exact absurd hroom (Nat.not_le.mpr
              (Nat.lt_of_le_of_lt (Nat.sub_le ..) hsize))
          | flushed _ hf => exact hf.queued_eq_nil he
        obtain ⟨hlong, answer, rfl, hcount⟩ :=
          hw.offered_at_once hqueued he (by rw [hfault]; rfl)
        rw [hm.size_eq] at hlong
        rw [hcount] at hholds
        exact .inr ⟨hlong, ss, answer, rfl, hholds⟩

end Sends

variable {κ : Type} [BulkSink κ] [Keeping κ] {H : Halt → Prop} [HonestSink H κ]

/-- What came of writing the character `c`: all of it was accepted, or nothing, except that of
an encoding longer than the buffer the sink may have taken the front, in one call that offered
it whole. -/
structure WholeOrNone (c : Char) (w : Writer (Watched κ)) (result : Except Error Nat)
    (w' : Writer (Watched κ)) : Prop where
  whole_of_ok : ∀ n, result = .ok n →
    n = (Rune.encode c).length ∧ w'.holds = w.holds ++ Rune.encode c
  none_of_error : ∀ e, result = .error e → (Rune.encode c).length ≤ w.size →
    w'.holds = w.holds
  front_of_error : ∀ e, result = .error e → w'.holds = w.holds ∨
    ∃ calls answer, w'.sink.calls = w.sink.calls ++ calls ++ [Send.call ⟨Rune.encode c, answer⟩] ∧
      w'.holds = w.holds ++ (Rune.encode c).take answer.count

/-- **Characters are written whole or not at all.**  Writing a character that is reported as
written appends its encoding, and its width is returned.  If an error is reported, nothing was
accepted, except that a buffer shorter than the encoding leaves it to the sink how much of the
encoding to take, in one call. -/
theorem writeRune_whole_or_none {w : Writer (Watched κ)} (hw : w.WF) (c : Char) (sh : Shared) :
    Act.Meets H (w.writeRune c) sh fun (result, w') _ => WholeOrNone c w result w' := by
  refine (writeRune_meets hw c).imp ?_
  rintro ⟨result, w'⟩ sh' ⟨ss, hputs, rfl⟩
  rcases hputs.whole_or_front with ⟨hnone, hholds⟩ | ⟨hsome, hfront⟩
  · rw [outcome_of_none _ hnone]
    refine ⟨?_, nofun, nofun⟩
    rintro n ⟨⟩
    exact ⟨rfl, hholds⟩
  · obtain ⟨e, he⟩ := Option.isSome_iff_exists.mp hsome
    rw [outcome_of_some _ he]
    refine ⟨nofun, fun _ _ hroom => ?_, fun _ _ => ?_⟩
    · exact hfront.resolve_right fun h => by omega
    · refine hfront.imp id ?_
      rintro ⟨-, ts, answer, rfl, hholds⟩
      refine ⟨ts.map Send.call, answer, ?_, hholds⟩
      rw [Watched.calls_of_sends hputs.sends, List.map_append, List.append_assoc]
      rfl

/-- A sink that takes one byte of what it is offered first, and reports no error. -/
def grudging : Unbulked Script.TruthfulSink where
  sink := { sink := { items := [.take 1 none] } }

/-- A writer over it, with a buffer of so many bytes. -/
def narrow (size : Nat) : Writer (Watched (Unbulked Script.TruthfulSink)) :=
  { sink := .start grudging, size, pool := 0 }

/-- With room for one byte only, the first of two bytes is accepted although an error is
reported. -/
theorem writeRune_torn : (narrow 1).WF ∧ ∃ w' sh',
    (narrow 1).writeRune (Char.ofNat 0xE9) { pools := [] } = .ok (.error .shortWrite, w') sh' ∧
      (narrow 1).holds = [] ∧ w'.holds = [0xC3] :=
  ⟨⟨by decide, by decide, fun _ => rfl⟩, _, _, rfl, rfl, rfl⟩

/-- The tearing is what the exception allows. -/
theorem writeRune_whole_or_none_narrow : ∃ w' sh',
    (narrow 1).writeRune (Char.ofNat 0xE9) { pools := [] } = .ok (.error .shortWrite, w') sh' ∧
      WholeOrNone (Char.ofNat 0xE9) (narrow 1) (.error .shortWrite) w' := by
  have hw : (narrow 1).WF := ⟨by decide, by decide, fun _ => rfl⟩
  have hmeets : Act.Returns ((narrow 1).writeRune (Char.ofNat 0xE9)) { pools := [] } _ :=
    writeRune_whole_or_none hw (Char.ofNat 0xE9) { pools := [] }
  exact ⟨_, _, rfl, hmeets.of_ok rfl⟩

end Writer

end BufferedStream
