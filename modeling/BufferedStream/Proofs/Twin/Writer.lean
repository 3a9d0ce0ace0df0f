import BufferedStream.Proofs.Agree
import BufferedStream.Proofs.Twin.Sink
import BufferedStream.Proofs.Writer.Draw
import BufferedStream.Proofs.Writer.Operation

/-!
# Twin writers

Two writers over the same sink that take their blocks from different pools hold
different blocks: one was handed back and the other was not, one is longer than
the other, and what lies behind the queued bytes is whatever the blocks held.
*Twins* (`Writer.Twin`) differ in no more than that, and nothing they do tells
them apart: of a block only the queued bytes are ever passed on.

* `Writer.write_agree`, `Writer.writeRune_agree`, `Writer.readFrom_agree` and the
  like — each operation brings the same from twins and leaves them twins.
* A writer over a blind sink is a blind sink itself, so all this holds of writers
  upon writers, whatever pools they share.
-/

namespace BufferedStream

namespace Writer

open BlindSink (Same)

variable {κ : Type} {w t w' t' : Writer κ}

/-! ## Twins -/

/-- The writers are the same, but for their pools, for what lies behind their queued
bytes and, with nothing queued, for whether they hold a block. -/
structure Twin [ByteSink κ] [BlindSink κ] (w t : Writer κ) : Prop where
  sink : Same w.sink t.sink
  size : w.size = t.size
  queued : w.queued = t.queued
  fault : w.fault = t.fault
  held : w.queued ≠ [] → w.held.isSome = t.held.isSome

/-- The same came of both, and the writers are twins. -/
abbrev Both {α : Type} [ByteSink κ] [BlindSink κ] (x y : α × Writer κ) : Prop :=
  x.1 = y.1 ∧ Twin x.2 y.2

/-! ## The block -/

theorem acquire_usesPools (w : Writer κ) : Act.UsesPools w.acquire := by
  intro sh
  unfold acquire
  split
  · rfl
  · simp only [Act.meets_bind, Act.meets_acquire, Act.meets_pure]
    exact sh.alike_withPool ..

theorem settle_usesPools (w : Writer κ) : Act.UsesPools w.settle := by
  intro sh
  unfold settle
  split
  · split
    · rfl
    · simp only [Act.meets_bind, Act.meets_bufferSize]
      split
      · simp only [Act.meets_bind, Act.meets_release]
        split
        · exact sh.alike_withPool ..
        · exact sh.alike_withPool ..
      · rfl
  · rfl

theorem surrender_usesPools (w : Writer κ) : Act.UsesPools w.surrender := by
  intro sh
  unfold surrender
  split
  · simp only [Act.meets_bind, Act.meets_release, Act.meets_pure]
    exact sh.alike_withPool ..
  · rfl

theorem acquire_agree (w t : Writer κ) :
    Act.Agree (fun w' t' => (∃ length spare, w' = w.withBlock (some length) spare) ∧
      ∃ length spare, t' = t.withBlock (some length) spare) w.acquire t.acquire :=
  Act.agree_of_usesPools w.acquire_usesPools t.acquire_usesPools (fun _ => acquire_meets w)
    fun _ => acquire_meets t

theorem surrender_agree (w t : Writer κ) :
    Act.Agree (fun _ _ => True) w.surrender t.surrender :=
  (Act.agree_of_usesPools w.surrender_usesPools t.surrender_usesPools
    (fun sh => (w.surrender_usesPools sh).imp fun _ _ _ => trivial)
    (fun sh => (t.surrender_usesPools sh).imp fun _ _ _ => trivial)).imp fun _ _ _ => trivial

section Write

variable [ByteSink κ] [BlindSink κ]

namespace Twin

theorem available (h : Twin w t) : w.available = t.available := by
  unfold Writer.available Writer.buffered
  rw [h.size, h.queued]

/-- Handing the block back leaves twins twins, whichever of them does. -/
theorem settles (h : Twin w t) (hw : w.Settles w') (ht : t.Settles t') : Twin w' t' := by
  have hqueued : w'.queued = t'.queued := by rw [hw.queued_eq, ht.queued_eq, h.queued]
  refine ⟨by rw [hw.sink_eq, ht.sink_eq]; exact h.sink, ?_, hqueued,
    by rw [hw.fault_eq, ht.fault_eq, h.fault], fun hne => ?_⟩
  · cases hw <;> cases ht <;> exact h.size
  · -- with a byte queued neither hands its block back
    cases hw with
    | returns hnil => exact absurd hnil hne
    | keeps =>
      cases ht with
      | returns hnil => exact absurd (h.queued.trans hnil) hne
      | keeps => exact h.held hne

/-- Twins that hold a block each queue the same bytes. -/
theorem enqueue (h : Twin w t) {b b' : Bytes} (hb : b = b') (length length' : Nat)
    (spare spare' : Bytes) :
    Twin ((w.withBlock (some length) spare).enqueue b)
      ((t.withBlock (some length') spare').enqueue b') where
  sink := h.sink
  size := h.size
  queued := by
    show w.queued ++ b = t.queued ++ b'
    rw [h.queued, hb]
  fault := h.fault
  held _ := rfl

theorem dequeue (h : Twin w t) (n : Nat) : Twin (w.dequeue n) (t.dequeue n) where
  sink := h.sink
  size := h.size
  queued := congrArg (List.drop n) h.queued
  fault := h.fault
  held hne := h.held fun hnil => hne (by rw [Writer.dequeue, hnil, List.drop_nil])

theorem outcome {α : Type} (h : Twin w t) (a : α) : w.outcome a = t.outcome a := by
  unfold Writer.outcome
  rw [h.fault]

end Twin

theorem settle_agree (h : Twin w t) : Act.Agree Twin w.settle t.settle :=
  (Act.agree_of_usesPools w.settle_usesPools t.settle_usesPools (fun _ => settle_meets w)
    fun _ => settle_meets t).imp fun _ _ hs => h.settles hs.1 hs.2

/-! ## Passing bytes on -/

theorem pass_agree (h : Twin w t) (b : Bytes) : Act.Agree Both (w.pass b) (t.pass b) := by
  unfold pass
  refine (BlindSink.write_same b h.sink).bind ?_
  rintro ⟨receipt, k⟩ ⟨_, k'⟩ ⟨rfl, hk⟩
  refine Act.agree_require.bind fun _ _ _ => ?_
  dsimp only
  have hlatched : ∀ fault fault' : Option Error, fault = fault' →
      Twin { w with sink := k, fault } { t with sink := k', fault := fault' } :=
    fun _ _ hfault => ⟨hk, h.size, h.queued, hfault, h.held⟩
  split
  · exact Act.agree_pure ⟨rfl, hlatched _ _ rfl⟩
  · refine .ite Iff.rfl (fun _ => ?_) fun _ => ?_
    · exact Act.agree_pure ⟨rfl, hlatched _ _ rfl⟩
    · exact Act.agree_pure ⟨rfl, hlatched _ _ h.fault⟩

theorem flushQueue_agree (h : Twin w t) : Act.Agree Twin w.flushQueue t.flushQueue := by
  unfold flushQueue
  refine .ite (by rw [h.fault, h.queued]) (fun _ => Act.agree_pure h) fun _ => ?_
  rw [h.queued]
  refine (pass_agree h t.queued).bind ?_
  rintro ⟨n, w₁⟩ ⟨_, t₁⟩ ⟨rfl, h₁⟩
  exact Act.agree_pure (h₁.dequeue n)

theorem makeRoom_agree (h : Twin w t) (n : Nat) :
    Act.Agree Twin (w.makeRoom n) (t.makeRoom n) :=
  .ite (by rw [h.available]) (fun _ => flushQueue_agree h) fun _ => Act.agree_pure h

theorem flush_agree (h : Twin w t) : Act.Agree Both w.flush t.flush := by
  refine (flushQueue_agree h).bind fun w₁ t₁ h₁ => ?_
  refine (settle_agree h₁).bind fun w₂ t₂ h₂ => ?_
  exact Act.agree_pure ⟨h₁.outcome (), h₂⟩

/-! ## Writing -/

theorem copyIn_agree (h : Twin w t) (b : Bytes) : Act.Agree Both (w.copyIn b) (t.copyIn b) := by
  unfold copyIn
  refine .ite Iff.rfl (fun _ => Act.agree_pure ⟨rfl, h⟩) fun _ => ?_
  refine (acquire_agree w t).bind ?_
  rintro _ _ ⟨⟨length, spare, rfl⟩, length', spare', rfl⟩
  have htaken : b.take w.available = b.take t.available := by rw [h.available]
  exact Act.agree_pure ⟨congrArg List.length htaken, h.enqueue htaken ..⟩

theorem writeRound_agree (h : Twin w t) (b : Bytes) :
    Act.Agree Both (w.writeRound b) (t.writeRound b) := by
  refine .ite (by rw [h.queued]) (fun _ => pass_agree h b) fun _ => ?_
  refine (copyIn_agree h b).bind ?_
  rintro ⟨n, w₁⟩ ⟨_, t₁⟩ ⟨rfl, h₁⟩
  exact (flushQueue_agree h₁).bind fun _ _ h₂ => Act.agree_pure ⟨rfl, h₂⟩

/-- By induction on the rounds: twins pass the same on in each. -/
theorem writeRounds_agree (rounds total : Nat) (h : Twin w t) (b : Bytes) :
    Act.Agree (fun x y => x.1 = y.1 ∧ x.2.1 = y.2.1 ∧ Twin x.2.2 y.2.2)
      (writeRounds rounds total b w) (writeRounds rounds total b t) := by
  induction rounds generalizing total b w t with
  | zero => exact Act.agree_pure ⟨rfl, rfl, h⟩
  | succ rounds ih =>
    rw [writeRounds, writeRounds]
    refine .ite (by rw [h.available, h.fault]) (fun _ => ?_)
      fun _ => Act.agree_pure ⟨rfl, rfl, h⟩
    refine (writeRound_agree h b).bind ?_
    rintro ⟨n, w₁⟩ ⟨_, t₁⟩ ⟨rfl, h₁⟩
    exact ih _ h₁ _

/-- **Writing.**  Twins pass the same bytes on and queue the same. -/
theorem write_agree (h : Twin w t) (b : Bytes) : Act.Agree Both (w.write b) (t.write b) := by
  refine (writeRounds_agree 2 0 h b).bind ?_
  rintro ⟨total, b₁, w₁⟩ ⟨_, _, t₁⟩ ⟨rfl, rfl, h₁⟩
  dsimp only
  rw [h₁.fault]
  cases t₁.fault with
  | some e => exact Act.agree_pure ⟨rfl, h₁⟩
  | none =>
    refine (copyIn_agree h₁ b₁).bind ?_
    rintro ⟨n, w₂⟩ ⟨_, t₂⟩ ⟨rfl, h₂⟩
    exact Act.agree_pure ⟨rfl, h₂⟩

/-- Taking a block if none is held, and queueing bytes that fit. -/
theorem acquire_enqueue_agree {α : Type} (h : Twin w t) (a : α) (b : Bytes) :
    Act.Agree Both (do return (a, (← w.acquire).enqueue b))
      (do return (a, (← t.acquire).enqueue b)) := by
  refine (acquire_agree w t).bind ?_
  rintro _ _ ⟨⟨length, spare, rfl⟩, length', spare', rfl⟩
  exact Act.agree_pure ⟨rfl, h.enqueue rfl ..⟩

theorem writeByte_agree (h : Twin w t) (b : UInt8) :
    Act.Agree Both (w.writeByte b) (t.writeByte b) := by
  refine (makeRoom_agree h 1).bind fun w₁ t₁ h₁ => ?_
  rw [h₁.fault]
  cases t₁.fault with
  | some e => exact Act.agree_pure ⟨rfl, h₁⟩
  | none => exact acquire_enqueue_agree h₁ _ _

theorem writeRune_agree (h : Twin w t) (c : Char) :
    Act.Agree Both (w.writeRune c) (t.writeRune c) := by
  unfold writeRune
  refine .ite Iff.rfl (fun _ => ?_) fun _ => ?_
  · refine (writeByte_agree h _).bind ?_
    rintro ⟨result, w₁⟩ ⟨_, t₁⟩ ⟨rfl, h₁⟩
    exact Act.agree_pure ⟨rfl, h₁⟩
  · refine (makeRoom_agree h _).bind fun w₁ t₁ h₁ => ?_
    rw [h₁.fault]
    cases t₁.fault with
    | some e => exact Act.agree_pure ⟨rfl, h₁⟩
    | none =>
      refine .ite (by rw [h₁.available]) (fun _ => ?_) fun _ => acquire_enqueue_agree h₁ _ _
      refine (write_agree h₁ _).bind ?_
      rintro ⟨receipt, w₂⟩ ⟨_, t₂⟩ ⟨rfl, h₂⟩
      dsimp only
      cases receipt.fault with
      | some e => exact Act.agree_pure ⟨rfl, h₂⟩
      | none => exact Act.agree_pure ⟨rfl, h₂⟩

theorem plainWrite_agree (h : Twin w t) (b : Bytes) :
    Act.Agree Both (w.plainWrite b) (t.plainWrite b) := by
  refine (write_agree h b).bind ?_
  rintro ⟨receipt, w₁⟩ ⟨_, t₁⟩ ⟨rfl, h₁⟩
  refine .ite Iff.rfl (fun _ => Act.agree_pure ⟨rfl, h₁⟩) fun _ => ?_
  dsimp only
  cases receipt.fault with
  | none => exact Act.agree_pure ⟨rfl, h₁⟩
  | some e => exact Act.agree_pure ⟨rfl, h₁⟩

theorem plainFlush_agree (h : Twin w t) : Act.Agree Both w.plainFlush t.plainFlush := by
  refine (flush_agree h).bind ?_
  rintro ⟨result, w₁⟩ ⟨_, t₁⟩ ⟨rfl, h₁⟩
  exact Act.agree_pure ⟨rfl, h₁⟩

/-! ## Changing hands -/

omit [ByteSink κ] [BlindSink κ] in
theorem withCapacity_usesPools (k : κ) (size : Nat) (pool : PoolId) :
    Act.UsesPools (withCapacity k size pool) := fun _ => rfl

/-- Given the size, new writers over the same sink are twins, whatever their pools. -/
theorem withCapacity_agree {k k' : κ} (hk : Same k k') {size : Nat} (hpos : 0 < size)
    (pool pool' : PoolId) :
    Act.Agree (fun w t => Twin w t ∧ w.queued = [])
      (withCapacity k size pool) (withCapacity k' size pool') := by
  refine (Act.agree_of_usesPools (withCapacity_usesPools k size pool)
    (withCapacity_usesPools k' size pool') (fun _ => withCapacity_meets k size pool)
    fun _ => withCapacity_meets k' size pool').imp ?_
  rintro w t ⟨⟨hw, -, hwsize⟩, ht, -, htsize⟩
  refine ⟨⟨?_, (hwsize hpos).trans (htsize hpos).symm, hw.queued.trans ht.queued.symm,
    hw.fault.trans ht.fault.symm, fun hne => absurd hw.queued hne⟩, hw.queued⟩
  rw [hw.sink, ht.sink]
  exact hk

/-- Only the queued bytes move along. -/
theorem regrow_agree (h : Twin w t) {size : Nat} (hpos : 0 < size) (pool pool' : PoolId) :
    Act.Agree Twin (w.regrow size pool) (t.regrow size pool') := by
  have hmoves : (w.held.isSome && w.queued ≠ []) = true ↔
      (t.held.isSome && t.queued ≠ []) = true := by
    rw [← h.queued]
    by_cases hnil : w.queued = []
    · simp [hnil]
    · rw [h.held hnil]
  unfold regrow
  refine (withCapacity_agree h.sink hpos pool pool').bind fun g g' ⟨hg, hnil⟩ => ?_
  have hlatched : Twin { g with fault := w.fault } { g' with fault := t.fault } :=
    ⟨hg.sink, hg.size, hg.queued, h.fault, fun hne => absurd hnil hne⟩
  dsimp only
  refine .ite hmoves (fun _ => ?_) fun _ => ?_
  · refine (acquire_agree _ _).bind ?_
    rintro _ _ ⟨⟨length, spare, rfl⟩, length', spare', rfl⟩
    refine (surrender_agree w t).bind fun _ _ _ => Act.agree_pure ?_
    exact hlatched.enqueue h.queued ..
  · exact (surrender_agree w t).bind fun _ _ _ => Act.agree_pure hlatched

theorem adapt_agree (h : Twin w t) (size : Nat) (pool pool' : PoolId) :
    Act.Agree Twin (w.adapt size pool) (t.adapt size pool') := by
  refine .ite (by rw [h.size]) (fun _ => Act.agree_pure h) fun hlt => ?_
  exact regrow_agree h (by omega) pool pool'

/-- The sinks are returned, or the writers kept, for the same reason. -/
def Yields : Except (Error × Writer κ) κ → Except (Error × Writer κ) κ → Prop
  | .ok k, .ok k' => Same k k'
  | .error x, .error y => Both x y
  | _, _ => False

theorem intoSink_agree (h : Twin w t) : Act.Agree Yields w.intoSink t.intoSink := by
  refine (flush_agree h).bind ?_
  rintro ⟨result, w₁⟩ ⟨_, t₁⟩ ⟨rfl, h₁⟩
  dsimp only
  cases result with
  | error e => exact Act.agree_pure ⟨rfl, h₁⟩
  | ok _ => exact (surrender_agree w₁ t₁).bind fun _ _ _ => Act.agree_pure h₁.sink

/-! ## Drawing a source -/

section Draw

variable {σ : Type} [ByteSource σ] [BlindSource σ] {s s' : σ}

/-- The same was drawn into twins from sources that are the same. -/
abbrev Drew {α : Type} (x y : α × Writer κ × σ) : Prop :=
  x.1 = y.1 ∧ Twin x.2.1 y.2.1 ∧ BlindSource.Same x.2.2 y.2.2

theorem concludeTransfer_agree (h : Twin w t) (total : Nat) (fault : Option Error) :
    Act.Agree Both (w.concludeTransfer total fault) (t.concludeTransfer total fault) := by
  unfold concludeTransfer
  split
  · refine (makeRoom_agree h 1).bind fun w₁ t₁ h₁ => ?_
    exact Act.agree_pure ⟨by rw [h₁.fault], h₁⟩
  · exact Act.agree_pure ⟨rfl, h⟩

variable [HonestSource (fun _ => True) σ]

/-- An honest source hands out what it puts into the room, so what lay there does not
show. -/
theorem draw_agree (h : Twin w t) (hs : BlindSource.Same s s') :
    Act.Agree Drew (w.draw s) (t.draw s') := by
  refine (acquire_agree w t).bind ?_
  rintro _ _ ⟨⟨length, spare, rfl⟩, length', spare', rfl⟩
  have hroom : w.available = t.available := h.available
  have hread := (BlindSource.read_same ⟨w.available, spare⟩ ⟨t.available, spare'⟩ hs
    hroom).and_meets fun sh => (HonestSource.read_honest (H := fun _ => True) s
      ⟨w.available, spare⟩ sh).imp fun _ _ hg => hg.1
  refine hread.bind ?_
  rintro ⟨g, s₁⟩ ⟨_, s₁'⟩ ⟨⟨rfl, hs₁⟩, hcount⟩
  show Act.Agree Drew (Act.require (g.count ≤ w.available) (.sourceOverrun _ w.available) >>= _)
    (Act.require (g.count ≤ t.available) (.sourceOverrun _ t.available) >>= _)
  rw [hroom]
  refine Act.agree_require.bind fun _ _ _ => ?_
  rw [Grant.bytesIn_eq_data hcount, Grant.bytesIn_eq_data hcount]
  refine Act.agree_pure ⟨rfl, ⟨h.sink, h.size, ?_, h.fault, fun _ => rfl⟩, hs₁⟩
  exact congrArg (· ++ g.data) h.queued

/-- By induction on the rounds: twins draw and pass on in step. -/
theorem drawRounds_agree (rounds total : Nat) (h : Twin w t) (hs : BlindSource.Same s s') :
    Act.Agree Drew (drawRounds rounds total w s) (drawRounds rounds total t s') := by
  induction rounds generalizing total w t s s' with
  | zero => exact Act.agree_throw _
  | succ rounds ih =>
    rw [drawRounds, drawRounds]
    refine (makeRoom_agree h 1).bind fun w₁ t₁ h₁ => ?_
    refine .ite (by rw [h₁.fault]) (fun _ => ?_) fun _ => ?_
    · exact Act.agree_pure ⟨by rw [h₁.fault], h₁, hs⟩
    · refine (draw_agree h₁ hs).bind ?_
      rintro ⟨g, w₂, s₂⟩ ⟨_, t₂, s₂'⟩ ⟨rfl, h₂, hs₂⟩
      refine .ite Iff.rfl (fun _ => ?_) fun _ => ih _ h₂ hs₂
      refine (concludeTransfer_agree h₂ _ _).bind ?_
      rintro ⟨receipt, w₃⟩ ⟨_, t₃⟩ ⟨rfl, h₃⟩
      exact Act.agree_pure ⟨rfl, h₃, hs₂⟩

end Draw

/-! ## Writers as sinks -/

/-- Nothing tells twins apart that are only written to. -/
instance : BlindSink (Writer κ) where
  Same := Twin
  same_refl w := ⟨BlindSink.same_refl w.sink, rfl, rfl, rfl, fun _ => rfl⟩
  write_same b h := write_agree h b

end Write

section Intake

variable [BulkSink κ] [BlindSink κ] [BlindIntake κ] {σ : Type} [ByteSource σ] [BlindSource σ]
  [HonestSource (fun _ => True) σ] {s s' : σ}

/-- **Drawing a source.**  Twins leave it to their sinks alike, and else draw in step. -/
theorem readFrom_agree (h : Twin w t) (hs : BlindSource.Same s s') :
    Act.Agree Drew (w.readFrom s) (t.readFrom s') := by
  have hrounds : ∀ {w t : Writer κ} {s s' : σ}, Twin w t → BlindSource.Same s s' →
      Act.Agree Drew (do drawRounds (← Act.patience) 0 w s)
        (do drawRounds (← Act.patience) 0 t s') := by
    intro w t s s' h hs
    refine Act.agree_patience.bind ?_
    rintro rounds _ rfl
    exact drawRounds_agree rounds 0 h hs
  unfold readFrom
  refine .ite (by rw [h.fault]) (fun _ => Act.agree_pure ⟨by rw [h.fault], h, hs⟩) fun _ => ?_
  refine .ite (by rw [h.queued]) (fun _ => ?_) fun _ => hrounds h hs
  refine (BlindIntake.readFrom_same h.sink hs).bind ?_
  rintro ⟨bulk, k, s₁⟩ ⟨_, k', s₁'⟩ ⟨rfl, hk, hs₁⟩
  have h₁ : Twin { w with sink := k } { t with sink := k' } :=
    ⟨hk, h.size, h.queued, h.fault, h.held⟩
  cases bulk with
  | some receipt => exact Act.agree_pure ⟨rfl, h₁, hs₁⟩
  | none => exact hrounds h₁ hs₁

instance : BlindIntake (Writer κ) where
  readFrom_same h hs := by
    refine (readFrom_agree h hs).bind ?_
    rintro ⟨receipt, w', s₁⟩ ⟨_, t', s₁'⟩ ⟨rfl, h', hs'⟩
    exact Act.agree_pure ⟨rfl, h', hs'⟩

end Intake

end Writer

end BufferedStream
