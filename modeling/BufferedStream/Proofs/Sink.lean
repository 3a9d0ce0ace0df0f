import BufferedStream.Proofs.Source

/-!
# Honest sinks and what they keep

A sink is *honest* when it reports no more than it was offered, and has kept just
so many of the bytes offered, from the front (`HonestSink`).  It may take fewer
than it was offered, with an error or without.

* `Keeping` — a sink that shows the bytes it has kept.
* `ByteSink.Writes`, `Sends` — one call on a sink and a row of them, with what was
  offered and the answers (`Send`) that came back.
* `Accepting` — a sink that takes everything.
* `HonestBulkSource` — a source that uses the sink it is emptied into only to
  write; one that leaves the emptying to others is `Bulkless`.
* `HonestBulkSink` — a sink that, if it draws a source at all, keeps just what the
  source hands out.
* `Tap` — a sink with a record of what has passed into it; so a traced source can
  tell what it has handed out in bulk (`BulkHistory`).
-/

namespace BufferedStream

/-! ## Honesty -/

/-- A sink that shows the bytes it has kept. -/
class Keeping (κ : Type) where
  kept : κ → Bytes

open Keeping (kept)

/-- A sink that keeps just the bytes it reports, from the front of those offered. -/
class HonestSink (H : Halt → Prop) (κ : Type) [ByteSink κ] [Keeping κ] : Prop where
  write_honest (k : κ) (b : Bytes) (sh : Shared) :
    Act.Meets H (ByteSink.write k b) sh fun (receipt, k') _ =>
      receipt.count ≤ b.length ∧ kept k' = kept k ++ b.take receipt.count

/-- A sink that is honest is so whatever else may halt it. -/
theorem HonestSink.mono {H H' : Halt → Prop} {κ : Type} [ByteSink κ] [Keeping κ] [HonestSink H κ]
    (hH : ∀ e, H e → H' e) : HonestSink H' κ where
  write_honest k b sh := (HonestSink.write_honest k b sh).mono hH fun _ _ h => h

/-- One call on a sink: the bytes offered to it, and what came of it. -/
structure Send where
  offered : Bytes
  receipt : Receipt

/-- Offered `b`, the sink `k` may answer with the receipt and become `k'`. -/
def ByteSink.Writes {κ : Type} [ByteSink κ] (k : κ) (b : Bytes) (receipt : Receipt) (k' : κ) :
    Prop :=
  ∃ sh sh', ByteSink.write k b sh = .ok (receipt, k') sh'

/-- The sink `k` may answer a row of calls with `ss` and end up as `k'`. -/
inductive Sends {κ : Type} [ByteSink κ] : κ → List Send → κ → Prop
  | nil (k : κ) : Sends k [] k
  | cons {k k₁ k₂ : κ} {b : Bytes} {receipt : Receipt} {ss : List Send} :
      ByteSink.Writes k b receipt k₁ → Sends k₁ ss k₂ → Sends k (⟨b, receipt⟩ :: ss) k₂

theorem Sends.nil_eq {κ : Type} [ByteSink κ] {k k' : κ} (h : Sends k [] k') : k' = k := by
  cases h
  rfl

theorem Sends.append {κ : Type} [ByteSink κ] {k l m : κ} {ss ts : List Send} (h : Sends k ss l)
    (h' : Sends l ts m) : Sends k (ss ++ ts) m := by
  induction h with
  | nil k => exact h'
  | cons hw _ ih => exact .cons hw (ih h')

/-- What an honest sink answers, with the call that was made. -/
theorem meets_write {H : Halt → Prop} {κ : Type} [ByteSink κ] [Keeping κ] [HonestSink H κ] (k : κ)
    (b : Bytes) (sh : Shared) :
    Act.Meets H (ByteSink.write k b) sh fun (receipt, k') _ =>
      ByteSink.Writes k b receipt k' ∧ receipt.count ≤ b.length ∧
        kept k' = kept k ++ b.take receipt.count := by
  have h := HonestSink.write_honest (H := H) k b sh
  unfold Act.Meets at h ⊢
  cases hm : ByteSink.write k b sh with
  | ok a sh' =>
    rw [hm] at h
    exact ⟨⟨sh, sh', hm⟩, h⟩
  | error e sh' => rwa [hm] at h

/-- A source that uses the sink it is emptied into only to write: what writing
preserves, emptying preserves. -/
class HonestBulkSource (H : Halt → Prop) (σ : Type) [BulkSource σ] : Prop where
  writeTo_keeps {κ : Type} [ByteSink κ] (I : κ → Prop)
    (hwrite : ∀ k b sh, I k → Act.Meets H (ByteSink.write k b) sh fun (receipt, k') _ =>
      receipt.count ≤ b.length ∧ I k')
    (s : σ) (k : κ) (sh : Shared) (hk : I k) :
    Act.Meets H (BulkSource.writeTo s k) sh fun (_, _, k') _ => I k'

/-- A sink that keeps just the bytes that a source hands out while it is drawn, and
counts them, or leaves the drawing to others. -/
class HonestBulkSink (H : Halt → Prop) (κ : Type) [BulkSink κ] [Keeping κ] : Prop where
  readFrom_honest {σ : Type} [ByteSource σ] [HonestSource H σ] (k : κ) (s : σ) (sh : Shared) :
    Act.Meets H (BulkSink.readFrom k s) sh fun (receipt, k', s') _ =>
      match receipt with
      | none => k' = k ∧ s' = s
      | some receipt => ∃ ds, Calls s ds s' ∧ kept k' = kept k ++ drawn ds ∧
          receipt.count = (drawn ds).length

variable {H : Halt → Prop} {σ κ : Type}

instance : Keeping MemorySink := ⟨MemorySink.data⟩

/-- A sink that takes and keeps everything. -/
class Accepting (κ : Type) [ByteSink κ] [Keeping κ] : Prop where
  write_accepts (k : κ) (b : Bytes) (sh : Shared) :
    Act.Returns (ByteSink.write k b) sh fun (receipt, k') _ =>
      receipt = ⟨b.length, none⟩ ∧ kept k' = kept k ++ b

instance [ByteSink κ] [Keeping κ] [Accepting κ] : HonestSink H κ where
  write_honest k b sh := by
    refine (Accepting.write_accepts k b sh).mono (fun _ he => he.elim) ?_
    rintro ⟨receipt, k'⟩ sh' ⟨rfl, hkept⟩
    exact ⟨Nat.le_refl _, by rw [hkept, List.take_length]⟩

instance : Accepting MemorySink where
  write_accepts _ _ _ := ⟨rfl, rfl⟩

instance : HonestBulkSource H MemorySource where
  writeTo_keeps I hwrite m k sh hk := by
    show Act.Meets H (m.writeTo k) sh _
    unfold MemorySource.writeTo
    split
    · exact hk
    · refine Act.meets_bind.mpr ((hwrite k m.left sh hk).imp ?_)
      rintro ⟨receipt, k'⟩ sh' ⟨hle, hk'⟩
      exact Act.meets_bind.mpr ((Act.meets_require (decide_eq_true hle)).mpr hk')

/-- By induction on the rounds: room for a chunk is offered in each, and what comes is kept. -/
theorem readRounds_meets [ByteSource σ] [HonestSource H σ] (hH : H .exhausted) (rounds total : Nat)
    (m : MemorySink) (s : σ) {sh : Shared} :
    Act.Meets H (m.readRounds rounds total s) sh fun (receipt, m', s') _ => ∃ ds fault,
      Calls s ds s' ∧ (∀ d ∈ ds, d.offered = MemorySink.chunk) ∧ m'.data = m.data ++ drawn ds ∧
        receipt = some ⟨total + (drawn ds).length, fault⟩ := by
  induction rounds generalizing total m s sh with
  | zero => exact hH
  | succ rounds ih =>
    unfold MemorySink.readRounds
    refine Act.meets_bind.mpr ((meets_read s _ sh).imp ?_)
    rintro ⟨g, s₁⟩ sh₁ ⟨hreads, hcount, hle⟩
    refine Act.meets_bind.mpr ((Act.meets_require (decide_eq_true hle)).mpr ?_)
    have hbytes : g.bytes = g.data := Grant.bytesIn_eq_data hcount []
    have hlast : ∀ fault, ∃ ds fault', Calls s ds s₁ ∧ (∀ d ∈ ds, d.offered = MemorySink.chunk) ∧
        m.data ++ g.bytes = m.data ++ drawn ds ∧
        some (⟨total + g.count, fault⟩ : Receipt) = some ⟨total + (drawn ds).length, fault'⟩ :=
      fun fault => ⟨_, fault, .single hreads, by simp, by simp [hbytes], by simp [hcount]⟩
    dsimp only
    split
    · exact hlast none
    · exact hlast _
    · split
      · exact hlast none
      · refine (ih _ _ _).imp ?_
        rintro ⟨receipt, m', s'⟩ sh' ⟨ds, fault, hcalls, hoffered, hdata, rfl⟩
        refine ⟨_, fault, .cons hreads hcalls, ?_, ?_, ?_⟩
        · simpa using hoffered
        · simpa [hbytes] using hdata
        · simp only [drawn_cons, List.length_append, hcount, Nat.add_assoc]

instance : HonestBulkSink (· = Halt.exhausted) MemorySink where
  readFrom_honest m s sh := by
    show Act.Meets _ (m.readFrom s) sh _
    refine Act.meets_bind.mpr (Act.meets_patience.mpr ?_)
    refine (readRounds_meets (H := (· = Halt.exhausted)) rfl _ _ m s).imp ?_
    rintro ⟨receipt, m', s'⟩ sh' ⟨ds, fault, hcalls, -, hdata, rfl⟩
    exact ⟨ds, hcalls, hdata, Nat.zero_add _⟩

/-- A sink that leaves the drawing of sources to others. -/
structure Unbulked (κ : Type) where
  sink : κ

namespace Unbulked

instance [ByteSink κ] : BulkSink (Unbulked κ) where
  write u b := do
    let (receipt, sink) ← ByteSink.write u.sink b
    return (receipt, ⟨sink⟩)
  readFrom u s := return (none, u, s)

instance [Keeping κ] : Keeping (Unbulked κ) := ⟨fun u => kept u.sink⟩

instance [ByteSink κ] [Keeping κ] [HonestSink H κ] : HonestSink H (Unbulked κ) where
  write_honest u b sh := by
    refine Act.meets_bind.mpr ((HonestSink.write_honest u.sink b sh).imp ?_)
    intro a sh' ha
    exact ha

instance [ByteSink κ] [Keeping κ] : HonestBulkSink H (Unbulked κ) where
  readFrom_honest _ _ _ := ⟨rfl, rfl⟩

end Unbulked

/-! ## Sources that are emptied piece by piece -/

/-- A source that leaves its emptying to others. -/
class Bulkless (σ : Type) [BulkSource σ] : Prop where
  writeTo_eq {κ : Type} [ByteSink κ] (s : σ) (k : κ) :
    BulkSource.writeTo s k = pure (none, s, k)

instance [BulkSource σ] [Bulkless σ] : HonestBulkSource H σ where
  writeTo_keeps I _ s k sh hk := by
    rw [Bulkless.writeTo_eq]
    exact hk

/-- A source as one that leaves its emptying to others. -/
structure Piecemeal (σ : Type) where
  source : σ

namespace Piecemeal

instance [ByteSource σ] : BulkSource (Piecemeal σ) where
  read p room := do
    let (g, source) ← ByteSource.read p.source room
    return (g, ⟨source⟩)
  writeTo p k := return (none, p, k)

instance [ByteSource σ] : Bulkless (Piecemeal σ) := ⟨fun _ _ => rfl⟩

theorem eq_of_reads [ByteSource σ] {p p' : Piecemeal σ} {n : Nat} {g : Reading}
    (h : ByteSource.Reads p n g p') : ∃ s', ByteSource.Reads p.source n g s' ∧ p' = ⟨s'⟩ := by
  obtain ⟨room, sh, sh', rfl, h⟩ := h
  have hm : Act.Meets (fun _ => True) (ByteSource.read p room) sh fun (g, p') _ =>
      ∃ s', ByteSource.Reads p.source room.size g s' ∧ p' = ⟨s'⟩ := by
    refine Act.meets_bind.mpr (Act.meets_any.ran.imp ?_)
    intro a sh₁ hran
    exact ⟨a.2, ⟨room, sh, sh₁, rfl, hran.1⟩, rfl⟩
  exact hm.of_ok h

instance [ByteSource σ] [HonestSource H σ] : HonestSource H (Piecemeal σ) where
  read_honest p room sh := by
    refine Act.meets_bind.mpr ((HonestSource.read_honest p.source room sh).imp ?_)
    intro a sh' ha
    exact ha

end Piecemeal

/-! ## Sinks that record what passes -/

/-- A sink with a record of the bytes that have passed into it. -/
structure Tap (κ : Type) where
  sink : κ
  passed : Bytes := []

namespace Tap

instance [ByteSink κ] : ByteSink (Tap κ) where
  write t b := do
    let (receipt, sink) ← ByteSink.write t.sink b
    return (receipt, ⟨sink, t.passed ++ b.take receipt.count⟩)

/-- The record tells just what the sink has kept since. -/
theorem write_kept [ByteSink κ] [Keeping κ] [HonestSink H κ] (before : Bytes) (t : Tap κ)
    (b : Bytes) (sh : Shared) (ht : kept t.sink = before ++ t.passed) :
    Act.Meets H (ByteSink.write t b) sh fun (receipt, t') _ =>
      receipt.count ≤ b.length ∧ kept t'.sink = before ++ t'.passed := by
  refine Act.meets_bind.mpr ((HonestSink.write_honest t.sink b sh).imp ?_)
  rintro ⟨receipt, sink⟩ sh' ⟨hle, hkept⟩
  refine ⟨hle, ?_⟩
  rw [hkept, ht, List.append_assoc]

end Tap

/-! ## Bulk histories -/

/-- A source whose state also tells what it has handed out in bulk. -/
class BulkHistory (H : Halt → Prop) (σ : Type) [BulkSource σ] [History σ] : Prop where
  given_of_writeTo {κ : Type} [ByteSink κ] [Keeping κ] [HonestSink H κ] (s : σ) (k : κ)
    (sh : Shared) : Act.Meets H (BulkSource.writeTo s k) sh fun (_, s', k') _ =>
      ∃ b, History.given s' = History.given s ++ b ∧ kept k' = kept k ++ b

instance [BulkSource σ] : BulkSource (Traced σ) where
  writeTo t k := do
    let (receipt, source, tap) ← BulkSource.writeTo t.source { sink := k : Tap _ }
    return (receipt, { t with source, given := t.given ++ tap.passed }, tap.sink)

instance [BulkSource σ] [HonestBulkSource H σ] : HonestBulkSource H (Traced σ) where
  writeTo_keeps I hwrite t k sh hk := by
    refine Act.meets_bind.mpr ((HonestBulkSource.writeTo_keeps (fun tap : Tap _ => I tap.sink)
      (fun tap b sh htap => ?_) t.source { sink := k } sh hk).imp fun _ _ h => h)
    exact Act.meets_bind.mpr ((hwrite tap.sink b sh htap).imp fun _ _ h => h)

/-- What a traced source hands out in bulk goes into the sink and is noted; no call is. -/
theorem Traced.writeTo_meets [BulkSource σ] [HonestBulkSource H σ] [ByteSink κ] [Keeping κ]
    [HonestSink H κ] (t : Traced σ) (k : κ) (sh : Shared) :
    Act.Meets H (BulkSource.writeTo t k) sh fun (_, t', k') _ => ∃ b, t'.given = t.given ++ b ∧
      kept k' = kept k ++ b ∧ t'.draws = t.draws := by
  refine Act.meets_bind.mpr ((HonestBulkSource.writeTo_keeps
    (fun tap : Tap _ => kept tap.sink = kept k ++ tap.passed)
    (fun tap b sh ht => tap.write_kept (kept k) b sh ht) t.source { sink := k } sh
    (List.append_nil _).symm).imp ?_)
  rintro ⟨receipt, source, tap⟩ sh' hkept
  exact ⟨tap.passed, rfl, hkept, rfl⟩

instance [BulkSource σ] [HonestBulkSource H σ] : BulkHistory H (Traced σ) where
  given_of_writeTo t k sh := by
    refine (t.writeTo_meets k sh).imp ?_
    rintro ⟨receipt, t', k'⟩ sh' ⟨b, hgiven, hkept, -⟩
    exact ⟨b, hgiven, hkept⟩

instance [BulkSource σ] [Bulkless σ] [History σ] : BulkHistory H σ where
  given_of_writeTo s k sh := by
    rw [Bulkless.writeTo_eq]
    exact ⟨[], (List.append_nil _).symm, (List.append_nil _).symm⟩

instance [BulkSource σ] [Bulkless σ] : Bulkless (Traced σ) where
  writeTo_eq t k := by
    show (BulkSource.writeTo t.source ({ sink := k } : Tap _) >>= fun (receipt, source, tap) =>
      pure (receipt, { t with source, given := t.given ++ tap.passed }, tap.sink)) = _
    rw [Bulkless.writeTo_eq, pure_bind]
    show pure (none, { t with source := t.source, given := t.given ++ [] }, k) = _
    rw [List.append_nil]

end BufferedStream
