import BufferedStream.Proofs.Reader.Operation
import BufferedStream.Proofs.Script

/-!
# What emptying a reader reports

A reader that is emptied into a sink fills its buffer again as long as the fillings
bring bytes, whatever errors come with them.  Each error takes the place of the one
before, and the last is reported: it is the first that comes without bytes.  The
errors that come with bytes are lost, and so is one that was latched from the start.

* `Reader.Reachable` — the states that a reader may be in.
* `Reader.Fillings` — the calls of an emptying, with the errors that are lost and the
  one that ends it.
* `Reader.StopsAtFirst` — an emptying that is over with the first error.
* `Reader.writeTo_stops_at_first_iff` — what emptying does; it stops at the first
  error just if none is lost.
-/

namespace BufferedStream

open History (draws)
open Keeping (kept)

namespace Reader

variable {σ κ : Type}

/-! ## The states of a reader -/

/-- The states that a reader may be in: new over a source, or left by an operation or by
emptying it into any sink.  What streams share may change in between. -/
inductive Reachable [BulkSource σ] : Reader σ → Prop
  | start (s : σ) (size : Nat) (pool : PoolId) : Reachable (withCapacity s size pool)
  | step {κ : Type} [ByteSink κ] [Keeping κ] [HonestSink (· = Halt.exhausted) κ]
      {r r' : Reader σ} {task : Task κ} {result : Result κ} {sh sh' : Shared} (h : Reachable r)
      (hrun : execute task r sh = .ok (result, r') sh') : Reachable r'

/-- By induction on the operations: every state is well-formed. -/
theorem Reachable.wf [BulkSource σ] [HonestSource (· = Halt.exhausted) σ] [History σ]
    [BulkHistory (· = Halt.exhausted) σ] {r : Reader σ} (h : r.Reachable) : r.WF := by
  induction h with
  | start s size pool => exact wf_withCapacity s size pool
  | step _ hrun ih => exact ((execute_meets (H := (· = Halt.exhausted)) rfl _ ih).of_ok hrun).wf ih

/-! ## The errors of an emptying -/

/-- The fillings of an emptying.  Those that bring bytes are followed by another one,
and the error that may have come with the bytes is lost. -/
inductive Fillings (size : Nat) : List Draw → (lost : List Error) → Error → Prop
  | last {ds : List Draw} {e : Error} (h : FillCalls size maxEmptyReads ds (some e))
      (hdry : drawn ds = []) : Fillings size ds [] e
  | more {ds es : List Draw} {fault : Option Error} {lost : List Error} {e : Error}
      (h : FillCalls size maxEmptyReads ds fault) (hbrings : drawn ds ≠ [])
      (hrest : Fillings size es lost e) : Fillings size (ds ++ es) (fault.toList ++ lost) e

namespace Fillings

variable {size : Nat} {ds : List Draw} {lost : List Error} {e : Error}

theorem ne_nil (h : Fillings size ds lost e) : ds ≠ [] := by
  cases h with
  | last h => exact h.ne_nil
  | more h => exact List.append_ne_nil_of_left_ne_nil h.ne_nil _

/-- By induction on the fillings: the errors that arise are those lost and the last. -/
theorem arisen_eq (h : Fillings size ds lost e) : arisen ds = lost ++ [e] := by
  induction h with
  | last h => exact h.arisen_eq
  | more h _ _ ih =>
    have heq := h.arisenAfter_append (Nat.le_refl _)
    exact (heq _).trans (by rw [ih, List.append_assoc])

/-- The last call raises the last error. -/
theorem arisen_dropLast (h : Fillings size ds lost e) : arisen ds.dropLast = lost := by
  induction h with
  | last h => exact h.arisenAfter_dropLast (Nat.le_refl _)
  | more h _ hrest ih =>
    rw [List.dropLast_append_of_ne_nil hrest.ne_nil]
    have heq := h.arisenAfter_append (Nat.le_refl _)
    exact (heq _).trans (by rw [ih])

end Fillings

/-- What emptying reports of an error: the end of the stream is none. -/
def reported (e : Error) : Option Error := if e.isEof then none else some e

/-- The calls of an emptying, and the error that it reports, are those of one that stops at
the first error: with an error latched no call is made, otherwise only the last
raises an error, and the first error is reported. -/
def StopsAtFirst (latched : Option Error) (ds : List Draw) (fault : Option Error) : Prop :=
  match latched with
  | some e => ds = [] ∧ fault = reported e
  | none => ∃ e, arisen ds = [e] ∧ arisen ds.dropLast = [] ∧ fault = reported e

/-- An emptying stops at the first error just if no error is lost. -/
theorem Fillings.stopsAtFirst_iff {size : Nat} {ds : List Draw} {lost : List Error} {e : Error}
    (h : Fillings size ds lost e) (latched : Option Error) :
    StopsAtFirst latched ds (reported e) ↔ latched = none ∧ lost = [] := by
  cases latched with
  | some e' =>
    refine ⟨fun hstops => absurd hstops.1 h.ne_nil, ?_⟩
    rintro ⟨⟨⟩, -⟩
  | none =>
    refine ⟨?_, ?_⟩
    · rintro ⟨e', -, hquiet, -⟩
      exact ⟨rfl, h.arisen_dropLast.symm.trans hquiet⟩
    · rintro ⟨-, rfl⟩
      exact ⟨e, h.arisen_eq, h.arisen_dropLast, rfl⟩

/-! ## Emptying into a sink that takes everything -/

section Emptying

variable [ByteSink κ] [Keeping κ] {H : Halt → Prop} {sh : Shared}

/-- What writing the unread bytes to a sink that takes everything does. -/
structure Drained (r : Reader σ) (k : κ) (r' : Reader σ) (k' : κ) : Prop where
  source_eq : r'.source = r.source
  size_eq : r'.size = r.size
  fault_eq : r'.fault = r.fault
  unread_eq : r'.window.unread = []
  kept_eq : kept k' = kept k ++ r.window.unread

theorem drain_meets_accepting [Accepting κ] (r : Reader σ) (k : κ) :
    Act.Meets H (r.drain k) sh fun (receipt, r', k') _ =>
      receipt = ⟨r.buffered, none⟩ ∧ r.Drained k r' k' := by
  unfold drain
  split
  · rename_i hunread
    refine ⟨by rw [buffered, hunread]; rfl, rfl, rfl, rfl, hunread, ?_⟩
    rw [hunread, List.append_nil]
  · refine Act.meets_bind.mpr ((Accepting.write_accepts k r.window.unread sh).mono
      (fun _ he => he.elim) ?_)
    rintro ⟨receipt, k'⟩ sh' ⟨rfl, hkept⟩
    refine Act.meets_bind.mpr ((Act.meets_require (decide_eq_true (Nat.le_refl _))).mpr ?_)
    refine Act.meets_bind.mpr ((settle_meets _).imp ?_)
    intro r' sh'' hs
    refine ⟨?_, hs.source_eq, hs.size_eq, hs.fault_eq, hs.unread_eq.trans ?_, hkept⟩
    · simp [buffered]
    · exact List.drop_length

variable [ByteSource σ]

/-- What filling and draining by turns does, from an empty buffer. -/
structure Emptied (r : Reader σ) (k : κ) (ds : List Draw) (lost : List Error) (e : Error)
    (r' : Reader σ) (k' : κ) : Prop where
  calls : Calls r.source ds r'.source
  fillings : Fillings r.size ds lost e
  fault_eq : r'.fault = some e
  unread_eq : r'.window.unread = []
  kept_eq : kept k' = kept k ++ drawn ds

/-- By induction on the rounds, each of which is a filling. -/
theorem drainRounds_meets_accepting [HonestSource H σ] [Accepting κ] (hH : H .exhausted)
    (rounds total : Nat) {r : Reader σ} (k : κ) (hpos : 0 < r.size)
    (hunread : r.window.unread = []) :
    Act.Meets H (drainRounds rounds total r k) sh fun (receipt, r', k') _ => ∃ ds lost e,
      receipt = ⟨total + (drawn ds).length, none⟩ ∧ r.Emptied k ds lost e r' k' := by
  induction rounds generalizing total r k sh with
  | zero => exact hH
  | succ rounds ih =>
    rw [drainRounds]
    refine Act.meets_bind.mpr ((fill_meets r).imp ?_)
    rintro r₁ sh₁ ⟨ds, s, fault, spare, length, hcalls, hmade, rfl⟩
    have hroom : r.size - r.buffered = r.size := by
      rw [buffered, hunread]
      rfl
    have hfilled : (r.taking s ds fault spare length).window.unread = drawn ds := by
      rw [taking, hunread]
      rfl
    rw [hroom] at hmade
    split
    · rename_i hdry
      rw [hfilled] at hdry
      -- a filling that brings no byte brings an error
      obtain ⟨e, rfl⟩ : ∃ e, fault = some e := by
        rcases hmade.progress hpos with hsome | hbrings
        · exact Option.isSome_iff_exists.mp hsome
        · rw [hdry] at hbrings
          cases hbrings
      exact ⟨ds, [], e, by rw [hdry]; rfl, hcalls, .last hmade hdry, rfl, hfilled.trans hdry,
        by rw [hdry, List.append_nil]⟩
    · rename_i hbrings
      rw [hfilled] at hbrings
      refine Act.meets_bind.mpr ((drain_meets_accepting _ k).imp ?_)
      rintro ⟨receipt, r₂, k₁⟩ sh₂ ⟨rfl, hd⟩
      refine (ih _ k₁ (hd.size_eq.symm ▸ hpos) hd.unread_eq).imp ?_
      rintro ⟨receipt, r', k'⟩ sh₃ ⟨es, lost, e, rfl, he⟩
      refine ⟨ds ++ es, fault.toList ++ lost, e, ?_, ?_, ?_, he.fault_eq, he.unread_eq, ?_⟩
      · rw [buffered, hfilled, drawn_append, List.length_append, Nat.add_assoc]
      · have hrest := he.calls
        rw [hd.source_eq] at hrest
        exact hcalls.append hrest
      · exact .more hmade hbrings (hd.size_eq ▸ he.fillings)
      · rw [he.kept_eq, hd.kept_eq, hfilled, drawn_append, List.append_assoc]

omit [ByteSource σ] [ByteSink κ] [Keeping κ] in
theorem concludeTransfer_meets_latched {r : Reader σ} {e : Error} (he : r.fault = some e) :
    Act.Meets H r.concludeTransfer sh fun (fault, r') _ =>
      fault = reported e ∧ r'.source = r.source ∧ r'.window.unread = r.window.unread ∧
        r'.fault = none := by
  unfold concludeTransfer
  rw [he, reported]
  split
  · rename_i heof
    refine Act.meets_bind.mpr ((settle_meets r).imp ?_)
    intro r₁ sh' hs
    exact ⟨(if_pos heof).symm, hs.source_eq, hs.unread_eq, rfl⟩
  · rename_i heof
    exact ⟨(if_neg heof).symm, rfl, rfl, rfl⟩

end Emptying

/-- **Emptying stops at the first error that comes without bytes.**  Over any honest
source without a bulk transfer of its own, in every state that the reader may be in,
and into any sink that takes everything: the sink gets the unread bytes and what the
calls on the source hand out, every one of which is counted; the error that ended the
calls is reported, the end of the stream excepted.  So emptying stops at the first error,
as long as none is latched and none comes together with bytes. -/
theorem writeTo_stops_at_first_iff [BulkSource σ] [Bulkless σ] [History σ]
    [HonestSource (· = Halt.exhausted) σ] [ByteSink κ] [Keeping κ] [Accepting κ] {r : Reader σ}
    (hr : r.Reachable) (k : κ) (sh : Shared) :
    Act.Keeps (r.writeTo k) sh fun (receipt, r', k') _ => ∃ ds lost e,
      draws r'.source = draws r.source ++ ds ∧ Fillings r.size ds lost e ∧
        kept k' = kept k ++ (r.window.unread ++ drawn ds) ∧
        receipt = ⟨(r.window.unread ++ drawn ds).length, reported e⟩ ∧
        r'.window.unread = [] ∧ r'.fault = none ∧
        (StopsAtFirst r.fault ds receipt.fault ↔ r.fault = none ∧ lost = []) := by
  refine Act.meets_bind.mpr ((drain_meets_accepting r.forgetting k).imp ?_)
  rintro ⟨receipt, r₁, k₁⟩ sh₁ ⟨rfl, hd⟩
  refine Act.meets_bind.mpr ?_
  rw [Bulkless.writeTo_eq]
  have hpos : 0 < r₁.size := hd.size_eq.symm ▸ hr.wf.size_pos
  refine Act.meets_bind.mpr (Act.meets_patience.mpr (Act.meets_bind.mpr
    ((drainRounds_meets_accepting (H := (· = Halt.exhausted)) rfl _ _ k₁ hpos
      hd.unread_eq).imp ?_)))
  rintro ⟨receipt, r₂, k₂⟩ sh₂ ⟨ds, lost, e, rfl, he⟩
  refine Act.meets_bind.mpr ((concludeTransfer_meets_latched he.fault_eq).imp ?_)
  rintro ⟨fault, r'⟩ sh₃ ⟨rfl, hsource, hunread, hfault⟩
  have hcalls := he.calls
  rw [← hsource, hd.source_eq] at hcalls
  have hfillings := he.fillings
  rw [hd.size_eq] at hfillings
  refine ⟨ds, lost, e, draws_of_calls hcalls, hfillings, ?_, ?_, hunread.trans he.unread_eq,
    hfault, hfillings.stopsAtFirst_iff r.fault⟩
  · rw [he.kept_eq, hd.kept_eq, List.append_assoc]
    rfl
  · rw [List.length_append]
    rfl

/-- A failure of the system under a source. -/
def cutOff : Error := .io 0 (.text .connectionReset "gone")

/-- A source whose first piece comes together with an error, and the second with the
end of the stream. -/
def erringPieces : Piecemeal Script.Truthful :=
  ⟨{ items := [.piece [0x61, 0x62, 0x63] (some cutOff), .piece [0x64, 0x65, 0x66] (some .eof)] },
    by decide⟩

theorem writeTo_stops_at_first_iff_erringPieces :
    ∃ a sh', (withCapacity (Traced.start erringPieces) 16 0).writeTo ({} : MemorySink)
        { pools := [], patience := 9 } = .ok a sh' ∧
      ∃ ds lost e, draws a.2.1.source = [] ++ ds ∧ Fillings 16 ds lost e ∧
        kept a.2.2 = [] ++ ([] ++ drawn ds) ∧ a.1 = ⟨([] ++ drawn ds).length, reported e⟩ ∧
        a.2.1.window.unread = [] ∧ a.2.1.fault = none ∧
        (StopsAtFirst none ds a.1.fault ↔ (none : Option Error) = none ∧ lost = []) :=
  (writeTo_stops_at_first_iff (.start (Traced.start erringPieces) 16 0) ({} : MemorySink)
    _).exists_of_ends (by decide +kernel)

/-- The error that comes with the first piece is not reported, and two more calls are made
on the source after it. -/
theorem erringPieces_read_past_error :
    ∃ a sh', (withCapacity (Traced.start erringPieces) 16 0).writeTo ({} : MemorySink)
        { pools := [], patience := 9 } = .ok a sh' ∧
      (a.1.count = 6 ∧ a.1.fault.isNone ∧ kept a.2.2 = [0x61, 0x62, 0x63, 0x64, 0x65, 0x66] ∧
        (arisen a.2.1.source.draws).map Error.name = ["Io", "Eof", "Eof"]) ∧
      ¬ StopsAtFirst none a.2.1.source.draws a.1.fault := by
  have hrun : ((withCapacity (Traced.start erringPieces) 16 0).writeTo ({} : MemorySink)).endsIn
      (fun a => a.1.count = 6 ∧ a.1.fault.isNone ∧
        kept a.2.2 = [0x61, 0x62, 0x63, 0x64, 0x65, 0x66] ∧
        (arisen a.2.1.source.draws).map Error.name = ["Io", "Eof", "Eof"])
      { pools := [], patience := 9 } = true := by decide +kernel
  obtain ⟨a, sh', hok, hends⟩ := Act.exists_of_endsIn hrun
  refine ⟨a, sh', hok, hends, ?_⟩
  rintro ⟨e, harisen, -⟩
  have hlength := congrArg List.length hends.2.2.2
  rw [harisen] at hlength
  cases hlength

end Reader

end BufferedStream
