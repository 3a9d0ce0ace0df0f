import BufferedStream.Proofs.Reader.Lasting
import BufferedStream.Proofs.Reader.Stretch
import BufferedStream.Proofs.Reader.Surfacing

/-!
# What a reader never latches

A reader reports its own full buffer, but never latches that: over a source that does
not report a full buffer, whatever is done with the reader, the latched error is
another one.  So a scan that reports a full buffer has met one.

* `Reader.Proper` — a well-formed reader that has not latched a full buffer.
* `Reader.Performs.fault_ne_full` — operations keep it so.
* `Reader.Filled.proper`, `Reader.lasting_proper` — so does filling the buffer, and so it lasts.
* `Reader.Reachable.proper` — every state is proper.
-/

namespace BufferedStream

namespace Reader

variable {τ : Type}

/-- The reader is well-formed, and the error that it has latched, if any, is not that of
a full buffer. -/
structure Proper (r : Reader τ) : Prop where
  wf : r.WF
  fault_ne_full : r.fault ≠ some .bufferFull

/-! ## Operations -/

theorem Balanced.fault_ne_full {before after : Option Error} {ds : List Draw} {es : List Error}
    (h : Balanced before after ds es) (hforeign : Foreign before ds) :
    after ≠ some .bufferFull := by
  rintro rfl
  rw [Foreign, h.balance] at hforeign
  exact hforeign (List.mem_append_right _ (List.mem_singleton_self _))

section Operations

variable [ByteSource τ] {r r' : Reader τ} {ds : List Draw}

theorem ReadsInto.fault_ne_full {room : Room} {g : Reading} (hr : r.ReadsInto room ds g r')
    (hforeign : Foreign r.fault ds) : r'.fault ≠ some .bufferFull := by
  by_cases h0 : room.size = 0
  · cases hr with
    | nothing => rintro ⟨⟩
    | through h => omega
    | delivered h => omega
    | dry h => omega
  · exact (hr.balanced (Nat.pos_of_ne_zero h0)).1.fault_ne_full hforeign

/-- Without room only an error is handed out, so none is latched again. -/
theorem ReadsPlain.fault_ne_full {room : Room} {g : Except IoError Grant}
    (hg : r.ReadsPlain room ds g r') (hforeign : Foreign r.fault ds) :
    r'.fault ≠ some .bufferFull := by
  by_cases h0 : room.size = 0
  · cases hg with
    | delivered hr hcount =>
      cases hr with
      | nothing => exact absurd hcount (Nat.lt_irrefl 0)
      | through h => omega
      | delivered h => omega
      | dry h => omega
    | ended hr => exact hr.fault_ne_full hforeign
    | failed _ hr => exact hr.fault_ne_full hforeign
  · obtain ⟨es, -, hbalanced, -⟩ := hg.balanced (Nat.pos_of_ne_zero h0)
    exact hbalanced.fault_ne_full hforeign

theorem ReadsLine.fault_ne_full {l : Except Error (Bytes × Bool)} (hl : r.ReadsLine ds l r')
    (hforeign : Foreign r.fault ds) : r'.fault ≠ some .bufferFull := by
  cases hl with
  | piece hs _ hb =>
    have hne := (hs.balanced hforeign).1.fault_ne_full hforeign
    rcases holdBackReturn_eq hb with ⟨-, rfl⟩ | ⟨-, rfl⟩
    · exact hne
    · exact hne
  | line hs => exact (hs.balanced hforeign).1.fault_ne_full hforeign
  | failed hs => exact (hs.balanced hforeign).1.fault_ne_full hforeign

/-- **No operation latches a full buffer** that did not arise. -/
theorem Performs.fault_ne_full {op : Op} {outcome : Outcome} (hp : r.Performs op ds outcome r')
    (hforeign : Foreign r.fault ds) : r'.fault ≠ some .bufferFull := by
  by_cases hopen : op.IsOpen
  · obtain ⟨es, -, hbalanced, -⟩ := hp.balanced hopen hforeign
    exact hbalanced.fault_ne_full hforeign
  · cases hp with
    | readLine hl => exact hl.fault_ne_full hforeign
    | read hr => exact hr.fault_ne_full hforeign
    | plainRead hg => exact hg.fault_ne_full hforeign
    | _ => exact absurd trivial hopen

end Operations

/-- No full buffer arises in the calls on an erring source. -/
theorem foreign_of_calls [ByteSource τ] [ErringSource τ] {s s' : τ} {ds : List Draw}
    {before : Option Error} (hcalls : Calls s ds s') (hbefore : before ≠ some .bufferFull) :
    Foreign before ds :=
  foreign_of_neverFull (ErringSource.neverFull s)
    (show Calls s ([] ++ ds) s' from hcalls) hbefore

theorem Performs.proper [ByteSource τ] [ErringSource τ] {r r' : Reader τ} {op : Op}
    {ds : List Draw} {outcome : Outcome} (hp : r.Performs op ds outcome r') (h : r.Proper) :
    r'.Proper :=
  ⟨hp.wf h.wf, hp.fault_ne_full (foreign_of_calls hp.calls h.fault_ne_full)⟩

/-! ## Every state -/

theorem Filled.proper [ByteSource τ] [ErringSource τ] {r r' : Reader τ} {ds : List Draw}
    (hf : r.Filled ds r') (h : r.Proper) : r'.Proper := by
  refine ⟨hf.wf h.wf, ?_⟩
  obtain ⟨s, fault, spare, length, hcalls, hmade, rfl⟩ := hf
  have hforeign := foreign_of_calls hcalls h.fault_ne_full
  show fault.or r.fault ≠ some .bufferFull
  cases fault with
  | none => exact h.fault_ne_full
  | some e =>
    rintro heq
    obtain rfl : e = .bufferFull := Option.some.inj heq
    rw [Foreign, hmade.arisen_eq] at hforeign
    exact hforeign (List.mem_append_right _ (List.mem_singleton_self _))

theorem lasting_proper [ByteSource τ] [ErringSource τ] : Lasting (Proper (τ := τ)) where
  wf h := h.wf
  congr h hwf _ hfault := by
    refine ⟨hwf, ?_⟩
    rcases hfault with hnone | heq
    · rw [hnone]
      rintro ⟨⟩
    · rw [heq]
      exact h.fault_ne_full
  fill h hf := hf.proper h

theorem proper_withCapacity (s : τ) (size : Nat) (pool : PoolId) :
    (withCapacity s size pool).Proper :=
  ⟨wf_withCapacity s size pool, by rintro ⟨⟩⟩

/-- **Every state is proper**, whatever a bulk transfer does to the source. -/
theorem Reachable.proper [BulkSource τ] [ErringSource τ] {r : Reader τ} (h : r.Reachable) :
    r.Proper := by
  have : HonestSource (fun _ => True) τ := .of_returns
  refine h.lasting lasting_proper proper_withCapacity (fun h hp => hp.proper h) ?_
  intro κ _ r k sh h
  refine Act.meets_any.imp ?_
  intro ⟨bulk, s, k'⟩ sh' _
  exact ⟨⟨h.wf.1, h.wf.2, h.wf.3, h.wf.4⟩, h.fault_ne_full⟩

end Reader

end BufferedStream
