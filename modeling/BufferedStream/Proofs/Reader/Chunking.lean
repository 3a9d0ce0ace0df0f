import BufferedStream.Proofs.Reader.Cursor
import BufferedStream.Proofs.Script

/-!
# One text in different chunks

Two readers with buffers of the same size read the same text by single bytes and runes,
but their sources cut the text into chunks differently.  They go *abreast*
(`Reader.abreast_in_any_chunks`): every operation brings the same from both, until they
*part*.

They part when a byte is pushed back that was read before a peek, and just one of them
has filled its buffer for the peek (`Reader.SmallOp.Parts`): that one refuses.
-/

namespace BufferedStream

/-- A source keeps its bytes while its history is noted. -/
instance {σ : Type} [ByteSource σ] [FiniteSource σ] : FiniteSource (Traced σ) where
  read_honest := HonestSource.read_honest
  remaining t := FiniteSource.remaining t.source
  remaining_of_reads h := by
    obtain ⟨s', hs, rfl⟩ := Traced.eq_of_reads h
    exact FiniteSource.remaining_of_reads hs
  fault_of_reads h := by
    obtain ⟨s', hs, rfl⟩ := Traced.eq_of_reads h
    exact FiniteSource.fault_of_reads hs
  brings_of_reads h := by
    obtain ⟨s', hs, -⟩ := Traced.eq_of_reads h
    exact FiniteSource.brings_of_reads hs

/-! ## Two cursors at one place -/

namespace Cursor

open Reader (SmallOp)

variable {c : Cursor} {slid slid' : Bool}

/-- The byte read last stands in front of bytes to come, and has slid away in just one of
two blocks. -/
def Split (c : Cursor) (slid slid' : Bool) : Prop :=
  c.lastByte.isSome = true ∧ c.coming ≠ [] ∧ slid ≠ slid'

theorem backByte_eq_of_not_split (h : ¬ c.Split slid slid') :
    c.backByte slid = c.backByte slid' := by
  by_cases hslid : slid = slid'
  · rw [hslid]
  · by_cases hne : c.coming ≠ []
    · have hnone : c.lastByte = none := by
        rw [← Option.not_isSome_iff_eq_none]
        exact fun hsome => h ⟨hsome, hne, hslid⟩
      rw [backByte, backByte, hnone, ite_self, ite_self]
    · rw [backByte, backByte, if_neg fun hs => hne hs.2, if_neg fun hs => hne hs.2]

/-- What happens at a cursor does not depend on what has slid away, unless a byte is pushed
back in one of two blocks and not in the other. -/
theorem step_eq_of_not_split {op : SmallOp} (h : ¬ (op = .unreadByte ∧ c.Split slid slid')) :
    c.step slid op = c.step slid' op := by
  cases op with
  | unreadByte =>
    have hback := backByte_eq_of_not_split fun hs => h ⟨rfl, hs⟩
    rw [step, step, hback]
  | _ => rfl

theorem Split.step_ne (h : c.Split slid slid') :
    (c.step slid .unreadByte).1 ≠ (c.step slid' .unreadByte).1 := by
  obtain ⟨hbyte, hne, hslid⟩ := h
  obtain ⟨b, hb⟩ := Option.isSome_iff_exists.mp hbyte
  have hlost : c.backByte true = none := if_pos ⟨rfl, hne⟩
  have hkept : c.backByte false = some b := by
    rw [backByte, if_neg fun hs => Bool.noConfusion hs.1, hb]
  have hparts : (c.step true .unreadByte).1 ≠ (c.step false .unreadByte).1 := by
    rw [step_unreadByte_none hlost, step_unreadByte_some hkept]
    rintro ⟨⟩
  cases slid <;> cases slid'
  · exact absurd rfl hslid
  · exact hparts.symm
  · exact hparts
  · exact absurd rfl hslid

end Cursor

namespace Reader

/-! ## Readers abreast -/

variable {σ τ : Type} {r : Reader σ} {t : Reader τ} {c : Cursor} {slid slid' : Bool} {sh sh' : Shared}

/-- The operation is to push back a byte in front of bytes to come that has slid out of the
block of just one of two readers. -/
def SmallOp.Parts [ByteSource σ] [Layer σ] (r : Reader σ) (slid slid' : Bool) (op : SmallOp) :
    Prop :=
  op = .unreadByte ∧ r.lastByte.isSome = true ∧ r.remaining ≠ [] ∧ slid ≠ slid'

/-- Whether calls were made on the source in between, so that the buffer was filled. -/
def filled (r r' : Reader (Traced σ)) : Bool := r.source.draws.length < r'.source.draws.length

/-- Two readers perform the same operations abreast until they part.  `slid` and `slid'`
tell of each whether it has filled its buffer for a peek since a byte or rune was read.

At every operation both bring the same if and only if they do not part, and unless they
part they go on abreast. -/
def Abreast [ByteSource σ] [FiniteSource σ] [ByteSource τ] : List SmallOp → (slid slid' : Bool) →
    Reader (Traced σ) → Reader (Traced τ) → (sh sh' : Shared) → Prop
  | [], _, _, _, _, _, _ => True
  | op :: ops, slid, slid', r, t, sh, sh' =>
    match perform op.op r sh, perform op.op t sh' with
    | .ok (outcome, r₁) sh₁, .ok (outcome', t₁) sh₁' =>
      (outcome = outcome' ↔ ¬ op.Parts r slid slid') ∧
        (¬ op.Parts r slid slid' →
          Abreast ops (op.slides (r.filled r₁) slid) (op.slides (t.filled t₁) slid') r₁ t₁ sh₁ sh₁')
    | _, _ => False

variable [ByteSource σ] [FiniteSource σ] [ByteSource τ] [FiniteSource τ]

omit [FiniteSource σ] in
theorem filled_of_calls {r r₁ : Reader (Traced σ)} {ds : List Draw}
    (h : Calls r.source ds r₁.source) : r.filled r₁ = !ds.isEmpty := by
  have hdraws : r₁.source.draws = r.source.draws ++ ds := draws_of_calls h
  rw [filled, hdraws, List.length_append]
  cases ds with
  | nil => simp
  | cons d ds => simp

theorem Shows.parts_iff (h : r.Shows c slid) {op : SmallOp} :
    op.Parts r slid slid' ↔ op = .unreadByte ∧ c.Split slid slid' := by
  rw [SmallOp.Parts, Cursor.Split, h.lastByte, h.coming]

/-- By induction on the operations: readers that show the same cursor go abreast. -/
theorem Shows.abreast (ops : List SmallOp) {r : Reader (Traced σ)} {t : Reader (Traced τ)}
    (h : r.Shows c slid) (h' : t.Shows c slid') : Abreast ops slid slid' r t sh sh' := by
  induction ops generalizing r t c slid slid' sh sh' with
  | nil => trivial
  | cons op ops ih =>
    obtain ⟨⟨outcome, r₁⟩, sh₁, hr, ds, hcalls, rfl, h₁⟩ := (h.perform op sh).exists_ok
    obtain ⟨⟨outcome', t₁⟩, sh₁', ht, ds', hcalls', rfl, h₁'⟩ := (h'.perform op sh').exists_ok
    rw [Abreast, hr, ht]
    dsimp only
    rw [h.parts_iff, filled_of_calls hcalls, filled_of_calls hcalls']
    by_cases hsplit : op = .unreadByte ∧ c.Split slid slid'
    · refine ⟨iff_of_false ?_ (not_not_intro hsplit), fun hno => absurd hsplit hno⟩
      obtain ⟨rfl, hsplit⟩ := hsplit
      exact hsplit.step_ne
    · have hstep := Cursor.step_eq_of_not_split hsplit
      rw [← hstep] at h₁' ⊢
      exact ⟨iff_of_true rfl hsplit, fun _ => ih h₁ h₁'⟩

/-- **How a text is cut into chunks decides nothing** for those who read it by single bytes
and runes, but whether a byte can be pushed back after a peek.  Two readers with buffers
of the same size go abreast until they part. -/
theorem abreast_in_any_chunks {s : σ} {t : τ}
    (h : FiniteSource.remaining s = FiniteSource.remaining t) (size : Nat) (pool pool' : PoolId)
    (ops : List SmallOp) (sh sh' : Shared) :
    Abreast ops false false (withCapacity (Traced.start s) size pool)
      (withCapacity (Traced.start t) size pool') sh sh' := by
  have hs := Shows.start (s := Traced.start s) trivial size pool
  have ht := Shows.start (s := Traced.start t) trivial size pool'
  have hsame : Layer.remaining (Traced.start s) = Layer.remaining (Traced.start t) := h
  rw [← hsame] at ht
  exact hs.abreast ops ht

/-! ## A byte pushed back after a peek -/

open Script (Steady)

/-- Two letters in a chunk each. -/
def apart : Steady := ⟨{ items := [.piece [0x61] none, .piece [0x62] (some .eof)] }, by decide⟩

/-- The same letters in one chunk. -/
def together : Steady := ⟨{ items := [.piece [0x61, 0x62] (some .eof)] }, by decide⟩

/-- Read a rune and push it back, read a byte, look at the next and push the byte back. -/
def hesitation : List SmallOp :=
  [.readRune, .unreadRune, .readByte, .peek 1, .unreadByte, .readByte]

theorem abreast_in_any_chunks_twoLetters :
    FiniteSource.remaining apart = FiniteSource.remaining together ∧
      Abreast hesitation false false (withCapacity (Traced.start apart) 16 0)
        (withCapacity (Traced.start together) 16 0) { pools := [] } { pools := [] } :=
  ⟨rfl, abreast_in_any_chunks (s := apart) (t := together) rfl 16 0 0 hesitation _ _⟩

/-- Read a byte, look at the next and push the byte back. -/
def hesitate (r : Reader σ) : Act (Except Error Unit) := do
  let (_, r) ← r.readByte
  let (_, r) ← r.peek 1
  return (← r.unreadByte).1

/-- Of two readers of the same text, the one that filled its buffer for the peek refuses to
push the byte back, and the other does not. -/
theorem hesitate_heeds_chunks :
    FiniteSource.remaining apart = FiniteSource.remaining together ∧
      (∃ sh, hesitate (withCapacity apart 16 0) { pools := [] } =
        .ok (.error .invalidUnreadByte) sh) ∧
      ∃ sh, hesitate (withCapacity together 16 0) { pools := [] } = .ok (.ok ()) sh :=
  ⟨rfl, ⟨_, rfl⟩, _, rfl⟩

end Reader

end BufferedStream
