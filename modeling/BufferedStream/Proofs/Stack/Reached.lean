import BufferedStream.Proofs.Script
import BufferedStream.Proofs.Stack.Early

/-!
# Stacks in use

A stack stays sound as long as no exposed operation is performed on it, whatever
else is.  So the exposed operations are just those after which the end is reported
although bytes remain.

* `Reader.Reached` — the states that operations lead to, none of them exposed.
* `Reader.stack_ends_early_iff` — when an operation on a stack reports the end early.
-/

namespace BufferedStream

namespace Reader

variable {σ : Type} [ByteSource σ] [Layer σ]

/-- The states that operations lead to, none of which was exposed; what streams share
may change in between. -/
inductive Reached (start : Reader σ) : Reader σ → Prop
  | start : Reached start start
  | step {r r' : Reader σ} {op : Op} {outcome : Outcome} {sh sh' : Shared}
      (h : Reached start r) (hop : op.IsForward) (hcalm : ¬ r.Exposed op)
      (hrun : perform op r sh = .ok (outcome, r') sh') : Reached start r'

/-- By induction on the operations: the reader stays sound. -/
theorem Reached.sound {start r : Reader σ} (hr : Reached start r) (h : start.Sound) :
    r.Sound := by
  induction hr with
  | start => exact h
  | @step r r' op outcome sh sh' _ hop hcalm hrun ih =>
    have : HonestSource (· = Halt.exhausted) σ := .of_returns
    obtain ⟨ds, hp⟩ := (perform_meets (H := (· = Halt.exhausted)) rfl op ih.wf).of_ok hrun
    exact (hp.early_iff hop ih).2 hcalm

/-- **When a stack reports the end early.**  Over any source of finitely many bytes, in
a stack of any height with buffers of any sizes and any pools, an operation reports
the end although bytes remain, or has the next byte missed, just if it is exposed;
and where it is not, a collected record is the next one that remains.  To collect it
takes a round at most for each byte that remains, and one more. -/
theorem stack_ends_early_iff {τ : Type} [ByteSource τ] [FiniteSource τ] (s : τ) (size : Nat)
    (pool : PoolId) (buffers : List (Nat × PoolId)) {r : Reader (Stack τ buffers.length)}
    (hr : Reached (withCapacity (Stack.build s buffers) size pool) r) (op : Op)
    (hop : op.IsForward) (sh : Shared)
    (hpatience : ∀ delim, op = .readBytes delim → r.remaining.length < sh.patience) :
    Act.Returns (perform op r) sh fun (outcome, r') _ =>
      (EndsEarly op outcome r' ∨ r'.EndsNext ↔ r.Exposed op) ∧
        ∀ delim, op = .readBytes delim → ¬ r.Exposed op →
          outcome = .passage (record delim r.remaining) := by
  have h : r.Sound := hr.sound (sound_withCapacity (Stack.sound_build s buffers) size pool)
  refine (perform_returns hop h hpatience).imp ?_
  rintro ⟨outcome, r'⟩ sh' ⟨ds, hp⟩
  refine ⟨(hp.early_iff hop h).1, ?_⟩
  rintro delim rfl hcalm
  cases hp with
  | readBytes hc => rw [(hc.record_eq h hcalm).2.1]

/-- Twenty letters, which come with the end of the stream. -/
def letters : Script.Steady where
  source :=
    { items := [.piece [0x41, 0x42, 0x43, 0x44, 0x45, 0x46, 0x47, 0x48, 0x49, 0x4a, 0x4b, 0x4c,
        0x4d, 0x4e, 0x4f, 0x50, 0x51, 0x52, 0x53, 0x54] (some .eof)] }

/-- A small buffer upon a larger one. -/
def lettersStack : Reader (Stack Script.Steady 1) :=
  withCapacity (Stack.build letters [(64, 0)]) 16 0

/-- What an operation leaves of a reader. -/
def after (op : Op) (r : Reader σ) : Reader σ :=
  match perform op r { pools := [], patience := 4 } with
  | .ok (_, r') _ => r'
  | .error _ _ => r

/-- The small buffer has been filled by a peek. -/
def peekedLetters : Reader (Stack Script.Steady 1) := after (.peek 16) lettersStack

theorem perform_lettersStack :
    perform (.peek 16) lettersStack { pools := [], patience := 4 } =
      .ok (.passage ⟨peekedLetters.window.unread, none⟩, peekedLetters)
        { pools := [], patience := 4 } := rfl

/-- The twentieth letter is missed once the small buffer is full. -/
theorem stack_ends_early_iff_letters :
    ∃ outcome r' sh',
      perform (.readBytes 0x54) peekedLetters { pools := [] } = .ok (outcome, r') sh' ∧
        peekedLetters.Exposed (.readBytes 0x54) ∧
        (EndsEarly (.readBytes 0x54) outcome r' ∨ r'.EndsNext) := by
  have hexposed : peekedLetters.Exposed (.readBytes 0x54) := by
    refine ⟨rfl, by decide, by decide, rfl, ?_⟩
    decide
  have hreached : Reached lettersStack peekedLetters :=
    .step .start (show Op.IsForward (.peek 16) from trivial) id perform_lettersStack
  obtain ⟨⟨outcome, r'⟩, sh', hrun, hends, -⟩ := Act.Returns.exists_ok
    (stack_ends_early_iff letters 16 0 [(64, 0)] hreached (.readBytes 0x54) trivial
      { pools := [] } fun _ _ => by decide)
  exact ⟨outcome, r', sh', hrun, hexposed, hends.mpr hexposed⟩

/-- Asked for the record that ends in the last letter, the small buffer once full, the
stack reports the end after sixteen letters, and has four of them left. -/
theorem lettersStack_ends_early :
    ∃ entries sh', Act.performAll perform [.peek 16, .readBytes 0x54] lettersStack
        { pools := [], patience := 4 } = .ok entries sh' ∧
      ∃ entry ∈ entries, EndsEarly entry.op entry.outcome entry.state := by
  have hrecord : perform (.readBytes 0x54) peekedLetters { pools := [], patience := 4 } =
      .ok (.passage ⟨peekedLetters.window.unread, some .eof⟩, after (.readBytes 0x54) peekedLetters)
        { pools := [], patience := 4 } := rfl
  have hleft : (after (.readBytes 0x54) peekedLetters).remaining = [0x51, 0x52, 0x53, 0x54] := rfl
  have hrun : Act.performAll perform [.peek 16, .readBytes 0x54] lettersStack
      { pools := [], patience := 4 } =
      .ok [⟨.peek 16, .passage ⟨peekedLetters.window.unread, none⟩, peekedLetters⟩,
          ⟨.readBytes 0x54, .passage ⟨peekedLetters.window.unread, some .eof⟩,
            after (.readBytes 0x54) peekedLetters⟩]
        { pools := [], patience := 4 } := by
    simp only [Act.performAll, bind, EStateM.bind, perform_lettersStack, hrecord, pure, EStateM.pure]
  refine ⟨_, _, hrun, _, List.mem_cons_of_mem _ List.mem_cons_self, rfl, ?_, by rintro n ⟨⟩⟩
  rw [hleft]
  exact List.cons_ne_nil _ _

end Reader

end BufferedStream
