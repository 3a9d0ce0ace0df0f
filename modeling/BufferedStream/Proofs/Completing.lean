import BufferedStream.Proofs.Roomy
import BufferedStream.Proofs.Writer.Latching

/-!
# Writes that are completed

A plain output may take a part of what it is offered, be interrupted, or fail; as a sink it is
written to until all is taken or it fails for good.

* `Attempt` — one write on a plain output, and the verdict on it.
* `Completion` — the attempts of a write that is completed, with what came of it.
* `Completed` — what is told of such a write: nothing is offered again once it was taken, and
  nothing is left out.
* `Script.TruthfulOutput` — an output that follows any script in which it takes bytes or
  fails.
* `Writer.Performs.latches_failure` — what an operation latches is the failure of a write.
-/

namespace BufferedStream

open Keeping (kept)

/-! ## Attempts -/

/-- One write on a plain output: the bytes offered to it, and what came of it. -/
structure Attempt where
  offered : Bytes
  result : Except IoError Nat

namespace Attempt

/-- The number of bytes that were taken. -/
def taken (a : Attempt) : Nat :=
  match a.result with
  | .ok n => n
  | .error _ => 0

/-- Why nothing is attempted after this, if so: nothing was taken, or it was a failure and no
interruption.  The error gets the identity that is the next. -/
def verdict (id : ErrorId) (a : Attempt) : Option Error :=
  match a.result with
  | .ok 0 => some ((IoError.bare .writeZero).enter id)
  | .ok _ => none
  | .error cause => if cause.kind = .interrupted then none else some (cause.enter id)

/-- An attempt as it is noted. -/
def call (a : Attempt) : Call := .output a.offered (a.result.mapError IoError.kind)

variable {id : ErrorId} {a : Attempt} {e : Error}

/-- An attempt that ends a write has taken nothing. -/
theorem taken_of_verdict (h : a.verdict id = some e) : a.taken = 0 := by
  obtain ⟨offered, result⟩ := a
  cases result with
  | error cause => rfl
  | ok n =>
    cases n with
    | zero => rfl
    | succ n => cases h

/-- What a write ends with is a failure under the given identity, and no interruption. -/
theorem verdict_not_interrupted (h : a.verdict id = some e) :
    ∃ cause, e = .io id cause ∧ cause.kind ≠ .interrupted := by
  obtain ⟨offered, result⟩ := a
  unfold verdict at h
  cases result with
  | error cause =>
    dsimp only at h
    by_cases hkind : cause.kind = .interrupted
    · rw [if_pos hkind] at h
      cases h
    · rw [if_neg hkind] at h
      cases h
      exact ⟨cause, rfl, hkind⟩
  | ok n =>
    cases n with
    | zero =>
      cases h
      exact ⟨.bare .writeZero, rfl, by decide⟩
    | succ n => cases h

end Attempt

/-- The number of bytes that were taken in a row of attempts. -/
def takenIn : List Attempt → Nat
  | [] => 0
  | a :: as => a.taken + takenIn as

@[simp] theorem takenIn_nil : takenIn [] = 0 := rfl

@[simp] theorem takenIn_cons (a : Attempt) (as : List Attempt) :
    takenIn (a :: as) = a.taken + takenIn as := rfl

/-! ## Completed writes -/

/-- The attempts of a write of `b`.  Each offers all that is left; the write ends when that is
nothing, or with the first attempt that has a verdict. -/
inductive Completion (id : ErrorId) : Bytes → List Attempt → Receipt → Prop
  | done : Completion id [] [] ⟨0, none⟩
  | ended {a : Attempt} {e : Error} (hne : a.offered ≠ []) (h : a.verdict id = some e) :
      Completion id a.offered [a] ⟨0, some e⟩
  | goesOn {a : Attempt} {as : List Attempt} {receipt : Receipt} (hne : a.offered ≠ [])
      (h : a.verdict id = none) (hle : a.taken ≤ a.offered.length)
      (hrest : Completion id (a.offered.drop a.taken) as receipt) :
      Completion id a.offered (a :: as) ⟨a.taken + receipt.count, receipt.fault⟩

/-- What is told of a write of `b` that made the attempts `as`. -/
structure Completed (id : ErrorId) (b : Bytes) (as : List Attempt) (receipt : Receipt) : Prop where
  /-- An attempt offers what those before have not taken, all of it, and not nothing. -/
  offered : ∀ before a after, as = before ++ a :: after →
    a.offered = b.drop (takenIn before) ∧ a.offered ≠ []
  /-- The bytes counted are those taken. -/
  count_eq : receipt.count = takenIn as
  count_le : receipt.count ≤ b.length
  /-- The write fails unless all was taken. -/
  all_iff : receipt.fault = none ↔ receipt.count = b.length
  /-- The first attempt with a verdict gives the error, and none is made after it. -/
  fault_eq : receipt.fault = as.findSome? (Attempt.verdict id)
  last : ∀ a ∈ as.dropLast, a.verdict id = none
  /-- An interruption is not reported. -/
  reported : ∀ e, receipt.fault = some e → ∃ cause, e = .io id cause ∧ cause.kind ≠ .interrupted

namespace Completion

variable {id : ErrorId} {b : Bytes} {as : List Attempt} {receipt : Receipt}

theorem count_eq (h : Completion id b as receipt) : receipt.count = takenIn as := by
  induction h with
  | done => rfl
  | ended _ h => simp [Attempt.taken_of_verdict h]
  | goesOn _ _ _ _ ih => simp [ih]

/-- Either all is taken, or less and there is an error. -/
theorem all_or_fault (h : Completion id b as receipt) :
    (receipt.fault = none ∧ receipt.count = b.length) ∨
      ((∃ e, receipt.fault = some e) ∧ receipt.count < b.length) := by
  induction h with
  | done => exact .inl ⟨rfl, rfl⟩
  | ended hne => exact .inr ⟨⟨_, rfl⟩, List.length_pos_iff.mpr hne⟩
  | @goesOn a as receipt hne h hle hrest ih =>
    rw [List.length_drop] at ih
    rcases ih with ⟨hnone, hcount⟩ | ⟨hsome, hcount⟩
    · left
      refine ⟨hnone, ?_⟩
      simp only
      omega
    · right
      refine ⟨hsome, ?_⟩
      simp only
      omega

theorem fault_eq (h : Completion id b as receipt) :
    receipt.fault = as.findSome? (Attempt.verdict id) := by
  induction h with
  | done => rfl
  | ended _ h => simp [h]
  | goesOn _ h _ _ ih => simp [h, ih]

theorem last (h : Completion id b as receipt) : ∀ a ∈ as.dropLast, a.verdict id = none := by
  induction h with
  | done => simp
  | ended => simp
  | @goesOn a as receipt hne h hle hrest ih =>
    intro a' ha'
    cases as with
    | nil => simp at ha'
    | cons a₁ as =>
      rw [List.dropLast_cons_of_ne_nil (List.cons_ne_nil _ _)] at ha'
      rcases List.mem_cons.mp ha' with rfl | ha'
      · exact h
      · exact ih a' ha'

/-- By induction on the attempts: what was taken before is dropped, and no more. -/
theorem offered (h : Completion id b as receipt) : ∀ before a after, as = before ++ a :: after →
    a.offered = b.drop (takenIn before) ∧ a.offered ≠ [] := by
  induction h with
  | done =>
    intro before a after heq
    simp at heq
  | ended hne =>
    intro before a after heq
    obtain ⟨rfl, rfl, rfl⟩ : before = [] ∧ _ = a ∧ [] = after := by
      cases before with
      | nil => simpa using heq
      | cons => simp at heq
    exact ⟨rfl, hne⟩
  | @goesOn a₀ as receipt hne h hle hrest ih =>
    intro before a after heq
    cases before with
    | nil =>
      obtain ⟨rfl, rfl⟩ := List.cons_eq_cons.mp heq
      exact ⟨rfl, hne⟩
    | cons a₁ before =>
      obtain ⟨rfl, htail⟩ := List.cons_eq_cons.mp heq
      obtain ⟨hoffered, hne⟩ := ih before a after htail
      rw [List.drop_drop] at hoffered
      exact ⟨hoffered, hne⟩

/-- Without bytes there is nothing to attempt. -/
theorem eq_nil (h : Completion id [] as receipt) : as = [] := by
  cases as with
  | nil => rfl
  | cons a as =>
    obtain ⟨hoffered, hne⟩ := h.offered [] a as rfl
    exact absurd hoffered hne

theorem completed (h : Completion id b as receipt) : Completed id b as receipt where
  offered := h.offered
  count_eq := h.count_eq
  count_le := by
    rcases h.all_or_fault with ⟨-, hcount⟩ | ⟨-, hcount⟩
    · exact Nat.le_of_eq hcount
    · exact Nat.le_of_lt hcount
  all_iff := by
    rcases h.all_or_fault with ⟨hnone, hcount⟩ | ⟨⟨e, he⟩, hcount⟩
    · simp [hnone, hcount]
    · simp [he, Nat.ne_of_lt hcount]
  fault_eq := h.fault_eq
  last := h.last
  reported := by
    intro e he
    rw [h.fault_eq] at he
    obtain ⟨a, -, ha⟩ := List.exists_of_findSome?_eq_some he
    exact Attempt.verdict_not_interrupted ha

end Completion

/-! ## Outputs that follow a script -/

namespace Script

/-- The item takes bytes or fails, not both, and claims no bytes that it does not take. -/
def SinkItem.isSingle {ε : Type} : SinkItem ε → Bool
  | .all _ => true
  | .take limit fault => limit = 0 || fault.isNone
  | .claim _ => false

/-- The attempts `as` may be made on the output one after another, and leave `o'`. -/
def Output.Answers : Output → List Attempt → Output → Prop
  | o, [], o' => o' = o
  | o, a :: as, o' => (o.write a.offered).1 = a.result ∧ (o.write a.offered).2.Answers as o'

/-- A scripted plain output that takes bytes or fails in each call. -/
structure TruthfulOutput where
  output : Output
  single : output.items.all SinkItem.isSingle = true := by decide

namespace TruthfulOutput

/-- What an answer tells, and what is left of the script. -/
structure Serves (o : Output) (a : Attempt) (o' : Output) : Prop where
  single : o'.items.all SinkItem.isSingle = true
  taken_le : a.taken ≤ a.offered.length
  data_eq : o'.data = o.data ++ a.offered.take a.taken
  /-- There is one item less, unless all was taken. -/
  items_lt : o'.items.length < o.items.length ∨ a.taken = a.offered.length

theorem serves {o : Output} (h : o.items.all SinkItem.isSingle = true) (b : Bytes) :
    Serves o ⟨b, (o.write b).1⟩ (o.write b).2 := by
  obtain ⟨items, data⟩ := o
  cases items with
  | nil => exact ⟨rfl, Nat.le_refl _, by simp [Output.write, SinkItem.serve, Attempt.taken], .inr rfl⟩
  | cons item rest =>
    rw [List.all_cons, Bool.and_eq_true] at h
    cases item with
    | all times =>
      refine ⟨?_, Nat.le_refl _, by simp [Output.write, SinkItem.serve, Attempt.taken], .inr rfl⟩
      show (idleAgain SinkItem.all times rest).all SinkItem.isSingle = true
      unfold idleAgain
      split
      · exact h.2
      · exact h.2
    | take limit fault =>
      have hlt : rest.length < (SinkItem.take limit fault :: rest).length := Nat.lt_succ_self _
      cases fault with
      | none => exact ⟨h.2, Nat.min_le_right .., congrArg (data ++ ·) List.take_eq_take_min, .inl hlt⟩
      | some cause =>
        -- a call that fails takes nothing
        have hzero : limit = 0 := by simpa [SinkItem.isSingle] using h.1
        subst hzero
        exact ⟨h.2, Nat.zero_le _, rfl, .inl hlt⟩
    | claim excess => cases h.1

/-- One write. -/
def write (t : TruthfulOutput) (b : Bytes) : Except IoError Nat × TruthfulOutput :=
  ((t.output.write b).1, ⟨(t.output.write b).2, (serves t.single b).single⟩)

theorem write_serves (t : TruthfulOutput) (b : Bytes) :
    Serves t.output ⟨b, (t.write b).1⟩ (t.write b).2.output := serves t.single b

instance : PlainOutput TruthfulOutput where
  write t b := do
    let (result, t) := t.write b
    Act.note (.output b (result.mapError IoError.kind))
    return (result, t)

/-- What a write through the adapter does, with the attempts that it makes. -/
structure Writes (sh : Shared) (t : TruthfulOutput) (b : Bytes) (as : List Attempt)
    (receipt : Receipt) (t' : TruthfulOutput) (sh' : Shared) : Prop where
  /-- These are the calls made, in this order. -/
  journal_eq : sh'.journal.toList = sh.journal.toList ++ as.map Attempt.call
  answers : t.output.Answers as t'.output
  /-- The output keeps just the bytes counted, from the front. -/
  data_eq : t'.output.data = t.output.data ++ b.take receipt.count
  completion : Completion sh.nextId b as receipt

variable {sh : Shared}

theorem Writes.nil (t : TruthfulOutput) : Writes sh t [] [] ⟨0, none⟩ t sh :=
  ⟨(List.append_nil _).symm, rfl, (List.append_nil _).symm, .done⟩

/-- What streams share once an attempt was noted. -/
def noting (sh : Shared) (a : Attempt) : Shared := { sh with journal := sh.journal.push a.call }

theorem Writes.ended {t : TruthfulOutput} {b : Bytes} {a : Attempt} {e : Error} {sh' : Shared}
    (ha : a = ⟨b, (t.write b).1⟩) (hne : b ≠ []) (h : a.verdict sh.nextId = some e)
    (hnoted : sh'.journal = sh.journal.push a.call) :
    Writes sh t b [a] ⟨0, some e⟩ (t.write b).2 sh' := by
  subst ha
  exact
    { journal_eq := by rw [hnoted, Array.toList_push]; rfl
      answers := ⟨rfl, rfl⟩
      data_eq := by
        have hdata := (t.write_serves b).data_eq
        rwa [Attempt.taken_of_verdict h] at hdata
      completion := .ended hne h }

theorem Writes.goesOn {t t' : TruthfulOutput} {b : Bytes} {a : Attempt} {as : List Attempt}
    {receipt : Receipt} {sh' : Shared} (ha : a = ⟨b, (t.write b).1⟩) (hne : b ≠ [])
    (h : a.verdict sh.nextId = none)
    (hrest : Writes (noting sh a) (t.write b).2 (b.drop a.taken) as receipt t' sh') :
    Writes sh t b (a :: as) ⟨a.taken + receipt.count, receipt.fault⟩ t' sh' := by
  subst ha
  have hserves := t.write_serves b
  exact
    { journal_eq := by
        rw [hrest.journal_eq, noting, Array.toList_push, List.append_assoc]
        rfl
      answers := ⟨rfl, hrest.answers⟩
      data_eq := by
        rw [hrest.data_eq, List.take_add, ← List.append_assoc]
        exact congrArg (· ++ _) hserves.data_eq
      completion := .goesOn hne h hserves.taken_le hrest.completion }

/-- One round: with a verdict it is the last, and without the write goes on behind what was
taken. -/
theorem writeRounds_succ_meets {H : Halt → Prop} {rounds written : Nat} {t : TruthfulOutput}
    {b : Bytes} {a : Attempt} {post : Receipt × OutputSink TruthfulOutput → Shared → Prop}
    (ha : a = ⟨b, (t.write b).1⟩) (hne : b ≠ [])
    (hends : ∀ e sh', a.verdict sh.nextId = some e → sh'.journal = sh.journal.push a.call →
      post (⟨written, some e⟩, ⟨(t.write b).2⟩) sh')
    (hgoes : a.verdict sh.nextId = none →
      Act.Meets H (OutputSink.writeRounds rounds (written + a.taken) (t.write b).2
        (b.drop a.taken)) (noting sh a) post) :
    Act.Meets H (OutputSink.writeRounds (rounds + 1) written t b) sh post := by
  have hmeets : ∀ {post : Except IoError Nat × TruthfulOutput → Shared → Prop},
      post (t.write b) (noting sh a) → Act.Meets H (PlainOutput.write t b) sh post := by
    intro post h
    rw [ha] at h
    exact h
  rw [OutputSink.writeRounds]
  · refine Act.meets_bind.mpr (hmeets ?_)
    cases hresult : t.write b with
    | mk result t' =>
      rw [hresult] at ha hends hgoes
      subst ha
      cases result with
      | error cause =>
        dsimp only
        by_cases hkind : cause.kind = .interrupted
        · rw [if_pos hkind]
          exact hgoes (if_pos hkind)
        · rw [if_neg hkind]
          exact hends _ _ (if_neg hkind) rfl
      | ok n =>
        cases n with
        | zero => exact hends _ _ rfl rfl
        | succ n => exact hgoes rfl
  · exact hne

/-- By induction on the rounds: if those granted exceed the items that are left they suffice,
since an attempt uses one up unless it takes everything. -/
theorem writeRounds_writes {H : Halt → Prop} (rounds written : Nat) (t : TruthfulOutput)
    (b : Bytes) (hrounds : H .exhausted ∨ (b ≠ [] → t.output.items.length < rounds)) :
    Act.Meets H (OutputSink.writeRounds rounds written t b) sh fun (receipt, k) sh' => ∃ as r,
      Writes sh t b as r k.output sh' ∧ receipt = ⟨written + r.count, r.fault⟩ := by
  induction rounds generalizing written t b sh with
  | zero =>
    cases b with
    | nil => exact ⟨[], _, .nil t, rfl⟩
    | cons x b => exact hrounds.resolve_right fun h => Nat.not_lt_zero _ (h (List.cons_ne_nil x b))
  | succ rounds ih =>
    by_cases hb : b = []
    · subst hb
      exact ⟨[], _, .nil t, rfl⟩
    apply writeRounds_succ_meets rfl hb
    · intro e sh' hverdict hnoted
      exact ⟨_, _, .ended rfl hb hverdict hnoted, rfl⟩
    · intro hverdict
      refine (ih _ _ _ (hrounds.imp id ?_)).imp ?_
      · intro henough hne
        have hlt := henough hb
        rcases (t.write_serves b).items_lt with hitems | hall
        · omega
        · exact absurd (List.drop_eq_nil_of_le (Nat.le_of_eq hall.symm)) hne
      · intro ⟨receipt, k⟩ sh' ⟨as, r, hwrites, hreceipt⟩
        refine ⟨_, _, .goesOn rfl hb hverdict hwrites, ?_⟩
        rw [hreceipt, Nat.add_assoc]

/-! ## The adapter as a sink -/

/-- A write through the adapter; patience for every item of the script is enough. -/
theorem write_writes {H : Halt → Prop} (k : OutputSink TruthfulOutput) (b : Bytes)
    (hpatience : H .exhausted ∨ k.output.output.items.length < sh.patience) :
    Act.Meets H (ByteSink.write k b) sh fun (receipt, k') sh' => ∃ as,
      Writes sh k.output b as receipt k'.output sh' := by
  refine Act.meets_bind.mpr (Act.meets_patience.mpr ?_)
  refine (writeRounds_writes _ _ _ _ (hpatience.imp id fun h _ => h)).imp ?_
  intro ⟨receipt, k'⟩ sh' ⟨as, r, hwrites, hreceipt⟩
  rw [Nat.zero_add] at hreceipt
  exact ⟨as, hreceipt ▸ hwrites⟩

instance : Keeping (OutputSink TruthfulOutput) := ⟨fun k => k.output.output.data⟩

instance : HonestSink (· = Halt.exhausted) (OutputSink TruthfulOutput) where
  write_honest k b sh := by
    refine (write_writes (H := (· = Halt.exhausted)) k b (.inl rfl)).imp ?_
    intro ⟨receipt, k'⟩ sh' ⟨as, hwrites⟩
    exact ⟨hwrites.completion.completed.count_le, hwrites.data_eq⟩

instance : HonestBulkSink (· = Halt.exhausted) (OutputSink TruthfulOutput) where
  readFrom_honest _ _ _ := ⟨rfl, rfl⟩

/-- Whatever ends a write is no short one. -/
theorem shortfall_ne_shortWrite {k k' : OutputSink TruthfulOutput} {b : Bytes} {receipt : Receipt}
    (h : ByteSink.Writes k b receipt k') : Writer.shortfall b receipt ≠ some .shortWrite := by
  obtain ⟨sh, sh', hrun⟩ := h
  obtain ⟨as, hwrites⟩ := (write_writes (H := (· = Halt.exhausted)) k b (.inl rfl)).of_ok hrun
  have hcompleted := hwrites.completion.completed
  unfold Writer.shortfall
  cases hfault : receipt.fault with
  | none =>
    rw [hcompleted.all_iff.mp hfault, if_neg (Nat.lt_irrefl _)]
    simp
  | some e =>
    obtain ⟨cause, rfl, -⟩ := hcompleted.reported e hfault
    simp

end TruthfulOutput

end Script

/-! ## What a writer latches -/

namespace Writer

section Latched

variable {κ ν : Type} [BulkSink κ] [Keeping κ] [ByteSource ν] {w w' : Writer κ}

omit [Keeping κ] in
/-- By induction on the calls: the first failure is that of a write. -/
theorem exists_writes_of_firstFailure {k k' : κ} {ss : List Send} {e : Error} (h : Sends k ss k')
    (he : firstFailure (ss.map Send.call) = some e) : ∃ k₁ b receipt k₂,
      ByteSink.Writes (κ := κ) k₁ b receipt k₂ ∧ shortfall b receipt = some e := by
  induction h with
  | nil => cases he
  | @cons k k₁ k₂ b receipt ss hwrites hrest ih =>
    rw [List.map_cons, ← List.singleton_append, firstFailure_append, firstFailure_single] at he
    cases hfirst : shortfall b receipt with
    | some e' =>
      rw [hfirst] at he
      exact ⟨k, b, receipt, k₁, hwrites, hfirst.trans he⟩
    | none =>
      rw [hfirst] at he
      exact ih he

omit [Keeping κ] in
/-- What is latched after a row of calls was latched before, or one of them failed so. -/
theorem latched_or_failed {k k' : κ} {ss : List Send} {fault fault' : Option Error} {e : Error}
    (h : Sends k ss k') (hlatches : Latches fault (ss.map Send.call) fault')
    (he : fault' = some e) : fault = some e ∨ ∃ k₁ b receipt k₂,
      ByteSink.Writes (κ := κ) k₁ b receipt k₂ ∧ shortfall b receipt = some e := by
  rw [hlatches.fault_eq] at he
  cases fault with
  | some e' => exact .inl he
  | none => exact .inr (exists_writes_of_firstFailure h he)

/-- **What is latched is the failure of a write.**  After an operation what is latched was latched
before, or it is how a write on the sink failed. -/
theorem Performs.latched_or_failed {op : Op ν} {outcome : Outcome ν} {e : Error}
    (hp : w.Performs op outcome (.writing w')) (he : w'.fault = some e) :
    w.fault = some e ∨ ∃ k b receipt k',
      ByteSink.Writes (κ := κ) k b receipt k' ∧ shortfall b receipt = some e := by
  cases hp with
  | write h => exact Writer.latched_or_failed h.sends h.latches he
  | writeText h => exact Writer.latched_or_failed h.sends h.latches he
  | writeByte h => exact Writer.latched_or_failed h.sends h.latches he
  | writeRune h => exact Writer.latched_or_failed h.sends h.latches he
  | readFrom h =>
    cases h with
    | failed => exact .inl he
    | bulk => exact .inl he
    | byTurns _ hd => exact Writer.latched_or_failed hd.sends hd.latches he
  | flush h => exact Writer.latched_or_failed h.sends h.latches he
  | plainWrite h => exact Writer.latched_or_failed h.sends h.latches he
  | plainFlush h => exact Writer.latched_or_failed h.sends h.latches he
  | adapt h => exact .inl (h.fault_eq.symm.trans he)
  | refused h => exact Writer.latched_or_failed h.sends h.latches he

end Latched

/-- By induction on the operations: whatever is latched is how some write failed. -/
theorem Reachable.exists_writes {κ : Type} [BulkSink κ] [Keeping κ]
    [HonestSink (· = Halt.exhausted) κ] [HonestBulkSink (· = Halt.exhausted) κ] {w : Writer κ}
    (h : w.Reachable) {e : Error} (he : w.fault = some e) :
    ∃ k b receipt k', ByteSink.Writes (κ := κ) k b receipt k' ∧ shortfall b receipt = some e := by
  induction h with
  | @start k size pool w sh sh' hnew =>
    have hfresh := ((withCapacity_meets (H := (· = Halt.exhausted)) k size pool).of_ok hnew).1
    rw [hfresh.fault] at he
    cases he
  | step h hrun ih =>
    have hp := (perform_meets (H := (· = Halt.exhausted)) rfl _ h.wf).of_ok hrun
    rcases hp.latched_or_failed he with hbefore | hfailed
    · exact ih hbefore
    · exact hfailed

end Writer

/-! ## Completing writes -/

/-- **A plain output is written to until all is taken.**  Whatever the script of a plain output,
as long as it takes bytes or fails in each call:

* a write through the adapter returns if patience exceeds the items of the script.  The bytes
  counted are those that the output took in the calls made meanwhile, and just these it keeps,
  from the front.  Each call offers all the bytes not yet taken and no others, and if there are
  none no call is made.  The write reports no error just if all was taken, never an
  interruption, and otherwise that nothing was taken or the failure as it came;
* so no writer over it ever latches a short write. -/
theorem plain_writes_completed :
    (∀ (t : Script.TruthfulOutput) (b : Bytes) (sh : Shared),
      t.output.items.length < sh.patience →
      Act.Returns (ByteSink.write (⟨t⟩ : OutputSink Script.TruthfulOutput) b) sh
        fun (receipt, k) sh' => ∃ as, sh'.journal.toList = sh.journal.toList ++ as.map Attempt.call ∧
          t.output.Answers as k.output.output ∧
          k.output.output.data = t.output.data ++ b.take receipt.count ∧
          Completed sh.nextId b as receipt ∧ (b = [] → as = [])) ∧
    ∀ w : Writer (OutputSink Script.TruthfulOutput), w.Reachable → w.fault ≠ some .shortWrite := by
  constructor
  · intro t b sh hpatience
    refine (Script.TruthfulOutput.write_writes _ b (.inr hpatience)).imp ?_
    intro ⟨receipt, k⟩ sh' ⟨as, hwrites⟩
    refine ⟨as, hwrites.journal_eq, hwrites.answers, hwrites.data_eq, hwrites.completion.completed,
      ?_⟩
    intro hb
    subst hb
    exact hwrites.completion.eq_nil
  · intro w hw hfault
    obtain ⟨k, b, receipt, k', hwrites, hshort⟩ := hw.exists_writes hfault
    exact Script.TruthfulOutput.shortfall_ne_shortWrite hwrites hshort

/-- It takes two bytes, is interrupted, and breaks. -/
def breakingPipe : Script.TruthfulOutput where
  output :=
    { items := [.take 2 none, .take 0 (some (.bare .interrupted)),
        .take 0 (some (.text .brokenPipe "pipe"))] }

theorem plain_writes_completed_breakingPipe :
    (∃ k sh, ByteSink.write (⟨breakingPipe⟩ : OutputSink Script.TruthfulOutput) [0x61, 0x62, 0x63]
        { pools := [] } = .ok (⟨2, some (.io 0 (.text .brokenPipe "pipe"))⟩, k) sh ∧
      k.output.output.data = [0x61, 0x62] ∧ ∃ as, as.length = 3 ∧
        Completed 0 [0x61, 0x62, 0x63] as ⟨2, some (.io 0 (.text .brokenPipe "pipe"))⟩) ∧
    ∃ w : Writer (OutputSink Script.TruthfulOutput), w.Reachable ∧
      w.fault = some (.io 0 (.text .brokenPipe "pipe")) ∧ w.fault ≠ some .shortWrite := by
  obtain ⟨hwrite, hwriter⟩ := plain_writes_completed
  constructor
  · obtain ⟨as, hjournal, -, hdata, hcompleted, -⟩ :=
      (hwrite breakingPipe [0x61, 0x62, 0x63] { pools := [] } (by decide)).of_ok rfl
    have hlength : 3 = (as.map Attempt.call).length := congrArg List.length hjournal
    rw [List.length_map] at hlength
    exact ⟨_, _, rfl, hdata, as, hlength.symm, hcompleted⟩
  · let k : OutputSink Script.TruthfulOutput := ⟨breakingPipe⟩
    have hstart : Writer.Reachable ({ sink := k, size := 1, pool := 0 } : Writer _) :=
      .start (show Writer.withCapacity k 1 0 { pools := [] } = .ok _ _ from rfl)
    have hrun : ∃ outcome w sh, Writer.perform (.write [0x61, 0x62, 0x63] : Writer.Op MemorySource)
        (.writing { sink := k, size := 1, pool := 0 }) { pools := [] } =
          .ok (outcome, .writing w) sh ∧ w.fault = some (.io 0 (.text .brokenPipe "pipe")) :=
      ⟨_, _, _, rfl, rfl⟩
    obtain ⟨outcome, w, sh, hrun, hfault⟩ := hrun
    have hreached := hstart.step hrun
    exact ⟨w, hreached, hfault, hwriter w hreached⟩

end BufferedStream
