import BufferedStream.Proofs.Act

/-!
# Runs

A run performs one operation after another on a state and notes what came of
each.  Whatever one step tells of the state before, the operation, the outcome
and the state after is told of every step of a run (`Act.performAll_meets`), and what a
step passes on to the next may be carried along the entries
(`Chain.follows`).

* `Entry` — an operation, its outcome and the state it left behind.
* `Chain` — a row of entries in which every step is of a given kind.
* `Follows` — a row of entries along which a running account can be kept.
-/

namespace BufferedStream

/-- What came of one operation of a run. -/
structure Entry (ω ο σ : Type) where
  op : ω
  outcome : ο
  /-- The state that the operation left behind. -/
  state : σ

variable {ω ο σ τ : Type}

/-- Perform operations in a row. -/
def Act.performAll (perform : ω → σ → Act (ο × σ)) : List ω → σ → Act (List (Entry ω ο σ))
  | [], _ => return []
  | op :: ops, s => do
    let (outcome, s) ← perform op s
    return ⟨op, outcome, s⟩ :: (← Act.performAll perform ops s)

/-- Every entry of the row, which starts in the state `s`, is of a step of the
given kind. -/
def Chain (step : σ → ω → ο → σ → Prop) : σ → List (Entry ω ο σ) → Prop
  | _, [] => True
  | s, entry :: entries => step s entry.op entry.outcome entry.state ∧ Chain step entry.state entries

/-- Along the row of entries an account can be kept, which starts as `t` and
which every step updates as `account` allows. -/
def Follows (account : Entry ω ο σ → τ → τ → Prop) : τ → List (Entry ω ο σ) → Prop
  | _, [] => True
  | t, entry :: entries => ∃ t', account entry t t' ∧ Follows account t' entries

/-- **Runs are judged step by step.**  By induction on the operations: the
invariant carries over from each step to the next. -/
theorem Act.performAll_meets {perform : ω → σ → Act (ο × σ)} {H : Halt → Prop} {I : σ → Prop}
    {step : σ → ω → ο → σ → Prop}
    (ops : List ω)
    (hstep : ∀ op ∈ ops, ∀ s sh, I s → Act.Meets H (perform op s) sh fun (outcome, s') _ =>
      step s op outcome s' ∧ I s')
    {s : σ} (hs : I s) (sh : Shared) :
    Act.Meets H (Act.performAll perform ops s) sh fun entries _ =>
      Chain step s entries ∧ entries.map Entry.op = ops := by
  induction ops generalizing s sh with
  | nil => exact ⟨trivial, rfl⟩
  | cons op ops ih =>
    rw [Act.performAll]
    refine Act.meets_bind.mpr ((hstep op List.mem_cons_self s sh hs).imp ?_)
    rintro ⟨outcome, s'⟩ sh' ⟨hfirst, hs'⟩
    have hrest := ih (fun op hop => hstep op (List.mem_cons_of_mem _ hop)) hs' sh'
    refine Act.meets_bind.mpr (hrest.imp ?_)
    rintro entries sh'' ⟨hrest, hops⟩
    exact ⟨⟨hfirst, hrest⟩, congrArg (op :: ·) hops⟩

/-- By induction on the entries: a relation between states and accounts that
every step keeps up gives an account of the whole row. -/
theorem Chain.follows {step : σ → ω → ο → σ → Prop} {account : Entry ω ο σ → τ → τ → Prop}
    {R : σ → τ → Prop}
    (hstep : ∀ s t op outcome s', R s t → step s op outcome s' →
      ∃ t', account ⟨op, outcome, s'⟩ t t' ∧ R s' t')
    {s : σ} {t : τ} (hR : R s t) {entries : List (Entry ω ο σ)} (h : Chain step s entries) :
    Follows account t entries := by
  induction entries generalizing s t with
  | nil => trivial
  | cons entry entries ih =>
    obtain ⟨hfirst, hrest⟩ := h
    obtain ⟨t', haccount, hR'⟩ := hstep s t entry.op entry.outcome entry.state hR hfirst
    exact ⟨t', haccount, ih hR' hrest⟩

end BufferedStream
