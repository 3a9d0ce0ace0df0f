import BufferedStream.Proofs.Patience

/-!
# Sinks that take bytes up to a limit

A sink may take bytes up to a limit, or without one.  A write beyond the limit is taken as far
as the limit allows, and reported with an error or as too short.  So what becomes of bytes that
are offered one write after another, until one is refused, is what becomes of them offered at
once.

* `Limit.within`, `Limit.behind` — the bytes within a limit, and what is left of it behind them.
* `TakesWithin` — the states of a sink that takes bytes up to a limit.
* `Moves` — what comes of bytes that are moved into such a sink, and how moves follow one
  another (`Moves.append`, `Moves.stopped`).
* `LimitedSink` — a sink with a limit of its own.
-/

namespace BufferedStream

open Keeping (kept)

/-! ## Limits -/

/-- How many bytes may still come, if there is a limit to it. -/
abbrev Limit := Option Nat

namespace Limit

/-- The bytes within the limit. -/
def within (l : Limit) (b : Bytes) : Bytes :=
  match l with
  | none => b
  | some n => b.take n

/-- What is left of the limit behind the bytes `b`. -/
def behind (l : Limit) (b : Bytes) : Limit := l.map fun n => n - b.length

variable {l : Limit} {b c : Bytes}

@[simp] theorem within_none (b : Bytes) : within none b = b := rfl

@[simp] theorem within_nil (l : Limit) : l.within [] = [] := by
  cases l <;> simp [within]

@[simp] theorem behind_nil (l : Limit) : l.behind [] = l := by
  cases l <;> simp [behind]

theorem within_eq_take (l : Limit) (b : Bytes) : l.within b = b.take (l.within b).length := by
  cases l with
  | none => simp
  | some n => simp [within, ← List.take_eq_take_min]

theorem length_within_some (n : Nat) (b : Bytes) :
    (within (some n) b).length = min b.length n := by
  rw [within, List.length_take, Nat.min_comm]

theorem within_some_eq_iff {n : Nat} : within (some n) b = b ↔ b.length ≤ n := by
  refine ⟨fun h => ?_, fun h => List.take_of_length_le h⟩
  have hlength := congrArg List.length h
  rw [length_within_some] at hlength
  omega

theorem take_min_eq_within (n : Nat) (b : Bytes) :
    b.take (min b.length n) = within (some n) b := by
  rw [within, Nat.min_comm, ← List.take_eq_take_min]

theorem sub_min_eq_behind (n : Nat) (b : Bytes) :
    some (n - min b.length n) = behind (some n) b := by
  rw [behind, Option.map_some, Option.some.injEq]
  omega

/-- Bytes that are not within the limit exhaust it. -/
theorem exists_of_within_ne (h : l.within b ≠ b) : ∃ n, l = some n ∧ n < b.length := by
  cases l with
  | none => exact absurd rfl h
  | some n => exact ⟨n, rfl, Nat.lt_of_not_le (mt within_some_eq_iff.mpr h)⟩

theorem behind_append (l : Limit) (b c : Bytes) : l.behind (b ++ c) = (l.behind b).behind c := by
  cases l <;> simp [behind, Nat.sub_sub]

/-- Behind bytes within the limit, others are within what is left of it. -/
theorem within_append_of_eq (h : l.within b = b) (c : Bytes) :
    l.within (b ++ c) = b ++ (l.behind b).within c := by
  cases l with
  | none => rfl
  | some n =>
    have hle := within_some_eq_iff.mp h
    simp [within, behind, List.take_append, List.take_of_length_le hle]

/-- Behind bytes that are not within the limit, none are. -/
theorem within_append_of_ne (h : l.within b ≠ b) (c : Bytes) :
    l.within (b ++ c) = l.within b := by
  obtain ⟨n, rfl, hlt⟩ := exists_of_within_ne h
  simp [within, List.take_append, Nat.sub_eq_zero_of_le (Nat.le_of_lt hlt)]

theorem behind_append_of_ne (h : l.within b ≠ b) (c : Bytes) :
    l.behind (b ++ c) = l.behind b := by
  obtain ⟨n, rfl, hlt⟩ := exists_of_within_ne h
  simp only [behind, Option.map_some, List.length_append, Option.some.injEq]
  omega

theorem append_ne_of_ne (h : l.within b ≠ b) (c : Bytes) : l.within (b ++ c) ≠ b ++ c := by
  obtain ⟨n, rfl, hlt⟩ := exists_of_within_ne h
  rw [Ne, within_some_eq_iff, List.length_append]
  omega

end Limit

/-! ## Moving bytes -/

section Moves

variable {κ : Type}

/-- The sink is in states of which `P` tells the bytes taken and the limit left.  It takes
bytes up to the limit, and reports a refusal of the others: an error, but for its number, or
nothing. -/
def TakesWithin [ByteSink κ] (P : κ → Bytes → Limit → Prop) (refusal : Option (ErrorId → Error)) :
    Prop :=
  ∀ {k : κ} {c : Bytes} {l : Limit} (b : Bytes) (sh : Shared), P k c l →
    Act.Returns (ByteSink.write k b) sh fun (receipt, k') sh' =>
      (receipt.count = (l.within b).length ∧
        (∃ id, receipt.fault = if l.within b = b then none else refusal.map (· id)) ∧
        P k' (c ++ l.within b) (l.behind b)) ∧ sh'.patience = sh.patience

variable {P : κ → Bytes → Limit → Prop} {refusal : Option (ErrorId → Error)} {c b u v : Bytes}
  {l : Limit} {receipt receipt' : Receipt} {left left' : Bytes} {k k' : κ}

/-- What comes of the bytes `b` that are moved into a sink: those within the limit are taken and
counted, the others are left, and if there are any the refusal is reported, as a short write
if the sink reports nothing. -/
structure Moves (P : κ → Bytes → Limit → Prop) (refusal : Option (ErrorId → Error)) (c : Bytes)
    (l : Limit) (b : Bytes) (receipt : Receipt) (left : Bytes) (k' : κ) : Prop where
  count_eq : receipt.count = (l.within b).length
  fault_eq : ∃ id, receipt.fault =
    if l.within b = b then none else some ((refusal.map (· id)).getD .shortWrite)
  left_eq : left = b.drop (l.within b).length
  sink : P k' (c ++ l.within b) (l.behind b)

namespace Moves

/-- Nothing is to be moved. -/
theorem nil (h : P k c l) : Moves P refusal c l [] ⟨0, none⟩ [] k where
  count_eq := by simp
  fault_eq := ⟨0, by simp⟩
  left_eq := by simp
  sink := by simpa using h

/-- A single write moves bytes, if a short one is taken for a failure. -/
theorem of_write (hcount : receipt.count = (l.within b).length)
    (hfault : ∃ id, receipt.fault = if l.within b = b then none else refusal.map (· id))
    (hk : P k' (c ++ l.within b) (l.behind b)) :
    Moves P refusal c l b
      ⟨receipt.count, if receipt.fault.isNone && receipt.count < b.length then some .shortWrite
        else receipt.fault⟩ (b.drop receipt.count) k' := by
  obtain ⟨id, hfault⟩ := hfault
  refine ⟨hcount, ⟨id, ?_⟩, by rw [hcount], hk⟩
  dsimp only
  rw [hfault, hcount]
  by_cases hall : l.within b = b
  · simp [hall]
  · obtain ⟨n, rfl, hlt⟩ := Limit.exists_of_within_ne hall
    have hshort : (Limit.within (some n) b).length < b.length := by
      rw [Limit.length_within_some]
      omega
    rw [if_neg hall, if_neg hall]
    cases refusal <;> simp [hshort]

/-- Without an error all of the bytes were within the limit. -/
theorem within_eq (h : Moves P refusal c l b receipt left k') (hnone : receipt.fault = none) :
    l.within b = b := by
  obtain ⟨id, hfault⟩ := h.fault_eq
  by_cases hall : l.within b = b
  · exact hall
  · rw [if_neg hall, hnone] at hfault
    cases hfault

theorem left_eq_nil (h : Moves P refusal c l b receipt left k') (hnone : receipt.fault = none) :
    left = [] := by
  rw [h.left_eq, h.within_eq hnone, List.drop_length]

/-- Without a limit everything is moved. -/
theorem receipt_eq (h : Moves P refusal c none b receipt left k') : receipt = ⟨b.length, none⟩ := by
  obtain ⟨id, hfault⟩ := h.fault_eq
  rw [if_pos (Limit.within_none b)] at hfault
  have hcount := h.count_eq
  cases receipt
  cases hcount
  cases hfault
  rfl

/-- **Moves follow one another** as long as nothing is refused. -/
theorem append (h : Moves P refusal c l u receipt left k) (hnone : receipt.fault = none)
    (h' : Moves P refusal (c ++ u) (l.behind u) v receipt' left' k') :
    Moves P refusal c l (u ++ v) ⟨receipt.count + receipt'.count, receipt'.fault⟩ left' k' := by
  have hall := h.within_eq hnone
  have happend := Limit.within_append_of_eq hall v
  obtain ⟨id, hfault⟩ := h'.fault_eq
  refine ⟨?_, ⟨id, ?_⟩, ?_, ?_⟩
  · rw [happend, List.length_append, h.count_eq, h'.count_eq, hall]
  · rw [happend, hfault]
    simp
  · rw [happend, List.length_append, List.drop_length_add_append]
    exact h'.left_eq
  · rw [happend, Limit.behind_append, ← List.append_assoc]
    exact h'.sink

/-- **A refusal is final**: more bytes behind those refused are left as well. -/
theorem stopped (h : Moves P refusal c l u receipt left k') (hsome : receipt.fault.isSome = true)
    (v : Bytes) : Moves P refusal c l (u ++ v) receipt (left ++ v) k' := by
  obtain ⟨id, hfault⟩ := h.fault_eq
  have hshort : l.within u ≠ u := by
    intro hall
    rw [if_pos hall] at hfault
    rw [hfault] at hsome
    cases hsome
  have hlength : (l.within u).length ≤ u.length := by
    rw [Limit.within_eq_take]
    exact List.length_take_le' ..
  refine ⟨?_, ⟨id, ?_⟩, ?_, ?_⟩
  · rw [Limit.within_append_of_ne hshort, h.count_eq]
  · rw [hfault, if_neg hshort, if_neg (Limit.append_ne_of_ne hshort v)]
  · rw [Limit.within_append_of_ne hshort, List.drop_append_of_le_length hlength, h.left_eq]
  · rw [Limit.within_append_of_ne hshort, Limit.behind_append_of_ne hshort]
    exact h.sink

end Moves

end Moves

/-! ## Sinks with a limit -/

/-- A sink that takes bytes up to a limit, if it has one.  A write beyond the limit is taken as
far as it goes, and reported with an error, always the same but for its number, or without
one. -/
class LimitedSink (κ : Type) [ByteSink κ] [Keeping κ] where
  limit : κ → Limit
  refusal : κ → Option (ErrorId → Error)
  write_limited (k : κ) (b : Bytes) (sh : Shared) :
    Act.Returns (ByteSink.write k b) sh fun (receipt, k') _ =>
      receipt.count = ((limit k).within b).length ∧
        (∃ id, receipt.fault = if (limit k).within b = b then none else (refusal k).map (· id)) ∧
        kept k' = kept k ++ (limit k).within b ∧ limit k' = (limit k).behind b ∧
        refusal k' = refusal k

open LimitedSink (limit)

variable {κ : Type} [ByteSink κ] [Keeping κ] [LimitedSink κ]

/-- A sink with a limit has taken the bytes `c`, will take as many more as `l` allows, and
refuses others in the way given. -/
def Filling (refusal : Option (ErrorId → Error)) (k : κ) (c : Bytes) (l : Limit) : Prop :=
  kept k = c ∧ limit k = l ∧ LimitedSink.refusal k = refusal

theorem takesWithin_filling [PatientSink κ] (refusal : Option (ErrorId → Error)) :
    TakesWithin (Filling (κ := κ) refusal) refusal := by
  intro k c l b sh ⟨hkept, hlimit, hrefusal⟩
  refine Act.Meets.patient ((LimitedSink.write_limited k b sh).imp ?_)
    (PatientSink.write_patient k b)
  intro ⟨receipt, k'⟩ sh' ⟨hcount, hfault, hkept', hlimit', hrefusal'⟩
  subst hkept hlimit hrefusal
  exact ⟨hcount, hfault, hkept', hlimit', hrefusal'⟩

instance : LimitedSink MemorySink where
  limit _ := none
  refusal _ := none
  write_limited _ _ _ := ⟨rfl, ⟨0, by simp⟩, rfl, rfl, rfl⟩

end BufferedStream
