import BufferedStream.Proofs.Reader.Stretch
import BufferedStream.Proofs.Script

/-!
# Calm scripts

A scripted source is *calm* if it claims no bytes that it does not hand out, reports no
full buffer, and never hands out nothing so often in a row that a reader gives up
(`Script.Calm`).  Otherwise the script is free: pieces of any size, empty ones too, errors
alone or with the last bytes of a piece, and more pieces after them.

* `Script.upToError`, `Script.nextError` — what a script hands out before its next error,
  and that error.
* `Script.Calm` is an `ErringSource`.
-/

namespace BufferedStream.Script

/-- The bytes that a script hands out up to its next error. -/
def upToError : List SourceItem → Bytes
  | [] => []
  | .piece data none :: rest => data ++ upToError rest
  | .piece data (some _) :: _ => data
  | .idle _ :: rest => upToError rest
  | .claim _ :: rest => upToError rest

/-- The next error of a script, which is the end once nothing is left of it. -/
def nextError : List SourceItem → Error
  | [] => .eof
  | .piece _ (some e) :: _ => e
  | .piece _ none :: rest => nextError rest
  | .idle _ :: rest => nextError rest
  | .claim _ :: rest => nextError rest

/-- How often a script hands out nothing before it brings bytes or an error. -/
def lull : List SourceItem → Nat
  | .idle times :: rest => max times 1 + lull rest
  | .piece [] none :: rest => lull rest + 1
  | _ => 0

/-- The script claims no bytes, reports no full buffer, and is never silent for long. -/
def isCalm : List SourceItem → Bool
  | [] => true
  | item :: rest =>
    item.isTruthful && item.isOwn && decide (lull (item :: rest) < maxEmptyReads) && isCalm rest

/-- A scripted source that is calm. -/
structure Calm where
  source : Source
  calm : isCalm source.items = true := by decide

namespace Calm

theorem isCalm_cons {item : SourceItem} {rest : List SourceItem} :
    isCalm (item :: rest) = true ↔ item.isTruthful = true ∧ item.isOwn = true ∧
      lull (item :: rest) < maxEmptyReads ∧ isCalm rest = true := by
  simp only [isCalm, Bool.and_eq_true, decide_eq_true_eq, and_assoc]

theorem lull_lt {items : List SourceItem} (h : isCalm items = true) :
    lull items < maxEmptyReads := by
  cases items with
  | nil => exact Reader.maxEmptyReads_pos
  | cons item rest => exact (isCalm_cons.mp h).2.2.1

/-- By induction on the script: none of its errors is a full buffer. -/
theorem nextError_ne_full {items : List SourceItem} (h : isCalm items = true) :
    nextError items ≠ .bufferFull := by
  induction items with
  | nil => rintro ⟨⟩
  | cons item rest ih =>
    obtain ⟨-, hown, -, hrest⟩ := isCalm_cons.mp h
    cases item with
    | piece data fault =>
      cases fault with
      | none => exact ih hrest
      | some e =>
        rintro heq
        obtain rfl : e = .bufferFull := heq
        cases hown
    | idle times => exact ih hrest
    | claim excess => exact ih hrest

/-- What a calm script answers, and what is left of it. -/
structure Serves (s : Source) (n : Nat) (g : Reading) (s' : Source) : Prop where
  calm : isCalm s'.items = true
  count_eq : g.count = g.data.length
  count_le : g.count ≤ n
  goes : g.fault = none →
    upToError s.items = g.data ++ upToError s'.items ∧ nextError s'.items = nextError s.items
  stops : ∀ e, g.fault = some e → upToError s.items = g.data ∧ nextError s.items = e
  lull_lt : g.fault = none → 0 < n → g.data = [] → lull s'.items < lull s.items

/-- A piece that fits is handed out with its error, if it has one. -/
theorem serves_whole {data : Bytes} {fault : Option Error} {rest : List SourceItem}
    {bulk : List (Bytes × Option Error)} (h : isCalm rest = true) {n : Nat}
    (hle : data.length ≤ n) :
    Serves ⟨.piece data fault :: rest, bulk⟩ n (.ofBytes data fault) ⟨rest, bulk⟩ where
  calm := h
  count_eq := rfl
  count_le := hle
  goes hnone := by
    obtain rfl : fault = none := hnone
    exact ⟨rfl, rfl⟩
  stops e he := by
    obtain rfl : fault = some e := he
    exact ⟨rfl, rfl⟩
  lull_lt hnone _ hdata := by
    obtain rfl : fault = none := hnone
    obtain rfl : data = [] := hdata
    exact Nat.lt_succ_self _

/-- Of a piece that does not fit the first bytes are handed out. -/
theorem serves_front {data : Bytes} {fault : Option Error} {rest : List SourceItem}
    {bulk : List (Bytes × Option Error)} (h : isCalm (.piece data fault :: rest) = true) {n : Nat}
    (hlong : n < data.length) :
    Serves ⟨.piece data fault :: rest, bulk⟩ n (.ofBytes (data.take n) none)
      ⟨.piece (data.drop n) fault :: rest, bulk⟩ := by
  obtain ⟨-, hown, -, hrest⟩ := isCalm_cons.mp h
  have hdrop : data.drop n ≠ [] := List.ne_nil_of_length_pos (by rw [List.length_drop]; omega)
  have hlull : lull (.piece (data.drop n) fault :: rest) = 0 := by
    cases hd : data.drop n with
    | nil => exact absurd hd hdrop
    | cons b bs => rfl
  refine
    { calm := isCalm_cons.mpr ⟨rfl, hown, ?_, hrest⟩
      count_eq := rfl
      count_le := List.length_take_le ..
      goes := fun _ => ?_
      stops := by rintro e ⟨⟩
      lull_lt := fun _ hn hdata => ?_ }
  · rw [hlull]
    decide
  · cases fault with
    | none =>
      refine ⟨?_, rfl⟩
      show data ++ upToError rest = data.take n ++ (data.drop n ++ upToError rest)
      rw [← List.append_assoc, List.take_append_drop]
    | some e => exact ⟨(List.take_append_drop n data).symm, rfl⟩
  · rcases List.take_eq_nil_iff.mp hdata with h0 | hnil
    · omega
    · rw [hnil] at hlong
      cases hlong

/-- An idle item hands out nothing, once less than before. -/
theorem serves_idle {times : Nat} {rest : List SourceItem} {bulk : List (Bytes × Option Error)}
    (h : isCalm (.idle times :: rest) = true) (n : Nat) :
    Serves ⟨.idle times :: rest, bulk⟩ n (.ofBytes [] none)
      ⟨idleAgain .idle times rest, bulk⟩ := by
  obtain ⟨-, -, hlull, hrest⟩ := isCalm_cons.mp h
  unfold idleAgain
  split
  · rename_i hle
    exact
      { calm := hrest
        count_eq := rfl
        count_le := Nat.zero_le _
        goes := fun _ => ⟨rfl, rfl⟩
        stops := by rintro e ⟨⟩
        lull_lt := fun _ _ _ => by
          show lull rest < max times 1 + lull rest
          omega }
  · rename_i hlong
    exact
      { calm := isCalm_cons.mpr ⟨rfl, rfl, by rw [lull] at hlull ⊢; omega, hrest⟩
        count_eq := rfl
        count_le := Nat.zero_le _
        goes := fun _ => ⟨rfl, rfl⟩
        stops := by rintro e ⟨⟩
        lull_lt := fun _ _ _ => by
          show max (times - 1) 1 + lull rest < max times 1 + lull rest
          omega }

theorem serves {s : Source} (h : isCalm s.items = true) (n : Nat) :
    Serves s n (s.read n).1 (s.read n).2 := by
  obtain ⟨items, bulk⟩ := s
  cases items with
  | nil =>
    exact
      { calm := rfl
        count_eq := rfl
        count_le := Nat.zero_le _
        goes := by rintro ⟨⟩
        stops := fun e he => ⟨rfl, Option.some.inj he⟩
        lull_lt := by rintro ⟨⟩ }
  | cons item rest =>
    cases item with
    | piece data fault =>
      unfold Source.read
      dsimp only
      split
      · rename_i hle
        exact serves_whole (isCalm_cons.mp h).2.2.2 hle
      · rename_i hlong
        exact serves_front h (Nat.lt_of_not_le hlong)
    | idle times => exact serves_idle h n
    | claim excess => cases (isCalm_cons.mp h).1

/-- One bulk transfer, as the script has it. -/
def writeTo {κ : Type} [ByteSink κ] (t : Calm) (k : κ) : Act (Option Receipt × Calm × κ) := do
  match t.source.bulk with
  | [] => return (none, t, k)
  | (data, fault) :: rest =>
    let (receipt, k) ← ByteSink.write k data
    return (some ⟨receipt.count, receipt.fault <|> fault⟩,
      ⟨{ t.source with bulk := rest }, t.calm⟩, k)

instance : BulkSource Calm where
  read t room :=
    return ((t.source.read room.size).1,
      ⟨(t.source.read room.size).2, (serves t.calm room.size).calm⟩)
  writeTo t k := t.writeTo k

instance {H : Halt → Prop} : HonestBulkSource H Calm where
  writeTo_keeps I hwrite t k sh hk := by
    show Act.Meets H (t.writeTo k) sh _
    unfold writeTo
    split
    · exact hk
    · refine Act.meets_bind.mpr ((hwrite k _ sh hk).imp ?_)
      rintro ⟨receipt, k'⟩ sh' ⟨-, hk'⟩
      exact hk'

theorem serves_of_reads {t t' : Calm} {n : Nat} {g : Reading} (h : ByteSource.Reads t n g t') :
    Serves t.source n g t'.source := by
  obtain ⟨room, sh, sh', rfl, hread⟩ := h
  cases hread
  exact serves t.calm room.size

instance : ErringSource Calm where
  read_honest t room _ :=
    ⟨(serves t.calm room.size).count_eq, (serves t.calm room.size).count_le⟩
  ahead t := upToError t.source.items
  stop t := nextError t.source.items
  pauses t := lull t.source.items
  stop_ne_full t := nextError_ne_full t.calm
  pauses_lt t := lull_lt t.calm
  goes_of_reads h hnone := (serves_of_reads h).goes hnone
  stops_of_reads h he := (serves_of_reads h).stops _ he
  pauses_of_reads h hnone hn hdata := (serves_of_reads h).lull_lt hnone hn hdata

end Calm

end BufferedStream.Script
