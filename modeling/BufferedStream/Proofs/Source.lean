import BufferedStream.Proofs.Act
import BufferedStream.Stream.Memory

/-!
# Honest sources and what they hand out

A source is *honest* when it reports no more than the room it was offered, and
just the bytes that it put there (`HonestSource`).  Nothing else is asked of it:
it may hand out nothing, report an error with bytes or without, and go on after
an error.

* `ByteSource.Reads`, `Calls` — one call on a source and a row of them, with
  the answers (`Draw`) that came back.
* `drawn` — the bytes that a row of calls handed out.
* `History` — a source whose state tells every call made on it so far and every
  byte it has handed out.
* `Traced` — any source, with its history kept beside it.
-/

namespace BufferedStream

/-! ## Calls on a source -/

/-- One call on a source: the room offered to it, and what came of it. -/
structure Draw where
  offered : Nat
  reading : Reading

/-- A call that brought nothing and reported no error. -/
def Draw.idle (offered : Nat) : Draw := ⟨offered, .ofBytes [] none⟩

/-- The bytes that a row of calls handed out. -/
def drawn (ds : List Draw) : Bytes := ds.flatMap fun d => d.reading.data

@[simp] theorem drawn_nil : drawn [] = [] := rfl

@[simp] theorem drawn_cons (d : Draw) (ds : List Draw) :
    drawn (d :: ds) = d.reading.data ++ drawn ds := rfl

@[simp] theorem drawn_append (ds es : List Draw) : drawn (ds ++ es) = drawn ds ++ drawn es :=
  List.flatMap_append

@[simp] theorem data_idle (n : Nat) : (Draw.idle n).reading.data = [] := rfl

variable {σ : Type} [ByteSource σ]

/-- With room for `n` bytes the source `s` may answer `g` and become `s'`. -/
def ByteSource.Reads (s : σ) (n : Nat) (g : Reading) (s' : σ) : Prop :=
  ∃ room sh sh', room.size = n ∧ ByteSource.read s room sh = .ok (g, s') sh'

/-- The source `s` may answer a row of calls with `ds` and end up as `s'`. -/
inductive Calls : σ → List Draw → σ → Prop
  | nil (s : σ) : Calls s [] s
  | cons {s s₁ s₂ : σ} {n : Nat} {g : Reading} {ds : List Draw} :
      ByteSource.Reads s n g s₁ → Calls s₁ ds s₂ → Calls s (⟨n, g⟩ :: ds) s₂

theorem Calls.single {s s' : σ} {n : Nat} {g : Reading} (h : ByteSource.Reads s n g s') :
    Calls s [⟨n, g⟩] s' :=
  .cons h (.nil s')

theorem Calls.nil_eq {s s' : σ} (h : Calls s [] s') : s' = s := by
  cases h
  rfl

theorem Calls.reads {s s' : σ} {d : Draw} (h : Calls s [d] s') :
    ByteSource.Reads s d.offered d.reading s' := by
  cases h with
  | cons hreads hrest => rwa [hrest.nil_eq]

theorem Calls.append {s t u : σ} {ds es : List Draw} (h : Calls s ds t) (h' : Calls t es u) :
    Calls s (ds ++ es) u := by
  induction h with
  | nil s => exact h'
  | cons hr _ ih => exact .cons hr (ih h')

/-- A row of calls may be parted anywhere. -/
theorem Calls.split {s u : σ} {ds es : List Draw} (h : Calls s (ds ++ es) u) :
    ∃ t, Calls s ds t ∧ Calls t es u := by
  induction ds generalizing s with
  | nil => exact ⟨s, .nil s, h⟩
  | cons d ds ih =>
    cases h with
    | cons hreads hrest =>
      obtain ⟨t, hds, hes⟩ := ih hrest
      exact ⟨t, .cons hreads hds, hes⟩

/-- The errors of the source are its own: it never reports a full buffer. -/
def NeverFull (s : σ) : Prop :=
  ∀ ds s', Calls s ds s' → ∀ d ∈ ds, d.reading.fault ≠ some .bufferFull

/-! ## Honesty -/

/-- A source that reports just the bytes it put into the room, and no more than
there was room for. -/
class HonestSource (H : Halt → Prop) (σ : Type) [ByteSource σ] : Prop where
  read_honest (s : σ) (room : Room) (sh : Shared) :
    Act.Meets H (ByteSource.read s room) sh fun (g, _) _ =>
      g.count = g.data.length ∧ g.count ≤ room.size

variable {H : Halt → Prop}

/-- What an honest source answers, with the call that was made. -/
theorem meets_read [HonestSource H σ] (s : σ) (room : Room) (sh : Shared) :
    Act.Meets H (ByteSource.read s room) sh fun (g, s') _ =>
      ByteSource.Reads s room.size g s' ∧ g.count = g.data.length ∧ g.count ≤ room.size := by
  have h := HonestSource.read_honest (H := H) s room sh
  unfold Act.Meets at h ⊢
  cases hm : ByteSource.read s room sh with
  | ok a sh' =>
    rw [hm] at h
    exact ⟨⟨room, sh, sh', rfl, hm⟩, h⟩
  | error e sh' => rwa [hm] at h

/-- What an honest source answered. -/
theorem HonestSource.of_reads [HonestSource H σ] {s s' : σ} {n : Nat} {g : Reading}
    (h : ByteSource.Reads s n g s') : g.count = g.data.length ∧ g.count ≤ n := by
  obtain ⟨room, sh, sh', rfl, h⟩ := h
  exact (HonestSource.read_honest (H := H) s room sh).of_ok h

/-- An honest source is honest if more halts are admitted. -/
theorem HonestSource.mono {H' : Halt → Prop} [HonestSource H σ] (hH : ∀ e, H e → H' e) :
    HonestSource H' σ where
  read_honest s room sh :=
    (HonestSource.read_honest (H := H) s room sh).mono hH fun _ _ h => h

/-- A source that is never halted is honest, whatever halts are admitted. -/
theorem HonestSource.of_returns [HonestSource (fun _ => False) σ] : HonestSource H σ :=
  .mono (H := fun _ => False) fun _ he => he.elim

/-- An answer without bytes and without an error is an idle one. -/
theorem eq_idle {g : Reading} {n : Nat} (hcount : g.count = g.data.length) (h0 : ¬ 0 < g.count)
    (hf : ¬ g.fault.isSome = true) : (⟨n, g⟩ : Draw) = .idle n := by
  obtain ⟨⟨data, count⟩, fault⟩ := g
  have hdata : data = [] := List.eq_nil_of_length_eq_zero (by simp at hcount h0; omega)
  have hfault : fault = none := by simpa using hf
  subst hdata hfault
  simp only [List.length_nil] at hcount
  subst hcount
  rfl

/-! ## Histories -/

/-- A source whose state tells its past. -/
class History (σ : Type) [ByteSource σ] where
  /-- Every call made on the source so far. -/
  draws : σ → List Draw
  /-- Every byte that the source has handed out so far. -/
  given : σ → Bytes
  draws_of_reads {s s' : σ} {n : Nat} {g : Reading} :
    ByteSource.Reads s n g s' → draws s' = draws s ++ [⟨n, g⟩]
  given_of_reads {s s' : σ} {n : Nat} {g : Reading} :
    ByteSource.Reads s n g s' → given s' = given s ++ g.data

open History (draws given)

theorem draws_of_calls [History σ] {s s' : σ} {ds : List Draw} (h : Calls s ds s') :
    draws s' = draws s ++ ds := by
  induction h with
  | nil s => simp
  | cons hr _ ih => rw [ih, History.draws_of_reads hr, List.append_assoc]; rfl

theorem given_of_calls [History σ] {s s' : σ} {ds : List Draw} (h : Calls s ds s') :
    given s' = given s ++ drawn ds := by
  induction h with
  | nil s => simp
  | cons hr _ ih => rw [ih, History.given_of_reads hr, List.append_assoc, drawn_cons]

/-- A source with its history beside it. -/
structure Traced (σ : Type) where
  source : σ
  draws : List Draw := []
  given : Bytes := []

namespace Traced

/-- A source that has done nothing yet. -/
def start (s : σ) : Traced σ := { source := s }

instance : ByteSource (Traced σ) where
  read t room := do
    let (g, source) ← ByteSource.read t.source room
    return (g, ⟨source, t.draws ++ [⟨room.size, g⟩], t.given ++ g.data⟩)

instance [HonestSource H σ] : HonestSource H (Traced σ) where
  read_honest t room sh := by
    refine Act.meets_bind.mpr ((HonestSource.read_honest t.source room sh).imp ?_)
    intro a sh' ha
    exact ha

/-- A read of a traced source is a read of the source, noted. -/
theorem eq_of_reads {t t' : Traced σ} {n : Nat} {g : Reading}
    (h : ByteSource.Reads t n g t') :
    ∃ s', ByteSource.Reads t.source n g s' ∧
      t' = ⟨s', t.draws ++ [⟨n, g⟩], t.given ++ g.data⟩ := by
  obtain ⟨room, sh, sh', rfl, h⟩ := h
  have hm : Act.Meets (fun _ => True) (ByteSource.read t room) sh fun (g, t') _ =>
      ∃ s', ByteSource.Reads t.source room.size g s' ∧
        t' = ⟨s', t.draws ++ [⟨room.size, g⟩], t.given ++ g.data⟩ := by
    refine Act.meets_bind.mpr ?_
    unfold Act.Meets
    cases hs : ByteSource.read t.source room sh with
    | ok a sh₁ => exact ⟨a.2, ⟨room, sh, sh₁, rfl, hs⟩, rfl⟩
    | error e sh₁ => trivial
  exact hm.of_ok h

/-- Calls on a traced source are calls on the source. -/
theorem calls_source {t t' : Traced σ} {ds : List Draw}
    (h : Calls t ds t') : Calls t.source ds t'.source := by
  induction h with
  | nil t => exact .nil _
  | cons hreads _ ih =>
    obtain ⟨s', hs, rfl⟩ := eq_of_reads hreads
    exact .cons hs ih

theorem neverFull {s : σ} (h : NeverFull s) : NeverFull (start s) := fun ds t hcalls =>
  h ds t.source (calls_source hcalls)

instance : History (Traced σ) where
  draws := Traced.draws
  given := Traced.given
  draws_of_reads h := by obtain ⟨s', -, rfl⟩ := eq_of_reads h; rfl
  given_of_reads h := by obtain ⟨s', -, rfl⟩ := eq_of_reads h; rfl

end Traced

/-- A memory source is honest. -/
instance : HonestSource H MemorySource where
  read_honest m room sh := by
    show (m.read room.size).1.count = (m.read room.size).1.data.length ∧
      (m.read room.size).1.count ≤ room.size
    unfold MemorySource.read
    split
    · exact ⟨rfl, Nat.zero_le _⟩
    · exact ⟨rfl, List.length_take_le room.size m.left⟩

end BufferedStream
