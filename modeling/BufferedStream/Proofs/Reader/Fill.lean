import BufferedStream.Proofs.Source
import BufferedStream.Reader.Basic

/-!
# How a reader fills its buffer

A reader that needs bytes slides the unread ones to the start of its block and
offers the room behind them to its source, again and again until something
comes.  This file says what that does to the reader, for an honest source.

* `Reader.WF` — the window lies within the buffer, and without a block it is
  empty.
* `Reader.Settles` — handing the block back forgets what was read, and nothing
  else.
* `FillCalls` — the calls that one filling makes: any number of idle ones, then
  one that brings a byte or an error, unless a hundred were idle in a row.
* `Reader.fill_meets` — one filling puts what came behind the unread bytes and
  latches what was reported.
-/

namespace BufferedStream

namespace Reader

variable {σ : Type}

/-! ## Well-formed readers -/

/-- The window lies within the buffer; without a block it is empty. -/
structure WF (r : Reader σ) : Prop where
  size_ge : minReadBufferSize ≤ r.size
  fits : r.window.past.length + r.window.unread.length ≤ r.size
  past_of_held : r.held = none → r.window.past = []
  unread_of_held : r.held = none → r.window.unread = []

theorem WF.size_pos {r : Reader σ} (h : r.WF) : 0 < r.size :=
  Nat.lt_of_lt_of_le (by decide) h.size_ge

theorem WF.buffered_le {r : Reader σ} (h : r.WF) : r.buffered ≤ r.size := by
  have := h.fits
  unfold buffered
  omega

theorem wf_withCapacity (s : σ) (size : Nat) (pool : PoolId) : (withCapacity s size pool).WF where
  size_ge := Nat.le_max_right ..
  fits := Nat.zero_le _
  past_of_held _ := rfl
  unread_of_held _ := rfl

/-! ## Taking a block and handing it back -/

variable {H : Halt → Prop} {sh : Shared}

/-- The reader with a block: what was unread stays, and what lies behind it is
whatever the block held. -/
def withBlock (r : Reader σ) (length : Nat) (spare : Bytes) : Reader σ :=
  { r with held := some length, window := { r.window with spare } }

theorem acquire_meets (r : Reader σ) :
    Act.Meets H r.acquire sh fun r' _ => ∃ length spare, r' = r.withBlock length spare := by
  unfold acquire
  split
  · rename_i length h
    exact ⟨length, r.window.spare, by rw [withBlock, ← h]⟩
  · simp only [Act.meets_bind, Act.meets_acquire, Act.meets_pure]
    exact ⟨_, _, rfl⟩

/-- The reader after its block went back. -/
def withoutBlock (r : Reader σ) : Reader σ := { r with held := none, window := {} }

/-- Handing the block back happens at the end of the stream with nothing unread,
and loses only what could still be pushed back. -/
inductive Settles (r : Reader σ) : Reader σ → Prop
  | keeps : Settles r r
  | returns (hunread : r.window.unread = []) (hfault : r.fault = some .eof) :
      Settles r r.withoutBlock

theorem eq_eof_of_isEof {o : Option Error} (h : o.any Error.isEof = true) : o = some .eof := by
  cases o with
  | none => simp at h
  | some e => cases e <;> simp [Error.isEof] at h ⊢

theorem settle_meets (r : Reader σ) : Act.Meets H r.settle sh fun r' _ => r.Settles r' := by
  unfold settle
  split
  · rename_i h
    simp only [Bool.and_eq_true, decide_eq_true_eq] at h
    have hfault := eq_eof_of_isEof h.2
    split
    · exact .keeps
    · simp only [Act.meets_bind, Act.meets_bufferSize]
      split
      · simp only [Act.meets_bind, Act.meets_release]
        split
        · exact .returns h.1 hfault
        · exact .keeps
      · exact .keeps
  · exact .keeps

/-! ## The calls of one filling -/

theorem maxEmptyReads_pos : 0 < maxEmptyReads := Nat.zero_lt_succ 99

/-- The errors that arise in a row of calls made by one operation: those that the
source reports, and one of the reader's own whenever a hundred calls in a row
brought nothing although there was room.  `idle` such calls came before. -/
def arisenAfter (idle : Nat) : List Draw → List Error
  | [] => []
  | d :: ds =>
    match d.reading.fault with
    | some e => e :: arisenAfter 0 ds
    | none =>
      if 0 < d.reading.count ∨ d.offered = 0 then arisenAfter 0 ds
      else if idle + 1 = maxEmptyReads then .noProgress :: arisenAfter 0 ds
      else arisenAfter (idle + 1) ds

/-- The errors that arise in the calls of one operation. -/
abbrev arisen (ds : List Draw) : List Error := arisenAfter 0 ds

@[simp] theorem arisenAfter_nil (idle : Nat) : arisenAfter idle [] = [] := rfl

theorem arisenAfter_brought {d : Draw} (idle : Nat) (ds : List Draw)
    (h : d.reading.fault.isSome = true ∨ 0 < d.reading.count ∨ d.offered = 0) :
    arisenAfter idle (d :: ds) = d.reading.fault.toList ++ arisen ds := by
  rw [arisenAfter]
  cases hf : d.reading.fault with
  | some e => rfl
  | none =>
    rw [hf] at h
    exact if_pos (h.resolve_left (by simp))

theorem arisenAfter_idle {room : Nat} (idle : Nat) (ds : List Draw) (h : 0 < room) :
    arisenAfter idle (.idle room :: ds) =
      if idle + 1 = maxEmptyReads then .noProgress :: arisen ds
      else arisenAfter (idle + 1) ds := by
  rw [arisenAfter]
  exact if_neg (by simp [Draw.idle, Reading.ofBytes]; omega)

/-- What has arisen is not changed by later calls. -/
theorem arisenAfter_prefix (idle : Nat) (ds es : List Draw) :
    ∃ idle', arisenAfter idle (ds ++ es) = arisenAfter idle ds ++ arisenAfter idle' es := by
  induction ds generalizing idle with
  | nil => exact ⟨idle, rfl⟩
  | cons d ds ih =>
    rw [List.cons_append, arisenAfter, arisenAfter]
    split
    · exact (ih 0).imp fun _ h => by rw [h]; rfl
    · split
      · exact ih 0
      · split
        · exact (ih 0).imp fun _ h => by rw [h]; rfl
        · exact ih (idle + 1)

/-- The calls of one filling that may make so many: idle ones, then one that
brings a byte or an error; after the last idle one the reader gives up.  Without
room one call is enough. -/
inductive FillCalls (room : Nat) : (rounds : Nat) → List Draw → Option Error → Prop
  | brought {rounds : Nat} {g : Reading}
      (h : g.fault.isSome = true ∨ 0 < g.count ∨ room = 0)
      (hcount : g.count = g.data.length) (hle : g.count ≤ room) :
      FillCalls room (rounds + 1) [⟨room, g⟩] g.fault
  | stalled (h : 0 < room) : FillCalls room 1 [.idle room] (some .noProgress)
  | again {rounds : Nat} {ds : List Draw} {fault : Option Error} (h : 0 < room)
      (hrest : FillCalls room (rounds + 1) ds fault) :
      FillCalls room (rounds + 2) (.idle room :: ds) fault

namespace FillCalls

variable {room rounds : Nat} {ds : List Draw} {fault : Option Error}

theorem ne_nil (h : FillCalls room rounds ds fault) : ds ≠ [] := by cases h <;> simp

theorem offered_eq (h : FillCalls room rounds ds fault) : ∀ d ∈ ds, d.offered = room := by
  induction h with
  | brought => simp
  | stalled => simp [Draw.idle]
  | again _ _ ih => exact List.forall_mem_cons.mpr ⟨rfl, ih⟩

theorem length_drawn_le (h : FillCalls room rounds ds fault) : (drawn ds).length ≤ room := by
  induction h with
  | brought _ hcount hle => simpa [← hcount] using hle
  | stalled => simp
  | again _ _ ih => simpa using ih

/-- With room to fill, a filling brings a byte or an error. -/
theorem progress (h : FillCalls room rounds ds fault) (hroom : 0 < room) :
    fault.isSome = true ∨ 0 < (drawn ds).length := by
  induction h with
  | brought h hcount =>
    rcases h with h | h | h
    · exact .inl h
    · exact .inr (by simpa [← hcount] using h)
    · omega
  | stalled => exact .inl rfl
  | again _ _ ih => simpa using ih

/-- **A filling raises at most one error**, and counts its idle calls afresh. -/
theorem arisenAfter_append (h : FillCalls room rounds ds fault) (hle : rounds ≤ maxEmptyReads)
    (es : List Draw) :
    arisenAfter (maxEmptyReads - rounds) (ds ++ es) = fault.toList ++ arisen es := by
  induction h with
  | brought h => exact arisenAfter_brought _ es h
  | stalled h =>
    rw [List.singleton_append, arisenAfter_idle _ es h, if_pos (by omega)]
    rfl
  | again h _ ih =>
    rw [List.cons_append, arisenAfter_idle _ _ h, if_neg (by omega), ← ih (by omega)]
    congr 1
    omega

/-- From a fresh start just the error arises that is latched. -/
theorem arisen_eq (h : FillCalls room maxEmptyReads ds fault) : arisen ds = fault.toList := by
  have harisen := h.arisenAfter_append (Nat.le_refl _) []
  rwa [List.append_nil, Nat.sub_self, arisen, arisenAfter_nil, List.append_nil] at harisen

/-- No error arises before the last call of a filling. -/
theorem arisenAfter_dropLast (h : FillCalls room rounds ds fault) (hle : rounds ≤ maxEmptyReads) :
    arisenAfter (maxEmptyReads - rounds) ds.dropLast = [] := by
  induction h with
  | brought => rfl
  | stalled => rfl
  | @again rounds ds fault h hrest ih =>
    rw [List.dropLast_cons_of_ne_nil hrest.ne_nil, arisenAfter_idle _ _ h, if_neg (by omega),
      ← ih (by omega)]
    congr 1
    omega

end FillCalls

/-! ## One filling -/

theorem latch_eq (fault : Option Error) (r : Reader σ) :
    r.latch fault = { r with fault := fault.or r.fault } := by
  cases fault <;> rfl

/-- The reader after calls that handed out what `ds` tells and raised `fault`. -/
def taking (r : Reader σ) (source : σ) (ds : List Draw) (fault : Option Error) (spare : Bytes)
    (length : Nat) : Reader σ :=
  { r with
    source
    window := { unread := r.window.unread ++ drawn ds, spare }
    held := some length
    fault := fault.or r.fault }

theorem wf_taking {r : Reader σ} {s : σ} {ds : List Draw} {fault : Option Error} {spare : Bytes}
    {length : Nat} (h : r.WF) (hle : (drawn ds).length ≤ r.size - r.buffered) :
    (r.taking s ds fault spare length).WF where
  size_ge := h.size_ge
  fits := by
    have := h.buffered_le
    simp only [taking, buffered, List.length_nil, List.length_append] at this hle ⊢
    omega
  past_of_held _ := rfl
  unread_of_held h := by cases h

/-- What a call that brings something, or is the last one needed, leaves behind. -/
theorem latch_receive (r : Reader σ) (source : σ) (g : Reading) {length : Nat}
    (hpast : r.window.past = []) (hheld : r.held = some length)
    (hcount : g.count = g.data.length) (room : Nat) :
    Reader.latch g.fault { r with source, window := r.window.receive g.toGrant } =
      r.taking source [⟨room, g⟩] g.fault ((g.fillIn r.window.spare).drop g.count) length := by
  rw [latch_eq, taking, Window.receive, Grant.bytesIn_eq_data hcount, hpast, hheld]
  simp

theorem receive_idle (w : Window) (n : Nat) : w.receive (Draw.idle n).reading.toGrant = w := by
  simp [Window.receive, Draw.idle, Reading.ofBytes, Grant.bytesIn, Grant.fillIn, Bytes.overlay,
    Bytes.zeroPadded]

section Fill

variable [ByteSource σ]

theorem draw_meets [HonestSource H σ] (room : Room) (r : Reader σ) :
    Act.Meets H (r.draw room) sh fun (g, r') _ => ∃ s',
      ByteSource.Reads r.source room.size g s' ∧ g.count = g.data.length ∧
        g.count ≤ room.size ∧ r' = { r with source := s' } := by
  refine Act.meets_bind.mpr ((meets_read r.source room sh).imp ?_)
  rintro ⟨g, s'⟩ sh' ⟨hreads, hcount, hle⟩
  refine Act.meets_bind.mpr ((Act.meets_require (decide_eq_true hle)).mpr ?_)
  exact ⟨s', hreads, hcount, hle, rfl⟩

/-- One filling: what came was put behind the unread bytes, which now stand at
the start of the block. -/
def Filled (r : Reader σ) (ds : List Draw) (r' : Reader σ) : Prop :=
  ∃ source fault spare length, Calls r.source ds source ∧
    FillCalls (r.size - r.buffered) maxEmptyReads ds fault ∧
    r' = r.taking source ds fault spare length

/-- One round of a filling ends it, unless the call was idle although there was
room; then only the source has changed. -/
theorem fillRounds_succ_meets [HonestSource H σ] {rounds length : Nat} {r : Reader σ}
    (hpast : r.window.past = []) (hheld : r.held = some length)
    {post : Reader σ → Shared → Prop}
    (hends : ∀ s g spare sh', ByteSource.Reads r.source (r.size - r.buffered) g s →
      FillCalls (r.size - r.buffered) (rounds + 1) [⟨r.size - r.buffered, g⟩] g.fault →
      post (r.taking s [⟨r.size - r.buffered, g⟩] g.fault spare length) sh')
    (hidle : ∀ s sh', 0 < r.size - r.buffered →
      Calls r.source [.idle (r.size - r.buffered)] s →
      Act.Meets H (fillRounds rounds { r with source := s }) sh' post) :
    Act.Meets H (fillRounds (rounds + 1) r) sh post := by
  rw [fillRounds]
  refine Act.meets_bind.mpr ((draw_meets _ r).imp ?_)
  rintro ⟨g, r₁⟩ sh₁ ⟨s₁, hreads, hcount, hle, rfl⟩
  dsimp only at hreads hcount hle ⊢
  split
  · rename_i h
    simp only [Bool.or_eq_true, decide_eq_true_eq, or_assoc] at h
    rw [Act.meets_pure, latch_receive r s₁ g hpast hheld hcount (r.size - r.buffered)]
    exact hends s₁ g _ sh₁ hreads (.brought h hcount hle)
  · rename_i h
    simp only [Bool.or_eq_true, decide_eq_true_eq, not_or] at h
    have heq := eq_idle (n := r.size - r.buffered) hcount h.1.2 h.1.1
    have hg : g = (Draw.idle (r.size - r.buffered)).reading := congrArg Draw.reading heq
    rw [hg, receive_idle]
    refine hidle s₁ sh₁ (by omega) ?_
    rw [← heq]
    exact .single hreads

/-- By induction on the rounds: the reader that an idle call leaves fills on. -/
theorem fillRounds_meets [HonestSource H σ] (rounds : Nat) (r : Reader σ) (length : Nat)
    (hpast : r.window.past = []) (hheld : r.held = some length) :
    Act.Meets H (fillRounds (rounds + 1) r) sh fun r' _ => ∃ ds source fault spare,
      Calls r.source ds source ∧ FillCalls (r.size - r.buffered) (rounds + 1) ds fault ∧
        r' = r.taking source ds fault spare length := by
  induction rounds generalizing r sh with
  | zero =>
    refine fillRounds_succ_meets hpast hheld
      (fun s g spare sh' hreads hmade => ⟨_, s, _, spare, .single hreads, hmade, rfl⟩) ?_
    intro s sh' hroom hcalls
    rw [fillRounds, Act.meets_pure, latch_eq]
    refine ⟨_, s, some .noProgress, r.window.spare, hcalls, .stalled hroom, ?_⟩
    obtain ⟨source, size, pool, ⟨past, unread, spare⟩, held, fault, lastByte, lastRune⟩ := r
    dsimp only at hpast hheld
    subst hpast hheld
    simp [taking]
  | succ rounds ih =>
    refine fillRounds_succ_meets hpast hheld
      (fun s g spare sh' hreads hmade => ⟨_, s, _, spare, .single hreads, hmade, rfl⟩) ?_
    intro s sh' hroom hcalls
    refine (ih { r with source := s } hpast hheld).imp ?_
    rintro r' sh'' ⟨ds, s', fault, spare, hcalls', hmade, rfl⟩
    exact ⟨_, s', fault, spare, hcalls.append hcalls', .again hroom hmade, rfl⟩

/-- **What filling does**, for an honest source. -/
theorem fill_meets [HonestSource H σ] (r : Reader σ) :
    Act.Meets H r.fill sh fun r' _ => ∃ ds, r.Filled ds r' := by
  refine Act.meets_bind.mpr ((acquire_meets r).imp ?_)
  rintro r₁ sh₁ ⟨length, spare, rfl⟩
  refine (fillRounds_meets 99 _ length rfl rfl).imp ?_
  rintro r' sh' ⟨ds, s', fault, spare', hcalls, hmade, rfl⟩
  exact ⟨ds, s', fault, spare', length, hcalls, hmade, rfl⟩

end Fill

end Reader

end BufferedStream
