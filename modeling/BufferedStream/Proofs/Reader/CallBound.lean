import BufferedStream.Proofs.Reader.Roomy

/-!
# How many calls an operation makes

An operation that does not collect a record stops filling when the buffer is full at the latest.
Among a hundred calls in a row one brings a byte, or an error arises, after which no call is made.
So there are at most a hundred calls for each byte that the buffer has room for, and a hundred
more.

* `Reader.length_lt_of_quiet` — the calls of a row in which no error arises.
* `Reader.loopsEnd` — the loops need no more rounds than they are granted.
* `Reader.perform_bounded` — the calls of every such operation, in every state.
-/

namespace BufferedStream

namespace Reader

variable {σ : Type} [ByteSource σ] {r r' : Reader σ} {ds : List Draw}

/-! ## Calls in which no error arises -/

/-- By induction on the calls: those in a row that bring nothing are fewer than a hundred. -/
theorem length_lt_of_quiet {idle : Nat} (hidle : idle < maxEmptyReads)
    (hroomy : ∀ d ∈ ds, 0 < d.offered)
    (hcount : ∀ d ∈ ds, d.reading.count = d.reading.data.length)
    (hquiet : arisenAfter idle ds = []) :
    ds.length + idle < maxEmptyReads * ((drawn ds).length + 1) := by
  unfold maxEmptyReads at hidle ⊢
  induction ds generalizing idle with
  | nil => simpa using hidle
  | cons d ds ih =>
    have hroom := hroomy d List.mem_cons_self
    have hbytes := hcount d List.mem_cons_self
    have hrest : ∀ idle', idle' < 100 → arisenAfter idle' ds = [] →
        ds.length + idle' < 100 * ((drawn ds).length + 1) := fun _ h h' =>
      ih h (fun d hd => hroomy d (List.mem_cons_of_mem _ hd))
        (fun d hd => hcount d (List.mem_cons_of_mem _ hd)) h'
    simp only [drawn_cons, List.length_cons, List.length_append]
    rw [arisenAfter] at hquiet
    cases hfault : d.reading.fault with
    | some e =>
      rw [hfault] at hquiet
      cases hquiet
    | none =>
      rw [hfault] at hquiet
      dsimp only at hquiet
      by_cases hbrought : 0 < d.reading.count ∨ d.offered = 0
      · rw [if_pos hbrought] at hquiet
        have hpos := hbrought.resolve_right (Nat.ne_of_gt hroom)
        have hlt := hrest _ (by omega) hquiet
        omega
      · rw [if_neg hbrought] at hquiet
        by_cases hlast : idle + 1 = maxEmptyReads
        · rw [if_pos hlast] at hquiet
          cases hquiet
        · rw [if_neg hlast] at hquiet
          unfold maxEmptyReads at hlast
          have hlt := hrest _ (by omega) hquiet
          omega

/-- An honest source counts the bytes that it hands out. -/
theorem count_eq_of_calls {H : Halt → Prop} [HonestSource H σ] {s s' : σ} (h : Calls s ds s') :
    ∀ d ∈ ds, d.reading.count = d.reading.data.length := by
  induction h with
  | nil => simp
  | cons hreads _ ih => exact List.forall_mem_cons.mpr ⟨(HonestSource.of_reads (H := H) hreads).1, ih⟩

/-- **What is pulled bounds the calls.**  No error arises before the last call, and what was
pulled fits into the buffer. -/
theorem Pulled.length_le {H : Halt → Prop} [HonestSource H σ] (hp : r.Pulled ds r')
    (hroomy : ∀ d ∈ ds, 0 < d.offered) :
    ds.length ≤ maxEmptyReads * (r.size - r.buffered + 1) := by
  by_cases hds : ds = []
  · subst hds
    exact Nat.zero_le _
  have hfront : ∀ d ∈ ds.dropLast, d ∈ ds := fun d hd => List.dropLast_subset ds hd
  have hcount := count_eq_of_calls (H := H) hp.calls
  have hlt := length_lt_of_quiet maxEmptyReads_pos (fun d hd => hroomy d (hfront d hd))
    (fun d hd => hcount d (hfront d hd)) hp.quiet
  have hparted : drawn ds = drawn ds.dropLast ++ drawn [ds.getLast hds] := by
    rw [← drawn_append, List.dropLast_concat_getLast]
  have hdrawn := congrArg List.length hparted
  rw [List.length_append] at hdrawn
  have hbuffered := hp.wf.buffered_le
  rw [buffered, hp.unread, List.length_append, hp.size] at hbuffered
  rw [List.length_dropLast] at hlt
  unfold maxEmptyReads at hlt ⊢
  unfold buffered
  omega

/-! ## The rounds of the loops -/

section Rounds

variable (H : Halt → Prop) [HonestSource H σ]

include H in
/-- By induction on the rounds: one more changes nothing once there are enough, since every
filling brings a byte or an error. -/
theorem fillWhile_succ {wanting : Bytes → Bool} {n : Nat}
    (hwanting : ∀ b, wanting b = true → b.length < n) (rounds : Nat) (r : Reader σ) (h : r.WF)
    (hn : n ≤ r.size) (hrounds : r.fault.isSome = true ∨ n ≤ r.buffered + rounds) :
    r.fillWhile wanting (rounds + 1) = r.fillWhile wanting rounds := by
  induction rounds generalizing r with
  | zero =>
    rw [fillWhile, fillWhile, if_neg]
    rw [Bool.and_eq_true, Option.isNone_iff_eq_none]
    rintro ⟨hw, hnone⟩
    have hlt := hwanting _ hw
    rw [hnone] at hrounds
    have hle := hrounds.resolve_left Bool.false_ne_true
    unfold buffered at hle
    omega
  | succ rounds ih =>
    rw [fillWhile, fillWhile]
    by_cases hgoes : (wanting r.window.unread && r.fault.isNone) = true
    · rw [if_pos hgoes, if_pos hgoes]
      rw [Bool.and_eq_true, Option.isNone_iff_eq_none] at hgoes
      -- What is wanted fits, so the filling has room, and the bytes and rounds together stay.
      have hroom : r.buffered < n := hwanting _ hgoes.1
      apply Act.bind_congr_of_meets
      intro sh
      refine (fill_meets (H := H) r).imp ?_
      rintro r₁ sh₁ ⟨ds, hf⟩
      have hsize : r₁.size = r.size := hf.size
      refine ih r₁ (hf.wf h) (by omega) ?_
      refine (hf.progress (by omega)).imp id fun hmore => ?_
      rw [hgoes.2] at hrounds
      have hle := hrounds.resolve_left Bool.false_ne_true
      omega
    · rw [if_neg hgoes, if_neg hgoes]

include H in
/-- The same of scans. -/
theorem scanRounds_succ (delim : UInt8) (rounds : Nat) (r : Reader σ) (h : r.WF)
    (hrounds : r.fault.isSome = true ∨ r.size < r.buffered + rounds) :
    r.scanRounds delim (rounds + 1) = r.scanRounds delim rounds := by
  induction rounds generalizing r with
  | zero =>
    have hle := h.buffered_le
    obtain ⟨e, he⟩ := Option.isSome_iff_exists.mp (hrounds.resolve_right (by omega))
    unfold scanRounds
    rw [he]
  | succ rounds ih =>
    cases hfault : r.fault with
    | some e =>
      unfold scanRounds
      rw [hfault]
    | none =>
      unfold scanRounds
      rw [hfault]
      dsimp only
      apply Act.bind_congr_of_meets
      intro sh
      refine (fill_meets (H := H) r).imp ?_
      rintro r₁ sh₁ ⟨ds, hf⟩
      split
      · rfl
      · split
        · rfl
        · rename_i hfull
          have hsize := hf.size
          refine ih r₁ (hf.wf h) ?_
          have hunread := congrArg List.length hf.unread
          rw [List.length_append] at hunread
          refine (hf.progress (by unfold buffered at *; omega)).imp id fun hmore => ?_
          rw [hfault] at hrounds
          have hle := hrounds.resolve_left Bool.false_ne_true
          omega

include H in
/-- However many rounds are granted, beyond those for the bytes that may be wanted. -/
theorem fillWhile_rounds {wanting : Bytes → Bool} {n : Nat}
    (hwanting : ∀ b, wanting b = true → b.length < n) (h : r.WF) (hn : n ≤ r.size)
    {rounds : Nat} (hrounds : n ≤ rounds) : r.fillWhile wanting rounds = r.fillWhile wanting n := by
  induction hrounds with
  | refl => rfl
  | step hle ih =>
    rw [← ih]
    exact fillWhile_succ H hwanting _ r h hn (.inr (Nat.le_trans hle (Nat.le_add_left ..)))

include H in
theorem scanRounds_rounds (delim : UInt8) (h : r.WF) {rounds : Nat} (hrounds : r.size < rounds) :
    r.scanRounds delim rounds = r.scanRounds delim (r.size + 1) := by
  induction hrounds with
  | refl => rfl
  | step hle ih =>
    rw [← ih]
    exact scanRounds_succ H delim _ r h (.inr (Nat.lt_of_lt_of_le hle (Nat.le_add_left ..)))

end Rounds

/-- The loops of a reader end by themselves: granted more rounds, those that fill for bytes, for a
rune or for a delimiter do the same. -/
structure LoopsEnd (r : Reader σ) : Prop where
  ensure {n rounds : Nat} : n ≤ r.size → n ≤ rounds →
    r.fillWhile (fun b => b.length < n) rounds = r.ensure n
  ensureRune {rounds : Nat} : Rune.maxWidth ≤ rounds →
    r.fillWhile (fun b => b.length < Rune.maxWidth && !Rune.isSettled b) rounds = r.ensureRune
  scanRounds {delim : UInt8} {rounds : Nat} : r.size < rounds →
    r.scanRounds delim rounds = r.scanRounds delim (r.size + 1)

/-- **The loops of every reader end by themselves.** -/
theorem loopsEnd (H : Halt → Prop) [HonestSource H σ] (h : r.WF) : r.LoopsEnd where
  ensure hn hrounds := fillWhile_rounds H (fun _ hb => of_decide_eq_true hb) h hn hrounds
  ensureRune hrounds := by
    apply fillWhile_rounds H _ h (Nat.le_trans (by decide) h.size_ge) hrounds
    intro b hb
    rw [Bool.and_eq_true] at hb
    exact of_decide_eq_true hb.1
  scanRounds hrounds := scanRounds_rounds H _ h hrounds

/-! ## Operations -/

/-- The calls `ds` were made to pull bytes into a buffer of the given size, or there was one at
most. -/
def PulledInto (size : Nat) (ds : List Draw) : Prop :=
  ds.length ≤ 1 ∨ ∃ r r' : Reader σ, r.size = size ∧ r.Pulled ds r'

theorem Pulled.pulledInto {size : Nat} (hp : r.Pulled ds r') (hsize : r.size = size) :
    PulledInto (σ := σ) size ds :=
  .inr ⟨r, r', hsize, hp⟩

theorem ReadsInto.length_le {room : Room} {g : Reading} (hr : r.ReadsInto room ds g r') :
    ds.length ≤ 1 := by
  cases hr with
  | nothing => exact Nat.zero_le 1
  | through => exact Nat.le_refl 1
  | delivered _ _ _ _ _ hone => exact hone
  | dry _ _ _ _ _ _ hone => exact hone

theorem Scans.pulledInto {delim : UInt8} {p : Passage} (hs : r.Scans delim ds p r') :
    PulledInto (σ := σ) r.size ds := by
  cases hs with
  | found hp => exact hp.pulledInto rfl
  | full hp => exact hp.pulledInto rfl
  | ended hp => exact hp.pulledInto rfl

/-- An operation pulls bytes into the buffer or makes one call, unless it collects a record. -/
theorem Performs.pulledInto {op : Op} {outcome : Outcome} (hp : r.Performs op ds outcome r')
    (hop : op.collects = false) : PulledInto (σ := σ) r.size ds := by
  have hnone : PulledInto (σ := σ) r.size [] := .inl (Nat.zero_le 1)
  cases hp with
  | peek hp =>
    cases hp with
    | tooLarge => exact hnone
    | seen hp => exact hp.pulledInto rfl
    | short hp => exact hp.pulledInto rfl
  | read hr => exact .inl hr.length_le
  | readByte hb =>
    cases hb with
    | got hp => exact hp.pulledInto rfl
    | failed hp => exact hp.pulledInto rfl
  | unreadByte => exact hnone
  | readRune hc =>
    cases hc with
    | got hp => exact hp.pulledInto rfl
    | failed hp => exact hp.pulledInto rfl
  | unreadRune => exact hnone
  | readSlice hs => exact hs.pulledInto
  | readLine hl =>
    cases hl with
    | piece hs => exact hs.pulledInto
    | line hs => exact hs.pulledInto
    | failed hs => exact hs.pulledInto
  | readBytes => cases hop
  | readString => cases hop
  | plainRead hg =>
    cases hg with
    | delivered hr => exact .inl hr.length_le
    | ended hr => exact .inl hr.length_le
    | failed _ hr => exact .inl hr.length_le
  | fillBuf hb =>
    cases hb with
    | shown hp => exact hp.pulledInto rfl
    | ended hp => exact hp.pulledInto rfl
    | failed _ hp => exact hp.pulledInto rfl
  | consume => exact hnone
  | adapt => exact hnone

/-- The calls that an operation may make on a buffer of the given size. -/
def callBound (size : Nat) : Nat := maxEmptyReads * (size + 1)

theorem one_le_callBound (size : Nat) : 1 ≤ callBound size := by
  unfold callBound maxEmptyReads
  omega

theorem PulledInto.length_le {H : Halt → Prop} [HonestSource H σ] {size : Nat}
    (h : PulledInto (σ := σ) size ds) (hroomy : ∀ d ∈ ds, 0 < d.offered) :
    ds.length ≤ callBound size := by
  rcases h with hone | ⟨r, r', rfl, hp⟩
  · exact Nat.le_trans hone (one_le_callBound size)
  · have hle := hp.length_le (H := H) hroomy
    unfold callBound
    unfold maxEmptyReads at hle ⊢
    omega

variable {H : Halt → Prop} {sh : Shared} [HonestSource H σ]

/-- A scan that starts on a crammed buffer makes one call, unless it collects a record. -/
theorem perform_crammed_single {op : Op} (h : r.WF) (hop : op.collects = false)
    (hc : op.StartsCrammed r) :
    Act.Meets H (perform op r) sh fun (_, r') _ => ∃ d, Calls r.source [d] r'.source := by
  obtain ⟨delim, hdelim, hc⟩ := hc
  cases op with
  | readSlice =>
    obtain rfl : _ = delim := Option.some.inj hdelim
    refine Act.meets_bind.mpr ((readSlice_crammed h hc).imp ?_)
    intro ⟨p, r'⟩ sh' ⟨_, hcall, _⟩
    exact hcall
  | readLine =>
    obtain rfl : newline = delim := Option.some.inj hdelim
    refine Act.meets_bind.mpr ((readLine_crammed h hc).imp ?_)
    intro ⟨l, r'⟩ sh' hcall
    exact hcall
  | readBytes => cases hop
  | readString => cases hop
  | _ => cases hdelim

/-- **The calls of an operation are bounded** by the size of the buffer, unless it collects a
record. -/
theorem perform_bounded {op : Op} (h : r.WF) (hop : op.collects = false) :
    Act.Meets H (perform op r) sh fun (_, r') _ => ∃ ds, Calls r.source ds r'.source ∧
      ds.length ≤ callBound r.size := by
  by_cases hc : op.StartsCrammed r
  · refine (perform_crammed_single h hop hc).imp ?_
    intro ⟨outcome, r'⟩ sh' ⟨d, hcall⟩
    exact ⟨[d], hcall, one_le_callBound r.size⟩
  · refine (perform_meets_of_collects op h fun hcollects => ?_).imp ?_
    · rw [hop] at hcollects
      cases hcollects
    · intro ⟨outcome, r'⟩ sh' ⟨ds, hp⟩
      exact ⟨ds, hp.calls, (hp.pulledInto hop).length_le (H := H) (hp.roomy h hc)⟩

end Reader

end BufferedStream
