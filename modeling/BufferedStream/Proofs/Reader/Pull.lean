import BufferedStream.Proofs.Reader.Fill

/-!
# What an operation pulls from the source

An operation fills the buffer as often as it needs to, or reads into the empty
buffer once; either way it makes a row of calls and ends with a longer piece of
the stream unread.  `Reader.Pulled` tells what holds of the reader afterwards,
however many calls were made.

* `Reader.Pulled.fill` — a filling in front of other fillings.
* `Reader.ensure_meets`, `Reader.ensureRune_meets` — the loops that fill until
  enough is unread: every round brings a byte or an error, so the rounds suffice.
* `Reader.readOnce_meets` — a single read into the empty buffer.
-/

namespace BufferedStream

namespace Reader

variable {σ : Type} [ByteSource σ]

/-- The reader `r'` is what `r` became by putting behind its unread bytes what
came of the calls `ds` on its source. -/
structure Extended (r : Reader σ) (ds : List Draw) (r' : Reader σ) : Prop where
  wf : r'.WF
  calls : Calls r.source ds r'.source
  unread : r'.window.unread = r.window.unread ++ drawn ds
  /-- Every call is preceded by a move to the start of the block. -/
  past : (ds = [] ∧ r'.window.past = r.window.past) ∨ r'.window.past = []
  size : r'.size = r.size
  pool : r'.pool = r.pool
  lastByte : r'.lastByte = r.lastByte
  lastRune : r'.lastRune = r.lastRune

/-- The reader `r'` is what `r` became by pulling bytes from its source in the
calls `ds`.  Calls are made only while no error is latched, so at most one error
arises, in the last of them. -/
structure Pulled (r : Reader σ) (ds : List Draw) (r' : Reader σ) : Prop
    extends Extended r ds r' where
  offered_pos : ∀ d ∈ ds, (0 < d.offered ↔ r.buffered < r.size)
  fault_of_calls : ds ≠ [] → r.fault = none
  quiet : arisen ds.dropLast = []
  latched : r'.fault.toList = r.fault.toList ++ arisen ds
  /-- Once something came, idle calls are counted afresh. -/
  rearmed : (ds ≠ [] → r'.fault.isSome = true ∨ r'.window.unread ≠ []) → ∀ es,
    arisen (ds ++ es) = arisen ds ++ arisen es

theorem Pulled.refl {r : Reader σ} (h : r.WF) : r.Pulled [] r where
  wf := h
  calls := .nil r.source
  offered_pos := by simp
  fault_of_calls h := absurd rfl h
  quiet := rfl
  latched := by simp
  rearmed _ _ := rfl
  unread := by simp
  past := .inl ⟨rfl, rfl⟩
  size := rfl
  pool := rfl
  lastByte := rfl
  lastRune := rfl

theorem Pulled.roomy {r r' : Reader σ} {ds : List Draw} (hp : r.Pulled ds r')
    (hroom : ds ≠ [] → r.buffered < r.size) : ∀ d ∈ ds, 0 < d.offered := fun d hd =>
  (hp.offered_pos d hd).mpr (hroom (List.ne_nil_of_mem hd))

/-- Without a call the latched error stays. -/
theorem Pulled.fault_eq {r r' : Reader σ} (hp : r.Pulled [] r') : r'.fault = r.fault := by
  have hlatched := hp.latched
  rw [arisen, arisenAfter_nil, List.append_nil] at hlatched
  cases hfault : r.fault with
  | none => rwa [hfault, Option.toList_none, Option.toList_eq_nil_iff] at hlatched
  | some e => rwa [hfault, Option.toList_some, Option.toList_eq_singleton_iff] at hlatched

/-- After a call what is latched has arisen in the calls. -/
theorem Pulled.arisen_eq {r r' : Reader σ} {ds : List Draw} (hp : r.Pulled ds r')
    (hds : ds ≠ []) : r'.fault.toList = arisen ds := by
  rw [hp.latched, hp.fault_of_calls hds]
  rfl

theorem Filled.size {r r' : Reader σ} {ds : List Draw} (hf : r.Filled ds r') : r'.size = r.size := by
  obtain ⟨s, fault, spare, length, -, -, rfl⟩ := hf
  rfl

theorem Filled.unread {r r' : Reader σ} {ds : List Draw} (hf : r.Filled ds r') :
    r'.window.unread = r.window.unread ++ drawn ds := by
  obtain ⟨s, fault, spare, length, -, -, rfl⟩ := hf
  rfl

theorem Filled.ne_nil {r r' : Reader σ} {ds : List Draw} (hf : r.Filled ds r') : ds ≠ [] := by
  obtain ⟨s, fault, spare, length, -, hmade, rfl⟩ := hf
  cases hmade <;> simp

theorem Filled.wf {r r' : Reader σ} {ds : List Draw} (h : r.WF) (hf : r.Filled ds r') : r'.WF := by
  obtain ⟨s, fault, spare, length, -, hmade, rfl⟩ := hf
  exact wf_taking h hmade.length_drawn_le

theorem Filled.extended {r r' : Reader σ} {ds : List Draw} (h : r.WF) (hf : r.Filled ds r') :
    r.Extended ds r' := by
  obtain ⟨s, fault, spare, length, hcalls, hmade, rfl⟩ := hf
  exact
    { wf := wf_taking h hmade.length_drawn_le
      calls := hcalls
      unread := rfl
      past := .inr rfl
      size := rfl
      pool := rfl
      lastByte := rfl
      lastRune := rfl }

/-- With room in the buffer, a filling leaves more unread or latches an error. -/
theorem Filled.progress {r r' : Reader σ} {ds : List Draw} (hf : r.Filled ds r')
    (hroom : r.buffered < r.size) : r'.fault.isSome = true ∨ r.buffered < r'.buffered := by
  obtain ⟨s, fault, spare, length, -, hmade, rfl⟩ := hf
  rcases hmade.progress (by omega) with h | h
  · left
    cases fault with
    | none => cases h
    | some e => rfl
  · right
    simpa [buffered, taking] using h

/-- **Fillings in a row.**  A filling made while no error was latched may be put
in front of others. -/
theorem Pulled.fill {r r₁ r₂ : Reader σ} {ds es : List Draw} (hfault : r.fault = none)
    (hf : r.Filled ds r₁) (hroom : es ≠ [] → r₁.buffered < r₁.size) (h : r₁.Pulled es r₂) :
    r.Pulled (ds ++ es) r₂ := by
  obtain ⟨s, fault, spare, length, hcalls, hmade, rfl⟩ := hf
  have hrounds : maxEmptyReads ≤ maxEmptyReads := Nat.le_refl _
  have happend := hmade.arisenAfter_append hrounds
  rw [Nat.sub_self] at happend
  have hlatch : (r.taking s ds fault spare length).fault = fault := by
    simp [taking, hfault]
  refine
    { wf := h.wf
      calls := hcalls.append h.calls
      unread := ?_
      past := .inr ?_
      size := h.size
      pool := h.pool
      lastByte := h.lastByte
      lastRune := h.lastRune
      offered_pos := ?_
      fault_of_calls := fun _ => hfault
      quiet := ?_
      latched := ?_
      rearmed := ?_ }
  · rw [h.unread, drawn_append, ← List.append_assoc]
    rfl
  · rcases h.past with ⟨-, hp⟩ | hp
    · rw [hp]
      rfl
    · exact hp
  · intro d hd
    rcases List.mem_append.mp hd with hd | hd
    · rw [hmade.offered_eq d hd]
      omega
    · have hes : es ≠ [] := List.ne_nil_of_mem hd
      have hroom := hroom hes
      have hle : r.buffered ≤ (r.taking s ds fault spare length).buffered := by
        simp [buffered, taking]
      have hsize : (r.taking s ds fault spare length).size = r.size := rfl
      rw [h.offered_pos d hd]
      omega
  · by_cases hes : es = []
    · subst hes
      simpa using hmade.arisenAfter_dropLast hrounds
    · have hnone := h.fault_of_calls hes
      rw [hlatch] at hnone
      rw [List.dropLast_append_of_ne_nil hes, arisen, happend, hnone, h.quiet]
      rfl
  · rw [h.latched, hlatch, hfault, ← happend es]
    rfl
  · intro hcame fs
    have hes : es ≠ [] → r₂.fault.isSome = true ∨ r₂.window.unread ≠ [] := fun hne =>
      hcame (List.append_ne_nil_of_right_ne_nil _ hne)
    rw [List.append_assoc]
    show arisenAfter 0 (ds ++ (es ++ fs)) = arisenAfter 0 (ds ++ es) ++ arisen fs
    rw [happend, happend, List.append_assoc]
    exact congrArg (fault.toList ++ ·) (h.rearmed hes fs)

theorem Filled.pulled {r r' : Reader σ} {ds : List Draw} (h : r.WF) (hfault : r.fault = none)
    (hf : r.Filled ds r') : r.Pulled ds r' := by
  have hp := Pulled.fill hfault hf (fun hne => absurd rfl hne) (.refl (hf.wf h))
  rwa [List.append_nil] at hp

/-! ## Filling until enough is unread -/

variable {H : Halt → Prop} {sh : Shared}

/-- By induction on the rounds: as long as something is wanted there is room, and
every filling brings one byte more, or an error. -/
theorem fillWhile_meets [HonestSource H σ] {wanting : Bytes → Bool} {n : Nat}
    (hwanting : ∀ b, wanting b = true → b.length < n) (rounds : Nat) (r : Reader σ) (h : r.WF)
    (hn : n ≤ r.size) (hrounds : r.fault.isSome = true ∨ n ≤ r.buffered + rounds) :
    Act.Meets H (r.fillWhile wanting rounds) sh fun r' _ => ∃ ds, r.Pulled ds r' ∧
      (ds ≠ [] → r.buffered < n) ∧
      (wanting r'.window.unread = false ∨ r'.fault.isSome = true) := by
  induction rounds generalizing r sh with
  | zero =>
    refine ⟨[], .refl h, by simp, ?_⟩
    rcases hrounds with hfault | hle
    · exact .inr hfault
    · refine .inl (Bool.eq_false_iff.mpr fun hw => ?_)
      have := hwanting _ hw
      unfold buffered at hle
      omega
  | succ rounds ih =>
    rw [fillWhile]
    split
    · rename_i hw
      simp only [Bool.and_eq_true, Option.isNone_iff_eq_none] at hw
      have hroom : r.buffered < n := hwanting _ hw.1
      have hfree : r.buffered < r.size := by omega
      refine Act.meets_bind.mpr ((fill_meets r).imp ?_)
      rintro r₁ sh₁ ⟨ds, hf⟩
      have hsize : r₁.size = r.size := hf.size
      have hrounds₁ : r₁.fault.isSome = true ∨ n ≤ r₁.buffered + rounds := by
        rcases hf.progress hfree with hp | hp
        · exact .inl hp
        · rcases hrounds with hfault | hle
          · rw [hw.2] at hfault
            cases hfault
          · right
            omega
      refine (ih r₁ (hf.wf h) (by omega) hrounds₁).imp ?_
      rintro r₂ sh₂ ⟨es, hp, hes, hends⟩
      refine ⟨ds ++ es, hp.fill hw.2 hf ?_, fun _ => hroom, hends⟩
      intro hne
      have := hes hne
      omega
    · rename_i hw
      rw [Bool.not_eq_true, Bool.and_eq_false_iff, Option.isNone_eq_false_iff] at hw
      exact ⟨[], .refl h, by simp, hw⟩

/-- **Looking ahead.**  With that much room, `n` bytes are unread in the end or an
error is latched. -/
theorem ensure_meets [HonestSource H σ] {n : Nat} {r : Reader σ} (h : r.WF) (hn : n ≤ r.size) :
    Act.Meets H (r.ensure n) sh fun r' _ => ∃ ds, r.Pulled ds r' ∧
      (ds ≠ [] → r.buffered < n) ∧ (n ≤ r'.buffered ∨ r'.fault.isSome = true) := by
  refine (fillWhile_meets (n := n) (fun b hb => of_decide_eq_true hb) n r h hn
    (.inr (Nat.le_add_left ..))).imp ?_
  rintro r' sh' ⟨ds, hp, hne, hends⟩
  refine ⟨ds, hp, hne, hends.imp (fun hw => ?_) id⟩
  simpa [buffered] using hw

/-- Where enough is unread or an error is latched, looking ahead does nothing. -/
theorem ensure_of_stays {r : Reader σ} {n : Nat} (h : n ≤ r.buffered ∨ r.fault.isSome = true) :
    r.ensure n = pure r := by
  unfold ensure
  cases n with
  | zero => rfl
  | succ n =>
    rw [fillWhile, if_neg]
    simp only [Bool.and_eq_true, decide_eq_true_eq, Option.isNone_iff_eq_none, not_and]
    intro hlt hnone
    rw [hnone] at h
    exact h.elim (Nat.not_le.mpr hlt) nofun

/-- Looking ahead for a rune: in the end the first rune can be told, or an error
is latched. -/
theorem ensureRune_meets [HonestSource H σ] {r : Reader σ} (h : r.WF) :
    Act.Meets H r.ensureRune sh fun r' _ => ∃ ds, r.Pulled ds r' ∧
      (ds ≠ [] → r.buffered < Rune.maxWidth) ∧
      (Rune.maxWidth ≤ r'.buffered ∨ Rune.isSettled r'.window.unread = true ∨
        r'.fault.isSome = true) := by
  have hsize : Rune.maxWidth ≤ r.size := Nat.le_trans (by decide) h.size_ge
  refine (fillWhile_meets (n := Rune.maxWidth) ?_ Rune.maxWidth r h hsize
    (.inr (Nat.le_add_left ..))).imp ?_
  · intro b hb
    simp only [Bool.and_eq_true, decide_eq_true_eq] at hb
    exact hb.1
  · rintro r' sh' ⟨ds, hp, hne, hends⟩
    refine ⟨ds, hp, hne, ?_⟩
    rw [← or_assoc]
    refine hends.imp (fun hw => ?_) id
    simp only [Bool.and_eq_false_iff, decide_eq_false_iff_not, Nat.not_lt,
      Bool.not_eq_false'] at hw
    exact hw

/-! ## A single read -/

/-- A single call raises what it reports. -/
theorem arisen_single (d : Draw) : arisen [d] = d.reading.fault.toList := by
  rw [arisen, arisenAfter]
  cases d.reading.fault with
  | some e => rfl
  | none =>
    dsimp only
    split
    · rfl
    · rw [if_neg (by decide)]
      rfl

/-- After a single call what it reported is latched. -/
theorem Pulled.fault_single {r r' : Reader σ} {d : Draw} (hp : r.Pulled [d] r') :
    r'.fault = d.reading.fault := by
  have harisen := hp.arisen_eq (List.cons_ne_nil _ _)
  rw [arisen_single] at harisen
  cases hfault : d.reading.fault with
  | none => rwa [hfault, Option.toList_none, Option.toList_eq_nil_iff] at harisen
  | some e => rwa [hfault, Option.toList_some, Option.toList_eq_singleton_iff] at harisen

/-- **Reading once** into the empty buffer: one call with the whole block as
room, whatever comes of it. -/
theorem readOnce_meets [HonestSource H σ] {r : Reader σ} (h : r.WF)
    (hunread : r.window.unread = []) (hfault : r.fault = none) :
    Act.Meets H r.readOnce sh fun r' _ => ∃ g, r.Pulled [⟨r.size, g⟩] r' := by
  refine Act.meets_bind.mpr ((acquire_meets r).imp ?_)
  rintro r₁ sh₁ ⟨length, spare, rfl⟩
  refine Act.meets_bind.mpr ((draw_meets _ _).imp ?_)
  rintro ⟨g, r₂⟩ sh₂ ⟨s, hreads, hcount, hle, rfl⟩
  have hsize := h.size_pos
  have hbuffered : r.buffered = 0 := by simp [buffered, hunread]
  have hlen : (drawn [⟨r.size, g⟩]).length ≤ r.size - r.buffered := by
    rw [hbuffered]
    simpa [← hcount, withBlock] using hle
  have heq := latch_receive
    { r.withBlock length spare with window := (r.withBlock length spare).window.reset } s g
    rfl rfl hcount r.size
  refine ⟨g, ?_⟩
  have hr' : r.taking s [⟨r.size, g⟩] g.fault
      ((g.fillIn (r.withBlock length spare).window.reset.spare).drop g.count) length = _ :=
    Eq.trans (by simp [taking, withBlock, Window.reset, Window.onto, hunread]) heq.symm
  refine Eq.subst (motive := r.Pulled _) hr' ?_
  exact
    { wf := wf_taking h hlen
      calls := .single hreads
      offered_pos := by simp [hbuffered]
      fault_of_calls := fun _ => hfault
      quiet := rfl
      latched := by rw [arisen_single]; simp [taking, hfault]
      rearmed := by
        intro hcame es
        refine (arisenAfter_brought 0 es ?_).trans (by rw [arisen_single])
        rcases hcame (List.cons_ne_nil _ _) with hsome | hne
        · exact .inl (by simpa [taking, hfault] using hsome)
        · refine .inr (.inl ?_)
          rw [hcount]
          exact List.length_pos_iff.mpr (by simpa [taking, hunread] using hne)
      unread := rfl
      past := .inr rfl
      size := rfl
      pool := rfl
      lastByte := rfl
      lastRune := rfl }

end Reader

end BufferedStream
