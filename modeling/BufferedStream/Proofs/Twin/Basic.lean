import BufferedStream.Proofs.Agree
import BufferedStream.Proofs.Reader.Bytes

/-!
# Twin readers

Two readers over the same stream that take their blocks from different pools drift
apart.  At the end of the stream one pool keeps the block and the other turns it away, so
that one reader forgets what it has handed out while the other still has it; and what
lies behind the unread bytes is whatever the block held.  *Twins* (`Reader.Twin`)
differ in no more than that.

* `Reader.Mute` — twins that remember no rune.
* `Reader.Twin.settles` — handing blocks back leaves twins twins, whatever the pools do.
* `Reader.fill_agree`, `Reader.readOnce_agree`, `Reader.fillWhile_agree` — twins fill their
  buffers alike, and have then both forgotten what they handed out.
-/

namespace BufferedStream

namespace Reader

open BlindSource (Same)

variable {σ : Type} [ByteSource σ] [BlindSource σ] {r t r' t' : Reader σ}

/-! ## Twins -/

/-- The readers are the same, but for their pools, for what lies behind their unread bytes
and, with nothing unread, for whether they have handed their blocks back. -/
structure Twin (r t : Reader σ) : Prop where
  source : Same r.source t.source
  size : r.size = t.size
  fault : r.fault = t.fault
  lastByte : r.lastByte = t.lastByte
  lastRune : r.lastRune = t.lastRune
  unread : r.window.unread = t.window.unread
  kept : (r.held.isSome = t.held.isSome ∧ r.window.past = t.window.past) ∨
    r.window.unread = [] ∧ (r.window.past = [] ∨ t.window.past = [])

/-- The readers are twins that hold blocks in which nothing stands in front of the unread
bytes, and remember the given width of a rune. -/
structure Slid (rune : Option Nat) (r t : Reader σ) : Prop extends Twin r t where
  held_some : r.held.isSome = true ∧ t.held.isSome = true
  past_nil : r.window.past = [] ∧ t.window.past = []
  lastRune_eq : r.lastRune = rune

/-- Twins that remember no rune. -/
structure Mute (r t : Reader σ) : Prop extends Twin r t where
  lastRune_eq : r.lastRune = none

namespace Twin

theorem buffered (h : Twin r t) : r.buffered = t.buffered := congrArg List.length h.unread

/-- With a byte unread, both have a block or neither, and the same behind them. -/
theorem kept_of_unread (h : Twin r t) (hne : r.window.unread ≠ []) :
    r.held.isSome = t.held.isSome ∧ r.window.past = t.window.past :=
  h.kept.resolve_right fun hnil => hne hnil.1

/-- What is behind is the same, or gone from one of them. -/
theorem past (h : Twin r t) :
    r.window.past = t.window.past ∨ r.window.past = [] ∨ t.window.past = [] :=
  h.kept.imp And.right And.right

theorem cleared (h : Twin r t) : Twin r.cleared t.cleared :=
  ⟨h.source, h.size, rfl, h.lastByte, h.lastRune, h.unread, h.kept⟩

theorem latch (h : Twin r t) (fault : Option Error) : Twin (r.latch fault) (t.latch fault) := by
  rw [latch_eq, latch_eq, h.fault]
  exact ⟨h.source, h.size, rfl, h.lastByte, h.lastRune, h.unread, h.kept⟩

/-- Twins may be told alike what they are to remember. -/
theorem remembering (h : Twin r t) {lastByte lastByte' : Option UInt8}
    {lastRune lastRune' : Option Nat} (hbyte : lastByte = lastByte')
    (hrune : lastRune = lastRune') :
    Twin { r with lastByte, lastRune } { t with lastByte := lastByte', lastRune := lastRune' } :=
  ⟨h.source, h.size, h.fault, hbyte, hrune, h.unread, h.kept⟩

/-- Twins may be told to remember a byte and no rune. -/
theorem mute (h : Twin r t) {lastByte lastByte' : Option UInt8} (hbyte : lastByte = lastByte') :
    Mute { r with lastByte, lastRune := none } { t with lastByte := lastByte', lastRune := none } :=
  ⟨h.remembering hbyte rfl, rfl⟩

theorem forgetRune (h : Twin r t) : Mute { r with lastRune := none } { t with lastRune := none } :=
  h.mute h.lastByte

theorem withSource {s s' : σ} (h : Twin r t) (hs : Same s s') :
    Twin { r with source := s } { t with source := s' } :=
  ⟨hs, h.size, h.fault, h.lastByte, h.lastRune, h.unread, h.kept⟩

/-- Handing out the same number of bytes keeps what is behind in step. -/
theorem advance (h : Twin r t) (n : Nat) :
    Twin { r with window := r.window.advance n } { t with window := t.window.advance n } := by
  refine ⟨h.source, h.size, h.fault, h.lastByte, h.lastRune, congrArg (List.drop n) h.unread, ?_⟩
  rcases h.kept with ⟨hheld, hpast⟩ | ⟨hnil, hpast⟩
  · refine .inl ⟨hheld, ?_⟩
    rw [Window.advance, Window.advance, hpast, h.unread]
  · have hnil' : t.window.unread = [] := h.unread ▸ hnil
    right
    simpa [Window.advance, hnil, hnil'] using hpast

theorem delivering (h : Twin r t) (n : Nat) : Mute (r.delivering n) (t.delivering n) :=
  (h.advance n).mute (congrArg (fun b => (List.take n b).getLast?) h.unread)

/-- With the same behind them, twins push the same back. -/
theorem retreat (h : Twin r t) (hpast : r.window.past = t.window.past) (n : Nat) :
    Twin { r with window := r.window.retreat n } { t with window := t.window.retreat n } := by
  refine ⟨h.source, h.size, h.fault, h.lastByte, h.lastRune, ?_, ?_⟩
  · rw [Window.retreat, Window.retreat, hpast, h.unread]
  · rcases h.kept with ⟨hheld, -⟩ | ⟨hnil, hgone⟩
    · exact .inl ⟨hheld, congrArg (List.drop n) hpast⟩
    · have hnone : r.window.past = [] := by
        rcases hgone with hgone | hgone
        · exact hgone
        · exact hpast.trans hgone
      right
      simp [Window.retreat, hnil, hnone]

/-- Handing the block back leaves twins twins, whichever of them does. -/
theorem settles (h : Twin r t) (hr : r.Settles r') (ht : t.Settles t') : Twin r' t' where
  source := by rw [hr.source_eq, ht.source_eq]; exact h.source
  size := by rw [hr.size_eq, ht.size_eq, h.size]
  fault := by rw [hr.fault_eq, ht.fault_eq, h.fault]
  lastByte := by rw [hr.lastByte_eq, ht.lastByte_eq, h.lastByte]
  lastRune := by rw [hr.lastRune_eq, ht.lastRune_eq, h.lastRune]
  unread := by rw [hr.unread_eq, ht.unread_eq, h.unread]
  kept := by
    cases hr with
    | keeps =>
      cases ht with
      | keeps => exact h.kept
      | returns hunread => exact .inr ⟨h.unread.trans hunread, .inr rfl⟩
    | returns => exact .inr ⟨rfl, .inl rfl⟩

end Twin

/-! ## Taking blocks and handing them back -/

omit [ByteSource σ] [BlindSource σ] in
theorem acquire_usesPools (r : Reader σ) : Act.UsesPools r.acquire := by
  intro sh
  unfold acquire
  split
  · rfl
  · simp only [Act.meets_bind, Act.meets_acquire, Act.meets_pure]
    exact sh.alike_withPool ..

omit [ByteSource σ] [BlindSource σ] in
theorem settle_usesPools (r : Reader σ) : Act.UsesPools r.settle := by
  intro sh
  unfold settle
  split
  · split
    · rfl
    · simp only [Act.meets_bind, Act.meets_bufferSize]
      split
      · simp only [Act.meets_bind, Act.meets_release]
        split
        · exact sh.alike_withPool ..
        · exact sh.alike_withPool ..
      · rfl
  · rfl

omit [ByteSource σ] [BlindSource σ] in
theorem surrender_usesPools (r : Reader σ) : Act.UsesPools r.surrender := by
  intro sh
  unfold surrender
  split
  · simp only [Act.meets_bind, Act.meets_release, Act.meets_pure]
    exact sh.alike_withPool ..
  · rfl

omit [ByteSource σ] [BlindSource σ] in
theorem acquire_agree (r t : Reader σ) :
    Act.Agree (fun r' t' => (∃ length spare, r' = r.withBlock length spare) ∧
      ∃ length spare, t' = t.withBlock length spare) r.acquire t.acquire :=
  Act.agree_of_usesPools r.acquire_usesPools t.acquire_usesPools (fun _ => acquire_meets r)
    fun _ => acquire_meets t

omit [ByteSource σ] [BlindSource σ] in
theorem settle_agree (r t : Reader σ) :
    Act.Agree (fun r' t' => r.Settles r' ∧ t.Settles t') r.settle t.settle :=
  Act.agree_of_usesPools r.settle_usesPools t.settle_usesPools (fun _ => settle_meets r)
    fun _ => settle_meets t

/-! ## Filling -/

/-- Twins with a block each, and nothing behind the same unread bytes. -/
theorem Twin.slid (h : Twin r t) (w w' : Window) (hunread : w.unread = w'.unread)
    (hpast : w.past = [] ∧ w'.past = []) (length length' : Nat) :
    Slid r.lastRune { r with held := some length, window := w }
      { t with held := some length', window := w' } where
  source := h.source
  size := h.size
  fault := h.fault
  lastByte := h.lastByte
  lastRune := h.lastRune
  unread := hunread
  kept := .inl ⟨rfl, hpast.1.trans hpast.2.symm⟩
  held_some := ⟨rfl, rfl⟩
  past_nil := hpast
  lastRune_eq := rfl

/-- Both readers put the same bytes behind the unread ones. -/
theorem Slid.receive {rune : Option Nat} (h : Slid rune r t) {g : Grant}
    (hcount : g.count = g.data.length) {s s' : σ} (hs : Same s s') :
    Slid rune { r with source := s, window := r.window.receive g }
      { t with source := s', window := t.window.receive g } where
  source := hs
  size := h.size
  fault := h.fault
  lastByte := h.lastByte
  lastRune := h.lastRune
  unread := by rw [Window.unread_receive hcount, Window.unread_receive hcount, h.unread]
  kept := .inl ⟨h.held_some.1.trans h.held_some.2.symm, h.past_nil.1.trans h.past_nil.2.symm⟩
  held_some := h.held_some
  past_nil := h.past_nil
  lastRune_eq := h.lastRune_eq

theorem Slid.latch {rune : Option Nat} (h : Slid rune r t) (fault : Option Error) :
    Slid rune (r.latch fault) (t.latch fault) where
  toTwin := h.toTwin.latch fault
  held_some := by rw [latch_eq, latch_eq]; exact h.held_some
  past_nil := by rw [latch_eq, latch_eq]; exact h.past_nil
  lastRune_eq := by rw [latch_eq]; exact h.lastRune_eq

variable [HonestSource (fun _ => True) σ]

/-- Twins are answered alike, whatever their rooms hold. -/
theorem draw_agree (h : Same r.source t.source) {n n' : Nat} (hn : n = n') (old old' : Bytes) :
    Act.Agree (fun (g, r') (g', t') => g = g' ∧ g.count = g.data.length ∧
        ∃ s s', Same s s' ∧ r' = { r with source := s } ∧ t' = { t with source := s' })
      (r.draw ⟨n, old⟩) (t.draw ⟨n', old'⟩) := by
  subst hn
  have hread := (BlindSource.read_same ⟨n, old⟩ ⟨n, old'⟩ h rfl).and_meets fun sh =>
    (HonestSource.read_honest (H := fun _ => True) r.source ⟨n, old⟩ sh).imp fun _ _ hg => hg.1
  refine hread.bind ?_
  rintro ⟨g, s⟩ ⟨_, s'⟩ ⟨⟨rfl, hs⟩, hcount⟩
  exact Act.agree_require.bind fun _ _ _ => Act.agree_pure ⟨rfl, hcount, s, s', hs, rfl, rfl⟩

/-- By induction on the rounds: readers with nothing behind them stay so. -/
theorem fillRounds_agree {rune : Option Nat} (rounds : Nat) (h : Slid rune r t) :
    Act.Agree (Slid rune) (fillRounds rounds r) (fillRounds rounds t) := by
  induction rounds generalizing r t with
  | zero => exact Act.agree_pure (h.latch _)
  | succ rounds ih =>
    rw [fillRounds, fillRounds]
    dsimp only
    rw [h.size, h.buffered]
    refine (draw_agree h.source rfl _ _).bind ?_
    rintro ⟨g, _⟩ ⟨_, _⟩ ⟨rfl, hcount, s, s', hs, rfl, rfl⟩
    have hnext := h.receive hcount hs
    exact Act.Agree.ite Iff.rfl (fun _ => Act.agree_pure (hnext.latch _)) fun _ => ih hnext

theorem fill_agree (h : Twin r t) : Act.Agree (Slid r.lastRune) r.fill t.fill := by
  refine (acquire_agree r t).bind ?_
  rintro _ _ ⟨⟨length, spare, rfl⟩, length', spare', rfl⟩
  exact fillRounds_agree _ (h.slid (r.withBlock length spare).window.slide
    (t.withBlock length' spare').window.slide h.unread ⟨rfl, rfl⟩ length length')

theorem readOnce_agree (h : Twin r t) : Act.Agree (Slid r.lastRune) r.readOnce t.readOnce := by
  refine (acquire_agree r t).bind ?_
  rintro _ _ ⟨⟨length, spare, rfl⟩, length', spare', rfl⟩
  have hreset := h.slid (r.withBlock length spare).window.reset
    (t.withBlock length' spare').window.reset rfl ⟨rfl, rfl⟩ length length'
  refine (draw_agree hreset.source hreset.size _ _).bind ?_
  rintro ⟨g, _⟩ ⟨_, _⟩ ⟨rfl, hcount, s, s', hs, rfl, rfl⟩
  exact Act.agree_pure ((hreset.receive hcount hs).latch g.fault)

/-- By induction on the rounds: twins want more alike. -/
theorem fillWhile_agree (wanting : Bytes → Bool) (rounds : Nat) (h : Twin r t) :
    Act.Agree (fun r' t' => Twin r' t' ∧ r'.lastRune = r.lastRune)
      (fillWhile wanting rounds r) (fillWhile wanting rounds t) := by
  induction rounds generalizing r t with
  | zero => exact Act.agree_pure ⟨h, rfl⟩
  | succ rounds ih =>
    rw [fillWhile, fillWhile, h.unread, h.fault]
    refine Act.Agree.ite Iff.rfl (fun _ => ?_) fun _ => Act.agree_pure ⟨h, rfl⟩
    refine (fill_agree h).bind fun r₁ t₁ hslid => ?_
    exact (ih hslid.toTwin).imp fun _ _ hmore => ⟨hmore.1, hmore.2.trans hslid.lastRune_eq⟩

theorem ensure_agree (n : Nat) (h : Twin r t) :
    Act.Agree (fun r' t' => Twin r' t' ∧ r'.lastRune = r.lastRune) (r.ensure n) (t.ensure n) :=
  fillWhile_agree _ n h

theorem ensureRune_agree (h : Twin r t) :
    Act.Agree (fun r' t' => Twin r' t' ∧ r'.lastRune = r.lastRune) r.ensureRune t.ensureRune :=
  fillWhile_agree _ _ h

end Reader

end BufferedStream
