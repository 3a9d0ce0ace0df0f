import BufferedStream.Proofs.Reader.Operation
import BufferedStream.Proofs.Twin.Basic

/-!
# Twins under the operations on bytes and runes

Twins answer alike, whatever the pools do.  The one exception is a rune pushed back from
a reader that kept its block at the end of the stream when its twin did not.  So besides
being twins the readers are *level* (`Reader.Level`): the rune that they remember stands
behind both or behind neither, unless something has worn that away.

* `Reader.read_agree`, `Reader.peek_agree`, `Reader.readByte_agree`,
  `Reader.unreadByte_agree`, `Reader.consume_agree`, `Reader.readRune_agree` — what comes of
  both readers is the same.
* `Reader.Level.unreadRune` — pushing a rune back tells the readers apart if and only if one
  of them alone still has it (`Reader.Parted`).
-/

namespace BufferedStream

namespace Reader

open BlindSource (Same)

variable {σ : Type} {r t r' t' : Reader σ} {worn : Prop}

/-! ## What is remembered of a rune -/

/-- The reader has met the end of the stream: nothing is unread, and the end is latched. -/
def AtEnd (r : Reader σ) : Prop := r.window.unread = [] ∧ r.fault = some .eof

/-- The rune that the reader remembers is not empty, and stands behind the unread bytes
unless nothing does. -/
def Recalls (r : Reader σ) : Prop :=
  ∀ width, r.lastRune = some width →
    0 < width ∧ (r.window.past = [] ∨ width ≤ r.window.past.length)

theorem Recalls.settles (h : r.Recalls) (hs : r.Settles r') : r'.Recalls := by
  intro width hwidth
  obtain ⟨hpos, hpast⟩ := h width (hs.lastRune_eq ▸ hwidth)
  cases hs with
  | keeps => exact ⟨hpos, hpast⟩
  | returns => exact ⟨hpos, .inl rfl⟩

theorem Recalls.of_none (hnone : r.lastRune = none) : r.Recalls := by
  intro width hwidth
  rw [hnone] at hwidth
  cases hwidth

/-- Twins that both have the rune they remember behind them, or neither; unless `worn`. -/
structure Level [ByteSource σ] [BlindSource σ] (worn : Prop) (r t : Reader σ) : Prop
    extends Twin r t where
  recalls : r.Recalls ∧ t.Recalls
  level : r.lastRune = none ∨ r.window.past = t.window.past ∨ worn

/-- The same came of both, and the readers are related by `T`. -/
abbrev Both {α : Type} (T : Reader σ → Reader σ → Prop) (x y : α × Reader σ) : Prop :=
  x.1 = y.1 ∧ T x.2 y.2

variable [ByteSource σ] [BlindSource σ]

theorem Mute.cleared (h : Mute r t) : Mute r.cleared t.cleared := ⟨h.toTwin.cleared, h.lastRune_eq⟩

theorem Mute.level (h : Mute r t) : Level worn r t where
  toTwin := h.toTwin
  recalls := ⟨.of_none h.lastRune_eq, .of_none (h.lastRune ▸ h.lastRune_eq)⟩
  level := .inl h.lastRune_eq

namespace Level

/-- Twins with nothing behind them are level. -/
theorem of_past_nil (h : Twin r' t') (hr : r.Recalls) (hrune : r'.lastRune = r.lastRune)
    (hpast : r'.window.past = [] ∧ t'.window.past = []) : Level worn r' t' where
  toTwin := h
  recalls :=
    ⟨fun width hwidth => ⟨(hr width (hrune ▸ hwidth)).1, .inl hpast.1⟩,
      fun width hwidth => ⟨(hr width (hrune ▸ h.lastRune ▸ hwidth)).1, .inl hpast.2⟩⟩
  level := .inr (.inl (hpast.1.trans hpast.2.symm))

/-- Handing blocks back at the end of the stream wears away what is level, unless nothing
is behind the readers anyway. -/
theorem settles (h : Level worn r t)
    (hworn : r.AtEnd → (r.window.past = [] ∧ t.window.past = []) ∨ worn)
    (hr : r.Settles r') (ht : t.Settles t') : Level worn r' t' where
  toTwin := h.toTwin.settles hr ht
  recalls := ⟨h.recalls.1.settles hr, h.recalls.2.settles ht⟩
  level := by
    rw [hr.lastRune_eq]
    cases hr with
    | keeps =>
      cases ht with
      | keeps => exact h.level
      | returns hunread hfault =>
        exact .inr ((hworn ⟨h.unread.trans hunread, h.fault.trans hfault⟩).imp And.left id)
    | returns hunread hfault =>
      cases ht with
      | keeps => exact .inr ((hworn ⟨hunread, hfault⟩).imp (fun hpast => hpast.2.symm) id)
      | returns => exact .inr (.inl rfl)

theorem mono {worn' : Prop} (h : Level worn r t) (hworn : worn → worn') : Level worn' r t :=
  ⟨h.toTwin, h.recalls, h.level.imp id (Or.imp id hworn)⟩

theorem cleared (h : Level worn r t) : Level worn r.cleared t.cleared :=
  ⟨h.toTwin.cleared, h.recalls, h.level⟩

theorem latch (h : Level worn r t) (fault : Option Error) :
    Level worn (r.latch fault) (t.latch fault) where
  toTwin := h.toTwin.latch fault
  recalls := by rw [latch_eq, latch_eq]; exact h.recalls
  level := by rw [latch_eq, latch_eq]; exact h.level

theorem withSource {s s' : σ} (h : Level worn r t) (hs : Same s s') :
    Level worn { r with source := s } { t with source := s' } :=
  ⟨h.toTwin.withSource hs, h.recalls, h.level⟩

end Level

theorem Mute.settle_agree (h : Mute r t) : Act.Agree Mute r.settle t.settle :=
  (Reader.settle_agree r t).imp fun _ _ hs =>
    ⟨h.toTwin.settles hs.1 hs.2, hs.1.lastRune_eq.trans h.lastRune_eq⟩

/-! ## Bytes -/

theorem deliver_agree (h : Twin r t) (n : Nat) :
    Act.Agree (Both Mute) (r.deliver n) (t.deliver n) := by
  refine (h.delivering n).settle_agree.bind fun r' t' h' => Act.agree_pure ⟨?_, h'⟩
  exact congrArg (fun b => Reading.ofBytes (List.take n b) none) h.unread

/-- With nothing unread the readers settle, and report the same. -/
theorem deliverOrReport_agree (h : Level worn r t) {n n' : Nat} (hn : n = n')
    (hworn : r.AtEnd → (r.window.past = [] ∧ t.window.past = []) ∨ worn) :
    Act.Agree (Both (Level worn)) (r.deliverOrReport n) (t.deliverOrReport n') := by
  subst hn
  unfold deliverOrReport
  refine .ite (by rw [h.unread]) (fun _ => ?_) fun _ => ?_
  · exact (deliver_agree h.toTwin n).imp fun _ _ h' => ⟨h'.1, h'.2.level⟩
  · refine (settle_agree r t).bind fun r' t' hs => ?_
    have hsettled := h.settles hworn hs.1 hs.2
    exact Act.agree_pure ⟨congrArg (Reading.ofBytes []) hsettled.fault, hsettled.cleared⟩

theorem takeByte_agree (h : Mute r t) : Act.Agree (Both Mute) r.takeByte t.takeByte := by
  unfold takeByte
  rw [h.unread]
  cases t.window.unread with
  | nil =>
    dsimp only
    refine h.settle_agree.bind fun r' t' h' => ?_
    rw [h'.fault]
    cases t'.fault with
    | none => exact Act.agree_throw _
    | some e => exact Act.agree_pure ⟨rfl, h'.cleared⟩
  | cons b rest =>
    have htaken : Mute _ _ :=
      ⟨(h.advance 1).remembering (Eq.refl (some b)) h.lastRune, h.lastRune_eq⟩
    exact htaken.settle_agree.bind fun r' t' h' => Act.agree_pure ⟨rfl, h'⟩

/-- **Pushing a byte back** onto an empty buffer starts over, so that nothing tells whether
the block was kept. -/
theorem unreadByte_agree (h : Twin r t) : Act.Agree (Both Mute) r.unreadByte t.unreadByte := by
  have hmute := h.mute (Eq.refl none)
  unfold unreadByte
  dsimp only
  rw [h.lastByte]
  cases t.lastByte with
  | none => exact Act.agree_pure ⟨rfl, hmute⟩
  | some b =>
    refine .ite (by rw [h.unread]) (fun _ => ?_) fun hne => ?_
    · refine (acquire_agree _ _).bind ?_
      rintro _ _ ⟨⟨length, spare, rfl⟩, length', spare', rfl⟩
      have hslid : ∀ spare spare', Slid none _ _ := fun spare spare' =>
        hmute.slid ⟨[], [b], spare⟩ ⟨[], [b], spare'⟩ rfl ⟨rfl, rfl⟩ length length'
      exact Act.agree_pure ⟨rfl, (hslid _ _).toTwin, rfl⟩
    · have hpast := (h.kept_of_unread hne).2
      refine .ite (by rw [hpast]) (fun _ => Act.agree_pure ⟨rfl, hmute⟩) fun _ => ?_
      exact Act.agree_pure ⟨rfl, hmute.retreat hpast 1, rfl⟩

/-- Counting bytes as read. -/
theorem consume_agree (h : Level worn r t) (n : Nat) :
    Act.Agree (Level worn) (r.consume n) (t.consume n) := by
  unfold consume
  refine .ite (by rw [h.unread]) (fun _ => Act.agree_pure h) fun _ => ?_
  exact (h.toTwin.delivering n).settle_agree.imp fun _ _ h' => h'.level

section Bytes

variable [HonestSource (fun _ => True) σ]

theorem peek_agree (h : Twin r t) (n : Nat) : Act.Agree (Both Mute) (r.peek n) (t.peek n) := by
  unfold peek
  dsimp only
  refine .ite (by rw [h.size]) (fun _ => Act.agree_pure ⟨rfl, h.forgetRune⟩) fun _ => ?_
  refine (ensure_agree n h.forgetRune.toTwin).bind fun r₁ t₁ ⟨h₁, hnone⟩ => ?_
  have hmute : Mute r₁ t₁ := ⟨h₁, hnone⟩
  rw [h₁.unread, h₁.fault]
  exact .ite Iff.rfl (fun _ => Act.agree_pure ⟨rfl, hmute.cleared⟩)
    fun _ => Act.agree_pure ⟨rfl, hmute⟩

theorem readThrough_agree (h : Level worn r t) {room room' : Room}
    (hroom : room.size = room'.size) :
    Act.Agree (Both (Level worn)) (r.readThrough room) (t.readThrough room') := by
  refine (draw_agree h.source hroom _ _).bind ?_
  rintro ⟨g, _⟩ ⟨_, _⟩ ⟨rfl, hcount, s, s', hs, rfl, rfl⟩
  refine .ite Iff.rfl (fun _ => Act.agree_pure ⟨rfl, h.withSource hs⟩) fun _ => ?_
  rw [Grant.bytesIn_eq_data hcount, Grant.bytesIn_eq_data hcount]
  exact Act.agree_pure ⟨rfl, ((h.toTwin.withSource hs).mute rfl).level⟩

/-- **Reading.**  What is level is worn away only by reading at the end of the stream. -/
theorem read_agree (h : Level worn r t) {room room' : Room} (hroom : room.size = room'.size)
    (hworn : 0 < room.size ∧ r.AtEnd → worn) :
    Act.Agree (Both (Level worn)) (r.read room) (t.read room') := by
  unfold read
  dsimp only
  refine .ite (by rw [hroom]) (fun _ => ?_) fun hpos => ?_
  · exact Act.agree_pure ⟨congrArg (Reading.ofBytes []) h.fault, h.cleared⟩
  refine .ite (by rw [h.unread, h.fault]) (fun _ => ?_) fun _ => ?_
  · exact deliverOrReport_agree h hroom fun hend => .inr (hworn ⟨Nat.pos_of_ne_zero hpos, hend⟩)
  refine .ite (by rw [h.size, hroom]) (fun _ => readThrough_agree h hroom) fun _ => ?_
  refine (readOnce_agree h.toTwin).bind fun r₁ t₁ hs => ?_
  exact deliverOrReport_agree (.of_past_nil hs.toTwin h.recalls.1 hs.lastRune_eq hs.past_nil)
    hroom fun _ => .inl hs.past_nil

theorem readByte_agree (h : Twin r t) : Act.Agree (Both Mute) r.readByte t.readByte :=
  (ensure_agree 1 h.forgetRune.toTwin).bind fun _ _ h₁ => takeByte_agree ⟨h₁.1, h₁.2⟩

end Bytes

/-! ## Runes -/

/-- Handing out the next rune makes twins level. -/
theorem Twin.deliveringRune (h : Twin r t) {width : Nat} (hpos : 0 < width)
    (hle : width ≤ r.window.unread.length) :
    Level worn (r.deliveringRune width) (t.deliveringRune width) := by
  have hne : r.window.unread ≠ [] := List.ne_nil_of_length_pos (Nat.lt_of_lt_of_le hpos hle)
  have hpast : (r.window.advance width).past = (t.window.advance width).past := by
    rw [Window.advance, Window.advance, h.unread, (h.kept_of_unread hne).2]
  have hlen : width ≤ (r.window.advance width).past.length := by
    simp only [Window.advance, List.length_append, List.length_reverse, List.length_take]
    omega
  exact
    { toTwin := (h.advance width).remembering (congrArg List.head? hpast) rfl
      recalls :=
        ⟨by rintro _ ⟨⟩; exact ⟨hpos, .inr hlen⟩, by rintro _ ⟨⟩; exact ⟨hpos, .inr (hpast ▸ hlen)⟩⟩
      level := .inr (.inl hpast) }

/-- **Reading a rune** makes twins level, whatever was worn before. -/
theorem readRune_agree [HonestSource (fun _ => True) σ] (h : Twin r t) :
    Act.Agree (Both (Level worn)) r.readRune t.readRune := by
  refine (ensureRune_agree h).bind fun r₁ t₁ ⟨h₁, _⟩ => ?_
  refine .ite (by rw [h₁.unread]) (fun _ => ?_) fun hne => ?_
  · refine h₁.forgetRune.settle_agree.bind fun r₂ t₂ h₂ => Act.agree_pure ⟨?_, h₂.cleared.level⟩
    rw [h₂.fault]
  · have hwidth := Rune.width_decode hne
    dsimp only at hwidth ⊢
    rw [← h₁.unread]
    exact Act.agree_pure ⟨rfl, h₁.deliveringRune hwidth.1 hwidth.2⟩

/-- A rune is remembered, and just one of the readers still has it behind its unread
bytes. -/
def Parted (r t : Reader σ) : Prop :=
  r.lastRune.isSome = true ∧ (r.window.past = [] ↔ t.window.past ≠ [])

omit [ByteSource σ] [BlindSource σ] in
/-- A rune that is remembered can be pushed back unless nothing is behind the reader. -/
theorem Recalls.unreadRune_eq {width : Nat} (h : r.Recalls) (hwidth : r.lastRune = some width) :
    r.unreadRune = if r.window.past = [] then (.error .invalidUnreadRune, r)
      else (.ok (), r.retreating width) := by
  obtain ⟨hpos, hpast⟩ := h width hwidth
  unfold unreadRune
  rw [hwidth]
  dsimp only
  by_cases hnil : r.window.past = []
  · rw [if_pos hnil, if_neg (by rw [hnil]; exact Nat.not_le.mpr hpos)]
  · rw [if_neg hnil, if_pos (hpast.resolve_left hnil)]
    rfl

/-- Readers that are level part only once that has been worn away. -/
theorem Level.worn_of_parted (h : Level worn r t) (hp : Parted r t) : worn := by
  obtain ⟨hsome, hpast⟩ := hp
  rcases h.level with hnone | heq | hworn
  · rw [hnone] at hsome
    cases hsome
  · rw [heq] at hpast
    exact absurd hpast iff_not_self
  · exact hworn

/-- **Pushing a rune back** tells twins apart if and only if one of them alone still has
it, and else leaves them level. -/
theorem Level.unreadRune (h : Level worn r t) :
    (r.unreadRune.1 = t.unreadRune.1 ↔ ¬ Parted r t) ∧
      (¬ Parted r t → Level worn r.unreadRune.2 t.unreadRune.2) := by
  cases hwidth : r.lastRune with
  | none =>
    have hsame : ∀ {u : Reader σ}, u.lastRune = none →
        u.unreadRune = (.error .invalidUnreadRune, u) := by
      intro u hnone
      rw [Reader.unreadRune, hnone]
    rw [hsame hwidth, hsame (h.lastRune ▸ hwidth)]
    exact ⟨iff_of_true rfl fun hp => by simp [Parted, hwidth] at hp, fun _ => h⟩
  | some width =>
    rw [h.recalls.1.unreadRune_eq hwidth, h.recalls.2.unreadRune_eq (h.lastRune ▸ hwidth)]
    by_cases hr : r.window.past = []
    · by_cases ht : t.window.past = []
      · rw [if_pos hr, if_pos ht]
        exact ⟨iff_of_true rfl fun hp => by simp [Parted, hr, ht] at hp, fun _ => h⟩
      · rw [if_pos hr, if_neg ht]
        have hparted : Parted r t := by simp [Parted, hwidth, hr, ht]
        exact ⟨iff_of_false (by rintro ⟨⟩) (not_not_intro hparted), fun hn => absurd hparted hn⟩
    · by_cases ht : t.window.past = []
      · rw [if_neg hr, if_pos ht]
        have hparted : Parted r t := by simp [Parted, hwidth, hr, ht]
        exact ⟨iff_of_false (by rintro ⟨⟩) (not_not_intro hparted), fun hn => absurd hparted hn⟩
      · rw [if_neg hr, if_neg ht]
        have hpast := h.past.resolve_right (by simp [hr, ht])
        have hmute : Mute (r.retreating width) (t.retreating width) :=
          (h.toTwin.retreat hpast width).mute rfl
        exact ⟨iff_of_true rfl fun hp => by simp [Parted, hr, ht] at hp, fun _ => hmute.level⟩

end Reader

end BufferedStream
