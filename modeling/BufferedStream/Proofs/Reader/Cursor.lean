import BufferedStream.Proofs.Reader.Operation
import BufferedStream.Proofs.Stack.Sound

/-!
# A reader as a cursor in a text

As far as operations on single bytes and runes go (`Reader.SmallOp`), a reader over a
source of finitely many bytes is a cursor in a text: the bytes to come, with the byte and
the rune that were read last (`Cursor`).  How the source cuts the text into chunks shows
in one thing alone: a byte can no longer be pushed back once it has *slid* out of the
block, which takes a peek that fills the buffer.

* `Cursor.step` — what an operation brings and where it moves the cursor.
* `Reader.Shows` — the reader stands where the cursor does.
* `Reader.Shows.perform` — every operation on the reader is one on the cursor.
-/

namespace BufferedStream

/-- Where a reader stands in a text. -/
structure Cursor where
  /-- How far the reader can look ahead. -/
  size : Nat
  /-- The bytes to come. -/
  coming : Bytes
  /-- The byte read last, if it can be pushed back. -/
  lastByte : Option UInt8 := none
  /-- The bytes of the rune read last, if it can be pushed back. -/
  lastRune : Option Bytes := none

namespace Reader

/-- An operation on single bytes or runes. -/
inductive SmallOp where
  | peek (n : Nat)
  | readByte
  | unreadByte
  | readRune
  | unreadRune

namespace SmallOp

/-- As an operation among all others. -/
def op : SmallOp → Op
  | .peek n => .peek n
  | .readByte => .readByte
  | .unreadByte => .unreadByte
  | .readRune => .readRune
  | .unreadRune => .unreadRune

/-- Whether the byte read last has slid out of the block after the operation, which has
filled the buffer just if it was `filled`. -/
def slides (filled slid : Bool) : SmallOp → Bool
  | .peek _ => slid || filled
  | .readByte | .readRune => false
  | .unreadByte | .unreadRune => slid

end SmallOp

end Reader

namespace Cursor

open Reader (SmallOp Outcome)

/-- What a peek at `n` bytes shows. -/
def glimpse (c : Cursor) (n : Nat) : Passage :=
  if c.size < n then ⟨[], some .bufferFull⟩
  else if n ≤ c.coming.length then ⟨c.coming.take n, none⟩
  else ⟨c.coming, some .eof⟩

/-- The byte that can be pushed back.  At the end of the text a new block is begun with it. -/
def backByte (slid : Bool) (c : Cursor) : Option UInt8 :=
  if slid = true ∧ c.coming ≠ [] then none else c.lastByte

/-- What an operation brings and where it moves the cursor.  `slid` tells whether the byte
read last has slid out of the block. -/
def step (slid : Bool) (c : Cursor) : SmallOp → Outcome × Cursor
  | .peek n => (.passage (c.glimpse n), { c with lastRune := none })
  | .readByte =>
    match c.coming with
    | [] => (.byte (.error .eof), { c with lastRune := none })
    | b :: rest =>
      (.byte (.ok b), { c with coming := rest, lastByte := some b, lastRune := none })
  | .unreadByte =>
    match c.backByte slid with
    | none =>
      (.pushed (.error .invalidUnreadByte), { c with lastByte := none, lastRune := none })
    | some b =>
      (.pushed (.ok ()), { c with coming := b :: c.coming, lastByte := none, lastRune := none })
  | .readRune =>
    if c.coming = [] then (.rune (.error .eof), { c with lastRune := none })
    else
      let (x, width) := Rune.decode c.coming
      let rune := c.coming.take width
      (.rune (.ok (x, width)),
        { c with coming := c.coming.drop width, lastByte := rune.getLast?, lastRune := some rune })
  | .unreadRune =>
    match c.lastRune with
    | none => (.pushed (.error .invalidUnreadRune), c)
    | some rune =>
      (.pushed (.ok ()), { c with coming := rune ++ c.coming, lastByte := none, lastRune := none })

theorem step_readByte_nil {c : Cursor} {slid : Bool} (h : c.coming = []) :
    c.step slid .readByte = (.byte (.error .eof), { c with lastRune := none }) := by
  rw [step, h]

theorem step_readByte_cons {c : Cursor} {slid : Bool} {b : UInt8} {rest : Bytes}
    (h : c.coming = b :: rest) :
    c.step slid .readByte =
      (.byte (.ok b), { c with coming := rest, lastByte := some b, lastRune := none }) := by
  rw [step, h]

theorem step_unreadByte_none {c : Cursor} {slid : Bool} (h : c.backByte slid = none) :
    c.step slid .unreadByte =
      (.pushed (.error .invalidUnreadByte), { c with lastByte := none, lastRune := none }) := by
  rw [step, h]

theorem step_unreadByte_some {c : Cursor} {slid : Bool} {b : UInt8}
    (h : c.backByte slid = some b) :
    c.step slid .unreadByte =
      (.pushed (.ok ()), { c with coming := b :: c.coming, lastByte := none, lastRune := none }) := by
  rw [step, h]

theorem step_readRune_nil {c : Cursor} {slid : Bool} (h : c.coming = []) :
    c.step slid .readRune = (.rune (.error .eof), { c with lastRune := none }) := by
  rw [step, if_pos h]

theorem step_readRune_of_ne_nil {c : Cursor} {slid : Bool} (h : c.coming ≠ []) :
    c.step slid .readRune =
      (.rune (.ok (Rune.decode c.coming)),
        { c with
          coming := c.coming.drop (Rune.decode c.coming).2,
          lastByte := (c.coming.take (Rune.decode c.coming).2).getLast?,
          lastRune := some (c.coming.take (Rune.decode c.coming).2) }) := by
  rw [step, if_neg h]

theorem step_unreadRune_none {c : Cursor} {slid : Bool} (h : c.lastRune = none) :
    c.step slid .unreadRune = (.pushed (.error .invalidUnreadRune), c) := by
  rw [step, h]

theorem step_unreadRune_some {c : Cursor} {slid : Bool} {rune : Bytes}
    (h : c.lastRune = some rune) :
    c.step slid .unreadRune =
      (.pushed (.ok ()), { c with coming := rune ++ c.coming, lastByte := none, lastRune := none }) := by
  rw [step, h]

end Cursor

namespace Reader

variable {σ : Type} [ByteSource σ] [Layer σ] {r r' r₁ : Reader σ} {ds : List Draw}
  {c : Cursor} {slid : Bool}

/-- The reader stands where the cursor does. -/
structure Shows (r : Reader σ) (c : Cursor) (slid : Bool) : Prop where
  sound : r.Sound
  size : r.size = c.size
  coming : r.remaining = c.coming
  lastByte : r.lastByte = c.lastByte
  lastRune : r.lastRune = c.lastRune.map List.length
  /-- As long as bytes are to come, the byte read last stands right before them, unless it
  has slid away; then they stand at the start of the block. -/
  byte_kept : ∀ b, c.lastByte = some b → c.coming ≠ [] →
    if slid then r.window.past = [] ∧ r.window.unread ≠ [] else r.window.past.head? = some b
  rune_kept : ∀ rune, c.lastRune = some rune → rune.reverse <+: r.window.past

namespace Shows

/-- A reader that can push nothing back shows what is to come. -/
theorem of_forgetful {coming : Bytes} (hsound : r.Sound) (hsize : r.size = c.size)
    (hcoming : r.remaining = coming) (hbyte : r.lastByte = none) (hrune : r.lastRune = none) :
    r.Shows { c with coming, lastByte := none, lastRune := none } slid where
  sound := hsound
  size := hsize
  coming := hcoming
  lastByte := hbyte
  lastRune := hrune
  byte_kept := by rintro b ⟨⟩
  rune_kept := by rintro rune ⟨⟩

/-- With no bytes to come, it does not matter whether the byte read last has slid away. -/
theorem of_end (hsound : r.Sound) (hsize : r.size = c.size) (hcoming : r.remaining = c.coming)
    (hbyte : r.lastByte = c.lastByte) (hrune : r.lastRune = none) (hend : c.coming = []) :
    r.Shows { c with lastRune := none } slid where
  sound := hsound
  size := hsize
  coming := hcoming
  lastByte := hbyte
  lastRune := hrune
  byte_kept _ _ hne := absurd hend hne
  rune_kept := by rintro rune ⟨⟩

/-- With something unread, bytes are to come. -/
theorem coming_ne_nil (h : r.Shows c slid) (hne : r.window.unread ≠ []) : c.coming ≠ [] := by
  rw [← h.coming]
  exact List.append_ne_nil_of_left_ne_nil hne _

/-- Once the end is latched, all the bytes to come are unread. -/
theorem unread_eq (h : r.Shows c slid) {e : Error} (he : r.fault = some e) :
    e = .eof ∧ r.window.unread = c.coming := by
  obtain ⟨rfl, hend⟩ := h.sound.fault_eq he
  refine ⟨rfl, ?_⟩
  rw [← h.coming, remaining, hend, List.append_nil]

/-- Calls on the source move no cursor, but what was read slides out of the block. -/
theorem pulled (h : r.Shows c slid) (hp : Pulled r ds r₁) (hroom : ds ≠ [] → r.buffered < r.size)
    (hds : ds ≠ []) (hrune : c.lastRune = none) : r₁.Shows c true := by
  obtain ⟨hsound, hremaining⟩ := hp.sound h.sound hroom
  refine
    { sound := hsound
      size := hp.size.trans h.size
      coming := hremaining.trans h.coming
      lastByte := hp.lastByte.trans h.lastByte
      lastRune := hp.lastRune.trans h.lastRune
      byte_kept := fun b _ hcoming => ?_
      rune_kept := by simp [hrune] }
  refine ⟨hp.past.resolve_left fun hno => hds hno.1, fun hunread => hcoming ?_⟩
  obtain ⟨e, he⟩ := Option.isSome_iff_exists.mp (hp.fault_isSome h.sound hroom hds hunread)
  rw [← h.coming, ← hremaining, remaining, hunread, (hsound.fault_eq he).2]
  rfl

theorem forgetRune (h : r.Shows c slid) :
    ({ r with lastRune := none } : Reader σ).Shows { c with lastRune := none } slid where
  sound := h.sound.forgetRune
  size := h.size
  coming := h.coming
  lastByte := h.lastByte
  lastRune := rfl
  byte_kept := h.byte_kept
  rune_kept := by rintro rune ⟨⟩

theorem cleared (h : r.Shows c slid) : r.cleared.Shows c slid where
  sound := h.sound.congr h.sound.wf.cleared rfl (.inl rfl)
  size := h.size
  coming := h.coming
  lastByte := h.lastByte
  lastRune := h.lastRune
  byte_kept := h.byte_kept
  rune_kept := h.rune_kept

end Shows

/-! ## Peeking -/

variable {sh : Shared}

namespace Shows

/-- **Looking ahead** moves no cursor. -/
theorem ensure (h : r.Shows c slid) (hrune : c.lastRune = none) {n : Nat} (hn : n ≤ r.size) :
    Act.Returns (r.ensure n) sh fun r₁ _ => ∃ ds, Calls r.source ds r₁.source ∧
      r₁.Shows c (slid || !ds.isEmpty) ∧ (n ≤ r₁.buffered ∨ r₁.fault.isSome = true) := by
  by_cases hstays : n ≤ r.buffered ∨ r.fault.isSome = true
  · rw [ensure_of_stays hstays]
    exact ⟨[], .nil _, by simpa using h, hstays⟩
  · refine (ensure_meets h.sound.wf hn).imp ?_
    rintro r₁ sh₁ ⟨ds, hp, hne, hends⟩
    have hds : ds ≠ [] := by
      rintro rfl
      have hunread : r₁.window.unread = r.window.unread := by simpa using hp.unread
      rw [buffered, hunread, hp.fault_eq] at hends
      exact hstays hends
    have hroom : ds ≠ [] → r.buffered < r.size := fun hds => Nat.lt_of_lt_of_le (hne hds) hn
    have hslid : (slid || !ds.isEmpty) = true := by simp [hds]
    exact ⟨ds, hp.calls, hslid ▸ h.pulled hp hroom hds hrune, hends⟩

end Shows

/-- The operation has brought what it brings at the cursor and has moved both alike, and what
slid away depends on whether it made calls. -/
def Mirrors (r : Reader σ) (c : Cursor) (slid : Bool) (op : SmallOp) (outcome : Outcome)
    (r' : Reader σ) : Prop :=
  ∃ ds, Calls r.source ds r'.source ∧ outcome = (c.step slid op).1 ∧
    r'.Shows (c.step slid op).2 (op.slides (!ds.isEmpty) slid)

namespace Shows

/-- Enough is unread for the glimpse. -/
theorem glimpse_of_le (h : r.Shows c slid) {n : Nat} (hn : n ≤ r.size) (hle : n ≤ r.buffered) :
    c.glimpse n = ⟨r.window.unread.take n, none⟩ := by
  have hcoming : c.coming = r.window.unread ++ Layer.remaining r.source := h.coming.symm
  have hlength : n ≤ c.coming.length := by
    rw [hcoming, List.length_append]
    exact Nat.le_trans hle (Nat.le_add_right ..)
  rw [Cursor.glimpse, if_neg (h.size ▸ Nat.not_lt.mpr hn), if_pos hlength, hcoming,
    List.take_append_of_le_length hle]

/-- The text ends before there is enough for the glimpse. -/
theorem glimpse_of_lt (h : r.Shows c slid) {n : Nat} (hn : n ≤ r.size) (hlt : r.buffered < n)
    {e : Error} (he : r.fault = some e) : c.glimpse n = ⟨r.window.unread, some e⟩ := by
  obtain ⟨rfl, hunread⟩ := h.unread_eq he
  have hlength : ¬ n ≤ c.coming.length := by
    rw [← hunread]
    exact Nat.not_le.mpr hlt
  rw [Cursor.glimpse, if_neg (h.size ▸ Nat.not_lt.mpr hn), if_neg hlength, hunread]

theorem peek (h : r.Shows c slid) (n : Nat) :
    Act.Returns (r.peek n) sh fun (p, r') _ => r.Mirrors c slid (.peek n) (.passage p) r' := by
  -- `peek_meets` does not tell when calls were needed, which decides what slides away
  unfold Reader.peek
  dsimp only
  split
  · rename_i hsize
    have hglimpse : c.glimpse n = ⟨[], some .bufferFull⟩ := if_pos (h.size ▸ hsize)
    refine ⟨[], .nil _, congrArg Outcome.passage hglimpse.symm, ?_⟩
    show Shows _ { c with lastRune := none } (slid || false)
    rw [Bool.or_false]
    exact h.forgetRune
  · rename_i hsize
    have hn : n ≤ r.size := Nat.le_of_not_lt hsize
    refine Act.meets_bind.mpr ((h.forgetRune.ensure rfl hn).imp ?_)
    rintro r₁ sh₁ ⟨ds, hcalls, h₁, hends⟩
    have hn₁ : n ≤ r₁.size := (h₁.size.trans h.size.symm) ▸ hn
    have hshort : (r₁.window.unread.take n).length < n ↔ r₁.buffered < n := by
      rw [List.length_take, buffered]
      omega
    split
    · rename_i hlt
      have hlt := hshort.mp hlt
      obtain ⟨e, he⟩ := Option.isSome_iff_exists.mp (hends.resolve_left (Nat.not_le.mpr hlt))
      rw [Act.meets_pure, he, List.take_of_length_le (Nat.le_of_lt hlt)]
      exact ⟨ds, hcalls, congrArg Outcome.passage (h₁.glimpse_of_lt hn₁ hlt he).symm, h₁.cleared⟩
    · rename_i hlt
      have hle := Nat.le_of_not_lt (mt hshort.mpr hlt)
      exact ⟨ds, hcalls, congrArg Outcome.passage (h₁.glimpse_of_le hn₁ hle).symm, h₁⟩

end Shows

/-! ## Reading -/

/-- What a rune is decoded from holds all of it. -/
theorem Sound.decode_remaining (h : r.Sound)
    (hends : Rune.maxWidth ≤ r.buffered ∨ Rune.isSettled r.window.unread = true ∨
      r.fault.isSome = true) : Rune.decode r.remaining = Rune.decode r.window.unread := by
  rcases hends with hlong | hsettled | hsome
  · exact Rune.decode_append (Rune.isSettled_of_maxWidth_le hlong) _
  · exact Rune.decode_append hsettled _
  · obtain ⟨e, he⟩ := Option.isSome_iff_exists.mp hsome
    rw [remaining, (h.fault_eq he).2, List.append_nil]

/-- Past a rune, the bytes of the rune stand right before those to come. -/
theorem Sound.shows_deliveringRune (h : r.Sound) (hsize : r.size = c.size)
    (hcoming : r.remaining = c.coming) {width : Nat} (hpos : 0 < width) (hle : width ≤ r.buffered) :
    (r.deliveringRune width).Shows
      { c with
        coming := c.coming.drop width,
        lastByte := (c.coming.take width).getLast?,
        lastRune := some (c.coming.take width) } false := by
  have htake : r.window.unread.take width = c.coming.take width := by
    rw [← hcoming, remaining, List.take_append_of_le_length hle]
  have hpast : (r.deliveringRune width).window.past =
      (c.coming.take width).reverse ++ r.window.past := by
    rw [← htake]
    rfl
  have hlength : (c.coming.take width).length = width := by
    rw [← htake, List.length_take_of_le hle]
  have hlast : (r.deliveringRune width).window.past.head? = (c.coming.take width).getLast? := by
    have hne : (c.coming.take width).reverse ≠ [] := by
      rw [List.reverse_ne_nil_iff]
      exact List.ne_nil_of_length_pos (hlength.symm ▸ hpos)
    obtain ⟨b, rest, hrest⟩ := List.exists_cons_of_ne_nil hne
    rw [hpast, ← List.head?_reverse, hrest]
    rfl
  exact
    { sound := h.congr (h.wf.advance _ _ _) rfl (.inr rfl)
      size := hsize
      coming := by
        rw [← hcoming, remaining, remaining, List.drop_append_of_le_length hle]
        rfl
      lastByte := hlast
      lastRune := congrArg some hlength.symm
      byte_kept := fun b hb _ => hlast.trans hb
      rune_kept := by
        rintro rune ⟨⟩
        exact ⟨r.window.past, hpast.symm⟩ }

namespace Shows

/-- Nothing came, so the text has ended. -/
theorem dry (h : r.Shows c slid) (hp : Pulled { r with lastRune := none } ds r₁)
    (hroom : ds ≠ [] → r.buffered < r.size) (hunread : r₁.window.unread = []) {e : Error}
    (hfault : r₁.fault = some e) {r₂ : Reader σ} (hs : r₁.Settles r₂) :
    e = .eof ∧ c.coming = [] ∧ r₂.cleared.Shows { c with lastRune := none } false := by
  obtain ⟨hsound, hremaining⟩ := hp.sound h.sound.forgetRune hroom
  have hcoming : r₁.remaining = c.coming := hremaining.trans h.coming
  obtain ⟨rfl, hgone⟩ := hsound.fault_eq hfault
  have hend : c.coming = [] := by
    rw [← hcoming, remaining, hunread, hgone]
    rfl
  have hsettled : r₂.remaining = r₁.remaining := by
    rw [remaining, remaining, hs.unread_eq, hs.source_eq]
  refine ⟨rfl, hend, of_end ?_ ?_ (hsettled.trans hcoming) ?_ ?_ hend⟩
  · exact hsound.congr (hs.wf hp.wf).cleared hs.source_eq (.inl rfl)
  · exact hs.size_eq.trans (hp.size.trans h.size)
  · exact hs.lastByte_eq.trans (hp.lastByte.trans h.lastByte)
  · exact hs.lastRune_eq.trans hp.lastRune

theorem readByte (h : r.Shows c slid) :
    Act.Returns r.readByte sh fun (b, r') _ => r.Mirrors c slid .readByte (.byte b) r' := by
  refine (readByte_meets h.sound.wf).imp ?_
  rintro ⟨b, r'⟩ sh' ⟨ds, hr⟩
  have hwf := hr.wf
  refine ⟨ds, hr.calls, ?_⟩
  cases hr with
  | @got r₁ _ b rest hp hroom hunread hs =>
    obtain ⟨hsound, hremaining⟩ := hp.sound h.sound.forgetRune (h.sound.room_of_unread hroom)
    have hcoming : c.coming = b :: (rest ++ Layer.remaining r₁.source) := by
      rw [← h.coming, ← show r₁.remaining = r.remaining from hremaining, remaining, hunread]
      rfl
    have hrest : (r₁.delivering 1).window.unread = rest := by
      simp [delivering, Window.advance, hunread]
    rw [Cursor.step_readByte_cons hcoming]
    refine ⟨rfl, ?_⟩
    exact
      { sound := hsound.congr hwf hs.source_eq (.inr hs.fault_eq)
        size := hs.size_eq.trans (hp.size.trans h.size)
        coming := by rw [remaining, hs.unread_eq, hrest, hs.source_eq]; rfl
        lastByte := hs.lastByte_eq.trans (by simp [delivering, hunread])
        lastRune := hs.lastRune_eq
        byte_kept := fun x hx hne => by
          cases hs with
          | keeps =>
            show ((r₁.window.unread.take 1).reverse ++ r₁.window.past).head? = some x
            rw [hunread]
            exact hx
          | returns hnone heof =>
            refine absurd (List.append_eq_nil_iff.mpr ⟨?_, (hsound.fault_eq heof).2⟩) hne
            exact hrest.symm.trans hnone
        rune_kept := by rintro rune ⟨⟩ }
  | @failed r₁ _ e hp hroom hunread hfault hs =>
    obtain ⟨rfl, hend, hshows⟩ := h.dry hp (h.sound.room_of_unread hroom) hunread hfault hs
    rw [Cursor.step_readByte_nil hend]
    exact ⟨rfl, hshows⟩

theorem readRune (h : r.Shows c slid) :
    Act.Returns r.readRune sh fun (x, r') _ => r.Mirrors c slid .readRune (.rune x) r' := by
  refine (readRune_meets h.sound.wf).imp ?_
  rintro ⟨x, r'⟩ sh' ⟨ds, hr⟩
  have hwf := hr.wf
  refine ⟨ds, hr.calls, ?_⟩
  cases hr with
  | @got r₁ hp hroom hne hends =>
    obtain ⟨hsound, hremaining⟩ := hp.sound h.sound hroom
    have hcoming : r₁.remaining = c.coming := hremaining.trans h.coming
    obtain ⟨hpos, hle⟩ := Rune.width_decode hne
    have hdecode := hsound.decode_remaining hends
    rw [hcoming] at hdecode
    rw [← hdecode] at hpos hle ⊢
    have hne : c.coming ≠ [] := hcoming ▸ List.append_ne_nil_of_left_ne_nil hne _
    rw [Cursor.step_readRune_of_ne_nil hne]
    exact ⟨rfl, hsound.shows_deliveringRune (hp.size.trans h.size) hcoming hpos hle⟩
  | @failed r₁ r₂ e hp hroom hunread hfault hs =>
    obtain ⟨rfl, hend, hshows⟩ := h.dry hp.forgetRune hroom hunread hfault hs
    rw [Cursor.step_readRune_nil hend]
    exact ⟨rfl, hshows⟩

end Shows

/-! ## Pushing back -/

namespace Shows

theorem unreadByte (h : r.Shows c slid) :
    Act.Returns r.unreadByte sh fun (u, r') _ => r.Mirrors c slid .unreadByte (.pushed u) r' := by
  refine (unreadByte_meets r).imp ?_
  rintro ⟨u, r'⟩ sh' hu
  have hwf := hu.wf h.sound.wf
  refine ⟨[], hu.source_eq ▸ .nil _, ?_⟩
  have hbyte := h.lastByte
  have hcoming : c.coming = r.window.unread ++ Layer.remaining r.source := h.coming.symm
  cases hu with
  | nothing hnone =>
    have hback : c.backByte slid = none := by
      rw [Cursor.backByte, ← hbyte, hnone, ite_self]
    rw [Cursor.step_unreadByte_none hback]
    exact ⟨rfl, of_forgetful (h.sound.congr hwf rfl (.inr rfl)) h.size h.coming rfl rfl⟩
  | @restarted b length spare hb hunread =>
    -- a byte that has slid away has unread bytes behind it
    have hstays : ¬ (slid = true ∧ c.coming ≠ []) := by
      rintro ⟨hslid, hne⟩
      have hkept := h.byte_kept b (hbyte ▸ hb) hne
      rw [if_pos hslid] at hkept
      exact hkept.2 hunread
    have hback : c.backByte slid = some b := by
      rw [Cursor.backByte, if_neg hstays, ← hbyte, hb]
    rw [Cursor.step_unreadByte_some hback]
    refine ⟨rfl, of_forgetful (h.sound.congr hwf rfl (.inr rfl)) h.size ?_ rfl rfl⟩
    rw [hcoming, hunread]
    rfl
  | @stuck b hb hne hpast =>
    have hkept := h.byte_kept b (hbyte ▸ hb) (h.coming_ne_nil hne)
    have hslid : slid = true := Decidable.by_contra fun hslid => by
      rw [if_neg hslid, hpast] at hkept
      cases hkept
    have hback : c.backByte slid = none := if_pos ⟨hslid, h.coming_ne_nil hne⟩
    rw [Cursor.step_unreadByte_none hback]
    exact ⟨rfl, of_forgetful (h.sound.congr hwf rfl (.inr rfl)) h.size h.coming rfl rfl⟩
  | @moved b hb hne hpast =>
    have hkept := h.byte_kept b (hbyte ▸ hb) (h.coming_ne_nil hne)
    have hslid : ¬ slid = true := fun hslid => by
      rw [if_pos hslid] at hkept
      exact hpast hkept.1
    have hback : c.backByte slid = some b := by
      rw [Cursor.backByte, if_neg fun hs => hslid hs.1, ← hbyte, hb]
    rw [if_neg hslid] at hkept
    obtain ⟨rest, hrest⟩ := List.head?_eq_some_iff.mp hkept
    rw [Cursor.step_unreadByte_some hback]
    refine ⟨rfl, of_forgetful (h.sound.congr hwf rfl (.inr rfl)) h.size ?_ rfl rfl⟩
    rw [hcoming, remaining, retreating, Window.retreat, hrest]
    rfl

theorem unreadRune (h : r.Shows c slid) :
    r.Mirrors c slid .unreadRune (.pushed r.unreadRune.1) r.unreadRune.2 := by
  have hu := r.unreadRune_does
  have hwf := hu.wf h.sound.wf
  refine ⟨[], hu.source_eq ▸ .nil _, ?_⟩
  have hrune := h.lastRune
  generalize r.unreadRune = x at hu hwf
  obtain ⟨u, r'⟩ := x
  cases hc : c.lastRune with
  | none =>
    rw [Cursor.step_unreadRune_none hc]
    rw [hc] at hrune
    cases hu with
    | moved hwidth =>
      rw [hrune] at hwidth
      cases hwidth
    | refused => exact ⟨rfl, h⟩
  | some rune =>
    rw [Cursor.step_unreadRune_some hc]
    rw [hc, Option.map_some] at hrune
    obtain ⟨rest, hrest⟩ := h.rune_kept rune hc
    cases hu with
    | @moved width hwidth hle =>
      obtain rfl : width = rune.length := Option.some.inj (hwidth.symm.trans hrune)
      refine ⟨rfl, of_forgetful (h.sound.congr hwf rfl (.inr rfl)) h.size ?_ rfl rfl⟩
      rw [← h.coming]
      simp [remaining, Window.retreat, ← hrest]
    | refused hshort =>
      have hlt := hshort rune.length hrune
      rw [← hrest, List.length_append, List.length_reverse] at hlt
      omega

/-- **Every small operation is one on the cursor.** -/
theorem perform (h : r.Shows c slid) (op : SmallOp) (sh : Shared) :
    Act.Returns (perform op.op r) sh fun (outcome, r') _ => r.Mirrors c slid op outcome r' := by
  cases op with
  | peek n => exact Act.meets_bind.mpr (h.peek n)
  | readByte => exact Act.meets_bind.mpr h.readByte
  | unreadByte => exact Act.meets_bind.mpr h.unreadByte
  | readRune => exact Act.meets_bind.mpr h.readRune
  | unreadRune => exact h.unreadRune

/-- A reader that has read nothing yet shows the start of the text. -/
theorem start {s : σ} (hs : Layer.Sound s) (size : Nat) (pool : PoolId) :
    (withCapacity s size pool).Shows
      { size := max size minReadBufferSize, coming := Layer.remaining s } false :=
  of_forgetful (c := ⟨max size minReadBufferSize, [], none, none⟩)
    (sound_withCapacity hs size pool) rfl rfl rfl rfl

end Shows

end Reader

end BufferedStream
