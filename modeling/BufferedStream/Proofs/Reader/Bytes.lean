import BufferedStream.Proofs.Reader.Pull

/-!
# What the operations on bytes do

For each operation there is a relation between the reader before, the calls made
on its source, the result and the reader after, with one constructor for each
way the operation can go; and a theorem that the operation, over an honest
source, goes one of these ways.

* `Reader.peek_meets`, `Reader.read_meets`, `Reader.readByte_meets`,
  `Reader.unreadByte_meets`.
* `Reader.delivering` — the move that hands out unread bytes, common to all of
  them.
-/

namespace BufferedStream

namespace Reader

variable {σ : Type}

/-! ## Moves that make no call -/

/-- The reader with its next `n` bytes handed out. -/
def delivering (n : Nat) (r : Reader σ) : Reader σ :=
  { r with
    window := r.window.advance n, lastByte := (r.window.unread.take n).getLast?,
    lastRune := none }

/-- The reader with the byte `b` pushed back onto an empty buffer. -/
def restarted (b : UInt8) (length : Nat) (spare : Bytes) (r : Reader σ) : Reader σ :=
  { r with
    window := { unread := [b], spare }, held := some length, lastByte := none, lastRune := none }

/-- The reader moved back by `n` bytes, with no byte left to push back. -/
def retreating (n : Nat) (r : Reader σ) : Reader σ :=
  { r with window := r.window.retreat n, lastByte := none, lastRune := none }

namespace Settles

variable {r r' : Reader σ}

theorem source_eq (h : r.Settles r') : r'.source = r.source := by cases h <;> rfl

theorem fault_eq (h : r.Settles r') : r'.fault = r.fault := by cases h <;> rfl

theorem size_eq (h : r.Settles r') : r'.size = r.size := by cases h <;> rfl

theorem lastByte_eq (h : r.Settles r') : r'.lastByte = r.lastByte := by cases h <;> rfl

theorem lastRune_eq (h : r.Settles r') : r'.lastRune = r.lastRune := by cases h <;> rfl

theorem unread_eq (h : r.Settles r') : r'.window.unread = r.window.unread := by
  cases h with
  | keeps => rfl
  | returns hunread => rw [hunread]; rfl

theorem past_eq (h : r.Settles r') :
    r'.window.past = r.window.past ∨ r'.window.past = [] := by
  cases h with
  | keeps => exact .inl rfl
  | returns => exact .inr rfl

theorem wf (h : r.Settles r') (hr : r.WF) : r'.WF := by
  cases h with
  | keeps => exact hr
  | returns => exact ⟨hr.size_ge, Nat.zero_le _, fun _ => rfl, fun _ => rfl⟩

end Settles

theorem WF.cleared {r : Reader σ} (h : r.WF) : r.cleared.WF := ⟨h.1, h.2, h.3, h.4⟩

theorem WF.forgetRune {r : Reader σ} (h : r.WF) : ({ r with lastRune := none } : Reader σ).WF :=
  ⟨h.1, h.2, h.3, h.4⟩

/-- What is pulled does not depend on the rune read last. -/
theorem Pulled.forgetRune [ByteSource σ] {r r₁ : Reader σ} {ds : List Draw}
    (hp : r.Pulled ds r₁) : Pulled { r with lastRune := none } ds { r₁ with lastRune := none } :=
  { hp with wf := hp.wf.forgetRune, lastRune := rfl }

theorem WF.advance {r : Reader σ} (h : r.WF) (n : Nat) (lastByte : Option UInt8)
    (lastRune : Option Nat) :
    ({ r with window := r.window.advance n, lastByte, lastRune } : Reader σ).WF where
  size_ge := h.size_ge
  fits := by
    have := h.fits
    simp only [Window.advance, List.length_append, List.length_reverse, List.length_take,
      List.length_drop]
    omega
  past_of_held hheld := by
    simp [Window.advance, h.past_of_held hheld, h.unread_of_held hheld]
  unread_of_held hheld := by
    simp [Window.advance, h.unread_of_held hheld]

theorem WF.retreating {r : Reader σ} (h : r.WF) (n : Nat) : (r.retreating n).WF where
  size_ge := h.size_ge
  fits := by
    have := h.fits
    simp only [Reader.retreating, Window.retreat, List.length_append, List.length_reverse,
      List.length_take, List.length_drop]
    omega
  past_of_held hheld := by
    simp [Reader.retreating, Window.retreat, h.past_of_held hheld]
  unread_of_held hheld := by
    simp [Reader.retreating, Window.retreat, h.past_of_held hheld, h.unread_of_held hheld]

theorem WF.delivering {r : Reader σ} (h : r.WF) (n : Nat) : (r.delivering n).WF :=
  h.advance n _ _

/-! ## Peeking -/

variable [ByteSource σ] {H : Halt → Prop} {sh : Shared}

/-- The ways of peeking at `n` bytes. -/
inductive Peeks (n : Nat) (r : Reader σ) : List Draw → Passage → Reader σ → Prop
  /-- There can never be so many unread. -/
  | tooLarge (h : r.size < n) : Peeks n r [] ⟨[], some .bufferFull⟩ { r with lastRune := none }
  | seen {ds : List Draw} {r₁ : Reader σ} (hp : Pulled { r with lastRune := none } ds r₁)
      (hroom : ds ≠ [] → r.buffered < r.size) (h : n ≤ r₁.buffered) :
      Peeks n r ds ⟨r₁.window.unread.take n, none⟩ r₁
  /-- An error came first; it is reported with the bytes that there are. -/
  | short {ds : List Draw} {r₁ : Reader σ} {e : Error}
      (hp : Pulled { r with lastRune := none } ds r₁)
      (hroom : ds ≠ [] → r.buffered < r.size) (h : r₁.buffered < n) (hfault : r₁.fault = some e) :
      Peeks n r ds ⟨r₁.window.unread, some e⟩ r₁.cleared

theorem peek_meets [HonestSource H σ] {r : Reader σ} (h : r.WF) (n : Nat) :
    Act.Meets H (r.peek n) sh fun (p, r') _ => ∃ ds, r.Peeks n ds p r' := by
  unfold peek
  dsimp only
  split
  · rename_i hsize
    exact ⟨[], .tooLarge hsize⟩
  · rename_i hsize
    have hn : n ≤ r.size := Nat.le_of_not_lt hsize
    refine Act.meets_bind.mpr ((ensure_meets h.forgetRune hn).imp ?_)
    rintro r₁ sh₁ ⟨ds, hp, hne, hends⟩
    have hroom : ds ≠ [] → r.buffered < r.size := fun hds => Nat.lt_of_lt_of_le (hne hds) hn
    have hlen : (r₁.window.unread.take n).length < n ↔ r₁.buffered < n := by
      rw [List.length_take, buffered]
      omega
    split
    · rename_i hshort
      have hlt := hlen.mp hshort
      obtain ⟨e, he⟩ := Option.isSome_iff_exists.mp (hends.resolve_left (by omega))
      rw [Act.meets_pure, he, List.take_of_length_le (Nat.le_of_lt hlt)]
      exact ⟨ds, .short hp hroom hlt he⟩
    · rename_i hshort
      exact ⟨ds, .seen hp hroom (Nat.le_of_not_lt (mt hlen.mpr hshort))⟩

theorem Peeks.wf {n : Nat} {r r' : Reader σ} {ds : List Draw} {p : Passage}
    (hp : r.Peeks n ds p r') (h : r.WF) : r'.WF := by
  cases hp with
  | tooLarge => exact h.forgetRune
  | seen hp => exact hp.wf
  | short hp => exact hp.wf.cleared

theorem Peeks.calls {n : Nat} {r r' : Reader σ} {ds : List Draw} {p : Passage}
    (hp : r.Peeks n ds p r') : Calls r.source ds r'.source := by
  cases hp with
  | tooLarge => exact .nil _
  | seen hp => exact hp.calls
  | short hp => exact hp.calls

/-! ## Reading into a room -/

/-- The ways of reading into a room, with at most one call on the source. -/
inductive ReadsInto (room : Room) (r : Reader σ) : List Draw → Reading → Reader σ → Prop
  /-- Without room only the latched error is handed out. -/
  | nothing (h : room.size = 0) : ReadsInto room r [] (.ofBytes [] r.fault) r.cleared
  /-- The room is offered to the source itself. -/
  | through {g : Reading} {s : σ} (h : 0 < room.size) (hunread : r.window.unread = [])
      (hfault : r.fault = none) (hsize : r.size ≤ room.size)
      (hreads : ByteSource.Reads r.source room.size g s) (hcount : g.count = g.data.length) :
      ReadsInto room r [⟨room.size, g⟩] g
        (if g.count = 0 then { r with source := s }
          else { r with source := s, lastByte := g.data.getLast?, lastRune := none })
  | delivered {ds : List Draw} {r₁ r₂ : Reader σ} (h : 0 < room.size) (hp : r.Pulled ds r₁)
      (hroom : ds ≠ [] → r.window.unread = []) (hne : r₁.window.unread ≠ [])
      (hs : (r₁.delivering room.size).Settles r₂) (hone : ds.length ≤ 1) :
      ReadsInto room r ds (.ofBytes (r₁.window.unread.take room.size) none) r₂
  /-- Nothing came; the latched error is handed out, if there is one. -/
  | dry {ds : List Draw} {r₁ r₂ : Reader σ} (h : 0 < room.size) (hp : r.Pulled ds r₁)
      (hroom : ds ≠ [] → r.window.unread = []) (hunread : r₁.window.unread = [])
      (hs : r₁.Settles r₂) (hends : ds = [] → r₁.fault.isSome = true) (hone : ds.length ≤ 1) :
      ReadsInto room r ds (.ofBytes [] r₁.fault) r₂.cleared

omit [ByteSource σ] in
theorem deliver_meets (r : Reader σ) (n : Nat) :
    Act.Meets H (r.deliver n) sh fun (g, r') _ =>
      g = .ofBytes (r.window.unread.take n) none ∧ (r.delivering n).Settles r' := by
  refine Act.meets_bind.mpr ((settle_meets _).imp ?_)
  intro r' sh' hs
  exact ⟨rfl, hs⟩

theorem deliverOrReport_meets {room : Room} {r r₁ : Reader σ} {ds : List Draw}
    (h : 0 < room.size) (hp : r.Pulled ds r₁) (hroom : ds ≠ [] → r.window.unread = [])
    (hends : ds = [] → r₁.window.unread ≠ [] ∨ r₁.fault.isSome = true) (hone : ds.length ≤ 1) :
    Act.Meets H (r₁.deliverOrReport room.size) sh fun (g, r') _ =>
      ∃ ds, r.ReadsInto room ds g r' := by
  unfold deliverOrReport
  split
  · rename_i hne
    refine (deliver_meets r₁ room.size).imp ?_
    rintro ⟨g, r'⟩ sh' ⟨rfl, hs⟩
    exact ⟨ds, .delivered h hp hroom hne hs hone⟩
  · rename_i hne
    have hunread := Decidable.of_not_not hne
    refine Act.meets_bind.mpr ((settle_meets r₁).imp ?_)
    intro r' sh' hs
    rw [Act.meets_pure, hs.fault_eq]
    exact ⟨ds, .dry h hp hroom hunread hs (fun hds => (hends hds).resolve_left hne) hone⟩

theorem readThrough_meets [HonestSource H σ] {room : Room} {r : Reader σ} (h : 0 < room.size)
    (hunread : r.window.unread = []) (hfault : r.fault = none) (hsize : r.size ≤ room.size) :
    Act.Meets H (r.readThrough room) sh fun (g, r') _ => ∃ ds, r.ReadsInto room ds g r' := by
  refine Act.meets_bind.mpr ((draw_meets room r).imp ?_)
  rintro ⟨g, r₁⟩ sh₁ ⟨s, hreads, hcount, -, rfl⟩
  have hthrough := ReadsInto.through h hunread hfault hsize hreads hcount
  dsimp only
  split
  · rename_i h0
    rw [if_pos h0] at hthrough
    exact ⟨_, hthrough⟩
  · rename_i h0
    rw [if_neg h0] at hthrough
    rw [Act.meets_pure, Grant.bytesIn_eq_data hcount]
    exact ⟨_, hthrough⟩

theorem read_meets [HonestSource H σ] {r : Reader σ} (h : r.WF) (room : Room) :
    Act.Meets H (r.read room) sh fun (g, r') _ => ∃ ds, r.ReadsInto room ds g r' := by
  unfold read
  dsimp only
  split
  · rename_i h0
    exact ⟨[], .nothing h0⟩
  · rename_i h0
    have hpos : 0 < room.size := Nat.pos_of_ne_zero h0
    split
    · rename_i hlatched
      simp only [Bool.or_eq_true, decide_eq_true_eq] at hlatched
      exact deliverOrReport_meets hpos (.refl h) (by simp) (fun _ => hlatched) (Nat.zero_le _)
    · rename_i hlatched
      simp only [Bool.or_eq_true, decide_eq_true_eq, not_or, Decidable.not_not,
        Option.not_isSome_iff_eq_none] at hlatched
      obtain ⟨hunread, hfault⟩ := hlatched
      split
      · rename_i hsize
        exact readThrough_meets hpos hunread hfault hsize
      · refine Act.meets_bind.mpr ((readOnce_meets h hunread hfault).imp ?_)
        rintro r₁ sh₁ ⟨g, hp⟩
        exact deliverOrReport_meets hpos hp (fun _ => hunread) (by simp) (Nat.le_refl 1)

theorem ReadsInto.wf {room : Room} {r r' : Reader σ} {ds : List Draw} {g : Reading}
    (hr : r.ReadsInto room ds g r') (h : r.WF) : r'.WF := by
  cases hr with
  | nothing => exact h.cleared
  | through => split <;> exact ⟨h.1, h.2, h.3, h.4⟩
  | delivered _ hp _ _ hs => exact hs.wf (hp.wf.delivering _)
  | dry _ hp _ _ hs => exact (hs.wf hp.wf).cleared

theorem ReadsInto.calls {room : Room} {r r' : Reader σ} {ds : List Draw} {g : Reading}
    (hr : r.ReadsInto room ds g r') : Calls r.source ds r'.source := by
  cases hr with
  | nothing => exact .nil _
  | through _ _ _ _ hreads => split <;> exact .single hreads
  | delivered _ hp _ _ hs => exact hs.source_eq ▸ hp.calls
  | dry _ hp _ _ hs => exact hs.source_eq ▸ hp.calls

/-! ## One byte -/

/-- The ways of reading a byte. -/
inductive ReadsByte (r : Reader σ) : List Draw → Except Error UInt8 → Reader σ → Prop
  | got {ds : List Draw} {r₁ r₂ : Reader σ} {b : UInt8} {rest : Bytes}
      (hp : Pulled { r with lastRune := none } ds r₁) (hroom : ds ≠ [] → r.window.unread = [])
      (hunread : r₁.window.unread = b :: rest) (hs : (r₁.delivering 1).Settles r₂) :
      ReadsByte r ds (.ok b) r₂
  | failed {ds : List Draw} {r₁ r₂ : Reader σ} {e : Error}
      (hp : Pulled { r with lastRune := none } ds r₁) (hroom : ds ≠ [] → r.window.unread = [])
      (hunread : r₁.window.unread = []) (hfault : r₁.fault = some e) (hs : r₁.Settles r₂) :
      ReadsByte r ds (.error e) r₂.cleared

theorem readByte_meets [HonestSource H σ] {r : Reader σ} (h : r.WF) :
    Act.Meets H r.readByte sh fun (b, r') _ => ∃ ds, r.ReadsByte ds b r' := by
  refine Act.meets_bind.mpr ((ensure_meets h.forgetRune h.size_pos).imp ?_)
  rintro r₁ sh₁ ⟨ds, hp, hne, hends⟩
  have hroom : ds ≠ [] → r.window.unread = [] := fun hds =>
    List.eq_nil_of_length_eq_zero (Nat.lt_one_iff.mp (hne hds))
  unfold takeByte
  split
  · rename_i b rest hunread
    have hrune : r₁.lastRune = none := hp.lastRune
    have heq : { r₁ with window := r₁.window.advance 1, lastByte := some b } =
        r₁.delivering 1 := by
      simp [delivering, hunread, hrune]
    rw [heq]
    refine Act.meets_bind.mpr ((settle_meets _).imp ?_)
    intro r' sh' hs
    exact ⟨ds, .got hp hroom hunread hs⟩
  · rename_i hunread
    have h0 : r₁.buffered = 0 := by simp [buffered, hunread]
    obtain ⟨e, he⟩ := Option.isSome_iff_exists.mp (hends.resolve_left (by omega))
    refine Act.meets_bind.mpr ((settle_meets r₁).imp ?_)
    intro r' sh' hs
    rw [hs.fault_eq, he]
    exact ⟨ds, .failed hp hroom hunread he hs⟩

theorem ReadsByte.wf {r r' : Reader σ} {ds : List Draw} {b : Except Error UInt8}
    (hr : r.ReadsByte ds b r') : r'.WF := by
  cases hr with
  | got hp _ _ hs => exact hs.wf (hp.wf.delivering 1)
  | failed hp _ _ _ hs => exact (hs.wf hp.wf).cleared

theorem ReadsByte.calls {r r' : Reader σ} {ds : List Draw} {b : Except Error UInt8}
    (hr : r.ReadsByte ds b r') : Calls r.source ds r'.source := by
  cases hr with
  | got hp _ _ hs => exact hs.source_eq ▸ hp.calls
  | failed hp _ _ _ hs => exact hs.source_eq ▸ hp.calls

/-- The ways of pushing a byte back. -/
inductive UnreadsByte (r : Reader σ) : Except Error Unit → Reader σ → Prop
  | nothing (h : r.lastByte = none) :
      UnreadsByte r (.error .invalidUnreadByte) { r with lastByte := none, lastRune := none }
  | restarted {b : UInt8} {length : Nat} {spare : Bytes} (h : r.lastByte = some b)
      (hunread : r.window.unread = []) : UnreadsByte r (.ok ()) (r.restarted b length spare)
  /-- What is unread stands at the start of the block. -/
  | stuck {b : UInt8} (h : r.lastByte = some b) (hne : r.window.unread ≠ [])
      (hpast : r.window.past = []) :
      UnreadsByte r (.error .invalidUnreadByte) { r with lastByte := none, lastRune := none }
  | moved {b : UInt8} (h : r.lastByte = some b) (hne : r.window.unread ≠ [])
      (hpast : r.window.past ≠ []) : UnreadsByte r (.ok ()) (r.retreating 1)

omit [ByteSource σ] in
theorem unreadByte_meets (r : Reader σ) :
    Act.Meets H r.unreadByte sh fun (u, r') _ => r.UnreadsByte u r' := by
  unfold unreadByte
  dsimp only
  split
  · rename_i h
    exact .nothing h
  · rename_i b h
    split
    · rename_i hunread
      refine Act.meets_bind.mpr ((acquire_meets _).imp ?_)
      rintro r' sh' ⟨length, spare, rfl⟩
      exact .restarted h hunread
    · rename_i hne
      split
      · rename_i hpast
        exact .stuck h hne hpast
      · rename_i hpast
        exact .moved h hne hpast

omit [ByteSource σ] in
theorem UnreadsByte.source_eq {r r' : Reader σ} {u : Except Error Unit}
    (hu : r.UnreadsByte u r') : r'.source = r.source := by
  cases hu <;> rfl

omit [ByteSource σ] in
theorem UnreadsByte.wf {r r' : Reader σ} {u : Except Error Unit} (hu : r.UnreadsByte u r')
    (h : r.WF) : r'.WF := by
  cases hu with
  | nothing => exact ⟨h.1, h.2, h.3, h.4⟩
  | restarted => exact ⟨h.size_ge, h.size_pos, fun _ => rfl, fun hheld => by cases hheld⟩
  | stuck => exact ⟨h.1, h.2, h.3, h.4⟩
  | moved => exact h.retreating 1

end Reader

end BufferedStream
