import BufferedStream.Proofs.Reader.Bytes
import BufferedStream.Proofs.Rune

/-!
# What the operations on runes do

* `Reader.readRune_meets`, `Reader.unreadRune_does` — reading a rune and pushing
  it back.
-/

namespace BufferedStream

namespace Reader

variable {σ : Type}

/-- The reader with a rune of the given width handed out. -/
def deliveringRune (width : Nat) (r : Reader σ) : Reader σ :=
  { r with
    window := r.window.advance width, lastByte := (r.window.advance width).past.head?,
    lastRune := some width }

/-- The ways of reading a rune. -/
inductive ReadsRune [ByteSource σ] (r : Reader σ) :
    List Draw → Except Error (Char × Nat) → Reader σ → Prop
  | got {ds : List Draw} {r₁ : Reader σ} (hp : r.Pulled ds r₁)
      (hroom : ds ≠ [] → r.buffered < r.size) (hne : r₁.window.unread ≠ [])
      (hends : Rune.maxWidth ≤ r₁.buffered ∨ Rune.isSettled r₁.window.unread = true ∨
        r₁.fault.isSome = true) :
      ReadsRune r ds (.ok (Rune.decode r₁.window.unread))
        (r₁.deliveringRune (Rune.decode r₁.window.unread).2)
  | failed {ds : List Draw} {r₁ r₂ : Reader σ} {e : Error} (hp : r.Pulled ds r₁)
      (hroom : ds ≠ [] → r.buffered < r.size) (hunread : r₁.window.unread = [])
      (hfault : r₁.fault = some e) (hs : Settles { r₁ with lastRune := none } r₂) :
      ReadsRune r ds (.error e) r₂.cleared

theorem readRune_meets [ByteSource σ] {H : Halt → Prop} [HonestSource H σ] {sh : Shared}
    {r : Reader σ} (h : r.WF) :
    Act.Meets H r.readRune sh fun (c, r') _ => ∃ ds, r.ReadsRune ds c r' := by
  refine Act.meets_bind.mpr ((ensureRune_meets h).imp ?_)
  rintro r₁ sh₁ ⟨ds, hp, hne, hends⟩
  have hroom : ds ≠ [] → r.buffered < r.size := fun hds =>
    Nat.lt_of_lt_of_le (hne hds) (Nat.le_trans (by decide) h.size_ge)
  dsimp only
  split
  · rename_i hunread
    have hsettled : Rune.isSettled r₁.window.unread = false := by rw [hunread]; rfl
    have hbuffered : r₁.buffered = 0 := by rw [buffered, hunread]; rfl
    have hsome : r₁.fault.isSome = true := by
      rcases hends with hlen | hset | hsome
      · rw [hbuffered] at hlen
        exact absurd hlen (by decide)
      · rw [hsettled] at hset
        cases hset
      · exact hsome
    obtain ⟨e, he⟩ := Option.isSome_iff_exists.mp hsome
    refine Act.meets_bind.mpr ((settle_meets _).imp ?_)
    intro r' sh' hs
    rw [Act.meets_pure, hs.fault_eq, he]
    exact ⟨ds, .failed hp hroom hunread he hs⟩
  · rename_i hunread
    exact ⟨ds, .got hp hroom hunread hends⟩

theorem ReadsRune.wf [ByteSource σ] {r r' : Reader σ} {ds : List Draw}
    {c : Except Error (Char × Nat)} (hr : r.ReadsRune ds c r') : r'.WF := by
  cases hr with
  | got hp => exact hp.wf.advance _ _ _
  | failed hp _ _ _ hs => exact (hs.wf hp.wf.forgetRune).cleared

theorem ReadsRune.calls [ByteSource σ] {r r' : Reader σ} {ds : List Draw}
    {c : Except Error (Char × Nat)} (hr : r.ReadsRune ds c r') :
    Calls r.source ds r'.source := by
  cases hr with
  | got hp => exact hp.calls
  | failed hp _ _ _ hs => exact hs.source_eq ▸ hp.calls

/-- The ways of pushing a rune back. -/
inductive UnreadsRune (r : Reader σ) : Except Error Unit → Reader σ → Prop
  | moved {width : Nat} (h : r.lastRune = some width) (hle : width ≤ r.window.past.length) :
      UnreadsRune r (.ok ()) (r.retreating width)
  | refused (h : ∀ width, r.lastRune = some width → r.window.past.length < width) :
      UnreadsRune r (.error .invalidUnreadRune) r

theorem unreadRune_does (r : Reader σ) : r.UnreadsRune r.unreadRune.1 r.unreadRune.2 := by
  unfold unreadRune
  split
  · rename_i width h
    split
    · rename_i hle
      exact .moved h hle
    · rename_i hle
      refine .refused fun w hw => ?_
      rw [h, Option.some.injEq] at hw
      omega
  · rename_i h
    refine .refused fun w hw => ?_
    rw [h] at hw
    cases hw

theorem UnreadsRune.source_eq {r r' : Reader σ} {u : Except Error Unit}
    (hu : r.UnreadsRune u r') : r'.source = r.source := by
  cases hu <;> rfl

theorem UnreadsRune.wf {r r' : Reader σ} {u : Except Error Unit} (hu : r.UnreadsRune u r')
    (h : r.WF) : r'.WF := by
  cases hu with
  | moved => exact h.retreating _
  | refused => exact h

end Reader

end BufferedStream
