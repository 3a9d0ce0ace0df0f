import BufferedStream.Proofs.Reader.Position

/-!
# What each operation delivers

Every operation moves a reader forward by the bytes that it delivers, back by
those that it takes back, or leaves it where it stands.  One lemma for each
operation says which: `Knows.peeks`, `Knows.readsInto`, `Knows.readsByte` and so
on; `Stands.scans` and `Stands.collects` serve all operations on records, and
`Stands.writesTo` is about emptying a reader into a sink.
-/

namespace BufferedStream

open History (given)
open Keeping (kept)

namespace Reader

variable {σ : Type} [ByteSource σ] [History σ] {r r' : Reader σ} {c : Bytes} {width : Nat}
  {ds : List Draw}

/-! ## Bytes and runes -/

theorem Knows.peeks {n : Nat} {p : Passage} (h : r.Knows c width) (hp : r.Peeks n ds p r') :
    r'.Knows c width ∧ p.bytes <+: r'.window.unread := by
  cases hp with
  | tooLarge => exact ⟨h.forgetRune, List.nil_prefix⟩
  | seen hp => exact ⟨h.forgetRune.extended hp.toExtended, List.take_prefix ..⟩
  | short hp => exact ⟨(h.forgetRune.extended hp.toExtended).cleared, List.prefix_rfl⟩

theorem Knows.readsInto {room : Room} {g : Reading} (h : r.Knows c width)
    (hr : r.ReadsInto room ds g r') :
    r'.Knows (c ++ g.data) width ∧ g.count = g.data.length := by
  cases hr with
  | nothing =>
    refine ⟨?_, rfl⟩
    rw [show (Reading.ofBytes [] r.fault).data = [] from rfl, List.append_nil]
    exact h.cleared
  | @through g s _ hunread _ _ hreads hcount =>
    refine ⟨?_, hcount⟩
    have hgiven : given s = c ++ g.data := by
      rw [History.given_of_reads hreads, h.given, hunread, List.append_nil]
    split
    · rename_i h0
      have hnil : g.data = [] := List.eq_nil_of_length_eq_zero (hcount ▸ h0)
      rw [hnil, List.append_nil] at hgiven ⊢
      exact
        { wf := ⟨h.wf.1, h.wf.2, h.wf.3, h.wf.4⟩
          given := by rw [hgiven, hunread, List.append_nil]
          past := h.past
          lastByte := h.lastByte
          lastRune := h.lastRune }
    · have hstands : Stands
          { r with source := s, lastByte := g.data.getLast?, lastRune := none } (c ++ g.data) :=
        { wf := ⟨h.wf.1, h.wf.2, h.wf.3, h.wf.4⟩
          given := by rw [hgiven, hunread, List.append_nil]
          past := fun hne => absurd hunread hne }
      exact hstands.knows_of_last rfl rfl width
  | delivered _ hp _ _ hs =>
    exact ⟨((h.extended hp.toExtended).delivering _ width).settles hs, rfl⟩
  | dry _ hp _ _ hs =>
    refine ⟨?_, rfl⟩
    rw [show ∀ f, (Reading.ofBytes [] f).data = [] from fun _ => rfl, List.append_nil]
    exact ((h.extended hp.toExtended).settles hs).cleared

/-- What a successful result holds, or nothing. -/
def orNone {ε α : Type} (f : α → Bytes) : Except ε α → Bytes
  | .ok a => f a
  | .error _ => []

theorem Knows.readsByte {b : Except Error UInt8} (h : r.Knows c width)
    (hr : r.ReadsByte ds b r') : r'.Knows (c ++ orNone (fun b => [b]) b) width := by
  cases hr with
  | got hp _ hunread hs =>
    have hd := ((h.forgetRune.extended hp.toExtended).delivering 1 width).settles hs
    rwa [hunread] at hd
  | failed hp _ _ _ hs =>
    rw [orNone, List.append_nil]
    exact ((h.forgetRune.extended hp.toExtended).settles hs).cleared

theorem Knows.unreadsByte {u : Except Error Unit} (h : r.Knows c width)
    (hu : r.UnreadsByte u r') :
    ∃ c' b, c = c' ++ b ∧ r'.Knows c' width ∧ b.length = if u.isOk then 1 else 0 := by
  cases hu with
  | nothing => exact ⟨c, [], by simp, h.toStands.forgetting width, rfl⟩
  | @restarted b length spare hb hunread =>
    obtain ⟨c', rfl⟩ := List.getLast?_eq_some_iff.mp (h.lastByte b hb)
    exact ⟨c', [b], rfl, (h.toStands.restarted hunread length spare).knows rfl rfl width, rfl⟩
  | stuck => exact ⟨c, [], by simp, h.toStands.forgetting width, rfl⟩
  | @moved b hb hne hpast =>
    obtain ⟨c', rfl⟩ := List.getLast?_eq_some_iff.mp (h.lastByte b hb)
    refine ⟨c', [b], rfl, ?_, rfl⟩
    exact (h.toStands.retreat (h.past hne) (List.length_pos_iff.mpr hpast)).knows rfl rfl width

/-- What a rune read tells: the bytes it was read from, of its width. -/
theorem Knows.readsRune {ch : Except Error (Char × Nat)} (h : r.Knows c width)
    (hr : r.ReadsRune ds ch r') :
    (∃ b, ch = .ok (Rune.decode (b ++ r'.window.unread)) ∧ 0 < b.length ∧
      (Rune.decode (b ++ r'.window.unread)).2 = b.length ∧ r'.Knows (c ++ b) b.length) ∨
    (∃ e, ch = .error e ∧ r'.Knows c width) := by
  cases hr with
  | @got r₁ hp _ hne _ =>
    left
    obtain ⟨hpos, hle⟩ := Rune.width_decode hne
    have hlen : (r₁.window.unread.take (Rune.decode r₁.window.unread).2).length =
        (Rune.decode r₁.window.unread).2 := by
      rw [List.length_take, Nat.min_eq_left hle]
    have hsplit : r₁.window.unread.take (Rune.decode r₁.window.unread).2 ++
        (r₁.deliveringRune (Rune.decode r₁.window.unread).2).window.unread =
          r₁.window.unread := List.take_append_drop ..
    refine ⟨r₁.window.unread.take (Rune.decode r₁.window.unread).2, ?_, ?_, ?_, ?_⟩
    · rw [hsplit]
    · rwa [hlen]
    · rw [hsplit, hlen]
    · rw [hlen]
      exact (h.toStands.extended hp.toExtended).deliveringRune hpos hle
  | failed hp _ _ _ hs =>
    right
    exact ⟨_, rfl, ((h.extended hp.toExtended).forgetRune.settles hs).cleared⟩

theorem Knows.unreadsRune {u : Except Error Unit} (h : r.Knows c width)
    (hu : r.UnreadsRune u r') :
    ∃ c' b, c = c' ++ b ∧ r'.Knows c' width ∧ b.length = if u.isOk then width else 0 := by
  cases hu with
  | @moved w hw hle =>
    obtain ⟨rfl, hsuffix⟩ := h.lastRune w hw
    have hlen : w ≤ c.length := by
      have := hsuffix.length_le
      rw [List.length_reverse] at this
      omega
    have hdrop : (c.drop (c.length - w)).length = w := by
      rw [List.length_drop]
      omega
    refine ⟨c.take (c.length - w), c.drop (c.length - w), (List.take_append_drop ..).symm, ?_,
      hdrop⟩
    rw [← List.take_append_drop (c.length - w) c] at h hsuffix
    have hback := h.toStands.retreat hsuffix (by rwa [hdrop])
    rw [hdrop] at hback
    exact hback.knows rfl rfl w
  | refused => exact ⟨c, [], by simp, h, rfl⟩

/-! ## Records -/

/-- The line `l` is `b` without its terminator, if it has one. -/
def Unterminated (b l : Bytes) : Prop :=
  b = l ++ [carriageReturn, newline] ∨
    (b = l ++ [newline] ∧ l.getLast? ≠ some carriageReturn) ∨
      (b = l ∧ l.getLast? ≠ some newline)

theorem unterminated_stripLineEnd (b : Bytes) : Unterminated b (stripLineEnd b) := by
  unfold stripLineEnd
  split
  · rename_i hnewline
    obtain ⟨l, rfl⟩ := List.getLast?_eq_some_iff.mp hnewline
    rw [List.dropLast_concat]
    split
    · rename_i hreturn
      obtain ⟨l, rfl⟩ := List.getLast?_eq_some_iff.mp hreturn
      rw [List.dropLast_concat]
      exact .inl (by simp)
    · rename_i hreturn
      exact .inr (.inl ⟨rfl, hreturn⟩)
  · rename_i hnewline
    exact .inr (.inr ⟨rfl, hnewline⟩)

theorem Stands.scans {delim : UInt8} {p : Passage} (h : r.Stands c)
    (hs : r.Scans delim ds p r') : r'.Stands (c ++ p.bytes) := by
  cases hs with
  | found hp => exact (h.extended hp.toExtended).advance _ _ _
  | full hp => exact (h.extended hp.toExtended).exhausted
  | ended hp _ _ hs =>
    have hsettled := (h.extended hp.toExtended).exhausted.settles hs
    exact hsettled.congr hsettled.wf.cleared rfl rfl

/-- A scan that stopped at a full buffer has left what it delivered in the window. -/
theorem Stands.suffix_of_full {delim : UInt8} {p : Passage} (h : r.Stands c)
    (hs : r.Scans delim ds p r') (hfault : p.fault = some .bufferFull) (hne : p.bytes ≠ []) :
    r'.window.past.reverse <:+ c ++ p.bytes ∧ p.bytes.length ≤ r'.window.past.length := by
  have key : ∀ {r₁ : Reader σ}, r₁.Stands c → r₁.window.unread ≠ [] →
      r₁.exhausted.window.past.reverse <:+ c ++ r₁.window.unread ∧
        r₁.window.unread.length ≤ r₁.exhausted.window.past.length := by
    intro r₁ h₁ hne₁
    have hsuffix := suffix_advance r₁.window.unread.length (h₁.past hne₁)
    rw [Window.advance, List.take_length] at hsuffix
    refine ⟨hsuffix, ?_⟩
    simp [Reader.exhausted, Window.exhaust]
  cases hs with
  | found => cases hfault
  | full hp => exact key (h.extended hp.toExtended) hne
  | @ended r₁ r₂ e hp _ he hs =>
    cases hs with
    | keeps => exact key (h.extended hp.toExtended) hne
    | returns _ heof =>
      rw [Option.some.inj hfault] at he
      rw [show r₁.exhausted.fault = r₁.fault from rfl, he] at heof
      cases heof

theorem Knows.readsLine {l : Except Error (Bytes × Bool)} (h : r.Knows c width)
    (hl : r.ReadsLine ds l r') :
    (∃ b line isPiece, l = .ok (line, isPiece) ∧ r'.Knows (c ++ b) width ∧
      if isPiece then line = b else Unterminated b line) ∨
    (∃ e, l = .error e ∧ r'.Knows c width) := by
  cases hl with
  | @piece p r₁ r₂ b hs hfault hb =>
    left
    refine ⟨b, b, true, rfl, ?_, rfl⟩
    have hstands := h.toStands.scans hs
    rcases holdBackReturn_eq hb with ⟨rfl, rfl⟩ | ⟨hbytes, rfl⟩
    · exact hstands.noteDelivered width
    · have hne : p.bytes ≠ [] := by rw [hbytes]; simp
      obtain ⟨hsuffix, hlen⟩ := h.toStands.suffix_of_full hs hfault hne
      rw [hbytes, ← List.append_assoc] at hstands hsuffix
      rw [hbytes, List.length_append] at hlen
      have hback := hstands.retreat hsuffix (Nat.le_trans (Nat.le_add_left ..) hlen)
      exact hback.noteDelivered width
  | line hs hfault hne =>
    left
    exact ⟨_, _, false, rfl, (h.toStands.scans hs).noteDelivered width,
      unterminated_stripLineEnd _⟩
  | @failed e r₁ hs he =>
    right
    refine ⟨e, rfl, ?_⟩
    have hstands := h.toStands.scans hs
    rw [List.append_nil] at hstands
    exact
      { toStands := hstands.congr hstands.wf.forgetRune rfl rfl
        lastByte := fun b hb => h.lastByte b (hs.lastByte_eq ▸ hb)
        lastRune := fun _ hw => by cases hw }

/-- By induction on the scans: what the first delivers comes before the rest. -/
theorem Stands.collects {delim : UInt8} {p : Passage} (h : r.Stands c)
    (hc : r.Collects delim ds p r') (width : Nat) : r'.Knows (c ++ p.bytes) width := by
  induction hc generalizing c with
  | last hs _ => exact (h.scans hs).noteDelivered width
  | more hs _ _ ih =>
    rw [← List.append_assoc]
    exact ih ((h.scans hs).noteDelivered width).toStands

/-! ## Plain input and moving -/

theorem Knows.readsPlain {room : Room} {g : Except IoError Grant} (h : r.Knows c width)
    (hg : r.ReadsPlain room ds g r') :
    r'.Knows (c ++ orNone Grant.data g) width ∧ ∀ a, g = .ok a → a.count = a.data.length := by
  have hnil : ∀ {g : Reading}, g.count = 0 → g.count = g.data.length → g.data = [] :=
    fun h0 hcount => List.eq_nil_of_length_eq_zero (hcount ▸ h0)
  cases hg with
  | delivered hr _ =>
    obtain ⟨hk, hcount⟩ := h.readsInto hr
    refine ⟨hk.latch _, fun a ha => ?_⟩
    rw [← Except.ok.inj ha]
    exact hcount
  | ended hr h0 _ =>
    obtain ⟨hk, hcount⟩ := h.readsInto hr
    rw [hnil h0 hcount] at hk
    refine ⟨hk, fun a ha => ?_⟩
    rw [← Except.ok.inj ha]
    rfl
  | failed _ hr h0 _ _ =>
    obtain ⟨hk, hcount⟩ := h.readsInto hr
    rw [hnil h0 hcount] at hk
    exact ⟨hk, fun a ha => by cases ha⟩

theorem Knows.showsBuffer {b : Except IoError Bytes} (h : r.Knows c width)
    (hb : r.ShowsBuffer ds b r') :
    r'.Knows c width ∧ ∀ a, b = .ok a → a = r'.window.unread := by
  cases hb with
  | shown hp => exact ⟨h.extended hp.toExtended, fun a ha => (Except.ok.inj ha).symm⟩
  | ended hp _ hunread _ hs =>
    refine ⟨((h.extended hp.toExtended).settles hs).cleared, fun a ha => ?_⟩
    rw [← Except.ok.inj ha]
    exact (hs.unread_eq.trans hunread).symm
  | failed _ hp _ _ _ _ hs =>
    exact ⟨((h.extended hp.toExtended).settles hs).cleared, fun a ha => by cases ha⟩

theorem Knows.consumes {n : Nat} (h : r.Knows c width) (hc : r.Consumes n r') :
    r'.Knows (c ++ r.window.unread.take n) width := by
  cases hc with
  | nothing hnil =>
    rw [hnil, List.append_nil]
    exact h
  | taken _ hs => exact (h.toStands.delivering n width).settles hs

theorem Knows.adapts {size : Nat} {pool : PoolId} (h : r.Knows c width)
    (ha : r.Adapts size pool r') : r'.Knows c width := by
  have hwf := ha.wf h.wf
  cases ha with
  | kept => exact h
  | regrown =>
    exact
      { wf := hwf
        given := h.given
        past := fun _ => List.nil_suffix
        lastByte := h.lastByte
        lastRune := fun w hw => ⟨(h.lastRune w hw).1, List.nil_suffix⟩ }

/-! ## Emptying -/

section Empty

variable {κ : Type} [ByteSink κ] [Keeping κ] {k k' : κ} {receipt : Receipt}

omit [ByteSource σ] [History σ] [ByteSink κ] in
theorem Drains.memory_eq (hd : r.Drains k receipt r' k') :
    r'.lastByte = r.lastByte ∧ r'.lastRune = r.lastRune := by
  cases hd with
  | nothing => exact ⟨rfl, rfl⟩
  | wrote _ _ _ hs => exact ⟨hs.lastByte_eq, hs.lastRune_eq⟩

omit [ByteSink κ] in
/-- Draining delivers to the sink; without an error, all that was unread. -/
theorem Stands.drains (h : r.Stands c) (hd : r.Drains k receipt r' k') :
    ∃ b, r'.Stands (c ++ b) ∧ kept k' = kept k ++ b ∧
      (receipt.fault = none → r'.window.unread = []) := by
  cases hd with
  | nothing hunread =>
    exact ⟨[], by rwa [List.append_nil], (List.append_nil _).symm, fun _ => hunread⟩
  | @wrote n fault _ _ hle hkept hall hs =>
    refine ⟨r.window.unread.take n, (h.advance n _ _).settles hs, hkept, fun hnone => ?_⟩
    rw [hs.unread_eq, Window.advance, hall hnone, buffered, List.drop_length]

omit [History σ] [ByteSink κ] in
theorem Pours.memory_eq {total : Nat} (hp : r.Pours k total receipt r' k') :
    r'.lastByte = r.lastByte ∧ r'.lastRune = r.lastRune := by
  induction hp with
  | dry hf => exact ⟨hf.lastByte, hf.lastRune⟩
  | failed hf hd => exact ⟨hd.memory_eq.1.trans hf.lastByte, hd.memory_eq.2.trans hf.lastRune⟩
  | more hf hd _ ih =>
    exact ⟨ih.1.trans (hd.memory_eq.1.trans hf.lastByte),
      ih.2.trans (hd.memory_eq.2.trans hf.lastRune)⟩

omit [ByteSink κ] in
/-- By induction on the turns: each delivers to the sink what it drains. -/
theorem Stands.pours {total : Nat} (h : r.Stands c) (hp : r.Pours k total receipt r' k') :
    ∃ b, r'.Stands (c ++ b) ∧ kept k' = kept k ++ b := by
  induction hp generalizing c with
  | dry hf => exact ⟨[], by rw [List.append_nil]; exact h.extended hf, (List.append_nil _).symm⟩
  | failed hf hd =>
    obtain ⟨b, hb, hkept, -⟩ := (h.extended hf).drains hd
    exact ⟨b, hb, hkept⟩
  | more hf hd _ ih =>
    obtain ⟨b, hb, hkept, -⟩ := (h.extended hf).drains hd
    obtain ⟨b', hb', hkept'⟩ := ih hb
    refine ⟨b ++ b', by rwa [← List.append_assoc], ?_⟩
    rw [hkept', hkept, List.append_assoc]

omit [ByteSink κ] in
/-- What passes in bulk passes by a reader with nothing unread. -/
theorem Stands.passes {s : σ} (h : r.Stands c) (hunread : r.window.unread = [])
    (hb : Passes r.source s k k') :
    ∃ b, Stands { r with source := s } (c ++ b) ∧ kept k' = kept k ++ b := by
  obtain ⟨b, hgiven, hkept⟩ := hb
  refine ⟨b, ⟨⟨h.wf.1, h.wf.2, h.wf.3, h.wf.4⟩, ?_, fun hne => absurd hunread hne⟩, hkept⟩
  rw [hgiven, h.given, hunread, List.append_nil, List.append_nil]

/-- **Emptying delivers to the sink**, however it ends. -/
theorem Stands.writesTo (h : r.Stands c) (hw : r.WritesTo k receipt r' k') (width : Nat) :
    ∃ b, r'.Knows (c ++ b) width ∧ kept k' = kept k ++ b := by
  have hforget := (h.forgetting width).toStands
  cases hw with
  | stopped hd =>
    obtain ⟨b, hb, hkept, -⟩ := hforget.drains hd
    exact ⟨b, hb.knows hd.memory_eq.1 hd.memory_eq.2 width, hkept⟩
  | moved hd hpass =>
    obtain ⟨b, hb, hkept, hunread⟩ := hforget.drains hd
    obtain ⟨b', hb', hkept'⟩ := hb.passes (hunread rfl) hpass
    rw [List.append_assoc] at hb'
    refine ⟨b ++ b', hb'.knows hd.memory_eq.1 hd.memory_eq.2 width, ?_⟩
    rw [hkept', hkept, List.append_assoc]
  | failed hd hpass hp =>
    obtain ⟨b, hb, hkept, hunread⟩ := hforget.drains hd
    obtain ⟨b', hb', hkept'⟩ := hb.passes (hunread rfl) hpass
    obtain ⟨b'', hb'', hkept''⟩ := hb'.pours hp
    rw [List.append_assoc, List.append_assoc] at hb''
    refine ⟨b ++ (b' ++ b''), hb''.knows (hp.memory_eq.1.trans hd.memory_eq.1)
      (hp.memory_eq.2.trans hd.memory_eq.2) width, ?_⟩
    rw [hkept'', hkept', hkept, List.append_assoc, List.append_assoc]
  | emptied hd hpass hp hs =>
    obtain ⟨b, hb, hkept, hunread⟩ := hforget.drains hd
    obtain ⟨b', hb', hkept'⟩ := hb.passes (hunread rfl) hpass
    obtain ⟨b'', hb'', hkept''⟩ := hb'.pours hp
    rw [List.append_assoc, List.append_assoc] at hb''
    refine ⟨b ++ (b' ++ b''), ((hb''.knows (hp.memory_eq.1.trans hd.memory_eq.1)
      (hp.memory_eq.2.trans hd.memory_eq.2) width).settles hs).cleared, ?_⟩
    rw [hkept'', hkept', hkept, List.append_assoc, List.append_assoc]

end Empty

end Reader

end BufferedStream
