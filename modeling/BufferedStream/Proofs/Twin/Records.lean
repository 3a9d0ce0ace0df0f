import BufferedStream.Proofs.Twin.Level

/-!
# Twins that look for records

A scan hands out what is unread, so twins scan alike; and where it hands out anything the
same stands behind both, so that they hold the same carriage return back.

* `Reader.scanUntil_agree` — twins find the same record, or meet the same error first.
* `Reader.readSlice_agree`, `Reader.readLine_agree`, `Reader.readBytes_agree`,
  `Reader.readString_agree` — the operations on records, after which no rune is remembered.
* `Reader.fillBuf_agree`, `Reader.plainRead_agree` — the operations of a plain input, which
  may wear away what is level.
-/

namespace BufferedStream

namespace Reader

variable {σ : Type} [ByteSource σ] [BlindSource σ] {r t : Reader σ} {worn : Prop}

/-! ## Records -/

/-- What a scan leaves: twins, with the same behind them if it handed out anything. -/
def Scanned (x y : Passage × Reader σ) : Prop :=
  Both Twin x y ∧ (x.1.bytes ≠ [] → x.2.window.past = y.2.window.past)

theorem handOut_scanned (h : Twin r t) (n : Nat) : Scanned (r.handOut n) (t.handOut n) := by
  refine ⟨⟨?_, h.advance n⟩, fun hne => ?_⟩
  · rw [handOut, handOut, h.unread]
  · have hunread : r.window.unread ≠ [] := by
      rintro hnil
      exact hne (by rw [handOut, hnil, List.take_nil])
    show (r.window.advance n).past = (t.window.advance n).past
    rw [Window.advance, Window.advance, h.unread, (h.kept_of_unread hunread).2]

/-- Handing out everything is handing out as much as there is. -/
theorem handOutAll_scanned (h : Twin r t) (fault : Option Error) :
    Scanned (r.handOutAll fault) (t.handOutAll fault) := by
  have hall : ∀ u : Reader σ, u.handOutAll fault =
      (⟨(u.handOut u.buffered).1.bytes, fault⟩, (u.handOut u.buffered).2) := by
    intro u
    simp [handOutAll, handOut, buffered, Window.exhaust, Window.advance]
  obtain ⟨⟨hpassage, htwin⟩, hpast⟩ := handOut_scanned h r.buffered
  rw [hall r, hall t, ← h.buffered]
  exact ⟨⟨by rw [hpassage], htwin⟩, hpast⟩

section Records

variable [HonestSource (fun _ => True) σ]

omit [HonestSource (fun _ => True) σ] in
/-- A scan that meets a latched error hands out what there is, and settles if that is
nothing. -/
theorem scanRounds_latched_agree (h : Twin r t) (delim : UInt8) {e : Error}
    (hfault : r.fault = some e) (rounds : Nat) :
    Act.Agree Scanned (r.scanRounds delim rounds) (t.scanRounds delim rounds) := by
  obtain ⟨⟨hpassage, htwin⟩, hpast⟩ := handOutAll_scanned h (some e)
  unfold scanRounds
  rw [hfault, ← h.fault, hfault]
  dsimp only
  refine .ite (by rw [hpassage]) (fun hnil => ?_) fun _ => ?_
  · refine (settle_agree _ _).bind fun r' t' hs => Act.agree_pure ⟨⟨hpassage, ?_⟩, ?_⟩
    · exact (htwin.settles hs.1 hs.2).cleared
    · exact fun hne => absurd hnil hne
  · exact Act.agree_pure ⟨⟨hpassage, htwin.cleared⟩, hpast⟩

/-- By induction on the rounds: twins see the same bytes and stop alike. -/
theorem scanRounds_agree (delim : UInt8) (rounds : Nat) (h : Twin r t) :
    Act.Agree Scanned (r.scanRounds delim rounds) (t.scanRounds delim rounds) := by
  induction rounds generalizing r t with
  | zero =>
    cases hfault : r.fault with
    | some e => exact scanRounds_latched_agree h delim hfault 0
    | none =>
      unfold scanRounds
      rw [hfault, ← h.fault, hfault]
      exact Act.agree_throw _
  | succ rounds ih =>
    cases hfault : r.fault with
    | some e => exact scanRounds_latched_agree h delim hfault (rounds + 1)
    | none =>
      unfold scanRounds
      rw [hfault, ← h.fault, hfault]
      dsimp only
      rw [h.buffered]
      refine (fill_agree h).bind fun r₁ t₁ h₁ => ?_
      rw [h₁.unread]
      cases (t₁.window.unread.drop t.buffered).idxOf? delim with
      | some i => exact Act.agree_pure (handOut_scanned h₁.toTwin _)
      | none =>
        refine .ite (by rw [h₁.size, h₁.buffered]) (fun _ => ?_) fun _ => ih h₁.toTwin
        exact Act.agree_pure (handOutAll_scanned h₁.toTwin _)

theorem scanUntil_agree (h : Twin r t) (delim : UInt8) :
    Act.Agree Scanned (r.scanUntil delim) (t.scanUntil delim) := by
  unfold scanUntil
  rw [h.unread, h.size]
  cases t.window.unread.idxOf? delim with
  | some i => exact Act.agree_pure (handOut_scanned h _)
  | none => exact scanRounds_agree delim _ h

theorem readSlice_agree (h : Twin r t) (delim : UInt8) :
    Act.Agree (Both Mute) (r.readSlice delim) (t.readSlice delim) := by
  refine (scanUntil_agree h delim).bind ?_
  rintro ⟨p, r'⟩ ⟨_, t'⟩ ⟨⟨rfl, h'⟩, -⟩
  exact Act.agree_pure ⟨rfl, h'.mute rfl⟩

omit [HonestSource (fun _ => True) σ] in
/-- Twins hold the same carriage return back. -/
theorem holdBackReturn_mute (h : Twin r t) {b : Bytes}
    (hpast : b ≠ [] → r.window.past = t.window.past) :
    (r.holdBackReturn b).1 = (t.holdBackReturn b).1 ∧ ∀ c,
      Mute ((r.holdBackReturn b).2.noteDelivered c) ((t.holdBackReturn b).2.noteDelivered c) := by
  unfold holdBackReturn
  by_cases hreturn : b.getLast? = some carriageReturn
  · rw [if_pos hreturn, if_pos hreturn]
    have hne : b ≠ [] := by
      rintro rfl
      cases hreturn
    exact ⟨rfl, fun c => (h.retreat (hpast hne) 1).mute rfl⟩
  · rw [if_neg hreturn, if_neg hreturn]
    exact ⟨rfl, fun c => h.mute rfl⟩

theorem readLine_agree (h : Twin r t) : Act.Agree (Both Mute) r.readLine t.readLine := by
  refine (scanUntil_agree h newline).bind ?_
  rintro ⟨p, r'⟩ ⟨_, t'⟩ ⟨⟨rfl, h'⟩, hpast⟩
  dsimp only at h' hpast ⊢
  split
  · obtain ⟨hbytes, hmute⟩ := holdBackReturn_mute h' hpast
    rw [hbytes]
    exact Act.agree_pure ⟨rfl, hmute _⟩
  · refine .ite Iff.rfl (fun _ => ?_) fun _ => ?_
    · cases p.fault with
      | some e => exact Act.agree_pure ⟨rfl, h'.forgetRune⟩
      | none => exact Act.agree_pure ⟨rfl, h'.forgetRune⟩
    · exact Act.agree_pure ⟨rfl, h'.mute rfl⟩

/-- By induction on the rounds: the pieces of a record are the same. -/
theorem readBytesRounds_agree (delim : UInt8) (rounds : Nat) (collected : Bytes) (h : Twin r t) :
    Act.Agree (Both Mute) (r.readBytesRounds delim rounds collected)
      (t.readBytesRounds delim rounds collected) := by
  induction rounds generalizing r t collected with
  | zero => exact Act.agree_throw _
  | succ rounds ih =>
    refine (readSlice_agree h delim).bind ?_
    rintro ⟨p, r'⟩ ⟨_, t'⟩ ⟨rfl, h'⟩
    dsimp only
    split
    · exact ih _ h'.toTwin
    · exact Act.agree_pure ⟨rfl, h'⟩

theorem readBytes_agree (h : Twin r t) (delim : UInt8) :
    Act.Agree (Both Mute) (r.readBytes delim) (t.readBytes delim) := by
  refine Act.agree_patience.bind ?_
  rintro rounds _ rfl
  exact readBytesRounds_agree delim rounds [] h

theorem readString_agree (h : Twin r t) (delim : UInt8) :
    Act.Agree (Both Mute) (r.readString delim) (t.readString delim) := by
  refine (readBytes_agree h delim).bind ?_
  rintro ⟨p, r'⟩ ⟨_, t'⟩ ⟨rfl, h'⟩
  exact h'.settle_agree.bind fun _ _ h₂ => Act.agree_pure ⟨rfl, h₂⟩

end Records

/-! ## The buffer itself -/

theorem failure_agree (e : Error) : Act.Agree Eq (failure e) (failure e) := by
  refine (Act.agree_isKept e).bind ?_
  rintro shared _ rfl
  exact Act.agree_pure rfl

/-- With nothing unread the readers settle, and report the same. -/
theorem showBuffer_agree (h : Level worn r t)
    (hworn : r.AtEnd → (r.window.past = [] ∧ t.window.past = []) ∨ worn) :
    Act.Agree (Both (Level worn)) r.showBuffer t.showBuffer := by
  unfold showBuffer
  refine .ite (by rw [h.unread]) (fun _ => ?_) fun _ => ?_
  · exact Act.agree_pure ⟨congrArg Except.ok h.unread, h⟩
  refine (settle_agree r t).bind fun r' t' hs => ?_
  have hsettled := h.settles hworn hs.1 hs.2
  rw [hsettled.fault]
  split
  · exact Act.agree_pure ⟨rfl, hsettled.cleared⟩
  · exact Act.agree_pure ⟨rfl, hsettled.cleared⟩
  · rename_i e _ _
    refine (failure_agree e).bind ?_
    rintro cause _ rfl
    exact Act.agree_pure ⟨rfl, hsettled.cleared⟩

section Plain

variable [HonestSource (fun _ => True) σ]

theorem fillBuf_agree (h : Level worn r t)
    (hworn : r.AtEnd → worn) :
    Act.Agree (Both (Level worn)) r.fillBuf t.fillBuf := by
  unfold fillBuf
  refine .ite (by rw [h.unread, h.fault]) (fun _ => ?_) fun _ => ?_
  · refine (fill_agree h.toTwin).bind fun r₁ t₁ hs => ?_
    exact showBuffer_agree (.of_past_nil hs.toTwin h.recalls.1 hs.lastRune_eq hs.past_nil)
      fun _ => .inl hs.past_nil
  · exact showBuffer_agree h fun hend => .inr (hworn hend)

theorem plainRead_agree (h : Level worn r t) (room : Room)
    (hworn : 0 < room.size ∧ r.AtEnd → worn) :
    Act.Agree (Both (Level worn)) (r.plainRead room) (t.plainRead room) := by
  refine (read_agree h rfl hworn).bind ?_
  rintro ⟨g, r'⟩ ⟨_, t'⟩ ⟨rfl, h'⟩
  refine .ite Iff.rfl (fun _ => Act.agree_pure ⟨rfl, h'.latch _⟩) fun _ => ?_
  dsimp only
  split
  · exact Act.agree_pure ⟨rfl, h'⟩
  · exact Act.agree_pure ⟨rfl, h'⟩
  · rename_i e _ _
    refine (failure_agree e).bind ?_
    rintro cause _ rfl
    exact Act.agree_pure ⟨rfl, h'⟩

end Plain

end Reader

end BufferedStream
