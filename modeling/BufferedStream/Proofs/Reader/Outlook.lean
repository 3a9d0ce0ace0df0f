import BufferedStream.Proofs.Reader.Course
import BufferedStream.Proofs.Reader.Decoding
import BufferedStream.Proofs.Reader.Pushback
import BufferedStream.Proofs.Reader.RuneReach
import BufferedStream.Proofs.Reader.Splitting

/-!
# What a reader has before it

For those who read bytes, runes and records and push bytes and runes back
(`Reader.StreamOp`), a reader over a source of settled course is told by its *outlook*: the
stretch ahead with the error behind it, what follows, and the byte and the rune that can be
pushed back.  The size of the buffer and what it holds have no other part in it.

* `Outlook.step` — what an operation brings and what it leaves of the outlook.  Only whether
  a record ends with an empty piece has to be known besides.
* `Reader.perform_outlook` — every operation on a reader is one on its outlook.
-/

namespace BufferedStream

/-- What a reader has before it. -/
@[ext] structure Outlook where
  /-- The bytes to come before the next error. -/
  stretch : Bytes
  /-- The next error. -/
  stop : Error
  /-- The stretches that follow, each with the error that ends it. -/
  later : Nat → Bytes × Error
  /-- The byte that can be pushed back. -/
  byte : Option UInt8
  /-- The bytes of the rune that can be pushed back. -/
  rune : Option Bytes

namespace Reader

/-- An operation that reads on or pushes back. -/
inductive StreamOp where
  | readByte
  | unreadByte
  | readRune
  | unreadRune
  | readBytes (delim : UInt8)

/-- As an operation among all others. -/
def StreamOp.op : StreamOp → Op
  | .readByte => .readByte
  | .unreadByte => .unreadByte
  | .readRune => .readRune
  | .unreadRune => .unreadRune
  | .readBytes delim => .readBytes delim

end Reader

namespace Outlook

open Reader (Outcome StreamOp)

/-- The error has been reported, and the next stretch is ahead. -/
def next (o : Outlook) : Outlook :=
  { o with stretch := (o.later 0).1, stop := (o.later 0).2, later := fun i => o.later (i + 1) }

/-- Nothing can be pushed back. -/
def forgetting (o : Outlook) : Outlook := { o with byte := none, rune := none }

/-- The record up to the delimiter, and what it leaves. -/
def record (delim : UInt8) (o : Outlook) : Passage × Outlook :=
  match o.stretch.idxOf? delim with
  | none => (⟨o.stretch, some o.stop⟩, o.next)
  | some i => (⟨o.stretch.take (i + 1), none⟩, { o with stretch := o.stretch.drop (i + 1) })

/-- What an operation brings and what it leaves.  `empty` tells whether the last piece of a
record is empty. -/
def step (empty : Bool) (o : Outlook) : StreamOp → Outcome × Outlook
  | .readByte =>
    match o.stretch with
    | [] => (.byte (.error o.stop), { o.next with rune := none })
    | b :: rest => (.byte (.ok b), { o with stretch := rest, byte := some b, rune := none })
  | .unreadByte =>
    match o.byte with
    | none => (.pushed (.error .invalidUnreadByte), o.forgetting)
    | some b => (.pushed (.ok ()), { o.forgetting with stretch := b :: o.stretch })
  | .readRune =>
    if o.stretch = [] then (.rune (.error o.stop), { o.next with rune := none })
    else
      let (c, width) := Rune.decode o.stretch
      let rune := o.stretch.take width
      (.rune (.ok (c, width)),
        { o with stretch := o.stretch.drop width, byte := rune.getLast?, rune := some rune })
  | .unreadRune =>
    match o.rune with
    | none => (.pushed (.error .invalidUnreadRune), o)
    | some rune => (.pushed (.ok ()), { o.forgetting with stretch := rune ++ o.stretch })
  | .readBytes delim =>
    let (p, o) := o.record delim
    (.passage p, { o with byte := if empty then none else p.bytes.getLast?, rune := none })

section Cases

variable {o : Outlook} {empty : Bool}

theorem step_readByte_nil (h : o.stretch = []) :
    o.step empty .readByte = (.byte (.error o.stop), { o.next with rune := none }) := by
  rw [step, h]

theorem step_readByte_cons {b : UInt8} {rest : Bytes} (h : o.stretch = b :: rest) :
    o.step empty .readByte =
      (.byte (.ok b), { o with stretch := rest, byte := some b, rune := none }) := by
  rw [step, h]

theorem step_unreadByte_none (h : o.byte = none) :
    o.step empty .unreadByte = (.pushed (.error .invalidUnreadByte), o.forgetting) := by
  rw [step, h]

theorem step_unreadByte_some {b : UInt8} (h : o.byte = some b) :
    o.step empty .unreadByte =
      (.pushed (.ok ()), { o.forgetting with stretch := b :: o.stretch }) := by
  rw [step, h]

theorem step_readRune_nil (h : o.stretch = []) :
    o.step empty .readRune = (.rune (.error o.stop), { o.next with rune := none }) := by
  rw [step, if_pos h]

theorem step_readRune_of_ne_nil (h : o.stretch ≠ []) :
    o.step empty .readRune =
      (.rune (.ok (Rune.decode o.stretch)),
        { o with
          stretch := o.stretch.drop (Rune.decode o.stretch).2,
          byte := (o.stretch.take (Rune.decode o.stretch).2).getLast?,
          rune := some (o.stretch.take (Rune.decode o.stretch).2) }) := by
  rw [step, if_neg h]

theorem step_unreadRune_none (h : o.rune = none) :
    o.step empty .unreadRune = (.pushed (.error .invalidUnreadRune), o) := by
  rw [step, h]

theorem step_unreadRune_some {rune : Bytes} (h : o.rune = some rune) :
    o.step empty .unreadRune =
      (.pushed (.ok ()), { o.forgetting with stretch := rune ++ o.stretch }) := by
  rw [step, h]

end Cases

end Outlook

namespace Reader

/-! ## The outlook of a reader -/

section PushingBack

variable {σ : Type} {r : Reader σ}

/-- The byte that can be pushed back, if any. -/
def backByte (r : Reader σ) : Option UInt8 :=
  if r.window.unread = [] then r.lastByte else r.lastByte.bind fun _ => r.window.past.head?

/-- The bytes of the rune that can be pushed back, if any. -/
def backRune (r : Reader σ) : Option Bytes :=
  r.lastRune.bind fun width =>
    if width ≤ r.window.past.length then some (r.window.past.take width).reverse else none

theorem backByte_of_unread_nil (h : r.window.unread = []) : r.backByte = r.lastByte := if_pos h

theorem backByte_of_none (h : r.lastByte = none) : r.backByte = none := by
  rw [backByte, h, Option.bind_none, ite_self]

theorem backByte_of_some {b : UInt8} (h : r.lastByte = some b) (hne : r.window.unread ≠ []) :
    r.backByte = r.window.past.head? := by
  rw [backByte, if_neg hne, h, Option.bind_some]

theorem backRune_of_none (h : r.lastRune = none) : r.backRune = none := by
  rw [backRune, h, Option.bind_none]

theorem backRune_of_le {width : Nat} (h : r.lastRune = some width)
    (hle : width ≤ r.window.past.length) :
    r.backRune = some (r.window.past.take width).reverse := by
  rw [backRune, h, Option.bind_some, if_pos hle]

theorem backRune_of_refused (h : ∀ width, r.lastRune = some width →
    r.window.past.length < width) : r.backRune = none := by
  cases hrune : r.lastRune with
  | none => exact backRune_of_none hrune
  | some width =>
    rw [backRune, hrune, Option.bind_some, if_neg (Nat.not_le.mpr (h width hrune))]

theorem Returnable.backByte_eq {b : Bytes} (h : r.Returnable b) (hne : b ≠ []) :
    r.backByte = b.getLast? := by
  by_cases hunread : r.window.unread = []
  · rw [backByte_of_unread_nil hunread, h.lastByte]
  · have hlast := h.lastByte.trans (List.getLast?_eq_some_getLast hne)
    rw [backByte_of_some hlast hunread, h.past.resolve_left hunread]

end PushingBack

variable {τ : Type} [ByteSource τ] [ErringSource τ] [CourseSource τ] {r r' r₁ r₂ : Reader τ}
  {ds : List Draw} {empty : Bool}

/-- What a reader has before it. -/
def outlook (r : Reader τ) : Outlook where
  stretch := r.stretch
  stop := r.stop
  later := r.later
  byte := r.backByte
  rune := r.backRune

/-- Only what is unread, what is latched and the source decide what is to come. -/
theorem outlook_eq (hstretch : r'.stretch = r.stretch) (hstop : r'.stop = r.stop)
    (hlater : r'.later = r.later) {byte : Option UInt8} (hbyte : r'.backByte = byte)
    {rune : Option Bytes} (hrune : r'.backRune = rune) :
    r'.outlook = { r.outlook with byte, rune } :=
  Outlook.ext hstretch hstop hlater hbyte hrune

/-- Once the latched error has been reported with all that was unread, the next stretch is
ahead. -/
theorem outlook_cleared {e : Error} (he : r.fault = some e) (hunread : r.window.unread = []) :
    r.stretch = [] ∧ r.stop = e ∧ r.cleared.outlook = r.outlook.next := by
  have hlater := later_cleared he hunread
  refine ⟨by rw [stretch_of_latched he, hunread], stop_of_latched he, ?_⟩
  refine Outlook.ext ?_ ?_ ?_ rfl rfl
  · show r.cleared.stretch = (r.later 0).1
    rw [hlater]
    rfl
  · show r.cleared.stop = (r.later 0).2
    rw [hlater]
    rfl
  · show r.cleared.later = fun i => r.later (i + 1)
    rw [hlater]
    rfl

/-- A reader that stays without unread bytes keeps its outlook but for the rune. -/
theorem Pulled.dry_outlook (hp : Pulled { r with lastRune := none } ds r₁)
    (hunread : r₁.window.unread = []) (hs : r₁.Settles r₂) :
    r₂.outlook = { r.outlook with rune := none } := by
  have hsplit : r₁.window.unread = r.window.unread ++ drawn ds := hp.unread
  rw [hunread] at hsplit
  have hempty : r.window.unread = [] := (List.append_eq_nil_iff.mp hsplit.symm).1
  have hbyte : r₂.backByte = r.backByte := by
    rw [backByte_of_unread_nil (hs.unread_eq.trans hunread), backByte_of_unread_nil hempty]
    exact hs.lastByte_eq.trans hp.lastByte
  exact outlook_eq (hs.stretch_eq.trans hp.stretch_eq) (hs.stop_eq.trans hp.stop_eq)
    ((later_congr hs.source_eq hs.fault_eq).trans hp.later_eq) hbyte
    (backRune_of_none (hs.lastRune_eq.trans hp.lastRune))

/-- Where an error is reported and nothing was unread, the next stretch is ahead. -/
theorem Pulled.fails (hp : Pulled { r with lastRune := none } ds r₁)
    (hunread : r₁.window.unread = []) {e : Error} (he : r₁.fault = some e) (hs : r₁.Settles r₂) :
    r.outlook.stretch = [] ∧ r.outlook.stop = e ∧
      r₂.cleared.outlook = { r.outlook.next with rune := none } := by
  have hdry := hp.dry_outlook hunread hs
  obtain ⟨hstretch, hstop, hnext⟩ :=
    outlook_cleared (hs.fault_eq.trans he) (hs.unread_eq.trans hunread)
  rw [hdry] at hnext
  refine ⟨?_, ?_, hnext⟩
  · exact (congrArg Outlook.stretch hdry).symm.trans hstretch
  · exact (congrArg Outlook.stop hdry).symm.trans hstop

/-! ## Bytes and runes -/

theorem ReadsByte.outlook_eq {x : Except Error UInt8} (hr : r.ReadsByte ds x r') :
    (.byte x, r'.outlook) = r.outlook.step empty .readByte := by
  cases hr with
  | @got r₁ _ b rest hp _ hunread hs =>
    have hstretch : r.outlook.stretch = b :: r'.stretch := by
      have hsplit := r₁.stretch_delivering 1
      rw [hp.stretch_eq, ← hs.stretch_eq, hunread] at hsplit
      exact hsplit
    have hreturnable : r'.Returnable [b] := by
      have htake : r₁.window.unread.take 1 ≠ [] := by
        rw [hunread]
        exact List.cons_ne_nil _ _
      have h := returnable_delivering htake
      rw [hunread] at h
      exact h.settles hs
    rw [Outlook.step_readByte_cons hstretch]
    refine congrArg (Prod.mk _) ?_
    refine Outlook.ext rfl ?_ ?_ ?_ ?_
    · exact hs.stop_eq.trans hp.stop_eq
    · exact (later_congr hs.source_eq hs.fault_eq).trans hp.later_eq
    · exact hreturnable.backByte_eq (List.cons_ne_nil _ _)
    · exact backRune_of_none hs.lastRune_eq
  | failed hp _ hunread he hs =>
    obtain ⟨hstretch, hstop, hnext⟩ := hp.fails hunread he hs
    rw [Outlook.step_readByte_nil hstretch, hstop, hnext]

/-- Bytes that are pushed back are ahead again, and no others can be pushed back. -/
theorem outlook_pushed (b : Bytes) (hstretch : r'.stretch = b ++ r.stretch)
    (hstop : r'.stop = r.stop) (hlater : r'.later = r.later) (hbyte : r'.lastByte = none)
    (hrune : r'.lastRune = none) :
    r'.outlook = { r.outlook.forgetting with stretch := b ++ r.stretch } :=
  Outlook.ext hstretch hstop hlater (backByte_of_none hbyte) (backRune_of_none hrune)

theorem UnreadsByte.outlook_eq {u : Except Error Unit} (hu : r.UnreadsByte u r') :
    (.pushed u, r'.outlook) = r.outlook.step empty .unreadByte := by
  cases hu with
  | nothing hnone =>
    rw [Outlook.step_unreadByte_none (backByte_of_none hnone)]
    exact congrArg (Prod.mk _) (outlook_pushed [] rfl rfl rfl rfl rfl)
  | @restarted b length spare hb hunread =>
    have hbyte : r.outlook.byte = some b := (backByte_of_unread_nil hunread).trans hb
    have hstretch : (r.restarted b length spare).stretch = [b] ++ r.stretch := by
      show [b] ++ _ = [b] ++ (r.window.unread ++ _)
      rw [hunread]
      rfl
    rw [Outlook.step_unreadByte_some hbyte]
    exact congrArg (Prod.mk _) (outlook_pushed [b] hstretch rfl rfl rfl rfl)
  | stuck hb hne hpast =>
    have hbyte : r.outlook.byte = none := by
      show r.backByte = none
      rw [backByte_of_some hb hne, hpast, List.head?_nil]
    rw [Outlook.step_unreadByte_none hbyte]
    exact congrArg (Prod.mk _) (outlook_pushed [] rfl rfl rfl rfl rfl)
  | moved hb hne hpast =>
    obtain ⟨b, past, hpast⟩ := List.exists_cons_of_ne_nil hpast
    have hbyte : r.outlook.byte = some b := by
      show r.backByte = some b
      rw [backByte_of_some hb hne, hpast, List.head?_cons]
    have hstretch : (r.retreating 1).stretch = [b] ++ r.stretch := by
      show (r.window.past.take 1).reverse ++ r.window.unread ++ _ = [b] ++ (r.window.unread ++ _)
      rw [hpast]
      rfl
    rw [Outlook.step_unreadByte_some hbyte]
    exact congrArg (Prod.mk _) (outlook_pushed [b] hstretch rfl rfl rfl rfl)

/-- Past a rune, the bytes of the rune can be pushed back. -/
theorem backRune_deliveringRune {σ : Type} (r : Reader σ) {width : Nat} (hle : width ≤ r.buffered) :
    (r.deliveringRune width).backRune = some (r.window.unread.take width) := by
  have hpast : (r.deliveringRune width).window.past =
      (r.window.unread.take width).reverse ++ r.window.past := rfl
  have hlength : (r.window.unread.take width).reverse.length = width := by
    rw [List.length_reverse, List.length_take_of_le hle]
  have hreaches : width ≤ (r.deliveringRune width).window.past.length := by
    rw [hpast, List.length_append, hlength]
    exact Nat.le_add_right ..
  rw [backRune_of_le rfl hreaches, hpast, List.take_left' hlength, List.reverse_reverse]

theorem ReadsRune.outlook_eq {c : Except Error (Char × Nat)} (hr : r.ReadsRune ds c r') :
    (.rune c, r'.outlook) = r.outlook.step empty .readRune := by
  cases hr with
  | @got r₁ hp _ hne hends =>
    have hdecode : Rune.decode r₁.window.unread = Rune.decode r.outlook.stretch := by
      rw [← decode_stretch hends, hp.stretch_eq]
      rfl
    obtain ⟨hpos, hle⟩ := Rune.width_decode hne
    rw [hdecode] at hpos hle ⊢
    generalize hwidth : (Rune.decode r.outlook.stretch).2 = width at hpos hle ⊢
    have htake : r.outlook.stretch.take width = r₁.window.unread.take width := by
      show r.stretch.take width = _
      rw [← hp.stretch_eq]
      exact List.take_append_of_le_length hle
    have hrune : r.outlook.stretch.take width ≠ [] := by
      rw [htake]
      exact List.ne_nil_of_length_pos (by rw [List.length_take_of_le hle]; exact hpos)
    have hstretch : r.outlook.stretch ≠ [] := by
      intro hnil
      rw [hnil, List.take_nil] at hrune
      exact hrune rfl
    have hreturnable : (r₁.deliveringRune width).Returnable (r.outlook.stretch.take width) := by
      have hhead := head?_past_append (htake ▸ hrune) r₁.window.past
      rw [htake]
      exact ⟨hhead, .inr hhead⟩
    rw [Outlook.step_readRune_of_ne_nil hstretch, hwidth]
    refine congrArg (Prod.mk _) (Outlook.ext ?_ hp.stop_eq hp.later_eq ?_ ?_)
    · have hsplit : r.outlook.stretch =
          r.outlook.stretch.take width ++ (r₁.deliveringRune width).stretch := by
        rw [htake]
        exact hp.stretch_eq.symm.trans (r₁.stretch_delivering width)
      exact List.append_cancel_left (hsplit.symm.trans (List.take_append_drop ..).symm)
    · exact hreturnable.backByte_eq hrune
    · exact (r₁.backRune_deliveringRune hle).trans (congrArg some htake.symm)
  | failed hp _ hunread he hs =>
    obtain ⟨hstretch, hstop, hnext⟩ := hp.forgetRune.fails hunread he hs
    rw [Outlook.step_readRune_nil hstretch, hstop, hnext]

theorem UnreadsRune.outlook_eq {u : Except Error Unit} (hu : r.UnreadsRune u r') :
    (.pushed u, r'.outlook) = r.outlook.step empty .unreadRune := by
  cases hu with
  | @moved width hwidth hle =>
    rw [Outlook.step_unreadRune_some (backRune_of_le hwidth hle)]
    exact congrArg (Prod.mk _)
      (outlook_pushed (r.window.past.take width).reverse (List.append_assoc ..) rfl rfl rfl rfl)
  | refused hrefused => rw [Outlook.step_unreadRune_none (backRune_of_refused hrefused)]

/-! ## Records -/

section Records

variable {delim : UInt8} {p : Passage}

/-- A scan that ends with an error has reported it, and the next stretch is ahead. -/
theorem Scans.follows (hs : r.Scans delim ds p r') (h : r.stop ≠ .bufferFull) :
    (p.fault = none ∨ p.fault = some .bufferFull → r'.later = r.later) ∧
      (¬ (p.fault = none ∨ p.fault = some .bufferFull) →
        r.later = following r'.stretch r'.stop r'.later) := by
  cases hs with
  | found hp => exact ⟨fun _ => hp.later_eq, fun hno => absurd (.inl rfl) hno⟩
  | full hp => exact ⟨fun _ => hp.later_eq, fun hno => absurd (.inr rfl) hno⟩
  | @ended r₁ r₂ e hp _ he hs =>
    have hstop : e = r.stop := by rw [← hp.stop_eq, stop_of_latched he]
    constructor
    · rintro (hnone | hfull)
      · cases hnone
      · exact absurd (hstop.symm.trans (Option.some.inj hfull)) h
    · intro _
      have hlater : r₂.later = r.later :=
        (later_congr hs.source_eq hs.fault_eq).trans hp.later_eq
      rw [← hlater]
      exact later_cleared (hs.fault_eq.trans he) hs.unread_eq

/-- By induction on the scans: only the last may report an error. -/
theorem Collects.follows (hc : r.Collects delim ds p r') (h : r.stop ≠ .bufferFull) :
    (p.fault = none → r'.later = r.later) ∧
      (p.fault ≠ none → r.later = following r'.stretch r'.stop r'.later) := by
  induction hc with
  | last hs hfault =>
    obtain ⟨hgoes, hends⟩ := hs.follows h
    exact ⟨fun hnone => hgoes (.inl hnone), fun hne => hends (not_or.mpr ⟨hne, hfault⟩)⟩
  | more hs hfull _ ih =>
    have hlater := (hs.follows h).1 (.inr hfull)
    obtain ⟨hgoes, hends⟩ := ih ((hs.fills h hfull).stop_eq.symm ▸ h)
    exact ⟨fun hnone => (hgoes hnone).trans hlater, fun hne => hlater.symm.trans (hends hne)⟩

omit [ErringSource τ] [CourseSource τ] in
/-- By induction on the scans: the last byte of a record can be pushed back, or none can. -/
theorem Collects.leaves (hc : r.Collects delim ds p r') :
    r'.lastByte = none ∨ (p.bytes ≠ [] ∧ r'.Returnable p.bytes) := by
  induction hc with
  | @last r r₁ ds p hs =>
    by_cases hne : p.bytes = []
    · left
      show p.bytes.getLast? = none
      rw [hne, List.getLast?_nil]
    · exact .inr ⟨hne, returnable_noteDelivered (hs.takes.2 hne)⟩
  | @more r r₁ r₂ ds es p q _ _ _ ih =>
    refine ih.imp id ?_
    intro ⟨hne, hlast, hpast⟩
    have hsame : (p.bytes ++ q.bytes).getLast? = q.bytes.getLast? := by
      rw [List.getLast?_append, List.getLast?_eq_some_getLast hne, Option.some_or]
    exact ⟨List.append_ne_nil_of_right_ne_nil _ hne, hlast.trans hsame.symm,
      hpast.imp id fun hhead => hhead.trans hsame.symm⟩

/-- **What collecting a record comes to**: the record that is ahead. -/
theorem Collects.outlook_eq (hc : r.Collects delim ds p r') (h : r.stop ≠ .bufferFull) :
    p = (r.outlook.record delim).1 ∧
      r'.outlook = { (r.outlook.record delim).2 with byte := r'.backByte, rune := none } := by
  have htakes := hc.takesRecord h
  obtain ⟨hgoes, hends⟩ := hc.follows h
  have hrune : r'.backRune = none := backRune_of_none hc.lastRune_eq
  unfold Outlook.record
  cases hi : r.outlook.stretch.idxOf? delim with
  | none =>
    have hp := htakes.of_not_mem (List.idxOf?_eq_none_iff.mp hi)
    have hlater : r.outlook.later = following r'.stretch r'.stop r'.later :=
      hends (by rw [hp]; rintro ⟨⟩)
    refine ⟨hp, Outlook.ext ?_ ?_ ?_ rfl hrune⟩
    · show r'.stretch = (r.outlook.later 0).1
      rw [hlater]
      rfl
    · show r'.stop = (r.outlook.later 0).2
      rw [hlater]
      rfl
    · show r'.later = fun i => r.outlook.later (i + 1)
      rw [hlater]
      rfl
  | some i =>
    obtain ⟨before, htake, hsplit, hno⟩ := exists_append_of_idxOf? hi
    obtain ⟨hp, hstretch, hstop⟩ := htakes.of_split before _ hsplit hno
    refine ⟨?_, Outlook.ext hstretch hstop (hgoes (by rw [hp])) rfl hrune⟩
    show p = ⟨r.outlook.stretch.take (i + 1), none⟩
    rw [hp, htake]

variable {sh sh' : Shared}

omit [CourseSource τ] in
/-- Nothing can be pushed back just if the last piece of the record is empty. -/
theorem lastByte_of_readBytes (h : r.WF) (hok : r.readBytes delim sh = .ok (p, r') sh') :
    Op.EndsEmpty r sh (.readBytes delim) ↔ r'.lastByte = none := by
  have : HonestSource (fun _ => True) τ := .of_returns
  obtain ⟨ds, q, hlast, b, -, hreturnable, hnone⟩ :=
    (readBytes_takes_pieces (H := fun _ => True) trivial delim h).of_ok hok
  constructor
  · intro ⟨q', hlast', hempty⟩
    exact hnone (hlast.unique hlast' ▸ hempty)
  · intro hforgot
    refine ⟨q, hlast, Decidable.byContradiction fun hne => ?_⟩
    obtain ⟨hb, hbyte, -⟩ := hreturnable hne
    rw [hforgot, List.getLast?_eq_some_getLast hb] at hbyte
    cases hbyte

/-- A record with nothing to be pushed back behind it ends with an empty piece. -/
theorem readBytes_outlook (h : r.Proper) (hpatience : r.stretch.length < sh.patience) :
    Act.Returns (r.readBytes delim) sh fun (p, r') _ => r'.Proper ∧
      ∃ empty, (empty = true ↔ Op.EndsEmpty r sh (.readBytes delim)) ∧
        (.passage p, r'.outlook) = r.outlook.step empty (.readBytes delim) ∧
        (empty = false → r'.outlook.byte ≠ none) := by
  have : HonestSource (fun _ => True) τ := .of_returns
  obtain ⟨⟨p, r'⟩, sh', hok, -, hproper⟩ := (readBytes_takes h delim hpatience).exists_ok
  obtain ⟨ds, hc⟩ := (readBytes_meets (H := fun _ => True) trivial h.wf delim).of_ok hok
  obtain ⟨hp, houtlook⟩ := hc.outlook_eq (stop_ne_full_iff.mpr h.fault_ne_full)
  have hforgot := lastByte_of_readBytes h.wf hok
  refine Act.meets_of_eq hok ⟨hproper, r'.lastByte.isNone, ?_, ?_, ?_⟩
  · rw [hforgot, Option.isNone_iff_eq_none]
  · show _ = (Outcome.passage (r.outlook.record delim).1,
      { (r.outlook.record delim).2 with
        byte := if r'.lastByte.isNone = true then none
          else (r.outlook.record delim).1.bytes.getLast?,
        rune := none })
    rw [houtlook, ← hp]
    rcases hc.leaves with hnone | ⟨hne, hreturnable⟩
    · rw [backByte_of_none hnone, hnone]
      rfl
    · have hlast := hreturnable.lastByte.trans (List.getLast?_eq_some_getLast hne)
      rw [hreturnable.backByte_eq hne, hlast]
      rfl
  · intro hsome hnone
    rcases hc.leaves with hforgot | ⟨hne, hreturnable⟩
    · rw [hforgot] at hsome
      cases hsome
    · have hbyte := hreturnable.backByte_eq hne
      rw [show r'.backByte = none from hnone, List.getLast?_eq_some_getLast hne] at hbyte
      cases hbyte

end Records

/-! ## Every operation -/

/-- There is patience enough for the operation: a record takes one scan for each byte ahead
at most. -/
def StreamOp.Affordable {τ : Type} [ByteSource τ] [ErringSource τ] (r : Reader τ) (sh : Shared) :
    StreamOp → Prop
  | .readBytes _ => r.stretch.length < sh.patience
  | _ => True

/-- **Every operation is one on the outlook.** -/
theorem perform_outlook (h : r.Proper) (op : StreamOp) (sh : Shared)
    (hpatience : op.Affordable r sh) :
    Act.Returns (perform op.op r) sh fun (outcome, r') _ => r'.Proper ∧
      ∃ empty, (empty = true ↔ op.op.EndsEmpty r sh) ∧
        (outcome, r'.outlook) = r.outlook.step empty op ∧
        (∀ delim, op = .readBytes delim → empty = false → r'.outlook.byte ≠ none) := by
  cases op with
  | readByte =>
    refine Act.meets_bind.mpr ((readByte_meets h.wf).imp ?_)
    intro ⟨x, r'⟩ sh' ⟨ds, hb⟩
    exact ⟨Performs.proper (.readByte hb) h, false, by simp [StreamOp.op, Op.EndsEmpty],
      hb.outlook_eq, nofun⟩
  | unreadByte =>
    refine Act.meets_bind.mpr ((unreadByte_meets r).imp ?_)
    intro ⟨u, r'⟩ sh' hu
    exact ⟨Performs.proper (.unreadByte hu) h, false, by simp [StreamOp.op, Op.EndsEmpty],
      hu.outlook_eq, nofun⟩
  | readRune =>
    refine Act.meets_bind.mpr ((readRune_meets h.wf).imp ?_)
    intro ⟨c, r'⟩ sh' ⟨ds, hc⟩
    exact ⟨Performs.proper (.readRune hc) h, false, by simp [StreamOp.op, Op.EndsEmpty],
      hc.outlook_eq, nofun⟩
  | unreadRune =>
    have hu := r.unreadRune_does
    exact ⟨Performs.proper (.unreadRune hu) h, false, by simp [StreamOp.op, Op.EndsEmpty],
      hu.outlook_eq, nofun⟩
  | readBytes delim =>
    refine Act.meets_bind.mpr ((readBytes_outlook h hpatience).imp ?_)
    intro ⟨p, r'⟩ sh' ⟨hproper, empty, hempty, hstep, hsome⟩
    exact ⟨hproper, empty, hempty, hstep, fun _ _ => hsome⟩

end Reader

end BufferedStream
