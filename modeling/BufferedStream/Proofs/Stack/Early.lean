import BufferedStream.Proofs.Reader.Operation
import BufferedStream.Proofs.Script
import BufferedStream.Proofs.Stack.Scan

/-!
# When a stack reports the end early

A stack of readers over a source of finitely many bytes should report the end only
once every byte is delivered.  It does so, with two exceptions (`Reader.Exposed`):
a read without room takes the end that is latched behind unread bytes, and a scan
that starts on a full buffer offers no room to the layer below, which does the same.

* `Reader.EndsEarly`, `Reader.EndsNext` — the end is reported although bytes remain,
  by an operation, or by the reading of a byte next.
* `Reader.Performs.early_iff` — an operation on a sound reader reports the end early,
  or has it reported early, just if it is exposed.
-/

namespace BufferedStream

namespace Reader

/-- The operations that move on through the stream. -/
def Op.IsForward : Op → Prop
  | .peek _ => True
  | .read _ => True
  | .readByte => True
  | .readRune => True
  | .readSlice _ => True
  | .readBytes _ => True
  | _ => False

/-- The end of the stream is reported. -/
def Outcome.ReportsEnd : Outcome → Prop
  | .passage p => p.fault = some .eof
  | .reading g => g.fault = some .eof
  | .byte b => b = .error .eof
  | .rune c => c = .error .eof
  | _ => False

variable {σ : Type} [ByteSource σ] [Layer σ] {r r' : Reader σ} {ds : List Draw}

/-- The end was reported although bytes remain; a peek may do so if it asked for more
than remain. -/
def EndsEarly (op : Op) (outcome : Outcome) (r' : Reader σ) : Prop :=
  outcome.ReportsEnd ∧ r'.remaining ≠ [] ∧ ∀ n, op = .peek n → n ≤ r'.remaining.length

/-- Reading a byte next reports the end although bytes remain. -/
def EndsNext (r : Reader σ) : Prop :=
  ∀ sh, Act.Returns r.readByte sh fun (b, r') _ => b = .error .eof ∧ r'.remaining ≠ []

/-- The operation meets the end where it is latched too early, or gets it latched so. -/
def Exposed (r : Reader σ) : Op → Prop
  | .read room => room.size = 0 ∧ r.Hasty
  | .readSlice delim => r.ScansHasty delim
  | .readBytes delim => r.ScansHasty delim
  | _ => False

/-! ## What operations on a sound reader come to -/

/-- A sound reader that reports an error has nothing left to read from its source. -/
theorem Sound.remaining_cleared {r₁ : Reader σ} {e : Error} (h : r₁.Sound) (he : r₁.fault = some e)
    (hsource : r'.source = r₁.source) (hunread : r'.window.unread = r₁.window.unread) :
    r'.remaining = r₁.window.unread := by
  rw [remaining, hsource, (h.fault_eq he).2, List.append_nil, hunread]

theorem Peeks.not_early {n : Nat} {p : Passage} (hp : r.Peeks n ds p r') (h : r.Sound) :
    r'.Sound ∧ ¬ EndsEarly (.peek n) (.passage p) r' := by
  cases hp with
  | tooLarge =>
    refine ⟨h.forgetRune, ?_⟩
    rintro ⟨⟨⟩, -⟩
  | seen hp hroom =>
    refine ⟨(hp.sound h.forgetRune hroom).1, ?_⟩
    rintro ⟨⟨⟩, -⟩
  | @short _ r₁ e hp hroom hlt he =>
    have hsound := (hp.sound h.forgetRune hroom).1
    refine ⟨hsound.congr hp.wf.cleared rfl (.inl rfl), ?_⟩
    rintro ⟨-, -, hpeek⟩
    have hunread : r₁.cleared.remaining = r₁.window.unread := hsound.remaining_cleared he rfl rfl
    have hle := hpeek n rfl
    rw [hunread] at hle
    exact absurd hlt (Nat.not_lt.mpr hle)

/-- A read reports the end early just if it offers no room and the end is latched
behind unread bytes. -/
theorem ReadsInto.early_iff {room : Room} {g : Reading} (hr : r.ReadsInto room ds g r')
    (h : r.Sound) :
    r'.Sound ∧ (EndsEarly (.read room) (.reading g) r' ↔ r.Exposed (.read room)) := by
  have hserves := hr.serves h
  refine ⟨hserves.sound, ?_⟩
  have hearly : EndsEarly (.read room) (.reading g) r' ↔
      g.fault = some .eof ∧ r'.remaining ≠ [] :=
    ⟨fun ⟨heof, hne, _⟩ => ⟨heof, hne⟩, fun ⟨heof, hne⟩ => ⟨heof, hne, by rintro n ⟨⟩⟩⟩
  rw [hearly]
  by_cases h0 : room.size = 0
  · rw [(hserves.hasty h0).1]
    exact ⟨fun hh => ⟨h0, hh⟩, And.right⟩
  · refine ⟨fun ⟨heof, hne⟩ => ?_, fun hexposed => absurd hexposed.1 h0⟩
    exact absurd ((hserves.ends (Nat.pos_of_ne_zero h0)).1 heof) hne

theorem ReadsByte.not_early {b : Except Error UInt8} (hb : r.ReadsByte ds b r') (h : r.Sound) :
    r'.Sound ∧ ¬ EndsEarly .readByte (.byte b) r' := by
  have hwf := hb.wf
  cases hb with
  | @got r₁ _ _ _ hp hroom _ hs =>
    have hsound := (hp.sound h.forgetRune (h.room_of_unread hroom)).1
    refine ⟨hsound.congr hwf hs.source_eq (.inr hs.fault_eq), ?_⟩
    rintro ⟨⟨⟩, -⟩
  | @failed r₁ r₂ e hp hroom hunread he hs =>
    have hsound := (hp.sound h.forgetRune (h.room_of_unread hroom)).1
    refine ⟨hsound.congr hwf hs.source_eq (.inl rfl), ?_⟩
    rintro ⟨-, hne, -⟩
    apply hne
    exact Eq.trans (hsound.remaining_cleared he hs.source_eq hs.unread_eq) hunread

theorem ReadsRune.not_early {c : Except Error (Char × Nat)} (hc : r.ReadsRune ds c r')
    (h : r.Sound) : r'.Sound ∧ ¬ EndsEarly .readRune (.rune c) r' := by
  have hwf := hc.wf
  cases hc with
  | @got r₁ hp hroom =>
    have hsound := (hp.sound h hroom).1
    refine ⟨hsound.congr hwf rfl (.inr rfl), ?_⟩
    rintro ⟨hend, -⟩
    cases hend
  | @failed r₁ r₂ e hp hroom hunread he hs =>
    have hsound := (hp.sound h hroom).1
    refine ⟨hsound.congr hwf hs.source_eq (.inl rfl), ?_⟩
    rintro ⟨-, hne, -⟩
    apply hne
    exact Eq.trans (hsound.remaining_cleared he hs.source_eq hs.unread_eq) hunread

theorem Scans.not_early {delim : UInt8} {p : Passage} {r₁ : Reader σ}
    (hs : r.Scans delim ds p r₁) (h : r.Sound) (hcalm : ¬ r.ScansHasty delim) :
    (r₁.noteDelivered p.bytes).Sound ∧
      ¬ EndsEarly (.readSlice delim) (.passage p) (r₁.noteDelivered p.bytes) := by
  obtain ⟨hsound, -, hfinds⟩ := hs.finds h hcalm
  refine ⟨hsound.noteDelivered _, ?_⟩
  rintro ⟨heof, hne, -⟩
  change p.fault = some .eof at heof
  cases hfinds with
  | record hfault => exact absurd (hfault.symm.trans heof) (by simp)
  | full hfault => exact absurd (hfault.symm.trans heof) (by simp)
  | ended _ _ hend => exact hne hend

theorem Collects.not_early {delim : UInt8} {p : Passage} (hc : r.Collects delim ds p r')
    (h : r.Sound) (hcalm : ¬ r.ScansHasty delim) :
    r'.Sound ∧ ¬ EndsEarly (.readBytes delim) (.passage p) r' := by
  obtain ⟨hsound, -, hend⟩ := hc.record_eq h hcalm
  exact ⟨hsound, fun ⟨heof, hne, _⟩ => hne (hend heof)⟩

/-- With the end latched prematurely and nothing unread, the next byte is missed. -/
theorem Premature.endsNext (h : r.Premature) (hunread : r.window.unread = []) : r.EndsNext := by
  intro sh
  refine (readByte_meets (H := fun _ => False) h.wf).imp ?_
  rintro ⟨b, r'⟩ sh' ⟨ds, hb⟩
  have hnone : ∀ {r₁ : Reader σ}, Pulled { r with lastRune := none } ds r₁ → ds = [] := by
    intro r₁ hp
    by_cases hds : ds = []
    · exact hds
    · have hfault : r.fault = none := hp.fault_of_calls hds
      rw [h.fault] at hfault
      cases hfault
  cases hb with
  | got hp _ hcons =>
    obtain rfl := hnone hp
    rw [hp.unread, show ({ r with lastRune := none } : Reader σ).window.unread = [] from hunread]
      at hcons
    cases hcons
  | @failed r₁ r₂ e hp _ _ he hs =>
    obtain rfl := hnone hp
    have hfault : r₁.fault = some .eof := hp.fault_eq.trans h.fault
    rw [hfault, Option.some.injEq] at he
    subst he
    refine ⟨rfl, fun hend => h.remaining ?_⟩
    have hsource : r₂.cleared.source = r.source := hs.source_eq.trans hp.calls.nil_eq
    rw [Reader.remaining, hsource, List.append_eq_nil_iff] at hend
    exact hend.2

/-- A sound reader does not miss its next byte. -/
theorem Sound.not_endsNext (h : r.Sound) : ¬ r.EndsNext := by
  intro hnext
  obtain ⟨⟨b, r'⟩, sh', -, ⟨rfl, hne⟩, ds, hb⟩ :=
    Act.Returns.exists_ok ((hnext { pools := [] }).and (readByte_meets h.wf))
  exact (hb.not_early h).2 ⟨rfl, hne, by rintro n ⟨⟩⟩

/-- **What an operation on a sound reader comes to.**  If it is exposed, the end is
reported early, at once or next; if not, neither happens and the reader stays
sound. -/
theorem Performs.early_iff {op : Op} {outcome : Outcome} (hp : r.Performs op ds outcome r')
    (hop : op.IsForward) (h : r.Sound) :
    (EndsEarly op outcome r' ∨ r'.EndsNext ↔ r.Exposed op) ∧ (¬ r.Exposed op → r'.Sound) := by
  have hcalm : r'.Sound ∧ ¬ EndsEarly op outcome r' → ¬ r.Exposed op →
      (EndsEarly op outcome r' ∨ r'.EndsNext ↔ r.Exposed op) ∧ (¬ r.Exposed op → r'.Sound) := by
    rintro ⟨hsound, hearly⟩ hexposed
    refine ⟨⟨fun hends => ?_, fun hexp => absurd hexp hexposed⟩, fun _ => hsound⟩
    exact hends.elim (fun hends => absurd hends hearly) fun hnext => absurd hnext hsound.not_endsNext
  have hexposed : r.Exposed op → EndsEarly op outcome r' ∨ r'.EndsNext →
      (EndsEarly op outcome r' ∨ r'.EndsNext ↔ r.Exposed op) ∧ (¬ r.Exposed op → r'.Sound) :=
    fun hexposed hends => ⟨⟨fun _ => hexposed, fun _ => hends⟩, fun hcalm => absurd hexposed hcalm⟩
  cases hp with
  | peek hp => exact hcalm (hp.not_early h) id
  | read hr =>
    obtain ⟨hsound, hearly⟩ := hr.early_iff h
    refine ⟨⟨fun hends => ?_, fun hexposed => .inl (hearly.mpr hexposed)⟩, fun _ => hsound⟩
    exact hearly.mp (hends.resolve_right hsound.not_endsNext)
  | readByte hb => exact hcalm (hb.not_early h) id
  | readRune hc => exact hcalm (hc.not_early h) id
  | @readSlice delim _ p r₁ hs =>
    by_cases hhasty : r.ScansHasty delim
    · obtain ⟨-, -, hpremature, hunread, -⟩ := hs.premature h hhasty
      exact hexposed hhasty (.inr ((hpremature.noteDelivered _).endsNext hunread))
    · exact hcalm (hs.not_early h hhasty) hhasty
  | @readBytes delim _ p _ hc =>
    by_cases hhasty : r.ScansHasty delim
    · obtain ⟨heof, hne⟩ := hc.ends_early h hhasty
      exact hexposed hhasty (.inl ⟨heof, hne, by rintro n ⟨⟩⟩)
    · exact hcalm (hc.not_early h hhasty) hhasty
  | unreadByte => exact hop.elim
  | unreadRune => exact hop.elim
  | readLine => exact hop.elim
  | readString => exact hop.elim
  | plainRead => exact hop.elim
  | fillBuf => exact hop.elim
  | consume => exact hop.elim
  | adapt => exact hop.elim

/-- An operation on a sound reader returns; a record may need some patience. -/
theorem perform_returns {op : Op} (hop : op.IsForward) (h : r.Sound) {sh : Shared}
    (hpatience : ∀ delim, op = .readBytes delim → r.remaining.length < sh.patience) :
    Act.Returns (perform op r) sh fun (outcome, r') _ => ∃ ds, r.Performs op ds outcome r' := by
  cases op with
  | peek n =>
    refine Act.meets_bind.mpr ((peek_meets h.wf n).imp ?_)
    rintro ⟨p, r'⟩ sh' ⟨ds, hp⟩
    exact ⟨ds, .peek hp⟩
  | read room =>
    refine Act.meets_bind.mpr ((read_meets h.wf room).imp ?_)
    rintro ⟨g, r'⟩ sh' ⟨ds, hr⟩
    exact ⟨ds, .read hr⟩
  | readByte =>
    refine Act.meets_bind.mpr ((readByte_meets h.wf).imp ?_)
    rintro ⟨b, r'⟩ sh' ⟨ds, hb⟩
    exact ⟨ds, .readByte hb⟩
  | readRune =>
    refine Act.meets_bind.mpr ((readRune_meets h.wf).imp ?_)
    rintro ⟨c, r'⟩ sh' ⟨ds, hc⟩
    exact ⟨ds, .readRune hc⟩
  | readSlice delim =>
    refine Act.meets_bind.mpr ((readSlice_meets h.wf delim).imp ?_)
    rintro ⟨p, r'⟩ sh' ⟨ds, r₁, hs, rfl⟩
    exact ⟨ds, .readSlice hs⟩
  | readBytes delim =>
    refine Act.meets_bind.mpr ((readBytes_returns h (hpatience delim rfl)).imp ?_)
    rintro ⟨p, r'⟩ sh' ⟨ds, hc⟩
    exact ⟨ds, .readBytes hc⟩
  | _ => exact hop.elim

end Reader

end BufferedStream
