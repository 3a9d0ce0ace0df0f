import BufferedStream.Proofs.Calm
import BufferedStream.Proofs.Decoding
import BufferedStream.Proofs.Reader.Operation

/-!
# A reader decodes its stream

Read rune by rune, the stretch ahead of a reader comes out as what its bytes decode to,
and then the error behind it is reported.  Neither the pieces in which the source hands
the bytes out nor the size of the buffer has a part in it.

* `Reader.ReadsRune.nextRune` — one rune, told from the stretch.
* `Reader.readRunes_meet` — a stretch read to its end, from wherever the reader stands.
* `Reader.readRune_decodes` — a stream read from its start.
-/

namespace BufferedStream

open ErringSource (ahead)

namespace Reader

variable {τ : Type} [ByteSource τ] [ErringSource τ] {r r' r₁ : Reader τ} {ds : List Draw}

/-! ## One rune -/

/-- What the next rune is: the first that the stretch decodes to, or the error behind an
empty stretch. -/
inductive NextRune (r : Reader τ) : Except Error (Char × Nat) → Reader τ → Prop
  | got {r' : Reader τ} (hne : r.stretch ≠ []) (hwf : r'.WF)
      (hstretch : r'.stretch = r.stretch.drop (Rune.decode r.stretch).2)
      (hstop : r'.stop = r.stop) : NextRune r (.ok (Rune.decode r.stretch)) r'
  | ended {r' : Reader τ} (hempty : r.stretch = []) : NextRune r (.error r.stop) r'

/-- Once the buffer is filled for a rune, the unread bytes decide what the stretch
begins with: either they are settled, or an error is latched and they are all of it. -/
theorem decode_stretch (hends : Rune.maxWidth ≤ r₁.buffered ∨
    Rune.isSettled r₁.window.unread = true ∨ r₁.fault.isSome = true) :
    Rune.decode r₁.stretch = Rune.decode r₁.window.unread := by
  rcases hends with hfull | hsettled | hsome
  · exact Rune.decode_append (Rune.isSettled_of_maxWidth_le hfull) _
  · exact Rune.decode_append hsettled _
  · obtain ⟨e, he⟩ := Option.isSome_iff_exists.mp hsome
    rw [stretch_of_latched he]

/-- **What reading a rune comes to.** -/
theorem ReadsRune.nextRune {c : Except Error (Char × Nat)} (hr : r.ReadsRune ds c r') :
    r.NextRune c r' := by
  have hwf := hr.wf
  cases hr with
  | @got r₁ hp _ hne hends =>
    have hdecode : Rune.decode r₁.window.unread = Rune.decode r.stretch := by
      rw [← hp.stretch_eq, decode_stretch hends]
    rw [hdecode] at hwf ⊢
    refine .got ?_ hwf ?_ hp.stop_eq
    · rw [← hp.stretch_eq]
      exact List.append_ne_nil_of_left_ne_nil hne _
    · have hwidth := (Rune.width_decode hne).2
      rw [hdecode] at hwidth
      show r₁.window.unread.drop _ ++ _ = _
      rw [← List.drop_append_of_le_length hwidth, ← hp.stretch_eq]
      rfl
  | @failed r₁ r₂ e hp _ hunread he _ =>
    rw [← stop_of_latched he, hp.stop_eq]
    refine .ended ?_
    rw [← hp.stretch_eq, stretch_of_latched he, hunread]

theorem readRune_nextRune (h : r.WF) (sh : Shared) :
    Act.Returns r.readRune sh fun (c, r') _ => r.NextRune c r' :=
  (readRune_meets h).imp fun _ _ ⟨_, hr⟩ => hr.nextRune

/-! ## Rune after rune -/

/-- The outcomes of reading runes: these runes, and then the error. -/
def runesThen (rs : List (Char × Nat)) (e : Error) : List Outcome :=
  rs.map (fun r => .rune (.ok r)) ++ [.rune (.error e)]

/-- **A stretch is read to its end.**  By induction on the runes that it decodes to. -/
theorem readRunes_meet {rs : List (Char × Nat)} (h : r.WF) (hrs : Rune.Decodes r.stretch rs)
    (sh : Shared) :
    Act.Returns (Act.performAll perform (List.replicate (rs.length + 1) .readRune) r) sh
      fun entries _ => entries.map Entry.outcome = runesThen rs r.stop := by
  induction rs generalizing r sh with
  | nil =>
    refine Act.meets_bind.mpr (Act.meets_bind.mpr ((readRune_nextRune h sh).imp ?_))
    rintro ⟨c, r'⟩ sh' hnext
    cases hnext with
    | got hne => exact absurd hrs.eq_nil hne
    | ended => rfl
  | cons c rs ih =>
    obtain ⟨hne, rfl, hrest⟩ := hrs.head
    refine Act.meets_bind.mpr (Act.meets_bind.mpr ((readRune_nextRune h sh).imp ?_))
    rintro ⟨c, r'⟩ sh' hnext
    cases hnext with
    | got _ hwf hstretch hstop =>
      rw [← hstretch] at hrest
      refine Act.meets_bind.mpr ((ih hwf hrest sh').imp ?_)
      intro entries sh'' houtcomes
      rw [hstop] at houtcomes
      exact congrArg (Outcome.rune (.ok (Rune.decode r.stretch)) :: ·) houtcomes
    | ended hempty => exact absurd hempty hne

/-- **A reader decodes its stream.**  Over any source that hands out its bytes in whatever
pieces and then reports the end, and with a buffer of any size: reading runes brings what
the bytes decode to, which is one row of runes whose widths add up to the number of
bytes, and then the end. -/
theorem readRune_decodes (s : τ) (hend : ErringSource.stop s = .eof) (size : Nat) (pool : PoolId)
    (sh : Shared) :
    ∃ rs, Rune.Decodes (ahead s) rs ∧ (∀ rs', Rune.Decodes (ahead s) rs' → rs' = rs) ∧
      (rs.map Prod.snd).sum = (ahead s).length ∧
      Act.Returns (Act.performAll perform (List.replicate (rs.length + 1) .readRune)
        (withCapacity s size pool)) sh
        fun entries _ => entries.map Entry.outcome = runesThen rs .eof := by
  obtain ⟨rs, hrs⟩ := Rune.exists_decodes (ahead s)
  refine ⟨rs, hrs, fun rs' hrs' => hrs.unique hrs', hrs.sum_widths, ?_⟩
  have hwf := wf_withCapacity s size pool
  have hread := readRunes_meet (r := withCapacity s size pool) hwf hrs sh
  rwa [stop_of_fault_eq_none rfl, show (withCapacity s size pool).source = s from rfl, hend] at hread

/-- A letter, a surrogate's bytes, a character in three pieces, an overlong form, and a
character that the end cuts off, with silence in between. -/
def brokenText : Script.Calm where
  source :=
    { items := [.piece [0x61, 0xed, 0xa0] none, .piece [0x80, 0xf0] none, .idle 99,
        .piece [0x9f, 0x98] none, .piece [] none, .piece [0x80, 0xc0, 0xaf, 0xe2] none,
        .piece [0x82] (some .eof)] }

theorem readRune_decodes_brokenText :
    ErringSource.stop brokenText = .eof ∧
      ∃ rs, Rune.Decodes (ahead brokenText) rs ∧ (rs.map Prod.snd).sum = 12 ∧
        Act.Returns (Act.performAll perform (List.replicate (rs.length + 1) .readRune)
          (withCapacity brokenText 16 0)) { pools := [] }
          fun entries _ => entries.map Entry.outcome = runesThen rs .eof := by
  have hend : ErringSource.stop brokenText = .eof := rfl
  obtain ⟨rs, hrs, -, hwidths, hread⟩ := readRune_decodes brokenText hend 16 0 { pools := [] }
  exact ⟨hend, rs, hrs, hwidths, hread⟩

end Reader

end BufferedStream
