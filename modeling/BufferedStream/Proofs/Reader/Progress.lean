import BufferedStream.Proofs.Reader.Fill
import BufferedStream.Proofs.Script

/-!
# A filling makes progress or says why not

A filling calls the source until something comes of it.  So of its calls only the last can have
brought a byte or an error, and if that one brought nothing either, the reader has given up
after a hundred of them, or there was no room to begin with.

* `FillCalls.parted` — the calls of a filling, parted into idle ones and the last.
* `Reader.Progress` — what a filling leaves, and what its last call tells of that.
* `Reader.fill_progresses` — every filling does so, over any honest source.
-/

namespace BufferedStream

open History (draws given)

namespace Reader

/-! ## The last call of a filling -/

/-- The last of so many calls was idle as well, although there was room. -/
def Stalled (room rounds : Nat) (before : List Draw) (last : Draw) : Prop :=
  before.length + 1 = rounds ∧ last = .idle room ∧ 0 < room

/-- **A filling parted at its last call.**  By induction on the calls: those before are idle, and
the last brings something, finds no room, or is the last one allowed. -/
theorem FillCalls.parted {room rounds : Nat} {ds : List Draw} {fault : Option Error}
    (h : FillCalls room rounds ds fault) : ∃ before last, ds = before ++ [last] ∧
      before.length + 1 ≤ rounds ∧ (∀ d ∈ before, d = .idle room) ∧
        (fault = last.reading.fault ∧
            (fault.isSome = true ∨ 0 < last.reading.count ∨ room = 0 ∧ before = []) ∨
          Stalled room rounds before last ∧ fault = some .noProgress) := by
  induction h with
  | @brought rounds g hbrings =>
    refine ⟨[], ⟨room, g⟩, rfl, ?_, by simp, .inl ⟨rfl, ?_⟩⟩
    · simp
    · exact hbrings.imp id fun hmore => hmore.imp id fun hnone => ⟨hnone, rfl⟩
  | stalled hroom => exact ⟨[], .idle room, rfl, by simp, by simp, .inr ⟨⟨rfl, rfl, hroom⟩, rfl⟩⟩
  | @again rounds ds fault hroom _ ih =>
    obtain ⟨before, last, rfl, hle, hidle, hends⟩ := ih
    refine ⟨.idle room :: before, last, rfl, ?_, ?_, ?_⟩
    · simp only [List.length_cons]
      omega
    · intro d hd
      rcases List.mem_cons.mp hd with rfl | hd
      · rfl
      · exact hidle d hd
    · rcases hends with ⟨hfault, hbrings⟩ | ⟨⟨hlength, hlast, -⟩, hfault⟩
      · refine .inl ⟨hfault, hbrings.imp id fun hmore => hmore.imp id fun hnone => ?_⟩
        exact absurd hroom (by omega)
      · refine .inr ⟨⟨?_, hlast, hroom⟩, hfault⟩
        simp only [List.length_cons]
        omega

/-! ## What a filling leaves -/

/-- What a filling leaves of the reader `r`, when it made the calls `before` and then `last`. -/
structure Progress {σ : Type} (r : Reader σ) (before : List Draw) (last : Draw) (r' : Reader σ) :
    Prop where
  /-- The unread bytes stand at the start of the block, and behind them what came. -/
  past : r'.window.past = []
  unread : r'.window.unread = r.window.unread ++ drawn (before ++ [last])
  size : r'.size = r.size
  fits : r'.buffered ≤ r'.size
  calls_le : (before ++ [last]).length ≤ maxEmptyReads
  /-- Every call offers the room behind the unread bytes. -/
  offered : ∀ d ∈ before ++ [last], d.offered = r.size - r.buffered
  /-- Only the last call brought anything. -/
  idle : ∀ d ∈ before, d.reading.count = 0 ∧ d.reading.data = [] ∧ d.reading.fault = none
  /-- What is latched was reported by the last call, or a hundred calls in a row were idle. -/
  latched : ∀ e, r'.fault = some e ↔ last.reading.fault = some e ∨
    e = .noProgress ∧ Stalled (r.size - r.buffered) maxEmptyReads before last
  /-- If nothing is latched there are more bytes, or there was no room for any. -/
  brought : r'.fault = none → 0 < last.reading.count ∨ r.buffered = r.size

variable {σ : Type} [ByteSource σ]

theorem Filled.progress_parted {r r' : Reader σ} {ds : List Draw} (hf : r.Filled ds r')
    (hfits : r.buffered ≤ r.size) (hfault : r.fault = none) :
    ∃ before last, ds = before ++ [last] ∧ r.Progress before last r' := by
  obtain ⟨s, fault, spare, length, -, hmade, rfl⟩ := hf
  have hdrawn := hmade.length_drawn_le
  have hoffered := hmade.offered_eq
  have hlatch : (r.taking s ds fault spare length).fault = fault := by simp [taking, hfault]
  obtain ⟨before, last, rfl, hle, hidle, hends⟩ := hmade.parted
  refine ⟨before, last, rfl, ?_⟩
  exact
    { past := rfl
      unread := rfl
      size := rfl
      fits := by
        simp only [buffered, taking, List.length_append] at hfits hdrawn ⊢
        omega
      calls_le := by simpa using hle
      offered := hoffered
      idle := by
        intro d hd
        rw [hidle d hd]
        exact ⟨rfl, rfl, rfl⟩
      latched := by
        intro e
        rw [hlatch]
        rcases hends with ⟨hlast, hbrings⟩ | ⟨hstalled, hnone⟩
        · rw [hlast]
          refine ⟨.inl, fun h => h.resolve_right ?_⟩
          -- a last call that brought something was not idle
          rintro ⟨-, -, hlast', hroom⟩
          rw [hlast, hlast'] at hbrings
          simp [Draw.idle, Reading.ofBytes] at hbrings
          omega
        · rw [hnone, hstalled.2.1]
          constructor
          · intro h
            exact .inr ⟨(Option.some.inj h).symm, hstalled.1, rfl, hstalled.2.2⟩
          · rintro (h | ⟨rfl, -⟩)
            · cases h
            · rfl
      brought := by
        intro hnone
        rw [hlatch] at hnone
        rcases hends with ⟨-, hbrings⟩ | ⟨-, hsome⟩
        · rcases hbrings with hsome | hcount | ⟨hroom, -⟩
          · simp [hnone] at hsome
          · exact .inl hcount
          · right
            omega
        · rw [hnone] at hsome
          cases hsome }

variable {H : Halt → Prop}

/-- **A filling makes progress or says why not.**  Over a source that is honest, and is not
halted but for the reasons that `H` admits, a filling is not halted but for these.  It puts what
the source handed out meanwhile behind the unread bytes, at the start of the block, in at most a
hundred calls that offer the remaining room.  An error is latched just if the last call reported
it, or a hundred calls in a row were idle; and if none is, the last call brought a byte, or the
buffer was full before. -/
theorem fill_progresses [HonestSource H σ] {r : Reader (Traced σ)}
    (hfits : r.window.past.length + r.window.unread.length ≤ r.size) (hfault : r.fault = none)
    (sh : Shared) :
    Act.Meets H r.fill sh fun r' _ => ∃ before last, r.Progress before last r' ∧
      draws r'.source = draws r.source ++ (before ++ [last]) ∧
        given r'.source = given r.source ++ drawn (before ++ [last]) := by
  refine (fill_meets r).imp ?_
  intro r' sh' hfilled
  obtain ⟨ds, hf⟩ := hfilled
  have hbuffered : r.buffered ≤ r.size := Nat.le_trans (Nat.le_add_left ..) hfits
  obtain ⟨before, last, rfl, hprogress⟩ := hf.progress_parted hbuffered hfault
  obtain ⟨s, fault, spare, length, hcalls, -, rfl⟩ := hf
  exact ⟨before, last, hprogress, draws_of_calls hcalls, given_of_calls hcalls⟩

/-- One letter is unread behind another; two more come with the end, at the third call. -/
def lateLetters : Reader (Traced Script.Truthful) where
  source := .start { source := { items := [.idle 2, .piece [0x63, 0x64] (some .eof)] } }
  size := 16
  pool := 0
  window := { past := [0x61], unread := [0x62] }
  held := some 16

theorem fill_progresses_lateLetters :
    ∃ r sh, lateLetters.fill { pools := [] } = .ok r sh ∧
      r.window.unread = [0x62, 0x63, 0x64] ∧ r.fault = some .eof ∧
        ∃ before last, lateLetters.Progress before last r ∧ before.length = 2 := by
  have hmeets := fill_progresses (H := fun _ => False) (r := lateLetters) (by decide) rfl
    { pools := [] }
  obtain ⟨before, last, hprogress, hdraws, -⟩ := hmeets.of_ok rfl
  refine ⟨_, _, rfl, rfl, rfl, before, last, hprogress, ?_⟩
  have hlength := congrArg List.length hdraws
  simp only [List.length_append, List.length_singleton] at hlength
  have hthree : (draws lateLetters.source).length + 3 =
      (draws lateLetters.source).length + (before.length + 1) := hlength
  omega

end Reader

end BufferedStream
