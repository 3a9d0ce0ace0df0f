import BufferedStream.Duplex
import BufferedStream.Proofs.Reader.Balance
import BufferedStream.Proofs.Reader.Emptying

/-!
# Reading without room

A reader that is asked to read into a room of no size hands out the latched error and
forgets it, even while bytes are unread.  If none is latched this changes nothing.  Otherwise
the error comes too early, or, where it is the end of the stream and a plain input was
asked, it does not come at all; once the unread bytes have run out the source is called
instead.

* `Door` — the ways in which a reader is asked to read.
* `Reader.SameCourse` — two states from which every run shows the same.
* `Reader.emptyRead_harmless_iff` — reading without room does no harm just if no error is
  latched, and reading with room never lets the error past the unread bytes.
-/

namespace BufferedStream

open History (draws)

/-- What came of an act, without what has become of the things shared. -/
def Act.view {α β : Type} (f : α → β) (m : Act α) (sh : Shared) : Except Halt β :=
  match m sh with
  | .ok a _ => .ok (f a)
  | .error h _ => .error h

/-- An act that returned shows what another one shows just if that returned as well. -/
theorem Act.ok_of_view_eq {α β : Type} {f : α → β} {m m' : Act α} {sh sh' : Shared} {a : α}
    (hm : m sh = .ok a sh') (h : m'.view f sh = m.view f sh) :
    ∃ a' sh'', m' sh = .ok a' sh'' ∧ f a' = f a := by
  unfold view at h
  rw [hm] at h
  cases hm' : m' sh with
  | ok a' sh'' =>
    rw [hm'] at h
    exact ⟨a', sh'', rfl, Except.ok.inj h⟩
  | error e sh'' =>
    rw [hm'] at h
    cases h

namespace Reader

variable {σ κ : Type}

/-! ## The ways of asking -/

/-- Where a reader is asked to read: itself, as a source or as a plain input, and through a
duplex as either. -/
inductive Door where
  | own
  | source
  | plain
  | duplex
  | plainDuplex

/-- A door of a plain input. -/
def Door.isPlain : Door → Bool
  | .plain | .plainDuplex => true
  | _ => false

/-- Ask the reader at a door; the other half of a duplex is `w`. -/
def Door.ask [ByteSource σ] (w : Writer κ) (room : Room) (r : Reader σ) :
    Door → Act (Outcome × Reader σ)
  | .own => return (← r.read room).map .reading id
  | .source => return (← ByteSource.read r room).map .reading id
  | .plain => return (← PlainInput.read r room).map .grant id
  | .duplex => return (← ByteSource.read (⟨r, w⟩ : Duplex σ κ) room).map .reading Duplex.reader
  | .plainDuplex => return (← PlainInput.read (⟨r, w⟩ : Duplex σ κ) room).map .grant Duplex.reader

/-- A plain answer without bytes. -/
def plainlyEmpty (shared : Error → Bool) : Option Error → Except IoError Grant
  | none | some .eof => .ok ⟨[], 0⟩
  | some e => .error (e.toIo (shared e))

/-- What is answered at a door where nothing but the error can be handed out. -/
def Door.answerEmpty (sh : Shared) (fault : Option Error) (door : Door) : Outcome :=
  if door.isPlain then .grant (plainlyEmpty (fun e => sh.kept.any e.same) fault)
  else .reading (.ofBytes [] fault)

/-- Just the bytes `b` were handed out, and no error. -/
def Outcome.Brings (b : Bytes) : Outcome → Prop
  | .reading g => g = .ofBytes b none
  | .grant (.ok g) => g = ⟨b, b.length⟩
  | _ => False

/-! ## Without room -/

section Asking

variable [ByteSource σ] {r : Reader σ} {room : Room} {sh : Shared}

theorem read_without_room (h0 : room.size = 0) :
    r.read room = pure (.ofBytes [] r.fault, r.cleared) := by
  unfold read
  dsimp only
  rw [if_pos h0]

theorem plainRead_without_room (h0 : room.size = 0) :
    r.plainRead room sh =
      .ok (plainlyEmpty (fun e => sh.kept.any e.same) r.fault, r.cleared) sh := by
  unfold plainRead
  rw [read_without_room h0, pure_bind]
  cases hfault : r.fault with
  | none => rfl
  | some e => cases e <;> rfl

theorem ask_without_room (w : Writer κ) (h0 : room.size = 0) (door : Door) :
    door.ask w room r sh = .ok (door.answerEmpty sh r.fault, r.cleared) sh := by
  have hread := read_without_room (r := r) h0
  have hplain : r.plainRead room sh = _ := plainRead_without_room h0
  cases door <;> simp [Door.ask, Door.answerEmpty, Door.isPlain, bind, EStateM.bind, pure,
    EStateM.pure, ByteSource.read, PlainInput.read, hread, hplain, Duplex.withReader]

/-! ## With room -/

theorem read_of_unread (hne : r.window.unread ≠ []) (hroom : 0 < room.size) :
    Act.Returns (r.read room) sh fun (g, r') _ =>
      g = .ofBytes (r.window.unread.take room.size) none ∧
        (r.delivering room.size).Settles r' := by
  unfold read
  dsimp only
  rw [if_neg (Nat.ne_of_gt hroom), if_pos (by simp [hne]), deliverOrReport, if_pos hne]
  exact deliver_meets r room.size

theorem plainRead_of_unread (hne : r.window.unread ≠ []) (hroom : 0 < room.size) :
    Act.Returns (r.plainRead room) sh fun (g, r') _ =>
      g = .ok ⟨r.window.unread.take room.size, (r.window.unread.take room.size).length⟩ ∧
        (r.delivering room.size).Settles r' := by
  refine Act.meets_bind.mpr ((read_of_unread hne hroom).imp ?_)
  intro ⟨g, r'⟩ sh' ⟨hg, hs⟩
  subst hg
  have hpos : 0 < (Reading.ofBytes (r.window.unread.take room.size) none).count := by
    show 0 < (r.window.unread.take room.size).length
    rw [List.length_take]
    have := List.length_pos_iff.mpr hne
    omega
  dsimp only
  rw [if_pos hpos]
  exact ⟨rfl, hs⟩

theorem ask_of_unread (w : Writer κ) (hne : r.window.unread ≠ []) (hroom : 0 < room.size)
    (door : Door) :
    Act.Returns (door.ask w room r) sh fun (o, r') _ =>
      o.Brings (r.window.unread.take room.size) ∧ (r.delivering room.size).Settles r' := by
  have hread : Act.Returns (r.read room) sh _ := read_of_unread hne hroom
  have hplain : Act.Returns (r.plainRead room) sh _ := plainRead_of_unread hne hroom
  cases door with
  | own => exact Act.meets_bind.mpr hread
  | source => exact Act.meets_bind.mpr hread
  | plain =>
    refine Act.meets_bind.mpr (hplain.imp ?_)
    intro ⟨g, r'⟩ sh' ⟨hg, hs⟩
    subst hg
    exact ⟨rfl, hs⟩
  | duplex => exact Act.meets_bind.mpr (Act.meets_bind.mpr hread)
  | plainDuplex =>
    refine Act.meets_bind.mpr (Act.meets_bind.mpr (hplain.imp ?_))
    intro ⟨g, r'⟩ sh' ⟨hg, hs⟩
    subst hg
    exact ⟨rfl, hs⟩

end Asking

/-! ## Runs from two states -/

/-- What a run shows: what came of every task, and the calls made on the source by then. -/
def shown [ByteSource σ] [History σ] (entries : List (Entry (Task κ) (Result κ) (Reader σ))) :
    List (Result κ × List Draw) :=
  entries.map fun entry => (entry.outcome, draws entry.state.source)

/-- Every run shows the same from either state, or is halted alike. -/
def SameCourse [BulkSource σ] [History σ] (r r' : Reader σ) : Prop :=
  ∀ (κ : Type) [ByteSink κ] (tasks : List (Task κ)) (sh : Shared),
    (Act.performAll execute tasks r).view shown sh = (Act.performAll execute tasks r').view shown sh

section Course

variable {H : Halt → Prop} {sh : Shared}

/-- Consuming everything makes no call and keeps what is latched. -/
theorem consume_all_meets (r : Reader σ) (h : r.WF) :
    Act.Meets H (r.consume r.buffered) sh fun r' _ => r'.WF ∧ r'.window.unread = [] ∧
      r'.fault = r.fault ∧ r'.source = r.source := by
  refine (consume_meets r r.buffered).imp ?_
  intro r' sh' hc
  refine ⟨hc.wf h, ?_, hc.fault_eq, hc.source_eq⟩
  cases hc with
  | nothing hnil => rwa [buffered, List.take_length] at hnil
  | taken _ hs =>
    rw [hs.unread_eq]
    exact List.drop_length

variable [ByteSource σ] {r : Reader σ}

/-- With an error latched and nothing unread, no call is made for a byte. -/
theorem readByte_of_latched {e : Error} (hunread : r.window.unread = [])
    (hfault : r.fault = some e) :
    Act.Returns r.readByte sh fun (_, r') _ => r'.source = r.source := by
  have hready : ({ r with lastRune := none } : Reader σ).fault.isSome = true := by
    show r.fault.isSome = true
    rw [hfault]
    rfl
  unfold readByte
  rw [ensure_of_stays (.inr hready), pure_bind, takeByte]
  split
  · rename_i b rest hbyte
    cases hbyte.symm.trans hunread
  · refine Act.meets_bind.mpr ((settle_meets _).imp ?_)
    intro r' sh' hs
    rw [show r'.fault = some e from hs.fault_eq.trans hfault]
    exact hs.source_eq

/-- With nothing latched and nothing unread, a call is made for a byte. -/
theorem readByte_calls [HonestSource H σ] (h : r.WF) (hunread : r.window.unread = [])
    (hfault : r.fault = none) :
    Act.Meets H r.readByte sh fun (_, r') _ => ∃ ds, ds ≠ [] ∧ Calls r.source ds r'.source := by
  refine (readByte_meets h).imp ?_
  intro ⟨x, r'⟩ sh' ⟨ds, hb⟩
  refine ⟨ds, ?_, hb.calls⟩
  intro hds
  subst hds
  cases hb with
  | got hp _ hbyte =>
    have hsplit := hp.unread
    rw [hbyte] at hsplit
    simp only [hunread] at hsplit
    cases hsplit
  | failed hp _ _ hlatched =>
    have heq := hp.fault_eq
    rw [hlatched] at heq
    simp only [hfault] at heq
    cases heq

end Course

/-- Everything unread is consumed, and one byte more is read. -/
def oneBeyond (r : Reader σ) : List (Task MemorySink) := [.op (.consume r.buffered), .op .readByte]

/-- What the run shows of the calls, told from those made for the last byte. -/
theorem oneBeyond_meets [BulkSource σ] [History σ] {H : Halt → Prop} {Q : List Draw → Prop}
    {r : Reader σ} (h : r.WF)
    (hbyte : ∀ (r₁ : Reader σ) sh, r₁.WF → r₁.window.unread = [] → r₁.fault = r.fault →
      Act.Meets H r₁.readByte sh fun (_, r') _ => ∃ ds, Q ds ∧ Calls r₁.source ds r'.source)
    (sh : Shared) :
    Act.Meets H (Act.performAll execute r.oneBeyond r) sh fun entries _ => ∃ ds, Q ds ∧
      (shown entries).map Prod.snd = [draws r.source, draws r.source ++ ds] := by
  unfold oneBeyond
  rw [Act.performAll]
  refine Act.meets_bind.mpr (Act.meets_bind.mpr (Act.meets_bind.mpr
    ((consume_all_meets r h).imp ?_)))
  rintro r₁ sh₁ ⟨hwf, hunread, hfault, hsource⟩
  show Act.Meets H (Act.performAll execute [.op .readByte] r₁ >>= fun rest =>
    pure (⟨.op (.consume r.buffered), .outcome .done, r₁⟩ :: rest)) sh₁ _
  rw [Act.performAll]
  refine Act.meets_bind.mpr (Act.meets_bind.mpr (Act.meets_bind.mpr (Act.meets_bind.mpr
    ((hbyte r₁ sh₁ hwf hunread hfault).imp ?_))))
  rintro ⟨x, r'⟩ sh' ⟨ds, hds, hcalls⟩
  refine ⟨ds, hds, ?_⟩
  show [draws r₁.source, draws r'.source] = _
  rw [draws_of_calls hcalls, hsource]

/-- A run one byte beyond what is unread calls the source unless an error is latched. -/
theorem not_sameCourse_of_latched [BulkSource σ] [History σ]
    [HonestSource (· = Halt.exhausted) σ] {r : Reader σ} (h : r.WF) (hlatched : r.fault ≠ none) :
    ¬ r.cleared.SameCourse r := by
  obtain ⟨e, he⟩ := Option.ne_none_iff_exists'.mp hlatched
  have hquiet := oneBeyond_meets (H := fun _ => False) (Q := (· = [])) h
    (fun r₁ sh hwf hunread hfault => (readByte_of_latched hunread (hfault.trans he)).imp
      fun _ _ hsource => ⟨[], rfl, hsource ▸ .nil _⟩) { pools := [] }
  have hcalls := oneBeyond_meets (H := (· = Halt.exhausted)) (Q := (· ≠ [])) h.cleared
    (fun r₁ sh hwf hunread hfault => readByte_calls hwf hunread hfault) { pools := [] }
  intro hsame
  obtain ⟨entries, sh', hok, ds, hds, hshown⟩ := Act.Returns.exists_ok hquiet
  obtain ⟨entries', sh'', hok', hview⟩ := Act.ok_of_view_eq hok (hsame MemorySink r.oneBeyond _)
  obtain ⟨es, hes, hshown'⟩ := hcalls.of_ok hok'
  rw [hview, hshown, hds] at hshown'
  have hlast : draws r.source ++ [] = draws r.source ++ es := by
    injection hshown' with _ hrest
    injection hrest
  exact hes (List.append_cancel_left hlast).symm

/-! ## The harm -/

theorem answerEmpty_brings_iff {door : Door} {fault : Option Error} {sh : Shared} :
    (door.answerEmpty sh fault).Brings [] ↔
      fault = none ∨ (door.isPlain = true ∧ fault = some .eof) := by
  unfold Door.answerEmpty
  split
  · rename_i hplain
    rw [hplain]
    cases fault with
    | none => simp [plainlyEmpty, Outcome.Brings]
    | some e => cases e <;> simp [plainlyEmpty, Outcome.Brings]
  · rename_i hplain
    rw [Bool.not_eq_true] at hplain
    rw [hplain]
    cases fault <;> simp [Outcome.Brings, Reading.ofBytes]

/-- **Reading without room does no harm just if no error is latched.**  Over any honest
source, in every state that the reader may be in with bytes unread, and at every door: it
makes no call and hands out no byte, but the latched error is let go, and handed out unless
it is the end of the stream at the door of a plain input.  So it hands out no error, and
every run after it shows what it would have shown anyway, just if no error was latched.
Reading with room hands out unread bytes, and the error stays latched. -/
theorem emptyRead_harmless_iff [BulkSource σ] [HonestSource (· = Halt.exhausted) σ]
    [HonestBulkSource (· = Halt.exhausted) σ] {r : Reader (Traced σ)} (hr : r.Reachable)
    (hne : r.window.unread ≠ []) (w : Writer κ) (door : Door) :
    (∀ room : Room, room.size = 0 → ∀ sh,
      door.ask w room r sh = .ok (door.answerEmpty sh r.fault, r.cleared) sh) ∧
    (∀ sh, (door.answerEmpty sh r.fault).Brings [] ↔
      r.fault = none ∨ (door.isPlain = true ∧ r.fault = some .eof)) ∧
    (∀ sh, ((door.answerEmpty sh r.fault).Brings [] ∧ r.cleared.SameCourse r) ↔
      r.fault = none) ∧
    ∀ room : Room, 0 < room.size → ∀ sh, Act.Returns (door.ask w room r) sh fun (o, r') _ =>
      o.Brings (r.window.unread.take room.size) ∧
        r'.window.unread = r.window.unread.drop room.size ∧ r'.fault = r.fault := by
  refine ⟨fun room h0 sh => ask_without_room w h0 door, fun sh => answerEmpty_brings_iff, ?_, ?_⟩
  · intro sh
    constructor
    · intro ⟨_, hsame⟩
      exact Classical.byContradiction fun hlatched =>
        not_sameCourse_of_latched hr.wf hlatched hsame
    · intro hnone
      refine ⟨answerEmpty_brings_iff.mpr (.inl hnone), ?_⟩
      have hsame : r.cleared = r := by rw [cleared, ← hnone]
      rw [hsame]
      exact fun _ _ _ _ => rfl
  · intro room hroom sh
    refine (ask_of_unread w hne hroom door).imp ?_
    intro ⟨o, r'⟩ sh' ⟨hbrings, hs⟩
    exact ⟨hbrings, hs.unread_eq, hs.fault_eq⟩

/-- Two letters that come with an error. -/
def brokenLetters : Script.Truthful where
  source := { items := [.piece [0x61, 0x62] (some cutOff)] }

/-- The letters are looked at and stay unread. -/
def aheadOfLetters : Reader (Traced Script.Truthful) :=
  match (withCapacity (Traced.start brokenLetters) 16 0).peek 1 { pools := [] } with
  | .ok (_, r) _ => r
  | .error _ _ => withCapacity (Traced.start brokenLetters) 16 0

theorem execute_aheadOfLetters :
    execute (.op (.peek 1) : Task MemorySink) (withCapacity (Traced.start brokenLetters) 16 0)
        { pools := [] } =
      .ok (.outcome (.passage ⟨[0x61], none⟩), aheadOfLetters) { pools := [] } := rfl

theorem emptyRead_harmless_iff_brokenLetters :
    aheadOfLetters.Reachable ∧ aheadOfLetters.window.unread = [0x61, 0x62] ∧
      Door.own.ask ({ sink := {}, size := 16, pool := 0 } : Writer MemorySink) { size := 0 }
          aheadOfLetters { pools := [] } =
        .ok (.reading (.ofBytes [] (some cutOff)), aheadOfLetters.cleared) { pools := [] } ∧
      ¬ (Outcome.Brings [] (Door.own.answerEmpty { pools := [] } aheadOfLetters.fault) ∧
        aheadOfLetters.cleared.SameCourse aheadOfLetters) := by
  have hreached : aheadOfLetters.Reachable :=
    .step (.start (Traced.start brokenLetters) 16 0) execute_aheadOfLetters
  have hunread : aheadOfLetters.window.unread = [0x61, 0x62] := rfl
  obtain ⟨hask, -, hharm, -⟩ := emptyRead_harmless_iff hreached (by rw [hunread]; decide)
    ({ sink := {}, size := 16, pool := 0 } : Writer MemorySink) .own
  refine ⟨hreached, hunread, hask _ rfl _, ?_⟩
  rw [hharm { pools := [] }]
  rintro ⟨⟩

/-- The error overtakes the letters, and is missing behind them. -/
theorem brokenLetters_overtaken :
    ∃ r₁ sh₁ r₂ sh₂ r₃ sh₃ r₄ sh₄,
      perform (.peek 1) (withCapacity brokenLetters 16 0) { pools := [] } =
          .ok (.passage ⟨[0x61], none⟩, r₁) sh₁ ∧
        perform (.read { size := 0 }) r₁ sh₁ = .ok (.reading (.ofBytes [] (some cutOff)), r₂) sh₂ ∧
        perform (.read { size := 4 }) r₂ sh₂ =
          .ok (.reading (.ofBytes [0x61, 0x62] none), r₃) sh₃ ∧
        perform (.read { size := 4 }) r₃ sh₃ = .ok (.reading (.ofBytes [] (some .eof)), r₄) sh₄ :=
  ⟨_, _, _, _, _, _, _, _, rfl, rfl, rfl, rfl⟩

end Reader

end BufferedStream
