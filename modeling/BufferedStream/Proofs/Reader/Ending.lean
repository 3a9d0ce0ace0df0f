import BufferedStream.Proofs.Patience
import BufferedStream.Proofs.Reader.CallBound
import BufferedStream.Proofs.Twin.Basic

/-!
# Every loop of a reader ends

Filling the buffer always ends.  Collecting a record and emptying the reader go on as long as the
source brings something, so they end over a source that hands out finitely many bytes and errors.
Every round of theirs uses up a byte, or an error that tells of a full buffer.

* `HandsOutAtMost` — a source that has only so much to hand out.
* `DecliningSource` — a source that has no more to hand out once it has declined a bulk transfer.
* `Reader.Scans.uses_up` — a scan that fills the buffer leaves less to be handed out.
* `Reader.loops_end` — whatever is done with a reader.
-/

namespace BufferedStream

open History (draws)

/-! ## Sources that run dry -/

/-- The call reported an error, and not the end. -/
def Draw.fails (d : Draw) : Bool := d.reading.fault.any fun e => !e.isEof

/-- The number of bytes and errors that a row of calls handed out. -/
def volume (ds : List Draw) : Nat := (drawn ds).length + ds.countP Draw.fails

theorem volume_singleton (d : Draw) :
    volume [d] = d.reading.data.length + if d.fails then 1 else 0 := by
  rw [volume, List.countP_singleton, drawn_cons, drawn_nil, List.append_nil]

theorem volume_append (ds es : List Draw) : volume (ds ++ es) = volume ds + volume es := by
  simp only [volume, drawn_append, List.length_append, List.countP_append]
  omega

/-- Whatever calls are made on the source, it hands out no more than `n` bytes and errors.  It may
report the end, or nothing, any number of times. -/
def HandsOutAtMost {σ : Type} [ByteSource σ] (s : σ) (n : Nat) : Prop :=
  ∀ ds s', Calls s ds s' → volume ds ≤ n

/-- What a row of calls handed out is not handed out again. -/
theorem HandsOutAtMost.after {σ : Type} [ByteSource σ] {s s' : σ} {n : Nat} {ds : List Draw}
    (h : HandsOutAtMost s n) (hcalls : Calls s ds s') : HandsOutAtMost s' (n - volume ds) := by
  intro es s'' hes
  have hall := h _ _ (hcalls.append hes)
  rw [volume_append] at hall
  omega

/-- A source that has no more to hand out once it has declined a bulk transfer. -/
class DecliningSource (σ : Type) [BulkSource σ] : Prop where
  writeTo_declines {κ : Type} [ByteSink κ] (s : σ) (k : κ) (sh : Shared) :
    Act.IfEnds (BulkSource.writeTo s k) sh fun (receipt, s', _) sh' => receipt = none →
      (∀ n, HandsOutAtMost s n → HandsOutAtMost s' n) ∧ sh'.patience = sh.patience

instance {σ : Type} [BulkSource σ] [Bulkless σ] : DecliningSource σ where
  writeTo_declines s k sh := by
    rw [Bulkless.writeTo_eq]
    exact fun _ => ⟨fun _ h => h, rfl⟩

namespace Traced

variable {σ : Type}

/-- Calls on a source may be noted. -/
theorem calls_noted [ByteSource σ] {s s' : σ} {ds : List Draw} (h : Calls s ds s')
    (t : Traced σ) (ht : t.source = s) : ∃ t', Calls t ds t' ∧ t'.source = s' := by
  induction h generalizing t with
  | nil => exact ⟨t, .nil t, ht⟩
  | @cons _ s₁ _ n g _ hreads _ ih =>
    subst ht
    obtain ⟨room, sh, sh', hroom, hread⟩ := hreads
    obtain ⟨t', hcalls, ht'⟩ := ih ⟨s₁, t.draws ++ [⟨n, g⟩], t.given ++ g.data⟩ rfl
    refine ⟨t', .cons ⟨room, sh, sh', hroom, ?_⟩ hcalls, ht'⟩
    subst hroom
    show (ByteSource.read t.source room >>= _) sh = _
    simp only [bind, EStateM.bind, hread]
    rfl

/-- Noting what a source hands out does not change it. -/
theorem handsOutAtMost_iff [ByteSource σ] {t : Traced σ} {n : Nat} :
    HandsOutAtMost t n ↔ HandsOutAtMost t.source n := by
  constructor
  · intro h ds s' hcalls
    obtain ⟨t', hnoted, -⟩ := calls_noted hcalls t rfl
    exact h ds t' hnoted
  · intro h ds t' hcalls
    exact h ds t'.source (calls_source hcalls)

instance [BulkSource σ] [DecliningSource σ] : DecliningSource (Traced σ) where
  writeTo_declines t k sh := by
    refine Act.meets_bind.mpr
      ((DecliningSource.writeTo_declines t.source ({ sink := k } : Tap _) sh).imp ?_)
    intro ⟨receipt, s, tap⟩ sh' hdeclines hnone
    obtain ⟨hless, hpatience⟩ := hdeclines hnone
    refine ⟨fun n hn => ?_, hpatience⟩
    rw [handsOutAtMost_iff] at hn ⊢
    exact hless n hn

end Traced

namespace Script

/-- The bytes and errors that an item hands out. -/
def SourceItem.volume : SourceItem → Nat
  | .piece data fault => data.length + if fault.any fun e => !e.isEof then 1 else 0
  | _ => 0

/-- The bytes and errors that a script hands out. -/
def content : List SourceItem → Nat
  | [] => 0
  | item :: rest => item.volume + content rest

theorem content_cons (item : SourceItem) (rest : List SourceItem) :
    content (item :: rest) = item.volume + content rest := rfl

theorem content_idleAgain (times : Nat) (rest : List SourceItem) :
    content (idleAgain .idle times rest) = content rest := by
  unfold idleAgain
  split
  · rfl
  · exact Nat.zero_add _

/-- A read takes what it hands out off the script. -/
theorem Source.content_read (s : Source) (n : Nat) :
    volume [⟨n, (s.read n).1⟩] + content (s.read n).2.items = content s.items := by
  obtain ⟨items, bulk⟩ := s
  cases items with
  | nil => rfl
  | cons item rest =>
    rw [content_cons]
    cases item with
    | piece data fault =>
      unfold Source.read
      dsimp only
      split
      · rw [volume_singleton]
        rfl
      · rw [volume_singleton, content_cons]
        simp only [SourceItem.volume, Draw.fails, Reading.ofBytes, Option.any_none,
          List.length_take, List.length_drop, Bool.false_eq_true, if_false]
        omega
    | idle times => exact congrArg _ (content_idleAgain times rest)
    | claim excess => rfl

/-- By induction on the calls: a script hands out what it holds and no more. -/
theorem Truthful.handsOutAtMost (t : Truthful) : HandsOutAtMost t (content t.source.items) := by
  intro ds t' hcalls
  have hall : volume ds + content t'.source.items = content t.source.items := by
    induction hcalls with
    | nil => exact Nat.zero_add _
    | @cons t _ _ _ _ ds hreads _ ih =>
      obtain ⟨room, sh, sh', rfl, hread⟩ := hreads
      cases hread
      have hfirst := t.source.content_read room.size
      rw [← List.singleton_append, volume_append, Nat.add_assoc, ih]
      exact hfirst
  omega

instance : DecliningSource Truthful where
  writeTo_declines t k sh := by
    show Act.IfEnds (t.writeTo k) sh _
    unfold Truthful.writeTo
    split
    · exact fun _ => ⟨fun _ h => h, rfl⟩
    · exact Act.meets_bind.mpr (Act.meets_any.imp fun _ _ _ => nofun)

end Script

namespace Reader

variable {σ κ : Type} [ByteSource σ] {r r' : Reader σ} {ds : List Draw} {m : Nat}

/-! ## Collecting a record -/

/-- One if a full buffer is latched, as the error of the source. -/
def fullLatched (r : Reader σ) : Nat :=
  match r.fault with
  | some .bufferFull => 1
  | _ => 0

omit [ByteSource σ] in
theorem fullLatched_le (r : Reader σ) : r.fullLatched ≤ 1 := by
  unfold fullLatched
  split
  · exact Nat.le_refl 1
  · exact Nat.zero_le 1

/-- A full buffer that was latched in calls was reported in one of them. -/
theorem Pulled.fullLatched_le (hp : r.Pulled ds r') (hds : ds ≠ []) :
    r'.fullLatched ≤ ds.countP Draw.fails := by
  unfold fullLatched
  split
  · rename_i hfull
    have hmem : Error.bufferFull ∈ arisen ds := by
      rw [← hp.arisen_eq hds, hfull]
      exact List.mem_singleton_self _
    rcases mem_arisenAfter hmem with heq | ⟨d, hd, hfault⟩
    · cases heq
    · apply List.countP_pos_iff.mpr
      refine ⟨d, hd, ?_⟩
      rw [Draw.fails, hfault]
      rfl
  · exact Nat.zero_le _

/-- **A scan that fills the buffer uses something up**: bytes, or an error that tells of a full
buffer. -/
theorem Scans.uses_up {delim : UInt8} {p : Passage} (hs : r.Scans delim ds p r')
    (hfault : p.fault = some .bufferFull) (hm : HandsOutAtMost r.source m) :
    r'.buffered + (m - volume ds) + r'.fullLatched < r.buffered + m + r.fullLatched := by
  have hle := hm ds _ hs.calls
  have hunread := (hs.past_of_full hfault).1
  unfold volume at hle ⊢
  rw [buffered, hunread]
  cases hs with
  | found => cases hfault
  | @full r₁ hp hcalls hno hfull =>
    have hlatched := hp.fullLatched_le hcalls
    have hpos := hp.wf.size_pos
    have hlength := congrArg List.length hp.unread
    rw [List.length_append] at hlength
    have hexhausted : r₁.exhausted.fullLatched = r₁.fullLatched := rfl
    unfold buffered at hfull ⊢
    rw [List.length_nil]
    omega
  | @ended r₁ r₂ e hp hno he hs hroom =>
    have hcleared : r₂.cleared.fullLatched = 0 := rfl
    obtain rfl : e = .bufferFull := Option.some.inj hfault
    have hlatched₁ : r₁.fullLatched = 1 := by rw [fullLatched, he]
    rw [hcleared, List.length_nil]
    -- The error was latched before, and is used up now, or was reported in one of the calls.
    by_cases hds : ds = []
    · subst hds
      have hlatched : r.fullLatched = 1 := by rw [fullLatched, ← hp.fault_eq, he]
      omega
    · have hfails := hp.fullLatched_le hds
      omega

variable {H : Halt → Prop} {sh : Shared} [HonestSource H σ]

/-- Collecting a record ends, given a round for everything that may be handed out. -/
theorem readBytes_ends (h : r.WF) (hm : HandsOutAtMost r.source m)
    (hpatience : r.buffered + m + 1 < sh.patience) (delim : UInt8) :
    Act.Meets H (r.readBytes delim) sh fun (p, r') _ => ∃ ds, r.Collects delim ds p r' := by
  refine Act.meets_bind.mpr (Act.meets_patience.mpr ?_)
  -- There is a round for each byte held, each byte and error to come, and a latched full buffer.
  refine (readBytesRounds_meets (I := fun rounds r => r.WF ∧ ∃ m, HandsOutAtMost r.source m ∧
    r.buffered + m + r.fullLatched < rounds) (fun _ _ h => h.1) ?_ ?_ sh.patience [] r ?_).imp ?_
  · rintro r ⟨-, m, -, hlt⟩
    exact absurd hlt (Nat.not_lt_zero _)
  · rintro rounds r ds p r₁ ⟨-, m, hm, hlt⟩ hs hfault
    have hless := hs.uses_up hfault hm
    refine ⟨hs.wf.noteDelivered _, m - volume ds, hm.after hs.calls, ?_⟩
    show r₁.buffered + (m - volume ds) + r₁.fullLatched < rounds
    omega
  · have hle := r.fullLatched_le
    exact ⟨h, m, hm, by omega⟩
  · intro ⟨p, r'⟩ sh' ⟨ds, q, hc, heq⟩
    rw [List.nil_append] at heq
    subst heq
    exact ⟨ds, hc⟩

theorem readString_ends (h : r.WF) (hm : HandsOutAtMost r.source m)
    (hpatience : r.buffered + m + 1 < sh.patience) (delim : UInt8) :
    Act.Meets H (r.readString delim) sh fun _ _ => True := by
  refine Act.meets_bind.mpr ((readBytes_ends h hm hpatience delim).imp ?_)
  intro ⟨p, r₁⟩ sh₁ _
  exact Act.meets_bind.mpr ((settle_meets r₁).imp fun _ _ _ => trivial)

/-! ## Emptying -/

section Emptying

variable [ByteSink κ] [Keeping κ] [HonestSink H κ]

/-- Filling and draining by turns ends, given a round for every byte and one more. -/
theorem drainRounds_ends (h : r.WF) (hunread : r.window.unread = [])
    (hm : HandsOutAtMost r.source m) {rounds : Nat} (hrounds : m < rounds) (total : Nat) (k : κ) :
    Act.Meets H (drainRounds rounds total r k) sh fun (receipt, r', k') _ =>
      r.Pours k total receipt r' k' := by
  apply drainRounds_meets_of_invariant (I := fun rounds r => r.WF ∧ r.window.unread = [] ∧
    ∃ m, HandsOutAtMost r.source m ∧ m < rounds)
  · exact fun _ _ h => h.1
  · rintro r ⟨-, -, m, -, hlt⟩
    exact absurd hlt (Nat.not_lt_zero _)
  · rintro rounds r ds r₁ r₂ k k₁ n ⟨hwf, hunread, m, hm, hlt⟩ hf hbrought hd
    have hcalls := (hf.extended hwf).calls
    have hle := hm ds _ hcalls
    have hpos : 0 < volume ds := by
      rw [hf.unread, hunread, List.nil_append] at hbrought
      exact Nat.lt_of_lt_of_le (List.length_pos_iff.mpr hbrought) (Nat.le_add_right ..)
    refine ⟨hd.wf (hf.wf hwf), hd.unread_eq, m - volume ds, ?_, by omega⟩
    rw [hd.source_eq]
    exact hm.after hcalls
  · exact ⟨h, hunread, m, hm, hrounds⟩

omit [ByteSource σ] [Keeping κ] in
theorem drain_keepsPatience [PatientSink κ] (r : Reader σ) (k : κ) : (r.drain k).KeepsPatience := by
  unfold drain
  split
  · exact Act.keepsPatience_pure _
  · refine (PatientSink.write_patient k _).bind fun _ => ?_
    refine (Act.keepsPatience_require _ _).bind fun _ => ?_
    exact (settle_usesPools _).keepsPatience.bind fun _ => Act.keepsPatience_pure _

end Emptying

/-- Emptying a reader ends, given a round for everything that may be handed out. -/
theorem writeTo_ends {σ κ : Type} [BulkSource σ] [HonestSource H σ] [HonestBulkSource H σ]
    [DecliningSource σ] [ByteSink κ] [Keeping κ] [HonestSink H κ] [PatientSink κ] {r : Reader σ}
    (h : r.WF) (hm : HandsOutAtMost r.source m) (hpatience : m < sh.patience) (k : κ) :
    Act.Meets H (r.writeTo k) sh fun _ _ => True := by
  have hforget : r.forgetting.WF := ⟨h.1, h.2, h.3, h.4⟩
  -- The rounds are asked for when the drain and the bulk transfer are over, so both must leave
  -- their number alone.
  refine Act.meets_bind.mpr
    (((drain_meets r.forgetting k).patient (drain_keepsPatience _ k)).imp ?_)
  intro ⟨⟨n, fault⟩, r₁, k₁⟩ sh₁ ⟨hd, hkept₁⟩
  dsimp only at hd hkept₁ ⊢
  cases fault with
  | some e => trivial
  | none =>
    have hsource : r₁.source = r.source := hd.source_eq
    have hbulk := HonestBulkSource.writeTo_keeps (H := H) (I := fun _ : κ => True)
      (fun k b sh _ => (HonestSink.write_honest k b sh).imp fun _ _ hk => ⟨hk.1, trivial⟩)
      r₁.source k₁ sh₁ trivial
    refine Act.meets_bind.mpr
      ((hbulk.and_ifEnds (DecliningSource.writeTo_declines r₁.source k₁ sh₁)).imp ?_)
    intro ⟨bulk, s, k₂⟩ sh₂ ⟨_, hdeclines⟩
    cases bulk with
    | some receipt => trivial
    | none =>
      obtain ⟨hless, hkept₂⟩ := hdeclines rfl
      have hwf := hd.wf hforget
      have hrest : HandsOutAtMost s m := hless m (by rwa [hsource])
      refine Act.meets_bind.mpr (Act.meets_patience.mpr (Act.meets_bind.mpr ((drainRounds_ends
        (r := { r₁ with source := s }) ⟨hwf.1, hwf.2, hwf.3, hwf.4⟩ hd.unread_eq hrest
        (by omega) n k₂).imp ?_)))
      intro ⟨⟨moved, fault⟩, r₂, k₃⟩ sh₃ _
      cases fault with
      | some e => trivial
      | none => exact Act.meets_bind.mpr ((concludeTransfer_meets r₂).imp fun _ _ _ => trivial)

/-! ## Whatever is done with a reader -/

/-- Every task ends, given a round for everything that is held or may be handed out. -/
theorem execute_ends {σ κ : Type} [BulkSource σ] [HonestSource H σ] [HonestBulkSource H σ]
    [DecliningSource σ] [ByteSink κ] [Keeping κ] [HonestSink H κ] [PatientSink κ] {r : Reader σ}
    (h : r.WF) (hm : HandsOutAtMost r.source m) (hpatience : r.buffered + m + 1 < sh.patience)
    (task : Task κ) : Act.Meets H (execute task r) sh fun _ _ => True := by
  cases task with
  | writeTo k => exact Act.meets_bind.mpr ((writeTo_ends h hm (by omega) k).imp fun _ _ _ => trivial)
  | op op =>
    apply Act.meets_bind.mpr
    by_cases hop : op.collects = true
    · cases op with
      | readBytes delim =>
        exact Act.meets_bind.mpr ((readBytes_ends h hm hpatience delim).imp fun _ _ _ => trivial)
      | readString delim =>
        exact Act.meets_bind.mpr ((readString_ends h hm hpatience delim).imp fun _ _ _ => trivial)
      | _ => cases hop
    · exact (perform_bounded h (eq_false_of_ne_true hop)).imp fun _ _ _ => trivial

/-- **Every loop of a reader ends.**  Over an honest source, whatever else it does, an operation
that collects no record returns within a hundred calls for each byte of the buffer and a hundred
more, and none of its loops wants another round.  Collecting a record and emptying the reader
return over a source that hands out finitely many bytes and errors. -/
theorem loops_end {σ κ : Type} [BulkSource σ] [HonestSource (fun _ => False) σ]
    [HonestBulkSource (fun _ => False) σ] [HonestBulkSource (· = Halt.exhausted) σ]
    [DecliningSource σ] [ByteSink κ] [Keeping κ] [HonestSink (fun _ => False) κ] [PatientSink κ]
    {r : Reader (Traced σ)} (hr : r.Reachable) (sh : Shared) :
    (∀ op : Op, op.collects = false → Act.Returns (perform op r) sh fun (_, r') _ =>
      ∃ ds, draws r'.source = draws r.source ++ ds ∧ ds.length ≤ maxEmptyReads * (r.size + 1)) ∧
    (∀ r : Reader (Traced σ), r.WF → r.LoopsEnd) ∧
    (∀ n, HandsOutAtMost r.source.source n → r.buffered + n + 1 < sh.patience →
      ∀ task : Task κ, Act.Returns (execute task r) sh fun _ _ => True) := by
  have : HonestSource (· = Halt.exhausted) σ := .of_returns
  have hwf := hr.wf
  refine ⟨?_, ?_, ?_⟩
  · intro op hop
    refine (perform_bounded hwf hop).imp ?_
    intro ⟨outcome, r'⟩ sh' ⟨ds, hcalls, hle⟩
    exact ⟨ds, draws_of_calls hcalls, hle⟩
  · exact fun r h => loopsEnd (fun _ => False) h
  · intro n hn hpatience task
    exact execute_ends hwf (Traced.handsOutAtMost_iff.mpr hn) hpatience task

/-- A source that tells of a full buffer with its last letter, pauses, and then ends a line. -/
def tellingFull : Script.Truthful where
  source := { items := [.piece (List.replicate 20 0x61) (some .bufferFull), .idle 250,
    .piece [0x62, newline] none] }

/-- It hands out twenty-two bytes and an error. -/
theorem loops_end_tellingFull :
    ∃ r : Reader (Traced Script.Truthful), r = withCapacity (Traced.start tellingFull) 16 0 ∧
      r.Reachable ∧ HandsOutAtMost r.source.source 23 ∧
      (Act.Returns (perform .readLine r) { pools := [] } fun (_, r') _ =>
        ∃ ds, draws r'.source = draws r.source ++ ds ∧ ds.length ≤ 1700) ∧ r.LoopsEnd ∧
      ∀ task : Task MemorySink, Act.Returns (execute task r) { pools := [] } fun _ _ => True := by
  have hr := Reachable.start (Traced.start tellingFull) 16 0
  have hcontent : HandsOutAtMost tellingFull 23 := tellingFull.handsOutAtMost
  obtain ⟨hcalls, hloops, hends⟩ := loops_end (κ := MemorySink) hr { pools := [] }
  exact ⟨_, rfl, hr, hcontent, hcalls .readLine rfl, hloops _ (wf_withCapacity ..),
    hends 23 hcontent (by decide)⟩

end Reader

end BufferedStream
