import BufferedStream.Proofs.Reader.Delivery
import BufferedStream.Proofs.Script
import BufferedStream.Proofs.Twin.Level

/-!
# When a rune can be pushed back

The rune read last can be pushed back while it is remembered and its bytes stand behind
the unread ones (`Reader.RuneInReach`).  Most operations forget it.  Those that can come
away with nothing need not: a read that delivers nothing, a look at the buffer, consuming
nothing, and asking for a buffer of a size that is there already spare the rune
(`Reader.Op.Spares`), unless they fill the buffer from its start or give the block away.

* `Reader.perform_reach`, `Reader.execute_reach` — what one operation does to the rune.
* `Reader.run_pushes_back_runes` — over a whole run: a rune is pushed back just if one was
  read and every operation since has spared it.
-/

namespace BufferedStream

namespace Reader

variable {σ κ : Type}

/-- The rune read last is remembered, and its bytes stand behind the unread ones. -/
def RuneInReach (r : Reader σ) : Prop :=
  ∃ width, r.lastRune = some width ∧ width ≤ r.window.past.length

/-- The number of bytes that a read delivered. -/
def Outcome.delivered : Outcome → Nat
  | .reading g => g.count
  | .grant (.ok g) => g.count
  | _ => 0

/-- The operation fills the buffer from its start: nothing is unread, no error is latched,
and a read has room, but less than the buffer. -/
def Op.Refills (r : Reader σ) : Op → Prop
  | .read room | .plainRead room =>
    r.window.unread = [] ∧ r.fault = none ∧ 0 < room.size ∧ room.size < r.size
  | .fillBuf => r.window.unread = [] ∧ r.fault = none
  | _ => False

/-- The operation, which left the reader `r'`, has spared the rune read last. -/
def Op.Spares (r : Reader σ) (op : Op) (outcome : Outcome) (r' : Reader σ) : Prop :=
  match op with
  | .read _ | .plainRead _ | .fillBuf =>
    outcome.delivered = 0 ∧ ¬ op.Refills r ∧ r'.held = r.held
  | .consume n => r.window.unread.take n = []
  | .adapt size _ => size ≤ r.size
  | _ => False

/-- The operation has read a rune. -/
def Op.BringsRune : Op → Outcome → Prop
  | .readRune, .rune (.ok _) => True
  | _, _ => False

/-! ## What may become of the rune -/

/-- An operation that reads no rune keeps the one read last if it spares it; otherwise it
forgets the rune, or leaves nothing behind the unread bytes. -/
inductive Treats (r : Reader σ) (spares : Prop) (r' : Reader σ) : Prop
  | kept (hs : spares) (hrune : r'.lastRune = r.lastRune) (hpast : r'.window.past = r.window.past)
  | forgot (hs : ¬ spares) (hnone : r'.lastRune = none)
  | lost (hs : ¬ spares) (hrune : r'.lastRune = r.lastRune) (hpast : r'.window.past = [])

variable {r r' : Reader σ} {spares : Prop}

theorem not_runeInReach_of_none (hnone : r.lastRune = none) : ¬ r.RuneInReach := by
  rintro ⟨width, hwidth, -⟩
  rw [hnone] at hwidth
  cases hwidth

namespace Treats

theorem recalls (ht : r.Treats spares r') (h : r.Recalls) : r'.Recalls := by
  cases ht with
  | kept _ hrune hpast =>
    intro width hwidth
    rw [hpast]
    exact h width (hrune ▸ hwidth)
  | forgot _ hnone => exact .of_none hnone
  | lost _ hrune hpast => exact fun width hwidth => ⟨(h width (hrune ▸ hwidth)).1, .inl hpast⟩

theorem reach_iff (ht : r.Treats spares r') (h : r.Recalls) :
    r'.RuneInReach ↔ r.RuneInReach ∧ spares := by
  cases ht with
  | kept hs hrune hpast =>
    rw [and_iff_left hs, RuneInReach, RuneInReach, hrune, hpast]
  | forgot hs hnone =>
    exact iff_of_false (not_runeInReach_of_none hnone) fun hboth => hs hboth.2
  | lost hs hrune hpast =>
    refine iff_of_false ?_ fun hboth => hs hboth.2
    rintro ⟨width, hwidth, hle⟩
    rw [hpast] at hle
    exact absurd hle (Nat.not_le.mpr (h width (hrune ▸ hwidth)).1)

/-- Only the rune and what stands behind the unread bytes matter. -/
theorem congr {r₁ : Reader σ} {spares₁ : Prop} (ht : r.Treats spares₁ r₁)
    (hiff : spares ↔ spares₁) (hrune : r'.lastRune = r₁.lastRune)
    (hpast : r'.window.past = r₁.window.past) : r.Treats spares r' := by
  cases ht with
  | kept hs hrune₁ hpast₁ => exact .kept (hiff.mpr hs) (hrune.trans hrune₁) (hpast.trans hpast₁)
  | forgot hs hnone => exact .forgot (mt hiff.mp hs) (hrune.trans hnone)
  | lost hs hrune₁ hpast₁ => exact .lost (mt hiff.mp hs) (hrune.trans hrune₁) (hpast.trans hpast₁)

end Treats

/-- Who gives the block away leaves nothing behind the unread bytes. -/
theorem Settles.treats (hs : r.Settles r') (h : r.WF) (hiff : spares ↔ r'.held = r.held) :
    r.Treats spares r'.cleared := by
  cases hs with
  | keeps => exact .kept (hiff.mpr rfl) rfl rfl
  | returns =>
    cases hheld : r.held with
    | none => exact .kept (hiff.mpr hheld.symm) rfl (h.past_of_held hheld).symm
    | some length =>
      refine .lost (fun hspares => ?_) rfl rfl
      rw [hheld] at hiff
      cases hiff.mp hspares

theorem Settles.past_eq_nil (hs : r.Settles r') (hpast : r.window.past = []) :
    r'.window.past = [] := by
  rcases hs.past_eq with heq | hnil
  · exact heq.trans hpast
  · exact hnil

/-! ## Reading and looking at the buffer -/

variable {H : Halt → Prop} {sh : Shared}

/-- Bytes are delivered, and the rune is forgotten, or at most the block goes back. -/
theorem deliverOrReport_cases {n : Nat} (hn : 0 < n) (r : Reader σ) :
    Act.Meets H (r.deliverOrReport n) sh fun (g, r') _ =>
      (0 < g.count ∧ r'.lastRune = none) ∨
        (r.window.unread = [] ∧ g.count = 0 ∧ ∃ r₁, r.Settles r₁ ∧ r' = r₁.cleared) := by
  unfold deliverOrReport
  split
  · rename_i hne
    refine (deliver_meets r n).imp ?_
    rintro ⟨g, r'⟩ sh' ⟨rfl, hs⟩
    refine .inl ⟨?_, hs.lastRune_eq⟩
    have hlength := List.length_pos_iff.mpr hne
    show 0 < (r.window.unread.take n).length
    rw [List.length_take]
    omega
  · rename_i hunread
    refine Act.meets_bind.mpr ((settle_meets r).imp ?_)
    intro r₁ sh' hs
    exact .inr ⟨Decidable.of_not_not hunread, rfl, r₁, hs, rfl⟩

section Operations

variable [ByteSource σ]

theorem readThrough_cases [HonestSource H σ] (room : Room) (r : Reader σ) :
    Act.Meets H (r.readThrough room) sh fun (g, r') _ =>
      (0 < g.count ∧ r'.lastRune = none) ∨ (g.count = 0 ∧ ∃ s, r' = { r with source := s }) := by
  refine Act.meets_bind.mpr ((draw_meets room r).imp ?_)
  rintro ⟨g, r₁⟩ sh₁ ⟨s, -, -, -, rfl⟩
  dsimp only
  split
  · rename_i h0
    exact .inr ⟨h0, s, rfl⟩
  · rename_i h0
    exact .inl ⟨Nat.pos_of_ne_zero h0, rfl⟩

/-- What a read does to the rune read last. -/
theorem read_treats [HonestSource H σ] (h : r.WF) (room : Room) :
    Act.Meets H (r.read room) sh fun (g, r') _ =>
      r.Treats (Op.Spares r (.read room) (.reading g) r') r' := by
  unfold read
  dsimp only
  split
  · rename_i h0
    refine .kept ⟨rfl, ?_, rfl⟩ rfl rfl
    rintro ⟨-, -, hpos, -⟩
    exact absurd h0 (Nat.ne_of_gt hpos)
  · rename_i h0
    have hpos : 0 < room.size := Nat.pos_of_ne_zero h0
    split
    · rename_i hready
      simp only [Bool.or_eq_true, decide_eq_true_eq] at hready
      have hkeeps : ¬ Op.Refills r (.read room) := by
        rintro ⟨hunread, hfault, -⟩
        rw [hfault] at hready
        exact hready.elim (fun hne => hne hunread) nofun
      refine (deliverOrReport_cases hpos r).imp ?_
      rintro ⟨g, r'⟩ sh' (⟨hcount, hnone⟩ | ⟨-, hcount, r₁, hs, rfl⟩)
      · exact .forgot (fun hspares => Nat.ne_of_gt hcount hspares.1) hnone
      · exact hs.treats h ⟨fun hspares => hspares.2.2, fun hheld => ⟨hcount, hkeeps, hheld⟩⟩
    · rename_i hready
      simp only [Bool.or_eq_true, decide_eq_true_eq, not_or, Decidable.not_not,
        Option.not_isSome_iff_eq_none] at hready
      obtain ⟨hunread, hfault⟩ := hready
      split
      · rename_i hsize
        refine (readThrough_cases room r).imp ?_
        rintro ⟨g, r'⟩ sh' (⟨hcount, hnone⟩ | ⟨hcount, s, rfl⟩)
        · exact .forgot (fun hspares => Nat.ne_of_gt hcount hspares.1) hnone
        · refine .kept ⟨hcount, ?_, rfl⟩ rfl rfl
          rintro ⟨-, -, -, hlt⟩
          exact absurd hsize (Nat.not_le.mpr hlt)
      · rename_i hsize
        have hrefills : Op.Refills r (.read room) :=
          ⟨hunread, hfault, hpos, Nat.lt_of_not_le hsize⟩
        refine Act.meets_bind.mpr ((readOnce_meets h hunread hfault).imp ?_)
        rintro r₁ sh₁ ⟨g, hp⟩
        have hpast : r₁.window.past = [] := hp.past.resolve_left fun hnil => nomatch hnil.1
        refine (deliverOrReport_cases hpos r₁).imp ?_
        rintro ⟨g, r'⟩ sh' (⟨hcount, hnone⟩ | ⟨-, -, r₂, hs, rfl⟩)
        · exact .forgot (fun hspares => hspares.2.1 hrefills) hnone
        · exact .lost (fun hspares => hspares.2.1 hrefills) (hs.lastRune_eq.trans hp.lastRune)
            (hs.past_eq_nil hpast)

/-- An error that is latched again makes no difference to the rune. -/
theorem plainRead_treats [HonestSource H σ] (h : r.WF) (room : Room) :
    Act.Meets H (r.plainRead room) sh fun (g, r') _ =>
      r.Treats (Op.Spares r (.plainRead room) (.grant g) r') r' := by
  refine Act.meets_bind.mpr ((read_treats h room).imp ?_)
  rintro ⟨g, r₁⟩ sh₁ ht
  dsimp only
  split
  · rw [Act.meets_pure, latch_eq]
    exact ht.congr Iff.rfl rfl rfl
  · rename_i hcount
    have h0 : g.count = 0 := Nat.eq_zero_of_not_pos hcount
    have hnothing : ∀ {o : Outcome}, o.delivered = 0 →
        (Op.Spares r (.plainRead room) o r₁ ↔ Op.Spares r (.read room) (.reading g) r₁) :=
      fun hnone => and_congr_left' (iff_of_true hnone h0)
    split
    · exact ht.congr (hnothing rfl) rfl rfl
    · exact ht.congr (hnothing rfl) rfl rfl
    · exact Act.meets_bind.mpr (failure_meets fun _ => ht.congr (hnothing rfl) rfl rfl)

omit [ByteSource σ] in
theorem showBuffer_cases (r : Reader σ) :
    Act.Meets H r.showBuffer sh fun (_, r') _ =>
      (r.window.unread ≠ [] ∧ r' = r) ∨
        (r.window.unread = [] ∧ ∃ r₁, r.Settles r₁ ∧ r' = r₁.cleared) := by
  unfold showBuffer
  split
  · rename_i hne
    exact .inl ⟨hne, rfl⟩
  · rename_i hunread
    have hunread := Decidable.of_not_not hunread
    refine Act.meets_bind.mpr ((settle_meets r).imp ?_)
    intro r₁ sh' hs
    dsimp only
    split
    · exact .inr ⟨hunread, r₁, hs, rfl⟩
    · exact .inr ⟨hunread, r₁, hs, rfl⟩
    · exact Act.meets_bind.mpr (failure_meets fun _ => .inr ⟨hunread, r₁, hs, rfl⟩)

/-- What a look at the buffer does to the rune read last. -/
theorem fillBuf_treats [HonestSource H σ] (h : r.WF) :
    Act.Meets H r.fillBuf sh fun (b, r') _ =>
      r.Treats (Op.Spares r .fillBuf (.shown b) r') r' := by
  unfold fillBuf
  split
  · rename_i hempty
    simp only [Bool.and_eq_true, decide_eq_true_eq, Option.isNone_iff_eq_none] at hempty
    refine Act.meets_bind.mpr ((fill_meets r).imp ?_)
    rintro r₁ sh₁ ⟨ds, hf⟩
    have hext := hf.extended h
    have hpast : r₁.window.past = [] := hext.past.resolve_left fun hnil => hf.ne_nil hnil.1
    refine (showBuffer_cases r₁).imp ?_
    rintro ⟨b, r'⟩ sh' (⟨-, rfl⟩ | ⟨-, r₂, hs, rfl⟩)
    · exact .lost (fun hspares => hspares.2.1 hempty) hext.lastRune hpast
    · exact .lost (fun hspares => hspares.2.1 hempty) (hs.lastRune_eq.trans hext.lastRune)
        (hs.past_eq_nil hpast)
  · rename_i hempty
    simp only [Bool.and_eq_true, decide_eq_true_eq, Option.isNone_iff_eq_none] at hempty
    refine (showBuffer_cases r).imp ?_
    rintro ⟨b, r'⟩ sh' (⟨-, rfl⟩ | ⟨-, r₁, hs, rfl⟩)
    · exact .kept ⟨rfl, hempty, rfl⟩ rfl rfl
    · exact hs.treats h ⟨fun hspares => hspares.2.2, fun hheld => ⟨rfl, hempty, hheld⟩⟩

/-! ## Every operation -/

/-- The operations that forget the rune read last whatever comes of them. -/
def Op.Forgets : Op → Prop
  | .peek _ | .readByte | .unreadByte | .readSlice _ | .readLine | .readBytes _
  | .readString _ => True
  | _ => False

/-- By induction on the scans: each notes what it delivered. -/
theorem Collects.lastRune_eq {delim : UInt8} {ds : List Draw} {p : Passage}
    (hc : r.Collects delim ds p r') : r'.lastRune = none := by
  induction hc with
  | last => rfl
  | more _ _ _ ih => exact ih

theorem Performs.lastRune_of_forgets {op : Op} {ds : List Draw} {outcome : Outcome}
    (hp : r.Performs op ds outcome r') (hop : op.Forgets) : r'.lastRune = none := by
  cases hp with
  | peek hp =>
    cases hp with
    | tooLarge => rfl
    | seen hp => exact hp.lastRune
    | short hp => exact hp.lastRune
  | readByte hb =>
    cases hb with
    | got _ _ _ hs => exact hs.lastRune_eq
    | failed hp _ _ _ hs => exact hs.lastRune_eq.trans hp.lastRune
  | unreadByte hu => cases hu <;> rfl
  | readSlice => rfl
  | readLine hl => cases hl <;> rfl
  | readBytes hc => exact hc.lastRune_eq
  | readString hc hs => exact hs.lastRune_eq.trans hc.lastRune_eq
  | _ => exact hop.elim

omit [ByteSource σ] in
theorem UnreadsRune.treats {u : Except Error Unit} (hu : r.UnreadsRune u r') (h : r.Recalls) :
    r.Treats False r' := by
  cases hu with
  | moved => exact .forgot id rfl
  | refused hrefused =>
    cases hrune : r.lastRune with
    | none => exact .forgot id hrune
    | some width =>
      have hshort := hrefused width hrune
      exact .lost id rfl ((h width hrune).2.resolve_right (Nat.not_le.mpr hshort))

omit [ByteSource σ] in
theorem Consumes.treats {n : Nat} (hc : r.Consumes n r') :
    r.Treats (r.window.unread.take n = []) r' := by
  cases hc with
  | nothing h => exact .kept h rfl rfl
  | taken h hs => exact .forgot h hs.lastRune_eq

omit [ByteSource σ] in
theorem Adapts.treats {size : Nat} {pool : PoolId} (ha : r.Adapts size pool r') :
    r.Treats (size ≤ r.size) r' := by
  cases ha with
  | kept h => exact .kept h rfl rfl
  | regrown h => exact .lost (Nat.not_le.mpr h) rfl rfl

/-- A rune that was read can be pushed back; if none was, none can. -/
theorem ReadsRune.reach_iff {ds : List Draw} {c : Except Error (Char × Nat)}
    (hr : r.ReadsRune ds c r') :
    r'.Recalls ∧ (r'.RuneInReach ↔ Op.BringsRune .readRune (.rune c)) := by
  cases hr with
  | @got r₁ hp _ hne =>
    obtain ⟨hpos, hle⟩ := Rune.width_decode hne
    have hlength : (Rune.decode r₁.window.unread).2 ≤
        (r₁.deliveringRune (Rune.decode r₁.window.unread).2).window.past.length := by
      show _ ≤ ((r₁.window.unread.take _).reverse ++ r₁.window.past).length
      rw [List.length_append, List.length_reverse, List.length_take]
      omega
    refine ⟨?_, iff_of_true ⟨_, rfl, hlength⟩ trivial⟩
    intro width hwidth
    obtain rfl := Option.some.inj hwidth
    exact ⟨hpos, .inr hlength⟩
  | failed _ _ _ _ hs =>
    exact ⟨.of_none hs.lastRune_eq, iff_of_false (not_runeInReach_of_none hs.lastRune_eq) id⟩

/-- Every other operation spares the rune read last, forgets or loses it. -/
theorem perform_treats [HonestSource H σ] (hH : H .exhausted) {op : Op} (hop : op ≠ .readRune)
    (h : r.WF) (hr : r.Recalls) :
    Act.Meets H (perform op r) sh fun (outcome, r') _ =>
      r.Treats (op.Spares r outcome r') r' := by
  by_cases hforgets : op.Forgets
  · refine (perform_meets hH op h).imp ?_
    rintro ⟨outcome, r'⟩ sh' ⟨ds, hp⟩
    refine .forgot (fun hspares => ?_) (hp.lastRune_of_forgets hforgets)
    cases op <;> first | exact hspares | exact hforgets
  · cases op with
    | read room => exact Act.meets_bind.mpr (read_treats h room)
    | plainRead room => exact Act.meets_bind.mpr (plainRead_treats h room)
    | fillBuf => exact Act.meets_bind.mpr (fillBuf_treats h)
    | consume n => exact Act.meets_bind.mpr ((consume_meets r n).imp fun _ _ hc => hc.treats)
    | adapt size pool =>
      exact Act.meets_bind.mpr ((adapt_meets h size pool).imp fun _ _ ha => ha.treats)
    | unreadRune => exact r.unreadRune_does.treats hr
    | readRune => exact absurd rfl hop
    | _ => exact absurd trivial hforgets

/-- **What an operation does to the rune read last.** -/
theorem perform_reach [HonestSource H σ] (hH : H .exhausted) (op : Op) (h : r.WF)
    (hr : r.Recalls) :
    Act.Meets H (perform op r) sh fun (outcome, r') _ => r'.Recalls ∧
      (r'.RuneInReach ↔ op.BringsRune outcome ∨ (r.RuneInReach ∧ op.Spares r outcome r')) := by
  by_cases hop : op = .readRune
  · subst hop
    refine Act.meets_bind.mpr ((readRune_meets h).imp ?_)
    rintro ⟨c, r'⟩ sh' ⟨ds, hread⟩
    obtain ⟨hr', hreach⟩ := hread.reach_iff
    exact ⟨hr', hreach.trans (or_iff_left fun hspares => hspares.2).symm⟩
  · refine (perform_treats hH hop h hr).imp ?_
    rintro ⟨outcome, r'⟩ sh' ht
    refine ⟨ht.recalls hr, (ht.reach_iff hr).trans (or_iff_right fun hbrings => ?_).symm⟩
    cases op with
    | readRune => exact hop rfl
    | _ => exact hbrings

end Operations

/-- Pushing a rune back succeeds if one is in reach, and is refused otherwise. -/
def PushesBackIf (reach : Prop) (u : Except Error Unit) : Prop :=
  (u = .ok () ∧ reach) ∨ (u = .error .invalidUnreadRune ∧ ¬ reach)

theorem UnreadsRune.answer {u : Except Error Unit} (hu : r.UnreadsRune u r') :
    PushesBackIf r.RuneInReach u := by
  cases hu with
  | moved hrune hle => exact .inl ⟨rfl, _, hrune, hle⟩
  | refused hrefused =>
    refine .inr ⟨rfl, ?_⟩
    rintro ⟨width, hwidth, hle⟩
    exact absurd hle (Nat.not_le.mpr (hrefused width hwidth))

/-! ## Every task -/

/-- The task has read a rune. -/
def Task.BringsRune : Task κ → Result κ → Prop
  | .op o, .outcome outcome => o.BringsRune outcome
  | _, _ => False

/-- The task has spared the rune read last; emptying the reader into a sink does not. -/
def Task.Spares (r : Reader σ) : Task κ → Result κ → Reader σ → Prop
  | .op o, .outcome outcome, r' => o.Spares r outcome r'
  | _, _, _ => False

/-- One step of a run, as far as the rune read last is concerned. -/
structure MindsRune (r : Reader σ) (task : Task κ) (result : Result κ) (r' : Reader σ) :
    Prop where
  reach_iff : r'.RuneInReach ↔
    task.BringsRune result ∨ (r.RuneInReach ∧ task.Spares r result r')
  answer : task = .op .unreadRune →
    ∃ u, result = .outcome (.pushed u) ∧ PushesBackIf r.RuneInReach u

section Tasks

variable [ByteSink κ] [Keeping κ]

theorem WritesTo.lastRune_eq [ByteSource σ] [History σ] {k k' : κ}
    {receipt : Receipt} (hw : r.WritesTo k receipt r' k') : r'.lastRune = none := by
  cases hw with
  | stopped hd => exact hd.memory_eq.2
  | moved hd => exact hd.memory_eq.2
  | failed hd _ hp => exact hp.memory_eq.2.trans hd.memory_eq.2
  | emptied hd _ hp hs => exact hs.lastRune_eq.trans (hp.memory_eq.2.trans hd.memory_eq.2)

/-- **What a task does to the rune read last.** -/
theorem execute_reach [BulkSource σ] [HonestSource H σ] [History σ] [BulkHistory H σ]
    [HonestSink H κ] (hH : H .exhausted) (task : Task κ) (h : r.WF) (hr : r.Recalls) :
    Act.Meets H (execute task r) sh fun (result, r') _ =>
      r.MindsRune task result r' ∧ r'.WF ∧ r'.Recalls := by
  cases task with
  | op op =>
    refine Act.meets_bind.mpr (((perform_meets hH op h).and (perform_reach hH op h hr)).imp ?_)
    rintro ⟨outcome, r'⟩ sh' ⟨⟨ds, hp⟩, hr', hreach⟩
    refine ⟨⟨hreach, ?_⟩, hp.wf h, hr'⟩
    rintro ⟨⟩
    cases hp with
    | unreadRune hu => exact ⟨_, rfl, hu.answer⟩
  | writeTo k =>
    refine Act.meets_bind.mpr ((writeTo_meets hH h k).imp ?_)
    rintro ⟨receipt, r', k'⟩ sh' hw
    have hnone := hw.lastRune_eq
    refine ⟨⟨?_, nofun⟩, hw.wf h, .of_none hnone⟩
    exact iff_of_false (not_runeInReach_of_none hnone) fun hkept => hkept.elim id And.right

/-! ## Runs -/

/-- Somewhere in the row a rune was read, and every task since has spared it. -/
def RuneSpared : List (Entry (Task κ) (Result κ) (Reader σ)) → Prop
  | [] => False
  | entry :: entries =>
    (entry.op.BringsRune entry.outcome ∧ Chain Task.Spares entry.state entries) ∨
      RuneSpared entries

omit [ByteSink κ] [Keeping κ] in
/-- By induction on the tasks before: a rune is pushed back if one was read among them and
spared since, or if one was in reach at first and has been spared all along. -/
theorem answer_of_chain {front rest : List (Entry (Task κ) (Result κ) (Reader σ))}
    {result : Result κ} (h : Chain MindsRune r (front ++ ⟨.op .unreadRune, result, r'⟩ :: rest)) :
    ∃ u, result = .outcome (.pushed u) ∧
      PushesBackIf (RuneSpared front ∨ (r.RuneInReach ∧ Chain Task.Spares r front)) u := by
  induction front generalizing r with
  | nil =>
    obtain ⟨u, hresult, hanswer⟩ := h.1.answer rfl
    refine ⟨u, hresult, ?_⟩
    rwa [RuneSpared, Chain, false_or, and_true]
  | cons entry front ih =>
    obtain ⟨hfirst, hrest⟩ := h
    obtain ⟨u, hresult, hanswer⟩ := ih hrest
    refine ⟨u, hresult, ?_⟩
    rwa [hfirst.reach_iff, or_and_right, or_left_comm, ← or_assoc, and_assoc] at hanswer

end Tasks

/-- **A rune is pushed back just if everything since it was read has spared it.**  Over any
honest source, with a buffer of any size and any pools, in every run of operations:
whenever a rune is to be pushed back, that succeeds if a rune was read before and
everything done with the reader since has spared it, and is refused otherwise. -/
theorem run_pushes_back_runes {σ κ : Type} [BulkSource σ] [HonestSource (· = Halt.exhausted) σ]
    [HonestBulkSource (· = Halt.exhausted) σ] [ByteSink κ] [Keeping κ]
    [HonestSink (· = Halt.exhausted) κ] (s : σ) (size : Nat) (pool : PoolId)
    (tasks : List (Task κ)) (sh : Shared) :
    Act.Keeps (Act.performAll execute tasks (withCapacity (Traced.start s) size pool)) sh
      fun entries _ => entries.map Entry.op = tasks ∧
        ∀ front result r' rest, entries = front ++ ⟨.op .unreadRune, result, r'⟩ :: rest →
          ∃ u, result = .outcome (.pushed u) ∧ PushesBackIf (RuneSpared front) u := by
  have hstart : (withCapacity (Traced.start s) size pool).WF ∧
      (withCapacity (Traced.start s) size pool).Recalls :=
    ⟨wf_withCapacity _ size pool, .of_none rfl⟩
  have hstep : ∀ task ∈ tasks, ∀ (r : Reader (Traced σ)) sh, r.WF ∧ r.Recalls →
      Act.Keeps (execute task r) sh fun (result, r') _ =>
        r.MindsRune task result r' ∧ r'.WF ∧ r'.Recalls :=
    fun task _ _ _ h => execute_reach (H := (· = Halt.exhausted)) rfl task h.1 h.2
  refine (Act.performAll_meets tasks hstep hstart sh).imp ?_
  rintro entries sh' ⟨hchain, hops⟩
  refine ⟨hops, ?_⟩
  rintro front result r' rest rfl
  have hnone : ¬ (withCapacity (Traced.start s) size pool).RuneInReach :=
    not_runeInReach_of_none rfl
  have hanswer := answer_of_chain hchain
  simpa only [hnone, false_and, or_false] using hanswer

/-- Two letters, and then the end. -/
def twoLetters : Script.Truthful where
  source := { items := [.piece [0x61, 0x62] none] }

/-- A rune is read, spared twice and pushed back, read again and forgotten, and pushed back
again in vain. -/
def runeTasks : List (Task MemorySink) :=
  [.op .readRune, .op .fillBuf, .op (.read ⟨0, []⟩), .op .unreadRune, .op .readRune,
    .op (.peek 1), .op .unreadRune, .writeTo {}, .op .unreadRune]

theorem run_pushes_back_runes_twoLetters :
    ∃ entries sh',
      Act.performAll execute runeTasks (withCapacity (Traced.start twoLetters) 16 0)
        { pools := [], patience := 9 } = .ok entries sh' ∧
      entries.map Entry.op = runeTasks ∧
      ∀ front result r' rest, entries = front ++ ⟨.op .unreadRune, result, r'⟩ :: rest →
        ∃ u, result = .outcome (.pushed u) ∧ PushesBackIf (RuneSpared front) u :=
  (run_pushes_back_runes twoLetters 16 0 runeTasks _).exists_of_ends (by decide +kernel)

/-- A look at the buffer in between does not keep a rune from being pushed back. -/
theorem rune_outlasts_look :
    ∃ r₁ sh₁ r₂ sh₂ r₃ sh₃,
      perform .readRune (withCapacity twoLetters 16 0) { pools := [] } =
        .ok (.rune (.ok ('a', 1)), r₁) sh₁ ∧
      perform .fillBuf r₁ sh₁ = .ok (.shown (.ok [0x62]), r₂) sh₂ ∧
      perform .unreadRune r₂ sh₂ = .ok (.pushed (.ok ()), r₃) sh₃ :=
  ⟨_, _, _, _, _, _, rfl, rfl, rfl⟩

end Reader

end BufferedStream
