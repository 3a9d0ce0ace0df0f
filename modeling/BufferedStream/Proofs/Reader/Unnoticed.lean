import BufferedStream.Proofs.Reader.Moved

/-!
# Pushing back in vain

A byte cannot be pushed back once what is unread has moved to the start of the block, and then
the reader forgets it, and with it the rune read last.  No operation can tell: whatever comes
next either forgets both as well, or remembers something else, or leaves the reader where
nothing can be pushed back (`Reader.Stranded`).

* `Reader.acquire_forgetting` and the like — what an operation does apart from what it
  remembers does not depend on what was remembered.
* `Reader.Stranded.perform`, `Reader.Stranded.execute` — a stranded reader and the one that
  has forgotten do the same, and are the same afterwards or still stranded.
* `Reader.failed_pushback_unnoticed` — whatever is done after pushing back in vain could be done
  before as well, with the same results and the same calls.
-/

namespace BufferedStream

/-! ## Acts with translated results -/

namespace Act

variable {α β γ δ : Type} {f : α → β} {f' : γ → δ}

/-- Results are translated step by step. -/
theorem bind_eq_map {m : Act α} {m' : Act β} {g : α → Act γ} {g' : β → Act δ} (hm : m' = f <$> m)
    (hg : ∀ a, g' (f a) = f' <$> g a) : m' >>= g' = f' <$> (m >>= g) := by
  rw [hm, bind_map_left, map_bind]
  exact bind_congr hg

/-- Results are translated branch by branch. -/
theorem ite_eq_map {c c' : Prop} [Decidable c] [Decidable c'] {m₁ m₂ : Act α} {m₁' m₂' : Act β}
    (hc : c' ↔ c) (h₁ : m₁' = f <$> m₁) (h₂ : m₂' = f <$> m₂) :
    (if c' then m₁' else m₂') = f <$> if c then m₁ else m₂ := by
  rw [apply_ite (f <$> ·), h₁, h₂]
  exact if_congr hc rfl rfl

end Act

namespace Reader

variable {σ κ : Type}

/-! ## What does not depend on what was remembered -/

/-- What came of an operation, with the reader having forgotten what it read last. -/
abbrev forgettingAfter {α : Type} : α × Reader σ → α × Reader σ := Prod.map id forgetting

theorem forgetting_fault (r : Reader σ) : r.forgetting.fault = r.fault := rfl

theorem acquire_forgetting (r : Reader σ) : r.forgetting.acquire = forgetting <$> r.acquire := by
  have hheld : r.forgetting.held = r.held := rfl
  unfold acquire
  rw [hheld]
  cases r.held with
  | some length => rfl
  | none => exact Act.bind_eq_map (id_map _).symm fun _ => rfl

theorem settle_forgetting (r : Reader σ) : r.forgetting.settle = forgetting <$> r.settle := by
  have hblock : r.forgetting.block? = r.block? := rfl
  refine Act.ite_eq_map Iff.rfl ?_ rfl
  rw [hblock]
  cases r.block? with
  | none => rfl
  | some b =>
    refine Act.bind_eq_map (id_map _).symm fun size => Act.ite_eq_map Iff.rfl ?_ rfl
    refine Act.bind_eq_map (id_map _).symm fun rejected => ?_
    cases rejected <;> rfl

theorem latch_forgetting (fault : Option Error) (r : Reader σ) :
    r.forgetting.latch fault = (r.latch fault).forgetting := by
  cases fault <;> rfl

theorem adapt_forgetting (size : Nat) (pool : PoolId) (r : Reader σ) :
    r.forgetting.adapt size pool = forgetting <$> r.adapt size pool := by
  refine Act.ite_eq_map Iff.rfl rfl ?_
  have hgive : ∀ grown : Reader σ, (do r.forgetting.surrender; return grown.forgetting) =
      forgetting <$> (do r.surrender; return grown : Act (Reader σ)) :=
    fun _ => Act.bind_eq_map (id_map _).symm fun _ => rfl
  unfold regrow
  dsimp only
  refine Act.ite_eq_map Iff.rfl ?_ (Act.bind_eq_map (f := forgetting) rfl hgive)
  exact Act.bind_eq_map (acquire_forgetting { withCapacity r.source size pool with
    fault := r.fault, lastByte := r.lastByte, lastRune := r.lastRune })
    fun _ => Act.bind_eq_map (f := forgetting) rfl hgive

section Operations

variable [ByteSource σ]

theorem draw_forgetting (room : Room) (r : Reader σ) :
    r.forgetting.draw room = forgettingAfter <$> r.draw room :=
  Act.bind_eq_map (id_map _).symm fun _ => Act.bind_eq_map (id_map _).symm fun _ => rfl

/-- By induction on the rounds. -/
theorem fillRounds_forgetting (rounds : Nat) (r : Reader σ) :
    fillRounds rounds r.forgetting = forgetting <$> fillRounds rounds r := by
  induction rounds generalizing r with
  | zero => exact congrArg pure (latch_forgetting _ r)
  | succ rounds ih =>
    refine Act.bind_eq_map (draw_forgetting _ r) fun (g, r₁) => ?_
    let r₂ := { r₁ with window := r₁.window.receive g.toGrant }
    exact Act.ite_eq_map Iff.rfl (congrArg pure (latch_forgetting g.fault r₂)) (ih r₂)

theorem fill_forgetting (r : Reader σ) : r.forgetting.fill = forgetting <$> r.fill :=
  Act.bind_eq_map (acquire_forgetting r) fun r₁ =>
    fillRounds_forgetting _ { r₁ with window := r₁.window.slide }

/-- By induction on the rounds. -/
theorem fillWhile_forgetting (wanting : Bytes → Bool) (rounds : Nat) (r : Reader σ) :
    r.forgetting.fillWhile wanting rounds = forgetting <$> r.fillWhile wanting rounds := by
  induction rounds generalizing r with
  | zero => rfl
  | succ rounds ih =>
    exact Act.ite_eq_map Iff.rfl (Act.bind_eq_map (fill_forgetting r) ih) rfl

theorem peek_forgetting (n : Nat) (r : Reader σ) :
    r.forgetting.peek n = forgettingAfter <$> r.peek n := by
  refine Act.ite_eq_map Iff.rfl rfl ?_
  refine Act.bind_eq_map (fillWhile_forgetting _ n { r with lastRune := none }) fun r₁ => ?_
  exact Act.ite_eq_map Iff.rfl rfl rfl

theorem scanRounds_forgetting_of_latched (delim : UInt8) (rounds : Nat) {r : Reader σ} {e : Error}
    (he : r.fault = some e) :
    r.forgetting.scanRounds delim rounds = forgettingAfter <$> r.scanRounds delim rounds := by
  unfold scanRounds
  rw [forgetting_fault, he]
  dsimp only [handOutAll]
  refine Act.ite_eq_map Iff.rfl ?_ rfl
  exact Act.bind_eq_map (settle_forgetting r.exhausted) fun _ => rfl

/-- By induction on the rounds. -/
theorem scanRounds_forgetting (delim : UInt8) (rounds : Nat) (r : Reader σ) :
    r.forgetting.scanRounds delim rounds = forgettingAfter <$> r.scanRounds delim rounds := by
  induction rounds generalizing r with
  | zero =>
    cases hfault : r.fault with
    | some e => exact scanRounds_forgetting_of_latched delim 0 hfault
    | none =>
      unfold scanRounds
      rw [forgetting_fault, hfault]
      rfl
  | succ rounds ih =>
    cases hfault : r.fault with
    | some e => exact scanRounds_forgetting_of_latched delim (rounds + 1) hfault
    | none =>
      unfold scanRounds
      rw [forgetting_fault, hfault]
      refine Act.bind_eq_map (fill_forgetting r) fun r₁ => ?_
      have hunread : r₁.forgetting.window.unread.drop r.forgetting.buffered =
          r₁.window.unread.drop r.buffered := rfl
      rw [hunread]
      cases (r₁.window.unread.drop r.buffered).idxOf? delim with
      | some i => rfl
      | none => exact Act.ite_eq_map Iff.rfl rfl (ih r₁)

theorem scanUntil_forgetting (delim : UInt8) (r : Reader σ) :
    r.forgetting.scanUntil delim = forgettingAfter <$> r.scanUntil delim := by
  unfold scanUntil
  dsimp only [forgetting]
  cases r.window.unread.idxOf? delim with
  | some i => rfl
  | none => exact scanRounds_forgetting delim _ r

/-- A slice is remembered whatever was remembered before. -/
theorem readSlice_forgetting (delim : UInt8) (r : Reader σ) :
    r.forgetting.readSlice delim = r.readSlice delim := by
  unfold readSlice
  rw [scanUntil_forgetting, bind_map_left]
  rfl

theorem readBytes_forgetting (delim : UInt8) (r : Reader σ) :
    r.forgetting.readBytes delim = r.readBytes delim := by
  refine bind_congr fun rounds => ?_
  cases rounds with
  | zero => rfl
  | succ rounds => rw [readBytesRounds, readBytesRounds, readSlice_forgetting]

theorem readString_forgetting (delim : UInt8) (r : Reader σ) :
    r.forgetting.readString delim = r.readString delim := by
  rw [readString, readString, readBytes_forgetting]

end Operations

/-! ## Where nothing can be pushed back -/

/-- What is unread stands at the start of the block, so nothing can be pushed back, whatever is
remembered. -/
structure Stranded (r : Reader σ) : Prop where
  wf : r.WF
  unread_ne : r.window.unread ≠ []
  past_nil : r.window.past = []
  rune_pos : ∀ width, r.lastRune = some width → 0 < width

namespace Stranded

variable {r r₁ : Reader σ}

theorem forgetRune (h : r.Stranded) : ({ r with lastRune := none } : Reader σ).Stranded :=
  ⟨h.wf.forgetRune, h.unread_ne, h.past_nil, nofun⟩

theorem cleared (h : r.Stranded) : r.cleared.Stranded :=
  ⟨h.wf.cleared, h.unread_ne, h.past_nil, h.rune_pos⟩

theorem latch (h : r.Stranded) (fault : Option Error) : (r.latch fault).Stranded := by
  cases fault with
  | none => exact h
  | some e => exact ⟨h.wf.latch (some e), h.unread_ne, h.past_nil, h.rune_pos⟩

/-- What is unread stays at the start of the block when more comes behind it. -/
theorem pulled [ByteSource σ] {ds : List Draw} (h : r.Stranded) (hp : r.Pulled ds r₁) :
    r₁.Stranded where
  wf := hp.wf
  unread_ne := hp.unread ▸ List.append_ne_nil_of_left_ne_nil h.unread_ne _
  past_nil := hp.past.elim (fun hno => hno.2.trans h.past_nil) id
  rune_pos := hp.lastRune ▸ h.rune_pos

theorem adapts {size : Nat} {pool : PoolId} (h : r.Stranded) (ha : r.Adapts size pool r₁) :
    r₁.Stranded where
  wf := ha.wf h.wf
  unread_ne := ha.unread_eq ▸ h.unread_ne
  past_nil := ha.keeps_or_moves.elim (fun hkept => hkept.2 ▸ h.past_nil) And.right
  rune_pos := ha.lastRune_eq ▸ h.rune_pos

end Stranded

/-- The act does the same on the reader and on the one that has forgotten what it read last, and
these are the same afterwards or still stranded. -/
def Unnoticed {α : Type} (act : Reader σ → Act (α × Reader σ)) (r : Reader σ) : Prop :=
  act r.forgetting = act r ∨
    (act r.forgetting = forgettingAfter <$> act r ∧
      ∀ sh, Act.Keeps (act r) sh fun (_, r') _ => r'.Stranded)

/-- Nothing is done but to leave a reader that is stranded. -/
theorem Unnoticed.of_pure {α : Type} {act : Reader σ → Act (α × Reader σ)} {r r₁ : Reader σ} {a : α}
    (h : r₁.Stranded) (hr : act r = pure (a, r₁))
    (hforgetting : act r.forgetting = pure (a, r₁.forgetting)) : Unnoticed act r := by
  refine .inr ⟨?_, fun sh => ?_⟩
  · rw [hr, hforgetting]
    rfl
  · rw [hr]
    exact h

/-- What comes of an act may be put in another form. -/
theorem Unnoticed.map {α β : Type} {act : Reader σ → Act (α × Reader σ)} {r : Reader σ}
    (h : Unnoticed act r) (c : α → β) :
    Unnoticed (fun r => do return (← act r).map c id) r := by
  refine h.imp (fun hsame => congrArg (· >>= fun x => pure (x.map c id)) hsame) ?_
  intro ⟨hmap, hkeeps⟩
  refine ⟨Act.bind_eq_map hmap fun _ => rfl, fun sh => ?_⟩
  exact Act.meets_bind.mpr ((hkeeps sh).imp fun _ _ h => h)

/-! ## Operations on a stranded reader -/

namespace Stranded

variable {r : Reader σ}

/-- Neither of them pushes a byte back, and both have forgotten it. -/
theorem unreadByte (h : r.Stranded) : Unnoticed Reader.unreadByte r := by
  left
  unfold Reader.unreadByte
  cases r.lastByte with
  | none => rfl
  | some b =>
    dsimp only
    rw [if_neg h.unread_ne, if_pos h.past_nil]
    rfl

variable [ByteSource σ]

/-- Neither of them pushes a rune back. -/
theorem unreadRune (h : r.Stranded) : Unnoticed (Reader.perform .unreadRune) r := by
  have hrefused : r.unreadRune = (.error .invalidUnreadRune, r) := by
    unfold Reader.unreadRune
    split
    · rename_i width hwidth
      rw [h.past_nil]
      exact if_neg (Nat.not_le.mpr (h.rune_pos width hwidth))
    · rfl
  have hperform : Reader.perform .unreadRune r =
      pure (.pushed (.error .invalidUnreadRune), r) := by
    rw [Reader.perform, hrefused]
    rfl
  exact .of_pure h hperform rfl

theorem consume (h : r.Stranded) (n : Nat) : Unnoticed (Reader.perform (.consume n)) r := by
  by_cases hnone : r.window.unread.take n = []
  · have hstays : ∀ t : Reader σ, t.window = r.window →
        Reader.perform (.consume n) t = pure (.done, t) := by
      intro t ht
      rw [Reader.perform, Reader.consume, ht]
      exact congrArg (· >>= _) (if_pos hnone)
    exact .of_pure h (hstays r rfl) (hstays r.forgetting rfl)
  · left
    refine congrArg (· >>= fun r' => pure (Outcome.done, r')) ?_
    exact (if_neg hnone).trans (if_neg hnone).symm

theorem adapt (h : r.Stranded) (size : Nat) (pool : PoolId) :
    Unnoticed (Reader.perform (.adapt size pool)) r :=
  .inr ⟨Act.bind_eq_map (adapt_forgetting size pool r) fun _ => rfl,
    fun _ => Act.meets_bind.mpr ((adapt_meets h.wf size pool).imp fun _ _ ha => h.adapts ha)⟩

/-- With room, what is delivered is remembered; without, nothing is. -/
theorem read (h : r.Stranded) (room : Room) : Unnoticed (Reader.read room) r := by
  by_cases hroom : room.size = 0
  · exact .of_pure h.cleared (if_pos hroom) (if_pos hroom)
  · have hdeliver : ∀ t : Reader σ, t.window.unread ≠ [] → t.read room = t.deliver room.size := by
      intro t ht
      unfold Reader.read deliverOrReport
      simp only [if_neg hroom, if_pos ht, decide_eq_true ht, Bool.true_or, if_true]
    left
    rw [hdeliver r h.unread_ne, hdeliver r.forgetting h.unread_ne]
    rfl

theorem plainRead (h : r.Stranded) (room : Room) : Unnoticed (Reader.plainRead room) r := by
  refine (h.read room).imp (fun hsame => congrArg (· >>= _) hsame) ?_
  intro ⟨hmap, hkeeps⟩
  refine ⟨Act.bind_eq_map hmap fun (g, r₁) => ?_, fun sh => ?_⟩
  · refine Act.ite_eq_map Iff.rfl (congrArg (fun t => pure (_, t)) (latch_forgetting g.fault r₁)) ?_
    dsimp only [Prod.map, id]
    split
    · rfl
    · rfl
    · exact Act.bind_eq_map (id_map _).symm fun _ => rfl
  · refine Act.meets_bind.mpr ((hkeeps sh).imp ?_)
    rintro ⟨g, r₁⟩ sh₁ h₁
    dsimp only
    split
    · exact h₁.latch g.fault
    · split
      · exact h₁
      · exact h₁
      · exact Act.meets_bind.mpr (failure_meets fun _ => h₁)

theorem readByte (h : r.Stranded) : Unnoticed Reader.readByte r := by
  have hstays : ∀ t : Reader σ, t.window = r.window →
      t.readByte = takeByte { t with lastRune := none } := by
    intro t ht
    unfold Reader.readByte
    rw [ensure_of_stays (.inl ?_), pure_bind]
    show 1 ≤ t.window.unread.length
    rw [ht]
    exact List.length_pos_iff.mpr h.unread_ne
  left
  rw [hstays r rfl, hstays r.forgetting rfl]
  unfold takeByte
  dsimp only [forgetting]
  split
  · rfl
  · exact absurd ‹_› h.unread_ne

theorem fillBuf (h : r.Stranded) : Unnoticed Reader.fillBuf r := by
  have hshown : ∀ t : Reader σ, t.window = r.window →
      t.fillBuf = pure (.ok r.window.unread, t) := by
    intro t ht
    unfold Reader.fillBuf showBuffer
    rw [ht, decide_eq_false h.unread_ne, if_neg (by simp), if_pos h.unread_ne]
  exact .of_pure h (hshown r rfl) (hshown r.forgetting rfl)

variable [HonestSource (· = Halt.exhausted) σ]

theorem peek (h : r.Stranded) (n : Nat) : Unnoticed (Reader.peek n) r := by
  refine .inr ⟨peek_forgetting n r, fun sh => (peek_meets h.wf n).imp ?_⟩
  rintro ⟨p, r'⟩ sh' ⟨ds, hp⟩
  cases hp with
  | tooLarge => exact h.forgetRune
  | seen hp => exact h.forgetRune.pulled hp
  | short hp => exact (h.forgetRune.pulled hp).cleared

/-- A rune is read and remembered. -/
theorem readRune (h : r.Stranded) : Unnoticed Reader.readRune r := by
  left
  unfold Reader.readRune ensureRune
  rw [fillWhile_forgetting, bind_map_left]
  refine Act.bind_congr_of_meets (H := (· = Halt.exhausted)) fun sh => ?_
  refine (ensureRune_meets h.wf).imp ?_
  rintro r₁ sh₁ ⟨ds, hp, -⟩
  have hne := (h.pulled hp).unread_ne
  exact (if_neg hne).trans (if_neg hne).symm

omit [HonestSource (· = Halt.exhausted) σ] in
/-- A scan brings a byte where one is unread. -/
theorem scanned_ne {delim : UInt8} {ds : List Draw} {p : Passage} {r₁ : Reader σ}
    (h : r.Stranded) (hs : r.Scans delim ds p r₁) : p.bytes ≠ [] := by
  have hrecord := hs.bytes_ne_nil
  cases hs with
  | found => exact hrecord rfl
  | full hp => exact (h.pulled hp).unread_ne
  | ended hp => exact (h.pulled hp).unread_ne

/-- A line is read and remembered. -/
theorem readLine (h : r.Stranded) : Unnoticed Reader.readLine r := by
  left
  unfold Reader.readLine
  rw [scanUntil_forgetting, bind_map_left]
  refine Act.bind_congr_of_meets (H := (· = Halt.exhausted)) fun sh => ?_
  refine (scanUntil_meets h.wf newline).imp ?_
  rintro ⟨p, r₁⟩ sh₁ ⟨ds, hs⟩
  have hne := h.scanned_ne hs
  dsimp only [Prod.map, id]
  split
  · unfold holdBackReturn
    split <;> rfl
  · exact (if_neg hne).trans (if_neg hne).symm

/-- **No operation tells** a stranded reader from the one that has forgotten. -/
theorem perform (h : r.Stranded) (op : Op) : Unnoticed (Reader.perform op) r := by
  cases op with
  | peek n => exact (h.peek n).map Outcome.passage
  | read room => exact (h.read room).map Outcome.reading
  | readByte => exact h.readByte.map Outcome.byte
  | unreadByte => exact h.unreadByte.map Outcome.pushed
  | readRune => exact h.readRune.map Outcome.rune
  | unreadRune => exact h.unreadRune
  | readSlice delim => exact .map (.inl (readSlice_forgetting delim r)) Outcome.passage
  | readLine => exact h.readLine.map Outcome.line
  | readBytes delim => exact .map (.inl (readBytes_forgetting delim r)) Outcome.passage
  | readString delim => exact .map (.inl (readString_forgetting delim r)) Outcome.text
  | plainRead room => exact (h.plainRead room).map Outcome.grant
  | fillBuf => exact h.fillBuf.map Outcome.shown
  | consume n => exact h.consume n
  | adapt size pool => exact h.adapt size pool

end Stranded

theorem Stranded.execute [BulkSource σ] [HonestSource (· = Halt.exhausted) σ] [ByteSink κ]
    {r : Reader σ} (h : r.Stranded) (task : Task κ) : Unnoticed (Reader.execute task) r := by
  cases task with
  | op op => exact (h.perform op).map Result.outcome
  -- emptying starts by forgetting what was read last
  | writeTo k => exact .inl rfl

/-! ## What follows pushing back in vain -/

/-- What shows of an entry of a run: everything but what the reader remembers. -/
def withoutMemory {ω ο : Type} (entry : Entry ω ο (Reader σ)) : Entry ω ο (Reader σ) :=
  { entry with state := entry.state.forgetting }

/-- By induction on the tasks: they show the same as long as the reader is stranded, and once it
is not, both are the same. -/
theorem Stranded.performAll [BulkSource σ] [HonestSource (· = Halt.exhausted) σ] [ByteSink κ]
    {r : Reader σ} (h : r.Stranded) (tasks : List (Task κ)) :
    List.map withoutMemory <$> Act.performAll Reader.execute tasks r.forgetting =
      List.map withoutMemory <$> Act.performAll Reader.execute tasks r := by
  induction tasks generalizing r with
  | nil => rfl
  | cons task tasks ih =>
    rw [Act.performAll, Act.performAll]
    rcases h.execute task with hsame | ⟨hmap, hkeeps⟩
    · rw [hsame]
    · rw [hmap, bind_map_left, map_bind, map_bind]
      refine Act.bind_congr_of_meets (H := (· = Halt.exhausted)) fun sh => ?_
      refine (hkeeps sh).imp ?_
      rintro ⟨result, r₁⟩ sh₁ h₁
      have hentry : withoutMemory ⟨task, result, r₁.forgetting⟩ =
          withoutMemory ⟨task, result, r₁⟩ := rfl
      have hrest := congrArg (List.cons (withoutMemory ⟨task, result, r₁⟩) <$> ·) (ih h₁)
      simpa [hentry] using hrest

/-- A rune is remembered only together with a byte. -/
def Paired (r : Reader σ) : Prop := r.lastByte = none → r.lastRune = none

namespace Paired

variable {r r₁ : Reader σ}

theorem of_none (hrune : r.lastRune = none) : r.Paired := fun _ => hrune

theorem congr (h : r.Paired) (hbyte : r₁.lastByte = r.lastByte) (hrune : r₁.lastRune = r.lastRune) :
    r₁.Paired := fun hnone => hrune.trans (h (hbyte.symm.trans hnone))

theorem settles (h : r.Paired) (hs : r.Settles r₁) : r₁.cleared.Paired :=
  h.congr hs.lastByte_eq hs.lastRune_eq

theorem latch (h : r.Paired) (fault : Option Error) : (r.latch fault).Paired := by
  rw [latch_eq]
  exact h

/-- The reader that has forgotten the byte has forgotten both. -/
theorem forgetting_eq (h : r.Paired) (hnone : r.lastByte = none) : r.forgetting = r := by
  rw [forgetting, ← h hnone, ← hnone]

variable [ByteSource σ] {ds : List Draw}

theorem extended (h : r.Paired) (he : r.Extended ds r₁) : r₁.Paired :=
  h.congr he.lastByte he.lastRune

theorem readsInto {room : Room} {g : Reading} (h : r.Paired) (hr : r.ReadsInto room ds g r₁) :
    r₁.Paired := by
  cases hr with
  | nothing => exact h
  | through =>
    split
    · exact h
    · exact .of_none rfl
  | delivered _ _ _ _ hs => exact .of_none hs.lastRune_eq
  | dry _ hp _ _ hs => exact (h.extended hp.toExtended).settles hs

/-- With a rune its last byte is remembered. -/
theorem readsRune {c : Except Error (Char × Nat)} (hr : r.ReadsRune ds c r₁) : r₁.Paired := by
  cases hr with
  | @got r₁ hp _ hne =>
    intro hnone
    obtain ⟨hpos, -⟩ := Rune.width_decode hne
    have hlast : ((r₁.window.unread.take (Rune.decode r₁.window.unread).2).reverse ++
        r₁.window.past).head? = none := hnone
    rw [List.head?_eq_none_iff, List.append_eq_nil_iff, List.reverse_eq_nil_iff,
      List.take_eq_nil_iff] at hlast
    exact absurd hlast.1 (not_or.mpr ⟨Nat.ne_of_gt hpos, hne⟩)
  | failed _ _ _ _ hs => exact .of_none hs.lastRune_eq

theorem performs {op : Op} {outcome : Outcome} (h : r.Paired) (hp : r.Performs op ds outcome r₁) :
    r₁.Paired := by
  have hforgets := hp.lastRune_of_forgets
  cases hp with
  | read hr => exact h.readsInto hr
  | readRune hc => exact readsRune hc
  | unreadRune hu =>
    cases hu with
    | moved => exact .of_none rfl
    | refused => exact h
  | plainRead hg =>
    cases hg with
    | delivered hr => exact (h.readsInto hr).latch _
    | ended hr => exact h.readsInto hr
    | failed _ hr => exact h.readsInto hr
  | fillBuf hb =>
    cases hb with
    | shown hp => exact h.extended hp.toExtended
    | ended hp _ _ _ hs => exact (h.extended hp.toExtended).settles hs
    | failed _ hp _ _ _ _ hs => exact (h.extended hp.toExtended).settles hs
  | consume hc =>
    cases hc with
    | nothing => exact h
    | taken _ hs => exact .of_none hs.lastRune_eq
  | adapt ha => exact h.congr ha.lastByte_eq ha.lastRune_eq
  | _ => exact .of_none (hforgets trivial)

end Paired

/-- By induction on what was done with the reader. -/
theorem Reachable.paired [BulkSource σ] [HonestSource (· = Halt.exhausted) σ] [History σ]
    [BulkHistory (· = Halt.exhausted) σ] {r : Reader σ} (h : r.Reachable) : r.Paired := by
  induction h with
  | start => exact fun _ => rfl
  | step h hrun ih =>
    have hexecutes := (execute_meets (H := (· = Halt.exhausted)) rfl _ h.wf).of_ok hrun
    cases hexecutes with
    | op hp => exact ih.performs hp
    | writeTo hw => exact .of_none hw.lastRune_eq

/-- A byte is pushed back in vain where none is remembered, or where what is unread stands at the
start of the block; nothing is done but to forget what was remembered. -/
theorem unreadByte_in_vain (r : Reader σ) (sh : Shared) :
    Act.Returns r.unreadByte sh fun (u, r') sh' => ∀ e, u = .error e →
      sh' = sh ∧ r' = r.forgetting ∧
        (r.lastByte = none ∨ (r.window.unread ≠ [] ∧ r.window.past = [])) := by
  unfold unreadByte
  dsimp only
  split
  · rename_i hnone
    exact fun _ _ => ⟨rfl, rfl, .inl hnone⟩
  · split
    · exact Act.meets_bind.mpr ((acquire_meets _).imp fun _ _ _ => nofun)
    · rename_i hne
      split
      · rename_i hpast
        exact fun _ _ => ⟨rfl, rfl, .inr ⟨hne, hpast⟩⟩
      · exact nofun

/-- A rune is pushed back in vain without a trace. -/
theorem UnreadsRune.eq_of_vain {r r' : Reader σ} {e : Error} (hu : r.UnreadsRune (.error e) r') :
    r' = r := by
  cases hu
  rfl

/-- Pushing back in vain makes no difference to what is shared, and none to the reader but that
it may have forgotten what it read last, and then it is stranded. -/
theorem Reachable.pushback_in_vain [BulkSource σ] [HonestSource (· = Halt.exhausted) σ] [History σ]
    [BulkHistory (· = Halt.exhausted) σ] {r r' : Reader σ} (h : r.Reachable) {push : Op}
    (hpush : push = .unreadByte ∨ push = .unreadRune) {e : Error} {sh sh' : Shared}
    (hfailed : perform push r sh = .ok (.pushed (.error e), r') sh') :
    sh' = sh ∧ (r' = r ∨ (r' = r.forgetting ∧ r.Stranded)) := by
  rcases hpush with rfl | rfl
  · have hmeets : Act.Returns (perform .unreadByte r) sh fun x sh' =>
        ∀ e, x.1 = .pushed (.error e) → sh' = sh ∧ x.2 = r.forgetting ∧
          (r.lastByte = none ∨ (r.window.unread ≠ [] ∧ r.window.past = [])) := by
      refine Act.meets_bind.mpr ((unreadByte_in_vain r sh).imp ?_)
      rintro ⟨u, r'⟩ sh' hvain e ⟨⟩
      exact hvain e rfl
    obtain ⟨hshared, rfl, hnone | ⟨hne, hpast⟩⟩ := hmeets.of_ok hfailed e rfl
    · exact ⟨hshared, .inl (h.paired.forgetting_eq hnone)⟩
    · exact ⟨hshared, .inr ⟨rfl, h.wf, hne, hpast, fun width hwidth => (h.recalls width hwidth).1⟩⟩
  · have hmeets : Act.Returns (perform .unreadRune r) sh fun x sh' =>
        ∀ e, x.1 = .pushed (.error e) → sh' = sh ∧ x.2 = r := by
      intro e he
      have hu := r.unreadRune_does
      rw [show r.unreadRune.1 = .error e from Outcome.pushed.inj he] at hu
      exact ⟨rfl, hu.eq_of_vain⟩
    obtain ⟨hshared, rfl⟩ := hmeets.of_ok hfailed e rfl
    exact ⟨hshared, .inl rfl⟩

/-- **Pushing back in vain goes unnoticed.**  In every state that a reader over an honest source
may be in: where no byte, or no rune, can be pushed back, whatever is done next, be it to push
back again, shows the same as if that had not been tried.  The same comes of every task, the
same errors included; the reader is the same after it, but for what it remembers, and so is its
source, which tells the calls made on it; and what is shared is the same, with all that was noted
of calls. -/
theorem failed_pushback_unnoticed [BulkSource σ] [HonestSource (· = Halt.exhausted) σ] [History σ]
    [BulkHistory (· = Halt.exhausted) σ] [ByteSink κ] {r r' : Reader σ} (hr : r.Reachable)
    {push : Op} (hpush : push = .unreadByte ∨ push = .unreadRune) {e : Error} {sh sh' : Shared}
    (hfailed : perform push r sh = .ok (.pushed (.error e), r') sh') (tasks : List (Task κ)) :
    sh' = sh ∧ List.map withoutMemory <$> Act.performAll execute tasks r' =
      List.map withoutMemory <$> Act.performAll execute tasks r := by
  obtain ⟨hshared, rfl | ⟨rfl, hstranded⟩⟩ := hr.pushback_in_vain hpush hfailed
  · exact ⟨hshared, rfl⟩
  · exact ⟨hshared, hstranded.performAll tasks⟩

/-- Two letters that come one at a time. -/
def lettersApart : Script.Truthful where
  source := { items := [.piece [0x61] none, .piece [0x62] none] }

/-- The first letter has been read. -/
def pastLetter : Reader (Traced Script.Truthful) :=
  match (withCapacity (Traced.start lettersApart) 16 0).readByte { pools := [] } with
  | .ok (_, r) _ => r
  | .error _ _ => withCapacity (Traced.start lettersApart) 16 0

/-- The second letter has been looked at, and stands at the start of the block. -/
def beforeLetter : Reader (Traced Script.Truthful) :=
  match pastLetter.peek 1 { pools := [] } with
  | .ok (_, r) _ => r
  | .error _ _ => pastLetter

/-- The first letter cannot be pushed back any more, and is forgotten. -/
theorem failed_pushback_unnoticed_beforeLetter :
    ∃ r', beforeLetter.Reachable ∧
      perform .unreadByte beforeLetter { pools := [] } =
        .ok (.pushed (.error .invalidUnreadByte), r') { pools := [] } ∧
      beforeLetter.lastByte = some 0x61 ∧ r'.lastByte = none ∧
      ∀ tasks : List (Task MemorySink), List.map withoutMemory <$> Act.performAll execute tasks r' =
        List.map withoutMemory <$> Act.performAll execute tasks beforeLetter := by
  have : HonestSource (· = Halt.exhausted) Script.Truthful := .of_returns
  have hread : execute (.op .readByte : Task MemorySink)
      (withCapacity (Traced.start lettersApart) 16 0) { pools := [] } =
        .ok (.outcome (.byte (.ok 0x61)), pastLetter) { pools := [] } := rfl
  have hpeeked : execute (.op (.peek 1) : Task MemorySink) pastLetter { pools := [] } =
      .ok (.outcome (.passage ⟨[0x62], none⟩), beforeLetter) { pools := [] } := rfl
  have hreached : beforeLetter.Reachable := .step (.step (.start _ 16 0) hread) hpeeked
  have hvain : perform .unreadByte beforeLetter { pools := [] } =
      .ok (.pushed (.error .invalidUnreadByte), beforeLetter.forgetting) { pools := [] } := rfl
  exact ⟨_, hreached, hvain, rfl, rfl,
    fun tasks => (failed_pushback_unnoticed hreached (.inl rfl) hvain tasks).2⟩

end Reader

end BufferedStream
