import BufferedStream.Proofs.Reader.Readings
import BufferedStream.Proofs.Rune

/-!
# Reading runes again and again

A reader over a source that hands out the encodings of some characters, in whatever
chunks, reads them as these characters; and each of them may be pushed back and read
again, as often as one likes (`Reader.rereads_meet`).

* `PausingSource.Brief` — the source never pauses so often that a reader gives up.
* `Reader.Ahead.pulled_brief` — then filling the buffer raises nothing but the end.
* `Reader.readRune_ahead`, `Reader.unreadRune_after` — reading one rune, and pushing it
  back.
-/

namespace BufferedStream

open PausingSource (remaining pauses)

variable {τ : Type} [ByteSource τ] [PausingSource τ]

/-! ## Sources that pause briefly -/

/-- Wherever calls lead it, the source does not pause so often in a row that a reader
gives up. -/
def PausingSource.Brief (s : τ) : Prop :=
  ∀ ds s', Calls s ds s' → pauses s' < maxEmptyReads

open PausingSource (Brief)

theorem PausingSource.Brief.calls {s s' : τ} {ds : List Draw} (h : Brief s) (hc : Calls s ds s') :
    Brief s' :=
  fun _ t ht => h _ t (hc.append ht)

namespace Reader

/-- By induction on the calls, which begin after `idle` idle ones: what arises is the
end, once the bytes are gone.  The idle calls so far and the pauses to come stay below
the limit together. -/
theorem arisen_of_brief {s s' : τ} {ds : List Draw} (h : Calls s ds s') (hbrief : Brief s)
    (hroom : ∀ d ∈ ds, 0 < d.offered) {idle : Nat} (hidle : idle + pauses s < maxEmptyReads) :
    remaining s = drawn ds ++ remaining s' ∧
      ∀ e ∈ arisenAfter idle ds, e = .eof ∧ remaining s' = [] := by
  induction h generalizing idle with
  | nil => exact ⟨rfl, by simp⟩
  | @cons s s₁ s₂ n g ds hreads hcalls ih =>
    obtain ⟨hn, hrooms⟩ := List.forall_mem_cons.mp hroom
    have hbrief₁ : Brief s₁ := hbrief.calls (.single hreads)
    have hfresh : 0 + pauses s₁ < maxEmptyReads := by
      rw [Nat.zero_add]
      exact hbrief₁ [] s₁ (.nil s₁)
    have hcount := (HonestSource.of_reads (H := fun _ => False) hreads).1
    have hremaining := PausingSource.remaining_of_reads hreads
    have hsplit : ∀ {b : Bytes}, remaining s₁ = drawn ds ++ b →
        remaining s = drawn (⟨n, g⟩ :: ds) ++ b := fun hb => by
      rw [hremaining, hb, drawn_cons, List.append_assoc]
    rcases progress_of_reads hreads hn with ⟨hnone, hmore⟩ | ⟨heof, hend⟩
    · by_cases hpos : 0 < g.count
      · obtain ⟨hrest, hlater⟩ := ih hbrief₁ hrooms hfresh
        rw [arisenAfter_brought idle ds (.inr (.inl hpos)),
          show (⟨n, g⟩ : Draw).reading.fault = none from hnone]
        exact ⟨hsplit hrest, hlater⟩
      · -- an idle call: the source has one pause less to come
        have hdraw := eq_idle (n := n) hcount hpos (by rw [hnone]; simp)
        have hdata : g.data = [] := List.eq_nil_of_length_eq_zero (by omega)
        have hpauses := hmore.resolve_left fun hne => hne hdata
        have hlonger : idle + 1 + pauses s₁ < maxEmptyReads := by omega
        obtain ⟨hrest, hlater⟩ := ih hbrief₁ hrooms hlonger
        refine ⟨hsplit hrest, ?_⟩
        rw [hdraw, arisenAfter_idle idle ds hn, if_neg (by omega)]
        exact hlater
    · obtain ⟨hrest, hlater⟩ := ih hbrief₁ hrooms hfresh
      refine ⟨hsplit hrest, ?_⟩
      rw [hend] at hrest
      have hgone : remaining s₂ = [] := (List.append_eq_nil_iff.mp hrest.symm).2
      rw [arisenAfter_brought idle ds (.inl (by rw [heof]; rfl)),
        show (⟨n, g⟩ : Draw).reading.fault = some .eof from heof]
      exact List.forall_mem_cons.mpr ⟨⟨rfl, hgone⟩, hlater⟩

variable {r r₁ : Reader τ} {b : Bytes} {sh : Shared}

/-- What is still to come stays so however often the buffer is filled. -/
theorem Ahead.pulled_brief {ds : List Draw} (h : r.Ahead b) (hbrief : Brief r.source)
    (hp : r.Pulled ds r₁) (hroom : ds ≠ [] → r.buffered < r.size) :
    r₁.Ahead b ∧ Brief r₁.source := by
  have hstart : 0 + pauses r.source < maxEmptyReads := by
    rw [Nat.zero_add]
    exact hbrief [] r.source (.nil r.source)
  obtain ⟨hremaining, harisen⟩ := arisen_of_brief hp.calls hbrief (hp.roomy hroom) hstart
  refine ⟨⟨hp.wf, ?_, ?_⟩, hbrief.calls hp.calls⟩
  · rw [h.coming, hp.unread, hremaining, List.append_assoc]
  · by_cases hds : ds = []
    · subst hds
      rw [hp.fault_eq, hp.calls.nil_eq]
      exact h.latched
    · have hlatched := hp.arisen_eq hds
      cases hfault : r₁.fault with
      | none => exact .inl rfl
      | some e =>
        rw [hfault] at hlatched
        have hmem : e ∈ arisenAfter 0 ds := by
          show e ∈ arisen ds
          rw [← hlatched]
          exact List.mem_singleton_self e
        obtain ⟨rfl, hend⟩ := harisen e hmem
        exact .inr ⟨rfl, hend⟩

/-! ## One rune -/

/-- The rune `c` was read just now, and the bytes `b` are still to come. -/
structure HasRead (r : Reader τ) (c : Char) (b : Bytes) : Prop where
  ahead : r.Ahead b
  brief : Brief r.source
  lastRune : r.lastRune = some (Rune.encode c).length
  past : (r.window.past.take (Rune.encode c).length).reverse = Rune.encode c

/-- A reader that has filled its buffer for a rune has the whole rune in it. -/
theorem Ahead.length_encode_le {c : Char} (h : r.Ahead (Rune.encode c ++ b))
    (hends : Rune.maxWidth ≤ r.window.unread.length ∨ Rune.isSettled r.window.unread = true ∨
      r.fault.isSome = true) : (Rune.encode c).length ≤ r.window.unread.length := by
  have hcoming := h.coming.symm
  rcases hends with hfull | hsettled | hsome
  · exact Nat.le_trans (Rune.length_encode_le c) hfull
  · exact Rune.le_length_of_isSettled hcoming hsettled
  · -- at the end of the stream everything is unread
    have hend : remaining r.source = [] := by
      rcases h.latched with hnone | ⟨-, hend⟩
      · rw [hnone] at hsome
        cases hsome
      · exact hend
    rw [hend, List.append_nil] at hcoming
    rw [hcoming, List.length_append]
    exact Nat.le_add_right ..

/-- The front of what is to come is unread, and what follows it is to come behind it. -/
theorem Ahead.take_drop {front : Bytes} (h : r.Ahead (front ++ b))
    (hle : front.length ≤ r.window.unread.length) :
    r.window.unread.take front.length = front ∧
      b = r.window.unread.drop front.length ++ remaining r.source := by
  refine ⟨?_, ?_⟩
  · have htake := congrArg (List.take front.length) h.coming
    rw [List.take_left, List.take_append_of_le_length hle] at htake
    exact htake.symm
  · have hdrop := congrArg (List.drop front.length) h.coming
    rwa [List.drop_left, List.drop_append_of_le_length hle] at hdrop

/-- **Reading a rune** whose encoding is to come next. -/
theorem readRune_ahead {c : Char} (h : r.Ahead (Rune.encode c ++ b)) (hbrief : Brief r.source) :
    Act.Returns r.readRune sh fun (x, r') _ =>
      x = .ok (c, c.utf8Size) ∧ r'.HasRead c b := by
  refine (readRune_meets h.wf).imp ?_
  rintro ⟨x, r'⟩ sh' ⟨ds, hr⟩
  cases hr with
  | @got r₁ hp hroom hne hends =>
    obtain ⟨h₁, hbrief₁⟩ := h.pulled_brief hbrief hp hroom
    have hle := h₁.length_encode_le hends
    obtain ⟨htake, hrest⟩ := h₁.take_drop hle
    rw [Rune.decode_of_append h₁.coming.symm hle]
    refine ⟨by rw [Rune.encode, String.length_utf8EncodeChar], ⟨?_, hrest, h₁.latched⟩, hbrief₁,
      rfl, ?_⟩
    · exact h₁.wf.advance _ _ _
    · show (((r₁.window.unread.take (Rune.encode c).length).reverse ++ r₁.window.past).take
        (Rune.encode c).length).reverse = _
      rw [htake, List.take_left' List.length_reverse, List.reverse_reverse]
  | @failed r₁ _ e hp hroom hunread hfault hs =>
    -- an error with nothing unread is the end, but the encoding is still to come
    exfalso
    obtain ⟨h₁, -⟩ := h.pulled_brief hbrief hp hroom
    have hcoming := h₁.coming
    rcases h₁.latched with hnone | ⟨-, hend⟩
    · rw [hfault] at hnone
      cases hnone
    · rw [hunread, hend, List.append_nil, List.append_eq_nil_iff] at hcoming
      exact Rune.encode_ne_nil c hcoming.1

/-- **Pushing a rune back** that was read just now. -/
theorem unreadRune_after {c : Char} (h : r.HasRead c b) :
    r.unreadRune.1 = .ok () ∧ r.unreadRune.2.Ahead (Rune.encode c ++ b) ∧
      Brief r.unreadRune.2.source := by
  have hlength : (Rune.encode c).length ≤ r.window.past.length := by
    have := congrArg List.length h.past
    rw [List.length_reverse, List.length_take] at this
    omega
  have hu := r.unreadRune_does
  generalize r.unreadRune = x at hu
  obtain ⟨u, r'⟩ := x
  cases hu with
  | refused hshort => exact absurd (hshort _ h.lastRune) (Nat.not_lt.mpr hlength)
  | @moved width hwidth hle =>
    obtain rfl : width = (Rune.encode c).length := Option.some.inj (hwidth.symm.trans h.lastRune)
    refine ⟨rfl, ⟨h.ahead.wf.retreating _, ?_, h.ahead.latched⟩, h.brief⟩
    show _ = (r.window.past.take (Rune.encode c).length).reverse ++ r.window.unread ++ _
    rw [h.past, List.append_assoc, ← h.ahead.coming]

/-- At the end there is no rune to read. -/
theorem readRune_at_end (h : r.Ahead []) (hbrief : Brief r.source) :
    Act.Returns r.readRune sh fun (x, _) _ => x = .error .eof := by
  refine (readRune_meets h.wf).imp ?_
  rintro ⟨x, r'⟩ sh' ⟨ds, hr⟩
  cases hr with
  | @got r₁ hp hroom hne =>
    have hcoming := (h.pulled_brief hbrief hp hroom).1.coming
    exact absurd (List.append_eq_nil_iff.mp hcoming.symm).1 hne
  | @failed r₁ _ e hp hroom hunread hfault hs =>
    rcases (h.pulled_brief hbrief hp hroom).1.latched with hnone | ⟨heof, -⟩
    · rw [hfault] at hnone
      cases hnone
    · exact congrArg Except.error (Option.some.inj (hfault.symm.trans heof))

/-! ## Runes in a row -/

/-- Operations with the outcomes that are expected of them. -/
abbrev Dialogue : Type := List (Op × Outcome)

/-- A character is read. -/
def Dialogue.hears (c : Char) : Op × Outcome := (.readRune, .rune (.ok (c, c.utf8Size)))

/-- A character that was read is pushed back and read again, so many times. -/
def Dialogue.again (c : Char) (times : Nat) : Dialogue :=
  (List.replicate times [(.unreadRune, .pushed (.ok ())), hears c]).flatten

/-- Characters are read, each again so many times, and then the end. -/
def Dialogue.rereads : (times : Nat → Nat) → List Char → Dialogue
  | _, [] => [(.readRune, .rune (.error .eof))]
  | times, c :: cs =>
    hears c :: (again c (times 0) ++ rereads (fun i => times (i + 1)) cs)

/-- Performed in order, the operations bring the outcomes that are expected of them. -/
def Keeps (d : Dialogue) (r : Reader τ) (sh : Shared) : Prop :=
  Act.Returns (Act.performAll perform (d.map Prod.fst) r) sh fun entries _ =>
    entries.map (fun entry => (entry.op, entry.outcome)) = d

omit [PausingSource τ] in
/-- The first operation brings what is expected, and the others after it. -/
theorem Keeps.cons {op : Op} {outcome : Outcome} {d : Dialogue} {P : Reader τ → Prop}
    (hfirst : Act.Returns (perform op r) sh fun (o, r') _ => o = outcome ∧ P r')
    (hrest : ∀ r' sh', P r' → Keeps d r' sh') : Keeps ((op, outcome) :: d) r sh := by
  unfold Keeps
  rw [List.map_cons, Act.performAll]
  refine Act.meets_bind.mpr (hfirst.imp ?_)
  rintro ⟨o, r'⟩ sh' ⟨rfl, hr'⟩
  refine Act.meets_bind.mpr ((hrest r' sh' hr').imp ?_)
  intro entries sh'' hentries
  exact congrArg ((op, o) :: ·) hentries

theorem keeps_hears {c : Char} {d : Dialogue} (h : r.Ahead (Rune.encode c ++ b))
    (hbrief : Brief r.source) (hrest : ∀ (r' : Reader τ) sh', r'.HasRead c b → Keeps d r' sh') :
    Keeps (Dialogue.hears c :: d) r sh := by
  refine Keeps.cons (P := fun r' => r'.HasRead c b) ?_ hrest
  refine Act.meets_bind.mpr ((readRune_ahead h hbrief).imp ?_)
  rintro ⟨x, r'⟩ sh' ⟨rfl, hr'⟩
  exact ⟨rfl, hr'⟩

/-- By induction on the times: after each of them the rune was read just now. -/
theorem keeps_again {c : Char} {d : Dialogue} (times : Nat) (h : r.HasRead c b)
    (hrest : ∀ (r' : Reader τ) sh', r'.HasRead c b → Keeps d r' sh') :
    Keeps (Dialogue.again c times ++ d) r sh := by
  induction times generalizing r sh with
  | zero => exact hrest r sh h
  | succ times ih =>
    obtain ⟨hok, hahead, hbrief⟩ := unreadRune_after h
    have hdialogue : Dialogue.again c (times + 1) ++ d = (.unreadRune, .pushed (.ok ())) ::
        Dialogue.hears c :: (Dialogue.again c times ++ d) := by
      simp [Dialogue.again, List.replicate_succ]
    rw [hdialogue]
    refine Keeps.cons (P := fun r' => r' = r.unreadRune.2) ?_ ?_
    · exact ⟨congrArg Outcome.pushed hok, rfl⟩
    · rintro _ sh' rfl
      exact keeps_hears hahead hbrief fun r' sh'' hr' => ih hr'

/-- **The characters come back, each as often as one likes.**  By induction on the
characters whose encodings are to come. -/
theorem keeps_rereads (chars : List Char) (times : Nat → Nat)
    (h : r.Ahead (chars.flatMap Rune.encode)) (hbrief : Brief r.source) :
    Keeps (Dialogue.rereads times chars) r sh := by
  induction chars generalizing r sh times with
  | nil =>
    refine Keeps.cons (P := fun _ => True) ?_ fun r' sh' _ => rfl
    refine Act.meets_bind.mpr ((readRune_at_end h hbrief).imp ?_)
    rintro ⟨x, r'⟩ sh' rfl
    exact ⟨rfl, trivial⟩
  | cons c cs ih =>
    rw [List.flatMap_cons] at h
    refine keeps_hears h hbrief fun r₁ sh₁ h₁ => ?_
    exact keeps_again (times 0) h₁ fun r₂ sh₂ h₂ => ih _ h₂.ahead h₂.brief

end Reader

end BufferedStream
