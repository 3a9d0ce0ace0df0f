import BufferedStream.Proofs.Reader.Outlook

/-!
# Moving to a larger buffer, seen from outside

A reader that is moved to a larger buffer has the same bytes and errors before it, but what
lies behind its unread bytes stays behind.  So the rune read last is out of reach, and so is
the byte read last, unless nothing is unread (`Reader.LosesByte`, `Reader.LosesRune`).

* `Outlook.Akin` — outlooks that differ in what can be pushed back at most, and
  `Outlook.Akin.step` — what an operation makes of the difference.
* `Reader.Apace` — two readers go through the same operations until they part, and
  `Reader.apace_of_akin` — readers do whose outlooks are akin.
* `Reader.adapt_apace` — a reader that was moved and one that was not.
-/

namespace BufferedStream

/-- Of two things that may be missing just one is missing if `lost`, and otherwise they are
the same. -/
def Matched {α : Type} (lost : Prop) (x y : Option α) : Prop :=
  (¬ lost ∧ x = y) ∨ (lost ∧ ¬ (x = none ↔ y = none))

namespace Matched

variable {α : Type} {lost : Prop} {x y : Option α}

theorem of_eq (hlost : ¬ lost) (h : x = y) : Matched lost x y := .inl ⟨hlost, h⟩

theorem of_none_left (hlost : lost) (hx : x = none) (hy : y ≠ none) : Matched lost x y :=
  .inr ⟨hlost, fun hiff => hy (hiff.mp hx)⟩

theorem of_none_right (hlost : lost) (hx : x ≠ none) (hy : y = none) : Matched lost x y :=
  .inr ⟨hlost, fun hiff => hx (hiff.mpr hy)⟩

theorem none_iff (h : Matched lost x y) : (x = none ↔ y = none) ↔ ¬ lost := by
  obtain ⟨hlost, rfl⟩ | ⟨hlost, hone⟩ := h
  · exact iff_of_true Iff.rfl hlost
  · exact iff_of_false hone (not_not_intro hlost)

/-- Both are the same, or just one of them is missing. -/
theorem cases (h : Matched lost x y) :
    (¬ lost ∧ x = y) ∨ (lost ∧ (∃ a, x = some a) ∧ y = none) ∨
      (lost ∧ x = none ∧ ∃ a, y = some a) := by
  refine h.imp_right ?_
  intro ⟨hlost, hone⟩
  cases x with
  | some a =>
    refine .inl ⟨hlost, ⟨a, rfl⟩, ?_⟩
    cases y with
    | none => rfl
    | some b => exact absurd (iff_of_false nofun nofun) hone
  | none =>
    refine .inr ⟨hlost, rfl, ?_⟩
    cases y with
    | none => exact absurd Iff.rfl hone
    | some b => exact ⟨b, rfl⟩

theorem congr {lost' : Prop} (h : Matched lost x y) (hiff : lost' ↔ lost) : Matched lost' x y := by
  rwa [Matched, hiff]

/-- Where neither has anything, nothing is missing. -/
theorem none_none : Matched False (none : Option α) none := .of_eq id rfl

end Matched

namespace Reader

/-- Nothing was read or pushed back. -/
def Outcome.Fails : Outcome → Prop
  | .byte (.error _) | .rune (.error _) | .pushed (.error _) => True
  | _ => False

/-- The operation is to push back what just one of two readers has to push back. -/
def StreamOp.Parts (byteLost runeLost : Prop) : StreamOp → Prop
  | .unreadByte => byteLost
  | .unreadRune => runeLost
  | _ => False

/-- After the operation, of which this came on both readers, just one of them has a byte to
push back.  `uneven` tells whether a record ended with an empty piece on just one of them. -/
def StreamOp.LosesByte (byteLost uneven : Prop) (outcome : Outcome) : StreamOp → Prop
  | .readByte | .readRune | .unreadRune => byteLost ∧ outcome.Fails
  | .unreadByte => False
  | .readBytes _ => uneven

end Reader

/-! ## Outlooks that are akin -/

namespace Outlook

open Reader (Outcome StreamOp)

/-- The same is ahead; just one byte can be pushed back if `byteLost`, and just one rune if
`runeLost`, and otherwise the same ones can. -/
structure Akin (byteLost runeLost : Prop) (o o' : Outlook) : Prop where
  stretch_eq : o'.stretch = o.stretch
  stop_eq : o'.stop = o.stop
  later_eq : o'.later = o.later
  byte : Matched byteLost o.byte o'.byte
  rune : Matched runeLost o.rune o'.rune

variable {o o' : Outlook} {byteLost runeLost uneven : Prop} {byte byte' : Option UInt8}
  {rune rune' : Option Bytes}

namespace Akin

/-- What can be pushed back becomes something else on both. -/
theorem back (h : Akin byteLost runeLost o o') {byteLost' runeLost' : Prop}
    (hbyte : Matched byteLost' byte byte') (hrune : Matched runeLost' rune rune') :
    Akin byteLost' runeLost' { o with byte, rune } { o' with byte := byte', rune := rune' } :=
  { h with byte := hbyte, rune := hrune }

/-- Another stretch is ahead of both. -/
theorem ahead (h : Akin byteLost runeLost o o') (stretch : Bytes) :
    Akin byteLost runeLost { o with stretch } { o' with stretch } :=
  { h with stretch_eq := rfl }

theorem next (h : Akin byteLost runeLost o o') : Akin byteLost runeLost o.next o'.next where
  stretch_eq := congrArg (fun later => (later 0).1) h.later_eq
  stop_eq := congrArg (fun later => (later 0).2) h.later_eq
  later_eq := congrArg (fun later i => later (i + 1)) h.later_eq
  byte := h.byte
  rune := h.rune

/-- The record is the same on both. -/
theorem record (h : Akin byteLost runeLost o o') (delim : UInt8) :
    (o'.record delim).1 = (o.record delim).1 ∧
      Akin byteLost runeLost (o.record delim).2 (o'.record delim).2 := by
  unfold Outlook.record
  rw [h.stretch_eq]
  cases o.stretch.idxOf? delim with
  | none => exact ⟨congrArg (Passage.mk o.stretch ∘ some) h.stop_eq, h.next⟩
  | some i => exact ⟨rfl, h.ahead _⟩

end Akin

/-- What came of an operation on two outlooks: the same unless it parts them, and then they
are akin again. -/
def Tells (byteLost runeLost uneven : Prop) (op : StreamOp) (x y : Outcome × Outlook) : Prop :=
  (x.1 = y.1 ↔ ¬ op.Parts byteLost runeLost) ∧
    (x.1 = y.1 → Akin (op.LosesByte byteLost uneven x.1) False x.2 y.2)

/-- The same came of an operation that parts no outlooks. -/
theorem tells_same {op : StreamOp} {x y : Outcome × Outlook} (hparts : ¬ op.Parts byteLost runeLost)
    (hsame : x.1 = y.1) (h : Akin (op.LosesByte byteLost uneven x.1) False x.2 y.2) :
    Tells byteLost runeLost uneven op x y :=
  ⟨iff_of_true hsame hparts, fun _ => h⟩

/-- An operation that parts outlooks pushes back on one of them only. -/
theorem tells_apart {op : StreamOp} {x y : Outcome × Outlook} (hparts : op.Parts byteLost runeLost)
    (h : x.1 ≠ y.1) : Tells byteLost runeLost uneven op x y :=
  ⟨iff_of_false h (not_not_intro hparts), fun hsame => absurd hsame h⟩

namespace Akin

theorem readByte (h : Akin byteLost runeLost o o') (empty empty' : Bool) :
    Tells byteLost runeLost uneven .readByte (o.step empty .readByte)
      (o'.step empty' .readByte) := by
  cases hstretch : o.stretch with
  | nil =>
    rw [step_readByte_nil hstretch, step_readByte_nil (h.stretch_eq.trans hstretch), h.stop_eq]
    exact tells_same id rfl (h.next.back (h.byte.congr (and_iff_left trivial)) .none_none)
  | cons b rest =>
    rw [step_readByte_cons hstretch, step_readByte_cons (h.stretch_eq.trans hstretch)]
    exact tells_same id rfl ((h.ahead rest).back (.of_eq And.right rfl) .none_none)

theorem readRune (h : Akin byteLost runeLost o o') (empty empty' : Bool) :
    Tells byteLost runeLost uneven .readRune (o.step empty .readRune)
      (o'.step empty' .readRune) := by
  by_cases hstretch : o.stretch = []
  · rw [step_readRune_nil hstretch, step_readRune_nil (h.stretch_eq.trans hstretch), h.stop_eq]
    exact tells_same id rfl (h.next.back (h.byte.congr (and_iff_left trivial)) .none_none)
  · have hstretch' : o'.stretch ≠ [] := fun hnil => hstretch (h.stretch_eq.symm.trans hnil)
    rw [step_readRune_of_ne_nil hstretch, step_readRune_of_ne_nil hstretch', h.stretch_eq]
    exact tells_same id rfl ((h.ahead _).back (.of_eq And.right rfl) (.of_eq id rfl))

theorem unreadByte (h : Akin byteLost runeLost o o') (empty empty' : Bool) :
    Tells byteLost runeLost uneven .unreadByte (o.step empty .unreadByte)
      (o'.step empty' .unreadByte) := by
  obtain ⟨hkept, hsame⟩ | ⟨hlost, ⟨b, hb⟩, hb'⟩ | ⟨hlost, hb, b, hb'⟩ := h.byte.cases
  · cases hb : o.byte with
    | none =>
      rw [step_unreadByte_none hb, step_unreadByte_none (hsame.symm.trans hb)]
      exact tells_same hkept rfl (h.back .none_none .none_none)
    | some b =>
      rw [step_unreadByte_some hb, step_unreadByte_some (hsame.symm.trans hb), h.stretch_eq]
      exact tells_same hkept rfl ((h.ahead _).back .none_none .none_none)
  · rw [step_unreadByte_some hb, step_unreadByte_none hb']
    exact tells_apart hlost nofun
  · rw [step_unreadByte_none hb, step_unreadByte_some hb']
    exact tells_apart hlost nofun

theorem unreadRune (h : Akin byteLost runeLost o o') (empty empty' : Bool) :
    Tells byteLost runeLost uneven .unreadRune (o.step empty .unreadRune)
      (o'.step empty' .unreadRune) := by
  obtain ⟨hkept, hsame⟩ | ⟨hlost, ⟨b, hb⟩, hb'⟩ | ⟨hlost, hb, b, hb'⟩ := h.rune.cases
  · cases hb : o.rune with
    | none =>
      rw [step_unreadRune_none hb, step_unreadRune_none (hsame.symm.trans hb)]
      exact tells_same hkept rfl { h with
        byte := h.byte.congr (and_iff_left trivial), rune := .of_eq id hsame }
    | some b =>
      rw [step_unreadRune_some hb, step_unreadRune_some (hsame.symm.trans hb), h.stretch_eq]
      exact tells_same hkept rfl ((h.ahead _).back (.of_eq And.right rfl) .none_none)
  · rw [step_unreadRune_some hb, step_unreadRune_none hb']
    exact tells_apart hlost nofun
  · rw [step_unreadRune_none hb, step_unreadRune_some hb']
    exact tells_apart hlost nofun

theorem readBytes (h : Akin byteLost runeLost o o') (delim : UInt8) {empty empty' : Bool}
    (huneven : uneven ↔ empty ≠ empty')
    (hsome : empty = false → (o.step empty (.readBytes delim)).2.byte ≠ none)
    (hsome' : empty' = false → (o'.step empty' (.readBytes delim)).2.byte ≠ none) :
    Tells byteLost runeLost uneven (.readBytes delim) (o.step empty (.readBytes delim))
      (o'.step empty' (.readBytes delim)) := by
  obtain ⟨hsame, hakin⟩ := h.record delim
  have hmatched : Matched uneven (o.step empty (.readBytes delim)).2.byte
      (o'.step empty' (.readBytes delim)).2.byte := by
    cases empty with
    | false =>
      cases empty' with
      | false =>
        refine .of_eq (fun hne => huneven.mp hne rfl) ?_
        exact congrArg (fun p => p.bytes.getLast?) hsame.symm
      | true => exact .of_none_right (huneven.mpr nofun) (hsome rfl) rfl
    | true =>
      cases empty' with
      | false => exact .of_none_left (huneven.mpr nofun) rfl (hsome' rfl)
      | true => exact .of_eq (fun hne => huneven.mp hne rfl) rfl
  exact tells_same id (congrArg Outcome.passage hsame.symm) (hakin.back hmatched .none_none)

/-- **What an operation makes of outlooks that are akin.**  The same comes of it on both unless
it parts them. -/
theorem step (h : Akin byteLost runeLost o o') (op : StreamOp) {empty empty' : Bool}
    (huneven : uneven ↔ empty ≠ empty')
    (hsome : ∀ delim, op = .readBytes delim → empty = false → (o.step empty op).2.byte ≠ none)
    (hsome' : ∀ delim, op = .readBytes delim → empty' = false →
      (o'.step empty' op).2.byte ≠ none) :
    Tells byteLost runeLost uneven op (o.step empty op) (o'.step empty' op) := by
  cases op with
  | readByte => exact h.readByte empty empty'
  | unreadByte => exact h.unreadByte empty empty'
  | readRune => exact h.readRune empty empty'
  | unreadRune => exact h.unreadRune empty empty'
  | readBytes delim => exact h.readBytes delim huneven (hsome delim rfl) (hsome' delim rfl)

end Akin

end Outlook

namespace Reader

/-! ## Readers that keep apace -/

section Apace

variable {τ : Type} [ByteSource τ]

/-- Two readers go through the same operations, whatever becomes in between of what streams
share.  `byteLost` tells whether just one of them has a byte to push back, and `runeLost`
whether just one has a rune; otherwise they have the same.

Given the patience for it, both bring the same unless they part, and then go on.  From the
second operation on, just one may have a byte to push back where that was so before and
nothing has been read or pushed back since, or behind a record that ended with an empty piece
on one of them. -/
def Apace [ErringSource τ] : List StreamOp → (byteLost runeLost : Prop) → (r t : Reader τ) → Prop
  | [], _, _, _, _ => True
  | op :: ops, byteLost, runeLost, r, t =>
    ∀ sh sh', op.Affordable r sh → op.Affordable t sh' →
      Act.Returns (perform op.op r) sh fun (outcome, r₁) _ =>
        Act.Returns (perform op.op t) sh' fun (outcome', t₁) _ =>
          (outcome = outcome' ↔ ¬ op.Parts byteLost runeLost) ∧
            (outcome = outcome' →
              Apace ops
                (op.LosesByte byteLost (¬ (op.op.EndsEmpty r sh ↔ op.op.EndsEmpty t sh')) outcome)
                False r₁ t₁)

/-- By induction on the operations: each leaves outlooks that are akin again. -/
theorem apace_of_akin [ErringSource τ] [CourseSource τ] (ops : List StreamOp)
    {byteLost runeLost : Prop} {r t : Reader τ} (hr : r.Proper) (ht : t.Proper)
    (h : Outlook.Akin byteLost runeLost r.outlook t.outlook) : Apace ops byteLost runeLost r t := by
  induction ops generalizing byteLost runeLost r t with
  | nil => trivial
  | cons op ops ih =>
    intro sh sh' hpatience hpatience'
    refine (perform_outlook hr op sh hpatience).imp ?_
    intro ⟨outcome, r₁⟩ _ ⟨hr₁, empty, hempty, hstep, hsome⟩
    refine (perform_outlook ht op sh' hpatience').imp ?_
    intro ⟨outcome', t₁⟩ _ ⟨ht₁, empty', hempty', hstep', hsome'⟩
    have huneven : ¬ (op.op.EndsEmpty r sh ↔ op.op.EndsEmpty t sh') ↔ empty ≠ empty' := by
      rw [← hempty, ← hempty', ← Bool.eq_iff_iff]
    have htells := h.step op huneven
      (fun delim hop hfalse => hstep ▸ hsome delim hop hfalse)
      (fun delim hop hfalse => hstep' ▸ hsome' delim hop hfalse)
    rw [← hstep, ← hstep'] at htells
    exact ⟨htells.1, fun hsame => ih hr₁ ht₁ (htells.2 hsame)⟩

/-- The same comes of the operation on both, whatever becomes in between of what streams
share. -/
def AnswersAlike (op : Op) (r t : Reader τ) : Prop :=
  ∀ sh sh', ∃ outcome, Act.Returns (perform op r) sh (fun (o, _) _ => o = outcome) ∧
    Act.Returns (perform op t) sh' fun (o, _) _ => o = outcome

/-- Where what comes of the operation is known on both, it is to be compared. -/
theorem answersAlike_iff {op : Op} {r t : Reader τ} {x y : Outcome}
    (hr : ∀ sh, Act.Returns (perform op r) sh fun (o, _) _ => o = x)
    (ht : ∀ sh, Act.Returns (perform op t) sh fun (o, _) _ => o = y) :
    AnswersAlike op r t ↔ x = y := by
  constructor
  · intro halike
    obtain ⟨outcome, hr', ht'⟩ := halike { pools := [] } { pools := [] }
    obtain ⟨_, _, -, hx, hx'⟩ := Act.Returns.exists_ok ((hr _).and hr')
    obtain ⟨_, _, -, hy, hy'⟩ := Act.Returns.exists_ok ((ht _).and ht')
    rw [← hx, ← hy, hx', hy']
  · intro heq sh sh'
    exact ⟨x, hr sh, heq ▸ ht sh'⟩

end Apace

/-! ## Pushing back at once -/

section PushingBack

variable {σ : Type} {r r' t : Reader σ} {u : Except Error Unit}

theorem UnreadsByte.answer (hu : r.UnreadsByte u r') :
    u = r.backByte.elim (.error .invalidUnreadByte) fun _ => .ok () := by
  cases hu with
  | nothing hnone => rw [backByte_of_none hnone, Option.elim]
  | restarted hb hunread => rw [backByte_of_unread_nil hunread, hb, Option.elim]
  | stuck hb hne hpast => rw [backByte_of_some hb hne, hpast, List.head?_nil, Option.elim]
  | moved hb hne hpast =>
    rw [backByte_of_some hb hne, List.head?_eq_some_head hpast, Option.elim]

theorem UnreadsRune.answer_of_back (hu : r.UnreadsRune u r') :
    u = r.backRune.elim (.error .invalidUnreadRune) fun _ => .ok () := by
  cases hu with
  | moved hrune hle => rw [backRune_of_le hrune hle, Option.elim]
  | refused hrefused => rw [backRune_of_refused hrefused, Option.elim]

theorem backRune_ne_none_iff : r.backRune ≠ none ↔ r.RuneInReach := by
  constructor
  · intro hsome
    refine Classical.byContradiction fun hreach => hsome (backRune_of_refused ?_)
    exact fun width hwidth => Nat.lt_of_not_le fun hle => hreach ⟨width, hwidth, hle⟩
  · intro ⟨width, hwidth, hle⟩
    rw [backRune_of_le hwidth hle]
    exact Option.some_ne_none _

/-- Both push back or both refuse to just if both have something to push back or neither. -/
theorem pushed_elim_eq_iff {α : Type} {x y : Option α} {e : Error} :
    Outcome.pushed (x.elim (.error e) fun _ => .ok ()) = .pushed (y.elim (.error e) fun _ => .ok ())
      ↔ (x = none ↔ y = none) := by
  cases x <;> cases y <;> simp

variable [ByteSource σ]

theorem answersAlike_unreadByte_iff :
    AnswersAlike .unreadByte r t ↔ (r.backByte = none ↔ t.backByte = none) := by
  have hanswer : ∀ (r : Reader σ) sh, Act.Returns (perform .unreadByte r) sh fun (o, _) _ =>
      o = .pushed (r.backByte.elim (.error .invalidUnreadByte) fun _ => .ok ()) :=
    fun r _ => Act.meets_bind.mpr ((unreadByte_meets r).imp
      fun _ _ hu => congrArg Outcome.pushed hu.answer)
  rw [answersAlike_iff (hanswer r) (hanswer t), pushed_elim_eq_iff]

theorem answersAlike_unreadRune_iff :
    AnswersAlike .unreadRune r t ↔ (r.backRune = none ↔ t.backRune = none) := by
  have hanswer : ∀ (r : Reader σ) sh, Act.Returns (perform .unreadRune r) sh fun (o, _) _ =>
      o = .pushed (r.backRune.elim (.error .invalidUnreadRune) fun _ => .ok ()) :=
    fun r _ => congrArg Outcome.pushed r.unreadRune_does.answer_of_back
  rw [answersAlike_iff (hanswer r) (hanswer t), pushed_elim_eq_iff]

end PushingBack

/-! ## A reader that was moved -/

section Moved

variable {σ : Type} {r t : Reader σ} {size : Nat} {pool : PoolId}

/-- Moving to a buffer of the given size leaves behind the byte that could be pushed back: it
stands behind unread ones, and these are moved without it. -/
def LosesByte (size : Nat) (r : Reader σ) : Prop :=
  r.size < size ∧ r.lastByte ≠ none ∧ r.window.unread ≠ [] ∧ r.window.past ≠ []

/-- Moving to a buffer of the given size leaves behind the rune that could be pushed back. -/
def LosesRune (size : Nat) (r : Reader σ) : Prop := r.size < size ∧ r.RuneInReach

namespace Adapts

variable (ha : r.Adapts size pool t)

include ha

theorem unread_eq : t.window.unread = r.window.unread := by cases ha <;> rfl

theorem lastByte_eq : t.lastByte = r.lastByte := by cases ha <;> rfl

theorem lastRune_eq : t.lastRune = r.lastRune := by cases ha <;> rfl

theorem keeps_or_moves : (size ≤ r.size ∧ t = r) ∨ (r.size < size ∧ t.window.past = []) := by
  cases ha with
  | kept hle => exact .inl ⟨hle, rfl⟩
  | regrown hlt => exact .inr ⟨hlt, rfl⟩

/-- The byte comes along where nothing is unread, and otherwise stays behind. -/
theorem byte_matched : Matched (r.LosesByte size) r.backByte t.backByte := by
  obtain ⟨hle, rfl⟩ | ⟨hlt, hmoved⟩ := ha.keeps_or_moves
  · exact .of_eq (fun hlost => Nat.not_le.mpr hlost.1 hle) rfl
  · by_cases hunread : r.window.unread = []
    · refine .of_eq (fun hlost => hlost.2.2.1 hunread) ?_
      rw [backByte_of_unread_nil hunread, backByte_of_unread_nil (ha.unread_eq.trans hunread),
        ha.lastByte_eq]
    · have hunread' : t.window.unread ≠ [] := fun hnil => hunread (ha.unread_eq.symm.trans hnil)
      cases hbyte : r.lastByte with
      | none =>
        refine .of_eq (fun hlost => hlost.2.1 hbyte) ?_
        rw [backByte_of_none hbyte, backByte_of_none (ha.lastByte_eq.trans hbyte)]
      | some b =>
        have hback := backByte_of_some hbyte hunread
        have hback' := backByte_of_some (ha.lastByte_eq.trans hbyte) hunread'
        rw [hmoved, List.head?_nil] at hback'
        by_cases hpast : r.window.past = []
        · refine .of_eq (fun hlost => hlost.2.2.2 hpast) ?_
          rw [hback, hback', hpast, List.head?_nil]
        · refine .of_none_right ⟨hlt, by rw [hbyte]; nofun, hunread, hpast⟩ ?_ hback'
          rw [hback, List.head?_eq_some_head hpast]
          exact Option.some_ne_none _

/-- The rune stays behind. -/
theorem rune_matched (h : r.Recalls) : Matched (r.LosesRune size) r.backRune t.backRune := by
  obtain ⟨hle, rfl⟩ | ⟨hlt, hmoved⟩ := ha.keeps_or_moves
  · exact .of_eq (fun hlost => Nat.not_le.mpr hlost.1 hle) rfl
  · have hback' : t.backRune = none := by
      refine backRune_of_refused fun width hwidth => ?_
      rw [hmoved]
      exact (h width (ha.lastRune_eq ▸ hwidth)).1
    by_cases hreach : r.RuneInReach
    · exact .of_none_right ⟨hlt, hreach⟩ (backRune_ne_none_iff.mpr hreach) hback'
    · refine .of_eq (fun hlost => hreach hlost.2) ?_
      rw [hback', ← Decidable.not_not (p := r.backRune = none)]
      exact mt backRune_ne_none_iff.mp hreach

end Adapts

/-- What is ahead comes along. -/
theorem Adapts.outlook_akin {τ : Type} [ByteSource τ] [ErringSource τ] [CourseSource τ]
    {r t : Reader τ} (ha : r.Adapts size pool t) (h : r.Recalls) :
    Outlook.Akin (r.LosesByte size) (r.LosesRune size) r.outlook t.outlook where
  stretch_eq := by
    show t.stretch = r.stretch
    rw [stretch, stretch, ha.unread_eq, ha.fault_eq, ha.source_eq]
  stop_eq := by
    show t.stop = r.stop
    rw [stop, stop, ha.fault_eq, ha.source_eq]
  later_eq := later_congr ha.source_eq ha.fault_eq
  byte := ha.byte_matched
  rune := ha.rune_matched h

theorem Adapts.proper {τ : Type} [ByteSource τ] [ErringSource τ] {r t : Reader τ}
    (ha : r.Adapts size pool t) (h : r.Proper) : t.Proper :=
  ⟨ha.wf h.wf, ha.fault_eq ▸ h.fault_ne_full⟩

/-- By induction on what was done with the reader: the rune read last stands behind the unread
bytes unless nothing does. -/
theorem Reachable.recalls [BulkSource σ] [HonestSource (· = Halt.exhausted) σ] [History σ]
    [BulkHistory (· = Halt.exhausted) σ] (h : r.Reachable) : r.Recalls := by
  induction h with
  | start => exact .of_none rfl
  | step h hrun ih =>
    exact ((execute_reach (H := (· = Halt.exhausted)) rfl _ h.wf ih).of_ok hrun).2.2

/-- **What a reader that is moved to a larger buffer has in common with one that is not.**  Over
any honest source and in every state that the reader may be in: a byte is pushed back on both
or neither unless it is left behind, and likewise a rune.  Over a source of settled course, every
row of operations that read and push back brings the same from both, latched error and all, up
to the first that pushes back what just one of them has. -/
theorem adapt_apace [BulkSource σ] [HonestSource (· = Halt.exhausted) σ]
    [HonestBulkSource (· = Halt.exhausted) σ] {r : Reader (Traced σ)} (hr : r.Reachable)
    (size : Nat) (pool : PoolId) (sh : Shared) :
    Act.Returns (r.adapt size pool) sh fun t _ =>
      (AnswersAlike .unreadByte r t ↔ ¬ r.LosesByte size) ∧
        (AnswersAlike .unreadRune r t ↔ ¬ r.LosesRune size) ∧
        ∀ [ErringSource σ] [CourseSource σ] (ops : List StreamOp),
          Apace ops (r.LosesByte size) (r.LosesRune size) r t := by
  refine (adapt_meets hr.wf size pool).imp ?_
  intro t sh' ha
  refine ⟨?_, ?_, ?_⟩
  · rw [answersAlike_unreadByte_iff, ha.byte_matched.none_iff]
  · rw [answersAlike_unreadRune_iff, (ha.rune_matched hr.recalls).none_iff]
  · intro _ _ ops
    exact apace_of_akin ops hr.proper (ha.proper hr.proper) (ha.outlook_akin hr.recalls)

end Moved

/-- Two letters that come with an error, and a third. -/
def interruptedLetters : Script.Calm where
  source := { items := [.piece [0x61, 0x62] (some cutOff), .piece [0x63] none] }

/-- The first letter has been read. -/
def pastFirstLetter : Reader (Traced Script.Calm) :=
  match (withCapacity (Traced.start interruptedLetters) 16 0).readByte { pools := [] } with
  | .ok (_, r) _ => r
  | .error _ _ => withCapacity (Traced.start interruptedLetters) 16 0

theorem execute_pastFirstLetter :
    execute (.op .readByte : Task MemorySink) (withCapacity (Traced.start interruptedLetters) 16 0)
        { pools := [] } =
      .ok (.outcome (.byte (.ok 0x61)), pastFirstLetter) { pools := [] } := rfl

theorem adapt_apace_pastFirstLetter :
    pastFirstLetter.Reachable ∧
      Act.Returns (pastFirstLetter.adapt 64 0) { pools := [] } fun t _ =>
        ¬ AnswersAlike .unreadByte pastFirstLetter t ∧ AnswersAlike .unreadRune pastFirstLetter t ∧
          Apace [.readByte, .unreadByte, .readByte, .readRune, .unreadByte, .readBytes 0x63] True
            False pastFirstLetter t := by
  have : HonestSource (· = Halt.exhausted) Script.Calm := .of_returns
  have hreached : pastFirstLetter.Reachable :=
    .step (.start (Traced.start interruptedLetters) 16 0) execute_pastFirstLetter
  have hbyte : pastFirstLetter.LosesByte 64 := ⟨by decide, nofun, nofun, nofun⟩
  have hrune : ¬ pastFirstLetter.LosesRune 64 := fun hlost => not_runeInReach_of_none rfl hlost.2
  refine ⟨hreached, (adapt_apace hreached 64 0 { pools := [] }).imp ?_⟩
  intro t sh ⟨hunreadByte, hunreadRune, hapace⟩
  refine ⟨fun halike => hunreadByte.mp halike hbyte, hunreadRune.mpr hrune, ?_⟩
  rw [← eq_true hbyte, ← eq_false hrune]
  exact hapace _

/-- The letter can be pushed back, but not once the reader was moved. -/
theorem pastFirstLetter_left_behind :
    ∃ r₁ sh₁ r₂ sh₂ r₃ sh₃ r₄ sh₄,
      perform .readByte (withCapacity interruptedLetters 16 0) { pools := [] } =
          .ok (.byte (.ok 0x61), r₁) sh₁ ∧
        perform .unreadByte r₁ sh₁ = .ok (.pushed (.ok ()), r₂) sh₂ ∧
        perform (.adapt 64 0) r₁ sh₁ = .ok (.done, r₃) sh₃ ∧
        perform .unreadByte r₃ sh₃ = .ok (.pushed (.error .invalidUnreadByte), r₄) sh₄ :=
  ⟨_, _, _, _, _, _, _, _, rfl, rfl, rfl, rfl⟩

end Reader

end BufferedStream
