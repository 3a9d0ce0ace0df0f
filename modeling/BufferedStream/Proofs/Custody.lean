import BufferedStream.Error.Custody

/-!
# Errors that are converted again and again

An error may become a system failure and enter a stream again any number of times, while copies
of it are put aside and let go.  What it becomes depends on whether a copy is held when it is
converted, so on all that was done before.

* `Error.ids`, `Error.layers` — the occurrences that an error mentions, and how deep errors are
  carried in it.
* `Custody.Sound` — what every conversion keeps: the kind, and that only copies of the error in
  hand mention its occurrence.
* `Custody.step_layers` — the conversions that put a layer around what is in hand.
* `Custody.conversions_keep_kind` — however the steps are mixed.
-/

namespace BufferedStream

/-! ## What an error carries -/

mutual

/-- The occurrences that an error mentions, in whatever it carries too. -/
def Error.ids : Error → List ErrorId
  | .io id cause => id :: cause.ids
  | .bufferFull | .invalidUnreadByte | .invalidUnreadRune | .shortWrite | .eof | .noProgress => []

/-- The occurrences that a system failure mentions, in whatever it carries. -/
def IoError.ids : IoError → List ErrorId
  | .boxed _ e | .sealed _ e => e.ids
  | .nested _ cause => cause.ids
  | .bare _ | .fixed _ _ | .system _ _ _ | .text _ _ | .foreign _ _ _ _ => []

end

mutual

/-- How often an error is carried by a failure, inside an error. -/
def Error.layers : Error → Nat
  | .io _ cause => cause.layers
  | .bufferFull | .invalidUnreadByte | .invalidUnreadRune | .shortWrite | .eof | .noProgress => 0

/-- How often an error or a failure is carried by another failure. -/
def IoError.layers : IoError → Nat
  | .boxed _ e | .sealed _ e => e.layers + 1
  | .nested _ cause => cause.layers + 1
  | .bare _ | .fixed _ _ | .system _ _ _ | .text _ _ | .foreign _ _ _ _ => 0

end

namespace Error

/-- The same error as a system failure is one of the same occurrence. -/
theorem same_io_iff {id : ErrorId} {cause : IoError} {k : Error} :
    (io id cause).same k = true ↔ ∃ cause', k = io id cause' := by
  cases k with
  | io j cause' =>
    constructor
    · intro h
      have hid : id = j := by simpa [same] using h
      exact ⟨cause', by rw [hid]⟩
    · rintro ⟨_, h⟩
      cases h
      simp [same]
  | _ => simp [same]

/-- Becoming a system failure, an error mentions nothing new. -/
theorem mem_ids_of_toIo {shared : Bool} {e : Error} {id : ErrorId} (h : id ∈ (e.toIo shared).ids) :
    id ∈ e.ids := by
  cases e with
  | io j cause =>
    cases shared with
    | true => exact h
    | false => exact List.mem_cons_of_mem _ h
  | _ => exact h

end Error

/-- The kind that what is in hand has as a system failure. -/
def Subject.kind? : Subject → Option ErrorKind
  | .error e => some e.ioKind
  | .failure cause => some cause.kind
  | .report _ => none

/-- The occurrences that what is in hand mentions. -/
def Subject.ids : Subject → List ErrorId
  | .error e => e.ids
  | .failure cause => cause.ids
  | .report _ => []

/-- How deep errors are carried in what is in hand. -/
def Subject.layers : Subject → Nat
  | .error e => e.layers
  | .failure cause => cause.layers
  | .report _ => 0

namespace Custody

/-! ## Steps -/

/-- The step leaves what is in hand as it is. -/
def Step.isCustodial : Step → Bool
  | .copy | .keep | .drop => true
  | _ => false

/-- The step copies or converts, and neither carries the error in a new one nor makes a
report. -/
def Step.isConversion : Step → Bool
  | .toIo | .toError => true
  | s => s.isCustodial

/-- The custody of an error of which there is no copy; `n` is the identity of the next failure. -/
def holding (x : Error) (n : ErrorId) : Custody := { subject := .error x, nextId := n }

/-- The custody after all of the steps. -/
def after (c : Custody) (steps : List Step) : Custody := steps.foldl step c

variable {x : Error} {c : Custody} {s : Step}

theorem subject_step_of_custodial (hs : s.isCustodial = true) : (c.step s).subject = c.subject := by
  cases s with
  | copy => rfl
  | keep =>
    unfold step
    cases hsubject : c.subject <;> simp [hsubject]
  | drop => rfl
  | _ => cases hs

theorem subject_after_of_custodial {steps : List Step} (hsteps : ∀ s ∈ steps, s.isCustodial = true) :
    (c.after steps).subject = c.subject := by
  induction steps generalizing c with
  | nil => rfl
  | cons s steps ih =>
    have hrest := ih (c := c.step s) fun s hs => hsteps s (List.mem_cons_of_mem _ hs)
    exact hrest.trans (subject_step_of_custodial (hsteps s List.mem_cons_self))

/-! ## What every conversion keeps -/

/-- The custody comes from one of the error `x`: it has the kind of `x`, identities are taken in
order, and the copies put aside that mention the error in hand are copies of it. -/
structure Sound (x : Error) (c : Custody) : Prop where
  kind_eq : c.subject.kind? = some x.ioKind
  fresh_subject : ∀ id ∈ c.subject.ids, id < c.nextId
  fresh_kept : ∀ k ∈ c.kept, ∀ id ∈ k.ids, id < c.nextId
  copies : ∀ id cause, c.subject = .error (.io id cause) →
    ∀ k ∈ c.kept, id ∈ k.ids → k = .io id cause

theorem sound_holding {n : ErrorId} (hfresh : ∀ id ∈ x.ids, id < n) : (holding x n).Sound x where
  kind_eq := rfl
  fresh_subject := hfresh
  fresh_kept := by simp [holding]
  copies := by simp [holding]

theorem Sound.keep (h : c.Sound x) {e : Error} (he : c.subject = .error e) :
    Sound x { c with kept := c.kept ++ [e] } where
  kind_eq := h.kind_eq
  fresh_subject := h.fresh_subject
  fresh_kept := by
    intro k hk id hid
    rcases List.mem_append.mp hk with hk | hk
    · exact h.fresh_kept k hk id hid
    · obtain rfl := List.mem_singleton.mp hk
      apply h.fresh_subject
      rw [he]
      exact hid
  copies := by
    intro id cause hsubject k hk hid
    rcases List.mem_append.mp hk with hk | hk
    · exact h.copies id cause hsubject k hk hid
    · obtain rfl := List.mem_singleton.mp hk
      rw [he] at hsubject
      cases hsubject
      rfl

theorem Sound.drop (h : c.Sound x) : Sound x { c with kept := [] } where
  kind_eq := h.kind_eq
  fresh_subject := h.fresh_subject
  fresh_kept := by simp
  copies := by simp

theorem Sound.toIo (h : c.Sound x) {e : Error} (he : c.subject = .error e) (shared : Bool) :
    Sound x { c with subject := .failure (e.toIo shared) } where
  kind_eq := by
    have hkind := h.kind_eq
    rw [he] at hkind
    exact (congrArg some (e.kind_toIo shared)).trans hkind
  fresh_subject := by
    intro id hid
    apply h.fresh_subject
    rw [he]
    exact Error.mem_ids_of_toIo hid
  fresh_kept := h.fresh_kept
  copies := by simp

/-- A failure that enters a stream gets an identity which nothing mentions. -/
theorem Sound.toError (h : c.Sound x) {cause : IoError} (hcause : c.subject = .failure cause) :
    (c.receive fun id => cause.enter id).Sound x where
  kind_eq := by
    have hkind := h.kind_eq
    rw [hcause] at hkind
    exact hkind
  fresh_subject := by
    intro id hid
    rcases List.mem_cons.mp hid with rfl | hid
    · exact Nat.lt_succ_self _
    · apply Nat.lt_succ_of_lt
      apply h.fresh_subject
      rw [hcause]
      exact hid
  fresh_kept k hk id hid := Nat.lt_succ_of_lt (h.fresh_kept k hk id hid)
  copies := by
    intro id cause' hsubject k hk hid
    cases hsubject
    exact absurd (h.fresh_kept k hk _ hid) (Nat.lt_irrefl _)

theorem Sound.step (h : c.Sound x) (hs : s.isConversion = true) : (c.step s).Sound x := by
  obtain ⟨subject, kept, nextId, reported⟩ := c
  cases s with
  | copy => exact h
  | keep =>
    cases subject with
    | error e => exact h.keep rfl
    | _ => exact h
  | drop => exact h.drop
  | toIo =>
    cases subject with
    | error e => exact h.toIo rfl _
    | _ => exact h
  | toError =>
    cases subject with
    | error e => exact h
    | failure cause => exact h.toError rfl
    | report r => cases h.kind_eq
  | _ => cases hs

/-- By induction on the steps. -/
theorem Sound.run (h : c.Sound x) {steps : List Step} (hsteps : ∀ s ∈ steps, s.isConversion = true) :
    ∀ c' ∈ c.run steps, c'.Sound x := by
  induction steps generalizing c with
  | nil => simp [Custody.run]
  | cons s steps ih =>
    have hnext := h.step (hsteps s List.mem_cons_self)
    intro c' hc'
    rcases List.mem_cons.mp hc' with rfl | hc'
    · exact hnext
    · exact ih hnext (fun s hs => hsteps s (List.mem_cons_of_mem _ hs)) c' hc'

/-- **Whoever else holds the error holds a copy of it.**  No error that was put aside carries it
inside, so that it is shared just if it is mentioned at all. -/
theorem Sound.isShared_iff (h : c.Sound x) {id : ErrorId} {cause : IoError}
    (hsubject : c.subject = .error (.io id cause)) :
    c.isShared (.io id cause) = true ↔ id ∈ c.kept.flatMap Error.ids := by
  unfold isShared
  rw [List.any_eq_true, List.mem_flatMap]
  constructor
  · rintro ⟨k, hk, hsame⟩
    obtain ⟨cause', rfl⟩ := Error.same_io_iff.mp hsame
    exact ⟨_, hk, List.mem_cons_self⟩
  · rintro ⟨k, hk, hid⟩
    refine ⟨k, hk, ?_⟩
    rw [h.copies id cause hsubject k hk hid]
    exact Error.same_refl _

/-! ## There and back -/

theorem step_toIo_of_alone {id : ErrorId} {cause : IoError}
    (hsubject : c.subject = .error (.io id cause))
    (halone : ∀ k ∈ c.kept, k.same (.io id cause) = false) :
    (c.step .toIo).subject = .failure cause := by
  have hshared : c.isShared (.io id cause) = false := by
    unfold isShared
    rw [List.any_eq_false]
    intro k hk
    rw [Error.same_comm, halone k hk]
    exact Bool.false_ne_true
  unfold step
  rw [hsubject]
  dsimp only
  rw [hshared]
  rfl

theorem step_toIo_of_shared {id : ErrorId} {cause : IoError} {k : Error}
    (hsubject : c.subject = .error (.io id cause)) (hk : k ∈ c.kept)
    (hsame : k.same (.io id cause) = true) :
    (c.step .toIo).subject = .failure (.boxed cause.kind (.io id cause)) := by
  have hshared : c.isShared (.io id cause) = true := by
    unfold isShared
    rw [List.any_eq_true]
    exact ⟨k, hk, (Error.same_comm ..).trans hsame⟩
  unfold step
  rw [hsubject]
  dsimp only
  rw [hshared]
  rfl

theorem step_toError {cause : IoError} (hsubject : c.subject = .failure cause) :
    c.step .toError = c.receive fun id => cause.enter id := by
  unfold step
  rw [hsubject]

/-! ## Layers -/

/-- The step puts a layer around what is in hand: it converts a stream's own error, or one of
which a copy is put aside. -/
def wraps (c : Custody) : Step → Bool
  | .toIo =>
    match c.subject with
    | .error (.io id cause) => c.isShared (.io id cause)
    | .error _ => true
    | _ => false
  | _ => false

/-- The number of steps that put a layer around what is in hand. -/
def wrapCount (c : Custody) : List Step → Nat
  | [] => 0
  | s :: steps => (c.wraps s).toNat + (c.step s).wrapCount steps

/-- **A conversion adds one layer or none.** -/
theorem step_layers (hs : s.isConversion = true) (hreport : c.subject.kind? ≠ none) :
    (c.step s).subject.layers = c.subject.layers + (c.wraps s).toNat := by
  obtain ⟨subject, kept, nextId, reported⟩ := c
  cases s with
  | copy => rfl
  | keep => cases subject <;> rfl
  | drop => rfl
  | toIo =>
    cases subject with
    | error e =>
      cases e with
      | io id cause =>
        show ((Error.io id cause).toIo _).layers = cause.layers + _
        unfold wraps
        dsimp only
        cases Custody.isShared ⟨.error (.io id cause), kept, nextId, reported⟩ (.io id cause) with
        | true => rfl
        | false => rfl
      | _ => rfl
    | _ => rfl
  | toError =>
    cases subject with
    | report r => exact absurd rfl hreport
    | _ => rfl
  | _ => cases hs

/-- By induction on the steps: the layers are those put around. -/
theorem Sound.layers_after (h : c.Sound x) {steps : List Step}
    (hsteps : ∀ s ∈ steps, s.isConversion = true) :
    (c.after steps).subject.layers = c.subject.layers + c.wrapCount steps := by
  induction steps generalizing c with
  | nil => rfl
  | cons s steps ih =>
    have hs := hsteps s List.mem_cons_self
    have hrest := ih (h.step hs) fun s hs => hsteps s (List.mem_cons_of_mem _ hs)
    have hlayers := step_layers hs (by rw [h.kind_eq]; exact Option.some_ne_none _)
    show ((c.step s).after steps).subject.layers = _
    rw [hrest, hlayers, wrapCount]
    omega

/-! ## However the steps are mixed -/

/-- A failure that enters a stream comes out as it was unless a copy is held then. -/
theorem toIo_after_toError {cause : IoError} (hsubject : c.subject = .failure cause)
    {between : List Step} (hbetween : ∀ s ∈ between, s.isCustodial = true)
    (halone : ∀ k ∈ ((c.step .toError).after between).kept,
      k.same (cause.enter c.nextId) = false) :
    (((c.step .toError).after between).step .toIo).subject = .failure cause := by
  refine step_toIo_of_alone ?_ halone
  rw [subject_after_of_custodial hbetween, step_toError hsubject]
  rfl

/-- Nothing put aside is a copy of an error that has only just entered a stream. -/
theorem Sound.alone_of_toError (h : c.Sound x) {cause : IoError}
    (hsubject : c.subject = .failure cause) :
    ∀ k ∈ (c.step .toError).kept, k.same (cause.enter c.nextId) = false := by
  intro k hk
  rw [step_toError hsubject] at hk
  rw [← Bool.not_eq_true, Error.same_comm]
  intro hsame
  obtain ⟨cause', rfl⟩ := Error.same_io_iff.mp hsame
  exact absurd (h.fresh_kept _ hk _ List.mem_cons_self) (Nat.lt_irrefl _)

/-- **Conversions keep the kind and do not nest needlessly.**  Take any error, whatever it
carries, and copy it, put copies aside, let them go, turn it into a system failure and let that
enter a stream, in any order and any number of times.  Then of everything in hand on the way:

* a failure has the kind that the error has as one.  If it enters a stream and is turned back it
  is as it was, whatever is done in between, unless a copy of it is put aside then;
* a failure that entered a stream is shared just if an error put aside mentions it.  Then what
  is put aside is the error in hand, which becomes a failure of the same kind that carries it,
  with one layer more.

What is in hand at the end has so many layers more than the error as there were conversions of a
shared error, and one of a stream's own. -/
theorem conversions_keep_kind {n : ErrorId} (hfresh : ∀ id ∈ x.ids, id < n) {steps : List Step}
    (hsteps : ∀ s ∈ steps, s.isConversion = true) :
    (∀ c ∈ holding x n :: (holding x n).run steps,
      (∀ cause, c.subject = .failure cause →
        cause.kind = x.ioKind ∧ ((c.step .toError).step .toIo).subject = .failure cause ∧
          ∀ between, (∀ s ∈ between, s.isCustodial = true) →
            (∀ k ∈ ((c.step .toError).after between).kept,
              k.same (cause.enter c.nextId) = false) →
            (((c.step .toError).after between).step .toIo).subject = .failure cause) ∧
      ∀ id cause, c.subject = .error (.io id cause) →
        (c.isShared (.io id cause) = true ↔ id ∈ c.kept.flatMap Error.ids) ∧
        ∀ k ∈ c.kept, k.same (.io id cause) = true →
          k = .io id cause ∧ (c.step .toIo).subject = .failure (.boxed cause.kind k) ∧
            (IoError.boxed cause.kind k).layers = cause.layers + 1) ∧
    ((holding x n).after steps).subject.layers = x.layers + (holding x n).wrapCount steps ∧
    (Error.eof.ioKind = .unexpectedEof ∧ Error.shortWrite.ioKind = .writeZero ∧
      Error.invalidUnreadByte.ioKind = .invalidInput ∧
      Error.invalidUnreadRune.ioKind = .invalidInput ∧ Error.bufferFull.ioKind = .other ∧
      Error.noProgress.ioKind = .other ∧
      ∀ id cause, (Error.io id cause).ioKind = cause.kind) := by
  have hstart := sound_holding hfresh
  refine ⟨?_, hstart.layers_after hsteps, rfl, rfl, rfl, rfl, rfl, rfl, fun _ _ => rfl⟩
  intro c hc
  have hsound : c.Sound x := by
    rcases List.mem_cons.mp hc with rfl | hc
    · exact hstart
    · exact hstart.run hsteps c hc
  constructor
  · intro cause hsubject
    have hkind := hsound.kind_eq
    rw [hsubject] at hkind
    refine ⟨Option.some.inj hkind, ?_, ?_⟩
    · exact step_toIo_of_alone (by rw [step_toError hsubject]; rfl)
        (hsound.alone_of_toError hsubject)
    · intro between hbetween halone
      exact toIo_after_toError hsubject hbetween halone
  · intro id cause hsubject
    refine ⟨hsound.isShared_iff hsubject, ?_⟩
    intro k hk hsame
    have hk_eq : k = .io id cause := by
      obtain ⟨cause', rfl⟩ := Error.same_io_iff.mp ((Error.same_comm ..).trans hsame)
      exact hsound.copies id cause hsubject _ hk List.mem_cons_self
    refine ⟨hk_eq, ?_, ?_⟩
    · rw [step_toIo_of_shared hsubject hk hsame, hk_eq]
    · rw [hk_eq]
      rfl

/-- A pipe that broke, as the first failure to enter a stream. -/
def brokenPipe : Error := .io 0 (.text .brokenPipe "pipe")

/-- A conversion while a copy is put aside, and another there and back when it is gone. -/
def thereAndBack : List Step := [.keep, .toIo, .drop, .toError, .copy, .toIo]

theorem conversions_keep_kind_brokenPipe :
    (∀ c ∈ (holding brokenPipe 1).run thereAndBack, ∀ cause, c.subject = .failure cause →
      cause.kind = .brokenPipe) ∧
    ((holding brokenPipe 1).after thereAndBack).subject =
      .failure (.boxed .brokenPipe brokenPipe) ∧
    ((holding brokenPipe 1).after thereAndBack).subject.layers = 1 := by
  have hfresh : ∀ id ∈ brokenPipe.ids, id < 1 := by simp [brokenPipe, Error.ids, IoError.ids]
  have hsteps : ∀ s ∈ thereAndBack, s.isConversion = true := by decide
  obtain ⟨hrun, hlayers, -⟩ := conversions_keep_kind hfresh hsteps
  refine ⟨?_, rfl, hlayers⟩
  intro c hc cause hsubject
  exact ((hrun c (List.mem_cons_of_mem _ hc)).1 cause hsubject).1

end Custody

end BufferedStream
