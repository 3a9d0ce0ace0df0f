import BufferedStream.Proofs.Script
import BufferedStream.Proofs.Twin.Records
import BufferedStream.Proofs.Twin.Transfer

/-!
# Readers in lockstep on different pools

A reader is run twice, over the same stream and through the same operations, on pools that
have nothing to do with each other: before every operation both find their pools in any
state at all, as others may have left them.  The two runs go in lockstep
(`Reader.lockstep_on_any_pools`): they make the same calls, bring the same results and stop
for the same reasons, as long as they do not *part*.

Twins part when a rune is pushed back that only one of them still has, since the pool of the
other has taken its block (`Reader.Task.Parts`).  That takes a rune that was read, and
then, before it is pushed back, a read or a look at the buffer that finds nothing unread and
the end of the stream latched (`Reader.Op.Wears`).
-/

namespace BufferedStream

namespace Reader

open BlindSource (Same)

variable {σ κ : Type} {r t : Reader σ} {worn : Prop}

/-! ## One operation -/

/-- The operation meets the end of the stream and forgets no rune. -/
def Op.Wears (r : Reader σ) : Op → Prop
  | .read room | .plainRead room => 0 < room.size ∧ r.AtEnd
  | .fillBuf => r.AtEnd
  | _ => False

/-- After the operation, the end of the stream has been met since a rune was read last. -/
def Op.Worn (r : Reader σ) (worn : Prop) : Op → Prop
  | .readRune => False
  | op => worn ∨ op.Wears r

/-- What came of both may be told in other words. -/
theorem Both.map_agree {α β : Type} {T S : Reader σ → Reader σ → Prop}
    {m m' : Act (α × Reader σ)} (h : Act.Agree (Both T) m m') (f : α → β)
    (hTS : ∀ {r t}, T r t → S r t) :
    Act.Agree (Both S) (do return (← m).map f id) (do return (← m').map f id) := by
  refine h.bind ?_
  rintro ⟨a, r'⟩ ⟨_, t'⟩ ⟨rfl, h'⟩
  exact Act.agree_pure ⟨rfl, hTS h'⟩

/-- **One operation on readers that are level** brings the same from both and leaves them
level, unless it is to push a rune back. -/
theorem perform_agree [ByteSource σ] [BlindSource σ] [HonestSource (fun _ => True) σ]
    (h : Level worn r t) (op : Op) (hpush : op ≠ .unreadRune) :
    Act.Agree (Both (Level (op.Worn r worn))) (perform op r) (perform op t) := by
  have hlevel : Level (worn ∨ op.Wears r) r t := h.mono .inl
  cases op with
  | peek n => exact Both.map_agree (peek_agree h.toTwin n) Outcome.passage Mute.level
  | read room =>
    have hread := read_agree hlevel (Eq.refl room.size) Or.inr
    exact Both.map_agree hread Outcome.reading id
  | readByte => exact Both.map_agree (readByte_agree h.toTwin) Outcome.byte Mute.level
  | unreadByte => exact Both.map_agree (unreadByte_agree h.toTwin) Outcome.pushed Mute.level
  | readRune => exact Both.map_agree (readRune_agree h.toTwin) Outcome.rune id
  | unreadRune => exact absurd rfl hpush
  | readSlice delim =>
    exact Both.map_agree (readSlice_agree h.toTwin delim) Outcome.passage Mute.level
  | readLine => exact Both.map_agree (readLine_agree h.toTwin) Outcome.line Mute.level
  | readBytes delim =>
    exact Both.map_agree (readBytes_agree h.toTwin delim) Outcome.passage Mute.level
  | readString delim =>
    exact Both.map_agree (readString_agree h.toTwin delim) Outcome.text Mute.level
  | plainRead room =>
    have hread := plainRead_agree hlevel room Or.inr
    exact Both.map_agree hread Outcome.grant id
  | fillBuf =>
    have hfill := fillBuf_agree hlevel Or.inr
    exact Both.map_agree hfill Outcome.shown id
  | consume n =>
    exact (consume_agree hlevel n).bind fun _ _ h' => Act.agree_pure ⟨rfl, h'⟩
  | adapt size pool =>
    exact (adapt_agree hlevel size pool).bind fun _ _ h' => Act.agree_pure ⟨rfl, h'⟩

/-! ## One task -/

/-- After the task, the end of the stream has been met since a rune was read last. -/
def Task.Worn (r : Reader σ) (worn : Prop) : Task κ → Prop
  | .op o => o.Worn r worn
  | .writeTo _ => worn

/-- The task is to push back a rune that just one of the readers still has. -/
def Task.Parts (r t : Reader σ) (task : Task κ) : Prop := task = .op .unreadRune ∧ Parted r t

/-- The same came of a task, and sinks are the same that were emptied into. -/
def Result.Same [ByteSink κ] [BlindSink κ] : Result κ → Result κ → Prop
  | .outcome o, .outcome o' => o = o'
  | .moved receipt k, .moved receipt' k' => receipt = receipt' ∧ BlindSink.Same k k'
  | _, _ => False

section Execute

variable [BulkSource σ] [BlindSource σ] [BlindBulk σ] [HonestSource (fun _ => True) σ]
  [ByteSink κ] [BlindSink κ]

/-- **One task on readers that are level** brings the same from both if and only if they do
not part, and then leaves them level. -/
theorem execute_agree (h : Level worn r t) (task : Task κ) :
    Act.Agree (fun x y => (x.1.Same y.1 ↔ ¬ task.Parts r t) ∧
      (¬ task.Parts r t → Level (task.Worn r worn) x.2 y.2)) (execute task r) (execute task t) := by
  cases task with
  | op op =>
    by_cases hpush : op = .unreadRune
    · subst hpush
      obtain ⟨hsame, hlevel⟩ := h.unreadRune
      have hparts : Task.Parts r t (.op .unreadRune : Task κ) ↔ Parted r t := by simp [Task.Parts]
      refine Act.agree_pure ⟨?_, fun hnot => ?_⟩
      · rw [hparts, ← hsame]
        exact ⟨Outcome.pushed.inj, congrArg Outcome.pushed⟩
      · exact (hlevel (mt hparts.mpr hnot)).mono Or.inl
    · have hstays : ¬ Task.Parts r t (.op op : Task κ) := fun hp => hpush (by cases hp.1; rfl)
      refine (perform_agree h op hpush).bind ?_
      rintro ⟨outcome, r'⟩ ⟨outcome', t'⟩ ⟨hsame, h'⟩
      exact Act.agree_pure ⟨iff_of_true hsame hstays, fun _ => h'⟩
  | writeTo k =>
    have hstays : ¬ Task.Parts r t (.writeTo k) := fun hp => by cases hp.1
    refine (writeTo_agree h.toTwin (BlindSink.same_refl k)).bind ?_
    rintro ⟨receipt, r', k'⟩ ⟨_, t', k''⟩ ⟨rfl, h', hk⟩
    exact Act.agree_pure ⟨iff_of_true ⟨rfl, hk⟩ hstays, fun _ => h'.level⟩

end Execute

/-! ## Runs -/

/-- A task that two readers carry out, each with its pools as it finds them. -/
structure Scene (κ : Type) where
  task : Task κ
  pools : List Pool
  otherPools : List Pool

/-- Two readers carry out the same tasks in lockstep until they part.  `worn` tells whether
the end of the stream has been met since a rune was read last.

At every task both are halted for the same reason, or the results are the same unless the
readers part, which they do only if that is worn; and unless they part, what they share
differs in the pools at most, the calls on their sources have been the same, and they go
on in lockstep. -/
def Lockstep [BulkSource σ] [ByteSink κ] [BlindSink κ] : List (Scene κ) → (worn : Prop) →
    (r t : Reader (Traced σ)) → (sh sh' : Shared) → Prop
  | [], _, _, _, _, _ => True
  | scene :: scenes, worn, r, t, sh, sh' =>
    match execute scene.task r { sh with pools := scene.pools },
      execute scene.task t { sh' with pools := scene.otherPools } with
    | .ok (result, r₁) sh₁, .ok (result', t₁) sh₁' =>
      (result.Same result' ↔ ¬ scene.task.Parts r t) ∧ (scene.task.Parts r t → worn) ∧
        (¬ scene.task.Parts r t → sh₁.Alike sh₁' ∧ r₁.source.draws = t₁.source.draws ∧
          r₁.source.given = t₁.source.given ∧
          Lockstep scenes (scene.task.Worn r worn) r₁ t₁ sh₁ sh₁')
    | .error e _, .error e' _ => e = e'
    | _, _ => False

section Run

variable [BulkSource σ] [BlindSource σ] [BlindBulk σ] [HonestSource (fun _ => True) σ]
  [ByteSink κ] [BlindSink κ]

/-- By induction on the scenes: readers that are level stay so until they part. -/
theorem Level.lockstep (scenes : List (Scene κ)) {r t : Reader (Traced σ)} (h : Level worn r t)
    {sh sh' : Shared} (hsh : sh.Alike sh') : Lockstep scenes worn r t sh sh' := by
  induction scenes generalizing worn r t sh sh' with
  | nil => trivial
  | cons scene scenes ih =>
    have hpools : Shared.Alike { sh with pools := scene.pools }
      { sh' with pools := scene.otherPools } := hsh
    have hagree := execute_agree h scene.task _ _ hpools
    rw [Lockstep]
    cases hr : execute scene.task r { sh with pools := scene.pools } with
    | ok x sh₁ =>
      cases ht : execute scene.task t { sh' with pools := scene.otherPools } with
      | ok y sh₁' =>
        rw [hr, ht] at hagree
        obtain ⟨⟨hsame, hlevel⟩, hsh₁⟩ := hagree
        refine ⟨hsame, fun hp => h.worn_of_parted hp.2, fun hnot => ?_⟩
        have h₁ := hlevel hnot
        exact ⟨hsh₁, h₁.source.2.1, h₁.source.2.2, ih h₁ hsh₁⟩
      | error e' sh₁' =>
        rw [hr, ht] at hagree
        exact hagree.elim
    | error e sh₁ =>
      cases ht : execute scene.task t { sh' with pools := scene.otherPools } with
      | ok y sh₁' =>
        rw [hr, ht] at hagree
        exact hagree.elim
      | error e' sh₁' =>
        rw [hr, ht] at hagree
        exact hagree

/-- **The pools decide nothing but whether a rune can be pushed back** once the end of the
stream has been met since.  Whatever their capacity and their pools, and whatever others do
to the pools in between, two readers over the same stream go in lockstep until they
part. -/
theorem lockstep_on_any_pools {s s' : σ} (hs : Same s s') (size : Nat) (pool pool' : PoolId)
    (scenes : List (Scene κ)) {sh sh' : Shared} (hsh : sh.Alike sh') :
    Lockstep scenes False (withCapacity (Traced.start s) size pool)
      (withCapacity (Traced.start s') size pool') sh sh' := by
  have hmute : Mute (withCapacity (Traced.start s) size pool)
      (withCapacity (Traced.start s') size pool') :=
    ⟨⟨⟨hs, rfl, rfl⟩, rfl, rfl, rfl, rfl, rfl, .inl ⟨rfl, rfl⟩⟩, rfl⟩
  exact hmute.level.lockstep scenes hsh

end Run

/-! ## A rune pushed back at the end -/

/-- A stream of a single letter. -/
def oneLetter : Script.Truthful := ⟨{ items := [.piece [0x61] (some .eof)] }, by decide⟩

/-- A pool that keeps no block. -/
def stingy : Pool := .create { maxIdle := 0 }

/-- Read a rune, look at the buffer, push the rune back and empty the reader, while others
meddle with the pools. -/
def reconsidered : List (Scene MemorySink) :=
  [⟨.op .readRune, [stingy], [default]⟩, ⟨.op .fillBuf, [stingy], [default]⟩,
    ⟨.op .unreadRune, [], [stingy, default]⟩, ⟨.writeTo {}, [default], []⟩]

theorem lockstep_on_any_pools_oneLetter :
    Same oneLetter oneLetter ∧ Shared.Alike { pools := [] } { pools := [stingy] } ∧
      Lockstep reconsidered False (withCapacity (Traced.start oneLetter) 16 0)
        (withCapacity (Traced.start oneLetter) 16 1) { pools := [] } { pools := [stingy] } :=
  ⟨rfl, rfl, lockstep_on_any_pools (s := oneLetter) rfl 16 0 1 reconsidered rfl⟩

/-- Read a rune, look at the buffer, push the rune back. -/
def reconsider [ByteSource σ] (r : Reader σ) : Act (Except Error Unit) := do
  let (_, r) ← r.readRune
  let (_, r) ← r.fillBuf
  return r.unreadRune.1

/-- Of two pools with blocks of the same size, the one that turns the block away leaves the
rune to be pushed back, and the one that takes the block does not. -/
theorem reconsider_heeds_pool :
    stingy.config.bufferSize = (default : Pool).config.bufferSize ∧
      (∃ sh, reconsider (withCapacity oneLetter 16 0) { pools := [stingy] } = .ok (.ok ()) sh) ∧
      ∃ sh, reconsider (withCapacity oneLetter 16 0) { pools := [default] } =
        .ok (.error .invalidUnreadRune) sh :=
  ⟨rfl, ⟨_, rfl⟩, _, rfl⟩

end Reader

end BufferedStream
