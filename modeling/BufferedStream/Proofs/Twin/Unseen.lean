import BufferedStream.Proofs.Twin.Writer

/-!
# Writers in lockstep on different pools

A writer is run twice, over the same sink and through the same operations, on pools
that have nothing to do with each other: before every operation both find their
pools in any state at all, with any blocks in them, as others may have left them.
Nothing shows which pools they were (`Writer.pools_never_show`): the two bring the
same results, make the same calls with the same bytes on their sinks, and stop for
the same reasons.

The size of a buffer is the one thing that is ever asked of a pool, by a writer
that is not told a size.
-/

namespace BufferedStream

namespace Writer

variable {ν κ : Type}

/-! ## One operation -/

/-- The operation draws no source. -/
def Op.IsOwn : Op ν → Prop
  | .readFrom _ => False
  | _ => True

/-- The operations are the same, but for the pools that are named and for what does
not tell the sources apart. -/
inductive Op.Alike [ByteSource ν] [BlindSource ν] : Op ν → Op ν → Prop
  | own {op : Op ν} (h : op.IsOwn) : Alike op op
  | readFrom {s s' : ν} (h : BlindSource.Same s s') : Alike (.readFrom s) (.readFrom s')
  | adapt {size : Nat} {pool pool' : PoolId} : Alike (.adapt size pool) (.adapt size pool')

/-- The same came of an operation, and sources are the same that were drawn. -/
def Outcome.Same [ByteSource ν] [BlindSource ν] : Outcome ν → Outcome ν → Prop
  | .drew r s, .drew r' s' => r = r' ∧ BlindSource.Same s s'
  | o, o' => o = o'

/-- Both have a writer, and these are twins, or both have given it up. -/
inductive Stage.Twin [ByteSink κ] [BlindSink κ] : Stage κ → Stage κ → Prop
  | writing {w t : Writer κ} (h : Writer.Twin w t) : Twin (.writing w) (.writing t)
  | ended {k k' : κ} (h : BlindSink.Same k k') : Twin (.ended k) (.ended k')

section Perform

variable [ByteSource ν] [BlindSource ν] [BulkSink κ] [BlindSink κ] {w t : Writer κ}

/-- The same came of the operation, and twins are left. -/
abbrev InStep (x y : Outcome ν × Stage κ) : Prop := x.1.Same y.1 ∧ x.2.Twin y.2

/-- What came of both may be told in other words. -/
theorem Both.map_agree {α : Type} {m m' : Act (α × Writer κ)} (h : Act.Agree Both m m')
    (f : α → Outcome ν) (hf : ∀ a, (f a).Same (f a)) :
    Act.Agree InStep (do return (← m).map f Stage.writing)
      (do return (← m').map f Stage.writing) := by
  refine h.bind ?_
  rintro ⟨a, w'⟩ ⟨_, t'⟩ ⟨rfl, h'⟩
  exact Act.agree_pure ⟨hf a, .writing h'⟩

theorem perform_own_agree (h : Twin w t) {op : Op ν} (hown : op.IsOwn) :
    Act.Agree InStep (perform op (.writing w)) (perform op (.writing t)) := by
  cases op with
  | write b => exact Both.map_agree (write_agree h b) Outcome.receipt fun _ => rfl
  | writeText s => exact Both.map_agree (write_agree h _) Outcome.receipt fun _ => rfl
  | writeByte b => exact Both.map_agree (writeByte_agree h b) Outcome.byte fun _ => rfl
  | writeRune c => exact Both.map_agree (writeRune_agree h c) Outcome.rune fun _ => rfl
  | readFrom s => exact hown.elim
  | flush => exact Both.map_agree (flush_agree h) Outcome.flushed fun _ => rfl
  | plainWrite b => exact Both.map_agree (plainWrite_agree h b) Outcome.plain fun _ => rfl
  | plainFlush => exact Both.map_agree (plainFlush_agree h) Outcome.plainFlushed fun _ => rfl
  | adapt size pool =>
    refine (adapt_agree h size pool pool).bind fun _ _ h' => ?_
    exact Act.agree_pure ⟨rfl, .writing h'⟩
  | intoSink =>
    refine (intoSink_agree h).bind ?_
    rintro (⟨e, w'⟩ | k) (⟨e', t'⟩ | k') hyields
    · obtain ⟨rfl, h'⟩ := hyields
      exact Act.agree_pure ⟨rfl, .writing h'⟩
    · exact hyields.elim
    · exact hyields.elim
    · exact Act.agree_pure ⟨rfl, .ended hyields⟩

variable [HonestSource (fun _ => True) ν] [BlindIntake κ]

/-- **One operation on twins** brings the same from both and leaves them twins. -/
theorem perform_agree {op op' : Op ν} (hop : op.Alike op') {st st' : Stage κ}
    (h : st.Twin st') : Act.Agree InStep (perform op st) (perform op' st') := by
  cases h with
  | ended hk => exact Act.agree_pure ⟨rfl, .ended hk⟩
  | writing h =>
    cases hop with
    | own hown => exact perform_own_agree h hown
    | @readFrom s s' hs =>
      have htraced : BlindSource.Same (Traced.start s) (Traced.start s') := ⟨hs, rfl, rfl⟩
      refine (readFrom_agree h htraced).bind ?_
      rintro ⟨receipt, w', s₁⟩ ⟨_, t', s₁'⟩ ⟨rfl, h', hs'⟩
      exact Act.agree_pure ⟨⟨rfl, hs'⟩, .writing h'⟩
    | adapt =>
      refine (adapt_agree h _ _ _).bind fun _ _ h' => ?_
      exact Act.agree_pure ⟨rfl, .writing h'⟩

end Perform

/-! ## Runs -/

/-- An operation on two writers, each with its pools as it finds them. -/
structure Scene (ν : Type) [ByteSource ν] [BlindSource ν] where
  op : Op ν
  otherOp : Op ν
  alike : op.Alike otherOp
  pools : List Pool
  otherPools : List Pool

/-- The same is seen from outside: the calls made on the sinks, with every byte that
was offered, and of a writer also what is queued, its size and its error. -/
def Stage.Shows : Stage (Watched κ) → Stage (Watched κ) → Prop
  | .writing w, .writing t =>
    w.sink.calls = t.sink.calls ∧ w.queued = t.queued ∧ w.size = t.size ∧ w.fault = t.fault
  | .ended k, .ended k' => k.calls = k'.calls
  | _, _ => False

/-- Two writers perform the same operations in lockstep: at each both are halted for
the same reason, or the same comes of it, the same is seen of both, and what they
share differs in the pools at most. -/
def Lockstep [ByteSource ν] [BlindSource ν] [BulkSink κ] :
    List (Scene ν) → (st st' : Stage (Watched κ)) → (sh sh' : Shared) → Prop
  | [], _, _, _, _ => True
  | scene :: scenes, st, st', sh, sh' =>
    match perform scene.op st { sh with pools := scene.pools },
      perform scene.otherOp st' { sh' with pools := scene.otherPools } with
    | .ok (outcome, st₁) sh₁, .ok (outcome', st₁') sh₁' =>
      outcome.Same outcome' ∧ st₁.Shows st₁' ∧ sh₁.Alike sh₁' ∧
        Lockstep scenes st₁ st₁' sh₁ sh₁'
    | .error e _, .error e' _ => e = e'
    | _, _ => False

section Run

variable [ByteSource ν] [BlindSource ν] [HonestSource (fun _ => True) ν]
  [BulkSink κ] [BlindSink κ]

theorem Stage.Twin.shows {st st' : Stage (Watched κ)} (h : st.Twin st') : st.Shows st' := by
  cases h with
  | writing h => exact ⟨h.sink.2, h.queued, h.size, h.fault⟩
  | ended hk => exact hk.2

variable [BlindIntake κ]

/-- By induction on the scenes: twins stay twins. -/
theorem Stage.Twin.lockstep (scenes : List (Scene ν)) {st st' : Stage (Watched κ)}
    (h : st.Twin st') {sh sh' : Shared} (hsh : sh.Alike sh') :
    Lockstep scenes st st' sh sh' := by
  induction scenes generalizing st st' sh sh' with
  | nil => trivial
  | cons scene scenes ih =>
    have hpools : Shared.Alike { sh with pools := scene.pools }
      { sh' with pools := scene.otherPools } := hsh
    have hagree := perform_agree scene.alike h _ _ hpools
    rw [Lockstep]
    cases hw : perform scene.op st { sh with pools := scene.pools } with
    | ok x sh₁ =>
      cases ht : perform scene.otherOp st' { sh' with pools := scene.otherPools } with
      | ok y sh₁' =>
        rw [hw, ht] at hagree
        obtain ⟨⟨hsame, h₁⟩, hsh₁⟩ := hagree
        exact ⟨hsame, h₁.shows, hsh₁, ih h₁ hsh₁⟩
      | error e' sh₁' =>
        rw [hw, ht] at hagree
        exact hagree.elim
    | error e sh₁ =>
      cases ht : perform scene.otherOp st' { sh' with pools := scene.otherPools } with
      | ok y sh₁' =>
        rw [hw, ht] at hagree
        exact hagree.elim
      | error e' sh₁' =>
        rw [hw, ht] at hagree
        exact hagree

/-- **The pools never show.**  Whatever their pools, and whatever others do to these in
between, two writers of the same size over the same sink go in lockstep.  They are
of the same size if they are told one, and else if the canonical sizes of their pools
are the same. -/
theorem pools_never_show {k k' : κ} (hk : BlindSink.Same k k') (size : Nat)
    (pool pool' : PoolId) (scenes : List (Scene ν)) {sh sh' : Shared} (hsh : sh.Alike sh')
    (hsize : size = 0 → (sh.pool pool).config.bufferSize = (sh'.pool pool').config.bufferSize) :
    ∃ w t : Writer (Watched κ), withCapacity (Watched.start k) size pool sh = .ok w sh ∧
      withCapacity (Watched.start k') size pool' sh' = .ok t sh' ∧ w.size = t.size ∧
      Lockstep scenes (.writing w) (.writing t) sh sh' := by
  have hcapacity : max (if size = 0 then (sh.pool pool).config.bufferSize else size) 1 =
      max (if size = 0 then (sh'.pool pool').config.bufferSize else size) 1 := by
    by_cases h0 : size = 0
    · rw [if_pos h0, if_pos h0, hsize h0]
    · rw [if_neg h0, if_neg h0]
  refine ⟨_, _, rfl, rfl, hcapacity, Stage.Twin.lockstep scenes (.writing ?_) hsh⟩
  exact ⟨⟨hk, rfl⟩, hcapacity, rfl, rfl, fun _ => rfl⟩

end Run

/-! ## A run over dirty blocks -/

/-- A sink that takes everything twice and three bytes of what comes next. -/
def wearying : Script.TruthfulSink := ⟨{ items := [.all 2, .take 3 none] }, by decide⟩

/-- A stream of seven letters in two pieces. -/
def sevenLetters : Script.Truthful :=
  ⟨{ items := [.piece [0x61, 0x62, 0x63] none, .piece [0x64, 0x65, 0x66, 0x67] (some .eof)] },
    by decide⟩

/-- A pool of blocks that were never cleaned. -/
def littered : Pool where
  config := { bufferSize := 64 }
  idle := [Block.filled 64 0xAA, Block.filled 64 0xBB]

/-- Write a rune, draw seven letters through a buffer of four, move to a buffer of six
and write more than fits, while others meddle with the pools. -/
def meddledWith : List (Scene Script.Truthful) :=
  [⟨.writeRune 'é', .writeRune 'é', .own trivial, [littered], []⟩,
    ⟨.readFrom sevenLetters, .readFrom sevenLetters, .readFrom rfl, [], [littered]⟩,
    ⟨.adapt 6 0, .adapt 6 1, .adapt, [littered], [default, littered]⟩,
    ⟨.writeText "hello, world", .writeText "hello, world", .own trivial, [default], [littered]⟩,
    ⟨.flush, .flush, .own trivial, [], [littered]⟩]

theorem pools_never_show_meddledWith :
    BlindSink.Same wearying wearying ∧ Shared.Alike { pools := [] } { pools := [littered] } ∧
      (4 = 0 → (Shared.pool { pools := [] } 0).config.bufferSize =
        (Shared.pool { pools := [littered] } 0).config.bufferSize) ∧
      ∃ w t : Writer (Watched Script.TruthfulSink),
        withCapacity (Watched.start wearying) 4 0 { pools := [] } = .ok w { pools := [] } ∧
        withCapacity (Watched.start wearying) 4 0 { pools := [littered] } =
          .ok t { pools := [littered] } ∧ w.size = t.size ∧
        Lockstep meddledWith (.writing w) (.writing t) { pools := [] } { pools := [littered] } :=
  ⟨rfl, rfl, nofun, pools_never_show (k := wearying) rfl 4 0 0 meddledWith rfl nofun⟩

end Writer

end BufferedStream
