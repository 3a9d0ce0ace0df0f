import BufferedStream.Stream.Act

/-!
# Reasoning about acts

An act is judged by where it ends.  `Act.Meets halts m sh post` says of the act
`m`, started with the shared data `sh`, that it ends with a result of which
`post` holds, unless it is halted for a reason that `halts` admits.

* With no reason admitted (`Act.Returns`) the act always ends with a result.
* With only a loop that runs out of patience admitted (`Act.Keeps`) the act
  breaks no contract, but a loop without a bound of its own may go on for ever.
* With every reason admitted (`Act.IfEnds`) nothing is said but what holds if the
  act ends with a result.

`Act.meets_bind` takes an act apart at its first step, and the other rules say
what the basic acts do.
-/

namespace BufferedStream

/-- What streams share once the pool at a place has become `p`. -/
def Shared.withPool (sh : Shared) (id : PoolId) (p : Pool) : Shared :=
  { sh with pools := sh.pools.set id p }

namespace Act

variable {α β : Type}

/-- The act, started with `sh`, ends with a result of which `post` holds, or is
halted for a reason that `halts` admits. -/
def Meets (halts : Halt → Prop) (m : Act α) (sh : Shared) (post : α → Shared → Prop) : Prop :=
  match m sh with
  | .ok a sh' => post a sh'
  | .error h _ => halts h

/-- The act always ends with a result of which `post` holds. -/
abbrev Returns (m : Act α) (sh : Shared) (post : α → Shared → Prop) : Prop :=
  Meets (fun _ => False) m sh post

/-- The act ends with a result of which `post` holds, unless a loop without a
bound runs out of patience. -/
abbrev Keeps (m : Act α) (sh : Shared) (post : α → Shared → Prop) : Prop :=
  Meets (· = .exhausted) m sh post

/-- If the act ends with a result, `post` holds of it. -/
abbrev IfEnds (m : Act α) (sh : Shared) (post : α → Shared → Prop) : Prop :=
  Meets (fun _ => True) m sh post

variable {H : Halt → Prop} {sh sh' : Shared} {post : α → Shared → Prop}

/-- What an act meets holds of the result that it ends with. -/
theorem Meets.of_ok {m : Act α} {a : α} (h : Meets H m sh post) (hm : m sh = .ok a sh') :
    post a sh' := by
  unfold Meets at h
  rwa [hm] at h

/-- Of an act whose end is known. -/
theorem meets_of_eq {m : Act α} {a : α} (hm : m sh = .ok a sh') (h : post a sh') :
    Meets H m sh post := by
  unfold Meets
  rwa [hm]

/-- An act that always returns ends with a result. -/
theorem Returns.exists_ok {m : Act α} (h : Returns m sh post) :
    ∃ a sh', m sh = .ok a sh' ∧ post a sh' := by
  unfold Returns Meets at h
  cases hm : m sh with
  | ok a sh' => exact ⟨a, sh', rfl, by rwa [hm] at h⟩
  | error e sh' => rw [hm] at h; exact h.elim

/-- The act, started with `sh`, ends with a result. -/
def ends (m : Act α) (sh : Shared) : Bool :=
  match m sh with
  | .ok _ _ => true
  | .error _ _ => false

/-- What an act meets holds of its result, if it is known to end with one. -/
theorem Meets.exists_of_ends {m : Act α} (h : Meets H m sh post) (hm : m.ends sh = true) :
    ∃ a sh', m sh = .ok a sh' ∧ post a sh' := by
  unfold Meets at h
  unfold ends at hm
  cases hr : m sh with
  | ok a sh' => exact ⟨a, sh', rfl, by rwa [hr] at h⟩
  | error e sh' => rw [hr] at hm; cases hm

/-- The act, started with `sh`, ends with a result of the given kind. -/
def endsIn (kind : α → Prop) [DecidablePred kind] (m : Act α) (sh : Shared) : Bool :=
  match m sh with
  | .ok a _ => decide (kind a)
  | .error _ _ => false

/-- What is known of the result of an act that was tried out. -/
theorem exists_of_endsIn {kind : α → Prop} [DecidablePred kind] {m : Act α}
    (h : m.endsIn kind sh = true) : ∃ a sh', m sh = .ok a sh' ∧ kind a := by
  unfold endsIn at h
  cases hm : m sh with
  | ok a sh' => exact ⟨a, sh', rfl, by rw [hm] at h; exact of_decide_eq_true h⟩
  | error e sh' => rw [hm] at h; cases h

theorem Meets.mono {H' : Halt → Prop} {m : Act α} {post' : α → Shared → Prop}
    (h : Meets H m sh post) (hH : ∀ e, H e → H' e)
    (hpost : ∀ a sh', post a sh' → post' a sh') : Meets H' m sh post' := by
  unfold Meets at h ⊢
  cases hm : m sh with
  | ok a sh' => rw [hm] at h; exact hpost a sh' h
  | error e sh' => rw [hm] at h; exact hH e h

theorem Meets.imp {m : Act α} {post' : α → Shared → Prop} (h : Meets H m sh post)
    (hpost : ∀ a sh', post a sh' → post' a sh') : Meets H m sh post' :=
  h.mono (fun _ he => he) hpost

/-- What holds of the result if there is one holds beside what else is known of it. -/
theorem Meets.and_ifEnds {m : Act α} {post' : α → Shared → Prop} (h : Meets H m sh post)
    (h' : IfEnds m sh post') : Meets H m sh fun a sh' => post a sh' ∧ post' a sh' := by
  unfold IfEnds Meets at *
  cases hm : m sh with
  | ok a sh' => rw [hm] at h h'; exact ⟨h, h'⟩
  | error e sh' => rw [hm] at h; exact h

theorem Meets.and {m : Act α} {post' : α → Shared → Prop} (h : Meets H m sh post)
    (h' : Meets H m sh post') : Meets H m sh fun a sh' => post a sh' ∧ post' a sh' :=
  h.and_ifEnds (h'.mono (fun _ _ => trivial) fun _ _ hpost => hpost)

/-- What an act meets may tell how it ended. -/
theorem Meets.ran {m : Act α} (h : Meets H m sh post) :
    Meets H m sh fun a sh' => m sh = .ok a sh' ∧ post a sh' := by
  unfold Meets at h ⊢
  cases hm : m sh with
  | ok a sh' => rw [hm] at h; exact ⟨rfl, h⟩
  | error e sh' => rw [hm] at h; exact h

/-- Nothing is known of an act that may be halted for any reason. -/
theorem meets_any {m : Act α} : Meets (fun _ => True) m sh fun _ _ => True := by
  unfold Meets
  split
  · trivial
  · trivial

/-! ## Taking acts apart -/

@[simp] theorem meets_pure (a : α) : Meets H (pure a) sh post ↔ post a sh := Iff.rfl

/-- **Acts are judged step by step.**  Two acts in a row meet what the second
meets after every result that the first may end with. -/
@[simp] theorem meets_bind {m : Act α} {f : α → Act β} {post : β → Shared → Prop} :
    Meets H (m >>= f) sh post ↔ Meets H m sh fun a sh' => Meets H (f a) sh' post := by
  unfold Meets
  simp only [bind, EStateM.bind]
  cases m sh <;> rfl

/-- Acts are the same that go on alike after every result of their first step. -/
theorem bind_congr_of_meets {m : Act α} {f g : α → Act β}
    (h : ∀ sh, Meets H m sh fun a _ => f a = g a) : m >>= f = m >>= g := by
  funext sh
  have hm := h sh
  unfold Meets at hm
  simp only [bind, EStateM.bind]
  cases hr : m sh with
  | ok a sh' => rw [hr] at hm; exact congrFun hm sh'
  | error e sh' => rfl

/-! ## The basic acts -/

/-- Nothing is halted where the contract is kept. -/
theorem meets_require {holds : Bool} {b : Breach} {post : Unit → Shared → Prop}
    (h : holds = true) : Meets H (require holds b) sh post ↔ post () sh := by
  simp only [require, h, if_true, meets_pure]

/-- If an act goes on past a contract, it was kept. -/
theorem ifEnds_require {holds : Bool} {b : Breach} {post : Unit → Shared → Prop}
    (h : holds = true → post () sh) : IfEnds (require holds b) sh post := by
  cases holds with
  | false => trivial
  | true => exact h rfl

@[simp] theorem meets_bufferSize {id : PoolId} {post : Nat → Shared → Prop} :
    Meets H (bufferSize id) sh post ↔ post (sh.pool id).config.bufferSize sh := Iff.rfl

@[simp] theorem meets_patience {post : Nat → Shared → Prop} :
    Meets H patience sh post ↔ post sh.patience sh := Iff.rfl

@[simp] theorem meets_isKept {e : Error} {post : Bool → Shared → Prop} :
    Meets H (isKept e) sh post ↔ post (sh.kept.any e.same) sh := Iff.rfl

@[simp] theorem meets_acquire {id : PoolId} {capacity : Nat} {post : Block → Shared → Prop} :
    Meets H (acquire id capacity) sh post ↔
      post ((sh.pool id).acquire capacity).1
        (sh.withPool id ((sh.pool id).acquire capacity).2) := Iff.rfl

@[simp] theorem meets_release {id : PoolId} {b : Block} {post : Option Block → Shared → Prop} :
    Meets H (release id b) sh post ↔
      post ((sh.pool id).release b).1
        (sh.withPool id ((sh.pool id).release b).2) := Iff.rfl

end Act

end BufferedStream
