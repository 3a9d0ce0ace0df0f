import BufferedStream.Proofs.Act
import BufferedStream.Proofs.Pool

/-!
# Acts that check what they touch

Blocks are written down as lists, and a list is taken apart by operations that
are total: a slice that reaches past its end is merely shorter.  To say that no
slice does, an act is compared with a copy of itself that checks every slice,
index and subtraction before it is made, and stops at the first that is out of
range (`Guarded`).  The copy is *safe* (`Guarded.Safe`) if it never stops there,
so that it does exactly what the act does, and if besides the act halts on a broken
contract only at the very call that broke it (`Act.Upholds`).

* `Call.Breaks` — the calls that break the contract, each with the breaches that
  tell of it.
* `Act.Upholds` — every call noted is fair, unless the act is halted by a breach,
  which tells of the last call.
* `Guarded.Safe.bind`, `Guarded.safe_check`, `Guarded.safe_answer` — safety is
  shown step by step.
-/

namespace BufferedStream

/-! ## Calls that break the contract -/

namespace Call

/-- The call reported no more bytes than it was offered. -/
def isFair : Call → Bool
  | read offered count _ => count ≤ offered
  | write offered count _ => count ≤ offered.length
  | input offered (.ok count) => count ≤ offered
  | output offered (.ok count) => count ≤ offered.length
  | _ => true

/-- The breach tells of the call, which reported more bytes than it was offered. -/
inductive Breaks : Call → Breach → Prop
  | read {offered count : Nat} {fault : Option Error} (h : offered < count) :
      Breaks (.read offered count fault) (.sourceOverrun count offered)
  | readBulk {offered count : Nat} {fault : Option Error} (h : offered < count) :
      Breaks (.read offered count fault) .bulkSourceOverrun
  | write {offered : Bytes} {count : Nat} {fault : Option Error} (h : offered.length < count) :
      Breaks (.write offered count fault) (.sinkOverrun count offered.length)
  | writeBulk {offered : Bytes} {count : Nat} {fault : Option Error}
      (h : offered.length < count) : Breaks (.write offered count fault) .bulkSinkOverrun
  | input {offered count : Nat} (h : offered < count) :
      Breaks (.input offered (.ok count)) (.sourceOverrun count offered)
  | inputBulk {offered count : Nat} (h : offered < count) :
      Breaks (.input offered (.ok count)) .bulkSourceOverrun
  /-- A plain output is offered what its earlier calls have left, so the report is of more than the
  last call. -/
  | output {offered : Bytes} {earlier count : Nat} (h : offered.length < count) :
      Breaks (.output offered (.ok count))
        (.sinkOverrun (earlier + count) (earlier + offered.length))
  | outputBulk {offered : Bytes} {count : Nat} (h : offered.length < count) :
      Breaks (.output offered (.ok count)) .bulkSinkOverrun

theorem Breaks.not_fair {c : Call} {b : Breach} (h : c.Breaks b) : c.isFair = false := by
  cases h <;> exact decide_eq_false (Nat.not_le.mpr ‹_›)

end Call

namespace Shared

variable {sh sh₁ sh' : Shared} {b : Breach}

/-- Every pool is well-formed. -/
def Tidy (sh : Shared) : Prop := ∀ id, (sh.pool id).WF

/-- From the one state to the other calls were noted, all of them fair. -/
def Fair (sh sh' : Shared) : Prop :=
  ∃ calls : List Call, sh'.journal.toList = sh.journal.toList ++ calls ∧
    ∀ c ∈ calls, c.isFair = true

/-- From the one state to the other fair calls were noted, and then one of which
the breach tells. -/
def Broken (sh : Shared) (b : Breach) (sh' : Shared) : Prop :=
  ∃ (calls : List Call) (last : Call),
    sh'.journal.toList = sh.journal.toList ++ (calls ++ [last]) ∧
      (∀ c ∈ calls, c.isFair = true) ∧ last.Breaks b

/-- The breach does not tell of a fair call. -/
theorem Broken.not_fair (h : sh.Broken b sh') : ¬ sh.Fair sh' := by
  rintro ⟨calls, hj, hfair⟩
  obtain ⟨calls', last, hj', -, hlast⟩ := h
  obtain rfl : calls = calls' ++ [last] := List.append_cancel_left (hj.symm.trans hj')
  have hlastFair := hfair last (List.mem_append_right _ List.mem_cons_self)
  rw [hlast.not_fair] at hlastFair
  cases hlastFair

/-- Fair calls were noted before a halt; a breach tells of one more, the last of all. -/
def Halted (sh : Shared) : Halt → Shared → Prop
  | .breach b, sh' => sh.Broken b sh'
  | .exhausted, sh' => sh.Fair sh'

/-- New pools are well-formed, whatever they are told. -/
theorem tidy_create (configs : List PoolConfig) :
    Tidy { pools := configs.map Pool.create } := by
  intro id
  rw [pool, List.getD_eq_getElem?_getD, List.getElem?_map]
  cases configs[id]? with
  | none => exact Pool.WF.create {}
  | some config => exact Pool.WF.create config

theorem Tidy.of_pools (h : sh.Tidy) (hpools : sh'.pools = sh.pools) : sh'.Tidy := by
  intro id
  rw [pool, hpools]
  exact h id

theorem Tidy.withPool (h : sh.Tidy) (id : PoolId) {p : Pool} (hp : p.WF) :
    (sh.withPool id p).Tidy := by
  intro other
  have hother := h other
  unfold pool Shared.withPool at *
  rw [List.getD_eq_getElem?_getD, List.getElem?_set]
  split
  · split
    · exact hp
    · exact Pool.WF.create {}
  · rwa [List.getD_eq_getElem?_getD] at hother

theorem Fair.of_journal (h : sh'.journal = sh.journal) : sh.Fair sh' :=
  ⟨[], by rw [h, List.append_nil], fun _ hc => nomatch hc⟩

theorem Fair.refl (sh : Shared) : sh.Fair sh := .of_journal rfl

theorem Fair.trans (h : sh.Fair sh₁) (h' : sh₁.Fair sh') : sh.Fair sh' := by
  obtain ⟨calls, hj, hc⟩ := h
  obtain ⟨calls', hj', hc'⟩ := h'
  refine ⟨calls ++ calls', by rw [hj', hj, List.append_assoc], ?_⟩
  intro c hmem
  exact (List.mem_append.mp hmem).elim (hc c) (hc' c)

theorem Fair.broken (h : sh.Fair sh₁) (h' : sh₁.Broken b sh') : sh.Broken b sh' := by
  obtain ⟨calls, hj, hc⟩ := h
  obtain ⟨calls', last, hj', hc', hlast⟩ := h'
  refine ⟨calls ++ calls', last, by rw [hj', hj, List.append_assoc, List.append_assoc], ?_, hlast⟩
  intro c hmem
  exact (List.mem_append.mp hmem).elim (hc c) (hc' c)

/-- Whoever answers for later calls answers for earlier fair ones too. -/
theorem Fair.answers {fair : Prop} {tells : Breach → Prop} (h : sh.Fair sh₁)
    (h' : fair ∧ sh₁.Fair sh' ∨ ¬ fair ∧ ∀ b, tells b → sh₁.Broken b sh') :
    fair ∧ sh.Fair sh' ∨ ¬ fair ∧ ∀ b, tells b → sh.Broken b sh' := by
  rcases h' with ⟨hfair, hcalls⟩ | ⟨hfair, hbroken⟩
  · exact .inl ⟨hfair, h.trans hcalls⟩
  · exact .inr ⟨hfair, fun b hb => h.broken (hbroken b hb)⟩

theorem Fair.halted {e : Halt} (h : sh.Fair sh₁) (h' : sh₁.Halted e sh') : sh.Halted e sh' := by
  cases e with
  | breach b => exact h.broken h'
  | exhausted => exact h.trans h'

end Shared

/-! ## Acts that uphold the contract -/

namespace Act

variable {α β : Type} {m : Act α} {post mid : α → Prop}

/-- The act, started with `sh₁`, ends with a result that is `fine` and leaves the
shared data tidy, or is halted; the calls are counted since `sh`. -/
def EndsSince (sh sh₁ : Shared) (m : Act α) (fine : α → Shared → Prop) : Prop :=
  match m sh₁ with
  | .ok a sh' => sh'.Tidy ∧ fine a sh'
  | .error e sh' => sh.Halted e sh'

/-- The act halts on a broken contract at the call that broke it; if it ends with a
result then no call broke it, and `post` holds of the result. -/
def Upholds (m : Act α) (post : α → Prop) : Prop :=
  ∀ sh : Shared, sh.Tidy → EndsSince sh sh m fun a sh' => sh.Fair sh' ∧ post a

/-- The act upholds the contract, but for what its own result reports: unless that
is `fair`, the last call broke the contract, and every breach in `tells` tells of it. -/
def Answers (m : Act α) (fair : α → Prop) (tells : α → Breach → Prop) (post : α → Prop) : Prop :=
  ∀ sh : Shared, sh.Tidy → EndsSince sh sh m fun a sh' =>
    post a ∧ (fair a ∧ sh.Fair sh' ∨ ¬ fair a ∧ ∀ b, tells a b → sh.Broken b sh')

theorem EndsSince.imp {sh sh₁ : Shared} {fine fine' : α → Shared → Prop}
    (h : EndsSince sh sh₁ m fine) (hfine : ∀ a sh', fine a sh' → fine' a sh') :
    EndsSince sh sh₁ m fine' := by
  unfold EndsSince at *
  revert h
  cases m sh₁ with
  | ok a sh' => exact And.imp_right (hfine a sh')
  | error e sh' => exact id

/-- Fair calls before the start of an act count with those that it makes. -/
theorem EndsSince.earlier {sh sh₁ : Shared} {fine : α → Shared → Prop}
    (h : EndsSince sh₁ sh₁ m fine) (hcalls : sh.Fair sh₁) : EndsSince sh sh₁ m fine := by
  unfold EndsSince at *
  revert h
  cases m sh₁ with
  | ok a sh' => exact id
  | error e sh' => exact hcalls.halted

/-- What follows upon a result goes on from there. -/
theorem EndsSince.bind {f : α → Act β} {sh sh₁ : Shared} {fine : α → Shared → Prop}
    {fine' : β → Shared → Prop} (h : EndsSince sh sh₁ m fine)
    (hf : ∀ a sh₂, sh₂.Tidy → fine a sh₂ → EndsSince sh sh₂ (f a) fine') :
    EndsSince sh sh₁ (m >>= f) fine' := by
  unfold EndsSince at *
  simp only [Bind.bind, EStateM.bind]
  revert h
  cases m sh₁ with
  | ok a sh₂ => exact fun ⟨htidy, hfine⟩ => hf a sh₂ htidy hfine
  | error e sh₂ => exact id

theorem Upholds.imp {post' : α → Prop} (h : m.Upholds post) (hpost : ∀ a, post a → post' a) :
    m.Upholds post' :=
  fun sh hsh => (h sh hsh).imp fun a _ => And.imp_right (hpost a)

/-- An act that upholds the contract answers for its result as well. -/
theorem Upholds.answers {fair : α → Prop} {tells : α → Breach → Prop}
    (h : m.Upholds fun a => fair a ∧ post a) : m.Answers fair tells post :=
  fun sh hsh => (h sh hsh).imp fun _ _ ⟨hcalls, hfair, hpost⟩ => ⟨hpost, .inl ⟨hfair, hcalls⟩⟩

/-- What is known of the result that an act ends with. -/
theorem Upholds.of_ok {sh sh' : Shared} {a : α} (h : m.Upholds post) (hsh : sh.Tidy)
    (hrun : m sh = .ok a sh') : sh'.Tidy ∧ sh.Fair sh' ∧ post a := by
  have hends := h sh hsh
  rwa [EndsSince, hrun] at hends

/-- What is known of the halt that an act is brought to. -/
theorem Upholds.of_error {sh sh' : Shared} {e : Halt} (h : m.Upholds post) (hsh : sh.Tidy)
    (hrun : m sh = .error e sh') : sh.Halted e sh' := by
  have hends := h sh hsh
  rwa [EndsSince, hrun] at hends

theorem upholds_pure {a : α} (h : post a) : Upholds (pure a) post :=
  fun sh hsh => ⟨hsh, .refl sh, h⟩

theorem upholds_exhausted : Upholds (throw .exhausted : Act α) post := fun sh _ => .refl sh

/-- **Acts uphold the contract step by step.** -/
theorem Upholds.bind {f : α → Act β} {post : β → Prop} (h : m.Upholds mid)
    (hf : ∀ a, mid a → (f a).Upholds post) : (m >>= f).Upholds post := by
  intro sh hsh
  refine (h sh hsh).bind fun a sh₁ htidy ⟨hcalls, ha⟩ => ?_
  exact ((hf a ha sh₁ htidy).earlier hcalls).imp fun _ _ => And.imp_left hcalls.trans

/-- What answers for its result may come after what upholds the contract. -/
theorem Upholds.bind_answers {f : α → Act β} {fair : β → Prop} {tells : β → Breach → Prop}
    {post : β → Prop} (h : m.Upholds mid) (hf : ∀ a, mid a → (f a).Answers fair tells post) :
    (m >>= f).Answers fair tells post := by
  intro sh hsh
  refine (h sh hsh).bind fun a sh₁ htidy ⟨hcalls, ha⟩ => ?_
  exact ((hf a ha sh₁ htidy).earlier hcalls).imp fun _ _ => And.imp_right hcalls.answers

section Answers

variable {fair : α → Prop} {tells : α → Breach → Prop} {f : α → Act β} {post : β → Prop}

/-- An answer that is not fair must be turned down at once. -/
theorem Answers.bind (h : m.Answers fair tells mid)
    (hfair : ∀ a, fair a → mid a → (f a).Upholds post)
    (hover : ∀ a, ¬ fair a → ∃ b, tells a b ∧ f a = throw (.breach b)) :
    (m >>= f).Upholds post := by
  intro sh hsh
  refine (h sh hsh).bind fun a sh₁ htidy ⟨ha, hcalls⟩ => ?_
  rcases hcalls with ⟨hfa, hcalls⟩ | ⟨hfa, hbroken⟩
  · exact ((hfair a hfa ha sh₁ htidy).earlier hcalls).imp fun _ _ => And.imp_left hcalls.trans
  · obtain ⟨b, htells, hthrow⟩ := hover a hfa
    rw [hthrow]
    exact hbroken b htells

/-- An answer that is not fair may be passed on at once, as one that is not fair. -/
theorem Answers.bind_answers {fair' : β → Prop} {tells' : β → Breach → Prop}
    (h : m.Answers fair tells mid)
    (hfair : ∀ a, fair a → mid a → (f a).Answers fair' tells' post)
    (hover : ∀ a, ¬ fair a → mid a → ∃ c, f a = pure c ∧ post c ∧ ¬ fair' c ∧
      ∀ b, tells' c b → tells a b) : (m >>= f).Answers fair' tells' post := by
  intro sh hsh
  refine (h sh hsh).bind fun a sh₁ htidy ⟨ha, hcalls⟩ => ?_
  rcases hcalls with ⟨hfa, hcalls⟩ | ⟨hfa, hbroken⟩
  · exact ((hfair a hfa ha sh₁ htidy).earlier hcalls).imp fun _ _ => And.imp_right hcalls.answers
  · obtain ⟨c, hpure, hc, hfc, htells⟩ := hover a hfa ha
    rw [hpure]
    exact ⟨htidy, hc, .inr ⟨hfc, fun b hb => hbroken b (htells b hb)⟩⟩

end Answers

theorem Upholds.ite {c : Prop} [Decidable c] {m₁ m₂ : Act α} (h₁ : c → m₁.Upholds post)
    (h₂ : ¬ c → m₂.Upholds post) : (if c then m₁ else m₂).Upholds post := by
  by_cases h : c
  · rw [if_pos h]
    exact h₁ h
  · rw [if_neg h]
    exact h₂ h

/-! ## The basic acts -/

/-- What is required and does not hold halts the act. -/
theorem require_bind_of_not {p : Prop} [Decidable p] (h : ¬ p) (b : Breach) (f : Unit → Act α) :
    require (decide p) b >>= f = throw (.breach b) := by
  rw [decide_eq_false h]
  rfl

theorem upholds_require {p : Prop} [Decidable p] (h : p) (b : Breach) :
    (require (decide p) b).Upholds fun _ => True := by
  rw [decide_eq_true h]
  exact upholds_pure trivial

theorem upholds_patience : patience.Upholds fun _ => True :=
  fun sh hsh => ⟨hsh, .refl sh, trivial⟩

theorem upholds_freshId : freshId.Upholds fun _ => True :=
  fun _ hsh => ⟨hsh.of_pools rfl, .of_journal rfl, trivial⟩

theorem upholds_isKept (e : Error) : (isKept e).Upholds fun _ => True :=
  fun sh hsh => ⟨hsh, .refl sh, trivial⟩

theorem upholds_bufferSize (id : PoolId) : (bufferSize id).Upholds fun _ => True :=
  fun sh hsh => ⟨hsh, .refl sh, trivial⟩

/-- A pool hands out no less than it is asked for. -/
theorem upholds_acquire (id : PoolId) (capacity : Nat) :
    (acquire id capacity).Upholds fun b => capacity ≤ b.length := by
  intro sh hsh
  refine ⟨hsh.withPool id ((hsh id).acquire capacity), .of_journal rfl, ?_⟩
  show capacity ≤ ((sh.pool id).acquire capacity).1.length
  rw [(hsh id).length_acquire, PoolConfig.granted]
  split <;> omega

theorem upholds_release (id : PoolId) (b : Block) : (release id b).Upholds fun _ => True :=
  fun _ hsh => ⟨hsh.withPool id ((hsh id).release b), .of_journal rfl, trivial⟩

/-- A fair call may be noted at any time. -/
theorem upholds_note {c : Call} (h : c.isFair = true) : (note c).Upholds fun _ => True := by
  refine fun sh hsh => ⟨hsh.of_pools rfl, ⟨[c], Array.toList_push, ?_⟩, trivial⟩
  intro c' hc'
  rwa [List.mem_singleton.mp hc']

/-- Whoever notes its call answers for what it reports. -/
theorem answers_note {c : Call} {a : α} {fair : α → Prop} {tells : α → Breach → Prop}
    (ha : post a) (hfair : fair a → c.isFair = true)
    (hover : ¬ fair a → ∀ b, tells a b → c.Breaks b) :
    Answers (do note c; return a) fair tells post := by
  by_cases hfa : fair a
  · exact ((upholds_note (hfair hfa)).bind fun _ _ => upholds_pure ⟨hfa, ha⟩).answers
  · refine fun sh hsh => ⟨hsh.of_pools rfl, ha, .inr ⟨hfa, fun b hb => ?_⟩⟩
    exact ⟨[], c, Array.toList_push, fun _ hc => (nomatch hc), hover hfa b hb⟩

end Act

/-! ## Guarded acts -/

/-- Why a guarded act stops. -/
inductive Stop where
  /-- The act itself was halted. -/
  | halted (h : Halt)
  /-- A slice, an index or a subtraction is out of range. -/
  | outOfRange
  deriving DecidableEq, Repr

/-- An act that checks what it touches. -/
abbrev Guarded := EStateM Stop Shared

namespace Guarded

variable {α β : Type} {g : Guarded α} {m : Act α} {post mid : α → Prop}

/-- An act with nothing to check. -/
def of (m : Act α) : Guarded α := fun sh =>
  match m sh with
  | .ok a sh' => .ok a sh'
  | .error h sh' => .error (.halted h) sh'

/-- Stop unless the condition holds. -/
def check (p : Prop) [Decidable p] : Guarded Unit :=
  if p then pure () else throw .outOfRange

/-- Started with tidy shared data, the guarded act finds nothing out of range and
does what the act does, which upholds the contract. -/
structure Safe (g : Guarded α) (m : Act α) (post : α → Prop) : Prop where
  eq_of : ∀ sh : Shared, sh.Tidy → g sh = of m sh
  upholds : m.Upholds post

theorem safe_of (h : m.Upholds post) : Safe (of m) m post := ⟨fun _ _ => rfl, h⟩

theorem safe_pure {a : α} (h : post a) : Safe (pure a) (pure a) post :=
  ⟨fun _ _ => rfl, Act.upholds_pure h⟩

theorem Safe.imp {post' : α → Prop} (h : Safe g m post) (hpost : ∀ a, post a → post' a) :
    Safe g m post' :=
  ⟨h.eq_of, h.upholds.imp hpost⟩

/-- **Guarded acts are safe step by step.** -/
theorem Safe.bind {gf : α → Guarded β} {f : α → Act β} {post : β → Prop} (h : Safe g m mid)
    (hf : ∀ a, mid a → Safe (gf a) (f a) post) : Safe (g >>= gf) (m >>= f) post := by
  refine ⟨fun sh hsh => ?_, h.upholds.bind fun a ha => (hf a ha).upholds⟩
  have hm := h.upholds sh hsh
  unfold Act.EndsSince at hm
  simp only [Bind.bind, EStateM.bind, of, h.eq_of sh hsh]
  revert hm
  cases m sh with
  | ok a sh₁ => exact fun ⟨htidy, _, ha⟩ => (hf a ha).eq_of sh₁ htidy
  | error e sh₁ => exact fun _ => rfl

theorem check_eq {p : Prop} [Decidable p] (hp : p) : check p = pure () := if_pos hp

/-- A check that succeeds changes nothing. -/
theorem safe_check {p : Prop} [Decidable p] {gf : Unit → Guarded α} (hp : p)
    (h : Safe (gf ()) m post) : Safe (check p >>= gf) m post := by
  refine ⟨fun sh hsh => ?_, h.upholds⟩
  rw [check_eq hp]
  exact h.eq_of sh hsh

/-- An answer that is not fair must be turned down at once, with and without checks. -/
theorem safe_answer {fair : α → Prop} {tells : α → Breach → Prop} {gf : α → Guarded β}
    {f : α → Act β} {post : β → Prop} (h : m.Answers fair tells mid)
    (hfair : ∀ a, fair a → mid a → Safe (gf a) (f a) post)
    (hover : ∀ a, ¬ fair a → ∃ b, tells a b ∧ gf a = throw (.halted (.breach b)) ∧
      f a = throw (.breach b)) : Safe (of m >>= gf) (m >>= f) post := by
  refine ⟨fun sh hsh => ?_, h.bind (fun a hfa ha => (hfair a hfa ha).upholds) fun a hfa => ?_⟩
  · have hm := h sh hsh
    unfold Act.EndsSince at hm
    simp only [Bind.bind, EStateM.bind, of]
    revert hm
    cases m sh with
    | ok a sh₁ =>
      rintro ⟨htidy, ha, ⟨hfa, -⟩ | ⟨hfa, -⟩⟩
      · exact (hfair a hfa ha).eq_of sh₁ htidy
      · obtain ⟨b, -, hstop, hthrow⟩ := hover a hfa
        dsimp only
        rw [hstop, hthrow]
        rfl
    | error e sh₁ => exact fun _ => rfl
  · obtain ⟨b, htells, -, hthrow⟩ := hover a hfa
    exact ⟨b, htells, hthrow⟩

theorem require_bind_of_not {p : Prop} [Decidable p] (h : ¬ p) (b : Breach)
    (gf : Unit → Guarded α) :
    of (Act.require (decide p) b) >>= gf = throw (.halted (.breach b)) := by
  rw [decide_eq_false h]
  rfl

theorem Safe.ite {c : Prop} [Decidable c] {g₁ g₂ : Guarded α} {m₁ m₂ : Act α}
    (h₁ : c → Safe g₁ m₁ post) (h₂ : ¬ c → Safe g₂ m₂ post) :
    Safe (if c then g₁ else g₂) (if c then m₁ else m₂) post := by
  by_cases h : c
  · rw [if_pos h, if_pos h]
    exact h₁ h
  · rw [if_neg h, if_neg h]
    exact h₂ h

end Guarded

end BufferedStream
