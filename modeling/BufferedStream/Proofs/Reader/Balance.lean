import BufferedStream.Proofs.Reader.Operation

/-!
# The books of errors

An error that arises in a call on the source is surfaced by an operation or
stays latched, and the source is not called again before.  So the books of an
operation balance: what was latched, followed by what arose, is what was
surfaced, followed by what is latched now.

* `Reader.Balanced` — the books of one operation, and how they are continued.
* `Reader.Surfaces` — the errors that an operation surfaces, told from its
  outcome.
* `Reader.Performs.balanced` — the books of every operation balance.
-/

namespace BufferedStream

namespace Reader

/-! ## Balance -/

/-- The books of one operation, which made the calls `ds` and surfaced `es`. -/
structure Balanced (before after : Option Error) (ds : List Draw) (es : List Error) : Prop where
  fault_of_calls : ds ≠ [] → before = none
  quiet : arisen ds.dropLast = []
  balance : before.toList ++ arisen ds = es ++ after.toList

namespace Balanced

variable {before middle after : Option Error} {ds es : List Draw} {xs : List Error}

theorem rest (before : Option Error) : Balanced before before [] [] where
  fault_of_calls h := absurd rfl h
  quiet := rfl
  balance := by simp

/-- To surface the latched error is to let go of it. -/
theorem surface (h : Balanced before after ds []) : Balanced before none ds after.toList where
  fault_of_calls := h.fault_of_calls
  quiet := h.quiet
  balance := by simpa using h.balance

/-- Books are continued, if idle calls are counted afresh. -/
theorem append (h : Balanced before middle ds []) (hrearmed : arisen (ds ++ es) = arisen ds ++ arisen es)
    (hquiet : arisen (ds ++ es.dropLast) = arisen ds ++ arisen es.dropLast)
    (h' : Balanced middle after es xs) : Balanced before after (ds ++ es) xs := by
  have hmiddle : before.toList ++ arisen ds = middle.toList := h.balance
  refine ⟨fun hne => ?_, ?_, ?_⟩
  · by_cases hds : ds = []
    · subst hds
      rw [h'.fault_of_calls hne] at hmiddle
      cases before with
      | none => rfl
      | some e => cases hmiddle
    · exact h.fault_of_calls hds
  · by_cases hes : es = []
    · subst hes
      rw [List.append_nil]
      exact h.quiet
    · rw [h'.fault_of_calls hes] at hmiddle
      rw [List.dropLast_append_of_ne_nil hes, hquiet, h'.quiet, List.append_nil]
      exact (List.append_eq_nil_iff.mp hmiddle).2
  · rw [hrearmed, ← List.append_assoc, hmiddle, h'.balance]

end Balanced

variable {σ : Type} [ByteSource σ] {r r' : Reader σ} {ds : List Draw}

theorem Pulled.balanced (hp : r.Pulled ds r') : Balanced r.fault r'.fault ds [] where
  fault_of_calls := hp.fault_of_calls
  quiet := hp.quiet
  balance := hp.latched.symm

/-- No error latched before, and none that arises, is that of a full buffer. -/
def Foreign (before : Option Error) (ds : List Draw) : Prop :=
  Error.bufferFull ∉ before.toList ++ arisen ds

/-- Errors of another kind are of another kind up to any call. -/
theorem Foreign.front {before : Option Error} {ds es : List Draw}
    (h : Foreign before (ds ++ es)) : Foreign before ds := by
  obtain ⟨idle, hprefix⟩ := arisenAfter_prefix 0 ds es
  intro hmem
  apply h
  rw [arisen, hprefix, ← List.append_assoc]
  exact List.mem_append_left _ hmem

/-- The errors that a passage surfaces: a full buffer is the reader's own affair. -/
def surfacedBy : Option Error → List Error
  | some .bufferFull => []
  | fault => fault.toList

/-- The error of a result, if it is one. -/
def errorOf {α : Type} : Except Error α → List Error
  | .ok _ => []
  | .error e => [e]

theorem surfacedBy_of_ne {fault : Option Error} (h : fault ≠ some .bufferFull) :
    surfacedBy fault = fault.toList := by
  unfold surfacedBy
  split
  · exact absurd rfl h
  · rfl

theorem Pulled.fault_ne (hp : r.Pulled ds r') (hforeign : Foreign r.fault ds) :
    r'.fault ≠ some .bufferFull := by
  intro hfull
  rw [Foreign, ← hp.latched, hfull] at hforeign
  exact hforeign (List.mem_singleton.mpr rfl)

omit [ByteSource σ] in
theorem UnreadsByte.fault_eq {u : Except Error Unit} (hu : r.UnreadsByte u r') :
    r'.fault = r.fault := by
  cases hu <;> rfl

omit [ByteSource σ] in
theorem UnreadsRune.fault_eq {u : Except Error Unit} (hu : r.UnreadsRune u r') :
    r'.fault = r.fault := by
  cases hu <;> rfl

omit [ByteSource σ] in
theorem Consumes.fault_eq {n : Nat} (hc : r.Consumes n r') : r'.fault = r.fault := by
  cases hc with
  | nothing => rfl
  | taken _ hs => exact hs.fault_eq

omit [ByteSource σ] in
theorem Adapts.fault_eq {size : Nat} {pool : PoolId} (ha : r.Adapts size pool r') :
    r'.fault = r.fault := by
  cases ha <;> rfl

/-! ## The books of each operation -/

theorem Peeks.balanced {n : Nat} {p : Passage} (hp : r.Peeks n ds p r')
    (hforeign : Foreign r.fault ds) : Balanced r.fault r'.fault ds (surfacedBy p.fault) := by
  cases hp with
  | tooLarge => exact .rest _
  | seen hp => exact hp.balanced
  | short hp _ _ he =>
    have hne := hp.fault_ne hforeign
    rw [he] at hne
    rw [surfacedBy_of_ne hne, ← he]
    exact hp.balanced.surface

theorem ReadsInto.balanced {room : Room} {g : Reading} (hr : r.ReadsInto room ds g r')
    (hroom : 0 < room.size) :
    Balanced r.fault r'.fault ds g.fault.toList ∧
      (g.fault.toList ≠ [] → r'.window.unread = []) := by
  cases hr with
  | nothing h0 => omega
  | @through g s _ hunread hfault _ _ _ =>
    refine ⟨⟨fun _ => hfault, rfl, ?_⟩, fun _ => ?_⟩
    · rw [arisen_single, hfault]
      split <;> simp
    · split <;> exact hunread
  | delivered _ hp _ _ hs => exact ⟨hs.fault_eq ▸ hp.balanced, fun hne => absurd rfl hne⟩
  | dry _ hp _ hunread hs => exact ⟨hp.balanced.surface, fun _ => hs.unread_eq.trans hunread⟩

theorem ReadsByte.balanced {b : Except Error UInt8} (hr : r.ReadsByte ds b r') :
    Balanced r.fault r'.fault ds (errorOf b) ∧ (errorOf b ≠ [] → r'.window.unread = []) := by
  cases hr with
  | got hp _ _ hs =>
    rw [hs.fault_eq]
    exact ⟨hp.balanced, fun hne => absurd rfl hne⟩
  | failed hp _ hunread he hs =>
    have hbalanced := hp.balanced.surface
    rw [he] at hbalanced
    exact ⟨hbalanced, fun _ => hs.unread_eq.trans hunread⟩

theorem ReadsRune.balanced {c : Except Error (Char × Nat)} (hr : r.ReadsRune ds c r') :
    Balanced r.fault r'.fault ds (errorOf c) ∧ (errorOf c ≠ [] → r'.window.unread = []) := by
  cases hr with
  | got hp => exact ⟨hp.balanced, fun hne => absurd rfl hne⟩
  | failed hp _ hunread he hs =>
    have hbalanced := hp.balanced.surface
    rw [he] at hbalanced
    exact ⟨hbalanced, fun _ => hs.unread_eq.trans hunread⟩

theorem Scans.balanced {delim : UInt8} {p : Passage} (hs : r.Scans delim ds p r')
    (hforeign : Foreign r.fault ds) :
    Balanced r.fault r'.fault ds (surfacedBy p.fault) ∧
      (surfacedBy p.fault ≠ [] → r'.window.unread = []) := by
  cases hs with
  | found hp => exact ⟨hp.balanced, fun hne => absurd rfl hne⟩
  | full hp => exact ⟨hp.balanced, fun _ => rfl⟩
  | ended hp _ he hs =>
    have hne := hp.fault_ne hforeign
    rw [he] at hne
    refine ⟨?_, fun _ => hs.unread_eq⟩
    rw [surfacedBy_of_ne hne, ← he]
    exact hp.balanced.surface

/-- After a scan that stopped at a full buffer, idle calls are counted afresh. -/
theorem Scans.rearmed {delim : UInt8} {p : Passage} (hs : r.Scans delim ds p r')
    (hforeign : Foreign r.fault ds) (hfault : p.fault = some .bufferFull) (es : List Draw) :
    arisen (ds ++ es) = arisen ds ++ arisen es := by
  cases hs with
  | found => cases hfault
  | full hp _ _ hfull =>
    refine hp.rearmed (fun _ => .inr (List.ne_nil_of_length_pos ?_)) es
    exact Nat.lt_of_lt_of_le hp.wf.size_pos hfull
  | ended hp _ he _ =>
    rw [Option.some.inj hfault] at he
    exact absurd he (hp.fault_ne hforeign)

/-- By induction on the scans: only the last of them surfaces an error. -/
theorem Collects.balanced {delim : UInt8} {p : Passage} (hc : r.Collects delim ds p r')
    (hforeign : Foreign r.fault ds) :
    Balanced r.fault r'.fault ds p.fault.toList ∧
      (p.fault.toList ≠ [] → r'.window.unread = []) := by
  induction hc with
  | last hs hfault =>
    have hbalanced := hs.balanced hforeign
    rwa [surfacedBy_of_ne hfault] at hbalanced
  | @more r r₁ r₂ ds es p q hs hfault _ ih =>
    have hrearmed : ∀ fs, arisen (ds ++ fs) = arisen ds ++ arisen fs := fun fs =>
      hs.rearmed (hforeign.front) hfault fs
    have hfirst := (hs.balanced hforeign.front).1
    rw [hfault] at hfirst
    have hlatched : r.fault.toList ++ arisen ds = r₁.fault.toList := hfirst.balance
    have hforeign₁ : Foreign r₁.fault es := by
      rwa [Foreign, ← hlatched, List.append_assoc, ← hrearmed]
    obtain ⟨hrest, hunread⟩ := ih hforeign₁
    exact ⟨hfirst.append (hrearmed es) (hrearmed es.dropLast) hrest, hunread⟩

/-- Only a read that hands out bytes and no error may leave one latched. -/
theorem ReadsInto.lets_go {room : Room} {g : Reading} (hr : r.ReadsInto room ds g r')
    (hroom : 0 < room.size) : r'.fault = none ∨ (0 < g.count ∧ g.fault = none) := by
  cases hr with
  | nothing h0 => omega
  | through _ _ hfault =>
    left
    split <;> exact hfault
  | @delivered _ r₁ _ _ _ _ hne =>
    have hlen := List.length_pos_iff.mpr hne
    refine .inr ⟨?_, rfl⟩
    show 0 < (r₁.window.unread.take room.size).length
    rw [List.length_take]
    omega
  | dry => exact .inl rfl

omit [ByteSource σ] in
/-- What is latched again was just let go of. -/
theorem Balanced.latchAgain {before : Option Error} {fault : Option Error}
    (h : Balanced before r.fault ds fault.toList) (hlets : r.fault = none ∨ fault = none) :
    Balanced before (r.latch fault).fault ds [] where
  fault_of_calls := h.fault_of_calls
  quiet := h.quiet
  balance := by
    rw [h.balance, latch_eq]
    rcases hlets with hnone | rfl
    · cases fault <;> simp [hnone]
    · rfl

/-- A plain read surfaces an error by failing, and the end of the stream by
handing out nothing because of it. -/
def SurfacesPlainly (pending : List Error) : Except IoError Grant → List Error → Prop
  | .ok g, es => es = if g.count = 0 ∧ pending.any Error.isEof = true then [.eof] else []
  | .error cause, es => ∃ e shared, cause = e.toIo shared ∧ es = [e]

theorem ReadsPlain.balanced {room : Room} {g : Except IoError Grant}
    (hg : r.ReadsPlain room ds g r') (hroom : 0 < room.size) :
    ∃ es, SurfacesPlainly (r.fault.toList ++ arisen ds) g es ∧ Balanced r.fault r'.fault ds es ∧
      (es ≠ [] → r'.window.unread = []) := by
  cases hg with
  | delivered hr hcount =>
    have hlets := (hr.lets_go hroom).imp id And.right
    refine ⟨[], ?_, (hr.balanced hroom).1.latchAgain hlets, fun hne => absurd rfl hne⟩
    rw [SurfacesPlainly, if_neg]
    rintro ⟨h0, -⟩
    exact absurd h0 (Nat.ne_of_gt hcount)
  | ended hr hcount hfault =>
    obtain ⟨hbalanced, hunread⟩ := hr.balanced hroom
    refine ⟨_, ?_, hbalanced, hunread⟩
    have hnone := (hr.lets_go hroom).resolve_right fun h => absurd hcount (Nat.ne_of_gt h.1)
    rw [SurfacesPlainly, hbalanced.balance, hnone]
    rcases hfault with hfault | hfault <;> simp [hfault, Error.isEof]
  | @failed g _ e shared hr _ hfault _ =>
    obtain ⟨hbalanced, hunread⟩ := hr.balanced hroom
    rw [hfault] at hbalanced hunread
    exact ⟨[e], ⟨e, shared, rfl, rfl⟩, hbalanced, hunread⟩

/-- Showing the buffer surfaces an error by failing, and the end of the stream by
showing nothing. -/
def SurfacesShown : Except IoError Bytes → List Error → Prop
  | .ok b, es => es = if b = [] then [.eof] else []
  | .error cause, es => ∃ e shared, cause = e.toIo shared ∧ es = [e]

theorem ShowsBuffer.balanced {b : Except IoError Bytes} (hb : r.ShowsBuffer ds b r') :
    ∃ es, SurfacesShown b es ∧ Balanced r.fault r'.fault ds es ∧
      (es ≠ [] → r'.window.unread = []) := by
  cases hb with
  | shown hp _ hne => exact ⟨[], (if_neg hne).symm, hp.balanced, fun h => absurd rfl h⟩
  | ended hp _ hunread hfault hs =>
    have hbalanced := hp.balanced.surface
    rw [hfault] at hbalanced
    exact ⟨[.eof], rfl, hbalanced, fun _ => hs.unread_eq.trans hunread⟩
  | failed shared hp _ hunread hfault _ hs =>
    have hbalanced := hp.balanced.surface
    rw [hfault] at hbalanced
    exact ⟨_, ⟨_, shared, rfl, rfl⟩, hbalanced, fun _ => hs.unread_eq.trans hunread⟩

/-! ## Every operation -/

/-- The errors that an operation surfaces, told from its outcome.  Those `pending`
were latched before or arose in its calls. -/
def Surfaces : Op → Outcome → (pending es : List Error) → Prop
  | .peek _, .passage p, _, es => es = surfacedBy p.fault
  | .read _, .reading g, _, es => es = g.fault.toList
  | .readByte, .byte b, _, es => es = errorOf b
  | .readRune, .rune c, _, es => es = errorOf c
  | .readSlice _, .passage p, _, es => es = surfacedBy p.fault
  | .readBytes _, .passage p, _, es => es = p.fault.toList
  | .readString _, .text t, _, es => es = t.2.toList
  | .plainRead _, .grant g, pending, es => SurfacesPlainly pending g es
  | .fillBuf, .shown b, _, es => SurfacesShown b es
  | .unreadByte, .pushed _, _, es => es = []
  | .unreadRune, .pushed _, _, es => es = []
  | .consume _, .done, _, es => es = []
  | .adapt _ _, .done, _, es => es = []
  | _, _, _, _ => False

/-- The operations that pass on every error: not those on lines, which end a last
line without one, and not reading without room. -/
def Op.IsOpen : Op → Prop
  | .readLine => False
  | .read room => 0 < room.size
  | .plainRead room => 0 < room.size
  | _ => True

/-- Looking ahead keeps what is unread. -/
def Op.IsPeek : Op → Prop
  | .peek _ => True
  | _ => False

/-- **The books of every operation balance**, and to surface an error, other than
by looking ahead, is to leave nothing unread. -/
theorem Performs.balanced {op : Op} {outcome : Outcome} (hp : r.Performs op ds outcome r')
    (hopen : op.IsOpen) (hforeign : Foreign r.fault ds) :
    ∃ es, Surfaces op outcome (r.fault.toList ++ arisen ds) es ∧
      Balanced r.fault r'.fault ds es ∧ (es ≠ [] → ¬ op.IsPeek → r'.window.unread = []) := by
  have hrest : ([] : List Error) ≠ [] → ¬ op.IsPeek → r'.window.unread = [] :=
    fun hne => absurd rfl hne
  cases hp with
  | peek hp => exact ⟨_, rfl, hp.balanced hforeign, fun _ hpeek => absurd trivial hpeek⟩
  | read hr =>
    obtain ⟨hbalanced, hunread⟩ := hr.balanced hopen
    exact ⟨_, rfl, hbalanced, fun hne _ => hunread hne⟩
  | readByte hb =>
    obtain ⟨hbalanced, hunread⟩ := hb.balanced
    exact ⟨_, rfl, hbalanced, fun hne _ => hunread hne⟩
  | unreadByte hu => exact ⟨[], rfl, hu.fault_eq ▸ .rest _, hrest⟩
  | readRune hc =>
    obtain ⟨hbalanced, hunread⟩ := hc.balanced
    exact ⟨_, rfl, hbalanced, fun hne _ => hunread hne⟩
  | unreadRune hu => exact ⟨[], rfl, hu.fault_eq ▸ .rest _, hrest⟩
  | readSlice hs =>
    obtain ⟨hbalanced, hunread⟩ := hs.balanced hforeign
    exact ⟨_, rfl, hbalanced, fun hne _ => hunread hne⟩
  | readLine => exact hopen.elim
  | readBytes hc =>
    obtain ⟨hbalanced, hunread⟩ := hc.balanced hforeign
    exact ⟨_, rfl, hbalanced, fun hne _ => hunread hne⟩
  | readString hc hs =>
    obtain ⟨hbalanced, hunread⟩ := hc.balanced hforeign
    exact ⟨_, rfl, hs.fault_eq ▸ hbalanced, fun hne _ => hs.unread_eq.trans (hunread hne)⟩
  | plainRead hg =>
    obtain ⟨es, hsurfaces, hbalanced, hunread⟩ := hg.balanced hopen
    exact ⟨es, hsurfaces, hbalanced, fun hne _ => hunread hne⟩
  | fillBuf hb =>
    obtain ⟨es, hsurfaces, hbalanced, hunread⟩ := hb.balanced
    exact ⟨es, hsurfaces, hbalanced, fun hne _ => hunread hne⟩
  | consume hc => exact ⟨[], rfl, hc.fault_eq ▸ .rest _, hrest⟩
  | adapt ha => exact ⟨[], rfl, ha.fault_eq ▸ .rest _, hrest⟩

end Reader

end BufferedStream
