import BufferedStream.Proofs.Reader.Emptying
import BufferedStream.Proofs.Script

/-!
# Pushing back the last byte read

An operation that reads takes some bytes from the stream.  Afterwards the last of them can
be pushed back, once: it is remembered, and it stands right behind the unread bytes unless
nothing is unread (`Reader.Returnable`).

The one exception is a record collected in pieces.  Every piece is noted by itself, so if
the last comes empty, because an error came right behind a full buffer, then nothing is
left to be pushed back although the record is not empty (`Reader.Op.EndsEmpty`).

* `Reader.Performs.takes` — what every operation but these takes, and that it can be
  pushed back.
* `Reader.readBytesRounds_takes` — the same for a record collected in pieces.
* `Reader.unreadByte_after_reading` — pushing back, reading again and pushing back twice.
-/

namespace BufferedStream

open History (draws)

namespace Reader

variable {σ : Type}

/-! ## Bytes that can be pushed back -/

/-- The last of the bytes `b` is remembered, and stands behind the unread bytes unless
nothing is unread. -/
structure Returnable (r : Reader σ) (b : Bytes) : Prop where
  lastByte : r.lastByte = b.getLast?
  past : r.window.unread = [] ∨ r.window.past.head? = b.getLast?

variable {r r' r₁ : Reader σ} {b : Bytes}

theorem Returnable.settles (h : r.Returnable b) (hs : r.Settles r') : r'.Returnable b := by
  refine ⟨hs.lastByte_eq.trans h.lastByte, ?_⟩
  cases hs with
  | keeps => exact h.past
  | returns => exact .inl rfl

theorem returnable_noteDelivered
    (h : r.window.unread = [] ∨ r.window.past.head? = b.getLast?) :
    (r.noteDelivered b).Returnable b :=
  ⟨rfl, h⟩

/-- What was handed out last stands at the head of the past. -/
theorem head?_past_append (hne : b ≠ []) (past : Bytes) :
    (b.reverse ++ past).head? = b.getLast? := by
  rw [List.head?_append, List.head?_reverse, List.getLast?_eq_some_getLast hne, Option.some_or]

theorem returnable_delivering {n : Nat} (hne : r.window.unread.take n ≠ []) :
    (r.delivering n).Returnable (r.window.unread.take n) :=
  ⟨rfl, .inr (head?_past_append hne _)⟩

/-! ## What an operation takes -/

section Takes

variable [ByteSource σ] {ds es : List Draw}

/-- The operation made the calls `ds` and took the bytes `b` from the stream. -/
structure Takes (r : Reader σ) (ds : List Draw) (b : Bytes) (r' : Reader σ) : Prop where
  calls : Calls r.source ds r'.source
  split : r.window.unread ++ drawn ds = b ++ r'.window.unread

theorem Takes.trans {c : Bytes} (h : r.Takes ds b r₁) (h' : r₁.Takes es c r') :
    r.Takes (ds ++ es) (b ++ c) r' where
  calls := h.calls.append h'.calls
  split := by rw [drawn_append, ← List.append_assoc, h.split, List.append_assoc, h'.split,
    List.append_assoc]

/-- Only the source and what is unread matter. -/
theorem Takes.congr (h : r.Takes ds b r₁) (hsource : r'.source = r₁.source)
    (hunread : r'.window.unread = r₁.window.unread) : r.Takes ds b r' where
  calls := hsource ▸ h.calls
  split := hunread ▸ h.split

theorem Takes.settles (h : r.Takes ds b r₁) (hs : r₁.Settles r') : r.Takes ds b r' :=
  h.congr hs.source_eq hs.unread_eq

theorem Extended.takes (he : r.Extended ds r₁) : r.Takes ds [] r₁ :=
  ⟨he.calls, he.unread.symm⟩

theorem takes_nothing (r : Reader σ) : r.Takes [] [] r := ⟨.nil _, List.append_nil _⟩

theorem takes_delivering (n : Nat) : r.Takes [] (r.window.unread.take n) (r.delivering n) where
  calls := .nil _
  split := by
    rw [drawn_nil, List.append_nil]
    exact (List.take_append_drop ..).symm

/-- The operation took some bytes, and the last of them can be pushed back. -/
def Gives (r : Reader σ) (ds : List Draw) (r' : Reader σ) : Prop :=
  ∃ b, r.Takes ds b r' ∧ (b ≠ [] → r'.Returnable b)

theorem Takes.gives_nothing (h : r.Takes ds [] r₁) (hsource : r'.source = r₁.source)
    (hunread : r'.window.unread = r₁.window.unread) : r.Gives ds r' :=
  ⟨[], h.congr hsource hunread, fun hne => absurd rfl hne⟩

/-- Which rune was read last does not matter. -/
theorem Gives.of_forgetRune (h : Gives { r with lastRune := none } ds r') : r.Gives ds r' := by
  obtain ⟨b, htakes, hreturnable⟩ := h
  exact ⟨b, ⟨htakes.calls, htakes.split⟩, hreturnable⟩

theorem Pulled.gives {n : Nat} (hp : r.Pulled ds r₁) (hs : (r₁.delivering n).Settles r') :
    r.Gives ds r' := by
  refine ⟨r₁.window.unread.take n, ?_, fun hne => (returnable_delivering hne).settles hs⟩
  have htakes := (hp.takes.trans (takes_delivering n)).settles hs
  rwa [List.append_nil] at htakes

/-! ## Bytes and runes -/

theorem ReadsInto.gives {room : Room} {g : Reading} (hr : r.ReadsInto room ds g r') :
    r.Gives ds r' := by
  cases hr with
  | nothing => exact (takes_nothing r).gives_nothing rfl rfl
  | @through g s _ hunread _ _ hreads hcount =>
    split
    · rename_i h0
      have hnil : g.data = [] := List.eq_nil_of_length_eq_zero (hcount ▸ h0)
      refine ⟨[], ⟨.single hreads, ?_⟩, fun hne => absurd rfl hne⟩
      simp [hnil]
    · refine ⟨g.data, ⟨.single hreads, ?_⟩, fun _ => ⟨rfl, .inl hunread⟩⟩
      simp [hunread]
  | delivered _ hp _ _ hs => exact hp.gives hs
  | dry _ hp _ _ hs => exact hp.takes.gives_nothing hs.source_eq hs.unread_eq

theorem ReadsPlain.gives {room : Room} {g : Except IoError Grant}
    (hg : r.ReadsPlain room ds g r') : r.Gives ds r' := by
  cases hg with
  | delivered hr =>
    obtain ⟨b, htakes, hreturnable⟩ := hr.gives
    rw [latch_eq]
    exact ⟨b, htakes.congr rfl rfl, fun hne => ⟨(hreturnable hne).1, (hreturnable hne).2⟩⟩
  | ended hr => exact hr.gives
  | failed _ hr => exact hr.gives

theorem ReadsByte.gives {x : Except Error UInt8} (hr : r.ReadsByte ds x r') : r.Gives ds r' := by
  cases hr with
  | got hp _ _ hs => exact (hp.gives hs).of_forgetRune
  | failed hp _ _ _ hs =>
    exact Gives.of_forgetRune (hp.takes.gives_nothing hs.source_eq hs.unread_eq)

theorem ReadsRune.gives {c : Except Error (Char × Nat)} (hr : r.ReadsRune ds c r') :
    r.Gives ds r' := by
  cases hr with
  | @got r₁ hp _ _ _ =>
    have htakes := hp.takes.trans (takes_delivering (Rune.decode r₁.window.unread).2)
    rw [List.append_nil] at htakes
    refine ⟨_, htakes.congr rfl rfl, fun hne => ?_⟩
    have hhead := head?_past_append hne r₁.window.past
    exact ⟨hhead, .inr hhead⟩
  | failed hp _ _ _ hs => exact hp.takes.gives_nothing hs.source_eq hs.unread_eq

theorem Consumes.gives {n : Nat} (hc : r.Consumes n r') : r.Gives [] r' := by
  cases hc with
  | nothing => exact (takes_nothing r).gives_nothing rfl rfl
  | taken h hs =>
    exact ⟨_, (takes_delivering n).settles hs, fun _ => (returnable_delivering h).settles hs⟩

/-! ## Records -/

/-- A scan takes its passage, whose last byte stands behind the unread bytes unless nothing
is unread. -/
theorem Scans.takes {delim : UInt8} {p : Passage} (hs : r.Scans delim ds p r') :
    r.Takes ds p.bytes r' ∧ (p.bytes ≠ [] →
      r'.window.unread = [] ∨ r'.window.past.head? = p.bytes.getLast?) := by
  cases hs with
  | @found r₁ i hp _ _ =>
    have htakes := hp.takes.trans (takes_delivering (i + 1))
    rw [List.append_nil] at htakes
    exact ⟨htakes.congr rfl rfl, fun hne => .inr (head?_past_append hne _)⟩
  | full hp =>
    refine ⟨⟨hp.calls, ?_⟩, fun _ => .inl rfl⟩
    rw [← hp.unread]
    exact (List.append_nil _).symm
  | @ended r₁ r₂ e hp _ _ hs _ =>
    refine ⟨⟨hs.source_eq ▸ hp.calls, ?_⟩, fun _ => .inl hs.unread_eq⟩
    show _ = _ ++ r₂.window.unread
    rw [hs.unread_eq, ← hp.unread]
    exact (List.append_nil _).symm

theorem ReadsLine.gives {l : Except Error (Bytes × Bool)} (hl : r.ReadsLine ds l r') :
    r.Gives ds r' := by
  cases hl with
  | @piece p r₁ r₂ b hs hfault hb =>
    obtain ⟨hbytes, later, hpast⟩ := hs.holdBack hfault hb
    have hsplit := hs.takes.1.split
    rw [(hs.past_of_full hfault).1, List.append_nil, hbytes] at hsplit
    have hsource : r₂.source = r₁.source := by
      rcases holdBackReturn_eq hb with ⟨-, rfl⟩ | ⟨-, rfl⟩ <;> rfl
    refine ⟨b, ⟨hsource ▸ hs.calls, hsplit⟩, fun hne => returnable_noteDelivered (.inr ?_)⟩
    rw [← hpast]
    exact head?_past_append hne later
  | line hs _ hne =>
    obtain ⟨htakes, hlast⟩ := hs.takes
    exact ⟨_, htakes.congr rfl rfl, fun _ => returnable_noteDelivered (hlast hne)⟩
  | failed hs => exact hs.takes.1.gives_nothing rfl rfl

/-! ## Records collected in pieces -/

/-- Slices are read from the reader, one after the other; this is the first that is not
all of a full buffer. -/
inductive LastPiece (delim : UInt8) : Reader σ → Shared → Passage → Prop
  | here {r r' : Reader σ} {sh sh' : Shared} {p : Passage}
      (hslice : r.readSlice delim sh = .ok (p, r') sh') (hfault : p.fault ≠ some .bufferFull) :
      LastPiece delim r sh p
  | later {r r' : Reader σ} {sh sh' : Shared} {p q : Passage}
      (hslice : r.readSlice delim sh = .ok (p, r') sh') (hfull : p.fault = some .bufferFull)
      (hrest : LastPiece delim r' sh' q) : LastPiece delim r sh q

/-- By induction on the slices. -/
theorem LastPiece.unique {delim : UInt8} {sh : Shared} {p q : Passage}
    (h : LastPiece delim r sh p) (h' : LastPiece delim r sh q) : q = p := by
  induction h with
  | here hslice hfault =>
    cases h' with
    | here hslice' =>
      rw [hslice] at hslice'
      cases hslice'
      rfl
    | later hslice' hfull =>
      rw [hslice] at hslice'
      cases hslice'
      exact absurd hfull hfault
  | later hslice hfull _ ih =>
    cases h' with
    | here hslice' hfault =>
      rw [hslice] at hslice'
      cases hslice'
      exact absurd hfull hfault
    | later hslice' _ hrest =>
      rw [hslice] at hslice'
      cases hslice'
      exact ih hrest

/-- The operation collects a record, whose last piece is empty: an error came right behind
a full buffer, or there was nothing but the error. -/
def Op.EndsEmpty (r : Reader σ) (sh : Shared) : Op → Prop
  | .readBytes delim | .readString delim => ∃ q, LastPiece delim r sh q ∧ q.bytes = []
  | _ => False

/-- The operation took some bytes; the last of them can be pushed back if the last piece
`q` is not empty, and otherwise nothing can. -/
def GivesPieces (r : Reader σ) (ds : List Draw) (q : Passage) (r' : Reader σ) : Prop :=
  ∃ b, r.Takes ds b r' ∧ (q.bytes ≠ [] → b ≠ [] ∧ r'.Returnable b) ∧
    (q.bytes = [] → r'.lastByte = none)

theorem Scans.givesPieces {delim : UInt8} {p : Passage} (hs : r.Scans delim ds p r₁) :
    r.GivesPieces ds p (r₁.noteDelivered p.bytes) := by
  obtain ⟨htakes, hlast⟩ := hs.takes
  refine ⟨p.bytes, htakes.congr rfl rfl, fun hne => ⟨hne, returnable_noteDelivered (hlast hne)⟩, ?_⟩
  intro hnil
  rw [hnil]
  rfl

/-- What comes before the last piece is not pushed back. -/
theorem GivesPieces.behind {q : Passage} (h : r₁.GivesPieces es q r') (htakes : r.Takes ds b r₁) :
    r.GivesPieces (ds ++ es) q r' := by
  obtain ⟨c, htakes', hreturnable, hnone⟩ := h
  refine ⟨b ++ c, htakes.trans htakes', fun hne => ?_, hnone⟩
  obtain ⟨hc, hlast, hpast⟩ := hreturnable hne
  have hlast_append : (b ++ c).getLast? = c.getLast? := by
    rw [List.getLast?_append, List.getLast?_eq_some_getLast hc, Option.some_or]
  exact ⟨List.append_ne_nil_of_right_ne_nil b hc, hlast.trans hlast_append.symm,
    hpast.imp id fun hhead => hhead.trans hlast_append.symm⟩

variable {H : Halt → Prop} {sh : Shared} [HonestSource H σ]

/-- By induction on the rounds: each but the last takes a piece, and the last decides. -/
theorem readBytesRounds_takes (hH : H .exhausted) (delim : UInt8) (rounds : Nat)
    (collected : Bytes) (h : r.WF) :
    Act.Meets H (r.readBytesRounds delim rounds collected) sh fun (_, r') _ => ∃ ds q,
      LastPiece delim r sh q ∧ r.GivesPieces ds q r' := by
  induction rounds generalizing collected r sh with
  | zero => exact hH
  | succ rounds ih =>
    rw [readBytesRounds]
    refine Act.meets_bind.mpr ((readSlice_meets h delim).ran.imp ?_)
    rintro ⟨p, r'⟩ sh₁ ⟨hslice, ds, r₁, hs, rfl⟩
    dsimp only
    split
    · rename_i hfull
      refine (ih (collected ++ p.bytes) (hs.wf.noteDelivered _)).imp ?_
      rintro ⟨-, r'⟩ sh₂ ⟨es, q, hlast, hgives⟩
      exact ⟨ds ++ es, q, .later hslice hfull hlast, hgives.behind (hs.takes.1.congr rfl rfl)⟩
    · rename_i hfault
      exact ⟨ds, p, .here hslice fun hfull => hfault hfull, hs.givesPieces⟩

theorem readBytes_takes_pieces (hH : H .exhausted) (delim : UInt8) (h : r.WF) :
    Act.Meets H (r.readBytes delim) sh fun (_, r') _ => ∃ ds q,
      LastPiece delim r sh q ∧ r.GivesPieces ds q r' :=
  Act.meets_bind.mpr (Act.meets_patience.mpr (readBytesRounds_takes hH delim _ [] h))

theorem readString_takes_pieces (hH : H .exhausted) (delim : UInt8) (h : r.WF) :
    Act.Meets H (r.readString delim) sh fun (_, r') _ => ∃ ds q,
      LastPiece delim r sh q ∧ r.GivesPieces ds q r' := by
  refine Act.meets_bind.mpr ((readBytes_takes_pieces hH delim h).imp ?_)
  rintro ⟨p, r₁⟩ sh₁ ⟨ds, q, hlast, b, htakes, hreturnable, hnone⟩
  refine Act.meets_bind.mpr ((settle_meets r₁).imp ?_)
  intro r' sh₂ hs
  exact ⟨ds, q, hlast, b, htakes.settles hs, fun hne => (hreturnable hne).imp id (·.settles hs),
    fun hnil => hs.lastByte_eq.trans (hnone hnil)⟩

/-! ## Every operation that reads -/

/-- The operations that read. -/
def Op.Reads : Op → Prop
  | .read _ | .readByte | .readRune | .readSlice _ | .readLine | .readBytes _ | .readString _
  | .plainRead _ | .consume _ => True
  | _ => False

/-- The operations that collect a record in pieces. -/
def Op.Collects : Op → Prop
  | .readBytes _ | .readString _ => True
  | _ => False

omit [HonestSource H σ] in
/-- **What every operation takes** that reads, and collects nothing. -/
theorem Performs.takes {op : Op} {outcome : Outcome} (hp : r.Performs op ds outcome r')
    (hop : op.Reads) (hcollects : ¬ op.Collects) : r.Gives ds r' := by
  cases hp with
  | read hr => exact hr.gives
  | readByte hb => exact hb.gives
  | readRune hc => exact hc.gives
  | readSlice hs =>
    obtain ⟨htakes, hlast⟩ := hs.takes
    exact ⟨_, htakes.congr rfl rfl, fun hne => returnable_noteDelivered (hlast hne)⟩
  | readLine hl => exact hl.gives
  | readBytes => exact absurd trivial hcollects
  | readString => exact absurd trivial hcollects
  | plainRead hg => exact hg.gives
  | consume hc => exact hc.gives
  | _ => exact hop.elim

/-- **What reading leaves to be pushed back**: the last byte taken, or nothing if a record
ends with an empty piece. -/
theorem perform_takes (hH : H .exhausted) {op : Op} (hop : op.Reads) (h : r.WF) :
    Act.Meets H (perform op r) sh fun (_, r') _ => ∃ ds b, r.Takes ds b r' ∧
      (¬ op.EndsEmpty r sh → b ≠ [] → r'.Returnable b) ∧
      (op.EndsEmpty r sh → r'.lastByte = none) := by
  have hpieces : ∀ {delim : UInt8} {ds : List Draw} {q : Passage} {r' : Reader σ},
      LastPiece delim r sh q → r.GivesPieces ds q r' → ∃ ds b, r.Takes ds b r' ∧
        (¬ (∃ q, LastPiece delim r sh q ∧ q.bytes = []) → b ≠ [] → r'.Returnable b) ∧
        ((∃ q, LastPiece delim r sh q ∧ q.bytes = []) → r'.lastByte = none) := by
    rintro delim ds q r' hlast ⟨b, htakes, hreturnable, hnone⟩
    refine ⟨ds, b, htakes, fun hends _ => ?_, ?_⟩
    · exact (hreturnable fun hnil => hends ⟨q, hlast, hnil⟩).2
    · rintro ⟨q', hlast', hnil⟩
      exact hnone (hlast.unique hlast' ▸ hnil)
  by_cases hcollects : op.Collects
  · cases op with
    | readBytes delim =>
      exact Act.meets_bind.mpr ((readBytes_takes_pieces hH delim h).imp
        fun _ _ ⟨_, _, hlast, hgives⟩ => hpieces hlast hgives)
    | readString delim =>
      exact Act.meets_bind.mpr ((readString_takes_pieces hH delim h).imp
        fun _ _ ⟨_, _, hlast, hgives⟩ => hpieces hlast hgives)
    | _ => exact hcollects.elim
  · have hwhole : ¬ op.EndsEmpty r sh := by
      cases op with
      | readBytes => exact absurd trivial hcollects
      | readString => exact absurd trivial hcollects
      | _ => exact id
    refine (perform_meets hH op h).imp ?_
    rintro ⟨outcome, r'⟩ sh' ⟨ds, hp⟩
    obtain ⟨b, htakes, hreturnable⟩ := hp.takes hop hcollects
    exact ⟨ds, b, htakes, fun _ => hreturnable, fun hends => absurd hends hwhole⟩

end Takes

/-! ## Pushing back -/

/-- Pushing a byte back is refused. -/
def RefusesByte (r : Reader σ) : Prop :=
  ∀ sh, Act.Returns r.unreadByte sh fun (u, _) _ => u = .error .invalidUnreadByte

/-- A byte can be pushed back and is the next one read, the last of `b`; but no second byte
can be pushed back with it. -/
def ReturnsLast [ByteSource σ] (r : Reader σ) (b : Bytes) : Prop :=
  ∀ sh, Act.Returns r.unreadByte sh fun (u, r') _ => u = .ok () ∧ r'.RefusesByte ∧
    ∀ sh', Act.Returns r'.readByte sh' fun (x, _) _ => ∃ y, x = .ok y ∧ b.getLast? = some y

theorem refusesByte_of_none (hnone : r.lastByte = none) : r.RefusesByte := by
  intro sh
  refine (unreadByte_meets r).imp ?_
  rintro ⟨u, r'⟩ sh' hu
  cases hu with
  | nothing => rfl
  | restarted hlast => rw [hnone] at hlast; cases hlast
  | stuck => rfl
  | moved hlast => rw [hnone] at hlast; cases hlast

/-- An unread byte is read without a call on the source. -/
theorem readByte_of_unread [ByteSource σ] {x : UInt8} {rest : Bytes}
    (hunread : r.window.unread = x :: rest) (sh : Shared) :
    Act.Returns r.readByte sh fun (y, _) _ => y = .ok x := by
  have hready : 1 ≤ ({ r with lastRune := none } : Reader σ).buffered := by
    show 1 ≤ r.window.unread.length
    rw [hunread]
    exact Nat.le_add_left ..
  unfold readByte
  rw [ensure_of_stays (.inl hready), pure_bind, takeByte]
  split
  · rename_i b tail htail
    obtain ⟨rfl, -⟩ := List.cons.inj (htail.symm.trans hunread)
    exact Act.meets_bind.mpr ((settle_meets _).imp fun _ _ _ => rfl)
  · rename_i hnil
    cases hnil.symm.trans hunread

theorem Returnable.returnsLast [ByteSource σ] (h : r.Returnable b) (hne : b ≠ []) :
    r.ReturnsLast b := by
  obtain ⟨x, hx⟩ : ∃ x, b.getLast? = some x := ⟨_, List.getLast?_eq_some_getLast hne⟩
  have hread : ∀ {r' : Reader σ} {rest : Bytes}, r'.lastByte = none →
      r'.window.unread = x :: rest → r'.RefusesByte ∧ ∀ sh', Act.Returns r'.readByte sh'
        fun (y, _) _ => ∃ z, y = .ok z ∧ b.getLast? = some z := by
    intro r' rest hnone hunread
    refine ⟨refusesByte_of_none hnone, fun sh' => (readByte_of_unread hunread sh').imp ?_⟩
    rintro ⟨y, -⟩ - rfl
    exact ⟨x, rfl, hx⟩
  intro sh
  refine (unreadByte_meets r).imp ?_
  rintro ⟨u, r'⟩ sh' hu
  have hlast := h.lastByte.trans hx
  cases hu with
  | nothing hnone => rw [hnone] at hlast; cases hlast
  | restarted hbyte =>
    obtain rfl := Option.some.inj (hbyte.symm.trans hlast)
    exact ⟨rfl, hread rfl rfl⟩
  | stuck _ hunread hpast =>
    have hhead := (h.past.resolve_left hunread).trans hx
    rw [hpast] at hhead
    cases hhead
  | moved _ hunread _ =>
    obtain ⟨later, hpast⟩ := List.head?_eq_some_iff.mp ((h.past.resolve_left hunread).trans hx)
    have hback : (r.retreating 1).window.unread = x :: r.window.unread := by
      show (r.window.past.take 1).reverse ++ r.window.unread = _
      rw [hpast]
      rfl
    exact ⟨rfl, hread rfl hback⟩

/-- **The last byte read can be pushed back, unless a record ended with an empty piece.**
Over any honest source and in every state that the reader may be in: an operation that
reads takes bytes `b` from the stream, the unread ones first and then those that its calls
on the source hand out.  If it takes any, the last of them can be pushed back and is the
next byte read, and pushing back a second byte is refused.  The exception is a record
collected in pieces of which the last is empty: then pushing back is refused at once. -/
theorem unreadByte_after_reading [BulkSource σ] [HonestSource (· = Halt.exhausted) σ] [History σ]
    [BulkHistory (· = Halt.exhausted) σ] (hr : r.Reachable) {op : Op} (hop : op.Reads)
    (sh : Shared) :
    Act.Keeps (perform op r) sh fun (_, r₁) _ => ∃ ds b,
      draws r₁.source = draws r.source ++ ds ∧
        r.window.unread ++ drawn ds = b ++ r₁.window.unread ∧
        (b ≠ [] → (¬ op.EndsEmpty r sh → r₁.ReturnsLast b) ∧
          (op.EndsEmpty r sh → r₁.RefusesByte)) := by
  refine (perform_takes (H := (· = Halt.exhausted)) rfl hop hr.wf).imp ?_
  rintro ⟨outcome, r₁⟩ sh₁ ⟨ds, b, htakes, hreturnable, hnone⟩
  refine ⟨ds, b, draws_of_calls htakes.calls, htakes.split, fun hne => ⟨fun hwhole => ?_, ?_⟩⟩
  · exact (hreturnable hwhole hne).returnsLast hne
  · exact fun hends => refusesByte_of_none (hnone hends)

/-- Sixteen letters and a seventeenth, and then the end. -/
def seventeenLetters : Script.Truthful where
  source :=
    { items := [.piece [0x41, 0x42, 0x43, 0x44, 0x45, 0x46, 0x47, 0x48, 0x49, 0x4a, 0x4b, 0x4c,
        0x4d, 0x4e, 0x4f, 0x50] none, .piece [0x51] (some .eof)] }

theorem unreadByte_after_reading_seventeenLetters :
    ∃ a sh', perform (.readBytes newline) (withCapacity (Traced.start seventeenLetters) 16 0)
        { pools := [], patience := 9 } = .ok a sh' ∧
      ∃ ds b, draws a.2.source = [] ++ ds ∧ [] ++ drawn ds = b ++ a.2.window.unread ∧
        (b ≠ [] → (¬ Op.EndsEmpty (withCapacity (Traced.start seventeenLetters) 16 0)
            { pools := [], patience := 9 } (.readBytes newline) → a.2.ReturnsLast b) ∧
          (Op.EndsEmpty (withCapacity (Traced.start seventeenLetters) 16 0)
            { pools := [], patience := 9 } (.readBytes newline) → a.2.RefusesByte)) :=
  (unreadByte_after_reading (.start (Traced.start seventeenLetters) 16 0)
    (show Op.Reads (.readBytes newline) from trivial) _).exists_of_ends (by decide +kernel)

/-- Sixteen letters with the end right behind them. -/
def lettersThenEnd : Script.Truthful where
  source :=
    { items := [.piece [0x41, 0x42, 0x43, 0x44, 0x45, 0x46, 0x47, 0x48, 0x49, 0x4a, 0x4b, 0x4c,
        0x4d, 0x4e, 0x4f, 0x50] (some .eof)] }

/-- The letters fill the buffer and are collected, but the last of them cannot be pushed
back. -/
theorem lettersThenEnd_refused :
    ∃ b r₁ sh₁ r₂ sh₂,
      perform (.readBytes newline) (withCapacity lettersThenEnd 16 0)
          { pools := [], patience := 9 } = .ok (.passage ⟨b, some .eof⟩, r₁) sh₁ ∧
        b.length = 16 ∧
        perform .unreadByte r₁ sh₁ = .ok (.pushed (.error .invalidUnreadByte), r₂) sh₂ :=
  ⟨_, _, _, _, _, rfl, rfl, rfl⟩

end Reader

end BufferedStream
