import BufferedStream.Proofs.Calm
import BufferedStream.Proofs.Reader.Latched

/-!
# The course of a stream

Behind the error that ends the stretch ahead of a reader there may come another stretch,
and so on.  The course of a source is settled if all of this is, whatever room is offered
to the source on the way (`CourseSource`).  Then the course of a reader over it is settled
as well: filling the buffer, however large it is, changes nothing of what is to come.

* `CourseSource` — calm scripts and sources that end are such sources, traced or not.
* `Reader.later` — what follows the stretch ahead of a reader.
* `Reader.Pulled.later_eq` — filling the buffer keeps it, and
  `Reader.later_cleared` — reporting the error moves on to the next stretch.
-/

namespace BufferedStream

open ErringSource (ahead stop)

/-- A stretch and the error that ends it, and what follows. -/
def following (b : Bytes) (e : Error) (later : Nat → Bytes × Error) : Nat → Bytes × Error
  | 0 => (b, e)
  | i + 1 => later i

/-- An erring source whose course is settled: whatever room it is offered, the same stretches
and errors follow one another. -/
class CourseSource (τ : Type) [ByteSource τ] [ErringSource τ] where
  /-- The stretches behind the next error, each with the error that ends it. -/
  later : τ → Nat → Bytes × Error
  later_of_goes {s s' : τ} {n : Nat} {g : Reading} : ByteSource.Reads s n g s' →
    g.fault = none → later s' = later s
  later_of_stops {s s' : τ} {n : Nat} {g : Reading} {e : Error} : ByteSource.Reads s n g s' →
    g.fault = some e → later s = following (ahead s') (stop s') (later s')

open CourseSource (later)

/-- By induction on the calls: without an error they leave what follows the next one. -/
theorem CourseSource.later_of_calls {τ : Type} [ByteSource τ] [ErringSource τ] [CourseSource τ]
    {s s' : τ} {ds : List Draw} (h : Calls s ds s') (hnone : ∀ d ∈ ds, d.reading.fault = none) :
    later s' = later s := by
  induction h with
  | nil => rfl
  | cons hreads _ ih =>
    obtain ⟨hfault, hnone⟩ := List.forall_mem_cons.mp hnone
    exact (ih hnone).trans (later_of_goes hreads hfault)

/-! ## Sources with a settled course -/

/-- Behind the end of a stream only the end follows, again and again. -/
instance {τ : Type} [ByteSource τ] [EndingSource τ] : CourseSource τ where
  later _ _ := ([], .eof)
  later_of_goes _ _ := rfl
  later_of_stops {s s' _ _ e} h he := by
    have heof : e = .eof := (ErringSource.stops_of_reads h he).2.symm.trans (EndingSource.stop_eq s)
    subst heof
    rw [EndingSource.ends_of_reads h he, EndingSource.stop_eq]
    funext i
    cases i <;> rfl

namespace Traced

variable {τ : Type} [ByteSource τ]

/-- What a source has ahead does not depend on whether its history is noted. -/
instance [ErringSource τ] : ErringSource (Traced τ) where
  read_honest := HonestSource.read_honest
  ahead t := ahead t.source
  stop t := stop t.source
  pauses t := ErringSource.pauses t.source
  stop_ne_full t := ErringSource.stop_ne_full t.source
  pauses_lt t := ErringSource.pauses_lt t.source
  goes_of_reads h hnone := by
    obtain ⟨s', hs, rfl⟩ := eq_of_reads h
    exact ErringSource.goes_of_reads hs hnone
  stops_of_reads h he := by
    obtain ⟨s', hs, rfl⟩ := eq_of_reads h
    exact ErringSource.stops_of_reads hs he
  pauses_of_reads h hnone hn hdata := by
    obtain ⟨s', hs, rfl⟩ := eq_of_reads h
    exact ErringSource.pauses_of_reads hs hnone hn hdata

instance [ErringSource τ] [CourseSource τ] : CourseSource (Traced τ) where
  later t := later t.source
  later_of_goes h hnone := by
    obtain ⟨s', hs, rfl⟩ := eq_of_reads h
    exact CourseSource.later_of_goes hs hnone
  later_of_stops h he := by
    obtain ⟨s', hs, rfl⟩ := eq_of_reads h
    exact CourseSource.later_of_stops hs he

end Traced

namespace Script

/-- What a script is once its next error has been reported. -/
def afterError : List SourceItem → List SourceItem
  | [] => []
  | .piece _ (some _) :: rest => rest
  | .piece _ none :: rest => afterError rest
  | .idle _ :: rest => afterError rest
  | .claim _ :: rest => afterError rest

/-- The stretches of a script, each with the error that ends it. -/
def stretches : List SourceItem → Nat → Bytes × Error
  | items, 0 => (upToError items, nextError items)
  | items, i + 1 => stretches (afterError items) i

theorem stretches_eq (items : List SourceItem) :
    stretches items = following (upToError items) (nextError items)
      (stretches (afterError items)) := by
  funext i
  cases i <;> rfl

/-- What a calm script answers leaves what follows its next error, and reporting that error
leads there. -/
theorem Calm.afterError_read {s : Source} (h : isCalm s.items = true) (n : Nat) :
    ((s.read n).1.fault = none → afterError (s.read n).2.items = afterError s.items) ∧
      ∀ e, (s.read n).1.fault = some e → afterError s.items = (s.read n).2.items := by
  obtain ⟨items, bulk⟩ := s
  cases items with
  | nil => exact ⟨by rintro ⟨⟩, fun _ _ => rfl⟩
  | cons item rest =>
    cases item with
    | piece data fault =>
      unfold Source.read
      dsimp only
      split
      · cases fault with
        | none => exact ⟨fun _ => rfl, by rintro e ⟨⟩⟩
        | some e => exact ⟨by rintro ⟨⟩, fun _ _ => rfl⟩
      · refine ⟨fun _ => ?_, by rintro e ⟨⟩⟩
        cases fault <;> rfl
    | idle times =>
      refine ⟨fun _ => ?_, by rintro e ⟨⟩⟩
      show afterError (idleAgain SourceItem.idle times rest) = afterError rest
      unfold idleAgain
      split <;> rfl
    | claim excess => cases (isCalm_cons.mp h).1

theorem Calm.afterError_of_reads {t t' : Calm} {n : Nat} {g : Reading}
    (h : ByteSource.Reads t n g t') :
    (g.fault = none → afterError t'.source.items = afterError t.source.items) ∧
      ∀ e, g.fault = some e → afterError t.source.items = t'.source.items := by
  obtain ⟨room, sh, sh', rfl, hread⟩ := h
  cases hread
  exact afterError_read t.calm room.size

instance : CourseSource Calm where
  later t := stretches (afterError t.source.items)
  later_of_goes h hnone := congrArg stretches ((Calm.afterError_of_reads h).1 hnone)
  later_of_stops h he := by
    rw [(Calm.afterError_of_reads h).2 _ he]
    exact stretches_eq _

end Script

/-! ## The course of a reader -/

namespace Reader

variable {τ : Type} [ByteSource τ] [ErringSource τ] [CourseSource τ] {r r' r₁ : Reader τ}
  {ds : List Draw}

/-- What follows the stretch ahead and the error behind it. -/
def later (r : Reader τ) : Nat → Bytes × Error :=
  if r.fault = none then CourseSource.later r.source
  else following (ahead r.source) (ErringSource.stop r.source) (CourseSource.later r.source)

theorem later_of_fault_eq_none (h : r.fault = none) : r.later = CourseSource.later r.source :=
  if_pos h

theorem later_of_latched {e : Error} (he : r.fault = some e) :
    r.later =
      following (ahead r.source) (ErringSource.stop r.source) (CourseSource.later r.source) := by
  rw [later, he, if_neg (by rintro ⟨⟩)]

theorem later_congr (hsource : r'.source = r.source) (hfault : r'.fault = r.fault) :
    r'.later = r.later := by
  rw [later, later, hsource, hfault]

/-- **Filling the buffer keeps what follows the stretch.** -/
theorem Pulled.later_eq (hp : r.Pulled ds r₁) : r₁.later = r.later := by
  by_cases hds : ds = []
  · subst hds
    exact later_congr hp.calls.nil_eq hp.fault_eq
  · have hidle : 0 + ErringSource.pauses r.source < maxEmptyReads := by
      rw [Nat.zero_add]
      exact ErringSource.pauses_lt _
    have harisen := hp.arisen_eq hds
    rw [later_of_fault_eq_none (hp.fault_of_calls hds)]
    rcases ErringSource.calls_report hp.calls hidle hp.quiet with
      ⟨hnothing, hnone⟩ | ⟨es, s, d, e, -, hes, hnone, hlast, he, hraised⟩
    · rw [arisen, hnothing, Option.toList_eq_nil_iff] at harisen
      rw [later_of_fault_eq_none harisen, CourseSource.later_of_calls hp.calls hnone]
    · rw [arisen, hraised, Option.toList_eq_singleton_iff] at harisen
      rw [later_of_latched harisen, ← CourseSource.later_of_stops hlast he,
        CourseSource.later_of_calls hes hnone]

/-- Once the latched error has been reported with all that was unread, the next stretch is
ahead. -/
theorem later_cleared {e : Error} (he : r.fault = some e) (hunread : r.window.unread = []) :
    r.later = following r.cleared.stretch r.cleared.stop r.cleared.later := by
  have hcleared : r.cleared.fault = none := rfl
  rw [later_of_latched he, stretch_of_fault_eq_none hcleared, stop_of_fault_eq_none hcleared,
    later_of_fault_eq_none hcleared]
  show following (ahead r.source) _ _ = following (r.window.unread ++ ahead r.source) _ _
  rw [hunread, List.nil_append]
  rfl

end Reader

end BufferedStream
