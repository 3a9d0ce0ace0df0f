import BufferedStream.Proofs.Agree

/-!
# Patience

A loop that has no bound of its own is granted a number of rounds, which it asks for when it
begins.  What is done before that leaves the number alone, as long as the endpoints do.

* `Act.KeepsPatience` — an act that leaves the number of rounds granted as it is.
* `PatientSink` — a sink whose writes are such acts.
-/

namespace BufferedStream

namespace Act

variable {α β : Type} {m : Act α} {f : α → Act β}

/-- The act leaves the rounds granted to loops as they are, if it ends with a result. -/
def KeepsPatience (m : Act α) : Prop :=
  ∀ sh, IfEnds m sh fun _ sh' => sh'.patience = sh.patience

theorem keepsPatience_pure (a : α) : KeepsPatience (pure a) := fun _ => rfl

theorem KeepsPatience.bind (hm : KeepsPatience m) (hf : ∀ a, KeepsPatience (f a)) :
    KeepsPatience (m >>= f) := by
  intro sh
  refine meets_bind.mpr ((hm sh).imp ?_)
  intro a sh₁ h₁
  refine (hf a sh₁).imp ?_
  intro b sh₂ h₂
  exact h₂.trans h₁

theorem keepsPatience_require (holds : Bool) (b : Breach) : KeepsPatience (require holds b) :=
  fun _ => ifEnds_require fun _ => rfl

/-- The pools have no part in it. -/
theorem UsesPools.keepsPatience (h : UsesPools m) : KeepsPatience m := by
  intro sh
  refine (h sh).mono (fun _ he => he.elim) ?_
  intro a sh' halike
  exact (Shared.Alike.field Shared.patience (fun _ => rfl) halike).symm

/-- What an act meets may tell that the patience is kept. -/
theorem Meets.patient {H : Halt → Prop} {sh : Shared} {post : α → Shared → Prop}
    (h : Meets H m sh post) (hm : KeepsPatience m) :
    Meets H m sh fun a sh' => post a sh' ∧ sh'.patience = sh.patience :=
  h.and_ifEnds (hm sh)

end Act

/-- A sink whose writes leave the rounds granted to loops as they are. -/
class PatientSink (κ : Type) [ByteSink κ] : Prop where
  write_patient (k : κ) (b : Bytes) : (ByteSink.write k b).KeepsPatience

instance : PatientSink MemorySink := ⟨fun _ _ _ => rfl⟩

instance {κ : Type} [ByteSink κ] [PatientSink κ] : PatientSink (Unbulked κ) where
  write_patient u b := (PatientSink.write_patient u.sink b).bind fun _ => Act.keepsPatience_pure _

end BufferedStream
