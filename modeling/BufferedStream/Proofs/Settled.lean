import BufferedStream.Proofs.Decoding

/-!
# When decoding is settled

Bytes that are not settled begin an encoding and stop inside it (`Rune.Unfinished`).
They decode to one replaced byte, but completed they decode to a character.  So bytes
are settled just if no more bytes change what they decode to.

* `Rune.front_eq_cut_iff` — a string ends before its first character does just if it
  is unfinished.
* `Rune.malformed_of_front` — where a string is malformed, some byte does not continue
  what the bytes in front of it begin.
* `Rune.isSettled_iff_decode` — settled bytes are those that decode alike, whatever
  follows them.
* `Rune.decode_eq_iff` — a character other than a replaced byte is decoded just where
  its encoding stands.
* `Rune.front_take` — the first four bytes tell all of this.
-/

namespace BufferedStream.Rune

/-- The bytes begin an encoding and more of it is to come. -/
def Unfinished (b : Bytes) : Prop := ∃ c later, later ≠ [] ∧ b ++ later = encode c

section Unfinished

variable {b : Bytes}

theorem Unfinished.front (h : Unfinished b) : front b = .cut := by
  obtain ⟨c, later, hne, henc⟩ := h
  have hlt : b.length < (encode c).length := by
    rw [← henc, List.length_append]
    exact Nat.lt_add_of_pos_right (List.length_pos_iff.mpr hne)
  have hcut := front_take_encode c hlt
  rwa [← henc, List.take_left] at hcut

theorem Unfinished.length_lt (h : Unfinished b) : b.length < maxWidth := by
  obtain ⟨c, later, hne, henc⟩ := h
  have hle := length_encode_le c
  have hpos := List.length_pos_iff.mpr hne
  rw [← henc, List.length_append] at hle
  omega

theorem Unfinished.take (h : Unfinished b) (n : Nat) : Unfinished (b.take n) := by
  obtain ⟨c, later, hne, henc⟩ := h
  refine ⟨c, b.drop n ++ later, List.append_ne_nil_of_right_ne_nil _ hne, ?_⟩
  rw [← List.append_assoc, List.take_append_drop, henc]

theorem unfinished_nil : Unfinished [] := ⟨'a', encode 'a', encode_ne_nil 'a', rfl⟩

end Unfinished

/-! ## What the string ends inside of can be completed -/

section Widths

variable {b₀ : UInt8} {rest : Bytes}

theorem unfinished_of_frontTwo (h₀ : 0xc2 ≤ b₀.toNat ∧ b₀.toNat ≤ 0xdf)
    (h : frontTwo b₀ rest = .cut) : Unfinished (b₀ :: rest) := by
  match rest with
  | [] => exact ⟨_, [0x80], List.cons_ne_nil _ _, (encode_two h₀ rfl).symm⟩
  | b₁ :: rest =>
    rw [frontTwo] at h
    split at h <;> cases h

/-- Some second byte continues the first, whatever ranges are left out. -/
theorem exists_secondOfThree (b₀ : UInt8) : ∃ b₁, secondOfThree b₀ b₁ = true := by
  by_cases hlow : b₀ = 0xe0
  · exact ⟨0xa0, by rw [secondOfThree, if_pos hlow]; rfl⟩
  · refine ⟨0x80, ?_⟩
    rw [secondOfThree, if_neg hlow]
    split <;> rfl

theorem unfinished_of_frontThree (h₀ : 0xe0 ≤ b₀.toNat ∧ b₀.toNat ≤ 0xef)
    (h : frontThree b₀ rest = .cut) : Unfinished (b₀ :: rest) := by
  match rest with
  | [] =>
    obtain ⟨b₁, h₁⟩ := exists_secondOfThree b₀
    exact ⟨_, [b₁, 0x80], List.cons_ne_nil _ _, (encode_three h₀ h₁ rfl).symm⟩
  | [b₁] =>
    rw [frontThree] at h
    split at h
    · rename_i h₁
      exact ⟨_, [0x80], List.cons_ne_nil _ _, (encode_three h₀ h₁ rfl).symm⟩
    · cases h
  | b₁ :: b₂ :: rest =>
    simp only [frontThree] at h
    grind

theorem exists_secondOfFour (b₀ : UInt8) : ∃ b₁, secondOfFour b₀ b₁ = true := by
  by_cases hlow : b₀ = 0xf0
  · exact ⟨0x90, by rw [secondOfFour, if_pos hlow]; rfl⟩
  · refine ⟨0x80, ?_⟩
    rw [secondOfFour, if_neg hlow]
    split <;> rfl

theorem unfinished_of_frontFour (h₀ : 0xf0 ≤ b₀.toNat ∧ b₀.toNat ≤ 0xf4)
    (h : frontFour b₀ rest = .cut) : Unfinished (b₀ :: rest) := by
  match rest with
  | [] =>
    obtain ⟨b₁, h₁⟩ := exists_secondOfFour b₀
    exact ⟨_, [b₁, 0x80, 0x80], List.cons_ne_nil _ _, (encode_four h₀ h₁ rfl rfl).symm⟩
  | [b₁] =>
    rw [frontFour] at h
    split at h
    · rename_i h₁
      exact ⟨_, [0x80, 0x80], List.cons_ne_nil _ _, (encode_four h₀ h₁ rfl rfl).symm⟩
    · cases h
  | [b₁, b₂] =>
    simp only [frontFour] at h
    split at h
    · rename_i h₁
      split at h
      · rename_i h₂
        exact ⟨_, [0x80], List.cons_ne_nil _ _, (encode_four h₀ h₁ h₂ rfl).symm⟩
      · cases h
    · cases h
  | b₁ :: b₂ :: b₃ :: rest =>
    simp only [frontFour] at h
    grind

end Widths

theorem unfinished_of_front {b : Bytes} (h : front b = .cut) : Unfinished b := by
  unfold front at h
  split at h
  · exact unfinished_nil
  · rename_i b₀ rest
    simp only [selfBound, UInt8.lt_iff_toNat_lt, UInt8.le_iff_toNat_le, Bool.and_eq_true,
      decide_eq_true_eq, UInt8.reduceToNat] at h
    split at h
    · cases h
    · split at h
      · rename_i h₀
        exact unfinished_of_frontTwo h₀ h
      · split at h
        · rename_i h₀
          exact unfinished_of_frontThree h₀ h
        · split at h
          · rename_i h₀
            exact unfinished_of_frontFour h₀ h
          · cases h

/-- **A string ends before its first character does just if it is unfinished.** -/
theorem front_eq_cut_iff (b : Bytes) : front b = .cut ↔ Unfinished b :=
  ⟨unfinished_of_front, Unfinished.front⟩

theorem isSettled_eq_false_iff (b : Bytes) : isSettled b = false ↔ Unfinished b := by
  rw [← front_eq_cut_iff, ← Bool.not_eq_true, isSettled_iff, not_not]

/-! ## Malformed pieces -/

/-- The first `width` bytes are malformed: with the next one they no longer begin an
encoding.  A byte that begins none is a malformed piece by itself. -/
structure Malformed (width : Nat) (b : Bytes) : Prop where
  pos : 0 < width
  begun : 1 < width → Unfinished (b.take width)
  broken : ¬ Unfinished (b.take (width + 1))

section Malformed

variable {b₀ : UInt8} {rest : Bytes} {width : Nat}

/-- Behind a first byte, `f` takes `rest` for the beginning of an encoding as far as the
malformed piece goes, and no longer with the next byte. -/
structure BreaksAt (f : Bytes → Front) (width : Nat) (rest : Bytes) : Prop where
  pos : 0 < width
  before : 1 < width → f (rest.take (width - 1)) = .cut
  behind : f (rest.take width) ≠ .cut

theorem frontTwo_breaks (h : frontTwo b₀ rest = .malformed width) :
    BreaksAt (frontTwo b₀) width rest := by
  unfold frontTwo at h
  split at h
  · cases h
  · split at h
    · cases h
    · rename_i h₁
      cases h
      constructor <;> simp [frontTwo, h₁]

theorem frontThree_breaks (h : frontThree b₀ rest = .malformed width) :
    BreaksAt (frontThree b₀) width rest := by
  unfold frontThree at h
  split at h
  · cases h
  · split at h
    · rename_i h₁
      split at h
      · cases h
      · split at h
        · cases h
        · rename_i h₂
          cases h
          constructor <;> simp [frontThree, h₁, h₂]
    · rename_i h₁
      cases h
      constructor <;> simp [frontThree, h₁]

theorem frontFour_breaks (h : frontFour b₀ rest = .malformed width) :
    BreaksAt (frontFour b₀) width rest := by
  unfold frontFour at h
  split at h
  · cases h
  · split at h
    · rename_i h₁
      split at h
      · cases h
      · split at h
        · rename_i h₂
          split at h
          · cases h
          · split at h
            · cases h
            · rename_i h₃
              cases h
              constructor <;> simp [frontFour, h₁, h₂, h₃]
        · rename_i h₂
          cases h
          constructor <;> simp [frontFour, h₁, h₂]
    · rename_i h₁
      cases h
      constructor <;> simp [frontFour, h₁]

theorem BreaksAt.malformed {f : Bytes → Front} (h : BreaksAt f width rest)
    (hfront : ∀ rest, front (b₀ :: rest) = f rest) : Malformed width (b₀ :: rest) := by
  refine ⟨h.pos, fun hlt => ?_, fun hunfinished => ?_⟩
  · rw [← front_eq_cut_iff, List.take_cons h.pos, hfront]
    exact h.before hlt
  · rw [List.take_succ_cons, ← front_eq_cut_iff, hfront] at hunfinished
    exact h.behind hunfinished

theorem malformed_of_front {b : Bytes} (h : front b = .malformed width) : Malformed width b := by
  match b with
  | [] => cases h
  | b₀ :: rest =>
    rw [front] at h
    split at h
    · cases h
    · split at h
      · exact (frontTwo_breaks h).malformed fun _ => by grind [front]
      · split at h
        · exact (frontThree_breaks h).malformed fun _ => by grind [front]
        · split at h
          · exact (frontFour_breaks h).malformed fun _ => by grind [front]
          · cases h
            have hbreaks : BreaksAt (fun _ => .malformed 1) 1 rest :=
              ⟨Nat.one_pos, fun hlt => absurd hlt (Nat.lt_irrefl 1), Front.noConfusion⟩
            exact hbreaks.malformed fun _ => by grind [front]

end Malformed

/-! ## What is settled, told from decoding -/

variable {b : Bytes}

/-- Where an encoding stands, the bytes are settled. -/
theorem isSettled_of_isPrefix {c : Char} (h : encode c <+: b) : isSettled b = true := by
  obtain ⟨rest, rfl⟩ := h
  rw [isSettled, front_encode]

theorem decode_of_unfinished (h : Unfinished b) : decode b = (replacement, 1) := by
  rw [decode, h.front]

/-- A byte that is replaced is not mistaken for a character, the replacement itself
included: that one is three bytes wide. -/
theorem decoded_ne_replaced (c : Char) : (c, (encode c).length) ≠ (replacement, 1) := by
  intro heq
  obtain ⟨rfl, hlength⟩ := Prod.mk.inj heq
  exact absurd hlength (by decide)

/-- **Settled bytes decode alike, whatever follows them**, and no others do. -/
theorem isSettled_iff_decode (b : Bytes) :
    isSettled b = true ↔ b ≠ [] ∧ ∀ later, decode (b ++ later) = decode b := by
  constructor
  · intro h
    refine ⟨?_, decode_append h⟩
    rintro rfl
    cases h
  · rintro ⟨hne, hsame⟩
    cases hcut : isSettled b with
    | true => rfl
    | false =>
      rw [isSettled_eq_false_iff] at hcut
      have hreplaced := decode_of_unfinished hcut
      obtain ⟨c, later, -, henc⟩ := hcut
      -- completed, the bytes decode to a character and no longer to a replaced byte
      have hwhole := decode_encode_append c []
      rw [List.append_nil, ← henc, hsame, hreplaced, henc] at hwhole
      exact absurd hwhole.symm (decoded_ne_replaced c)

/-- **A character is decoded just where its encoding stands**, with that width.  Only
replaced bytes are excepted. -/
theorem decode_eq_iff (b : Bytes) (c : Char) (width : Nat) :
    (decode b = (c, width) ∧ (c, width) ≠ (replacement, 1)) ↔
      encode c <+: b ∧ (encode c).length = width := by
  constructor
  · rintro ⟨hdecode, hne⟩
    by_cases hstands : ∃ c, encode c <+: b
    · obtain ⟨c', rest, rfl⟩ := hstands
      rw [decode_encode_append] at hdecode
      obtain ⟨rfl, rfl⟩ := Prod.mk.inj hdecode
      exact ⟨List.prefix_append _ _, rfl⟩
    · have hno : ∀ c, ¬ encode c <+: b := fun c hc => hstands ⟨c, hc⟩
      exact absurd (hdecode.symm.trans (decode_of_stray hno)) hne
  · rintro ⟨⟨rest, rfl⟩, rfl⟩
    exact ⟨decode_encode_append c rest, decoded_ne_replaced c⟩

theorem width_decode_le (b : Bytes) : (decode b).2 ≤ maxWidth := by
  by_cases hreplaced : decode b = (replacement, 1)
  · rw [hreplaced]
    decide
  · have hstands := (decode_eq_iff b (decode b).1 (decode b).2).mp ⟨rfl, hreplaced⟩
    rw [← hstands.2]
    exact length_encode_le _

/-! ## The first four bytes -/

/-- What stands at the front is told from the first four bytes: if there are more, these
are settled already. -/
theorem front_take (b : Bytes) : front (b.take maxWidth) = front b := by
  rcases Nat.le_total b.length maxWidth with hle | hle
  · rw [List.take_of_length_le hle]
  · have hsettled : isSettled (b.take maxWidth) = true :=
      isSettled_of_maxWidth_le (Nat.le_of_eq (List.length_take_of_le hle).symm)
    have happend := front_append hsettled (b.drop maxWidth)
    rwa [List.take_append_drop, eq_comm] at happend

theorem isSettled_take (b : Bytes) : isSettled (b.take maxWidth) = isSettled b := by
  rw [isSettled, isSettled, front_take]

theorem decode_take (b : Bytes) : decode (b.take maxWidth) = decode b := by
  rw [decode, decode, front_take]

end BufferedStream.Rune
