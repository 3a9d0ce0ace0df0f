import BufferedStream.Text.Rune

/-!
# Runes and their encodings

Encoding (`Rune.encode`) computes the bytes of a character from its number, and
reading (`Rune.front`) tests bytes against the ranges that an encoding may come
from.  This file brings the two together, for every character.

* `Rune.width_decode` — a rune is at least one byte wide and no wider than the
  bytes it is read from.
* `Rune.front_encode` — whatever follows it, an encoding reads as its character
  and its width, and as nothing yet as long as a byte of it is missing.
* `Rune.decode_of_append`, `Rune.le_length_of_isSettled` — so a reader that has the
  first bytes of a text decodes its first character as soon as these bytes are
  settled, and not before they hold all of it.
* `Rune.decode_append` — settled bytes decode alike, whatever follows them.
* `Rune.lossy_encodings` — nothing is replaced in a text that consists of encodings.
-/

namespace BufferedStream.Rune

/-! ## The width of a rune -/

theorem width_front {b : Bytes} {c : Char} {width : Nat} (h : front b = .whole c width) :
    0 < width ∧ width ≤ b.length := by
  unfold front at h
  split at h
  · cases h
  · rename_i b₀ rest
    simp only [List.length_cons]
    split at h
    · cases h
      omega
    · split at h
      · unfold frontTwo at h
        grind
      · split at h
        · unfold frontThree at h
          grind
        · split at h
          · unfold frontFour at h
            grind
          · cases h

theorem width_decode {b : Bytes} (hb : b ≠ []) :
    0 < (decode b).2 ∧ (decode b).2 ≤ b.length := by
  unfold decode
  split
  · rename_i c width h
    exact width_front h
  · exact ⟨Nat.one_pos, List.length_pos_iff.mpr hb⟩

theorem length_encode_le (c : Char) : (encode c).length ≤ maxWidth := by
  rw [encode, String.length_utf8EncodeChar]
  exact c.utf8Size_le_four

/-- Below the bound a character is one byte. -/
theorem encode_of_lt {c : Char} (h : c.toNat < selfBound.toNat) :
    encode c = [c.toNat.toUInt8] := by
  have hle : c.val.toNat ≤ 127 := Nat.le_of_lt_succ h
  rw [encode, String.utf8EncodeChar]
  exact if_pos hle

/-! ## Bytes by their numbers -/

theorem isContinuation_iff (b : UInt8) :
    isContinuation b = true ↔ 0x80 ≤ b.toNat ∧ b.toNat ≤ 0xbf := by
  simp only [isContinuation, UInt8.le_iff_toNat_le, Bool.and_eq_true, decide_eq_true_eq,
    UInt8.reduceToNat]

theorem eq_iff_toNat_eq (b : UInt8) (n : UInt8) : b = n ↔ b.toNat = n.toNat :=
  UInt8.toNat_inj.symm

/-- A byte below the bound is a character by itself. -/
theorem front_one {b : UInt8} {v : Nat} (hb : b.toNat = v) (hv : v < 0x80) (rest : Bytes) :
    front (b :: rest) = .whole (Char.ofNat v) 1 := by
  simp only [front, selfBound, UInt8.lt_iff_toNat_lt, UInt8.reduceToNat, hb]
  rw [if_pos hv]

theorem front_eq_frontTwo {b₀ : UInt8} (h : 0xc2 ≤ b₀.toNat ∧ b₀.toNat ≤ 0xdf) (rest : Bytes) :
    front (b₀ :: rest) = frontTwo b₀ rest := by
  simp only [front, selfBound, UInt8.lt_iff_toNat_lt, UInt8.le_iff_toNat_le, Bool.and_eq_true,
    decide_eq_true_eq, UInt8.reduceToNat]
  rw [if_neg (by omega), if_pos h]

theorem front_eq_frontThree {b₀ : UInt8} (h : 0xe0 ≤ b₀.toNat ∧ b₀.toNat ≤ 0xef)
    (rest : Bytes) : front (b₀ :: rest) = frontThree b₀ rest := by
  simp only [front, selfBound, UInt8.lt_iff_toNat_lt, UInt8.le_iff_toNat_le, Bool.and_eq_true,
    decide_eq_true_eq, UInt8.reduceToNat]
  rw [if_neg (by omega), if_neg (by omega), if_pos h]

theorem front_eq_frontFour {b₀ : UInt8} (h : 0xf0 ≤ b₀.toNat ∧ b₀.toNat ≤ 0xf4)
    (rest : Bytes) : front (b₀ :: rest) = frontFour b₀ rest := by
  simp only [front, selfBound, UInt8.lt_iff_toNat_lt, UInt8.le_iff_toNat_le, Bool.and_eq_true,
    decide_eq_true_eq, UInt8.reduceToNat]
  rw [if_neg (by omega), if_neg (by omega), if_neg (by omega), if_pos h]

/-! ## Encodings of each width -/

section Widths

variable {b₀ b₁ b₂ b₃ : UInt8} {v : Nat}

/-- The bytes `b` read as the character `v` and its width, whatever follows them, and as
nothing yet while one of them is missing. -/
def Spells (v : Nat) (b : Bytes) : Prop :=
  (∀ rest, front (b ++ rest) = .whole (Char.ofNat v) b.length) ∧
    ∀ n < b.length, front (b.take n) = .cut

theorem spells_one (h₀ : b₀.toNat = v) (hv : v < 0x80) : Spells v [b₀] := by
  refine ⟨front_one h₀ hv, fun n hn => ?_⟩
  obtain rfl : n = 0 := Nat.lt_one_iff.mp hn
  rfl

theorem spells_two (h₀ : b₀.toNat = v / 64 + 0xc0) (h₁ : b₁.toNat = v % 64 + 0x80)
    (hlo : 0x80 ≤ v) (hhi : v < 0x800) : Spells v [b₀, b₁] := by
  have hlead : 0xc2 ≤ b₀.toNat ∧ b₀.toNat ≤ 0xdf := by omega
  have hsecond : isContinuation b₁ = true := (isContinuation_iff b₁).mpr (by omega)
  have hvalue : b₀.toNat % 32 * 64 + payload b₁ = v := by
    unfold payload
    omega
  refine ⟨fun rest => ?_, fun n hn => ?_⟩
  · show front (b₀ :: b₁ :: rest) = .whole (Char.ofNat v) 2
    rw [front_eq_frontTwo hlead, frontTwo, if_pos hsecond, hvalue]
  · match n, hn with
    | 0, _ => rfl
    | 1, _ => exact front_eq_frontTwo hlead []

/-- The second byte tells overlong encodings and surrogates apart. -/
theorem secondOfThree_of (h₀ : b₀.toNat = v / 4096 + 0xe0)
    (h₁ : b₁.toNat = v / 64 % 64 + 0x80) (hlo : 0x800 ≤ v) (hsurrogate : v < 0xd800 ∨ 0xdfff < v) :
    secondOfThree b₀ b₁ = true := by
  unfold secondOfThree
  simp only [eq_iff_toNat_eq, UInt8.le_iff_toNat_le, UInt8.reduceToNat]
  split
  · simp only [Bool.and_eq_true, decide_eq_true_eq]
    omega
  · split
    · simp only [Bool.and_eq_true, decide_eq_true_eq]
      omega
    · exact (isContinuation_iff b₁).mpr (by omega)

theorem spells_three (h₀ : b₀.toNat = v / 4096 + 0xe0) (h₁ : b₁.toNat = v / 64 % 64 + 0x80)
    (h₂ : b₂.toNat = v % 64 + 0x80) (hlo : 0x800 ≤ v) (hhi : v < 0x10000)
    (hsurrogate : v < 0xd800 ∨ 0xdfff < v) : Spells v [b₀, b₁, b₂] := by
  have hlead : 0xe0 ≤ b₀.toNat ∧ b₀.toNat ≤ 0xef := by omega
  have hsecond := secondOfThree_of h₀ h₁ hlo hsurrogate
  have hthird : isContinuation b₂ = true := (isContinuation_iff b₂).mpr (by omega)
  have hvalue : b₀.toNat % 16 * 4096 + payload b₁ * 64 + payload b₂ = v := by
    unfold payload
    omega
  refine ⟨fun rest => ?_, fun n hn => ?_⟩
  · show front (b₀ :: b₁ :: b₂ :: rest) = .whole (Char.ofNat v) 3
    rw [front_eq_frontThree hlead, frontThree, if_pos hsecond, if_pos hthird, hvalue]
  · match n, hn with
    | 0, _ => rfl
    | 1, _ => exact front_eq_frontThree hlead []
    | 2, _ =>
      show front [b₀, b₁] = .cut
      rw [front_eq_frontThree hlead, frontThree, if_pos hsecond]

/-- The second byte tells overlong encodings and values above the last code point apart. -/
theorem secondOfFour_of (h₀ : b₀.toNat = v / 262144 + 0xf0)
    (h₁ : b₁.toNat = v / 4096 % 64 + 0x80) (hlo : 0x10000 ≤ v) (hhi : v < 0x110000) :
    secondOfFour b₀ b₁ = true := by
  unfold secondOfFour
  simp only [eq_iff_toNat_eq, UInt8.le_iff_toNat_le, UInt8.reduceToNat]
  split
  · simp only [Bool.and_eq_true, decide_eq_true_eq]
    omega
  · split
    · simp only [Bool.and_eq_true, decide_eq_true_eq]
      omega
    · exact (isContinuation_iff b₁).mpr (by omega)

theorem spells_four (h₀ : b₀.toNat = v / 262144 + 0xf0) (h₁ : b₁.toNat = v / 4096 % 64 + 0x80)
    (h₂ : b₂.toNat = v / 64 % 64 + 0x80) (h₃ : b₃.toNat = v % 64 + 0x80) (hlo : 0x10000 ≤ v)
    (hhi : v < 0x110000) : Spells v [b₀, b₁, b₂, b₃] := by
  have hlead : 0xf0 ≤ b₀.toNat ∧ b₀.toNat ≤ 0xf4 := by omega
  have hsecond := secondOfFour_of h₀ h₁ hlo hhi
  have hthird : isContinuation b₂ = true := (isContinuation_iff b₂).mpr (by omega)
  have hfourth : isContinuation b₃ = true := (isContinuation_iff b₃).mpr (by omega)
  have hvalue : b₀.toNat % 8 * 262144 + payload b₁ * 4096 + payload b₂ * 64 + payload b₃ = v := by
    unfold payload
    omega
  refine ⟨fun rest => ?_, fun n hn => ?_⟩
  · show front (b₀ :: b₁ :: b₂ :: b₃ :: rest) = .whole (Char.ofNat v) 4
    rw [front_eq_frontFour hlead, frontFour, if_pos hsecond, if_pos hthird, if_pos hfourth, hvalue]
  · match n, hn with
    | 0, _ => rfl
    | 1, _ => exact front_eq_frontFour hlead []
    | 2, _ =>
      show front [b₀, b₁] = .cut
      rw [front_eq_frontFour hlead, frontFour, if_pos hsecond]
    | 3, _ =>
      show front [b₀, b₁, b₂] = .cut
      rw [front_eq_frontFour hlead, frontFour, if_pos hsecond, if_pos hthird]

end Widths

/-! ## Every character -/

theorem spells_encode (c : Char) : Spells c.toNat (encode c) := by
  have hvalid : c.toNat < 0xd800 ∨ 0xdfff < c.toNat ∧ c.toNat < 0x110000 := c.valid
  have htoNat : c.val.toNat = c.toNat := rfl
  unfold encode String.utf8EncodeChar
  dsimp only
  rw [htoNat]
  split
  · exact spells_one (by rw [UInt8.toNat_ofNat']; omega) (by omega)
  · split
    · exact spells_two (by rw [UInt8.toNat_ofNat']; omega) (by rw [UInt8.toNat_ofNat']; omega)
        (by omega) (by omega)
    · split
      · exact spells_three (by rw [UInt8.toNat_ofNat']; omega) (by rw [UInt8.toNat_ofNat']; omega)
          (by rw [UInt8.toNat_ofNat']; omega) (by omega) (by omega) (by omega)
      · exact spells_four (by rw [UInt8.toNat_ofNat']; omega) (by rw [UInt8.toNat_ofNat']; omega)
          (by rw [UInt8.toNat_ofNat']; omega) (by rw [UInt8.toNat_ofNat']; omega) (by omega)
          (by omega)

/-- **An encoding reads as its character**, whatever follows it. -/
theorem front_encode (c : Char) (rest : Bytes) :
    front (encode c ++ rest) = .whole c (encode c).length := by
  rw [(spells_encode c).1 rest, Char.ofNat_toNat]

/-- Without its last bytes an encoding reads as no character yet. -/
theorem front_take_encode (c : Char) {n : Nat} (hn : n < (encode c).length) :
    front ((encode c).take n) = .cut :=
  (spells_encode c).2 n hn

theorem encode_ne_nil (c : Char) : encode c ≠ [] := by
  intro hnil
  have hfront := front_encode c []
  rw [hnil] at hfront
  cases hfront

section Prefix

variable {c : Char} {b later rest : Bytes}

/-- Who has all of the first character decodes it. -/
theorem decode_of_append (h : b ++ later = encode c ++ rest) (hle : (encode c).length ≤ b.length) :
    decode b = (c, (encode c).length) := by
  have hsplit : b = encode c ++ b.drop (encode c).length := by
    have htake := congrArg (List.take (encode c).length) h
    rw [List.take_append_of_le_length hle, List.take_left] at htake
    exact (List.take_append_drop (encode c).length b).symm.trans
      (congrArg (· ++ b.drop (encode c).length) htake)
  rw [hsplit, decode, front_encode]

/-- What is settled holds all of the first character. -/
theorem le_length_of_isSettled (h : b ++ later = encode c ++ rest) (hb : isSettled b = true) :
    (encode c).length ≤ b.length := by
  refine Nat.le_of_not_lt fun hlt => ?_
  have hprefix : b = (encode c).take b.length := by
    have htake := congrArg (List.take b.length) h
    rwa [List.take_left, List.take_append_of_le_length (Nat.le_of_lt hlt)] at htake
  rw [isSettled, hprefix, front_take_encode c hlt] at hb
  cases hb

end Prefix

/-! ## Settled bytes -/

theorem isSettled_iff (b : Bytes) : isSettled b = true ↔ front b ≠ .cut := by
  unfold isSettled
  split
  · rename_i h
    simp [h]
  · rename_i h
    simpa using h

theorem frontTwo_append {b₀ : UInt8} {rest : Bytes} (h : frontTwo b₀ rest ≠ .cut)
    (later : Bytes) : frontTwo b₀ (rest ++ later) = frontTwo b₀ rest := by
  cases rest with
  | nil => exact absurd rfl h
  | cons b₁ rest => rfl

theorem frontThree_append {b₀ : UInt8} {rest : Bytes} (h : frontThree b₀ rest ≠ .cut)
    (later : Bytes) : frontThree b₀ (rest ++ later) = frontThree b₀ rest := by
  match rest with
  | [] => exact absurd rfl h
  | [b₁] =>
    simp only [List.cons_append, List.nil_append, frontThree] at h ⊢
    split
    · rename_i hsecond
      rw [if_pos hsecond] at h
      exact absurd rfl h
    · rfl
  | b₁ :: b₂ :: rest => rfl

theorem frontFour_append {b₀ : UInt8} {rest : Bytes} (h : frontFour b₀ rest ≠ .cut)
    (later : Bytes) : frontFour b₀ (rest ++ later) = frontFour b₀ rest := by
  match rest with
  | [] => exact absurd rfl h
  | [b₁] =>
    simp only [List.cons_append, List.nil_append, frontFour] at h ⊢
    split
    · rename_i hsecond
      rw [if_pos hsecond] at h
      exact absurd rfl h
    · rfl
  | [b₁, b₂] =>
    simp only [List.cons_append, List.nil_append, frontFour] at h ⊢
    grind
  | b₁ :: b₂ :: b₃ :: rest => rfl

/-- **What is settled is settled for good.** -/
theorem front_append {b : Bytes} (h : isSettled b = true) (later : Bytes) :
    front (b ++ later) = front b := by
  rw [isSettled_iff] at h
  cases b with
  | nil => exact absurd rfl h
  | cons b₀ rest =>
    simp only [List.cons_append, front] at h ⊢
    split
    · rfl
    · rename_i h1
      rw [if_neg h1] at h
      split
      · rename_i h2
        rw [if_pos h2] at h
        exact frontTwo_append h later
      · rename_i h2
        rw [if_neg h2] at h
        split
        · rename_i h3
          rw [if_pos h3] at h
          exact frontThree_append h later
        · rename_i h3
          rw [if_neg h3] at h
          split
          · rename_i h4
            rw [if_pos h4] at h
            exact frontFour_append h later
          · rfl

theorem isSettled_of_maxWidth_le {b : Bytes} (h : maxWidth ≤ b.length) : isSettled b = true := by
  rw [isSettled_iff]
  match b with
  | b₀ :: b₁ :: b₂ :: b₃ :: rest =>
    unfold front frontTwo frontThree frontFour
    grind

/-- The first rune of settled bytes is the first rune of the text that they begin. -/
theorem decode_append {b : Bytes} (h : isSettled b = true) (later : Bytes) :
    decode (b ++ later) = decode b := by
  rw [decode, decode, front_append h]

/-! ## Whole texts -/

/-- Bytes that are skipped do not show. -/
theorem lossyFrom_length_append (skipped rest : Bytes) :
    lossyFrom skipped.length (skipped ++ rest) = lossyFrom 0 rest := by
  induction skipped with
  | nil => rfl
  | cons b skipped ih => exact ih

theorem lossyFrom_encode_append (c : Char) (rest : Bytes) :
    lossyFrom 0 (encode c ++ rest) = c :: lossyFrom 0 rest := by
  have hfront := front_encode c rest
  cases hbytes : encode c with
  | nil => exact absurd hbytes (encode_ne_nil c)
  | cons b bs =>
    rw [hbytes, List.cons_append] at hfront
    rw [List.cons_append, lossyFrom, hfront]
    exact congrArg (c :: ·) (lossyFrom_length_append bs rest)

/-- **Nothing is replaced in a text.**  By induction on its characters. -/
theorem lossy_encodings (chars : List Char) :
    lossy (chars.flatMap encode) = String.ofList chars := by
  refine congrArg String.ofList ?_
  induction chars with
  | nil => rfl
  | cons c chars ih => rw [List.flatMap_cons, lossyFrom_encode_append, ih]

end BufferedStream.Rune
