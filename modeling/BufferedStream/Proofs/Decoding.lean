import BufferedStream.Proofs.Rune
import Mathlib.Algebra.GroupWithZero.Nat

/-!
# What a text decodes to

At each place of a byte string stands the encoding of a character, or none.  What the
bytes decode to (`Rune.Decodes`) says so with encodings alone: the character and the
width of its encoding, or one byte replaced.  Since only the shortest forms of scalar
values are encodings, overlong forms, surrogates and values above the last code point
are replaced byte by byte, and so is an encoding that the end of the string cuts off.

* `Rune.encode_isPrefix_of_front` — what reads as a whole character is its encoding.
* `Rune.decode_of_stray` — where no encoding stands, one byte is replaced.
* `Rune.exists_decodes`, `Rune.Decodes.unique` — every byte string decodes in one way.
-/

namespace BufferedStream.Rune

/-- What a byte string decodes to: characters and their widths. -/
inductive Decodes : Bytes → List (Char × Nat) → Prop
  | nil : Decodes [] []
  /-- An encoding stands at the front. -/
  | whole (c : Char) {rest : Bytes} {rs : List (Char × Nat)} (h : Decodes rest rs) :
      Decodes (encode c ++ rest) ((c, (encode c).length) :: rs)
  /-- None does. -/
  | stray {b : UInt8} {rest : Bytes} {rs : List (Char × Nat)}
      (hno : ∀ c, ¬ encode c <+: b :: rest) (h : Decodes rest rs) :
      Decodes (b :: rest) ((replacement, 1) :: rs)

/-! ## What reads as a character is its encoding -/

theorem toNat_ofNat {v : Nat} (h : v.isValidChar) : (Char.ofNat v).toNat = v := by
  rw [Char.ofNat, dif_pos h]
  exact UInt32.toNat_ofNatLT

section Widths

variable {b₀ b₁ b₂ b₃ : UInt8}

theorem encode_one (h₀ : b₀.toNat < 0x80) : encode (Char.ofNat b₀.toNat) = [b₀] := by
  have hchar := toNat_ofNat (v := b₀.toNat) (by unfold Nat.isValidChar; omega)
  rw [encode_of_lt (by rw [hchar]; exact h₀), hchar]
  exact congrArg (· :: []) UInt8.ofNat_toNat

theorem encode_two (h₀ : 0xc2 ≤ b₀.toNat ∧ b₀.toNat ≤ 0xdf) (h₁ : isContinuation b₁ = true) :
    encode (Char.ofNat (b₀.toNat % 32 * 64 + payload b₁)) = [b₀, b₁] := by
  rw [isContinuation_iff] at h₁
  obtain ⟨v, hv⟩ : ∃ v, v = b₀.toNat % 32 * 64 + payload b₁ := ⟨_, rfl⟩
  rw [← hv]
  unfold payload at hv
  have hchar : (Char.ofNat v).val.toNat = v := toNat_ofNat (by unfold Nat.isValidChar; omega)
  have hlead : v / 64 % 32 + 192 = b₀.toNat := by omega
  have hsecond : v % 64 + 128 = b₁.toNat := by omega
  unfold encode String.utf8EncodeChar
  dsimp only
  rw [hchar, if_neg (by omega), if_pos (by omega), hlead, hsecond, UInt8.ofNat_toNat,
    UInt8.ofNat_toNat]

/-- The second byte leaves no overlong encoding and no surrogate. -/
theorem range_of_secondOfThree (h₁ : secondOfThree b₀ b₁ = true) :
    (0x80 ≤ b₁.toNat ∧ b₁.toNat ≤ 0xbf) ∧ (b₀.toNat = 0xe0 → 0xa0 ≤ b₁.toNat) ∧
      (b₀.toNat = 0xed → b₁.toNat ≤ 0x9f) := by
  unfold secondOfThree at h₁
  simp only [eq_iff_toNat_eq, UInt8.le_iff_toNat_le, UInt8.reduceToNat] at h₁
  split at h₁
  · simp only [Bool.and_eq_true, decide_eq_true_eq] at h₁
    omega
  · split at h₁
    · simp only [Bool.and_eq_true, decide_eq_true_eq] at h₁
      omega
    · rw [isContinuation_iff] at h₁
      omega

theorem encode_three (h₀ : 0xe0 ≤ b₀.toNat ∧ b₀.toNat ≤ 0xef) (h₁ : secondOfThree b₀ b₁ = true)
    (h₂ : isContinuation b₂ = true) :
    encode (Char.ofNat (b₀.toNat % 16 * 4096 + payload b₁ * 64 + payload b₂)) = [b₀, b₁, b₂] := by
  obtain ⟨hrange, hlow, hsurrogate⟩ := range_of_secondOfThree h₁
  rw [isContinuation_iff] at h₂
  obtain ⟨v, hv⟩ : ∃ v, v = b₀.toNat % 16 * 4096 + payload b₁ * 64 + payload b₂ := ⟨_, rfl⟩
  rw [← hv]
  unfold payload at hv
  have hchar : (Char.ofNat v).val.toNat = v := toNat_ofNat (by unfold Nat.isValidChar; omega)
  have hlead : v / 4096 % 16 + 224 = b₀.toNat := by omega
  have hsecond : v / 64 % 64 + 128 = b₁.toNat := by omega
  have hthird : v % 64 + 128 = b₂.toNat := by omega
  unfold encode String.utf8EncodeChar
  dsimp only
  rw [hchar, if_neg (by omega), if_neg (by omega), if_pos (by omega), hlead, hsecond, hthird,
    UInt8.ofNat_toNat, UInt8.ofNat_toNat, UInt8.ofNat_toNat]

/-- The second byte leaves no overlong encoding and no value above the last code point. -/
theorem range_of_secondOfFour (h₁ : secondOfFour b₀ b₁ = true) :
    (0x80 ≤ b₁.toNat ∧ b₁.toNat ≤ 0xbf) ∧ (b₀.toNat = 0xf0 → 0x90 ≤ b₁.toNat) ∧
      (b₀.toNat = 0xf4 → b₁.toNat ≤ 0x8f) := by
  unfold secondOfFour at h₁
  simp only [eq_iff_toNat_eq, UInt8.le_iff_toNat_le, UInt8.reduceToNat] at h₁
  split at h₁
  · simp only [Bool.and_eq_true, decide_eq_true_eq] at h₁
    omega
  · split at h₁
    · simp only [Bool.and_eq_true, decide_eq_true_eq] at h₁
      omega
    · rw [isContinuation_iff] at h₁
      omega

theorem encode_four (h₀ : 0xf0 ≤ b₀.toNat ∧ b₀.toNat ≤ 0xf4) (h₁ : secondOfFour b₀ b₁ = true)
    (h₂ : isContinuation b₂ = true) (h₃ : isContinuation b₃ = true) :
    encode (Char.ofNat (b₀.toNat % 8 * 262144 + payload b₁ * 4096 + payload b₂ * 64 + payload b₃))
      = [b₀, b₁, b₂, b₃] := by
  obtain ⟨hrange, hlow, hhigh⟩ := range_of_secondOfFour h₁
  rw [isContinuation_iff] at h₂ h₃
  obtain ⟨v, hv⟩ : ∃ v, v = b₀.toNat % 8 * 262144 + payload b₁ * 4096 + payload b₂ * 64
    + payload b₃ := ⟨_, rfl⟩
  rw [← hv]
  unfold payload at hv
  have hchar : (Char.ofNat v).val.toNat = v := toNat_ofNat (by unfold Nat.isValidChar; omega)
  have hlead : v / 262144 % 8 + 240 = b₀.toNat := by omega
  have hsecond : v / 4096 % 64 + 128 = b₁.toNat := by omega
  have hthird : v / 64 % 64 + 128 = b₂.toNat := by omega
  have hfourth : v % 64 + 128 = b₃.toNat := by omega
  unfold encode String.utf8EncodeChar
  dsimp only
  rw [hchar, if_neg (by omega), if_neg (by omega), if_neg (by omega), hlead, hsecond, hthird,
    hfourth, UInt8.ofNat_toNat, UInt8.ofNat_toNat, UInt8.ofNat_toNat, UInt8.ofNat_toNat]

end Widths

theorem encode_isPrefix_of_frontTwo {b₀ : UInt8} {rest : Bytes} {c : Char} {width : Nat}
    (h₀ : 0xc2 ≤ b₀.toNat ∧ b₀.toNat ≤ 0xdf) (h : frontTwo b₀ rest = .whole c width) :
    encode c <+: b₀ :: rest := by
  unfold frontTwo at h
  split at h
  · cases h
  · rename_i b₁ rest
    split at h
    · rename_i h₁
      obtain ⟨rfl, -⟩ := Front.whole.inj h
      rw [encode_two h₀ h₁]
      exact List.prefix_append [b₀, b₁] rest
    · cases h

theorem encode_isPrefix_of_frontThree {b₀ : UInt8} {rest : Bytes} {c : Char} {width : Nat}
    (h₀ : 0xe0 ≤ b₀.toNat ∧ b₀.toNat ≤ 0xef) (h : frontThree b₀ rest = .whole c width) :
    encode c <+: b₀ :: rest := by
  unfold frontThree at h
  split at h
  · cases h
  · rename_i b₁ rest
    split at h
    · rename_i h₁
      split at h
      · cases h
      · rename_i b₂ rest
        split at h
        · rename_i h₂
          obtain ⟨rfl, -⟩ := Front.whole.inj h
          rw [encode_three h₀ h₁ h₂]
          exact List.prefix_append [b₀, b₁, b₂] rest
        · cases h
    · cases h

theorem encode_isPrefix_of_frontFour {b₀ : UInt8} {rest : Bytes} {c : Char} {width : Nat}
    (h₀ : 0xf0 ≤ b₀.toNat ∧ b₀.toNat ≤ 0xf4) (h : frontFour b₀ rest = .whole c width) :
    encode c <+: b₀ :: rest := by
  unfold frontFour at h
  split at h
  · cases h
  · rename_i b₁ rest
    split at h
    · rename_i h₁
      split at h
      · cases h
      · rename_i b₂ rest
        split at h
        · rename_i h₂
          split at h
          · cases h
          · rename_i b₃ rest
            split at h
            · rename_i h₃
              obtain ⟨rfl, -⟩ := Front.whole.inj h
              rw [encode_four h₀ h₁ h₂ h₃]
              exact List.prefix_append [b₀, b₁, b₂, b₃] rest
            · cases h
        · cases h
    · cases h

/-- **What reads as a whole character is its encoding.** -/
theorem encode_isPrefix_of_front {b : Bytes} {c : Char} {width : Nat}
    (h : front b = .whole c width) : encode c <+: b := by
  unfold front at h
  split at h
  · cases h
  · rename_i b₀ rest
    simp only [selfBound, UInt8.lt_iff_toNat_lt, UInt8.le_iff_toNat_le, Bool.and_eq_true,
      decide_eq_true_eq, UInt8.reduceToNat] at h
    split at h
    · rename_i h₀
      obtain ⟨rfl, -⟩ := Front.whole.inj h
      rw [encode_one h₀]
      exact List.prefix_append [b₀] rest
    · split at h
      · rename_i h₀
        exact encode_isPrefix_of_frontTwo h₀ h
      · split at h
        · rename_i h₀
          exact encode_isPrefix_of_frontThree h₀ h
        · split at h
          · rename_i h₀
            exact encode_isPrefix_of_frontFour h₀ h
          · cases h

/-! ## One step of decoding -/

theorem decode_encode_append (c : Char) (rest : Bytes) :
    decode (encode c ++ rest) = (c, (encode c).length) := by
  rw [decode, front_encode]

/-- Where no encoding stands, one byte is replaced. -/
theorem decode_of_stray {b : Bytes} (hno : ∀ c, ¬ encode c <+: b) :
    decode b = (replacement, 1) := by
  unfold decode
  split
  · rename_i c width h
    exact absurd (encode_isPrefix_of_front h) (hno c)
  · rfl

/-- The front of what is left decodes as `decode` tells, and the rest behind it. -/
theorem Decodes.cons {b : Bytes} {rs : List (Char × Nat)} (hb : b ≠ [])
    (h : Decodes (b.drop (decode b).2) rs) : Decodes b (decode b :: rs) := by
  by_cases hstands : ∃ c, encode c <+: b
  · obtain ⟨c, rest, rfl⟩ := hstands
    rw [decode_encode_append, List.drop_left] at h
    rw [decode_encode_append]
    exact .whole c h
  · have hno : ∀ c, ¬ encode c <+: b := fun c hc => hstands ⟨c, hc⟩
    obtain ⟨b₀, rest, rfl⟩ := List.exists_cons_of_ne_nil hb
    rw [decode_of_stray hno] at h
    rw [decode_of_stray hno]
    exact .stray hno h

theorem Decodes.head {b : Bytes} {r : Char × Nat} {rs : List (Char × Nat)}
    (h : Decodes b (r :: rs)) :
    b ≠ [] ∧ r = decode b ∧ Decodes (b.drop (decode b).2) rs := by
  cases h with
  | whole c h =>
    rw [decode_encode_append, List.drop_left]
    exact ⟨List.append_ne_nil_of_left_ne_nil (encode_ne_nil c) _, rfl, h⟩
  | stray hno h =>
    rw [decode_of_stray hno]
    exact ⟨List.cons_ne_nil _ _, rfl, h⟩

theorem Decodes.eq_nil {b : Bytes} (h : Decodes b []) : b = [] := by
  cases h
  rfl

/-! ## Every byte string decodes in one way -/

/-- By recursion on the bytes left, of which every step takes some. -/
theorem exists_decodes (b : Bytes) : ∃ rs, Decodes b rs := by
  by_cases hb : b = []
  · exact ⟨[], hb ▸ .nil⟩
  · have hpos := (width_decode hb).1
    have hlength := List.length_pos_iff.mpr hb
    have hshorter : (b.drop (decode b).2).length < b.length := by
      rw [List.length_drop]
      omega
    obtain ⟨rs, hrs⟩ := exists_decodes (b.drop (decode b).2)
    exact ⟨_, hrs.cons hb⟩
termination_by b.length

/-- By induction on the runes of one decoding, which are those of the other. -/
theorem Decodes.unique {b : Bytes} {rs rs' : List (Char × Nat)} (h : Decodes b rs)
    (h' : Decodes b rs') : rs' = rs := by
  induction rs generalizing b rs' with
  | nil =>
    obtain rfl := h.eq_nil
    cases rs' with
    | nil => rfl
    | cons r rs' => exact absurd rfl h'.head.1
  | cons r rs ih =>
    obtain ⟨hb, rfl, hrest⟩ := h.head
    cases rs' with
    | nil => exact absurd h'.eq_nil hb
    | cons r' rs' =>
      obtain ⟨-, rfl, hrest'⟩ := h'.head
      rw [ih hrest hrest']

/-- **The widths add up** to the length of the bytes. -/
theorem Decodes.sum_widths {b : Bytes} {rs : List (Char × Nat)} (h : Decodes b rs) :
    (rs.map Prod.snd).sum = b.length := by
  induction h with
  | nil => rfl
  | whole c _ ih => rw [List.map_cons, List.sum_cons, ih, List.length_append]
  | stray _ _ ih => rw [List.map_cons, List.sum_cons, ih, List.length_cons, Nat.add_comm]

end BufferedStream.Rune
