import BufferedStream.Proofs.Settled
import Mathlib.Order.Bounds.Defs

/-!
# Runes, told by a validator of texts

A validator (`Rune.Validator`) answers for a whole byte string at once: it gives the
characters that the bytes encode, or it marks the flaw that keeps them from being a
text.  A flaw lies behind the longest text at the front, and there the bytes end inside
an encoding or a malformed piece stands.

Asked about the first four bytes of a string, which may hold several runes and part of
another, any validator tells whether the first rune is settled and what it is.

* `Rune.Flaw.Marks` — what a flaw says about the bytes.
* `Rune.surveying` — reading rune after rune gives a validator.
* `Rune.Validator.isFull_eq`, `Rune.Validator.first_eq` — whatever the validator, its
  answer about four bytes is that of `isSettled` and `decode`.
* `Rune.settled_iff_decided` — what it means to be settled.
-/

namespace BufferedStream.Rune

/-! ## Flaws -/

/-- What keeps a byte string from being a text: so many bytes at its front are a text, and
behind them stands a malformed piece of some width, or none if the string ends there. -/
structure Flaw where
  validUpTo : Nat
  width : Option Nat
  deriving DecidableEq, Repr

/-- The lengths of the texts at the front of a byte string. -/
def textLengths (b : Bytes) : Set Nat :=
  {n | ∃ chars : List Char, chars.flatMap encode <+: b ∧ (chars.flatMap encode).length = n}

/-- The flaw lies behind the longest text at the front and is told apart rightly. -/
structure Flaw.Marks (flaw : Flaw) (b : Bytes) : Prop where
  longest : IsGreatest (textLengths b) flaw.validUpTo
  cut : flaw.width = none → Unfinished (b.drop flaw.validUpTo)
  malformed : ∀ width, flaw.width = some width → Malformed width (b.drop flaw.validUpTo)

/-- A validator of byte strings. -/
structure Validator where
  validate : Bytes → Except Flaw (List Char)
  validate_eq_ok_iff : ∀ b chars, validate b = .ok chars ↔ chars.flatMap encode = b
  marks : ∀ b flaw, validate b = .error flaw → flaw.Marks b

/-! ## The text at the front -/

/-- Encodings that stand at the same place are of the same character. -/
theorem eq_of_isPrefix {c d : Char} {b : Bytes} (hc : encode c <+: b) (hd : encode d <+: b) :
    c = d := by
  obtain ⟨rest, rfl⟩ := hc
  obtain ⟨rest', heq⟩ := hd
  have hfront := front_encode d rest'
  rw [heq, front_encode] at hfront
  exact (Front.whole.inj hfront).1

theorem encode_isPrefix_of_cons {c : Char} {chars : List Char} {b : Bytes}
    (h : (c :: chars).flatMap encode <+: b) : encode c <+: b := by
  rw [List.flatMap_cons] at h
  exact (List.prefix_append _ _).trans h

/-- Where no encoding stands, no text does but the empty one. -/
theorem isGreatest_of_stray {b : Bytes} (hno : ∀ c, ¬ encode c <+: b) :
    IsGreatest (textLengths b) 0 := by
  refine ⟨⟨[], List.nil_prefix, rfl⟩, ?_⟩
  rintro n ⟨chars, hstands, rfl⟩
  cases chars with
  | nil => exact Nat.le_refl 0
  | cons c chars => exact absurd (encode_isPrefix_of_cons hstands) (hno c)

/-- A character in front makes the longest text longer by its encoding. -/
theorem isGreatest_encode_append {n : Nat} {rest : Bytes} (c : Char)
    (h : IsGreatest (textLengths rest) n) :
    IsGreatest (textLengths (encode c ++ rest)) ((encode c).length + n) := by
  obtain ⟨⟨chars, hstands, rfl⟩, hlongest⟩ := h
  refine ⟨⟨c :: chars, ?_, ?_⟩, ?_⟩
  · rw [List.flatMap_cons]
    exact (List.prefix_append_right_inj _).mpr hstands
  · rw [List.flatMap_cons, List.length_append]
  · rintro m ⟨chars', hstands', rfl⟩
    cases chars' with
    | nil => exact Nat.zero_le _
    | cons d chars' =>
      obtain rfl : c = d :=
        eq_of_isPrefix (List.prefix_append _ _) (encode_isPrefix_of_cons hstands')
      rw [List.flatMap_cons] at hstands' ⊢
      have hle := hlongest ⟨chars', (List.prefix_append_right_inj _).mp hstands', rfl⟩
      rw [List.length_append]
      exact Nat.add_le_add_left hle _

/-! ## Reading rune after rune -/

/-- The flaw as it is seen from some bytes further to the front. -/
def Flaw.behind (n : Nat) (flaw : Flaw) : Flaw := { flaw with validUpTo := n + flaw.validUpTo }

/-- Reads runes off the front until there is none. -/
def survey (b : Bytes) : Except Flaw (List Char) :=
  match _hfront : front b with
  | .whole c width =>
    match survey (b.drop width) with
    | .ok chars => .ok (c :: chars)
    | .error flaw => .error (flaw.behind width)
  | .cut => if b = [] then .ok [] else .error ⟨0, none⟩
  | .malformed width => .error ⟨0, some width⟩
termination_by b.length
decreasing_by
  have hwidth := width_front _hfront
  rw [List.length_drop]
  omega

theorem survey_nil : survey [] = .ok [] := by
  rw [survey]
  rfl

theorem survey_encode_append (c : Char) (rest : Bytes) :
    survey (encode c ++ rest) =
      match survey rest with
      | .ok chars => .ok (c :: chars)
      | .error flaw => .error (flaw.behind (encode c).length) := by
  rw [survey]
  split
  · rename_i c' width h
    rw [front_encode] at h
    obtain ⟨rfl, rfl⟩ := Front.whole.inj h
    rw [List.drop_left]
  · rename_i h
    rw [front_encode] at h
    cases h
  · rename_i width h
    rw [front_encode] at h
    cases h

/-- Every byte string is characters, and then bytes at which no encoding stands. -/
@[elab_as_elim]
theorem text_induction {motive : Bytes → Prop}
    (stray : ∀ b, (∀ c, ¬ encode c <+: b) → motive b)
    (whole : ∀ c rest, motive rest → motive (encode c ++ rest)) (b : Bytes) : motive b := by
  by_cases hstands : ∃ c, encode c <+: b
  · obtain ⟨c, rest, hrest⟩ := hstands
    have hshorter : rest.length < b.length := by
      rw [← hrest, List.length_append]
      exact Nat.lt_add_of_pos_left (List.length_pos_iff.mpr (encode_ne_nil c))
    exact hrest ▸ whole c rest (text_induction stray whole rest)
  · exact stray b fun c hc => hstands ⟨c, hc⟩
termination_by b.length

/-- Where no encoding stands, the survey ends at once. -/
theorem survey_of_stray {b : Bytes} (hno : ∀ c, ¬ encode c <+: b) :
    (b = [] ∧ survey b = .ok []) ∨ ∃ width, survey b = .error ⟨0, width⟩ ∧
      (⟨0, width⟩ : Flaw).Marks b := by
  rw [survey]
  split
  · rename_i c width h
    exact absurd (encode_isPrefix_of_front h) (hno c)
  · rename_i h
    split
    · rename_i hnil
      exact .inl ⟨hnil, rfl⟩
    · exact .inr ⟨none, rfl, isGreatest_of_stray hno, fun _ => unfinished_of_front h, nofun⟩
  · rename_i width h
    refine .inr ⟨some width, rfl, isGreatest_of_stray hno, nofun, ?_⟩
    rintro width' ⟨rfl⟩
    exact malformed_of_front h

theorem Flaw.Marks.behind {flaw : Flaw} {rest : Bytes} (h : flaw.Marks rest) (c : Char) :
    (flaw.behind (encode c).length).Marks (encode c ++ rest) := by
  have hdrop : (encode c ++ rest).drop ((encode c).length + flaw.validUpTo) =
      rest.drop flaw.validUpTo := List.drop_length_add_append _
  refine ⟨isGreatest_encode_append c h.longest, fun hnone => ?_, fun width hsome => ?_⟩
  · exact hdrop ▸ h.cut hnone
  · exact hdrop ▸ h.malformed width hsome

/-- By induction on the characters. -/
theorem survey_encodings (chars : List Char) : survey (chars.flatMap encode) = .ok chars := by
  induction chars with
  | nil => exact survey_nil
  | cons c chars ih => rw [List.flatMap_cons, survey_encode_append, ih]

theorem survey_tells (b : Bytes) :
    (∃ chars, survey b = .ok chars ∧ chars.flatMap encode = b) ∨
      ∃ flaw, survey b = .error flaw ∧ flaw.Marks b := by
  induction b using text_induction with
  | stray b hno =>
    rcases survey_of_stray hno with ⟨rfl, hok⟩ | ⟨width, herror, hmarks⟩
    · exact .inl ⟨[], hok, rfl⟩
    · exact .inr ⟨_, herror, hmarks⟩
  | whole c rest ih =>
    rw [survey_encode_append]
    rcases ih with ⟨chars, hok, htext⟩ | ⟨flaw, herror, hmarks⟩
    · exact .inl ⟨c :: chars, by rw [hok], by rw [List.flatMap_cons, htext]⟩
    · exact .inr ⟨_, by rw [herror], hmarks.behind c⟩

/-- **Reading rune after rune gives a validator.** -/
def surveying : Validator where
  validate := survey
  validate_eq_ok_iff b chars := by
    constructor
    · intro h
      rcases survey_tells b with ⟨chars', hok, htext⟩ | ⟨flaw, herror, -⟩
      · obtain rfl := Except.ok.inj (h.symm.trans hok)
        exact htext
      · exact nomatch h.symm.trans herror
    · rintro rfl
      exact survey_encodings chars
  marks b flaw h := by
    rcases survey_tells b with ⟨chars, hok, -⟩ | ⟨flaw', herror, hmarks⟩
    · exact nomatch h.symm.trans hok
    · obtain rfl := Except.error.inj (h.symm.trans herror)
      exact hmarks

/-- **A flaw tells whether the bytes are settled**: they are unless it is at their front
and they end there. -/
theorem Flaw.Marks.isSettled_eq {flaw : Flaw} {b : Bytes} (h : flaw.Marks b) :
    isSettled b = (decide (0 < flaw.validUpTo) || flaw.width.isSome) := by
  obtain ⟨chars, hstands, hlength⟩ := h.longest.1
  cases chars with
  | nil =>
    have hzero : flaw.validUpTo = 0 := hlength.symm
    have hcut := h.cut
    have hmalformed := h.malformed
    rw [hzero, List.drop_zero] at hcut hmalformed
    rw [hzero]
    cases hwidth : flaw.width with
    | none => exact (isSettled_eq_false_iff b).mpr (hcut hwidth)
    | some width =>
      refine eq_true_of_ne_false fun hunsettled => ?_
      have hunfinished := (isSettled_eq_false_iff b).mp hunsettled
      exact (hmalformed width hwidth).broken (hunfinished.take _)
  | cons c chars =>
    have hpos : 0 < flaw.validUpTo := by
      rw [← hlength, List.flatMap_cons, List.length_append]
      exact Nat.add_pos_left (List.length_pos_iff.mpr (encode_ne_nil c)) _
    rw [isSettled_of_isPrefix (encode_isPrefix_of_cons hstands), decide_eq_true hpos, Bool.true_or]

/-! ## Four bytes are enough -/

namespace Validator

variable (v : Validator)

/-- Whether the bytes hold a rune: a text stands at their front, or none can. -/
def isFull (b : Bytes) : Bool :=
  match v.validate (b.take maxWidth) with
  | .ok chars => !chars.isEmpty
  | .error flaw => 0 < flaw.validUpTo || flaw.width.isSome

/-- The text at the front, which is validated by itself if more follows. -/
def text (b : Bytes) : List Char :=
  match v.validate b with
  | .ok chars => chars
  | .error flaw => (v.validate (b.take flaw.validUpTo)).toOption.getD []

/-- The first rune of the text at the front; one byte is replaced where there is none. -/
def first (b : Bytes) : Char × Nat :=
  match v.text (b.take maxWidth) with
  | c :: _ => (c, c.utf8Size)
  | [] => (replacement, 1)

/-- **The text at the front is the longest that stands there.** -/
theorem text_longest (b : Bytes) :
    (v.text b).flatMap encode <+: b ∧
      ((v.text b).flatMap encode).length ∈ upperBounds (textLengths b) := by
  rw [text]
  cases hb : v.validate b with
  | ok chars =>
    obtain rfl := (v.validate_eq_ok_iff b chars).mp hb
    refine ⟨List.prefix_rfl, ?_⟩
    rintro n ⟨chars', hstands, rfl⟩
    exact hstands.length_le
  | error flaw =>
    obtain ⟨⟨chars, hstands, hlength⟩, hbound⟩ := (v.marks b flaw hb).longest
    have htake : b.take flaw.validUpTo = chars.flatMap encode := by
      rw [← hlength]
      exact (List.prefix_iff_eq_take.mp hstands).symm
    have hvalid := (v.validate_eq_ok_iff _ chars).mpr htake.symm
    simp only [hvalid, Except.toOption, Option.getD_some]
    exact ⟨hstands, hlength ▸ hbound⟩

/-- Some text stands at the front just if some encoding does. -/
theorem text_eq_nil_iff (b : Bytes) : v.text b = [] ↔ ∀ c, ¬ encode c <+: b := by
  obtain ⟨hstands, hbound⟩ := v.text_longest b
  constructor
  · intro hnil c hc
    rw [hnil] at hbound
    have hle := hbound ⟨[c], by rwa [List.flatMap_singleton], rfl⟩
    rw [List.flatMap_singleton] at hle
    exact encode_ne_nil c (List.eq_nil_of_length_eq_zero (Nat.le_zero.mp hle))
  · intro hno
    cases htext : v.text b with
    | nil => rfl
    | cons c chars =>
      rw [htext] at hstands
      exact absurd (encode_isPrefix_of_cons hstands) (hno c)

/-- **What a validator says about four bytes is the first rune.** -/
theorem first_eq (b : Bytes) : v.first b = decode b := by
  rw [← decode_take, first]
  cases htext : v.text (b.take maxWidth) with
  | nil => exact (decode_of_stray ((v.text_eq_nil_iff _).mp htext)).symm
  | cons c chars =>
    have hstands := (v.text_longest (b.take maxWidth)).1
    rw [htext] at hstands
    obtain ⟨rest, hrest⟩ := encode_isPrefix_of_cons hstands
    rw [← hrest, decode_encode_append, encode, String.length_utf8EncodeChar]

/-- **What a validator says about four bytes tells whether they are settled.** -/
theorem isFull_eq (b : Bytes) : v.isFull b = isSettled b := by
  rw [← isSettled_take, isFull]
  cases hb : v.validate (b.take maxWidth) with
  | ok chars =>
    rw [← (v.validate_eq_ok_iff _ chars).mp hb]
    cases chars with
    | nil => rfl
    | cons c chars => exact (isSettled_of_isPrefix (encode_isPrefix_of_cons List.prefix_rfl)).symm
  | error flaw => exact (v.marks _ flaw hb).isSettled_eq.symm

end Validator

/-! ## Settled bytes -/

/-- **Bytes are settled when it is decided what they decode to.**  What any validator says
about the first four of them tells whether they are and what they decode to.

They are settled if there are any and they decode alike, whatever follows; if not, they
are at most three, none included, and a proper beginning of some encoding.  Bytes, if there
are any, decode to a width of at least one that exceeds neither them nor the longest
encoding, and to a character, other than for one replaced byte, where its encoding of that
width stands and nowhere else. -/
theorem settled_iff_decided (v : Validator) (b : Bytes) :
    isSettled b = v.isFull b ∧ decode b = v.first b ∧
      (isSettled b = true ↔ b ≠ [] ∧ ∀ later, decode (b ++ later) = decode b) ∧
      (isSettled b = false ↔
        b.length ≤ 3 ∧ ∃ c later, later ≠ [] ∧ b ++ later = encode c) ∧
      (b ≠ [] → 1 ≤ (decode b).2 ∧ (decode b).2 ≤ min maxWidth b.length) ∧
      ∀ c width, (decode b = (c, width) ∧ (c, width) ≠ (replacement, 1)) ↔
        encode c <+: b ∧ (encode c).length = width := by
  refine ⟨(v.isFull_eq b).symm, (v.first_eq b).symm, isSettled_iff_decode b, ?_, fun hb => ?_,
    decode_eq_iff b⟩
  · rw [isSettled_eq_false_iff]
    exact ⟨fun h => ⟨Nat.le_of_lt_succ h.length_lt, h⟩, fun h => h.2⟩
  · obtain ⟨hpos, hle⟩ := width_decode hb
    exact ⟨hpos, Nat.le_min.mpr ⟨width_decode_le b, hle⟩⟩

/-- Two characters and part of a third, of which the first four bytes hold only one byte. -/
def severalRunes : Bytes := [0x61, 0xc3, 0xa9, 0xe2, 0x82]

theorem survey_severalRunes : survey (severalRunes.take maxWidth) = .error ⟨3, none⟩ := by
  have hsplit : severalRunes.take maxWidth = encode 'a' ++ (encode 'é' ++ [0xe2]) := by decide
  have hcut : survey [0xe2] = .error ⟨0, none⟩ := by
    rw [survey]
    rfl
  rw [hsplit, survey_encode_append, survey_encode_append, hcut]
  rfl

theorem settled_iff_decided_severalRunes :
    surveying.validate (severalRunes.take maxWidth) = .error ⟨3, none⟩ ∧
      surveying.isFull severalRunes = true ∧ surveying.first severalRunes = ('a', 1) ∧
      ∀ later, decode (severalRunes ++ later) = ('a', 1) := by
  have hsettled : isSettled severalRunes = true := by decide
  have hdecode : decode severalRunes = ('a', 1) := by decide
  obtain ⟨hfull, hfirst, hiff, -⟩ := settled_iff_decided surveying severalRunes
  refine ⟨survey_severalRunes, hfull.symm.trans hsettled, hfirst.symm.trans hdecode, ?_⟩
  exact fun later => ((hiff.mp hsettled).2 later).trans hdecode

end BufferedStream.Rune
