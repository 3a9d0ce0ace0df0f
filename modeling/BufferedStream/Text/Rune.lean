import BufferedStream.Bytes

/-!
# Runes: one character at the front of a byte string

UTF-8 writes a character in one to four bytes.  `front` reads the bytes at the front of a string
and tells three cases apart: a whole character, a string that ends inside a character, and bytes
that begin no character.  Reading runes (`isSettled`, `decode`) and replacing what is not text
(`lossy`) rest on it.
-/

namespace BufferedStream.Rune

/-- The longest encoding of a character. -/
def maxWidth : Nat := 4

/-- Below this value a byte is a character by itself. -/
def selfBound : UInt8 := 0x80

/-- The character that stands for bytes that are no text. -/
def replacement : Char := '\uFFFD'

/-- What stands at the front of a byte string. -/
inductive Front where
  /-- A whole character and the number of bytes that encode it. -/
  | whole (c : Char) (width : Nat)
  /-- The string ends before its first character does. -/
  | cut
  /-- The first `width` bytes start an encoding that the next byte does not continue. -/
  | malformed (width : Nat)
  deriving DecidableEq, Repr

/-- A continuation byte carries six bits. -/
def isContinuation (b : UInt8) : Bool := 0x80 ≤ b && b ≤ 0xbf

/-- The six bits of a continuation byte. -/
def payload (b : UInt8) : Nat := b.toNat % 64

/-- Second bytes that may follow the first byte of a three-byte encoding: overlong forms and
surrogates are left out. -/
def secondOfThree (b₀ b₁ : UInt8) : Bool :=
  if b₀ = 0xe0 then 0xa0 ≤ b₁ && b₁ ≤ 0xbf
  else if b₀ = 0xed then 0x80 ≤ b₁ && b₁ ≤ 0x9f
  else isContinuation b₁

/-- Second bytes that may follow the first byte of a four-byte encoding: overlong forms and values
above the last code point are left out. -/
def secondOfFour (b₀ b₁ : UInt8) : Bool :=
  if b₀ = 0xf0 then 0x90 ≤ b₁ && b₁ ≤ 0xbf
  else if b₀ = 0xf4 then 0x80 ≤ b₁ && b₁ ≤ 0x8f
  else isContinuation b₁

/-- The rest of a two-byte encoding. -/
def frontTwo (b₀ : UInt8) : Bytes → Front
  | [] => .cut
  | b₁ :: _ =>
    if isContinuation b₁ then .whole (Char.ofNat (b₀.toNat % 32 * 64 + payload b₁)) 2
    else .malformed 1

/-- The rest of a three-byte encoding. -/
def frontThree (b₀ : UInt8) : Bytes → Front
  | [] => .cut
  | b₁ :: rest =>
    if secondOfThree b₀ b₁ then
      match rest with
      | [] => .cut
      | b₂ :: _ =>
        if isContinuation b₂ then
          .whole (Char.ofNat (b₀.toNat % 16 * 4096 + payload b₁ * 64 + payload b₂)) 3
        else .malformed 2
    else .malformed 1

/-- The rest of a four-byte encoding. -/
def frontFour (b₀ : UInt8) : Bytes → Front
  | [] => .cut
  | b₁ :: rest =>
    if secondOfFour b₀ b₁ then
      match rest with
      | [] => .cut
      | b₂ :: rest =>
        if isContinuation b₂ then
          match rest with
          | [] => .cut
          | b₃ :: _ =>
            if isContinuation b₃ then
              .whole (Char.ofNat (b₀.toNat % 8 * 262144 + payload b₁ * 4096 + payload b₂ * 64
                + payload b₃)) 4
            else .malformed 3
        else .malformed 2
    else .malformed 1

/-- Reads the front of a byte string. -/
def front : Bytes → Front
  | [] => .cut
  | b₀ :: rest =>
    if b₀ < selfBound then .whole (Char.ofNat b₀.toNat) 1
    else if 0xc2 ≤ b₀ && b₀ ≤ 0xdf then frontTwo b₀ rest
    else if 0xe0 ≤ b₀ && b₀ ≤ 0xef then frontThree b₀ rest
    else if 0xf0 ≤ b₀ && b₀ ≤ 0xf4 then frontFour b₀ rest
    else .malformed 1

/-- More bytes cannot change how the front of `b` reads. -/
def isSettled (b : Bytes) : Bool :=
  match front b with
  | .cut => false
  | _ => true

/-- The first rune of `b` and its width; what is no whole character counts as one replaced byte. -/
def decode (b : Bytes) : Char × Nat :=
  match front b with
  | .whole c width => (c, width)
  | _ => (replacement, 1)

/-- The encoding of a character. -/
def encode (c : Char) : Bytes := String.utf8EncodeChar c

/-! ## Whole texts -/

/-- The characters of `b` after its first `skip` bytes; each longest piece that starts an encoding
and is not continued becomes one replacement. -/
def lossyFrom : (skip : Nat) → Bytes → List Char
  | _, [] => []
  | skip + 1, _ :: rest => lossyFrom skip rest
  | 0, b :: rest =>
    match front (b :: rest) with
    | .whole c width => c :: lossyFrom (width - 1) rest
    | .malformed width => replacement :: lossyFrom (width - 1) rest
    | .cut => [replacement]

/-- The text of a byte string, with replacements for what is no text. -/
def lossy (b : Bytes) : String := String.ofList (lossyFrom 0 b)

end BufferedStream.Rune
