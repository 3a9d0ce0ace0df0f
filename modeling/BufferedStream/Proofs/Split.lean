import BufferedStream.Bytes

/-!
# Splitting after a delimiter

A byte string falls into the parts that a delimiter ends and what follows the last
delimiter.

* `Bytes.ended`, `Bytes.leftover` — these parts, without their delimiters.
* `Bytes.splitInclusive` — the parts with their delimiters.
* `Bytes.ended_append_cons`, `Bytes.leftover_append_cons` — the first part, and how the
  others follow from what stands behind it.
-/

namespace BufferedStream.Bytes

/-- The parts that a delimiter ends, without it. -/
def ended (delim : UInt8) (b : Bytes) : List Bytes := (b.splitOn delim).dropLast

/-- What follows the last delimiter. -/
def leftover (delim : UInt8) (b : Bytes) : Bytes := (b.splitOn delim).getLastD []

/-- The byte string as a last part, if it is one. -/
def unlessEmpty (b : Bytes) : List Bytes := if b = [] then [] else [b]

/-- The parts, each with the delimiter that ends it; what follows the last delimiter is a
part unless it is empty. -/
def splitInclusive (delim : UInt8) (b : Bytes) : List Bytes :=
  (ended delim b).map (· ++ [delim]) ++ unlessEmpty (leftover delim b)

variable {delim : UInt8} {b before : Bytes}

theorem unlessEmpty_of_ne_nil (h : b ≠ []) : unlessEmpty b = [b] := if_neg h

theorem ended_of_not_mem (h : delim ∉ b) : ended delim b = [] := by
  rw [ended, List.splitOn_eq_singleton h]
  rfl

theorem leftover_of_not_mem (h : delim ∉ b) : leftover delim b = b := by
  rw [leftover, List.splitOn_eq_singleton h]
  rfl

theorem ended_append_cons (h : delim ∉ before) (rest : Bytes) :
    ended delim (before ++ delim :: rest) = before :: ended delim rest := by
  rw [ended, List.splitOn_append_cons_self_of_not_mem h,
    List.dropLast_cons_of_ne_nil (List.splitOn_ne_nil delim rest)]
  rfl

theorem leftover_append_cons (h : delim ∉ before) (rest : Bytes) :
    leftover delim (before ++ delim :: rest) = leftover delim rest := by
  have hne := List.splitOn_ne_nil delim rest
  rw [leftover, List.splitOn_append_cons_self_of_not_mem h, leftover]
  cases hparts : rest.splitOn delim with
  | nil => exact absurd hparts hne
  | cons part parts => rfl

end BufferedStream.Bytes
