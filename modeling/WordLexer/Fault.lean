/-!
# Faults

A fault is a demand that the machine cannot meet.  It is no issue of the files: it is not recorded,
and the work that made the demand ends where it is.  What was printed by then stays printed.
-/

namespace WordLexer

inductive Fault where
  -- Open a file whose name holds the null character, which ends a name on a disk.
  | nulInName
  -- Write down a number with too many digits.
  | numeralTooLong
  -- Lay out a row whose length is no machine integer.
  | lengthOutOfRange
  -- Lay out a row that is longer than memory.
  | outOfMemory
deriving DecidableEq

/-- The wording of a fault.  There is no memory left for words about a lack of memory. -/
def Fault.message : Fault → String
  | .nulInName => "embedded null byte"
  | .numeralTooLong =>
    "Exceeds the limit (4300 digits) for integer string conversion; " ++
      "use sys.set_int_max_str_digits() to increase the limit"
  | .lengthOutOfRange => "cannot fit 'int' into an index-sized integer"
  | .outOfMemory => ""

/-- Two to the power of 63: machine integers reach from `-indexBound` up to, but not including,
`indexBound`. -/
def indexBound : Int := 0x8000000000000000

/-! ## Numerals -/

/-- How many digits a numeral may have, its sign not counted. -/
def digitLimit : Nat := 4300

/-- Why the numeral of a number cannot be written. -/
def numeralFault? (n : Int) : Option Fault :=
  if (Nat.toDigits 10 n.natAbs).length ≤ digitLimit then none else some .numeralTooLong

/-- The machine integers have numerals. -/
theorem numeralFault?_of_lt_indexBound {n : Int} (hneg : -indexBound ≤ n) (hlt : n < indexBound) :
    numeralFault? n = none := by
  have hpow : 10 ^ 19 ≤ 10 ^ digitLimit := Nat.pow_le_pow_right (by decide) (by decide)
  have hfew : (Nat.toDigits 10 n.natAbs).length ≤ digitLimit := by
    rw [Nat.length_toDigits_le_iff (by decide) (by decide)]
    unfold indexBound at *
    omega
  rw [numeralFault?, if_pos hfew]

/-! ## Rows -/

/-- A machine, by what it has room for. -/
structure Machine where
  -- The length of the longest row that memory is used for.
  longestRow : Nat

namespace Machine

/-- A machine that uses memory for rows of up to two to the power of 27 characters. -/
def ordinary : Machine := ⟨0x8000000⟩

/-- Why a row of a given length cannot be laid out.  A row of a negative length is empty. -/
def rowFault? (machine : Machine) (length : Int) : Option Fault :=
  if length < -indexBound ∨ indexBound ≤ length then some .lengthOutOfRange
  else if machine.longestRow < length then some .outOfMemory
  else none

theorem rowFault?_eq_none_iff {machine : Machine} {length : Int} :
    machine.rowFault? length = none ↔
      -indexBound ≤ length ∧ length < indexBound ∧ length ≤ machine.longestRow := by
  unfold rowFault? indexBound
  split
  · simp; omega
  · split <;> simp <;> omega

end Machine

end WordLexer
