import FormFill.Text.Basic

/-! # Decimal digits

Only the ten ASCII digits are digits. A run of them denotes a natural number, whatever its length
and leading zeros; a natural number is written without leading zeros.
-/

namespace FormFill.Text

/-- Whether `c` is one of the ASCII digits. -/
def isDigit (c : Char) : Bool := '0' ≤ c && c ≤ '9'

/-- The number that an ASCII digit stands for. -/
def digitValue (c : Char) : Nat := c.toNat - '0'.toNat

/-- The number that a run of digits denotes. -/
def decimalValue (run : Text) : Nat := run.foldl (fun value c => 10 * value + digitValue c) 0

/-- The decimal text of a natural number, without leading zeros. -/
def ofNat (n : Nat) : Text := Nat.toDigits 10 n

/-- The decimal text of an integer, with a sign only when it is negative. -/
def ofInt : Int → Text
  | .ofNat n => ofNat n
  | .negSucc n => '-' :: ofNat (n + 1)

/-- The digits at the front of a text, and what follows them. -/
def spanDigits (text : Text) : Text × Text := (text.takeWhile isDigit, text.dropWhile isDigit)

/-- A digit run read as a machine count: runs that denote `countLimit` or more read as zero. -/
def countOf (run : Text) : Nat :=
  if decimalValue run < countLimit then decimalValue run else 0

/-- The count in the first digit run anywhere in the text, or zero when it has no digit. -/
def firstCount (text : Text) : Nat :=
  countOf (spanDigits (text.dropWhile (!isDigit ·))).1

theorem spanDigits_append (text : Text) : (spanDigits text).1 ++ (spanDigits text).2 = text :=
  List.takeWhile_append_dropWhile

theorem countOf_lt (run : Text) : countOf run < countLimit := by
  unfold countOf
  split
  · assumption
  · decide

private theorem digitValue_digitChar {n : Nat} (small : n < 10) : digitValue n.digitChar = n := by
  have cases : n = 0 ∨ n = 1 ∨ n = 2 ∨ n = 3 ∨ n = 4 ∨ n = 5 ∨ n = 6 ∨ n = 7 ∨ n = 8 ∨ n = 9 := by
    omega
  rcases cases with rfl | rfl | rfl | rfl | rfl | rfl | rfl | rfl | rfl | rfl <;> decide

theorem decimalValue_append_singleton (run : Text) (c : Char) :
    decimalValue (run ++ [c]) = 10 * decimalValue run + digitValue c := by
  simp [decimalValue]

/-- Reading the decimal text of a number gives the number back. -/
@[simp] theorem decimalValue_ofNat (n : Nat) : decimalValue (ofNat n) = n := by
  induction n using Nat.strongRecOn with
  | ind n ih =>
    unfold ofNat at *
    rw [Nat.toDigits_eq_if (by decide)]
    split
    · next small => simp [decimalValue, digitValue_digitChar small]
    · next large =>
      rw [decimalValue_append_singleton, ih (n / 10) (by omega),
        digitValue_digitChar (Nat.mod_lt _ (by decide))]
      omega

theorem ofNat_ne_nil (n : Nat) : ofNat n ≠ [] := Nat.toDigits_ne_nil

theorem isDigit_of_mem_ofNat {n : Nat} {c : Char} (member : c ∈ ofNat n) : isDigit c = true :=
  Nat.isDigit_of_mem_toDigits (by decide) (by decide) member

/-- A run of digits is taken whole when no digit follows it. -/
theorem spanDigits_run {run rest : Text} (digits : ∀ c ∈ run, isDigit c = true)
    (stop : ∀ c ∈ rest.head?, isDigit c = false) : spanDigits (run ++ rest) = (run, rest) :=
  Prod.ext (takeWhile_run digits stop) (dropWhile_run digits stop)

theorem countOf_ofNat {n : Nat} (small : n < countLimit) : countOf (ofNat n) = n := by
  simp [countOf, small]

/-- The first count of a text is not changed by what precedes its digits. -/
theorem firstCount_append {front : Text} (rest : Text) (free : ∀ c ∈ front, isDigit c = false) :
    firstCount (front ++ rest) = firstCount rest := by
  unfold firstCount
  rw [List.dropWhile_append_of_pos]
  simpa using free

/-- The first count of a text that begins with a digit is that of the run there. -/
theorem firstCount_run {run rest : Text} (nonempty : run ≠ []) (digits : ∀ c ∈ run, isDigit c = true)
    (stop : ∀ c ∈ rest.head?, isDigit c = false) : firstCount (run ++ rest) = countOf run := by
  obtain ⟨c, more, rfl⟩ := List.exists_cons_of_ne_nil nonempty
  have digit : isDigit c = true := digits c List.mem_cons_self
  have reached : (c :: more ++ rest).dropWhile (!isDigit ·) = c :: more ++ rest :=
    List.dropWhile_cons_of_neg (by simp [digit])
  rw [firstCount, reached, spanDigits_run digits stop]

theorem firstCount_ofNat {n : Nat} (small : n < countLimit) {rest : Text}
    (stop : ∀ c ∈ rest.head?, isDigit c = false) : firstCount (ofNat n ++ rest) = n := by
  rw [firstCount_run (ofNat_ne_nil n) (fun _ => isDigit_of_mem_ofNat) stop, countOf_ofNat small]

end FormFill.Text
