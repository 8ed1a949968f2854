import FormFill.Text.Blank
import FormFill.Text.Decimal

/-! # Indices

An index is written as a decimal integer, after optional white space and with an optional sign; what
follows its digits is ignored. The digits are read one by one into a signed 64-bit integer; when one
of them leads out of the range, the index is the end of the range on that side. This is the integer
of the range that is nearest to the written one. Text of any other form is a missing index.
-/

namespace FormFill

/-- A digit is no white space. -/
theorem Text.isBlank_of_isDigit {c : Char} (digit : Text.isDigit c = true) :
    Text.isBlank c = false := by
  simp only [Text.isDigit, Bool.and_eq_true, decide_eq_true_eq] at digit
  have low : 48 ≤ c.toNat := digit.1
  have high : c.toNat ≤ 57 := digit.2
  simp [Text.isBlank, Text.blankRanges]
  omega

/-- A 1-based index, or a missing one. -/
abbrev Index := Option Int

namespace Index

def least : Int := -0x8000000000000000

def greatest : Int := 0x7FFFFFFFFFFFFFFF

/-- The nearest integer of the signed 64-bit range. -/
def clamp (i : Int) : Int := max least (min greatest i)

/-- An integer of the signed 64-bit range, or none. -/
def checked (i : Int) : Option Int := if least ≤ i ∧ i ≤ greatest then some i else none

/-- A value with one digit more, which counts with the given sign. Both steps are checked. -/
def appendDigit (sign value : Int) (c : Char) : Option Int := do
  let shifted ← checked (10 * value)
  checked (shifted + sign * Text.digitValue c)

/-- The value of a digit run with the given sign, or none if a digit leads out of the range. -/
def ofRun (sign : Int) (run : Text) : Option Int := run.foldlM (appendDigit sign) 0

/-- The end of the range on the side of a sign. -/
def extreme (sign : Int) : Int := if sign < 0 then least else greatest

/-- The value of the digit run at the front, with the given sign; a run that leads out of the range
has the value at its end. -/
def ofDigits (sign : Int) (text : Text) : Index :=
  match (Text.spanDigits text).1 with
  | [] => none
  | run => some ((ofRun sign run).getD (extreme sign))

/-- The index that a text denotes. -/
def parse (text : Text) : Index :=
  match text.dropWhile Text.isBlank with
  | '-' :: rest => ofDigits (-1) rest
  | '+' :: rest => ofDigits 1 rest
  | rest => ofDigits 1 rest

/-- The 0-based position of an index; a missing index and those below one have none. -/
def position? : Index → Option Nat
  | some i => if 1 ≤ i then some (i - 1).toNat else none
  | none => none

/-- The canonical text of an index; `x` stands for a missing one. -/
def render : Index → Text
  | some i => Text.ofInt i
  | none => ['x']

theorem clamp_bounds (i : Int) : least ≤ clamp i ∧ clamp i ≤ greatest := by
  unfold clamp least greatest
  omega

theorem clamp_eq {i : Int} (low : least ≤ i) (high : i ≤ greatest) : clamp i = i := by
  unfold clamp
  omega

/-- A check on the way tells nothing when the value goes on away from zero. -/
theorem checked_bind_checked {i : Int} {next : Int → Int}
    (away : 0 ≤ i ∧ i ≤ next i ∨ next i ≤ i ∧ i ≤ 0) :
    (checked i >>= fun j => checked (next j)) = checked (next i) := by
  by_cases inside : least ≤ i ∧ i ≤ greatest
  · rw [checked, if_pos inside]
    rfl
  · have outside : ¬ (least ≤ next i ∧ next i ≤ greatest) := by
      unfold least greatest at *
      omega
    rw [checked, if_neg inside, checked, if_neg outside]
    rfl

/-- The steps of one digit lead to its exact value, or out of the range if that lies outside. -/
theorem checked_appendDigit (sign : Int) (n : Nat) (c : Char) :
    (checked (sign * n) >>= fun value => appendDigit sign value c) =
      checked (sign * ↑(10 * n + Text.digitValue c)) := by
  -- The value and the new digit lie on one side of zero: what has left the range stays outside.
  have aside : 0 ≤ sign * n ∧ 0 ≤ sign * Text.digitValue c ∨
      sign * n ≤ 0 ∧ sign * Text.digitValue c ≤ 0 := by
    rcases Int.le_total 0 sign with positive | negative
    · exact .inl ⟨Int.mul_nonneg positive (by omega), Int.mul_nonneg positive (by omega)⟩
    · exact .inr ⟨Int.mul_nonpos_of_nonpos_of_nonneg negative (by omega),
        Int.mul_nonpos_of_nonpos_of_nonneg negative (by omega)⟩
  calc (checked (sign * n) >>= fun value => appendDigit sign value c)
    _ = ((checked (sign * n) >>= fun value => checked (10 * value)) >>= fun shifted =>
          checked (shifted + sign * Text.digitValue c)) := (bind_assoc ..).symm
    _ = (checked (10 * (sign * n)) >>= fun shifted =>
          checked (shifted + sign * Text.digitValue c)) := by
        rw [checked_bind_checked (by omega)]
    _ = checked (10 * (sign * n) + sign * Text.digitValue c) := checked_bind_checked (by omega)
    _ = checked (sign * ↑(10 * n + Text.digitValue c)) := by
        rw [Int.natCast_add, Int.natCast_mul, Int.mul_add, Int.mul_left_comm]
        rfl

/-- Digits that follow a value lead to its exact continuation, or out of the range. -/
private theorem checked_foldlM (sign : Int) (run : Text) (n : Nat) :
    (checked (sign * n) >>= run.foldlM (appendDigit sign)) =
      checked (sign * ↑(run.foldl (fun value c => 10 * value + Text.digitValue c) n)) := by
  induction run generalizing n with
  | nil => simp
  | cons c run ih =>
    simp only [List.foldlM_cons, List.foldl_cons]
    rw [← ih, ← checked_appendDigit, bind_assoc]

/-- The steps of a run stay in the range exactly when its value lies there. -/
theorem ofRun_eq_checked (sign : Int) (run : Text) :
    ofRun sign run = checked (sign * Text.decimalValue run) := by
  have start : checked (sign * (0 : Nat)) = some 0 := by simp [checked, least, greatest]
  have whole := checked_foldlM sign run 0
  rwa [start] at whole

/-- Reading a run with checked steps gives the nearest integer to its exact value. -/
theorem getD_ofRun (sign : Int) (run : Text) :
    (ofRun sign run).getD (extreme sign) = clamp (sign * Text.decimalValue run) := by
  rw [ofRun_eq_checked]
  unfold checked
  split
  · next inside => rw [Option.getD_some, clamp_eq inside.1 inside.2]
  · next outside =>
    unfold extreme
    split
    · next negative =>
      have below : sign * Text.decimalValue run ≤ 0 :=
        Int.mul_nonpos_of_nonpos_of_nonneg (by omega) (by omega)
      unfold clamp least greatest at *
      simp only [Option.getD_none]
      omega
    · next positive =>
      have above : 0 ≤ sign * Text.decimalValue run := Int.mul_nonneg (by omega) (by omega)
      unfold clamp least greatest at *
      simp only [Option.getD_none]
      omega

theorem ofDigits_eq_some_iff {sign i : Int} {text : Text} :
    ofDigits sign text = some i ↔ (Text.spanDigits text).1 ≠ [] ∧
      clamp (sign * Text.decimalValue (Text.spanDigits text).1) = i := by
  unfold ofDigits
  split
  · next empty => simp [empty]
  · next nonempty =>
    have nonempty : (Text.spanDigits text).1 ≠ [] := nonempty
    simp [getD_ofRun, nonempty]

/-- Every parsed index lies in the signed 64-bit range. -/
theorem parse_bounds {text : Text} {i : Int} (parsed : parse text = some i) :
    least ≤ i ∧ i ≤ greatest := by
  have bounded : ∀ {sign : Int} {rest : Text}, ofDigits sign rest = some i →
      least ≤ i ∧ i ≤ greatest := by
    intro sign rest found
    obtain ⟨-, rfl⟩ := ofDigits_eq_some_iff.mp found
    exact clamp_bounds _
  unfold parse at parsed
  split at parsed <;> exact bounded parsed

/-- A digit run that ends before further text has the nearest index to its exact value. -/
theorem ofDigits_run (sign : Int) {run rest : Text} (nonempty : run ≠ [])
    (digits : ∀ c ∈ run, Text.isDigit c = true) (stop : ∀ c ∈ rest.head?, Text.isDigit c = false) :
    ofDigits sign (run ++ rest) = some (clamp (sign * Text.decimalValue run)) := by
  rw [ofDigits_eq_some_iff, Text.spanDigits_run digits stop]
  exact ⟨nonempty, rfl⟩

/-- Without a sign the digits are read at once. -/
theorem parse_of_digit {c : Char} (digit : Text.isDigit c = true) (rest : Text) :
    parse (c :: rest) = ofDigits 1 (c :: rest) := by
  unfold parse
  rw [List.dropWhile_cons_of_neg (by simp [Text.isBlank_of_isDigit digit])]
  split
  · next same => cases same; contradiction
  · next same => cases same; contradiction
  · rfl

/-- Reading the decimal text of an integer gives its nearest index, unless more digits follow. -/
theorem parse_ofInt_append (i : Int) {rest : Text}
    (stop : ∀ c ∈ rest.head?, Text.isDigit c = false) :
    parse (Text.ofInt i ++ rest) = some (clamp i) := by
  have read : ∀ (sign : Int) (n : Nat),
      ofDigits sign (Text.ofNat n ++ rest) = some (clamp (sign * n)) := by
    intro sign n
    rw [ofDigits_run sign (Text.ofNat_ne_nil n) (fun _ => Text.isDigit_of_mem_ofNat) stop,
      Text.decimalValue_ofNat]
  cases i with
  | negSucc n =>
    have blank : Text.isBlank '-' = false := by decide
    simp only [parse, Text.ofInt, List.cons_append, List.dropWhile_cons, blank]
    exact (read (-1) (n + 1)).trans (by congr 2; omega)
  | ofNat n =>
    have front : parse (Text.ofNat n ++ rest) = ofDigits 1 (Text.ofNat n ++ rest) := by
      obtain ⟨c, more, run⟩ := List.exists_cons_of_ne_nil (Text.ofNat_ne_nil n)
      rw [run, List.cons_append]
      exact parse_of_digit (Text.isDigit_of_mem_ofNat (n := n) (by simp [run])) _
    exact front.trans ((read 1 n).trans (by rw [Int.one_mul]; rfl))

/-- The canonical text of an index in range is read back. -/
theorem parse_render {index : Index} (range : ∀ i ∈ index, least ≤ i ∧ i ≤ greatest) :
    parse index.render = index := by
  cases index with
  | none => rfl
  | some i =>
    have read : parse (Text.ofInt i ++ []) = some (clamp i) := parse_ofInt_append i (by simp)
    rw [List.append_nil, clamp_eq (range i rfl).1 (range i rfl).2] at read
    exact read

end Index

end FormFill
