/-! # Texts and bounded repetition

A text is its list of Unicode scalars, so lengths, positions and orders are those of scalars. Sizes
in UTF-8 bytes matter only to the bound on repetition: a repetition that could not be held in memory
has no copies at all.
-/

namespace FormFill

abbrev Text := List Char

namespace Text

/-- The number of bytes of the UTF-8 form. -/
def byteSize (text : Text) : Nat := text.foldr (fun c size => c.utf8Size + size) 0

/-- No text in memory has more bytes than the greatest signed 64-bit number. -/
def maxBytes : Nat := 0x7FFFFFFFFFFFFFFF

/-- Machine counts are unsigned 64-bit numbers and stay below this. -/
def countLimit : Nat := 0x10000000000000000

/-- `count`, or zero when that many units of `unitSize` bytes would exceed `maxBytes`. -/
def boundedCount (unitSize count : Nat) : Nat :=
  if unitSize * count ≤ maxBytes then count else 0

/-- Exactly `count` copies of `unit`, one after another. -/
def copies : Text → Nat → Text
  | [], _ => []
  | unit, count => (List.replicate count unit).flatten

/-- `count` copies of `unit`, or none when they would exceed `maxBytes`. -/
def repeated (unit : Text) (count : Nat) : Text :=
  unit.copies (boundedCount unit.byteSize count)

/-- A run is taken whole when the text after it does not continue it. -/
theorem takeWhile_run {keep : Char → Bool} {run rest : Text} (inside : ∀ c ∈ run, keep c = true)
    (stop : ∀ c ∈ rest.head?, keep c = false) : (run ++ rest).takeWhile keep = run := by
  rw [List.takeWhile_append_of_pos inside]
  cases rest with
  | nil => simp
  | cons c rest => simp [stop c rfl]

/-- What follows a run is left when it does not continue the run. -/
theorem dropWhile_run {keep : Char → Bool} {run rest : Text} (inside : ∀ c ∈ run, keep c = true)
    (stop : ∀ c ∈ rest.head?, keep c = false) : (run ++ rest).dropWhile keep = rest := by
  rw [List.dropWhile_append_of_pos inside]
  cases rest with
  | nil => rfl
  | cons c rest => exact List.dropWhile_cons_of_neg (by simp [stop c rfl])

/-- What is left behind a run does not continue it. -/
theorem dropWhile_stop (keep : Char → Bool) (text : Text) :
    ∀ c ∈ (text.dropWhile keep).head?, keep c = false := by
  intro c first
  have stop := List.head?_dropWhile_not keep text
  rwa [Option.mem_def.mp first] at stop

@[simp] theorem byteSize_nil : byteSize [] = 0 := rfl

@[simp] theorem byteSize_cons (c : Char) (text : Text) :
    byteSize (c :: text) = c.utf8Size + text.byteSize := rfl

@[simp] theorem byteSize_append (left right : Text) :
    byteSize (left ++ right) = left.byteSize + right.byteSize := by
  induction left with
  | nil => simp
  | cons c rest ih => simp [ih, Nat.add_assoc]

theorem copies_eq_flatten (unit : Text) (count : Nat) :
    unit.copies count = (List.replicate count unit).flatten := by
  cases unit with
  | nil => simp [copies]
  | cons c rest => rfl

@[simp] theorem copies_zero (unit : Text) : unit.copies 0 = [] := by
  simp [copies_eq_flatten]

theorem copies_succ (unit : Text) (count : Nat) :
    unit.copies (count + 1) = unit ++ unit.copies count := by
  simp [copies_eq_flatten, List.replicate_succ]

@[simp] theorem length_copies (unit : Text) (count : Nat) :
    (unit.copies count).length = count * unit.length := by
  simp [copies_eq_flatten]

@[simp] theorem byteSize_copies (unit : Text) (count : Nat) :
    (unit.copies count).byteSize = count * unit.byteSize := by
  induction count with
  | zero => simp
  | succ count ih => rw [copies_succ, byteSize_append, ih, Nat.succ_mul, Nat.add_comm]

end Text

end FormFill
