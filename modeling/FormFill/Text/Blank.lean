import FormFill.Text.Basic

/-! # White space and words

White space is the Unicode property `White_Space`. The words of a text are its maximal runs of other
characters, so they do not depend on how much white space stands between them.
-/

namespace FormFill.Text

/-- The scalars with the Unicode property `White_Space`, as inclusive ranges of code points. -/
def blankRanges : List (Nat × Nat) :=
  [(0x09, 0x0D), (0x20, 0x20), (0x85, 0x85), (0xA0, 0xA0), (0x1680, 0x1680), (0x2000, 0x200A),
    (0x2028, 0x2029), (0x202F, 0x202F), (0x205F, 0x205F), (0x3000, 0x3000)]

/-- Whether `c` is white space. -/
def isBlank (c : Char) : Bool :=
  blankRanges.any fun range => range.1 ≤ c.toNat && c.toNat ≤ range.2

/-- The maximal runs without white space, in order. -/
def words (text : Text) : List Text :=
  (text.splitOnP isBlank).filter (!·.isEmpty)

@[simp] theorem words_nil : words [] = [] := rfl

/-- A text falls apart into words at every white space. -/
theorem words_append_blank {c : Char} (blank : isBlank c = true) (front back : Text) :
    words (front ++ c :: back) = words front ++ words back := by
  simp [words, List.splitOnP_append_cons front back blank]

/-- A run without white space is one word. -/
theorem words_of_solid {run : Text} (nonempty : run ≠ [])
    (solid : ∀ c ∈ run, isBlank c = false) : words run = [run] := by
  simp [words, List.splitOnP_eq_singleton solid, nonempty]

/-- White space in front changes no word. -/
theorem words_blank_append {front : Text} (blank : ∀ c ∈ front, isBlank c = true) (back : Text) :
    words (front ++ back) = words back := by
  induction front with
  | nil => rfl
  | cons c front ih =>
    rw [List.cons_append, ← List.nil_append (c :: _),
      words_append_blank (blank c List.mem_cons_self), words_nil, List.nil_append]
    exact ih fun d member => blank d (List.mem_cons_of_mem _ member)

end FormFill.Text
