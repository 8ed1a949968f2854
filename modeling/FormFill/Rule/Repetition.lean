import FormFill.Text.Decimal

/-! # Repetitions

The form `unit[count]` names a nonempty unit on one line and how often it is repeated. Duplication
generators and padding rules share it.
-/

namespace FormFill

/-- A unit and how often it is wanted. -/
structure Repetition where
  unit : Text
  count : Nat
deriving DecidableEq

namespace Repetition

/-- Read `unit[digits]`; the brackets are the last ones of the text. -/
def parse? (text : Text) : Option Repetition :=
  match text.reverse with
  | ']' :: back =>
    match Text.spanDigits back with
    | (run, '[' :: unit) =>
      if run ≠ [] ∧ unit ≠ [] ∧ '\n' ∉ unit then some ⟨unit.reverse, Text.countOf run.reverse⟩
      else none
    | _ => none
  | _ => none

/-- The text of a repetition. -/
def render (repetition : Repetition) : Text :=
  repetition.unit ++ '[' :: Text.ofNat repetition.count ++ [']']

/-- A unit on one line and a digit run in brackets are read, with the count that the run denotes. -/
theorem parse?_bracketed {unit run : Text} (nonempty : unit ≠ []) (line : '\n' ∉ unit)
    (counted : run ≠ []) (digits : ∀ c ∈ run, Text.isDigit c = true) :
    parse? (unit ++ '[' :: run ++ [']']) = some ⟨unit, Text.countOf run⟩ := by
  have span : Text.spanDigits (run.reverse ++ '[' :: unit.reverse) =
      (run.reverse, '[' :: unit.reverse) :=
    Text.spanDigits_run (fun c member => digits c (List.mem_reverse.mp member)) (by simp; decide)
  have back : (unit ++ '[' :: run ++ [']']).reverse =
      ']' :: (run.reverse ++ '[' :: unit.reverse) := by simp
  unfold parse?
  rw [back]
  simp only [span]
  simp [nonempty, line, counted]

/-- The written form of a repetition is read back, whatever characters its unit has but line ends.
-/
theorem parse?_render {repetition : Repetition} (unit : repetition.unit ≠ [])
    (line : '\n' ∉ repetition.unit) (small : repetition.count < Text.countLimit) :
    parse? repetition.render = some repetition := by
  have read := parse?_bracketed unit line (Text.ofNat_ne_nil repetition.count)
    (fun _ => Text.isDigit_of_mem_ofNat)
  rwa [Text.countOf_ofNat small] at read

/-- Only a bracketed digit run after a unit on one line is read. -/
theorem eq_of_parse?_eq_some {text : Text} {repetition : Repetition}
    (parsed : parse? text = some repetition) :
    ∃ run, text = repetition.unit ++ '[' :: run ++ [']'] ∧ repetition.unit ≠ [] ∧
      '\n' ∉ repetition.unit ∧ run ≠ [] ∧ (∀ c ∈ run, Text.isDigit c = true) ∧
      repetition.count = Text.countOf run := by
  unfold parse? at parsed
  split at parsed
  · next back reversed =>
    split at parsed
    · next run unit span =>
      split at parsed
      · next shape =>
        cases parsed
        obtain ⟨counted, nonempty, line⟩ := shape
        have whole : run ++ '[' :: unit = back := by
          have joined := Text.spanDigits_append back
          rwa [span] at joined
        refine ⟨run.reverse, ?_, by simpa using nonempty, by simpa using line,
          by simpa using counted, ?_, rfl⟩
        · rw [← List.reverse_reverse text, reversed, ← whole]
          simp
        · intro c member
          have taken : back.takeWhile Text.isDigit = run := congrArg Prod.fst span
          have all := List.all_takeWhile (p := Text.isDigit) (l := back)
          rw [taken] at all
          exact List.all_eq_true.mp all c (List.mem_reverse.mp member)
      · contradiction
    · contradiction
  · contradiction

end Repetition

end FormFill
