import FormFill.Text.Basic

/-! # Segments of a rule

A generation rule is a row of literal runs and parenthesised groups. A group runs from `(` to the
first `)` after it and must not be empty. A `(` that opens no group, and a `)` that closes none, are
dropped; nothing else is.
-/

namespace FormFill

/-- A piece of a rule: text to copy, or the contents of a group. -/
inductive Segment where
  | literal (text : Text)
  | group (content : Text)
deriving DecidableEq

namespace Segment

/-- Whether a character is a parenthesis. -/
def isParenthesis (c : Char) : Bool := c == '(' || c == ')'

/-- The contents of the group that an opening parenthesis before this text opens: the text up to the
first `)`, if there is one and it is not the first character. -/
def contents? (text : Text) : Option Text :=
  match text.takeWhile (· != ')') with
  | [] => none
  | c :: content => if ')' ∈ text then some (c :: content) else none

/-- Cut a rule into segments, leaving out its first `skip` characters. -/
def cut (skip : Nat) : Text → List Segment
  | [] => []
  | c :: rest =>
    match skip with
    | skip + 1 => cut skip rest
    | 0 =>
      if c = '(' then
        match contents? rest with
        | some content => .group content :: cut (content.length + 1) rest
        | none => cut 0 rest
      else if c = ')' then cut 0 rest
      else
        let run := rest.takeWhile (!isParenthesis ·)
        .literal (c :: run) :: cut run.length rest

/-- The segments of a rule, in order. -/
def ofRule (rule : Text) : List Segment := cut 0 rule

/-- The segment as it is written in a rule. -/
def render : Segment → Text
  | .literal text => text
  | .group content => '(' :: content ++ [')']

/-- Skipping characters is dropping them. -/
theorem cut_eq_drop (skip : Nat) (rule : Text) : cut skip rule = ofRule (rule.drop skip) := by
  induction skip generalizing rule with
  | zero => rfl
  | succ skip ih =>
    cases rule with
    | nil => rfl
    | cons c rest => exact ih rest

/-- Before a text that closes it, a nonempty group is opened. -/
theorem contents?_append_closing {content : Text} (rest : Text) (nonempty : content ≠ [])
    (open_ : ')' ∉ content) : contents? (content ++ ')' :: rest) = some content := by
  have taken : (content ++ ')' :: rest).takeWhile (· != ')') = content :=
    Text.takeWhile_run (fun c member => bne_iff_ne.mpr fun same => open_ (same ▸ member)) (by simp)
  unfold contents?
  rw [taken]
  cases content with
  | nil => contradiction
  | cons c inner => simp

theorem ofRule_group {content : Text} (rest : Text) (nonempty : content ≠ [])
    (open_ : ')' ∉ content) :
    ofRule ('(' :: content ++ ')' :: rest) = .group content :: ofRule rest := by
  rw [ofRule, List.cons_append, cut, if_pos rfl, contents?_append_closing rest nonempty open_]
  simp [cut_eq_drop]

/-- A parenthesis that opens no group is dropped. -/
theorem ofRule_opening {rest : Text} (stray : contents? rest = none) :
    ofRule ('(' :: rest) = ofRule rest := by
  rw [ofRule, cut, if_pos rfl, stray]
  rfl

/-- A parenthesis that closes no group is dropped. -/
@[simp] theorem ofRule_closing (rest : Text) : ofRule (')' :: rest) = ofRule rest := rfl

theorem isParenthesis_eq_false {c : Char} (plain : isParenthesis c = false) :
    c ≠ '(' ∧ c ≠ ')' := by
  simpa [isParenthesis] using plain

theorem isParenthesis_of_mem {text : Text} (noOpening : '(' ∉ text) (noClosing : ')' ∉ text) :
    ∀ c ∈ text, isParenthesis c = false := by
  intro c member
  have notOpening : c ≠ '(' := fun same => noOpening (same ▸ member)
  have notClosing : c ≠ ')' := fun same => noClosing (same ▸ member)
  simp [isParenthesis, notOpening, notClosing]

/-- A run between parentheses is taken whole. -/
theorem takeWhile_plain {run rest : Text} (plain : ∀ c ∈ run, isParenthesis c = false)
    (stop : ∀ c ∈ rest.head?, isParenthesis c = true) :
    (run ++ rest).takeWhile (!isParenthesis ·) = run :=
  Text.takeWhile_run (fun c member => by simp [plain c member])
    (fun c member => by simp [stop c member])

theorem ofRule_run {run rest : Text} (nonempty : run ≠ [])
    (plain : ∀ c ∈ run, isParenthesis c = false)
    (stop : ∀ c ∈ rest.head?, isParenthesis c = true) :
    ofRule (run ++ rest) = .literal run :: ofRule rest := by
  cases run with
  | nil => contradiction
  | cons c more =>
    obtain ⟨notOpening, notClosing⟩ := isParenthesis_eq_false (plain c List.mem_cons_self)
    have taken : (more ++ rest).takeWhile (!isParenthesis ·) = more :=
      takeWhile_plain (fun d member => plain d (List.mem_cons_of_mem _ member)) stop
    rw [List.cons_append, ofRule, cut, if_neg notOpening, if_neg notClosing, taken]
    simp [cut_eq_drop]

end Segment

end FormFill
