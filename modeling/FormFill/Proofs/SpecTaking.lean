import FormFill.Proofs.SpecRoundTrip
import FormFill.Proofs.JsonTaking

/-! # Specifications taken whole

Whatever JSON value stands where a specification is due, the reader refuses it or takes the whole of
it, and so does the reader of each part. So the members of an object are met one after the other,
whatever their values are, and a part whose key comes again is refused.
-/

namespace FormFill.FieldSpec

open Json

variable {text rest left : Text}

section Parts

theorem takes_readString (value : JsonText text) : Takes readString text := by
  intro rest content left ends read
  obtain ⟨⟨token, behind⟩, opened, later⟩ := exists_of_bind_eq_ok read
  obtain ⟨tail, entry, rfl⟩ := value.layer.entry ends opened
  cases token with
  | string content =>
    cases entry
    cases later
    rfl
  | null | boolean _ | number _ | openArray | openObject => contradiction

theorem takes_readOptionalString (value : JsonText text) : Takes readOptionalString text := by
  intro rest content left ends read
  obtain ⟨⟨token, behind⟩, opened, later⟩ := exists_of_bind_eq_ok read
  obtain ⟨tail, entry, rfl⟩ := value.layer.entry ends opened
  cases token with
  | string _ | null =>
    cases entry
    cases later
    rfl
  | boolean _ | number _ | openArray | openObject => contradiction

theorem takes_readOptionalFieldValue (value : JsonText text) (depth : Nat) :
    Takes (readOptionalFieldValue depth) text := by
  intro rest content left ends read
  obtain ⟨levels, value⟩ := value
  obtain ⟨⟨json, behind⟩, here, later⟩ := exists_of_bind_eq_ok read
  obtain rfl := value.takes_readValue depth _ _ _ ends here
  dsimp only at later
  split at later
  · cases later
    rfl
  · split at later
    · cases later
      rfl
    · contradiction

theorem takes_readPart (value : JsonText text) (spec : PartialSpec) (key : SpecKey) :
    Takes (readPart spec key) text := by
  intro rest next left ends read
  cases key with
  | id =>
    obtain ⟨⟨content, behind⟩, here, later⟩ := exists_of_bind_eq_ok read
    cases later
    exact takes_readString value _ _ _ ends here
  | value =>
    obtain ⟨⟨content, behind⟩, here, later⟩ := exists_of_bind_eq_ok read
    cases later
    exact takes_readOptionalFieldValue value _ _ _ _ ends here
  | dependsOn | generationRule | maxGeneration =>
    obtain ⟨⟨content, behind⟩, here, later⟩ := exists_of_bind_eq_ok read
    cases later
    exact takes_readOptionalString value _ _ _ ends here

theorem readPart_append {before : Text} (blank : IsBlank before) (spec : PartialSpec)
    (key : SpecKey) (rest : Text) :
    readPart spec key (before ++ rest) = readPart spec key rest := by
  cases key <;>
    simp only [readPart, readString, readOptionalString, readOptionalFieldValue,
      readValue_append blank, readToken_append blank]

/-- A value is passed over whole, with blanks in front of it. -/
theorem accepts_skipValue {before : Text} (blank : IsBlank before) (value : JsonText text) :
    Accepts skipValue (before ++ text) () := by
  intro rest ends
  obtain ⟨levels, value⟩ := value
  have short : text.length ≤ (before ++ text ++ rest).length := by simp; omega
  rw [skipValue, List.append_assoc, skipNested_append blank, ← List.append_assoc]
  exact value.accepts_skipNested _ short rest ends

/-- What stands behind a member name is refused or taken whole. -/
theorem tailTaken_readPartNamed {tail : Text} (isTail : ColonText JsonText tail) :
    TailTaken readPartNamed tail := by
  intro spec name rest next left ends read
  cases isTail with
  | @colon after before text blankAfter blankBefore value =>
    have split : after ++ ':' :: (before ++ text) ++ rest =
        after ++ ':' :: (before ++ text ++ rest) := by simp
    rw [split, readPartNamed] at read
    cases known : SpecKey.ofName? name with
    | none =>
      simp only [known, readColon_append blankAfter, accepts_skipValue blankBefore value rest ends,
        bind, Except.bind] at read
      cases read
      rfl
    | some key =>
      cases met : spec.has key with
      | true =>
        simp only [known, met] at read
        contradiction
      | false =>
        simp only [known, met, readColon_append blankAfter, bind, Except.bind] at read
        rw [List.append_assoc, if_neg (by simp), readPart_append blankBefore] at read
        exact takes_readPart value spec key rest next left ends read

end Parts

section Sequences

/-- What stands behind an item of an array: the closing bracket, or a comma and further items. -/
inductive BehindItem : Text → Prop
  | closed {after : Text} (blankAfter : IsBlank after) : BehindItem (after ++ [']'])
  | further {after before others : Text} {items : List Text} (blankAfter : IsBlank after)
      (blankBefore : IsBlank before) (row : Row ']' (Item JsonText) others items) :
      BehindItem (after ++ ',' :: (before ++ others))

theorem BehindItem.endsValue {behind : Text} (isBehind : BehindItem behind) (rest : Text) :
    EndsValue (behind ++ rest) := by
  cases isBehind with
  | closed blankAfter => simpa using endsValue_append_cons blankAfter (by simp) rest
  | further blankAfter _ _ => simpa using endsValue_append_cons blankAfter (by simp) _

theorem exists_behindItem {items : List Text} (row : Row ']' (Item JsonText) text items) :
    ∃ item behind, text = item ++ behind ∧ JsonText item ∧ BehindItem behind := by
  cases row with
  | last isItem blankAfter => exact ⟨_, _, rfl, isItem.2, .closed blankAfter⟩
  | more isItem blankAfter blankBefore further =>
    exact ⟨_, _, rfl, isItem.2, .further blankAfter blankBefore further⟩

/-- Behind an item the reader stops at the closing bracket or comes to a further row. -/
theorem nextPart_behindItem {behind : Text} {more : Bool} (isBehind : BehindItem behind)
    (read : nextPart false (behind ++ rest) = .ok (more, left)) :
    (more = false ∧ left = ']' :: rest) ∨
      (more = true ∧ ∃ row items, Row ']' (Item JsonText) row items ∧ left = row ++ rest) := by
  cases isBehind with
  | @closed after blankAfter =>
    have space : skipSpace (after ++ [']'] ++ rest) = ']' :: rest :=
      skipSpace_front blankAfter rfl [] rest
    simp only [nextPart, space] at read
    cases read
    exact .inl ⟨rfl, rfl⟩
  | @further after before others items blankAfter blankBefore row =>
    have space : skipSpace (after ++ ',' :: (before ++ others) ++ rest) =
        ',' :: (before ++ (others ++ rest)) := by
      rw [skipSpace_front blankAfter rfl, List.append_assoc]
    obtain ⟨c, tail, rfl, solid, notClosed⟩ := row.opens fun _ value => value.layer.opens
    have next : skipSpace (before ++ (c :: tail ++ rest)) = c :: tail ++ rest :=
      skipSpace_append_cons blankBefore solid _
    simp only [nextPart, space, next, Char.reduceEq, Bool.false_eq_true, reduceIte] at read
    split at read
    · contradiction
    · next closed =>
      cases closed
      exact absurd rfl notClosed
    · cases read
      exact .inr ⟨rfl, _, items, row, rfl⟩

/-- Behind an item the parts that follow are read up to an item, or up to the closing bracket. -/
theorem exists_behindItem_readParts {keys : List SpecKey} (later : .id ∉ keys)
    {spec final : PartialSpec} {behind : Text} (isBehind : BehindItem behind)
    (read : readParts keys spec (behind ++ rest) = .ok (final, left)) :
    ∃ last, BehindItem last ∧ left = last ++ rest := by
  induction keys generalizing spec behind with
  | nil =>
    cases read
    exact ⟨behind, isBehind, rfl⟩
  | cons key keys ih =>
    obtain ⟨notId, later⟩ := List.ne_and_not_mem_of_not_mem_cons later
    have notFirst : decide (key = .id) = false := decide_eq_false (Ne.symm notId)
    rw [readParts, notFirst] at read
    obtain ⟨⟨more, next⟩, come, read⟩ := exists_of_bind_eq_ok read
    rcases nextPart_behindItem isBehind come with ⟨rfl, rfl⟩ | ⟨rfl, row, items, isRow, rfl⟩
    · cases read
      exact ⟨[']'], .closed isBlank_nil, rfl⟩
    · obtain ⟨item, behind, rfl, value, isBehind⟩ := exists_behindItem isRow
      obtain ⟨⟨met, next⟩, here, read⟩ := exists_of_bind_eq_ok read
      rw [List.append_assoc] at here
      obtain rfl := takes_readPart value _ _ _ _ _ (isBehind.endsValue rest) here
      exact ih later isBehind read

/-- Behind an item the array can only be closed. -/
theorem rest_of_readClosing {behind : Text} (isBehind : BehindItem behind)
    (read : readClosing (behind ++ rest) = .ok ((), left)) : left = rest := by
  cases isBehind with
  | @closed after blankAfter =>
    have space : skipSpace (after ++ [']'] ++ rest) = ']' :: rest :=
      skipSpace_front blankAfter rfl [] rest
    simp only [readClosing, space] at read
    cases read
    rfl
  | @further after before others items blankAfter blankBefore row =>
    have space : skipSpace (after ++ ',' :: (before ++ others) ++ rest) =
        ',' :: (before ++ (others ++ rest)) := by
      rw [skipSpace_front blankAfter rfl, List.append_assoc]
    simp only [readClosing, space] at read
    split at read <;> contradiction

/-- An array that stands for a specification is refused or taken whole. -/
theorem takes_readSequence {items : List Text} (body : Body ']' (Item JsonText) text items) :
    Takes readSequence text := by
  intro rest spec left ends read
  obtain ⟨⟨parts, behind⟩, readParts, read⟩ := exists_of_bind_eq_ok read
  obtain ⟨⟨more, next⟩, come, further⟩ := exists_of_bind_eq_ok readParts
  -- The first part is come to by its own rule; behind it every part is come to as an item.
  cases body with
  | @empty before blankBefore =>
    have space : skipSpace (before ++ [']'] ++ rest) = ']' :: rest :=
      skipSpace_front blankBefore rfl [] rest
    simp only [nextPart, space] at come
    cases come
    cases further
    contradiction
  | @filled before row items blankBefore isRow =>
    obtain ⟨c, tail, same, solid, notClosed⟩ := isRow.opens fun _ value => value.layer.opens
    have space : skipSpace (before ++ row ++ rest) = c :: (tail ++ rest) := by
      simpa [same] using skipSpace_append_cons blankBefore solid (tail ++ rest)
    simp only [nextPart, space, notClosed, decide_true, reduceIte] at come
    cases come
    obtain ⟨item, behindItem, split, value, isBehind⟩ := exists_behindItem isRow
    obtain ⟨⟨met, next⟩, here, further⟩ := exists_of_bind_eq_ok further
    have row : c :: (tail ++ rest) = item ++ (behindItem ++ rest) := by
      rw [← List.cons_append, ← same, split, List.append_assoc]
    rw [row] at here
    obtain rfl := takes_readPart value _ _ _ _ _ (isBehind.endsValue rest) here
    obtain ⟨last, isLast, rfl⟩ := exists_behindItem_readParts (by decide) isBehind further
    dsimp only at read
    split at read
    · obtain ⟨⟨⟨⟩, next⟩, closing, done⟩ := exists_of_bind_eq_ok read
      cases done
      exact rest_of_readClosing isLast closing
    · contradiction

end Sequences

section Repetitions

variable {spec next final : PartialSpec} {key : SpecKey} {name : Text} {names : List Text}

theorem has_readPart (read : readPart spec key text = .ok (next, left)) (other : SpecKey) :
    next.has other = (decide (other = key) || spec.has other) := by
  cases key with
  | id | value | dependsOn | generationRule | maxGeneration =>
    obtain ⟨⟨content, behind⟩, -, done⟩ := exists_of_bind_eq_ok read
    cases done
    cases other <;> simp [PartialSpec.has]

/-- A part that has been met is still met after another member. -/
theorem has_readPartNamed (read : readPartNamed spec name text = .ok (next, left))
    (met : spec.has key = true) : next.has key = true := by
  unfold readPartNamed at read
  split at read
  · split at read
    · contradiction
    · obtain ⟨⟨⟨⟩, behind⟩, -, done⟩ := exists_of_bind_eq_ok read
      rw [has_readPart done, met, Bool.or_true]
  · obtain ⟨⟨⟨⟩, behind⟩, -, later⟩ := exists_of_bind_eq_ok read
    obtain ⟨⟨⟨⟩, behind⟩, -, done⟩ := exists_of_bind_eq_ok later
    cases done
    exact met

/-- A part is taken only when it has not been met, and is met from then on. -/
theorem met_by_readPartNamed (read : readPartNamed spec key.name text = .ok (next, left)) :
    spec.has key = false ∧ next.has key = true := by
  simp only [readPartNamed, SpecKey.ofName?_name] at read
  split at read
  · contradiction
  · next fresh =>
    obtain ⟨⟨⟨⟩, behind⟩, -, done⟩ := exists_of_bind_eq_ok read
    have met : next.has key = (decide (key = key) || spec.has key) := has_readPart done key
    exact ⟨by simpa using fresh, by simpa using met⟩

/-- No member of a run denotes a part that was met before the run. -/
theorem not_denotes_of_run (run : Run readPartNamed spec names final) (met : spec.has key = true) :
    ∀ spelled ∈ names, ¬ LiteralText spelled key.name := by
  induction run with
  | done => exact List.forall_mem_nil _
  | @step state next final spelled name tail left others named taken further ih =>
    refine List.forall_mem_cons.mpr ⟨fun literal => ?_, ih (has_readPartNamed taken met)⟩
    cases (literal.readLiteral_eq tail).symm.trans named
    exact absurd met (by simp [(met_by_readPartNamed taken).1])

/-- No two members of a run denote one part. -/
theorem not_repeated_of_run (run : Run readPartNamed spec names final) {first second : Text}
    (twice : [first, second].Sublist names) (denotesFirst : LiteralText first key.name) :
    ¬ LiteralText second key.name := by
  induction run with
  | done => contradiction
  | @step state next final spelled name tail left others named taken further ih =>
    -- Either both members come later, or the first is met here and the second may not come later.
    cases twice with
    | cons _ twice => exact ih twice
    | cons_cons _ rest =>
      cases (denotesFirst.readLiteral_eq tail).symm.trans named
      have met : next.has key = true := (met_by_readPartNamed taken).2
      exact not_denotes_of_run further met second (List.singleton_sublist.mp rest)

/-- The texts of objects in which two members denote one part. -/
inductive RepeatedPart : Text → Prop
  | object {text first second : Text} {names : List Text} {key : SpecKey}
      (body : Body '}' (MemberText (ColonText JsonText)) text names)
      (twice : [first, second].Sublist names) (denotesFirst : LiteralText first key.name)
      (denotesSecond : LiteralText second key.name) : RepeatedPart ('{' :: text)

end Repetitions

section Objects

/-- Whatever value stands where a specification is due, it is refused or taken whole. -/
theorem takes_readOne (value : JsonText text) : Takes readOne text := by
  intro rest spec left ends read
  obtain ⟨⟨token, behind⟩, opened, later⟩ := exists_of_bind_eq_ok read
  obtain ⟨tail, entry, rfl⟩ := value.layer.entry ends opened
  cases entry with
  | scalar notArray notObject => cases token <;> contradiction
  | array body => exact takes_readSequence body _ _ _ ends later
  | object body =>
    obtain ⟨⟨met, behind⟩, members, done⟩ := exists_of_bind_eq_ok later
    have whole : Body '}' (MemberText (TailTaken readPartNamed)) tail _ :=
      body.mono fun _ _ _ isMember => isMember.mono fun _ _ => tailTaken_readPartNamed
    obtain ⟨rfl, -⟩ := whole.of_objectBody members
    dsimp only at done
    split at done
    · cases done
      rfl
    · contradiction

/-- An object with a repeated part is refused. -/
theorem RepeatedPart.not_taken (repeated : RepeatedPart text) : ¬ Taken readOne text := by
  rintro ⟨rest, spec, left, read⟩
  cases repeated with
  | @object text first second names key body twice denotesFirst denotesSecond =>
    have read : readMembers (text ++ rest) = .ok (spec, left) := read
    obtain ⟨⟨met, behind⟩, members, -⟩ := exists_of_bind_eq_ok read
    have whole : Body '}' (MemberText (TailTaken readPartNamed)) text names :=
      body.mono fun _ _ _ isMember => isMember.mono fun _ _ => tailTaken_readPartNamed
    exact not_repeated_of_run (whole.of_objectBody members).2 twice denotesFirst denotesSecond

end Objects

end FormFill.FieldSpec
