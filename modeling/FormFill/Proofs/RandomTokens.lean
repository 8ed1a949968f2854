import FormFill.Proofs.Duplication
import FormFill.Proofs.RuleConcatenation

/-! # Random tokens

A random token asks for as many characters as the first digit run between its brackets says,
whatever else stands there. Each character is drawn at a place of its alphabet and takes one word of
the source, or two. Nothing but the next words decides how many, so two tokens side by side draw
what one token for both counts draws.
-/

namespace FormFill

namespace Text

/-- The first maximal digit run of a text; it is empty when the text has no digit. -/
inductive FirstRun : Text → Text → Prop
  | absent {text : Text} (free : ∀ c ∈ text, isDigit c = false) : FirstRun text []
  | run {front run back : Text} (free : ∀ c ∈ front, isDigit c = false) (counted : run ≠ [])
      (digits : ∀ c ∈ run, isDigit c = true) (stop : ∀ c ∈ back.head?, isDigit c = false) :
      FirstRun (front ++ run ++ back) run

/-- How many characters a digit run asks for. -/
def requested (run : Text) : Nat :=
  if decimalValue run ≤ 2 ^ 63 - 1 then decimalValue run else 0

theorem boundedCount_one_countOf (run : Text) : boundedCount 1 (countOf run) = requested run := by
  rw [boundedCount_countOf, requested, Nat.mul_one]
  congr 1
  apply propext
  omega

theorem requested_ofNat {n : Nat} (small : n ≤ 2 ^ 63 - 1) : requested (ofNat n) = n := by
  rw [requested, decimalValue_ofNat, if_pos small]

/-- Text without digits around a text changes nothing about its first run. -/
theorem FirstRun.surrounded {text run front back : Text} (first : FirstRun text run)
    (freeFront : ∀ c ∈ front, isDigit c = false) (freeBack : ∀ c ∈ back, isDigit c = false) :
    FirstRun (front ++ text ++ back) run := by
  cases first with
  | absent free =>
    refine .absent fun c member => ?_
    rcases List.mem_append.mp member with inFront | inBack
    · exact (List.mem_append.mp inFront).elim (freeFront c) (free c)
    · exact freeBack c inBack
  | @run before run after free counted digits stop =>
    have whole : front ++ (before ++ run ++ after) ++ back =
        (front ++ before) ++ run ++ (after ++ back) := by simp
    rw [whole]
    refine .run (fun c member => (List.mem_append.mp member).elim (freeFront c) (free c)) counted
      digits fun c next => ?_
    cases after with
    | nil => exact freeBack c (List.mem_of_mem_head? next)
    | cons d after => exact stop c next

theorem digitFree_of_all {text : Text} (free : text.all (!isDigit ·) = true) :
    ∀ c ∈ text, isDigit c = false := by
  simpa using free

theorem exists_firstRun (text : Text) : ∃ run, FirstRun text run := by
  induction text with
  | nil => exact ⟨[], .absent (List.forall_mem_nil _)⟩
  | cons c rest ih =>
    cases digit : isDigit c with
    | false =>
      obtain ⟨run, first⟩ := ih
      have surrounded : FirstRun ([c] ++ rest ++ []) run :=
        first.surrounded (by simp [digit]) (by simp)
      exact ⟨run, by simpa using surrounded⟩
    | true =>
      have split : rest.takeWhile isDigit ++ rest.dropWhile isDigit = rest :=
        List.takeWhile_append_dropWhile
      have inside : ∀ d ∈ rest.takeWhile isDigit, isDigit d = true :=
        List.all_eq_true.mp List.all_takeWhile
      have first : FirstRun ([] ++ (c :: rest.takeWhile isDigit) ++ rest.dropWhile isDigit)
          (c :: rest.takeWhile isDigit) :=
        .run (List.forall_mem_nil _) (List.cons_ne_nil _ _)
          (List.forall_mem_cons.mpr ⟨digit, inside⟩) (dropWhile_stop isDigit rest)
      exact ⟨_, by simpa [split] using first⟩

theorem firstRun_ofNat (n : Nat) : FirstRun (ofNat n) (ofNat n) := by
  have first : FirstRun ([] ++ ofNat n ++ []) (ofNat n) :=
    .run (List.forall_mem_nil _) (ofNat_ne_nil n) (fun _ => isDigit_of_mem_ofNat) (by simp)
  simpa using first

/-- The count of a text is that of its first run. -/
theorem FirstRun.firstCount_eq {text run : Text} (first : FirstRun text run) :
    firstCount text = countOf run := by
  cases first with
  | absent free =>
    have none := firstCount_append [] free
    rwa [List.append_nil] at none
  | @run front run back free counted digits stop =>
    rw [List.append_assoc, firstCount_append _ free, firstCount_run counted digits stop]

end Text

namespace Alphabet

/-- The letter by which a token names its alphabet. -/
def mark : Alphabet → Char
  | .digits => 'n'
  | .letters => 'c'

/-- The least character. -/
def lowest : Alphabet → Char
  | .digits => '0'
  | .letters => 'a'

/-- The greatest character. -/
def highest : Alphabet → Char
  | .digits => '9'
  | .letters => 'z'

/-- The contents of a token with some text between its brackets. -/
def content (alphabet : Alphabet) (inside : Text) : Text :=
  'r' :: alphabet.mark :: '[' :: inside ++ [']']

/-- The generator of an alphabet. -/
def generator : Alphabet → Nat → Generator
  | .digits => .randomDigits
  | .letters => .randomLetters

/-- A token with some text between its brackets. -/
def token (alphabet : Alphabet) (inside : Text) : Text := '(' :: alphabet.content inside ++ [')']

theorem character_bounds (alphabet : Alphabet) :
    ∀ place < alphabet.characters.length,
      alphabet.lowest ≤ alphabet.character place ∧
        alphabet.character place ≤ alphabet.highest := by
  cases alphabet <;> decide

theorem closing_notMem_content {inside : Text} (enclosed : ')' ∉ inside) (alphabet : Alphabet) :
    ')' ∉ alphabet.content inside := by
  cases alphabet <;> simp [content, mark, enclosed]

theorem firstCount_content {inside run : Text} (first : inside.FirstRun run)
    (alphabet : Alphabet) : (alphabet.content inside).firstCount = Text.countOf run := by
  have front : ['r', alphabet.mark, '['].all (!Text.isDigit ·) = true := by
    cases alphabet <;> decide
  have back : [']'].all (!Text.isDigit ·) = true := by decide
  exact (first.surrounded (Text.digitFree_of_all front)
    (Text.digitFree_of_all back)).firstCount_eq

theorem parse_content {inside run : Text} (first : inside.FirstRun run) (alphabet : Alphabet) :
    Generator.parse (alphabet.content inside) = alphabet.generator (Text.countOf run) := by
  have read : Generator.random? (alphabet.content inside) =
      some (alphabet.generator (alphabet.content inside).firstCount) := by
    cases alphabet with
    | digits => exact Generator.random?_digits inside
    | letters => exact Generator.random?_letters inside
  rw [Generator.parse, read, firstCount_content first]

theorem resolve_generator (alphabet : Alphabet) (count : Nat) (fields : Option FieldMap)
    (source : Source) :
    let found := (alphabet.generator count).resolve fields source
    (found.1.output, found.2) = source.randomText alphabet count := by
  cases alphabet <;> rfl

/-- A token draws as many characters as its first digit run asks for. -/
theorem resolve_content {inside run : Text} (first : inside.FirstRun run) (alphabet : Alphabet)
    (fields : Option FieldMap) (source : Source) :
    let found := (Generator.parse (alphabet.content inside)).resolve fields source
    (found.1.output, found.2) = source.sample alphabet run.requested := by
  intro found
  have resolved := alphabet.resolve_generator (Text.countOf run) fields source
  rwa [← parse_content first alphabet, Source.randomText, Text.boundedCount_one_countOf] at resolved

/-- A token in front of a rule draws its characters, and the rule goes on with the words left. -/
theorem generate_token_append {inside run : Text} (first : inside.FirstRun run)
    (enclosed : ')' ∉ inside) (alphabet : Alphabet) (rest : Text) (fields : Option FieldMap)
    (source : Source) :
    let drawn := source.sample alphabet run.requested
    generate (alphabet.token inside ++ rest) fields source =
      (drawn.1 ++ (generate rest fields drawn.2).1, (generate rest fields drawn.2).2) := by
  intro drawn
  have found := resolve_content first alphabet fields source
  have nonempty : alphabet.content inside ≠ [] := List.cons_ne_nil _ _
  have split : alphabet.token inside ++ rest = '(' :: alphabet.content inside ++ ')' :: rest := by
    simp [token]
  rw [split, generate_group_append nonempty (closing_notMem_content enclosed alphabet)]
  simp only [drawn, ← found]

theorem generate_token {inside run : Text} (first : inside.FirstRun run) (enclosed : ')' ∉ inside)
    (alphabet : Alphabet) (fields : Option FieldMap) (source : Source) :
    generate (alphabet.token inside) fields source = source.sample alphabet run.requested := by
  have drawn := generate_token_append first enclosed alphabet [] fields source
  have nothing : ∀ source, generate [] fields source = ([], source) := fun _ => rfl
  simpa [nothing] using drawn

end Alphabet

namespace Source

/-- The places of the alphabet at which characters are drawn. -/
def places (alphabet : Alphabet) : Nat → Source → List Nat
  | 0, _ => []
  | count + 1, source =>
    let (place, source) := source.below alphabet.characters.length
    place :: places alphabet count source

theorem text_sample (alphabet : Alphabet) (count : Nat) (source : Source) :
    (source.sample alphabet count).1 = (source.places alphabet count).map alphabet.character := by
  induction count generalizing source with
  | zero => rfl
  | succ count ih => simp [sample, places, ih]

/-- A place that is drawn is a place of the alphabet. -/
theorem lt_of_mem_places (alphabet : Alphabet) {count : Nat} {source : Source} :
    ∀ place ∈ source.places alphabet count, place < alphabet.characters.length := by
  have positive : 0 < alphabet.characters.length := by cases alphabet <;> decide
  have small : alphabet.characters.length ≤ 2 ^ 32 := by cases alphabet <;> decide
  induction count generalizing source with
  | zero => exact List.forall_mem_nil _
  | succ count ih => exact List.forall_mem_cons.mpr ⟨below_lt positive small source, ih⟩

/-- Drawing passes over one word for each character, or two. -/
theorem exists_skip_sample (alphabet : Alphabet) (count : Nat) (source : Source) :
    ∃ taken, count ≤ taken ∧ taken ≤ 2 * count ∧
      (source.sample alphabet count).2 = source.skip taken := by
  obtain ⟨least, most⟩ := source.drawn_sample alphabet count
  refine ⟨(source.sample alphabet count).2.drawn - source.drawn, by omega, by omega, ?_⟩
  have place : source.drawn + ((source.sample alphabet count).2.drawn - source.drawn) =
      (source.sample alphabet count).2.drawn := by omega
  rw [skip, place, ← source.sample_word alphabet count]

end Source

/-- A token gives exactly as many characters as the first digit run between its brackets says, or
none when there is no digit or the number is too large. All of them are characters of the alphabet,
drawn at places in it, and each takes one word of the source or two. -/
theorem generate_random (alphabet : Alphabet) {inside : Text} (enclosed : ')' ∉ inside)
    (fields : Option FieldMap) (source : Source) :
    let result := generate (alphabet.token inside) fields source
    (∃ run, inside.FirstRun run) ∧
      ∀ run, inside.FirstRun run →
        let value := Text.decimalValue run
        let count := if value ≤ 2 ^ 63 - 1 then value else 0
        result.1.length = count ∧
          (∀ c ∈ result.1, alphabet.lowest ≤ c ∧ c ≤ alphabet.highest) ∧
          result.1 = (source.places alphabet count).map alphabet.character ∧
          (∀ place ∈ source.places alphabet count, place < alphabet.characters.length) ∧
          ∃ taken, count ≤ taken ∧ taken ≤ 2 * count ∧ result.2 = source.skip taken := by
  intro result
  refine ⟨inside.exists_firstRun, fun run first => ?_⟩
  intro value count
  have drawn : result = source.sample alphabet count :=
    Alphabet.generate_token first enclosed alphabet fields source
  have text : result.1 = (source.places alphabet count).map alphabet.character := by
    rw [drawn, Source.text_sample]
  refine ⟨?_, ?_, text, Source.lt_of_mem_places alphabet, ?_⟩
  · rw [drawn, Source.length_sample]
  · intro c member
    rw [text] at member
    obtain ⟨place, inPlaces, rfl⟩ := List.mem_map.mp member
    exact alphabet.character_bounds place (Source.lt_of_mem_places alphabet place inPlaces)
  · rw [drawn]
    exact source.exists_skip_sample alphabet count

/-- Only the first digit run counts, and its zeros do not. In each pair of words the first is so
large that the second is taken too, and its carry makes a two a three. -/
theorem generate_random_carried :
    let inside : Text := "[é\n0002(9".toList
    let source : Source := .cycle #[1288490188, 4294967295]
    let result := generate (Alphabet.digits.token inside) none source
    ')' ∉ inside ∧ result.1 = "33".toList ∧
      (∀ place ∈ source.places .digits 2, place < 10) ∧
      ∃ taken, 2 ≤ taken ∧ taken ≤ 4 ∧ result.2 = source.skip taken := by
  intro inside source result
  have enclosed : ')' ∉ inside := by decide
  have first : inside.FirstRun "0002".toList := by
    have run : Text.FirstRun ("[é\n".toList ++ "0002".toList ++ "(9".toList) "0002".toList :=
      .run (Text.digitFree_of_all rfl) (by decide) (List.all_eq_true.mp rfl) (by rintro c ⟨⟩; rfl)
    exact run
  obtain ⟨-, -, text, inPlaces, drawn⟩ :=
    (generate_random .digits enclosed none source).2 _ first
  have places : source.places .digits 2 = [3, 3] := by decide
  exact ⟨enclosed, text.trans (congrArg (List.map Alphabet.digits.character) places), inPlaces,
    drawn⟩

/-- Two tokens of one alphabet side by side are one token for the sum of their counts: it gives the
same text and leaves the source at the same word. -/
theorem generate_fused (alphabet : Alphabet) {first second : Nat}
    (small : first + second ≤ 2 ^ 63 - 1) (fields : Option FieldMap) (source : Source) :
    generate (alphabet.token (Text.ofNat first) ++ alphabet.token (Text.ofNat second)) fields
        source =
      generate (alphabet.token (Text.ofNat (first + second))) fields source := by
  have enclosed : ∀ n, ')' ∉ Text.ofNat n := fun n member =>
    absurd (Text.isDigit_of_mem_ofNat member) (by decide)
  have drawn : ∀ n, n ≤ 2 ^ 63 - 1 → ∀ source,
      generate (alphabet.token (Text.ofNat n)) fields source = source.sample alphabet n := by
    intro n fits source
    rw [Alphabet.generate_token (Text.firstRun_ofNat n) (enclosed n), Text.requested_ofNat fits]
  rw [Alphabet.generate_token_append (Text.firstRun_ofNat first) (enclosed first),
    Text.requested_ofNat (by omega), drawn second (by omega), drawn _ small, Source.sample_add]

/-- The sum is the greatest count that a token can ask for. -/
theorem generate_fused_greatest :
    9223372036854775805 + 2 ≤ 2 ^ 63 - 1 ∧
      generate "(rc[9223372036854775805])(rc[2])".toList none (.seeded 7) =
        generate "(rc[9223372036854775807])".toList none (.seeded 7) := by
  have small : 9223372036854775805 + 2 ≤ 2 ^ 63 - 1 := by decide
  have apart : Alphabet.letters.token (Text.ofNat 9223372036854775805) ++
      Alphabet.letters.token (Text.ofNat 2) = "(rc[9223372036854775805])(rc[2])".toList := by decide
  have whole : Alphabet.letters.token (Text.ofNat (9223372036854775805 + 2)) =
      "(rc[9223372036854775807])".toList := by decide
  rw [← apart, ← whole]
  exact ⟨small, generate_fused .letters small none (.seeded 7)⟩

end FormFill
