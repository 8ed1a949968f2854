import FormFill.Proofs.JsonLiterals
import FormFill.Proofs.JsonNumbers

/-! # The grammar of JSON values

The frames of arrays and objects are rows of parts; what a part is depends on who reads it. A value
is a scalar or such a frame of values, of any number of levels. Whatever a value is made of, it is
passed over whole: a bound on nesting that the length of its text keeps to is never reached.
-/

namespace FormFill.Json

/-- The texts of the parts of an array or object that has some, up to its closing bracket. -/
inductive Row {ι : Type} (close : Char) (Part : Text → ι → Prop) : Text → List ι → Prop
  | last {text after : Text} {item : ι} (part : Part text item) (blankAfter : IsBlank after) :
      Row close Part (text ++ (after ++ [close])) [item]
  | more {text after before others : Text} {item : ι} {items : List ι} (part : Part text item)
      (blankAfter : IsBlank after) (blankBefore : IsBlank before)
      (further : Row close Part others items) :
      Row close Part (text ++ (after ++ ',' :: (before ++ others))) (item :: items)

/-- The texts of an array or object after its opening bracket. -/
inductive Body {ι : Type} (close : Char) (Part : Text → ι → Prop) : Text → List ι → Prop
  | empty {before : Text} (blankBefore : IsBlank before) : Body close Part (before ++ [close]) []
  | filled {before text : Text} {items : List ι} (blankBefore : IsBlank before)
      (row : Row close Part text items) : Body close Part (before ++ text) items

/-- An item of an array, which stands for its own text. -/
def Item (Inner : Text → Prop) (text item : Text) : Prop := item = text ∧ Inner text

/-- What stands behind a key: a colon and a value. -/
inductive ColonText (Inner : Text → Prop) : Text → Prop
  | colon {after before value : Text} (blankAfter : IsBlank after) (blankBefore : IsBlank before)
      (isValue : Inner value) : ColonText Inner (after ++ ':' :: (before ++ value))

/-- A member of an object, which stands for the spelling of its key. -/
inductive MemberText (Tail : Text → Prop) : Text → Text → Prop
  | member {name tail : Text} (literal : LiteralShape name) (isTail : Tail tail) :
      MemberText Tail ('"' :: (name ++ '"' :: tail)) name

/-- The texts of scalars. A string may have unpaired surrogates, and a number may have any size. -/
inductive ScalarText : Text → Prop
  | null : ScalarText "null".toList
  | boolean (value : Bool) : ScalarText (writeBoolean value)
  | number {text : Text} {parts : NumberLiteral} (number : NumberText text parts) : ScalarText text
  | string {spelled : Text} (literal : LiteralShape spelled) :
      ScalarText ('"' :: (spelled ++ ['"']))

/-- The texts of scalars, and of arrays and objects of inner values. -/
inductive Layer (Inner : Text → Prop) : Text → Prop
  | scalar {text : Text} (scalar : ScalarText text) : Layer Inner text
  | array {text : Text} {items : List Text} (body : Body ']' (Item Inner) text items) :
      Layer Inner ('[' :: text)
  | object {text : Text} {names : List Text}
      (body : Body '}' (MemberText (ColonText Inner)) text names) : Layer Inner ('{' :: text)

/-- The texts of values of at most `levels` levels, of which a scalar is one. -/
def ValueText : Nat → Text → Prop
  | 0 => fun _ => False
  | levels + 1 => Layer (ValueText levels)

/-- The texts of values, however deep they nest. -/
def JsonText (text : Text) : Prop := ∃ levels, ValueText levels text

section Rows

variable {ι : Type} {close : Char} {Part Other : Text → ι → Prop} {text : Text} {items : List ι}

/-- The parts of a row are no longer than the row. -/
theorem Row.mono (row : Row close Part text items)
    (into : ∀ part item, part.length ≤ text.length → Part part item → Other part item) :
    Row close Other text items := by
  induction row with
  | last part blankAfter => exact .last (into _ _ (by simp) part) blankAfter
  | more part blankAfter blankBefore _ ih =>
    refine .more (into _ _ (by simp) part) blankAfter blankBefore (ih fun part item short => ?_)
    exact into part item (by simp; omega)

theorem Body.mono (body : Body close Part text items)
    (into : ∀ part item, part.length ≤ text.length → Part part item → Other part item) :
    Body close Other text items := by
  cases body with
  | empty blankBefore => exact .empty blankBefore
  | filled blankBefore row =>
    exact .filled blankBefore (row.mono fun part item short => into part item (by simp; omega))

end Rows

theorem MemberText.mono {Tail Other : Text → Prop} {text name : Text}
    (member : MemberText Tail text name)
    (into : ∀ tail, tail.length ≤ text.length → Tail tail → Other tail) :
    MemberText Other text name := by
  cases member with
  | member literal isTail => exact .member literal (into _ (by simp; omega) isTail)

theorem ColonText.mono {Inner Other : Text → Prop} {text : Text} (tail : ColonText Inner text)
    (into : ∀ value, value.length ≤ text.length → Inner value → Other value) :
    ColonText Other text := by
  cases tail with
  | colon blankAfter blankBefore isValue =>
    exact .colon blankAfter blankBefore (into _ (by simp; omega) isValue)

theorem Layer.mono {Inner Other : Text → Prop} {text : Text} (layer : Layer Inner text)
    (into : ∀ value, Inner value → Other value) : Layer Other text := by
  cases layer with
  | scalar scalar => exact .scalar scalar
  | array body => exact .array (body.mono fun _ _ _ part => ⟨part.1, into _ part.2⟩)
  | object body =>
    exact .object (body.mono fun _ _ _ part => part.mono fun _ _ tail =>
      tail.mono fun _ _ => into _)

/-- A value is a scalar, or an array or object of values. -/
theorem JsonText.layer {text : Text} (value : JsonText text) : Layer JsonText text := by
  obtain ⟨levels, value⟩ := value
  cases levels with
  | zero => contradiction
  | succ levels => exact value.mono fun inner isValue => ⟨levels, isValue⟩

section Levels

variable {ι : Type} {close : Char} {Part : Nat → Text → ι → Prop} {text : Text} {items : List ι}

theorem ValueText.mono {levels more : Nat} (fewer : levels ≤ more) (value : ValueText levels text) :
    ValueText more text := by
  induction levels generalizing more text with
  | zero => contradiction
  | succ levels ih =>
    obtain ⟨more, rfl⟩ : ∃ above, more = above + 1 := ⟨more - 1, by omega⟩
    exact Layer.mono value fun inner isValue => ih (by omega) isValue

/-- Parts of any levels are all of the greatest level among them. -/
theorem Row.exists_level (above : ∀ n m part item, n ≤ m → Part n part item → Part m part item)
    (row : Row close (fun part item => ∃ levels, Part levels part item) text items) :
    ∃ levels, Row close (Part levels) text items := by
  induction row with
  | last part blankAfter =>
    obtain ⟨levels, part⟩ := part
    exact ⟨levels, .last part blankAfter⟩
  | more part blankAfter blankBefore _ ih =>
    obtain ⟨here, part⟩ := part
    obtain ⟨later, further⟩ := ih
    refine ⟨max here later, .more (above _ _ _ _ (Nat.le_max_left ..) part) blankAfter blankBefore ?_⟩
    exact further.mono fun _ _ _ part => above _ _ _ _ (Nat.le_max_right ..) part

theorem Body.exists_level (above : ∀ n m part item, n ≤ m → Part n part item → Part m part item)
    (body : Body close (fun part item => ∃ levels, Part levels part item) text items) :
    ∃ levels, Body close (Part levels) text items := by
  cases body with
  | empty blankBefore => exact ⟨0, .empty blankBefore⟩
  | filled blankBefore row =>
    obtain ⟨levels, row⟩ := row.exists_level above
    exact ⟨levels, .filled blankBefore row⟩

/-- Values are closed under arrays and objects, whatever the levels of their parts. -/
theorem Layer.jsonText (layer : Layer JsonText text) : JsonText text := by
  cases layer with
  | scalar scalar => exact ⟨1, Layer.scalar scalar⟩
  | @array text items body =>
    have parts : Body ']' (fun part item => ∃ levels, Item (ValueText levels) part item) text items :=
      body.mono fun _ _ _ isItem => isItem.2.imp fun _ value => ⟨isItem.1, value⟩
    obtain ⟨levels, body⟩ := parts.exists_level fun _ _ _ _ fewer isItem =>
      ⟨isItem.1, isItem.2.mono fewer⟩
    exact ⟨levels + 1, Layer.array body⟩
  | @object text names body =>
    have parts : Body '}' (fun part name =>
        ∃ levels, MemberText (ColonText (ValueText levels)) part name) text names := by
      refine body.mono fun _ _ _ isMember => ?_
      obtain ⟨literal, ⟨blankAfter, blankBefore, levels, value⟩⟩ := isMember
      exact ⟨levels, .member literal (.colon blankAfter blankBefore value)⟩
    obtain ⟨levels, body⟩ := parts.exists_level fun _ _ _ _ fewer isMember =>
      isMember.mono fun _ _ tail => tail.mono fun _ _ value => value.mono fewer
    exact ⟨levels + 1, Layer.object body⟩

end Levels

section Opening

/-- A text that can be an item of an array: it begins with neither a blank nor the closing
bracket. -/
def Opens (text : Text) : Prop := ∃ c rest, text = c :: rest ∧ isSpace c = false ∧ c ≠ ']'

/-- A row of items begins as its first item does. -/
theorem Row.opens {Inner : Text → Prop} {text : Text} {items : List Text}
    (row : Row ']' (Item Inner) text items) (first : ∀ item, Inner item → Opens item) :
    Opens text := by
  cases row with
  | last isItem _ | more isItem _ _ _ =>
    obtain ⟨c, rest, rfl, opens⟩ := first _ isItem.2
    exact ⟨c, _, rfl, opens⟩

theorem NumberText.opens {text : Text} {parts : NumberLiteral} (number : NumberText text parts) :
    ∃ c rest, text = c :: rest ∧ (c = '-' ∨ Text.isDigit c = true) := by
  cases number with
  | @positive whole _ _ _ _ isWhole =>
    obtain ⟨c, rest, rfl⟩ := List.exists_cons_of_ne_nil isWhole.1.1
    exact ⟨c, _, rfl, .inr (isWhole.1.2 c List.mem_cons_self)⟩
  | negative => exact ⟨'-', _, rfl, .inl rfl⟩

/-- The characters that begin a number begin nothing else. -/
theorem ne_of_beginsNumber {c : Char} (begins : c = '-' ∨ Text.isDigit c = true) :
    isSpace c = false ∧ c ≠ ']' ∧ c ≠ 'n' ∧ c ≠ 't' ∧ c ≠ 'f' ∧ c ≠ '"' ∧ c ≠ '[' ∧ c ≠ '{' := by
  rcases begins with rfl | digit
  · decide
  have other : ∀ d, Text.isDigit d = false → c ≠ d := by
    rintro d plain rfl
    exact absurd digit (by simp [plain])
  have solid : isSpace c = false := by
    simp [isSpace, other ' ' rfl, other '\t' rfl, other '\n' rfl, other '\r' rfl]
  exact ⟨solid, other _ rfl, other _ rfl, other _ rfl, other _ rfl, other _ rfl, other _ rfl,
    other _ rfl⟩

theorem Layer.opens {Inner : Text → Prop} {text : Text} (layer : Layer Inner text) :
    Opens text := by
  cases layer with
  | scalar scalar =>
    cases scalar with
    | null => exact ⟨_, _, rfl, by decide⟩
    | boolean value => cases value <;> exact ⟨_, _, rfl, by decide⟩
    | number number =>
      obtain ⟨c, rest, rfl, begins⟩ := number.opens
      have other := ne_of_beginsNumber begins
      exact ⟨c, rest, rfl, other.1, other.2.1⟩
    | string literal => exact ⟨_, _, rfl, by decide⟩
  | array body => exact ⟨_, _, rfl, by decide⟩
  | object body => exact ⟨_, _, rfl, by decide⟩

theorem ValueText.opens {levels : Nat} {text : Text} (value : ValueText levels text) : Opens text :=
  (JsonText.layer ⟨levels, value⟩).opens

end Opening

section Frames

/-- A row of items that are all taken is taken as the list of their values. -/
theorem Row.itemsText {ι α : Type} {reader : Reader α} {value : ι → α} {text : Text}
    {items : List ι}
    (row : Row ']' (fun part item => Spells reader part (value item)) text items) :
    ItemsText reader text (items.map value) := by
  induction row with
  | last part blankAfter => simpa using ItemsText.last part blankAfter
  | more part blankAfter blankBefore _ ih =>
    simpa using ItemsText.more part blankAfter blankBefore ih

theorem Body.arrayText {ι α : Type} {reader : Reader α} {value : ι → α} {text : Text}
    {items : List ι}
    (body : Body ']' (fun part item => Spells reader part (value item)) text items) :
    ArrayText reader text (items.map value) := by
  cases body with
  | empty blankBefore => exact .empty blankBefore
  | filled blankBefore row => exact .filled blankBefore row.itemsText

variable {σ κ ι : Type} {key : Reader κ} {member : σ → κ → Reader σ}

/-- A text that is read as a member from one state to another: a key behind its quote, and then the
member itself. -/
def Leads (key : Reader κ) (member : σ → κ → Reader σ) (state : σ) (text : Text) (next : σ) :
    Prop :=
  ∃ opened tail name, text = '"' :: (opened ++ tail) ∧
    (∀ rest, key (opened ++ rest) = .ok (name, rest)) ∧ Accepts (member state name) tail next

variable {Part : Text → ι → Prop} {step : σ → ι → σ} {text : Text} {items : List ι}

/-- Members that each lead one step further lead, as a row, as far as all of their steps. -/
theorem Row.membersText (row : Row '}' Part text items)
    (leads : ∀ part item, Part part item → ∀ state, Leads key member state part (step state item))
    (state : σ) :
    ∃ opened, text = '"' :: opened ∧
      MembersText key member state opened (items.foldl step state) := by
  induction row generalizing state with
  | last part blankAfter =>
    obtain ⟨opened, tail, name, rfl, named, accepted⟩ := leads _ _ part state
    exact ⟨_, rfl, by simpa using MembersText.last named accepted blankAfter⟩
  | more part blankAfter blankBefore _ ih =>
    obtain ⟨opened, tail, name, rfl, named, accepted⟩ := leads _ _ part state
    obtain ⟨others, rfl, further⟩ := ih _
    exact ⟨_, rfl, by simpa using MembersText.more named accepted blankAfter blankBefore further⟩

theorem Body.objectText (body : Body '}' Part text items)
    (leads : ∀ part item, Part part item → ∀ state, Leads key member state part (step state item))
    (state : σ) : ObjectText key member state text (items.foldl step state) := by
  cases body with
  | empty blankBefore => exact .empty blankBefore
  | filled blankBefore row =>
    obtain ⟨opened, rfl, members⟩ := row.membersText leads state
    exact .filled blankBefore members

end Frames

section Skipping

theorem skipNested_append {before : Text} (blank : IsBlank before) (depth : Nat) (rest : Text) :
    skipNested depth (before ++ rest) = skipNested depth rest := by
  unfold skipNested
  rw [skipSpace_append blank]

theorem ScalarText.accepts_skipNested {text : Text} (scalar : ScalarText text) (depth : Nat) :
    Accepts (skipNested depth) text () := by
  intro rest ends
  cases scalar with
  | null => cases depth <;> rfl
  | boolean value => cases depth <;> cases value <;> rfl
  | @number text parts number =>
    have cut : numberLiteral (.malformed .invalidNumber) (text ++ rest) = .ok (parts, rest) :=
      number.numberLiteral_eq ends.endsNumber
    obtain ⟨c, more, rfl, begins⟩ := number.opens
    obtain ⟨solid, -, notNull, notTrue, notFalse, notQuote, -⟩ := ne_of_beginsNumber begins
    rw [List.cons_append] at cut ⊢
    rw [skipNested.eq_def]
    simp [skipSpace_cons solid, notNull, notTrue, notFalse, notQuote, begins, skipNumber, cut, bind,
      Except.bind, pure, Except.pure]
  | @string spelled literal =>
    have skipped := literal.skipLiteral_eq rest
    have solid : skipSpace ('"' :: (spelled ++ '"' :: rest)) = '"' :: (spelled ++ '"' :: rest) :=
      skipSpace_cons rfl _
    rw [skipNested.eq_def]
    simp [solid, skipped]

theorem ColonText.accepts_skipMember {depth : Nat} {text : Text}
    (tail : ColonText (fun value => Accepts (skipNested depth) value ()) text) :
    Accepts (skipMember (skipNested depth) () ()) text () := by
  intro rest ends
  cases tail with
  | @colon after before value blankAfter blankBefore isValue =>
    have passed : skipNested depth (before ++ (value ++ rest)) = .ok ((), rest) :=
      (skipNested_append blankBefore depth _).trans (isValue rest ends)
    simp [skipMember, readColon_append blankAfter, passed, bind, Except.bind]

theorem MemberText.leads {inner : Reader Unit} {text name : Text}
    (member : MemberText (fun tail => Accepts (skipMember inner () ()) tail ()) text name) :
    Leads skipLiteral (skipMember inner) () text () := by
  cases member with
  | member literal isTail => exact ⟨_, _, _, by simp, literal.skipLiteral_closed, isTail⟩

/-- A value is passed over whole under any bound that the length of its text keeps to. -/
theorem ValueText.accepts_skipNested {levels : Nat} {text : Text} (value : ValueText levels text) :
    ∀ bound, text.length ≤ bound → Accepts (skipNested bound) text () := by
  induction levels generalizing text with
  | zero => contradiction
  | succ levels ih =>
    intro bound short
    -- The bracket of a frame is one character more than its items have, so they keep to one less.
    cases value with
    | scalar scalar => exact scalar.accepts_skipNested bound
    | @array text items body =>
      cases bound with
      | zero => simp at short
      | succ bound =>
        intro rest _
        have passed : Body ']' (fun part _ => Spells (skipNested bound) part ()) text items :=
          body.mono fun part _ within isItem =>
            ⟨isItem.2.opens, ih isItem.2 bound (by simp at short; omega)⟩
        have whole := passed.arrayText.arrayBody_eq .skipping rest
        have solid : skipSpace ('[' :: (text ++ rest)) = '[' :: (text ++ rest) :=
          skipSpace_cons rfl _
        have notDigit : Text.isDigit '[' = false := rfl
        simp [skipNested, solid, notDigit, whole, Except.map]
    | @object text names body =>
      cases bound with
      | zero => simp at short
      | succ bound =>
        intro rest _
        have passed : Body '}' (MemberText fun tail =>
            Accepts (skipMember (skipNested bound) () ()) tail ()) text names :=
          body.mono fun _ _ shortPart member => member.mono fun _ shortTail tail =>
            (tail.mono fun _ shortValue inner =>
              ih inner bound (by simp at short; omega)).accepts_skipMember
        have object := passed.objectText (fun _ _ member _ => member.leads) ()
        have whole := object.objectBody_eq .skipping rest
        have solid : skipSpace ('{' :: (text ++ rest)) = '{' :: (text ++ rest) :=
          skipSpace_cons rfl _
        have notDigit : Text.isDigit '{' = false := rfl
        simp [skipNested, solid, notDigit, whole]

end Skipping

end FormFill.Json
