import FormFill.Population

/-! # What a rule reads

Of a specification one rule is active, and of the known fields this rule looks at few: the field of
an expression, or the sources and references of a generation rule. Maps that agree on these names
give the same value and leave the random source in the same place.
-/

namespace FormFill

namespace FieldMap

/-- Maps that hold the same under each of the names, a missing value included. -/
def AgreeOn (names : List Text) (left right : FieldMap) : Prop :=
  ∀ name ∈ names, left.get? name = right.get? name

theorem AgreeOn.mono {names more : List Text} {left right : FieldMap}
    (agree : AgreeOn more left right) (subset : names ⊆ more) : AgreeOn names left right :=
  fun name member => agree name (subset member)

instance (names : List Text) (left right : FieldMap) : Decidable (AgreeOn names left right) :=
  inferInstanceAs (Decidable (∀ name ∈ names, left.get? name = right.get? name))

/-- Maps that agree on a row of names but for one agree on all of it once that one is written. -/
theorem AgreeOn.insert {names : List Text} {name : Text} {left right : FieldMap}
    (agree : AgreeOn (names.filter (· ≠ name)) left right) (value : FieldValue) :
    AgreeOn names (left.insert name value) (right.insert name value) := by
  intro query member
  rw [NameMap.get?_insert, NameMap.get?_insert]
  split
  · rfl
  · next other => exact agree query (List.mem_filter.mpr ⟨member, by simpa using other⟩)

/-- Writing a name that is not among them keeps a map in agreement with itself. -/
theorem agreeOn_insert {names : List Text} {name : Text} (absent : name ∉ names)
    (fields : FieldMap) (value : FieldValue) : AgreeOn names (fields.insert name value) fields := by
  intro query member
  rw [NameMap.get?_insert, if_neg]
  exact fun same => absent (same ▸ member)

theorem AgreeOn.displayOf {name : Text} {left right : FieldMap}
    (agree : AgreeOn [name] left right) : left.displayOf name = right.displayOf name := by
  have same := agree name (List.mem_singleton_self name)
  rw [FieldMap.displayOf, FieldMap.displayOf, same]

end FieldMap

open FieldMap (AgreeOn)

namespace Expression

theorem extract_congr {expression : Expression} {left right : FieldMap}
    (agree : AgreeOn [expression.field] left right) :
    expression.extract left = expression.extract right := by
  rw [extract, extract, agree.displayOf]

end Expression

namespace Generator

/-- The fields that a generator looks up. -/
def reads : Generator → List Text
  | .randomDigits _ => []
  | .randomLetters _ => []
  | .duplicate repetition => [repetition.unit]
  | .reference expression => [expression.field]

theorem resolve_congr {generator : Generator} {left right : FieldMap}
    (agree : AgreeOn generator.reads left right) (source : Source) :
    generator.resolve (some left) source = generator.resolve (some right) source := by
  cases generator with
  | randomDigits count => rfl
  | randomLetters count => rfl
  | duplicate repetition =>
    have same := agree repetition.unit (List.mem_singleton_self _)
    simp only [resolve, Repetition.resolve, Option.bind_some, same]
  | reference expression => simp only [resolve, Expression.extract_congr agree]

end Generator

namespace Segment

/-- The fields that a segment looks up. -/
def reads : Segment → List Text
  | .literal _ => []
  | .group content => (Generator.parse content).reads

theorem resolve_congr {segment : Segment} {left right : FieldMap}
    (agree : AgreeOn segment.reads left right) (source : Source) :
    segment.resolve (some left) source = segment.resolve (some right) source := by
  cases segment with
  | literal text => rfl
  | group content => exact Generator.resolve_congr agree source

theorem resolveAll_congr {segments : List Segment} {left right : FieldMap}
    (agree : AgreeOn (segments.flatMap reads) left right) (source : Source) :
    resolveAll (some left) segments source = resolveAll (some right) segments source := by
  induction segments generalizing source with
  | nil => rfl
  | cons segment rest ih =>
    have here : AgreeOn segment.reads left right := agree.mono (by simp)
    have later : AgreeOn (rest.flatMap reads) left right := agree.mono (by simp)
    simp only [resolveAll, resolve_congr here, ih later]

end Segment

/-- What decides the value of a field. -/
inductive FieldRule where
  | entered (value : FieldValue)
  | extracted (expression : Text)
  | generated (rule : Text)
  | kept
deriving DecidableEq

namespace FieldRule

/-- The value that a rule gives to the field `id`, before padding. -/
def resolve (rule : FieldRule) (id : Text) (fields : FieldMap) (source : Source) :
    (FieldValue × ValueSource) × Source :=
  match rule with
  | .entered value => ((value, .explicit), source)
  | .extracted expression => ((.text (FormFill.extract expression fields), .dependsOn), source)
  | .generated rule =>
    ((.text (generate rule (some fields) source).1, .generated),
      (generate rule (some fields) source).2)
  | .kept =>
    match fields.get? id with
    | some value => ((value, .known), source)
    | none => ((.text [], .empty), source)

/-- A field that is kept has the known value, or none at all. -/
theorem value_resolve_kept (id : Text) (fields : FieldMap) (source : Source) :
    (kept.resolve id fields source).1.1 = (fields.get? id).getD (.text []) := by
  unfold resolve
  cases fields.get? id <;> rfl

theorem source_resolve_kept (id : Text) (fields : FieldMap) (source : Source) :
    (kept.resolve id fields source).2 = source := by
  unfold resolve
  cases fields.get? id <;> rfl

/-- The fields that an active rule looks up. A field that is kept has no active rule. -/
def reads : FieldRule → List Text
  | .entered _ => []
  | .extracted expression => [(Expression.parse expression).field]
  | .generated rule => (Segment.ofRule rule).flatMap Segment.reads
  | .kept => []

/-- An active rule sees nothing but the fields that it looks up. -/
theorem resolve_congr {rule : FieldRule} (active : rule ≠ .kept) {left right : FieldMap}
    (agree : AgreeOn rule.reads left right) (id : Text) (source : Source) :
    rule.resolve id left source = rule.resolve id right source := by
  cases rule with
  | entered value => rfl
  | extracted expression => simp only [resolve, FormFill.extract, Expression.extract_congr agree]
  | generated rule => simp only [resolve, generate, Segment.resolveAll_congr agree]
  | kept => exact absurd rfl active

end FieldRule

namespace FieldSpec

/-- The rule that is active: an entered value wins, then the expression, then the generation rule.
-/
def rule (spec : FieldSpec) : FieldRule :=
  match spec.value, given spec.dependsOn, given spec.generationRule with
  | some value, _, _ => .entered value
  | none, some expression, _ => .extracted expression
  | none, none, some rule => .generated rule
  | none, none, none => .kept

theorem resolve_eq_rule (spec : FieldSpec) (fields : FieldMap) (source : Source) :
    spec.resolve fields source = spec.rule.resolve spec.id fields source := by
  unfold resolve rule
  cases spec.value with
  | some value => rfl
  | none =>
    cases given spec.dependsOn with
    | some expression => rfl
    | none => cases given spec.generationRule <;> rfl

/-- The fields that populating looks up: those of the active rule, or the field's own when it is
kept. -/
def reads (spec : FieldSpec) : List Text :=
  if spec.rule = .kept then [spec.id] else spec.rule.reads

theorem notMem_reads {spec : FieldSpec} {name : Text} (other : name ≠ spec.id)
    (unread : name ∉ spec.rule.reads) : name ∉ spec.reads := by
  unfold reads
  split
  · simpa using other
  · exact unread

/-- A field resolves alike under maps that agree on what it looks up. -/
theorem resolve_congr {spec : FieldSpec} {left right : FieldMap}
    (agree : AgreeOn spec.reads left right) (source : Source) :
    spec.resolve left source = spec.resolve right source := by
  unfold reads at agree
  rw [resolve_eq_rule, resolve_eq_rule]
  split at agree
  · next kept =>
    have held := agree spec.id (List.mem_singleton_self _)
    rw [kept]
    simp only [FieldRule.resolve, held]
  · next active => exact FieldRule.resolve_congr active agree _ _

/-- A field is populated alike under maps that agree on what it looks up. -/
theorem populate_congr {spec : FieldSpec} {left right : FieldMap}
    (agree : AgreeOn spec.reads left right) (source : Source) :
    spec.populate left source = spec.populate right source := by
  rw [populate, populate, resolve_congr agree]

end FieldSpec

end FormFill
