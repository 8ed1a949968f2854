import FormFill.Proofs.CommandInputs
import FormFill.Proofs.Drawing
import FormFill.Proofs.Explanation

/-! # What commands print

A command whose inputs have no problem knows one field map. What it prints for an expression or a
rule is what extraction or plain generation gives under that map, padded if it is asked to; a rule
that draws nothing needs no seed for that. Where padding fails, the command panics and prints
nothing.
-/

namespace FormFill

namespace GenerateArguments

/-- A value as it is printed: padded, if the command gives a rule for that. -/
def finish (arguments : GenerateArguments) (value : Text) : Option Text :=
  match arguments.padding with
  | some rule => Padding.paddedBy? rule value
  | none => some value

end GenerateArguments

/-- A rule that draws nothing from some source gives the same text over every other. -/
theorem generate_of_silent {rule : Text} {fields : Option FieldMap} {source : Source}
    (silent : (generate rule fields source).2.drawn = source.drawn) (other : Source) :
    (generate rule fields other).1 = (generate rule fields source).1 := by
  have quiet : Segment.demandAll (Segment.ofRule rule) = 0 :=
    (Segment.drawn_resolveAll_eq_iff _ fields source).mp silent
  have same := Segment.resolveAll_of_demandAll_eq_zero quiet fields other source
  simp only [generate, same]

theorem CommandError.map_ofPadding {α β : Type} (f : α → β) (padded : Option α) :
    f <$> ofPadding padded = ofPadding (padded.map f) := by
  cases padded <;> rfl

namespace Command

/-- What a run leaves behind that prints a text, or panics when there is no room for it. -/
def printing (environment : Environment) : Option Text → Outcome
  | some text => ⟨0, Report.line text, []⟩
  | none => ⟨101, [], environment.panic "capacity overflow".toList⟩

variable {environment : Environment} {known : FieldMap}

theorem output_extract {fields : FieldArguments} (given : fields.Give environment known)
    (expression : Text) :
    (extract expression fields).output environment =
      .ok (Report.line (FormFill.extract expression known)) := by
  simp [output, given.load, bind, Except.bind, pure, Except.pure]

/-- A generation prints the plain result over the source of the run, with or without a report. -/
theorem output_generate {arguments : GenerateArguments}
    (given : arguments.fields.Give environment known) (rule : Text) :
    let map := if arguments.withFields then some known else none
    let source := environment.sourceFor arguments.seed
    let report (text : Text) := if arguments.explain then
        Report.render (environment.colors arguments.color) (explain rule map source) text
          environment.elapsed
      else Report.line text
    (generate rule arguments).output environment =
      CommandError.ofPadding
        ((arguments.finish (FormFill.generate rule map source).1).map report) := by
  intro map source report
  have value : (explain rule map source).value = (FormFill.generate rule map source).1 :=
    SegmentTrace.flatMap_output_ofSegments map (Segment.ofRule rule) source
  rw [output, given.load]
  change generateOutput rule arguments known environment = _
  rw [generateOutput, GenerateArguments.finish, ← value]
  cases arguments.padding with
  | none => cases explained : arguments.explain <;> simp [report, explained] <;> rfl
  | some padding =>
    cases explained : arguments.explain <;>
      simp [report, explained, CommandError.map_ofPadding, map, source]

/-- A run whose last step is a padding prints what that gives, or panics. -/
theorem run_of_output_eq {command : Command} {padded : Option Text}
    (output : command.output environment = CommandError.ofPadding (padded.map Report.line)) :
    command.run environment = printing environment padded := by
  rw [run, output]
  cases padded <;> rfl

/-- Field arguments without a problem give one field map: that of the file overwritten by the
assignments. Under it `extract` prints the extracted text, and `generate` without a report prints
the generated text, padded if there is a rule for that: over the source of its seed, or without a
seed over any source that the rule draws nothing from. Where the padding fails, so does the run. -/
theorem run_prints_result {fields : FieldArguments} (fine : fields.problems environment = []) :
    ∃ known, fields.Give environment known ∧
      (∀ expression, (extract expression fields).run environment =
        ⟨0, Report.line (FormFill.extract expression known), []⟩) ∧
      ∀ rule arguments, arguments.fields = fields → arguments.explain = false →
        let map := if arguments.withFields then some known else none
        let printed (source : Source) : Outcome :=
          printing environment (arguments.finish (FormFill.generate rule map source).1)
        (∀ seed, arguments.seed = some seed →
          (generate rule arguments).run environment = printed (.seeded seed)) ∧
        ∀ source, arguments.seed = none →
          (FormFill.generate rule map source).2.drawn = source.drawn →
          (generate rule arguments).run environment = printed source := by
  obtain ⟨known, given⟩ := FieldArguments.exists_give fine
  refine ⟨known, given, ?_, ?_⟩
  · intro expression
    rw [run, output_extract given]
  rintro rule arguments rfl plain map printed
  have ran : (generate rule arguments).run environment =
      printed (environment.sourceFor arguments.seed) := by
    refine run_of_output_eq ((output_generate given rule).trans ?_)
    simp only [plain]
    rfl
  refine ⟨?_, ?_⟩
  · intro seed seeded
    rw [ran, seeded]
    rfl
  · intro source unseeded silent
    rw [ran, unseeded]
    simp only [printed, generate_of_silent silent]

/-- A file is overwritten by assignments that repeat a name and hold an equals sign; one rule draws
under a seed and is padded, the other draws nothing and needs none. -/
theorem run_prints_result_layered :
    let json := "\x7b\"name\": \"Ada Lovelace\", \"age\": 36, \"note\": true\x7d".toList
    let environment : Environment :=
      ⟨fun path => if path = "known".toList then .ok json else .error .missing, .cycle #[], [],
        false, id⟩
    let fields : FieldArguments :=
      ⟨some "known".toList, ["age=37".toList, "note=a=b".toList, "age=38".toList]⟩
    let known : FieldMap := .ofList [("name".toList, .text "Ada Lovelace".toList),
      ("age".toList, .text "38".toList), ("note".toList, .text "a=b".toList)]
    let drawing : Text := "(name[w2])-(age)-(rn[3])".toList
    let seeded : GenerateArguments :=
      ⟨fields, true, some 7, some "(*[24])".toList, false, .onTerminal⟩
    let bare : GenerateArguments := ⟨fields, false, none, none, false, .onTerminal⟩
    fields.problems environment = [] ∧ fields.Give environment known ∧
      (extract "note[ch1-3]".toList fields).run environment =
        ⟨0, Report.line (FormFill.extract "note[ch1-3]".toList known), []⟩ ∧
      (∃ text, Padding.paddedBy? "(*[24])".toList
          (FormFill.generate drawing (some known) (.seeded 7)).1 = some text ∧
        (generate drawing seeded).run environment = ⟨0, Report.line text, []⟩) ∧
      (generate "(name)(x[3])".toList bare).run environment =
        ⟨0, Report.line (FormFill.generate "(name)(x[3])".toList none (.seeded 0)).1, []⟩ := by
  intro json environment fields known drawing seeded bare
  have fine : fields.problems environment = [] := by decide +kernel
  have silent : (FormFill.generate "(name)(x[3])".toList none (.seeded 0)).2.drawn =
      (Source.seeded 0).drawn := by decide +kernel
  have read : FieldMap.read json = .ok (.ofList [("name".toList, .text "Ada Lovelace".toList),
      ("age".toList, .ofInt 36), ("note".toList, .boolean true)]) := by decide +kernel
  have opened : environment.file "known".toList = .ok json := by simp only [environment, if_pos]
  have layered : fields.Give environment known :=
    ⟨_, [⟨"age".toList, "37".toList, by decide, by decide⟩,
      ⟨"note".toList, "a=b".toList, by decide, by decide⟩,
      ⟨"age".toList, "38".toList, by decide, by decide⟩], ⟨json, opened, read⟩, rfl, by decide⟩
  obtain ⟨text, padded⟩ : ∃ text, Padding.paddedBy? "(*[24])".toList
      (FormFill.generate drawing (some known) (.seeded 7)).1 = some text :=
    Option.isSome_iff_exists.mp (by decide +kernel)
  obtain ⟨loaded, given, extracted, generated⟩ := run_prints_result fine
  cases given.unique layered
  have ran := (generated drawing seeded rfl rfl).1 7 rfl
  exact ⟨fine, layered, extracted _, ⟨text, padded, ran.trans (congrArg _ padded)⟩,
    (generated _ bare rfl rfl).2 (.seeded 0) rfl silent⟩

end Command

end FormFill
