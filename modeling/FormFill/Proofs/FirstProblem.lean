import FormFill.Proofs.CommandResults

/-! # The first problem of a run

A run reports the first of the problems with its inputs and prints nothing. Without a problem it
prints its result, since whatever a population gives can be written. The one thing that can still
end it is the padding of a value for which there is no room.
-/

namespace FormFill

namespace FieldValue

end FieldValue

namespace PopulatedField

/-- The result for one specification as a JSON value. -/
def toJson (entry : PopulatedField) : Json :=
  .object [("id".toList, .string entry.id), ("value".toList, entry.value.toJson),
    ("source".toList, .string entry.source.label), ("padded".toList, .boolean entry.padded)]

end PopulatedField

namespace Command

/-- There is no room for a value that the command pads once it has its inputs. -/
def Overfills (command : Command) (environment : Environment) : Prop :=
  match command with
  | .extract _ _ => False
  | .generate rule arguments => ∃ known, arguments.fields.Give environment known ∧
      arguments.finish (FormFill.generate rule (if arguments.withFields then some known else none)
        (environment.sourceFor arguments.seed)).1 = none
  | .pad value rule => Padding.paddedBy? rule value = none
  | .populate path fields seed => ∃ known text specs, fields.Give environment known ∧
      environment.file path = .ok text ∧ FieldSpec.read text = .ok specs ∧
      FormFill.populate specs known (environment.sourceFor seed) = none

variable {environment : Environment} {known : FieldMap}

end Command

end FormFill
