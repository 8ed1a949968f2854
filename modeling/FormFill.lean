import FormFill.FieldSpec.Writer
import FormFill.Main
import FormFill.Proofs.Pieces
import FormFill.Proofs.RuleConcatenation
import FormFill.Proofs.RuleForms
import FormFill.Proofs.SelectorRoundTrip
import FormFill.Proofs.RuleRoundTrip
import FormFill.Proofs.FieldReads
import FormFill.Proofs.Overwriting
import FormFill.Proofs.Repopulation
import FormFill.Proofs.Explanation
import FormFill.Proofs.Drawing
import FormFill.Proofs.Reordering
import FormFill.Proofs.Inputs
import FormFill.Proofs.DrawIndependence
import FormFill.Proofs.Batches
import FormFill.Proofs.ExpressionGrammar
import FormFill.Proofs.JsonTexts
import FormFill.Proofs.SpecRoundTrip
import FormFill.Proofs.JsonLiterals
import FormFill.Proofs.JsonNumbers
import FormFill.Proofs.JsonGrammar
import FormFill.Proofs.JsonTaking
import FormFill.Proofs.SpecTaking
import FormFill.Proofs.SpecPresentation
import FormFill.Proofs.FieldValueReads
import FormFill.Proofs.CommandInputs
import FormFill.Proofs.CommandResults
import FormFill.Proofs.FirstProblem
import FormFill.Proofs.References
import FormFill.Proofs.Separation
import FormFill.Proofs.CanonicalExpressions
import FormFill.Proofs.Duplication
import FormFill.Proofs.PaddingRules
import FormFill.Proofs.PaddedFields
import FormFill.Proofs.CharacterRanges
import FormFill.Proofs.JsonValues
import FormFill.Proofs.RandomTokens
import FormFill.Proofs.FieldMapReads
import FormFill.Proofs.WordSelection
import FormFill.Proofs.ReportColors
import FormFill.Proofs.Rounding
import FormFill.Proofs.WholeNumbers
import FormFill.Proofs.WholeTenths
import FormFill.Proofs.WholeValueReads
import FormFill.Proofs.IndexGrammar
