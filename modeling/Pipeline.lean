import Pipeline.Main
import Pipeline.Number.Reading
import Pipeline.Proofs.Concatenation
import Pipeline.Proofs.Grouping
import Pipeline.Proofs.RoundTrip
import Pipeline.Proofs.Screening
import Pipeline.Proofs.ShapeSoundness
import Pipeline.Proofs.Caps
import Pipeline.Proofs.Contents
import Pipeline.Proofs.EagerRun
import Pipeline.Proofs.BuiltValues
import Pipeline.Proofs.Decoding
import Pipeline.Proofs.Judging
import Pipeline.Proofs.OutputEquality
import Pipeline.Proofs.Provenance
import Pipeline.Proofs.FiniteResults
import Pipeline.Proofs.OutputRoundTrip
import Pipeline.Proofs.Cataloguing
import Pipeline.Proofs.ScreenedNames
import Pipeline.Proofs.Spacing
import Pipeline.Proofs.UniformDatasets
import Pipeline.Proofs.Cancellation
import Pipeline.Proofs.Laziness
import Pipeline.Proofs.DeepestScripts
import Pipeline.Proofs.NumberOrder
import Pipeline.Proofs.ExactComparison
import Pipeline.Proofs.SortingStages
import Pipeline.Proofs.SortedSets
import Pipeline.Proofs.Identities
import Pipeline.Proofs.MixedArithmetic
import Pipeline.Proofs.RenderedMaps
import Pipeline.Proofs.DecodedMaps
import Pipeline.Proofs.RecordRecognition
import Pipeline.Proofs.BareBooleans
import Pipeline.Proofs.Fusion
import Pipeline.Proofs.SplitInputs
import Pipeline.Proofs.CapBoundary
import Pipeline.Proofs.Ranges
import Pipeline.Proofs.Relations
import Pipeline.Proofs.Membership
import Pipeline.Proofs.Negation
import Pipeline.Proofs.Renaming
import Pipeline.Proofs.Shorthands
import Pipeline.Proofs.LambdaPlaces
import Pipeline.Proofs.Lexemes
import Pipeline.Proofs.Masking
import Pipeline.Proofs.ComparableKeys
import Pipeline.Proofs.IntegerLiterals
