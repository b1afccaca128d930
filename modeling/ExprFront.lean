import ExprFront.CommandLine.Reply
import ExprFront.Grammar.OtherLayers
import ExprFront.Main
import ExprFront.Proofs.Lexeme.Munch
import ExprFront.Proofs.Lexeme.Beginning
import ExprFront.Proofs.Lexeme.Validity
import ExprFront.Proofs.Lexeme.Reading
import ExprFront.Proofs.Lexeme.Refusal
import ExprFront.Proofs.Lexeme.Rendering
import ExprFront.Proofs.Stream.Normal
import ExprFront.Proofs.Stream.Cutting
import ExprFront.Proofs.Stream.Joining
import ExprFront.Proofs.Stream.Tiling
import ExprFront.Proofs.Stream.Rendering
import ExprFront.Proofs.Grammar.Derivation
import ExprFront.Proofs.Grammar.Soundness
import ExprFront.Proofs.Grammar.Completeness
import ExprFront.Proofs.Session.Source
import ExprFront.Proofs.Grammar.PatternLanguage
import ExprFront.Proofs.Session.Acceptance
import ExprFront.Proofs.Grammar.Trivia
import ExprFront.Proofs.Grammar.Agreement
import ExprFront.Proofs.Grammar.Locality
import ExprFront.Proofs.Grammar.Commitment
import ExprFront.Proofs.Grammar.Coincidence
import ExprFront.Proofs.Grammar.Repair
import ExprFront.Proofs.Grammar.Progress
import ExprFront.Proofs.Grammar.Applicability
import ExprFront.Proofs.Session.Leftmost
import ExprFront.Proofs.Session.Trivia
import ExprFront.Proofs.Session.Sentence
import ExprFront.Proofs.Session.Run
import ExprFront.Proofs.Session.History
import ExprFront.Proofs.Session.Log
import ExprFront.Proofs.Session.MissingEnd
import ExprFront.Proofs.RoundTrip.WellFormed
import ExprFront.Proofs.RoundTrip.Expression
import ExprFront.Proofs.RoundTrip.Pattern
import ExprFront.Proofs.RoundTrip.Source
import ExprFront.Proofs.Session.Composition
import ExprFront.Proofs.RoundTrip.Line
import ExprFront.Proofs.CommandLine.FixedPoint
import ExprFront.Proofs.Grammar.Naturality
import ExprFront.Proofs.Stream.Parts
import ExprFront.Proofs.CommandLine.Outcome
