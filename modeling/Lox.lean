import Lox.Main
import Lox.Proofs.Stratified
import Lox.Proofs.Grammar
import Lox.Proofs.Failing
import Lox.Proofs.FirstOffence
import Lox.Proofs.Comment
import Lox.Proofs.Meaning
import Lox.Proofs.Segments
import Lox.Proofs.Lossless
import Lox.Proofs.Lexeme
import Lox.Proofs.LineNumbers
import Lox.Proofs.Division
import Lox.Proofs.Blanking
import Lox.Proofs.LineBreaks
import Lox.Proofs.Rescan
import Lox.Proofs.DepthLimits
import Lox.Proofs.Schedule
import Lox.Proofs.Quitting
import Lox.Proofs.Attribution
import Lox.Proofs.ParserState
import Lox.Proofs.Reprint
import Lox.Proofs.FloatParts
import Lox.Proofs.Rounding
import Lox.Proofs.Numeral
import Lox.Proofs.DisplayedNumbers
import Lox.Proofs.InStep
import Lox.Proofs.NestingLimit
import Lox.Proofs.CommentNesting
import Lox.Proofs.EvaluationLimit
import Lox.Proofs.Pipeline
import Lox.Proofs.StrictComparisons
import Lox.Proofs.UniqueReading
import Lox.Proofs.PrintedTrees
import Lox.Proofs.LineEndings
import Lox.Proofs.Resumption
import Lox.Proofs.PrefixText
import Lox.Proofs.Hints
