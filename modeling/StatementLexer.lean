import StatementLexer.FileTree
import StatementLexer.Main
import StatementLexer.Proofs.Remainder
import StatementLexer.Proofs.Trace
import StatementLexer.Proofs.Demand
import StatementLexer.Proofs.Decoding
import StatementLexer.Proofs.Effects
import StatementLexer.Proofs.Encoding
import StatementLexer.Proofs.JsonDocument
import StatementLexer.Proofs.JsonLexemes
import StatementLexer.Proofs.Lines
import StatementLexer.Proofs.Placement
import StatementLexer.Proofs.RawWords
import StatementLexer.Proofs.Words
import StatementLexer.Proofs.Writing
import StatementLexer.Proofs.Joining
import StatementLexer.Proofs.Concatenation
import StatementLexer.Proofs.Mentions
import StatementLexer.Proofs.Grammar
import StatementLexer.Proofs.Outcomes
import StatementLexer.Proofs.Refusals
import StatementLexer.Proofs.Splitting
import StatementLexer.Proofs.Rebuilding
import StatementLexer.Proofs.Choices
import StatementLexer.Proofs.Remarks
import StatementLexer.Proofs.JsonLayout
import StatementLexer.Proofs.Display
