import Frontend.CommandLine.Run
import Frontend.Tree.Compare
import Frontend.Main
import Frontend.Proofs.Deriving.Basic
import Frontend.Proofs.Reading.Module
import Frontend.Token.Cursor
import Frontend.Proofs.Deriving.Expr
import Frontend.Proofs.Deriving.Module
import Frontend.Proofs.Acceptance
import Frontend.Proofs.Binary64.Literal
import Frontend.Proofs.Spelling
import Frontend.Proofs.Canonical
import Frontend.Proofs.Writing.Expr
import Frontend.Proofs.Writing.Module
import Frontend.Proofs.Parsed
import Frontend.Proofs.RoundTrip
import Frontend.Proofs.Annotation.Overloads
import Frontend.Proofs.Annotation.Expr
import Frontend.Proofs.Annotation.Stmt
import Frontend.Proofs.Annotation.Module
import Frontend.Proofs.Annotation.Effects
import Frontend.Proofs.Annotation.Sessions
import Frontend.Proofs.Annotation.Retry
import Frontend.Proofs.Annotation.Operators
import Frontend.Proofs.Segmentation
import Frontend.Proofs.Lookahead.Basic
import Frontend.Proofs.Lookahead.Parsers
import Frontend.Proofs.Layout
import Frontend.Proofs.Grouping
import Frontend.Proofs.Nesting
import Frontend.Proofs.Image
import Frontend.Proofs.Annotation.Filling
import Frontend.Proofs.Annotation.Insertion
import Frontend.Proofs.Fetching
import Frontend.Proofs.Viability.Basic
import Frontend.Proofs.Viability.Expr
import Frontend.Proofs.Viability.Module
import Frontend.Proofs.Precedence
import Frontend.Proofs.Height
import Frontend.Proofs.Quiet
import Frontend.Proofs.Annotation.Events
import Frontend.Proofs.Log
import Frontend.Proofs.Signatures
import Frontend.Proofs.NormalForm
import Frontend.Proofs.Annotation.Failures
import Frontend.Proofs.Comparison
import Frontend.Proofs.Dump.Parsed
import Frontend.Proofs.Lines
import Frontend.Proofs.Cursors
import Frontend.Proofs.Descent.Routines
import Frontend.Proofs.Descent.Climbing
import Frontend.Proofs.Descent.Matching
import Frontend.Proofs.Descent.Expr
import Frontend.Proofs.Binary64.Closest
import Frontend.Proofs.Descent.Module
import Frontend.Proofs.Numerals
import Frontend.Proofs.Arguments
