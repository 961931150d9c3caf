import Sexp.Bindings
import Sexp.Pattern
import Sexp.Pattern.Matching
import Sexp.Pattern.Substitution
import Sexp.Proofs.Bindings.Extension
import Sexp.Proofs.Bindings.Runs
import Sexp.Proofs.Examples.Expansion
import Sexp.Proofs.Examples.Image
import Sexp.Proofs.Filling.Account
import Sexp.Proofs.Filling.Composition
import Sexp.Proofs.Filling.Holes
import Sexp.Proofs.Matching.Account
import Sexp.Proofs.Matching.Dependence
import Sexp.Proofs.Matching.Fresh
import Sexp.Proofs.Matching.Obligations
import Sexp.Proofs.Matching.Series
import Sexp.Proofs.Matching.Solution
import Sexp.Proofs.Reading.Calls
import Sexp.Proofs.Reading.Completion
import Sexp.Proofs.Reading.Concatenation
import Sexp.Proofs.Reading.Grammar
import Sexp.Proofs.Reading.Items
import Sexp.Proofs.Reading.Layout
import Sexp.Proofs.Reading.Numerals
import Sexp.Proofs.Reading.Passing
import Sexp.Proofs.Reading.Progress
import Sexp.Proofs.Reading.Recovery
import Sexp.Proofs.Reading.RoundTrip
import Sexp.Proofs.Reading.Scan
import Sexp.Proofs.Reading.Truncation
import Sexp.Proofs.Trees.Observation
import Sexp.Proofs.Writing.Delivery
import Sexp.Reader
import Sexp.Sink
import Sexp.Text.Characters
import Sexp.Text.Encoding
import Sexp.Text.Quoted
import Sexp.Trace
import Sexp.Tree
