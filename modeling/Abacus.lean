import Abacus.Numeral.Radix
import Abacus.Datum.Order
import Abacus.Expression.Tree
import Abacus.Calculator.Basic
import Abacus.Proofs.Powers
import Abacus.Proofs.Calculator.Answer
import Abacus.Proofs.Calculator.Run
import Abacus.Proofs.Rendering
import Abacus.Proofs.Calculator.Undo
import Abacus.Proofs.Calculator.Lockstep
import Abacus.Proofs.Conversion
import Abacus.Proofs.Spelling
import Abacus.Proofs.Calculator.Nested
import Abacus.Proofs.Canonical
import Abacus.Proofs.Reordering
import Abacus.Proofs.Forest
import Abacus.Proofs.CommonRank
import Abacus.Proofs.Joined
import Abacus.Proofs.Calculator.Lines
import Abacus.Proofs.Calculator.Replay
import Abacus.Proofs.Inversion
import Abacus.Proofs.Division
import Abacus.Proofs.Arithmetic
import Abacus.Proofs.Calculator.Copies
import Abacus.Proofs.Roots
import Abacus.Proofs.Comparison
import Abacus.Proofs.Limbs
import Abacus.Proofs.Cutting
import Abacus.Proofs.Bound
import Abacus.Proofs.Borrowing
import Abacus.Proofs.Rows
import Abacus.Proofs.Halving
import Abacus.Proofs.Estimates
