import Screening.Context.Decode
import Screening.Selection.Query
import Screening.Rules.Evaluation
import Screening.Proofs.Logic.Reading
import Screening.Proofs.Logic.Monotone
import Screening.Proofs.Logic.Trace
import Screening.Proofs.Rules.Verdict
import Screening.Proofs.Rules.Withholding
import Screening.Proofs.Rules.Narrowing
import Screening.Proofs.Rules.Entries
import Screening.Proofs.Rules.Direct
import Screening.Proofs.Rules.Diagnostics
import Screening.Proofs.Field.Parts
import Screening.Proofs.Rules.Isolation
import Screening.Proofs.Rules.Conjunction
import Screening.Proofs.Rules.Repair
import Screening.Proofs.Rules.Forms
import Screening.Proofs.Rules.Report
import Screening.Proofs.Decimal.Value
import Screening.Proofs.Json.Conversion
import Screening.Proofs.Rules.Sound
import Screening.Proofs.Rules.Thresholds
import Screening.Proofs.Selection.Ordering
import Screening.Proofs.Selection.Keys
import Screening.Proofs.Selection.Signs
import Screening.Proofs.Selection.Querying
import Screening.Proofs.Selection.Conditions
import Screening.Proofs.Selection.Rewording
import Screening.Proofs.Context.Amount
import Screening.Proofs.Double.Scientific
import Screening.Proofs.Json.Amounts
import Screening.Proofs.Json.Exact
import Screening.Proofs.Rules.Amounts
import Screening.Proofs.Selection.Spelling
import Screening.Proofs.Logic.Printing
import Screening.Proofs.Logic.Folding
import Screening.Proofs.Logic.Height
import Screening.Proofs.Selection.Blanks
import Screening.Proofs.Json.Canonical
import Screening.Proofs.Rules.Reordering
import Screening.Proofs.Logic.ShortCircuit
import Screening.Proofs.Logic.Misplaced
import Screening.Proofs.Rules.Joined
import Screening.Proofs.Rules.Respelling
import Screening.Proofs.Condition.Algebra
import Screening.Proofs.Selection.Adding
import Screening.Proofs.Selection.Transparent
import Screening.Proofs.Selection.Patterns
import Screening.Proofs.Selection.Presence
import Screening.Proofs.Rules.Lines
import Screening.Proofs.Value.Lookup
import Screening.Proofs.Field.Paths
