import SymSolve.Barrier.Probing
import SymSolve.Engine.Report
import SymSolve.Json.Numbers
import SymSolve.Json.Reader
import SymSolve.Kernel.Reading
import SymSolve.Kernel.Recorded
import SymSolve.Kernel.Report
import SymSolve.Kernel.Scripted
import SymSolve.Main
import SymSolve.Multipliers
import SymSolve.Options.Reading
import SymSolve.Proofs.CommandLine.ExitCodes
import SymSolve.Proofs.CommandLine.ReportText
import SymSolve.Proofs.Engine.CapturedStructure
import SymSolve.Proofs.Engine.Shortages
import SymSolve.Proofs.Engine.CurrentFactors
import SymSolve.Proofs.Engine.ExactSolutions
import SymSolve.Proofs.Engine.Outcomes
import SymSolve.Proofs.Engine.Renewal
import SymSolve.Proofs.Engine.Retries
import SymSolve.Proofs.Engine.ScheduledGrowth
import SymSolve.Proofs.Engine.Settling
import SymSolve.Proofs.Engine.Tolerance
import SymSolve.Proofs.Ldl.Regular
import SymSolve.Proofs.Matrices.ChangeTags
import SymSolve.Proofs.Matrices.Denotation
import SymSolve.Proofs.Multipliers
import SymSolve.Restoration
import SymSolve.Proofs.Kernel.RoundTrip
import SymSolve.Proofs.Ldl.Sylvester
import SymSolve.Proofs.Ldl.Pivoting
import SymSolve.Proofs.Kernel.Thresholds
import SymSolve.Proofs.Engine.Exactness
import SymSolve.Proofs.LeastSquares
import SymSolve.Proofs.Engine.Solutions
import SymSolve.Proofs.Engine.Rejections
import SymSolve.Proofs.Engine.Reallocations
import SymSolve.Proofs.Engine.Breaches
import SymSolve.Proofs.Diagnostic.Order
import SymSolve.Proofs.Options.Loading
import SymSolve.Proofs.Ldl.Growth
import SymSolve.Proofs.Kernel.Frame
import SymSolve.Proofs.Kernel.Analysis
import SymSolve.Proofs.Engine.AttemptBound
import SymSolve.Proofs.Barrier.Probing
import SymSolve.Proofs.Restoration
import SymSolve.Proofs.Residual
import SymSolve.Proofs.Matrices.Symmetric
