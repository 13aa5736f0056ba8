import GroupLasso.Decimal.Notation
import GroupLasso.Estimator.Basic
import GroupLasso.Scalar.Binary64
import GroupLasso.Proofs.Gauge
import GroupLasso.Proofs.Matrix
import GroupLasso.Proofs.Failure
import GroupLasso.Proofs.Optimality
import GroupLasso.Proofs.Restriction
import GroupLasso.Proofs.Run
import GroupLasso.Proofs.Events
import GroupLasso.Proofs.Grid
import GroupLasso.Proofs.Commits
import GroupLasso.Proofs.History
import GroupLasso.Proofs.Support
import GroupLasso.Proofs.Exact
import GroupLasso.Proofs.Expansion
import GroupLasso.Proofs.Solver
import GroupLasso.Proofs.Duality
import GroupLasso.Proofs.ZeroRun
import GroupLasso.Proofs.LagrangeMax
import GroupLasso.Proofs.Design
import GroupLasso.Proofs.Convexity
import GroupLasso.Proofs.EntryPoint
import GroupLasso.Proofs.Reorder
import GroupLasso.Proofs.Relabel
import GroupLasso.Proofs.RelabelRun
import GroupLasso.Proofs.RelabelBuild
import GroupLasso.Proofs.Refusals
import GroupLasso.Proofs.Visits
import GroupLasso.Proofs.Candidates
import GroupLasso.Proofs.Accounting
import GroupLasso.Proofs.Subsample
import GroupLasso.Proofs.Target
import GroupLasso.Proofs.Crossing
import GroupLasso.Proofs.Frobenius
import GroupLasso.Proofs.Proximal
import GroupLasso.Proofs.Passes
import GroupLasso.Proofs.Acceleration
import GroupLasso.Proofs.Stationarity
import GroupLasso.Proofs.Residual
import GroupLasso.Proofs.StrongRule
import GroupLasso.Proofs.Losses
import GroupLasso.Proofs.Tangent
import GroupLasso.Proofs.Cloglog
import GroupLasso.Proofs.Resample
import GroupLasso.Proofs.Aftermath
import GroupLasso.Proofs.Backtracking
import GroupLasso.Proofs.Excess
import GroupLasso.Proofs.DualNorm
import GroupLasso.Proofs.ClosedForm
import GroupLasso.Proofs.Tolerance
import GroupLasso.Proofs.NullDeviance
import GroupLasso.Proofs.Link
import GroupLasso.Proofs.Softmax
import GroupLasso.Proofs.Intercept
import GroupLasso.Proofs.Adjoint
import GroupLasso.Proofs.Positions
