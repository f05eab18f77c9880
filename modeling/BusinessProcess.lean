import BusinessProcess.Configuration.Search
import BusinessProcess.Proofs.Lint.Fault
import BusinessProcess.Proofs.TimeLimit.Hysteresis
import BusinessProcess.Proofs.Graph.Walk
import BusinessProcess.Proofs.Lint.Traversal
import BusinessProcess.Proofs.Lint.Contribution
import BusinessProcess.Proofs.Lint.Isolation
import BusinessProcess.Proofs.TimeLimit.Core
import BusinessProcess.Proofs.TimeLimit.Layer
import BusinessProcess.Proofs.TimeLimit.Overlay
import BusinessProcess.Proofs.TimeLimit.Restoration
import BusinessProcess.Proofs.TimeLimit.View
import BusinessProcess.Proofs.Lint.Overlook
import BusinessProcess.Proofs.Lint.Invisibility
import BusinessProcess.Proofs.Duration.Minutes
import BusinessProcess.Proofs.TimeLimit.Meaning
import BusinessProcess.Proofs.Lint.Verdict
import BusinessProcess.Proofs.Graph.Cascade
import BusinessProcess.Proofs.Graph.Commute
import BusinessProcess.Proofs.TimeLimit.Purge
import BusinessProcess.Proofs.TimeLimit.Attachment
import BusinessProcess.Proofs.Lint.Translation
import BusinessProcess.Proofs.TimerEvent.History
import BusinessProcess.Proofs.TimeLimit.Independence
import BusinessProcess.Proofs.Lint.Drawing
import BusinessProcess.Proofs.Duration.Difference
import BusinessProcess.Proofs.TimeLimit.Sparing
import BusinessProcess.Proofs.TimeLimit.Sweep
import BusinessProcess.Proofs.TimeLimit.Fitting
import BusinessProcess.Proofs.TimeLimit.Detour
import BusinessProcess.Proofs.TimeLimit.Standing
import BusinessProcess.Proofs.TimeLimit.Repetition
import BusinessProcess.Proofs.History.Undrawing
import BusinessProcess.Proofs.History.Undoing
import BusinessProcess.Proofs.Lint.Remarks
import BusinessProcess.Proofs.History.Admission
import BusinessProcess.Proofs.Lint.Duplicate
import BusinessProcess.Proofs.Lint.Scope
import BusinessProcess.Proofs.TimerEvent.Atomicity
import BusinessProcess.Proofs.Duration.Calculation
import BusinessProcess.Proofs.Graph.Naming
import BusinessProcess.Proofs.Configuration.Overrides
import BusinessProcess.Proofs.Lint.Grouping
import BusinessProcess.Proofs.TimeLimit.Naming
