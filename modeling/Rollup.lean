import Rollup.Command
import Rollup.Engine.Timeline
import Rollup.Main
import Rollup.Proofs.Engine.Ledger
import Rollup.Proofs.Forecast.Substitution
import Rollup.Proofs.Record.Buffering
import Rollup.Proofs.Synthetic.Freshness
import Rollup.Proofs.Fence.Gathering
import Rollup.Proofs.Text.Lines
import Rollup.Proofs.Engine.Stream
import Rollup.Proofs.Sorting.Arrangement
import Rollup.Proofs.Sorting.Quick
import Rollup.Proofs.Sorting.Radix
import Rollup.Proofs.Statistics.Batch
import Rollup.Proofs.Engine.Mirrors
import Rollup.Proofs.Output.Handoff
import Rollup.Proofs.Engine.Reporting
import Rollup.Proofs.Engine.Emission
import Rollup.Proofs.Engine.Output
import Rollup.Proofs.Store.Directory
import Rollup.Proofs.Store.Undisturbed
import Rollup.Proofs.Engine.Refinement
import Rollup.Proofs.Synthetic.Turns
import Rollup.Proofs.Histogram.Currency
import Rollup.Proofs.Engine.Changeover
import Rollup.Proofs.Engine.Idleness
import Rollup.Proofs.Sorting.Patterns
import Rollup.Proofs.Engine.Reception
import Rollup.Proofs.Configuration.Reload
import Rollup.Proofs.Point.Grammar
import Rollup.Proofs.Point.Scaling
import Rollup.Proofs.Forecast.History
import Rollup.Proofs.Histogram.Report
import Rollup.Proofs.Schedule.Grid
import Rollup.Proofs.Statistics.Percentiles
import Rollup.Proofs.Output.Delivery
import Rollup.Proofs.Engine.Refusal
import Rollup.Proofs.Configuration.Overrides
import Rollup.Proofs.Statistics.Mode
import Rollup.Proofs.Statistics.Summation
import Rollup.Proofs.Synthetic.Applications
import Rollup.Proofs.Record.Chunks
