import Legible.Numeric.Binary
import Legible.Numeric.Decimal
import Legible.Numeric.Shortest
import Legible.Numeric.Places
import Legible.Text.Blank
import Legible.Text.Quoted
import Legible.Json.Basic
import Legible.Json.Number
import Legible.Json.Reader
import Legible.Json.Writer
import Legible.Text.Hex
import Legible.Color.Basic
import Legible.Color.Blend
import Legible.Color.LinearLight
import Legible.Color.Contrast
import Legible.Json.Path
import Legible.Document
import Legible.Text.Digits
import Legible.Token.Path
import Legible.Theme.Mode
import Legible.Property.Name
import Legible.Text.Scan
import Legible.Property.Value
import Legible.Property.Text
import Legible.Token.Value
import Legible.Token.Ramp
import Legible.Token.Index
import Legible.Theme.CoreColor
import Legible.Theme.LayerId
import Legible.Reference.Basic
import Legible.Reference.Resolver
import Legible.Issue
import Legible.Options
import Legible.Property.Map
import Legible.Theme.Stepping
import Legible.Theme.Emission
import Legible.Theme.Anchor
import Legible.Theme.Palette
import Legible.Theme.Emphasis
import Legible.Theme.Layer
import Legible.Theme.Configuration
import Legible.Theme.Computation
import Legible.Preset
import Legible.Live.Registry
import Legible.Live.Event
import Legible.Live.Validation
import Legible.Live.Evaluation
import Legible.Live.Store
import Legible.Live.Inspection
import Legible.Watch.Pending
import Legible.Watch.Graph
import Legible.Watch.FixGuard
import Legible.Watch.Interest
import Legible.Watch.Watcher
import Legible.Watch.Flush
import Legible.Watch.FixPass
import Legible.CommandLine.Arguments
import Legible.CommandLine.Command
import Legible.CommandLine.FileAccess
import Legible.CommandLine.Files
import Legible.CommandLine.Run
import Legible.Main
import Legible.Proofs.Color.Blend
import Legible.Proofs.Live.Evaluation
import Legible.Proofs.Live.Store
import Legible.Proofs.Property.Map
import Legible.Proofs.Property.Name
import Legible.Proofs.Property.Text
import Legible.Proofs.Token.Index
import Legible.Proofs.Theme.Part
import Legible.Proofs.Theme.Held
import Legible.Proofs.Theme.Backdrop
import Legible.Proofs.Theme.Acceptance
import Legible.Proofs.Theme.Warnings
import Legible.Proofs.Theme.Shown
import Legible.Proofs.Watch.Graph
import Legible.Proofs.Watch.Run
import Legible.Proofs.Watch.Plan
import Legible.Proofs.Watch.Rebuild
import Legible.Proofs.Watch.Attach
import Legible.Proofs.Watch.Judge
import Legible.Proofs.Watch.Tones
import Legible.Proofs.Watch.Outcome
import Legible.Proofs.Watch.Kept
import Legible.Proofs.Watch.Written
import Legible.Proofs.Theme.Bound
import Legible.Proofs.Watch.Treated
import Legible.Proofs.Watch.Override
import Legible.Proofs.Watch.Removal
import Legible.Proofs.Watch.Baseline
import Legible.Proofs.Watch.Noted
import Legible.Proofs.Watch.Watched
import Legible.Proofs.Property.Rank
import Legible.Proofs.Watch.Coverage
import Legible.Proofs.Live.Purity
import Legible.Proofs.Token.Edit
import Legible.Proofs.Watch.Adoption
import Legible.Proofs.Theme.Stepping
import Legible.Proofs.Theme.Reported
import Legible.Proofs.Theme.Elements
import Legible.Proofs.Theme.Palettes
import Legible.Proofs.Theme.Isolation
import Legible.Proofs.Watch.Fixing
import Legible.Proofs.Watch.Passes
import Legible.Proofs.Watch.Settling
import Legible.Proofs.Watch.Cleared
import Legible.Proofs.Watch.Seen
import Legible.Proofs.Watch.Echo
import Legible.Proofs.Live.Changes
import Legible.Proofs.Watch.Once
import Legible.Proofs.Watch.Announcing
import Legible.Proofs.Theme.Published
import Legible.Proofs.Token.Accounting
import Legible.Proofs.Theme.Referred
import Legible.Proofs.Theme.Apart
import Legible.Proofs.Watch.Rechosen
import Legible.Proofs.Token.Overruled
import Legible.Proofs.Token.Alias
import Legible.Proofs.Token.Consistency
import Legible.Proofs.Theme.LayerKeys
import Legible.Proofs.Reference.Text
import Legible.Proofs.Reference.Depth
import Legible.Proofs.Theme.Outward
import Legible.Proofs.Theme.Alike
import Legible.Proofs.Live.Clean
import Legible.Proofs.Live.Difference
import Legible.Proofs.Document.Update
import Legible.Proofs.Document.Listing
import Legible.Proofs.Numeric.Digits
import Legible.Proofs.Numeric.Rounding
import Legible.Proofs.Numeric.Packing
import Legible.Proofs.Numeric.Nearest
import Legible.Proofs.Numeric.Shortest
import Legible.Proofs.Property.RoundTrip
import Legible.Proofs.Live.Meaning
import Legible.Proofs.Live.Validation
