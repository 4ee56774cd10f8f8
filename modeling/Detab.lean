import Detab.Main
import Detab.Proofs.Expansion.Copying
import Detab.Proofs.FileSystem.Walking
import Detab.Proofs.FileSystem.Spelling
import Detab.Proofs.FileSystem.LastStep
import Detab.Proofs.FileSystem.Drafts
import Detab.Proofs.Running.Faults
import Detab.Proofs.Running.Throughout
import Detab.Proofs.Replacement.Stages
import Detab.Proofs.Replacement.Atomicity
import Detab.Proofs.Conversion.OneFile
import Detab.Proofs.Conversion.AllFiles
import Detab.Proofs.Conversion.Aborting
import Detab.Proofs.FileSystem.Descending
import Detab.Proofs.Listing.Selection
import Detab.Proofs.Listing.Stability
import Detab.Proofs.Replacement.Completing
import Detab.Proofs.Conversion.Repeating
import Detab.Proofs.Config.Width
import Detab.Proofs.Replacement.Collision
import Detab.Proofs.Replacement.Requests
import Detab.Proofs.FileSystem.Outlines
import Detab.Proofs.Running.Traces
import Detab.Proofs.Conversion.Calls
import Detab.Proofs.Conversion.Counting
import Detab.Proofs.Conversion.Announcing
import Detab.Proofs.Command.Targets
import Detab.Proofs.Command.WholeRun
import Detab.Proofs.Conversion.Directories
import Detab.Proofs.Running.Racing
import Detab.Proofs.Running.Twins
import Detab.Proofs.Command.Outside
import Detab.Proofs.Conversion.Rivals
import Detab.Proofs.Conversion.Interleaving
import Detab.Proofs.Config.Layout
import Detab.Proofs.Expansion.Outcome
import Detab.Proofs.Config.Precedence
import Detab.Proofs.Replacement.Effect
import Detab.Proofs.FileSystem.Reaching
import Detab.Proofs.Replacement.Permissions
import Detab.Proofs.Conversion.Deciding
import Detab.Proofs.Text.Decoding
import Detab.Proofs.Glob.Spelling
import Detab.Proofs.Glob.Matching
import Detab.Proofs.Glob.Searching
import Detab.Proofs.Expansion.Lines
import Detab.Proofs.Glob.Suffix
import Detab.Proofs.Conversion.Hiding
import Detab.Proofs.Expansion.Characters
import Detab.Proofs.Config.Shapes
import Detab.Proofs.Expansion.Bounds
import Detab.Proofs.FileSystem.Components
import Detab.Proofs.Replacement.Sibling
import Detab.Proofs.FileSystem.Canonical
import Detab.Proofs.Conversion.Processes
