import ScreenEditor.Main
import ScreenEditor.Storage.Memory
import ScreenEditor.Proofs.Gap.Content
import ScreenEditor.Proofs.Gap.Refinement
import ScreenEditor.Proofs.Segment.Block
import ScreenEditor.Proofs.Segment.Documents
import ScreenEditor.Proofs.Segment.Operations
import ScreenEditor.Proofs.Storage.Reading
import ScreenEditor.Proofs.Storage.Writing
import ScreenEditor.Proofs.Transfer.Translate
import ScreenEditor.Proofs.Transfer.Sink
import ScreenEditor.Proofs.Transfer.ReadAll
import ScreenEditor.Proofs.Transfer.Overflow
import ScreenEditor.Proofs.Transfer.Parts
import ScreenEditor.Proofs.Transfer.Filling
import ScreenEditor.Proofs.Transfer.Loading
import ScreenEditor.Proofs.Transfer.Settling
import ScreenEditor.Proofs.Transfer.Replace
import ScreenEditor.Proofs.Segment.Chain
import ScreenEditor.Proofs.Segment.Refinement
import ScreenEditor.Proofs.Transfer.Insert
import ScreenEditor.Proofs.Transfer.Undone
import ScreenEditor.Proofs.Transfer.Written
import ScreenEditor.Proofs.Transfer.RoundTrip
import ScreenEditor.Proofs.Screen.Painting
import ScreenEditor.Proofs.View.Rows
import ScreenEditor.Proofs.View.Synced
import ScreenEditor.Proofs.View.Around
import ScreenEditor.Proofs.View.Patch
import ScreenEditor.Proofs.View.Picture
import ScreenEditor.Proofs.View.Highlight
import ScreenEditor.Proofs.View.Afresh
import ScreenEditor.Proofs.Search.Replace
import ScreenEditor.Proofs.Session.Synced
import ScreenEditor.Proofs.Session.Files
import ScreenEditor.Proofs.Session.Course
import ScreenEditor.Proofs.Session.Highlight
import ScreenEditor.Proofs.Session.Documents
import ScreenEditor.Proofs.Session.Chains
import ScreenEditor.Proofs.Session.Lineage
import ScreenEditor.Proofs.Session.Numbering
import ScreenEditor.Proofs.Session.Unsaved
import ScreenEditor.Proofs.Session.Refusals
import ScreenEditor.Proofs.Session.SameFile
import ScreenEditor.Proofs.Storage.Separate
import ScreenEditor.Proofs.Transfer.Elsewhere
import ScreenEditor.Proofs.Session.OwnName
import ScreenEditor.Proofs.Editor.Conversation
import ScreenEditor.Proofs.Editor.Consent
import ScreenEditor.Proofs.Search.Occurrence
import ScreenEditor.Proofs.Search.Visits
import ScreenEditor.Proofs.Search.Splice
import ScreenEditor.Proofs.Search.Replies
import ScreenEditor.Proofs.Search.Traced
import ScreenEditor.Proofs.Search.Stage
import ScreenEditor.Proofs.Search.Overreach
import ScreenEditor.Proofs.Search.Pass
import ScreenEditor.Proofs.Search.Bound
import ScreenEditor.Proofs.View.RowGrid
import ScreenEditor.Proofs.View.Vertical
import ScreenEditor.Proofs.View.OneRow
import ScreenEditor.Proofs.Session.RowMotion
import ScreenEditor.Proofs.View.PreferredRow
import ScreenEditor.Proofs.View.Reference
import ScreenEditor.Proofs.Session.SelectionBounds
import ScreenEditor.Proofs.Session.CutPaste
import ScreenEditor.Proofs.Segment.Continuation
import ScreenEditor.Proofs.Segment.BlockRoundTrip
import ScreenEditor.Proofs.Transfer.LineEnds
import ScreenEditor.Proofs.Transfer.FromDirectory
import ScreenEditor.Proofs.Session.FreeSegment
import ScreenEditor.Proofs.Editor.OpenFiles
import ScreenEditor.Proofs.Prompt.Boundary
import ScreenEditor.Proofs.Prompt.Editing
import ScreenEditor.Proofs.Storage.Client
import ScreenEditor.Proofs.Storage.Lockstep
import ScreenEditor.Proofs.Keys.Names
import ScreenEditor.Proofs.Keys.Bindings
import ScreenEditor.Proofs.Transfer.Room
import ScreenEditor.Proofs.Session.TabStops
import ScreenEditor.Proofs.Search.Scan
import ScreenEditor.Proofs.Session.Painting
import ScreenEditor.Proofs.Config.RoundTrip
