import Gridmark.Command.Run
import Gridmark.Main
import Gridmark.Outline
import Gridmark.Registry
import Gridmark.Settings.Basic
import Gridmark.Snapshot
import Gridmark.Proofs.Apart
import Gridmark.Proofs.Blocks
import Gridmark.Proofs.Elements
import Gridmark.Proofs.Placement
import Gridmark.Proofs.Grids
import Gridmark.Proofs.Segments
import Gridmark.Proofs.Separation
import Gridmark.Proofs.Strips
import Gridmark.Proofs.Cuts
import Gridmark.Proofs.Passes
import Gridmark.Proofs.Fates
import Gridmark.Proofs.Census
import Gridmark.Proofs.Weave
import Gridmark.Proofs.PenRun
import Gridmark.Proofs.ClearGrids
import Gridmark.Proofs.Inert
import Gridmark.Proofs.Coverage
import Gridmark.Proofs.Records
import Gridmark.Proofs.Accounts
import Gridmark.Proofs.Enclosed
import Gridmark.Proofs.Fitting
import Gridmark.Proofs.Quoting
import Gridmark.Proofs.Collecting
import Gridmark.Proofs.OutlineLines
import Gridmark.Proofs.Tokenizing
import Gridmark.Proofs.Registering
import Gridmark.Proofs.Padding
