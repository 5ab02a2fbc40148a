import Tabletop.Main
import Tabletop.Proofs.Batch.Forms
import Tabletop.Proofs.Batch.Isolation
import Tabletop.Proofs.Batch.Replay
import Tabletop.Proofs.Dice.Average
import Tabletop.Proofs.Dice.Drawing
import Tabletop.Proofs.Formula.Canonical
import Tabletop.Proofs.Formula.FaultPosition
import Tabletop.Proofs.Initiative.Roster
import Tabletop.Proofs.Server.Outcome
import Tabletop.Proofs.SavedRolls.Lookup
import Tabletop.Proofs.Server.Reachable
import Tabletop.Proofs.Server.Frame
import Tabletop.Proofs.Server.Stores
import Tabletop.Proofs.Server.Keys
import Tabletop.Proofs.Server.Paths
import Tabletop.Proofs.Json.Shapes
import Tabletop.Proofs.Server.Bodies
import Tabletop.Proofs.Server.RollingPaths
import Tabletop.Proofs.Formula.Surroundings
import Tabletop.Proofs.Server.Separation
import Tabletop.Proofs.Json.Numbers
import Tabletop.Proofs.SavedRolls.History
import Tabletop.Proofs.Json.Written
import Tabletop.Proofs.Json.Normal
import Tabletop.Proofs.Batch.Echo
import Tabletop.Proofs.Server.Members
import Tabletop.Proofs.Server.Entities
import Tabletop.Proofs.Initiative.Commuting
import Tabletop.Proofs.Formula.Joining
import Tabletop.Proofs.Formula.WritingOn
import Tabletop.Proofs.Formula.Padding
import Tabletop.Proofs.Dice.Scripting
import Tabletop.Proofs.Server.Refusals
import Tabletop.Proofs.Server.Starting
import Tabletop.Proofs.Dice.Display
import Tabletop.Proofs.Initiative.Numbering
import Tabletop.Proofs.Server.PlainPaths
import Tabletop.Proofs.Formula.Visits
import Tabletop.Proofs.Number.Rounding
import Tabletop.Proofs.Dice.Arithmetic
import Tabletop.Proofs.Formula.CursorAgreement
