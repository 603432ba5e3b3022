import Missive.Code.Sheet
import Missive.Main
import Missive.Session.Run
import Missive.Proofs.Message.Verbatim
import Missive.Proofs.Message.Packed
import Missive.Proofs.Plan.Shadow
import Missive.Proofs.Plan.Imports
import Missive.Proofs.Message.Routes
import Missive.Proofs.Message.Oneofs
import Missive.Proofs.Message.Reread
import Missive.Proofs.Schema.Valid
import Missive.Proofs.Store.Sharing
import Missive.Proofs.Plan.Intact
