import Phrasebook.Main
import Phrasebook.Proofs.Descending
import Phrasebook.Proofs.Terminal
import Phrasebook.Proofs.OnDemand
import Phrasebook.Proofs.Grammar
import Phrasebook.Proofs.Reporting
import Phrasebook.Proofs.Lines
import Phrasebook.Proofs.Remarks
import Phrasebook.Proofs.Quoting
import Phrasebook.Proofs.Judging
import Phrasebook.Proofs.Tallying
import Phrasebook.Proofs.Omitting
import Phrasebook.Proofs.LineFeeds
import Phrasebook.Proofs.CleanFiles
import Phrasebook.Proofs.SingleIntent
import Phrasebook.Proofs.Pieces
import Phrasebook.Proofs.Respacing
import Phrasebook.Proofs.Juxtaposition
import Phrasebook.Proofs.Renormalizing
import Phrasebook.Proofs.Stripping
import Phrasebook.Proofs.Diagnosing
import Phrasebook.Proofs.SingleSpaces
import Phrasebook.Proofs.Culprits
import Phrasebook.Proofs.Stopping
import Phrasebook.Proofs.Logging
import Phrasebook.Proofs.Resorting
import Phrasebook.Proofs.Offers
import Phrasebook.Proofs.UpToFault
import Phrasebook.Proofs.Wrapping
import Phrasebook.Proofs.Loading
