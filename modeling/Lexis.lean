import Lexis.Command
import Lexis.Cursor.Operation
import Lexis.Main
import Lexis.Proofs.Literal
import Lexis.Proofs.Reading
import Lexis.Proofs.Coverage
import Lexis.Proofs.Scan
import Lexis.Proofs.Tiling
import Lexis.Proofs.ViablePrefix
import Lexis.Proofs.Printing
import Lexis.Proofs.Restart
import Lexis.Proofs.Extension
import Lexis.Proofs.Ledger
import Lexis.Proofs.Concatenation
import Lexis.Proofs.Procedure
import Lexis.Proofs.Lookup
import Lexis.Proofs.Place
import Lexis.Proofs.Safety
import Lexis.Proofs.Plain
import Lexis.Proofs.Caret
import Lexis.Proofs.Encoding
import Lexis.Proofs.Outcome
import Lexis.Proofs.NamedFile
import Lexis.Proofs.Lines
import Lexis.Proofs.TokenPlace
import Lexis.Proofs.Decoder
import Lexis.Proofs.Unquote
import Lexis.Proofs.Entries
import Lexis.Proofs.ListingText
import Lexis.Proofs.JsonReader
import Lexis.Proofs.ListingJson
import Lexis.Proofs.Precedence
import Lexis.Proofs.Progress
import Lexis.Proofs.Remains
