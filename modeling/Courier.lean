import Courier.Completion
import Courier.Main
import Courier.Session.Suggest
import Courier.Proofs.Grammar.Expectation
import Courier.Proofs.Grammar.Offering
import Courier.Proofs.Grammar.Fault
import Courier.Proofs.Completion.Typing
import Courier.Proofs.Text.Utf8
import Courier.Proofs.Session.Operation
import Courier.Proofs.Session.Selection
import Courier.Proofs.Session.Lateness
import Courier.Proofs.Http.Template
import Courier.Proofs.Run.Expansion
import Courier.Proofs.Run.Filling
import Courier.Proofs.Run.Saving
import Courier.Proofs.Run.Sending
import Courier.Proofs.Session.Refusal
import Courier.Proofs.Disk.Growth
import Courier.Proofs.Session.Isolation
import Courier.Proofs.Session.Permanence
import Courier.Proofs.Session.Creation
import Courier.Proofs.Session.Naming
import Courier.Proofs.Completion.Inline
import Courier.Proofs.Completion.Groups
import Courier.Proofs.Session.OneShot
import Courier.Proofs.Line.Quoting
import Courier.Proofs.Json.Navigation
import Courier.Proofs.Store.Deletion
import Courier.Proofs.Run.Values
import Courier.Proofs.Session.Removal
import Courier.Proofs.Session.Assignment
import Courier.Proofs.Session.Admission
import Courier.Proofs.Grammar.Tree
import Courier.Proofs.Http.Segments
import Courier.Proofs.Session.Form
import Courier.Proofs.Session.Related
import Courier.Proofs.Completion.Rereading
