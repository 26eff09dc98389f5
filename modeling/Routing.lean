import Routing.Describe
import Routing.Router.Dispatch
import Routing.Router.Mount
import Routing.Serving.Stock
import Routing.Proofs.Regularity
import Routing.Proofs.Direct
import Routing.Proofs.Covering
import Routing.Proofs.Walking
import Routing.Proofs.Finding
import Routing.Proofs.Reaching
import Routing.Proofs.Parts
import Routing.Proofs.Refusing
import Routing.Proofs.Tokens
import Routing.Proofs.Histories
import Routing.Proofs.Below
import Routing.Proofs.Orders
import Routing.Proofs.Tracing
import Routing.Proofs.Parting
import Routing.Proofs.Keeping
import Routing.Proofs.Sessions
import Routing.Proofs.Enrolling
import Routing.Proofs.Allowing
import Routing.Proofs.Confining
import Routing.Proofs.Scanning
import Routing.Proofs.Subtrees
import Routing.Proofs.Answering
import Routing.Proofs.Duplicates
import Routing.Proofs.Faults
import Routing.Proofs.Rehearsing
import Routing.Proofs.Limiting
import Routing.Proofs.Agreeing
import Routing.Proofs.Escaping
import Routing.Proofs.Slashes
import Routing.Proofs.Selecting
import Routing.Proofs.Associativity
import Routing.Proofs.Rebuilding
import Routing.Proofs.Anchoring
import Routing.Proofs.Inserting
