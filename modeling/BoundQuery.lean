import BoundQuery.Proofs.Placeholder.Borrowed
import BoundQuery.Proofs.Placeholder.Located
import BoundQuery.Proofs.Placeholder.Paired
import BoundQuery.Proofs.Predicate.Document
import BoundQuery.Proofs.Predicate.Group
import BoundQuery.Proofs.Predicate.Refused
import BoundQuery.Proofs.Registry.Leaf
import BoundQuery.Proofs.Statement.Conditions
import BoundQuery.Proofs.Store.Collected
import BoundQuery.Proofs.Store.Depth
import BoundQuery.Proofs.Store.EmptyIn
import BoundQuery.Proofs.Store.Ledger
import BoundQuery.Proofs.Store.Observed
import BoundQuery.Proofs.Store.Session
import BoundQuery.Proofs.Store.Tree
import BoundQuery.Statement.Action
import BoundQuery.Value.Document
