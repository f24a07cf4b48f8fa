import TableStore.Main
import TableStore.Proofs.Column.Calls
import TableStore.Proofs.Database.Changes
import TableStore.Proofs.Database.Creation
import TableStore.Proofs.Database.Frame
import TableStore.Proofs.Database.Partition
import TableStore.Proofs.Database.Reordering
import TableStore.Proofs.Database.Repetition
import TableStore.Proofs.Database.Search
import TableStore.Proofs.Database.Writing
import TableStore.Proofs.Document.Indexes
import TableStore.Proofs.Index.Pairs
import TableStore.Proofs.Index.Rebuild
import TableStore.Proofs.Integers
import TableStore.Proofs.Query.Exchange
import TableStore.Proofs.Query.Operands
import TableStore.Proofs.Query.Qualified
import TableStore.Proofs.Query.Restriction
import TableStore.Proofs.Session.Durable
import TableStore.Proofs.Sql.Misfit
import TableStore.Proofs.Sql.Segments
import TableStore.Proofs.Strict.Database
