import DocTable.Clause.Session
import DocTable.Database.Server
import DocTable.Executor.Script
import DocTable.Table.Operations
import DocTable.Proofs.Clause.Alternatives
import DocTable.Proofs.Clause.Assignments
import DocTable.Proofs.Clause.Known
import DocTable.Proofs.Clause.Lists
import DocTable.Proofs.Clause.Rectangle
import DocTable.Proofs.Clause.Spelling
import DocTable.Proofs.Clause.Where
import DocTable.Proofs.Coercion.Integers
import DocTable.Proofs.Coercion.Typed
import DocTable.Proofs.Database.Stored
import DocTable.Proofs.Dialect.Decoding
import DocTable.Proofs.Dialect.Delimited
import DocTable.Proofs.Row.Shared
import DocTable.Proofs.Table.Addressed
import DocTable.Proofs.Table.Assembly
import DocTable.Proofs.Table.Flattened
import DocTable.Proofs.Table.Inline
import DocTable.Proofs.Table.Lengths
import DocTable.Proofs.Table.Listed
import DocTable.Proofs.Table.Mentions
import DocTable.Proofs.Table.Nulls
import DocTable.Proofs.Table.Pages
import DocTable.Proofs.Table.Quoted
import DocTable.Proofs.Table.Reselection
import DocTable.Proofs.Table.Runs
import DocTable.Proofs.Table.Skeleton
import DocTable.Proofs.Table.Strictness
import DocTable.Proofs.Table.Used
