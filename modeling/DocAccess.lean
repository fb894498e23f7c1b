import DocAccess.Config
import DocAccess.Json.Record
import DocAccess.Proofs.Access
import DocAccess.Proofs.Agreement
import DocAccess.Proofs.Cursor.Tokens
import DocAccess.Proofs.Ownership
import DocAccess.Proofs.Revocation
import DocAccess.Relational.Dump
import DocAccess.Store.Memory
import DocAccess.Store.Opening
import DocAccess.Testing.Conformance
import DocAccess.Testing.Vectors
import DocAccess.Proofs.InvalidInput
import DocAccess.Proofs.Tables.Failing
import DocAccess.Proofs.Timestamps
import DocAccess.Proofs.Interference
import DocAccess.Proofs.Paging
import DocAccess.Proofs.Resumption
import DocAccess.Proofs.Updates
import DocAccess.Proofs.Migration
import DocAccess.Proofs.Conformance
import DocAccess.Proofs.Json.Records
