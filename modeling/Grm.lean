import Grm.Lib.BTree
import Grm.Lib.Index
import Grm.Json
import Grm.Lib.Text
import Grm.Lib.Digits
import Grm.Runtime.LexicalInput
import Grm.Lib.Base64
import Grm.Runtime.Ordering
import Grm.Runtime.QueryTerms
import Grm.Runtime.TermFinds
import Grm.Runtime.Quoting
import Grm.Runtime.ParserSafety
import Grm.Runtime.IdCounters
import Grm.Runtime.InterchangeRoundTrip
import Grm.Runtime.Value
import Grm.Backend.StoreIndex
import Grm.Backend.TxView
import Grm.Backend.CommitAgreement
import Grm.Backend.Rollback
import Grm.Backend.ExclusiveRuns
import Grm.Backend.CypherNames
import Grm.Runtime.BatchFaithful
import Grm.Runtime.IndexRuns
import Grm.Lib.LineLog
import Grm.Runtime.CrashPoints
import Grm.Runtime.SaveLoad
import Grm.Runtime.RequestErrors
import Grm.Runtime.AccessPaths
import Grm.Lib.Retention
import Grm.Service.AuditEvent
import Grm.Service.AuditStore
import Grm.Service.AuditLog
import Grm.Service.BoundedSink
import Grm.Service.AuditCleanLog
import Grm.Service.AuditRefinement
import Grm.Service.AuditInitial
import Grm.Service.WorkspaceNames
import Grm.Service.HandleRuns
import Grm.Service.PermissionTable
import Grm.Service.Api
import Grm.Service.GateRuns
import Grm.Service.Coverage
import Grm.Runtime.TraversalExact
import Grm.Service.RequestConversions
import Grm.Service.Proto
import Grm.Service.ProtoRequests
import Grm.Service.WireRoundTrip
