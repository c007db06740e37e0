import OriginDb.Kmeans
import OriginDb.Foundation.GuardedRun
import OriginDb.FlatSearch
import OriginDb.TableRefinement
import OriginDb.QueueExecution
import OriginDb.ServerTable
import OriginDb.TornInserts
import OriginDb.Foundation.SpacedLog
import OriginDb.SyncWorker
import OriginDb.Foundation.RankedLocks
import OriginDb.LockOrder
import OriginDb.Mappings
import OriginDb.IvfIndex
import OriginDb.IndexLifecycle
import OriginDb.Requests
import OriginDb.Server
import OriginDb.PendingCache
import OriginDb.QueueRace
import OriginDb.Foundation.LatestBindings
import OriginDb.KeyStore
import OriginDb.Connection
import OriginDb.RequestReading
import OriginDb.KeepAlive
import OriginDb.HeaderDecisions
import OriginDb.ConnectionClosing
import OriginDb.AnnSearch
import OriginDb.Responses
import OriginDb.Foundation.TopK
import OriginDb.ResultArray
import OriginDb.ClusterPartition
import OriginDb.SearchAgreement
import OriginDb.Foundation.StableSelection
import OriginDb.ExactSearch
import OriginDb.ProbingSearch
import OriginDb.RepeatedProbes
import OriginDb.Compaction
import OriginDb.DecodingBounds
import OriginDb.FlagByte
import OriginDb.Deletion
import OriginDb.AppendFetch
import OriginDb.Foundation.Lloyd
import OriginDb.IndexFile
import OriginDb.Training
import OriginDb.TrainingInfluence
import OriginDb.BearerToken
import OriginDb.AutoDeleteCommand
import OriginDb.ResultList
import OriginDb.IdleReaper
import OriginDb.RequestIds
import OriginDb.ArrayCapacity
import OriginDb.ArrayTracking
import OriginDb.PendingLookup
import OriginDb.Foundation.JsonText
import OriginDb.JsonParser
import OriginDb.Foundation.Outcome
import OriginDb.JsonBounds
import OriginDb.JsonReading
import OriginDb.JsonPrinter
import OriginDb.JsonPrinting
import OriginDb.JsonRoundTrip
import OriginDb.ResponseBodies
import OriginDb.TableIsolation
import OriginDb.TableRegistry
import OriginDb.ServerInserts
import OriginDb.Foundation.Heap
import OriginDb.ResultOwnership
import OriginDb.InsertsFound
import OriginDb.TerminalSessions
