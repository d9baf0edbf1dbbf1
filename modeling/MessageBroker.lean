import MessageBroker.Broker
import MessageBroker.Bytes
import MessageBroker.Bytes.Lossy
import MessageBroker.Bytes.Order
import MessageBroker.Bytes.Word
import MessageBroker.Catalog
import MessageBroker.CatchUp
import MessageBroker.Client
import MessageBroker.Cluster.Membership
import MessageBroker.Cluster.Roster
import MessageBroker.Cluster.Timing
import MessageBroker.CommandLine
import MessageBroker.Connection
import MessageBroker.Cursor
import MessageBroker.Error
import MessageBroker.Fanout
import MessageBroker.Fleet
import MessageBroker.Frame
import MessageBroker.Hash.Xxh3
import MessageBroker.Json
import MessageBroker.Keyspace
import MessageBroker.Keyspace.Key
import MessageBroker.Keyspace.Record
import MessageBroker.Keyspace.Snapshot
import MessageBroker.Leader
import MessageBroker.Limits
import MessageBroker.Log
import MessageBroker.Log.Ends
import MessageBroker.Main
import MessageBroker.Medium
import MessageBroker.Message
import MessageBroker.Message.Codec
import MessageBroker.MessageId
import MessageBroker.Node
import MessageBroker.NodeId
import MessageBroker.OrderedMap
import MessageBroker.Partition
import MessageBroker.Partition.Choice
import MessageBroker.Partition.Order
import MessageBroker.Peer
import MessageBroker.Peer.Scripted
import MessageBroker.Proofs.AcceptableRosters
import MessageBroker.Proofs.AdmittedFrames
import MessageBroker.Proofs.AnswerFrames
import MessageBroker.Proofs.Attempts
import MessageBroker.Proofs.Broadcasts
import MessageBroker.Proofs.ByteStrings
import MessageBroker.Proofs.CatalogAgreement
import MessageBroker.Proofs.CatalogRecords
import MessageBroker.Proofs.CatchingUp
import MessageBroker.Proofs.ChronicleReading
import MessageBroker.Proofs.Cluster
import MessageBroker.Proofs.ConfinedChanges
import MessageBroker.Proofs.Conversations
import MessageBroker.Proofs.DamagedQueues
import MessageBroker.Proofs.Deliveries
import MessageBroker.Proofs.Digits
import MessageBroker.Proofs.EndsCount
import MessageBroker.Proofs.ExactCopies
import MessageBroker.Proofs.ExactForm
import MessageBroker.Proofs.FaultlessQueues
import MessageBroker.Proofs.FrameFields
import MessageBroker.Proofs.FrameForm
import MessageBroker.Proofs.FrameShortage
import MessageBroker.Proofs.GroupPositions
import MessageBroker.Proofs.Holes
import MessageBroker.Proofs.IdOrder
import MessageBroker.Proofs.IdText
import MessageBroker.Proofs.IntactStores
import MessageBroker.Proofs.Interleavings
import MessageBroker.Proofs.Intruders
import MessageBroker.Proofs.Journals
import MessageBroker.Proofs.KeptSessions
import MessageBroker.Proofs.KeyLayout
import MessageBroker.Proofs.KeyOrder
import MessageBroker.Proofs.KeyRanges
import MessageBroker.Proofs.KeyReadings
import MessageBroker.Proofs.KnownAddresses
import MessageBroker.Proofs.LiveLeaders
import MessageBroker.Proofs.Lockstep
import MessageBroker.Proofs.LogChronicle
import MessageBroker.Proofs.LogGrowth
import MessageBroker.Proofs.LogHistory
import MessageBroker.Proofs.LogPlacement
import MessageBroker.Proofs.LogReading
import MessageBroker.Proofs.LogState
import MessageBroker.Proofs.MachineAgreement
import MessageBroker.Proofs.MediumBounds
import MessageBroker.Proofs.MessageForm
import MessageBroker.Proofs.NameRegistry
import MessageBroker.Proofs.PeerCalls
import MessageBroker.Proofs.PeerMessages
import MessageBroker.Proofs.PublishedMessages
import MessageBroker.Proofs.QueueCounts
import MessageBroker.Proofs.QueueExpiries
import MessageBroker.Proofs.QueueGenerations
import MessageBroker.Proofs.QueueHistory
import MessageBroker.Proofs.QueueLedger
import MessageBroker.Proofs.QueueMachine
import MessageBroker.Proofs.QueueOperations
import MessageBroker.Proofs.QueueSimulation
import MessageBroker.Proofs.QueueState
import MessageBroker.Proofs.QueueSweep
import MessageBroker.Proofs.QuotedTexts
import MessageBroker.Proofs.RangePages
import MessageBroker.Proofs.Readers
import MessageBroker.Proofs.ReconciliationReports
import MessageBroker.Proofs.Reconciling
import MessageBroker.Proofs.Repair
import MessageBroker.Proofs.ReplicaAgreement
import MessageBroker.Proofs.RisingGenerations
import MessageBroker.Proofs.Scans
import MessageBroker.Proofs.Separation
import MessageBroker.Proofs.ServedStreams
import MessageBroker.Proofs.Sessions
import MessageBroker.Proofs.SoundLimits
import MessageBroker.Proofs.StalledConnections
import MessageBroker.Proofs.StoredRecords
import MessageBroker.Proofs.SweepProgress
import MessageBroker.Proofs.WriteOrder
import MessageBroker.Queue
import MessageBroker.Reconciliation
import MessageBroker.Replica
import MessageBroker.Request
import MessageBroker.Request.Codec
import MessageBroker.Response
import MessageBroker.Response.Codec
import MessageBroker.Store
import MessageBroker.Text.Decimal
import MessageBroker.Text.Duration
import MessageBroker.Text.Fields
import MessageBroker.Text.Hex
import MessageBroker.Text.Quoted
import MessageBroker.Text.Unicode
import MessageBroker.Transport
