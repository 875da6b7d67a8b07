import EventJournal.Account
import EventJournal.EventType
import EventJournal.Gate
import EventJournal.Main
import EventJournal.Metrics
import EventJournal.Order
import EventJournal.Settings
import EventJournal.Store
import EventJournal.System.Rest
import EventJournal.Proofs.Order.Streams
import EventJournal.Proofs.Store.Atomic
import EventJournal.Proofs.Store.Strict
import EventJournal.Proofs.UnitOfWork.Phases
import EventJournal.Proofs.UnitOfWork.Report
import EventJournal.Proofs.Store.History
import EventJournal.Proofs.Dispatch.Inboxes
import EventJournal.Proofs.Dispatch.Workers
import EventJournal.Proofs.Dispatch.Assignments
import EventJournal.Proofs.Dispatch.Endings
import EventJournal.Proofs.Dispatch.Report
import EventJournal.Proofs.Order.Books
import EventJournal.Proofs.Order.Refinement
import EventJournal.Proofs.Order.Lifecycle
import EventJournal.Proofs.Dispatch.Traffic
import EventJournal.Proofs.System.Durable
import EventJournal.Proofs.System.CommitOrder
import EventJournal.Proofs.Queue.Backlog
import EventJournal.Proofs.Queue.Shutdown
import EventJournal.Proofs.System.Backlogs
import EventJournal.Proofs.Dispatch.Tables
import EventJournal.Proofs.Transport.Contract
import EventJournal.Proofs.Dispatch.BothWays
import EventJournal.Proofs.Store.Continuations
import EventJournal.Proofs.Store.Batches
import EventJournal.Proofs.Store.Sharing
import EventJournal.Proofs.Order.Rebuilt
import EventJournal.Proofs.Dispatch.Routing
import EventJournal.Proofs.System.Tallied
