import SingleWriter.Binary64
import SingleWriter.Busy
import SingleWriter.Channel
import SingleWriter.Checkpoint
import SingleWriter.Checkpointer
import SingleWriter.Database
import SingleWriter.DatabaseConfig
import SingleWriter.Duration
import SingleWriter.Engine.Connect
import SingleWriter.Engine.Disk
import SingleWriter.Engine.Place
import SingleWriter.Engine.Statement
import SingleWriter.Engine.Tables
import SingleWriter.Error.Connection
import SingleWriter.Error.Errno
import SingleWriter.Error.Io
import SingleWriter.Error.Sql
import SingleWriter.Error.Store
import SingleWriter.Error.Write
import SingleWriter.Event
import SingleWriter.Json.Fault
import SingleWriter.Json.Lexical
import SingleWriter.Json.Typed
import SingleWriter.Json.Value
import SingleWriter.Observer
import SingleWriter.Pool
import SingleWriter.Pragma
import SingleWriter.RetryPolicy
import SingleWriter.Session.Answer
import SingleWriter.Session.Open
import SingleWriter.Session.Perform
import SingleWriter.Session.Run
import SingleWriter.Session.Step
import SingleWriter.Session.Task
import SingleWriter.Session.Wait
import SingleWriter.Session.World
import SingleWriter.Session.Writing
import SingleWriter.Store
import SingleWriter.StoreConfig
import SingleWriter.Stream
import SingleWriter.Subscribers
import SingleWriter.Text.Blank
import SingleWriter.Text.Invisible
import SingleWriter.Text.Quoted
import SingleWriter.Text.Shortest
import SingleWriter.Write.Call
import SingleWriter.Write.Lock
import SingleWriter.Proofs.Course
import SingleWriter.Proofs.Setting
import SingleWriter.Proofs.Cancellation
import SingleWriter.Proofs.Backend
import SingleWriter.Proofs.Scene
import SingleWriter.Proofs.Isolation
import SingleWriter.Proofs.SerialOrder
import SingleWriter.Proofs.Trials
import SingleWriter.Proofs.Connections
import SingleWriter.Proofs.Atomicity
import SingleWriter.Proofs.Crowd
import SingleWriter.Proofs.Exclusion
import SingleWriter.Proofs.Wrapping
import SingleWriter.Proofs.Closing
import SingleWriter.Proofs.Strays
import SingleWriter.Proofs.Backlog
import SingleWriter.Proofs.Audience
import SingleWriter.Proofs.Filtering
import SingleWriter.Proofs.Alone
import SingleWriter.Proofs.Lifecycle
import SingleWriter.Proofs.RoundTrip
import SingleWriter.Proofs.Grammar
import SingleWriter.Proofs.Kinds
import SingleWriter.Proofs.Members
import SingleWriter.Proofs.Broadcast
import SingleWriter.Proofs.Listening
import SingleWriter.Proofs.Storage
import SingleWriter.Proofs.Upkeep
import SingleWriter.Proofs.Site
import SingleWriter.Proofs.Tenancy
import SingleWriter.Proofs.Reopening
import SingleWriter.Proofs.Tuning
import SingleWriter.Proofs.Plan
import SingleWriter.Proofs.Custody
import SingleWriter.Proofs.Waiting
import SingleWriter.Proofs.Working
import SingleWriter.Proofs.Looks
import SingleWriter.Proofs.Worlds
import SingleWriter.Proofs.Moves
import SingleWriter.Proofs.Prepared
import SingleWriter.Proofs.Sessions
import SingleWriter.Proofs.Backoff
import SingleWriter.Proofs.Classes
import SingleWriter.Proofs.Rounding
import SingleWriter.Proofs.Jitter
import SingleWriter.Proofs.Onset
import SingleWriter.Proofs.Strategies
import SingleWriter.Proofs.Pacing
import SingleWriter.Proofs.Phrases
import SingleWriter.Proofs.Household
import SingleWriter.Proofs.Ticking
import SingleWriter.Proofs.Deletion
import SingleWriter.Proofs.Leaving
import SingleWriter.Proofs.Removal
import SingleWriter.Proofs.Trimming
import SingleWriter.Proofs.Modes
