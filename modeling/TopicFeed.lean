import TopicFeed.Main
import TopicFeed.Queue.Action
import TopicFeed.Client.Move
import TopicFeed.Proofs.Feed
import TopicFeed.Proofs.Loop
import TopicFeed.Proofs.Queue
import TopicFeed.Proofs.Reading
import TopicFeed.Proofs.Waiting
import TopicFeed.Proofs.Delivery
import TopicFeed.Proofs.Subscribed
import TopicFeed.Proofs.Reconnect
import TopicFeed.Proofs.Utf8
import TopicFeed.Proofs.Json.Grammar
import TopicFeed.Proofs.Json.Leaves
import TopicFeed.Proofs.Json.Skip
import TopicFeed.Proofs.Json.Scalar
import TopicFeed.Proofs.Json.Record
import TopicFeed.Proofs.Json.Typed
import TopicFeed.Proofs.Json.Members
import TopicFeed.Proofs.Decode
import TopicFeed.Proofs.Lines
import TopicFeed.Proofs.Stream
import TopicFeed.Proofs.Options
import TopicFeed.Proofs.Sending
import TopicFeed.Proofs.Checks
import TopicFeed.Proofs.Loops
import TopicFeed.Proofs.Validation
import TopicFeed.Proofs.Address
import TopicFeed.Proofs.Authorization
import TopicFeed.Proofs.Building
import TopicFeed.Proofs.Form
import TopicFeed.Proofs.Query
import TopicFeed.Proofs.Registry
import TopicFeed.Proofs.Moves
import TopicFeed.Proofs.Tracking
import TopicFeed.Queue.Ledger
import TopicFeed.Proofs.Fifo
import TopicFeed.Proofs.Chunks
import TopicFeed.Proofs.Stopping
import TopicFeed.Proofs.Shutdown
import TopicFeed.Proofs.Independence
import TopicFeed.Proofs.Truncation
import TopicFeed.Proofs.Unforged
import TopicFeed.Proofs.Cut
import TopicFeed.Proofs.Refusal
import TopicFeed.Proofs.Limit
import TopicFeed.Proofs.Agreement
import TopicFeed.Proofs.Edits
import TopicFeed.Proofs.Json.Forms
import TopicFeed.Proofs.Forms
import TopicFeed.Proofs.Effects
import TopicFeed.Proofs.Capacity
import TopicFeed.Queue.Supply
import TopicFeed.Proofs.Closing
import TopicFeed.Proofs.Hosts
import TopicFeed.Proofs.Endpoint
import TopicFeed.Proofs.Since
import TopicFeed.Proofs.Entries
import TopicFeed.Proofs.Following
import TopicFeed.Proofs.Json.Forks
import TopicFeed.Proofs.Json.Lookahead
import TopicFeed.Proofs.Faults
