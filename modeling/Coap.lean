import Coap.Address.Basic
import Coap.Address.Parser
import Coap.Address.Printer
import Coap.Block
import Coap.Cache.Basic
import Coap.Config.Basic
import Coap.Config.Printer
import Coap.Config.Reader
import Coap.Decimal.Numeral
import Coap.Decimal.Rounding
import Coap.Delivery
import Coap.Endpoint
import Coap.Engine.Basic
import Coap.Engine.BlockwiseReceive
import Coap.Engine.BlockwiseSend
import Coap.Engine.Correlation
import Coap.Engine.Fragment
import Coap.Engine.Loop
import Coap.Engine.Outcome
import Coap.Engine.Queue
import Coap.Engine.Transmit
import Coap.Failure
import Coap.Handler
import Coap.Link
import Coap.Message.Basic
import Coap.Message.Code
import Coap.Message.Option
import Coap.Message.Path
import Coap.Message.Reply
import Coap.Pool.Basic
import Coap.Pool.Entry
import Coap.Proofs.Block
import Coap.Proofs.Cache.Contents
import Coap.Proofs.Cache.Plain
import Coap.Proofs.Cache.Recency
import Coap.Proofs.Cache.Refinement
import Coap.Proofs.Cache.Stores
import Coap.Proofs.Cache.Tally
import Coap.Proofs.Endpoint.Acknowledgement
import Coap.Proofs.Endpoint.Cancellation
import Coap.Proofs.Endpoint.Rejection
import Coap.Proofs.Endpoint.Shutdown
import Coap.Proofs.Endpoint.Use
import Coap.Proofs.Engine.Accounts
import Coap.Proofs.Engine.Activity
import Coap.Proofs.Engine.Assembly
import Coap.Proofs.Engine.Balancing
import Coap.Proofs.Engine.Bounds
import Coap.Proofs.Engine.Bystanders
import Coap.Proofs.Engine.Calming
import Coap.Proofs.Engine.Completion
import Coap.Proofs.Engine.Coverage
import Coap.Proofs.Engine.Cut
import Coap.Proofs.Engine.Departure
import Coap.Proofs.Engine.Discipline
import Coap.Proofs.Engine.Dispatch
import Coap.Proofs.Engine.Expectations
import Coap.Proofs.Engine.Fragment
import Coap.Proofs.Engine.Gathering
import Coap.Proofs.Engine.Guarding
import Coap.Proofs.Engine.Inbound
import Coap.Proofs.Engine.Inflow
import Coap.Proofs.Engine.LastBlock
import Coap.Proofs.Engine.Operations
import Coap.Proofs.Engine.Outbound
import Coap.Proofs.Engine.Outcomes
import Coap.Proofs.Engine.Ownership
import Coap.Proofs.Engine.Parcel
import Coap.Proofs.Engine.Receiving
import Coap.Proofs.Engine.Reception
import Coap.Proofs.Engine.Reporting
import Coap.Proofs.Engine.Restart
import Coap.Proofs.Engine.Resupply
import Coap.Proofs.Engine.Retransmission
import Coap.Proofs.Engine.Scene
import Coap.Proofs.Engine.Sending
import Coap.Proofs.Engine.Settlement
import Coap.Proofs.Engine.Shrinks
import Coap.Proofs.Engine.Splitting
import Coap.Proofs.Engine.Stranding
import Coap.Proofs.Engine.Tariff
import Coap.Proofs.Engine.Telling
import Coap.Proofs.Engine.WindingDown
import Coap.Proofs.Engine.Withdrawal
import Coap.Proofs.Exchange.Basic
import Coap.Proofs.Exchange.Delivery
import Coap.Proofs.Exchange.Receiver
import Coap.Proofs.Exchange.Sender
import Coap.Proofs.Link.Answer
import Coap.Proofs.Link.Conversation
import Coap.Proofs.Link.Meaning
import Coap.Proofs.Link.Outcome
import Coap.Proofs.Link.Pump
import Coap.Proofs.Link.Scene
import Coap.Proofs.Link.Transfer
import Coap.Proofs.Message.History
import Coap.Proofs.Message.Options
import Coap.Proofs.Message.Path
import Coap.Proofs.Pool.Holdings
import Coap.Proofs.Pool.Queue
import Coap.Proofs.Pool.Thinning
import Coap.Proofs.Queue.Accounting
import Coap.Proofs.Queue.Awaiting
import Coap.Proofs.Queue.Calls
import Coap.Proofs.Queue.Changes
import Coap.Proofs.Queue.Counting
import Coap.Proofs.Queue.Deeds
import Coap.Proofs.Queue.Departures
import Coap.Proofs.Queue.Draining
import Coap.Proofs.Queue.Hearing
import Coap.Proofs.Queue.Index
import Coap.Proofs.Queue.Operations
import Coap.Proofs.Queue.Outcome
import Coap.Proofs.Queue.Retries
import Coap.Proofs.Queue.Rules
import Coap.Proofs.Queue.Run
import Coap.Proofs.Queue.Schedule
import Coap.Proofs.Queue.Telemetry
import Coap.Proofs.Queue.Turn
import Coap.Proofs.Queue.Visits
import Coap.Proofs.Queue.Whole
import Coap.Proofs.Stage
import Coap.Proofs.Supervisor
import Coap.Proofs.Table
import Coap.Proofs.Time
import Coap.Proofs.Transfer.Arrivals
import Coap.Proofs.Transfer.Holes
import Coap.Proofs.Transfer.Receive
import Coap.Proofs.Transfer.Send
import Coap.Proofs.Transfer.SendRun
import Coap.Proofs.Window
import Coap.Proofs.Window.IndexMap
import Coap.Proofs.Wire.Acceptance
import Coap.Proofs.Wire.Grammar
import Coap.Proofs.Wire.Lookup
import Coap.Proofs.Wire.Number
import Coap.Proofs.Wire.Recoding
import Coap.Proofs.Wire.RoundTrip
import Coap.Proofs.Wire.Sort
import Coap.Stage
import Coap.Stage.Scripted
import Coap.Supervisor
import Coap.Table
import Coap.Text.Hex
import Coap.Text.Lossy
import Coap.Time
import Coap.Toml.Document
import Coap.Toml.Parser
import Coap.Toml.Text
import Coap.Transfer.Receive
import Coap.Transfer.Report
import Coap.Transfer.Send
import Coap.Transfer.Text
import Coap.Window
import Coap.Wire.Decode
import Coap.Wire.Encode
import Coap.Wire.Error
import Coap.Wire.Number
import Coap.Wire.Value
