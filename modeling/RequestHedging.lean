import RequestHedging.Config.Written
import RequestHedging.Rehearsal
import RequestHedging.Proofs.Journey.Result
import RequestHedging.Proofs.Journey.Chronicle
import RequestHedging.Proofs.Race.Unison
import RequestHedging.Proofs.Journey.Tally
import RequestHedging.Proofs.Journey.Schedule
import RequestHedging.Proofs.Journey.Reporting
import RequestHedging.Proofs.Latency.Window
import RequestHedging.Proofs.Journey.Deadline
import RequestHedging.Proofs.Race.Timing
import RequestHedging.Proofs.Journey.Promptness
import RequestHedging.Proofs.Journey.FirstPoll
import RequestHedging.Proofs.Journey.Overdue
import RequestHedging.Proofs.Traffic.Learning
import RequestHedging.Proofs.Traffic
import RequestHedging.Proofs.Traffic.Feedback
import RequestHedging.Proofs.Traffic.Exchange
import RequestHedging.Proofs.Journey.Wrapping
import RequestHedging.Proofs.Journey.Isolation
import RequestHedging.Proofs.Journey.Lone
import RequestHedging.Proofs.Journey.Fallback
import RequestHedging.Proofs.Resolution.Registry
import RequestHedging.Proofs.Latency.Percentile
import RequestHedging.Proofs.Traffic.Alone
import RequestHedging.Proofs.Config.Written
import RequestHedging.Proofs.Latency.Rereading
import RequestHedging.Proofs.Latency.Order
import RequestHedging.Proofs.Journey.Elapsed
import RequestHedging.Proofs.Config.Forms
import RequestHedging.Proofs.Latency.Layers
import RequestHedging.Proofs.Layer
import RequestHedging.Proofs.Race.Rounds
import RequestHedging.Proofs.Decision
