import Voxtral.Constants
import Voxtral.Lib.Narrowing
import Voxtral.Lib.Mirror
import Voxtral.Lib.HistoryRing
import Voxtral.Lib.Runs
import Voxtral.Lib.Track
import Voxtral.Mel.Frontend
import Voxtral.Mel.Window
import Voxtral.Mel.Incremental
import Voxtral.Lib.FlatBuffer
import Voxtral.Mel.Batch
import Voxtral.Mel.StreamCalls
import Voxtral.Stream.Tokenizer
import Voxtral.Stream.Types
import Voxtral.Stream.Encoder
import Voxtral.Stream.Decoder
import Voxtral.Stream.PublicApi
import Voxtral.Stream.FrontendChange
import Voxtral.Stream.EncoderDrive
import Voxtral.Stream.Pipeline
import Voxtral.Stream.PumpSteps
import Voxtral.Stream.PumpOutcome
import Voxtral.Stream.Pace
import Voxtral.Stream.Transitions
import Voxtral.Stream.FeedOutcome
import Voxtral.Lib.Utf8
import Voxtral.Stream.Calls
import Voxtral.Stream.Delivery
import Voxtral.Stream.EmbeddingRing
import Voxtral.Stream.EventOrder
import Voxtral.Stream.StableText
import Voxtral.Stream.Totality
import Voxtral.Stream.EncoderRing
import Voxtral.Stream.Timeline
import Voxtral.Stream.TerminalEvents
import Voxtral.Stream.Alike
import Voxtral.Stream.EncoderRuns
import Voxtral.Stream.PacedModel
import Voxtral.Stream.CallCases
import Voxtral.Stream.MelTrace
import Voxtral.Stream.Reference
import Voxtral.Stream.Acceptance
import Voxtral.Stream.FeedPlan
import Voxtral.Stream.EncoderSchedule
import Voxtral.Encoder.KvPlan
import Voxtral.Encoder.Batches
import Voxtral.Encoder.Attention
import Voxtral.Server.GpuLease
import Voxtral.Server.Outbound
import Voxtral.Server.Messages
import Voxtral.Server.TranscriptOrder
import Voxtral.Server.PcmPath
import Voxtral.Server.WorkerSlot
import Voxtral.Lib.Riff
import Voxtral.Wav.Readers
import Voxtral.Wav.Agreement
import Voxtral.Wav.Grammar
import Voxtral.Wav.LoadSafety
import Voxtral.Decoder.StepGraph
import Voxtral.Api.VersionedStructs
import Voxtral.Batch.SharedContext
import Voxtral.Server.TranscriptText
import Voxtral.Encoder.ChunkedReference
import Voxtral.Encoder.ConvBatches
import Voxtral.Stream.Twins
import Voxtral.Stream.ResetLaw
import Voxtral.Encoder.KvPlanRuns
import Voxtral.Decoder.KvRing
import Voxtral.Api.TextCopy
import Voxtral.Stream.Detokenize
import Voxtral.Lib.Sha256
import Voxtral.Stream.RollingHash
import Voxtral.Lib.ByteWrites
import Voxtral.Quantize.Model
import Voxtral.Quantize.Rows
import Voxtral.Quantize.Layout
import Voxtral.Stream.CallRule
import Voxtral.Stream.TokenLimit
import Voxtral.Batch.MaxTokens
import Voxtral.Stream.FeedRoom
import Voxtral.Stream.Drain
import Voxtral.Mel.HistoryAddress
import Voxtral.Mel.RollingTail
import Voxtral.Server.UnsignedOption
import Voxtral.Server.Config
import Voxtral.Server.ConfiguredKey
import Voxtral.Api.VersionedInputs
import Voxtral.Stream.Backlog
import Voxtral.Server.DrainLoops
import Voxtral.Server.DrainProgress
import Voxtral.Server.SessionThreads
import Voxtral.Server.WorkerStages
import Voxtral.Server.TerminalMessage
import Voxtral.Server.DrainRuns
import Voxtral.Server.TranscriptPaths
import Voxtral.Batch.WholeFile
import Voxtral.Server.FileAndBody
import Voxtral.Stream.Lifecycle
import Voxtral.Stream.Reentrancy
import Voxtral.Stream.LifecycleRuns
import Voxtral.Server.HttpRequests
import Voxtral.Server.HttpServer
import Voxtral.Server.ServerSteps
import Voxtral.Server.SessionViews
import Voxtral.Server.HttpSteps
import Voxtral.Server.HttpHandlers
import Voxtral.Server.HttpEndings
import Voxtral.Server.HttpShutdown
import Voxtral.Server.HttpRuns
import Voxtral.Server.OutboundLoop
import Voxtral.Server.OutboundRuns
import Voxtral.Server.OutboundProgress
import Voxtral.Stream.EncoderFrames
import Voxtral.Stream.EventCounts
import Voxtral.Stream.Metrics
import Voxtral.Api.Handles
import Voxtral.Api.HandleRuns
import Voxtral.Api.Isolation
import Voxtral.Stream.EncoderGraphs
import Voxtral.Stream.FailedFeed
import Voxtral.Server.SessionStream
import Voxtral.Server.SessionLoops
