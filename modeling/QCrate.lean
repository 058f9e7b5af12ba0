import QCrate.R5.StreamGate
import QCrate.Dma.Ownership
import QCrate.Dma.Triggered
import QCrate.DataPlane.Framing
import QCrate.Recorder.Ingest
import QCrate.Recorder.Accounting
import QCrate.Host.Protocol
import QCrate.Host.CodecAgreement
import QCrate.Rpmsg.Client
import QCrate.Rpmsg.Attribution
import QCrate.Sequence.Engine
import QCrate.Sequence.Validation
import QCrate.Sequence.Playback
import QCrate.Lib.LittleEndian
import QCrate.Sequence.Image
import QCrate.R5.SequenceLoad
import QCrate.Sequence.Page
import QCrate.Sequence.LoadPath
import QCrate.Sequence.Agreement
import QCrate.Lib.Crossing
import QCrate.Sequence.Core
import QCrate.Sequence.EventLock
import QCrate.Stream.Block
import QCrate.Stream.Completion
import QCrate.Dma.Tokens
import QCrate.Receiver.Assembler
import QCrate.Receiver.Counting
import QCrate.DataPlane.Layout
import QCrate.DataPlane.Emission
import QCrate.Receiver.Order
import QCrate.Receiver.Delivery
import QCrate.Receiver.RoundTrip
import QCrate.Lib.Publisher
import QCrate.Recorder.SentRun
import QCrate.Recorder.Verdict
import QCrate.Recorder.Publishing
import QCrate.Recorder.Receiving
import QCrate.Lib.Decimal
import QCrate.Host.Profile
import QCrate.Host.ProfileWords
import QCrate.Dsp.Config
import QCrate.Dsp.Reference
import QCrate.Dsp.Frontend
import QCrate.R5.Requests
import QCrate.Sequence.LivePage
import QCrate.Sequence.Loader
import QCrate.Sequence.LoaderRun
import QCrate.Mailbox.Crossing
import QCrate.Mailbox.Exchange
import QCrate.Mailbox.Run
import QCrate.Dsp.Chain
import QCrate.Isolation.System
import QCrate.Isolation.Captures
import QCrate.Streamer.RunIntegrity
import QCrate.Stream.Triggers
import QCrate.Stream.Capture
import QCrate.Dma.Release
import QCrate.Analyzer.Index
import QCrate.Analyzer.Refresh
import QCrate.Analyzer.Bundle
import QCrate.Analyzer.Growth
import QCrate.Receiver.Gathering
import QCrate.Receiver.Permutation
import QCrate.Dma.SkippedTriggers
import QCrate.Recorder.Heartbeats
import QCrate.Receiver.MissingRanges
import QCrate.Recorder.Readiness
import QCrate.Lib.Crc
import QCrate.Sequence.Checksum
import QCrate.Dsp.Fir
import QCrate.Lib.RingBuffer
import QCrate.Streamer.Queue
import QCrate.Sequence.Compile
import QCrate.Recorder.RunFormat
import QCrate.Receiver.Journal
import QCrate.Recorder.IndexRoundTrip
import QCrate.Host.DecimalText
import QCrate.Host.CenterFrequency
import QCrate.Host.ResolvedProfile
import QCrate.R5.CommitAtomic
import QCrate.Cdc.Handshake
import QCrate.Recorder.Isolation
import QCrate.Recorder.Ordering
import QCrate.Recorder.Extents
import QCrate.Recorder.Fates
import QCrate.Recorder.Replay
import QCrate.Analyzer.Recorded
import QCrate.Analyzer.Acceptance
import QCrate.Streamer.Emission
import QCrate.Analyzer.Streamed
import QCrate.Lib.Folder
import QCrate.Sweep.Plan
import QCrate.Sweep.Resume
import QCrate.R5.Turns
import QCrate.R5.Discipline
import QCrate.Rpmsg.Service
import QCrate.Rpmsg.ConfigApply
import QCrate.Lib.Shell
import QCrate.Rpmsg.CommandLine
import QCrate.Dsp.ChainWords
import QCrate.Isolation.CaptureWords
import QCrate.Analyzer.Lookup
import QCrate.Sequence.Safety
import QCrate.Sequence.Snapshot
import QCrate.Sequence.CorePage
import QCrate.Sequence.Attended
