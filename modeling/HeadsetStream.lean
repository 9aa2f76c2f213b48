import HeadsetStream.Bytes
import HeadsetStream.Bitstream.Codec
import HeadsetStream.Bitstream.Unit
import HeadsetStream.Bitstream.AccessUnit
import HeadsetStream.Bitstream.TestPattern
import HeadsetStream.Video.FrameIndex
import HeadsetStream.Video.FrameMap
import HeadsetStream.Video.Image
import HeadsetStream.Video.TextureRing
import HeadsetStream.Wire.Packet
import HeadsetStream.Number.Scalar
import HeadsetStream.Number.Single
import HeadsetStream.Number.Exact
import HeadsetStream.Number.Decimal
import HeadsetStream.Geometry.Vector
import HeadsetStream.Geometry.Rotation
import HeadsetStream.Geometry.Pose
import HeadsetStream.Signal.LowPass
import HeadsetStream.Signal.OneEuro
import HeadsetStream.Signal.PoseFilter
import HeadsetStream.Foveation.Layout
import HeadsetStream.Foveation.Warp
import HeadsetStream.Json.Value
import HeadsetStream.Json.Token
import HeadsetStream.Json.Reader
import HeadsetStream.Json.Scalar
import HeadsetStream.Json.Record
import HeadsetStream.Settings.Table
import HeadsetStream.Settings.Render
import HeadsetStream.Settings.Stream
import HeadsetStream.Settings.Client
import HeadsetStream.Settings.Reading
import HeadsetStream.Settings.Writing
import HeadsetStream.Tracking.Schedule
import HeadsetStream.Decoder.Error
import HeadsetStream.Decoder.Format
import HeadsetStream.Command.Names
import HeadsetStream.Notice
import HeadsetStream.Latency.FrameTimes
import HeadsetStream.Latency.Collector
import HeadsetStream.Streaming.ServerLink
import HeadsetStream.Headset.Simulated
import HeadsetStream.Decoder.Surface
import HeadsetStream.Decoder.Engine
import HeadsetStream.Decoder.Session
import HeadsetStream.Decoder.Pipeline
import HeadsetStream.Decoder.Simulated
import HeadsetStream.Decoder.Scripted
import HeadsetStream.Tracking.Sampler
import HeadsetStream.Tracking.ViewRecord
import HeadsetStream.Streaming.Decoding
import HeadsetStream.Streaming.Client
import HeadsetStream.Streaming.Bench
import HeadsetStream.Command.Arguments
import HeadsetStream.Command.Playback
import HeadsetStream.Command.Program
import HeadsetStream.Main
import HeadsetStream.Proofs.StartCodeScan
import HeadsetStream.Proofs.SurfaceAtRest
import HeadsetStream.Proofs.PacketQueue
import HeadsetStream.Proofs.SessionOpening
import HeadsetStream.Proofs.ManualDecoding
import HeadsetStream.Proofs.HandRuns
import HeadsetStream.Proofs.TimestampCorrelation
import HeadsetStream.Proofs.SlotAliasing
import HeadsetStream.Proofs.LoopbackDecoding
import HeadsetStream.Proofs.FrameIdentity
import HeadsetStream.Proofs.ConfigurationPrefix
import HeadsetStream.Proofs.SurfaceFrames
import HeadsetStream.Proofs.SubmissionKind
import HeadsetStream.Proofs.SessionLifeCycle
import HeadsetStream.Proofs.SessionIsolation
import HeadsetStream.Proofs.SessionNotices
import HeadsetStream.Proofs.AwaitedKeyframe
import HeadsetStream.Proofs.KeyframeRequests
import HeadsetStream.Proofs.LossRecovery
import HeadsetStream.Proofs.RequestDelivery
import HeadsetStream.Proofs.FailedSubmission
import HeadsetStream.Proofs.LosslessLoopback
import HeadsetStream.Proofs.PacketFormat
import HeadsetStream.Proofs.Disconnection
import HeadsetStream.Proofs.SinglePrecision
import HeadsetStream.Proofs.WholeNumbers
import HeadsetStream.Proofs.ExactArithmetic
import HeadsetStream.Proofs.FoveationRange
import HeadsetStream.Proofs.AlikeReports
import HeadsetStream.Proofs.FirstSample
import HeadsetStream.Proofs.DeviceFiltering
import HeadsetStream.Proofs.TestStream
import HeadsetStream.Proofs.BenchFigures
import HeadsetStream.Proofs.PlaybackSteps
import HeadsetStream.Proofs.PlaybackRecovery
import HeadsetStream.Proofs.WarpCurve
import HeadsetStream.Proofs.EdgeAlignment
import HeadsetStream.Proofs.WarpInverse
import HeadsetStream.Proofs.FramePeriod
import HeadsetStream.Proofs.PlaybackEnd
import HeadsetStream.Proofs.WakeSchedule
import HeadsetStream.Proofs.ViewReports
import HeadsetStream.Proofs.FrameDelays
import HeadsetStream.Proofs.ClockOffset
import HeadsetStream.Proofs.ExactFilters
import HeadsetStream.Proofs.PositionSmoothing
import HeadsetStream.Proofs.FixedCutoff
import HeadsetStream.Proofs.ShorterArc
import HeadsetStream.Proofs.RotationSigns
import HeadsetStream.Proofs.TableOrder
import HeadsetStream.Proofs.FormatPrecedence
import HeadsetStream.Proofs.WholePackets
import HeadsetStream.Proofs.TextureHistory
import HeadsetStream.Proofs.JsonTexts
import HeadsetStream.Proofs.SettingsOverlay
import HeadsetStream.Proofs.MapHistory
import HeadsetStream.Proofs.OutputBuffers
