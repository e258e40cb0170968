import AxbyCore.Library.Transitions
import AxbyCore.Library.RingIndex
import AxbyCore.Concurrency.RingBuffer
import AxbyCore.Proofs.RingBufferInvariant
import AxbyCore.Proofs.RingBufferSteps
import AxbyCore.Proofs.RingBufferFifo
import AxbyCore.Library.EventCounter
import AxbyCore.Proofs.RingBufferWakeup
import AxbyCore.Concurrency.SingleItem
import AxbyCore.Proofs.SingleItemInvariant
import AxbyCore.Proofs.SingleItemSteps
import AxbyCore.Proofs.SingleItemCell
import AxbyCore.Proofs.BlockingReads
import AxbyCore.Library.Binary64
import AxbyCore.Library.MachineInt
import AxbyCore.TimeSync.Ingest
import AxbyCore.Proofs.TimeSyncBounds
import AxbyCore.Proofs.TimeSyncDrift
import AxbyCore.Proofs.TimeSyncSoundness
import AxbyCore.LogViewer.Playback
import AxbyCore.Proofs.PlaybackSeek
import AxbyCore.Library.Endian
import AxbyCore.Pubsub.Link
import AxbyCore.Proofs.PubsubFraming
import AxbyCore.Proofs.PubsubDelivery
import AxbyCore.Proofs.PubsubLossless
import AxbyCore.Library.Rfc8949
import AxbyCore.Tinycbor.Cbor
import AxbyCore.Tinycbor.Encoder
import AxbyCore.Tinycbor.Parser
import AxbyCore.Serialization.Encode
import AxbyCore.Serialization.Decode
import AxbyCore.Serialization.Encoding
import AxbyCore.Proofs.CborWriting
import AxbyCore.Proofs.SerializeBytes
import AxbyCore.Proofs.CborReading
import AxbyCore.Proofs.CborSkipping
import AxbyCore.Proofs.CborLookup
import AxbyCore.Proofs.DecodeLeaves
import AxbyCore.Proofs.EncodingItems
import AxbyCore.Proofs.RoundTrip
import AxbyCore.Proofs.SerializerContract
import AxbyCore.Pubsub.Recorder
import AxbyCore.Proofs.VectorSerializer
import AxbyCore.LogViewer.PublishResults
import AxbyCore.Proofs.PlaybackIdentity
import AxbyCore.Proofs.PlaybackTiling
import AxbyCore.Realsense.Messages
import AxbyCore.Realsense.VideoClient
import AxbyCore.Proofs.VideoDecoding
import AxbyCore.Realsense.Motion
import AxbyCore.Proofs.MotionBatching
import AxbyCore.Proofs.RingBufferQueue
import AxbyCore.Pubsub.PublisherQueue
import AxbyCore.Proofs.ClearedRequests
import AxbyCore.Pubsub.SubscriberQueue
import AxbyCore.Proofs.SubscriberRequests
import AxbyCore.Proofs.RecordingOnce
import AxbyCore.Realsense.PointCloud
import AxbyCore.Realsense.PointCloudJob
import AxbyCore.Proofs.PointCloudHandover
import AxbyCore.Library.WellFormed
import AxbyCore.Proofs.CborTraversal
import AxbyCore.Proofs.CborLimits
import AxbyCore.Proofs.CborFinding
import AxbyCore.Library.Ieee754
import AxbyCore.Proofs.CborKinds
import AxbyCore.Proofs.PrimitiveDecoding
import AxbyCore.Proofs.LeafErrors
import AxbyCore.Proofs.StructErrors
import AxbyCore.Proofs.FieldOrder
import AxbyCore.Library.Binary32
import AxbyCore.Library.Outcome
import AxbyCore.Proofs.MotionCopies
import AxbyCore.Proofs.SampleIndices
import AxbyCore.Proofs.SeqTake
import AxbyCore.Proofs.SeqViews
import AxbyCore.Proofs.SmallStrings
import AxbyCore.Proofs.TimeSyncLookups
import AxbyCore.Library.Homography
import AxbyCore.Library.NearestNeighbors
import AxbyCore.Library.WeightedMean
import AxbyCore.Proofs.Deprojection
import AxbyCore.Proofs.DepthCoordinates
import AxbyCore.Proofs.PointColors
import AxbyCore.Proofs.PointLifting
import AxbyCore.App.Timing
import AxbyCore.Library.RigidMotion
import AxbyCore.Library.RotationAngle
import AxbyCore.Library.SampleMoments
import AxbyCore.LogViewer.Seekbar
import AxbyCore.Math.Camera
import AxbyCore.Math.RunningStat
import AxbyCore.Math.Spatial
import AxbyCore.Proofs.Adjoint
import AxbyCore.Proofs.CameraForms
import AxbyCore.Proofs.DirectionRotation
import AxbyCore.Proofs.OrbitRecentering
import AxbyCore.Proofs.PickNearest
import AxbyCore.Proofs.RotationLog
import AxbyCore.Proofs.RunningStatistics
import AxbyCore.Proofs.SeekbarDrift
import AxbyCore.Proofs.StopwatchReadings
import AxbyCore.Library.AffineIteration
import AxbyCore.Library.CppCharArray
import AxbyCore.Library.Decimal
import AxbyCore.NetworkConfig.Endpoint
import AxbyCore.Proofs.BinaryEmbedding
import AxbyCore.Proofs.EndpointGrammar
import AxbyCore.Proofs.FullPeriod
import AxbyCore.Proofs.PollWindows
import AxbyCore.Proofs.ReadableEmbedding
import AxbyCore.Proofs.RigidInterpolation
import AxbyCore.Concurrency.SimpleThreadPool
import AxbyCore.Library.PredictiveCoding
import AxbyCore.Proofs.ThreadPool
import AxbyCore.Proofs.TimeSyncAccuracy
import AxbyCore.Proofs.ZdepthFile
import AxbyCore.Proofs.ZdepthStream
import AxbyCore.Realsense.DepthStream
import AxbyCore.Library.DeltaStream
import AxbyCore.Proofs.DepthStreaming
import AxbyCore.Proofs.DeviceSearch
import AxbyCore.Proofs.PointCloudTeardown
import AxbyCore.Library.ExponentialSeries
import AxbyCore.Math.Exponential
import AxbyCore.Proofs.TwistExponential
import AxbyCore.Proofs.TwistLogarithm
import AxbyCore.LogViewer.Session
import AxbyCore.Proofs.ViewerSession
import AxbyCore.Proofs.FrameEnding
import AxbyCore.Proofs.FrameMessages
