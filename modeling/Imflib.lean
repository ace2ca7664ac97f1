import Imflib.Base.Acceptance
import Imflib.Base.BestApproximation
import Imflib.Base.BinaryFloat
import Imflib.Base.CheckedSum
import Imflib.Base.ClockTime
import Imflib.Base.ConditionVariable
import Imflib.Base.ContentModel
import Imflib.Base.CrossIndex
import Imflib.Base.FilePath
import Imflib.Base.FileSystem
import Imflib.Base.FirstFailure
import Imflib.Base.IndexOrder
import Imflib.Base.KeyedList
import Imflib.Base.ListEdits
import Imflib.Base.Loop
import Imflib.Base.Outcome
import Imflib.Base.Placement
import Imflib.Base.PropertyTree
import Imflib.Base.Raster
import Imflib.Base.Store
import Imflib.Base.TerminatedText
import Imflib.Base.Text
import Imflib.Base.TileGrid
import Imflib.Base.Transition
import Imflib.Encoder.BoundQueue
import Imflib.Encoder.CommandLine
import Imflib.Encoder.Decode
import Imflib.Encoder.DecodeDelivery
import Imflib.Encoder.EncodeThreads
import Imflib.Encoder.EncoderParameters
import Imflib.Encoder.EncoderRun
import Imflib.Encoder.FileOrder
import Imflib.Encoder.FillImage
import Imflib.Encoder.FrameConservation
import Imflib.Encoder.MxfDescriptors
import Imflib.Encoder.MxfWriter
import Imflib.Encoder.OpenFile
import Imflib.Encoder.OutputContent
import Imflib.Encoder.OutputFiles
import Imflib.Encoder.PacketLoop
import Imflib.Encoder.PixelFormat
import Imflib.Encoder.QueueThreads
import Imflib.Encoder.Rational
import Imflib.Encoder.SamplePlacement
import Imflib.Encoder.Shutdown
import Imflib.Encoder.Termination
import Imflib.Encoder.WakeUps
import Imflib.Encoder.WavMuxer
import Imflib.Mxf.Import
import Imflib.Mxf.Metadata
import Imflib.Mxf.SavedImport
import Imflib.Package.AssetMapSchema
import Imflib.Package.AssetOrder
import Imflib.Package.Common
import Imflib.Package.DescriptorIndex
import Imflib.Package.Durations
import Imflib.Package.EssenceDescriptor
import Imflib.Package.IMFPackage
import Imflib.Package.ImportedPlaylists
import Imflib.Package.ImportedTracks
import Imflib.Package.InterruptedCopying
import Imflib.Package.JPEG2000Texts
import Imflib.Package.KeptAssets
import Imflib.Package.LoadErrors
import Imflib.Package.LoadedAssets
import Imflib.Package.MXFReader
import Imflib.Package.PackageReading
import Imflib.Package.PackageWriting
import Imflib.Package.PackageXml
import Imflib.Package.PackingListAgreement
import Imflib.Package.Playlist
import Imflib.Package.PlaylistCells
import Imflib.Package.PlaylistIndex
import Imflib.Package.PlaylistOrder
import Imflib.Package.PlaylistReading
import Imflib.Package.PlaylistResave
import Imflib.Package.PlaylistRoundTrip
import Imflib.Package.PlaylistSchema
import Imflib.Package.PlaylistXml
import Imflib.Package.SameTimeline
import Imflib.Package.SaveErrors
import Imflib.Package.TrackCopying
import Imflib.View.DeleteInsert
import Imflib.View.DragDrop
import Imflib.View.DropTarget
import Imflib.View.EditEffects
import Imflib.View.EditInverses
import Imflib.View.EditRuns
import Imflib.View.FilesSurvive
import Imflib.View.PackageInvariant
import Imflib.View.PackageModel
import Imflib.View.PackageTable
import Imflib.View.PackageView
import Imflib.View.ReadingBack
import Imflib.View.Reopening
import Imflib.View.SavedPackage
import Imflib.View.Scene
import Imflib.View.SceneLayout
import Imflib.View.SceneRoom
import Imflib.View.SequenceView
import Imflib.View.SequenceViewInvariant
import Imflib.View.Session
import Imflib.View.SessionInvariant
import Imflib.View.SessionRuns
import Imflib.View.Timeline
import Imflib.View.TimelineEdits
import Imflib.View.TrackOrder
import Imflib.View.TrackTypes
import Imflib.View.ValidPlaylists
import Imflib.View.WellFormed
