import MtkHardware.Util.Run
import MtkHardware.Util.Lists
import MtkHardware.Util.KeyedVector
import MtkHardware.Util.BitSet32
import MtkHardware.Util.SortedVector
import MtkHardware.Util.TopoOrder
import MtkHardware.Pipeline.UsersManager
import MtkHardware.Pipeline.UserStatus
import MtkHardware.Pipeline.UserOrder
import MtkHardware.Pipeline.FrameControl
import MtkHardware.Pipeline.FrameConfig
import MtkHardware.Pipeline.UserRuns
import MtkHardware.Pipeline.UserSetup
import MtkHardware.Pipeline.FrameInit
import MtkHardware.Pipeline.FrameUpdate
import MtkHardware.Pipeline.FrameInvariant
import MtkHardware.Pipeline.FrameLedger
import MtkHardware.Pipeline.FrameRun
import MtkHardware.Pipeline.FrameHistory
import MtkHardware.Pipeline.FrameCalls
import MtkHardware.Pipeline.FrameCompletion
import MtkHardware.Pipeline.BufferLifeCycle
import MtkHardware.Pipeline.BufferAccess
import MtkHardware.Pipeline.CallbackOrder
import MtkHardware.AppStream.FrameHandler
import MtkHardware.AppStream.ImageStep
import MtkHardware.AppStream.ImagePass
import MtkHardware.AppStream.ImageRun
import MtkHardware.AppStream.ImageReturn
import MtkHardware.AppStream.MetaVisit
import MtkHardware.AppStream.MetaResult
import MtkHardware.AppStream.HandlerRun
import MtkHardware.AppStream.MetaRun
import MtkHardware.AppStream.MetaReturn
import MtkHardware.AppStream.RequestError
import MtkHardware.AppStream.Shutter
import MtkHardware.AppStream.ResultQueue
import MtkHardware.AppStream.ResultOrder
import MtkHardware.Audio.InputRouting
import MtkHardware.AppStream.Accounting
import MtkHardware.Pipeline.PipelineDAG
import MtkHardware.Pipeline.DagAdjacency
import MtkHardware.Pipeline.DagToposort
import MtkHardware.Pipeline.DagRun
import MtkHardware.Pipeline.OrphanSearch
import MtkHardware.Pipeline.DagReconnect
import MtkHardware.Pipeline.DagClone
import MtkHardware.Pipeline.PipelineContext
import MtkHardware.Pipeline.ConfigCheck
import MtkHardware.Pipeline.Dispatch
import MtkHardware.Pipeline.UserFences
import MtkHardware.Pipeline.UserGraph
import MtkHardware.Pipeline.UserBits
import MtkHardware.AppStream.Access
import MtkHardware.LegacyPipeline.BaseSelector
import MtkHardware.LegacyPipeline.BufferPoolImp
import MtkHardware.LegacyPipeline.PairConservation
import MtkHardware.LegacyPipeline.PairErrors
import MtkHardware.LegacyPipeline.ProviderConservation
import MtkHardware.LegacyPipeline.VssSelector
import MtkHardware.LegacyPipeline.ZsdFlashSelector
import MtkHardware.LegacyPipeline.ZsdSelector
import MtkHardware.LegacyPipeline.ZsdAge
import MtkHardware.Pipeline.InFlightRequest
import MtkHardware.StreamBuf.PoolConservation
import MtkHardware.StreamBuf.PoolWakeup
import MtkHardware.LegacyPipeline.MetadataMap
import MtkHardware.LegacyPipeline.RepeatFlag
import MtkHardware.LegacyPipeline.RequestNumbering
import MtkHardware.LegacyPipeline.RequestWakeup
import MtkHardware.LegacyPipeline.ResultDelivery
import MtkHardware.LegacyPipeline.ResultAssembly
import MtkHardware.LegacyPipeline.ResultWakeup
import MtkHardware.FeaturePipe.CamGraph
import MtkHardware.FeaturePipe.GraphSync
import MtkHardware.FeaturePipe.QueueCoherence
import MtkHardware.FeaturePipe.QueueOrder
import MtkHardware.FeaturePipe.BufferConservation
import MtkHardware.FeaturePipe.BufferWakeup
import MtkHardware.FeaturePipe.GraphStages
import MtkHardware.Gsm0710.AdvDecoder
import MtkHardware.Gsm0710.AdvRoundTrip
import MtkHardware.Gsm0710.ChannelData
import MtkHardware.Gsm0710.TxFlowControl
import MtkHardware.Gsm0710.AdvSplit
import MtkHardware.Gsm0710.BaseDecoder
import MtkHardware.Gsm0710.BaseResync
import MtkHardware.Gsm0710.BaseRoundTrip
import MtkHardware.Gsm0710.Backpressure
import MtkHardware.Gsm0710.FrameList
import MtkHardware.Gsm0710.RxChannel
import MtkHardware.Gsm0710.RxDelivery
import MtkHardware.Gsm0710.RxFlowControl
import MtkHardware.Gsm0710.PollFinal
import MtkHardware.Mnld.GpsAcks
import MtkHardware.Mnld.GpsReset
import MtkHardware.Mnld.GpsSync
import MtkHardware.Mnld.DataCoder
import MtkHardware.Mnld.NmeaBounds
import MtkHardware.Mnld.GsvSentence
import MtkHardware.Mnld.GsvAssembly
import MtkHardware.Mnld.GsvBuffer
import MtkHardware.Meta.FlowControl
import MtkHardware.Meta.MdRxFrames
import MtkHardware.Meta.MdRxResync
import MtkHardware.Meta.PortHandle
import MtkHardware.Meta.UsbApFrame
import MtkHardware.Meta.UsbBounds
import MtkHardware.Meta.UsbStream
import MtkHardware.Ril.Gsm7Text
import MtkHardware.Ril.Ucs2
import MtkHardware.Ril.AtLines
import MtkHardware.ImgBuf.ImageBuffer
import MtkHardware.ImgBuf.LockCount
import MtkHardware.ImgBuf.Format
import MtkHardware.ImgBuf.Geometry
import MtkHardware.Util.Regions
import MtkHardware.Audio.Pcm
import MtkHardware.Audio.CaptureClient
import MtkHardware.Metadata.CameraMetadata
import MtkHardware.Metadata.Convert
import MtkHardware.Metadata.ConvertBack
import MtkHardware.Audio.BgsPlayer
import MtkHardware.Audio.CaptureProvider
import MtkHardware.FeaturePipe.HubSync
import MtkHardware.Gsm0710.ControlChannel
import MtkHardware.Ril.BcdNumber
import MtkHardware.Ril.FcpPin
import MtkHardware.Ril.FcpProp
import MtkHardware.Gsm0710.BufferQueue
import MtkHardware.Audio.RingBufCalls
import MtkHardware.Ril.Ucs2Utf8
import MtkHardware.Metadata.Merge
import MtkHardware.ImgBuf.SubWindow
