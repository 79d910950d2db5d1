import WfyApp.PacketStream
import WfyApp.ByteText
import WfyApp.NumberText
import WfyApp.ShellWords
import WfyApp.StepSystem
import WfyApp.ProtoCodec
import WfyApp.ScanPush
import WfyApp.ProtoDispatch
import WfyApp.UnixClient
import WfyApp.HomeWifi
import WfyApp.WpaConfig
import WfyApp.A733Switch
import WfyApp.WifiSwitch
import WfyApp.RequestTask
import WfyApp.DispatchThreads
import WfyApp.StagedNetwork
import WfyApp.LogText
import WfyApp.ServiceLog
import WfyApp.IwScan
import WfyApp.JobLifetime
import WfyApp.UnixSink
import WfyApp.LockPrograms
import WfyApp.SwitchPrograms
import WfyApp.UnixClients
import WfyApp.SwitchMutex
import WfyApp.JoinFallback
import WfyApp.ReconnectMonitor
import WfyApp.ConfigUpdates
import WfyApp.ApCredentials
import WfyApp.CommandFraming
import WfyApp.CaptureSession
import WfyApp.FileTransfer
import WfyApp.Forwarding
import WfyApp.ScanBlocks
import WfyApp.ConfRewrites
import WfyApp.ConfFrames
import WfyApp.JoinBand
import WfyApp.UvcBuffers
import WfyApp.SqlText
import WfyApp.DbRequests
import WfyApp.DbUpdate
import WfyApp.ScanText
import WfyApp.CpuUsage
import WfyApp.TableLoops
import WfyApp.ProcStat
import WfyApp.TopProcs
import WfyApp.LogSlots
import WfyApp.FrameSession
import WfyApp.LogOutput
import WfyApp.MediaTable
import WfyApp.MutexPrograms
import WfyApp.UvcGraph
import WfyApp.GraphLocks
import WfyApp.UvcLink
import WfyApp.AiBook
import WfyApp.ZoomModes
import WfyApp.FaceBounds
import WfyApp.FaceGrid
import WfyApp.TrackWindow
import WfyApp.FaceFrames
import WfyApp.NalSplit
import WfyApp.CutStreams
import WfyApp.FlowInput
import WfyApp.FlowLocks
import WfyApp.FlowWakeup
import WfyApp.IntraFrames
import WfyApp.VideoSource
import WfyApp.BufferPool
import WfyApp.FlowSlots
import WfyApp.FanOut
import WfyApp.FlowRouting
import WfyApp.DesktopExec
import WfyApp.SignalList
import WfyApp.TableInit
import WfyApp.Streaks
import WfyApp.FocusTracking
