import Hnmos.RingBuffer
import Hnmos.Transition
import Hnmos.CString
import Hnmos.Hex
import Hnmos.NextFit
import Hnmos.PageAllocator
import Hnmos.PageBitmap
import Hnmos.PageInvariant
import Hnmos.PageAllocation
import Hnmos.PageReservation
import Hnmos.AiTask
import Hnmos.SerialPort
import Hnmos.SerialTransport
import Hnmos.AiSession
import Hnmos.AiBridge
import Hnmos.HostBridge
import Hnmos.RequestParsing
import Hnmos.ResponseFrame
import Hnmos.RequestReply
import Hnmos.SerialLink
import Hnmos.SerialStream
import Hnmos.ReceiveOverflow
import Hnmos.ResponseDelivery
import Hnmos.Surface
import Hnmos.Widgets
import Hnmos.Workspace
import Hnmos.TaskScheduler
import Hnmos.AiAssembly
import Hnmos.System
import Hnmos.Screens
import Hnmos.Events
import Hnmos.AiStudio
import Hnmos.Router
import Hnmos.Terminal
import Hnmos.LauncherScreen
import Hnmos.InputDispatcher
import Hnmos.KernelCore
import Hnmos.KernelActs
import Hnmos.BridgeSlot
import Hnmos.TaskLifecycle
import Hnmos.KernelInvariant
import Hnmos.CaptureModes
import Hnmos.LineAssembly
import Hnmos.ResponseGrammar
import Hnmos.FrameRoundTrip
import Hnmos.PageAccounting
import Hnmos.MemoryMap
import Hnmos.KernelHeap
import Hnmos.Overwrite
import Hnmos.Font
import Hnmos.Graphics
import Hnmos.MouseCursor
import Hnmos.Desktop
import Hnmos.DraftProvenance
import Hnmos.RequestRetention
import Hnmos.LineEditor
import Hnmos.TypedOutput
import Hnmos.PortTrace
import Hnmos.SecretIndependence
import Hnmos.KernelSteady
import Hnmos.ActBatches
import Hnmos.FileSystem
import Hnmos.PathResolution
import Hnmos.PathConfinement
import Hnmos.BoundedFifo
import Hnmos.QueuedEvents
import Hnmos.RoundRobin
import Hnmos.Alternation
import Hnmos.MouseDriver
import Hnmos.TerminalGrid
import Hnmos.PixelRows
import Hnmos.ConsoleGrid
import Hnmos.MaskedSection
import Hnmos.SystemSync
import Hnmos.MapCompleteness
import Hnmos.GuidedWalk
import Hnmos.MapWalk
import Hnmos.BasicMemory
import Hnmos.HeapAccounting
import Hnmos.YieldSafety
import Hnmos.MousePackets
import Hnmos.ShiftTracking
import Hnmos.SendCompleteness
import Hnmos.LineSplitting
import Hnmos.HostServe
import Hnmos.RequestGrammar
import Hnmos.TerminalTape
import Hnmos.TerminalEcho
import Hnmos.PitchedRows
import Hnmos.FramebufferAcceptance
import Hnmos.Clipping
import Hnmos.HostService
import Hnmos.ClosedLoop
import Hnmos.SlotSteps
import Hnmos.AnswerProvenance
import Hnmos.ByteMemory
import Hnmos.Processor
import Hnmos.InterruptStub
import Hnmos.InterruptedRun
import Hnmos.SyncAssembly
import Hnmos.StoreBuffers
import Hnmos.SpinLock
import Hnmos.InterruptController
import Hnmos.InterruptService
import Hnmos.InputDelivery
import Hnmos.TaskFairness
import Hnmos.AnswerLiveness
import Hnmos.PortDriver
import Hnmos.MouseSetup
import Hnmos.PageLayout
import Hnmos.TextLog
