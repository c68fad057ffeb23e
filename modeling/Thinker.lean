import Thinker.Numerals
import Thinker.Bits
import Thinker.Vlq
import Thinker.Transition
import Thinker.Raises
import Thinker.SlidingWindow
import Thinker.CommandBlock
import Thinker.SerialQueue
import Thinker.Delivery
import Thinker.Heap
import Thinker.StepperSync
import Thinker.Move
import Thinker.CoreXY
import Thinker.GCodeMove
import Thinker.Junction
import Thinker.Velocities
import Thinker.LookAhead
import Thinker.Planning
import Thinker.Linked
import Thinker.Clock
import Thinker.TimerList
import Thinker.TimerOrder
import Thinker.Lines
import Thinker.VirtualSd
import Thinker.GCodeScript
import Thinker.PauseResume
import Thinker.Klippy
import Thinker.Shutdown
import Thinker.StopHeating
import Thinker.CancelPrint
import Thinker.History
import Thinker.HistoryList
import Thinker.JobQueue
import Thinker.QueueDiscipline
import Thinker.Buttons
import Thinker.Dict
import Thinker.QueryStatus
import Thinker.Subscriptions
import Thinker.ConfigFile
import Thinker.SaveConfig
import Thinker.TransmitQueue
import Thinker.Transmission
import Thinker.Session
import Thinker.Completion
import Thinker.LoopProgram
import Thinker.SdLoop
import Thinker.SdPrint
import Thinker.TwoLeast
import Thinker.Trdispatch
import Thinker.ExcludeObject
import Thinker.MessageBlock
import Thinker.Resync
import Thinker.OutputPins
import Thinker.Watchdog
import Thinker.Stepper
import Thinker.Endstop
import Thinker.Trsync
import Thinker.HomingStop
import Thinker.SerialReader
import Thinker.Queries
import Thinker.TrsyncQuery
import Thinker.MovePool
import Thinker.MsgProto
import Thinker.Handlers
import Thinker.MoveQueues
import Thinker.Json
import Thinker.JsonRpc
import Thinker.PosixPath
import Thinker.FileManager
import Thinker.VerifyHeater
import Thinker.Versions
import Thinker.OrderedDict
import Thinker.MetadataStorage
import Thinker.Webhooks
import Thinker.PowerLoss
import Thinker.StepCounter
import Thinker.CommandEncode
import Thinker.Grid
import Thinker.ZMesh
import Thinker.BedMesh
import Thinker.FilamentSensor
import Thinker.DualCarriage
import Thinker.ObjectTree
import Thinker.Database
import Thinker.DatabaseBatch
import Thinker.Authorization
import Thinker.Revocation
import Thinker.Splice
import Thinker.ZigZag
import Thinker.ProbeGrid
import Thinker.ProbeMatrix
import Thinker.PrintStats
import Thinker.ClockSync
import Thinker.Uptime
import Thinker.SkewCorrection
import Thinker.Heater
import Thinker.QuadraticSteps
import Thinker.StepCompress
import Thinker.StepHistory
import Thinker.PrintStart
import Thinker.PauseCoherence
import Thinker.MoveSplit
import Thinker.MeshPosition
import Thinker.MeshInterpolation
import Thinker.StepCompressCheck
import Thinker.TrapqMove
import Thinker.Trapq
import Thinker.TrapqRuns
import Thinker.InputShaper
import Thinker.PressureAdvance
import Thinker.StepGeneration
import Thinker.Tmcuart
import Thinker.TmcUartBitbang
import Thinker.CanSerial
import Thinker.CanStreams
import Thinker.ZThermalAdjust
import Thinker.ZAdjust
import Thinker.GantryLevel
import Thinker.ProbeSession
import Thinker.PinResend
import Thinker.Pattern
import Thinker.TextFile
import Thinker.GCodeIO
import Thinker.Slicer
import Thinker.FileSystem
import Thinker.Uploads
import Thinker.HomingMove
import Thinker.FileTree
import Thinker.LoadedFile
import Thinker.Patch
import Thinker.NeoPixel
import Thinker.AnalogIn
import Thinker.BatchBulk
import Thinker.SensorBulk
import Thinker.AngleSensor
import Thinker.Adxl345
import Thinker.CloudDownload
import Thinker.Timelapse
import Thinker.IdleTimeout
import Thinker.TmcFields
import Thinker.KlippyWebsocket
import Thinker.KlippyFiles
