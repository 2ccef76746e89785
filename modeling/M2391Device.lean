import M2391Device.Lib.Run
import M2391Device.Vibrator.TimedMotor
import M2391Device.Vibrator.Interleaving
import M2391Device.Vibrator.MotorLemmas
import M2391Device.Vibrator.RamLoop
import M2391Device.Vibrator.ScheduleInvariant
import M2391Device.Lib.History
import M2391Device.Vibrator.LoopSafety
import M2391Device.Vibrator.Requests
import M2391Device.Vibrator.Completion
import M2391Device.Vibrator.Writes
import M2391Device.Vibrator.FailedStart
import M2391Device.Vibrator.StopWrites
import M2391Device.Vibrator.Wakeups
import M2391Device.Vibrator.Composition
import M2391Device.Vibrator.Subscripts
import M2391Device.Vibrator.Service
import M2391Device.Ir.Transaction
import M2391Device.Ir.Acceptance
import M2391Device.Ims.Manifest
import M2391Device.Lib.Nesting
import M2391Device.Ims.StringPool
import M2391Device.Ims.Document
import M2391Device.Ims.Overlay
import M2391Device.Ims.PoolNames
import M2391Device.Ims.Malformed
import M2391Device.Ims.Archive
import M2391Device.Ims.Package
import M2391Device.Gestures.Synchronizer
import M2391Device.Gestures.Retries
import M2391Device.Gestures.LiftToWake
import M2391Device.Gestures.Debounce
import M2391Device.Gestures.RaiseHistory
import M2391Device.Gestures.GestureControl
import M2391Device.Lib.Regex
import M2391Device.Lib.Program
import M2391Device.Usb.System
import M2391Device.Usb.PortStatus
import M2391Device.Usb.PortReports
import M2391Device.Usb.Devices
import M2391Device.Usb.Uevent
import M2391Device.Usb.Captures
import M2391Device.Usb.UeventRuns
import M2391Device.Usb.BusReset
import M2391Device.Usb.WriteTargets
import M2391Device.Usb.HidDevices
import M2391Device.Lib.Cells
import M2391Device.Usb.DataControl
import M2391Device.Usb.PortRequests
import M2391Device.Usb.PortNames
import M2391Device.Lib.TwoRuns
import M2391Device.Lib.A64.Machine
import M2391Device.Camera.Encoders
import M2391Device.Camera.EncoderWords
import M2391Device.Camera.Prelude
import M2391Device.Camera.PreludeRun
import M2391Device.Camera.ElfFile
import M2391Device.Camera.PatchOverride
import M2391Device.Lib.CStrings
import M2391Device.Lib.Hex
import M2391Device.Usb.Newlines
import M2391Device.Usb.UeventBuffer
import M2391Device.Usb.PowerContract
import M2391Device.Lib.Pool
import M2391Device.Usb.UeventThread
import M2391Device.Usb.SwitchMode
import M2391Device.Display.BootReceiver
import M2391Device.Display.Reconnects
import M2391Device.Display.Decisions
import M2391Device.Camera.Acceptance
import M2391Device.Lib.A64.Image
import M2391Device.Camera.LoadedLibrary
import M2391Device.Gestures.Application
import M2391Device.Gestures.Consistency
import M2391Device.Gestures.PanelMask
import M2391Device.Lib.Locks
import M2391Device.Usb.Service
import M2391Device.Usb.Interleavings
import M2391Device.Usb.Answers
import M2391Device.Ir.Service
import M2391Device.Vibrator.Threads
import M2391Device.Vibrator.Executions
import M2391Device.Vibrator.Refinement
import M2391Device.Ir.Gaps
import M2391Device.Usb.PortReports
