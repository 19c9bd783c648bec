import Relacon.Core.Machine
import Relacon.Core.Refinement
import Relacon.Core.Parts
import Relacon.Core.Digits
import Relacon.Core.CString
import Relacon.Core.Word
import Relacon.Core.Loop
import Relacon.Core.Packed
import Relacon.Core.Lfsr
import Relacon.Core.PrefixTable
import Relacon.L1Board.Board
import Relacon.L2Tasks.Watchdog
import Relacon.L2Tasks.EventCounter
import Relacon.L2Tasks.CountingSound
import Relacon.L2Tasks.CountingComplete
import Relacon.L2Tasks.ExactTime
import Relacon.L2Tasks.DebounceOrder
import Relacon.L3Protocol.Response
import Relacon.L3Protocol.Handlers
import Relacon.L3Protocol.Command
import Relacon.L3Protocol.Effects
import Relacon.L3Protocol.Answers
import Relacon.L3Protocol.Dispatch
import Relacon.L3Protocol.Syntax
import Relacon.L3Protocol.Grammar
import Relacon.L3Protocol.CaseFolding
import Relacon.L3Protocol.Inputs
import Relacon.L3Protocol.Spelling
import Relacon.L4Firmware.Run
import Relacon.L4Firmware.Failure
import Relacon.L4Firmware.Arming
import Relacon.L4Firmware.Relays
import Relacon.L4Firmware.Counting
import Relacon.L4Firmware.WatchdogTiming
import Relacon.L4Firmware.Responses
import Relacon.L4Firmware.Settings
import Relacon.L4Firmware.Rollover
import Relacon.L4Firmware.Isolation
import Relacon.L5Usb.Hid
import Relacon.L5Usb.GetReport
import Relacon.L5Usb.InReports
import Relacon.L5Usb.StaleMemory
import Relacon.L5Usb.StringDescriptors
import Relacon.L5Usb.PollsInvisible
import Relacon.L6System.Device
import Relacon.L6System.MainLoop
import Relacon.L6System.DeviceRefinement
import Relacon.L6System.TightPace
import Relacon.L6System.Host
import Relacon.L6System.Silence
import Relacon.L6System.KeepAlive
import Relacon.L6System.Contact
import Relacon.L6System.Totals
import Relacon.Tools.Mkdfu
import Relacon.Tools.DfuIntegrity
