import DeviceDrivers.Library.Runs
import DeviceDrivers.Library.Chains
import DeviceDrivers.Library.OnesComplement
import DeviceDrivers.Library.Touches
import DeviceDrivers.Snull.Frames
import DeviceDrivers.Snull.Driver
import DeviceDrivers.Snull.Calls
import DeviceDrivers.Proofs.SnullLists
import DeviceDrivers.Proofs.SnullOwnership
import DeviceDrivers.Snull.Module
import DeviceDrivers.Proofs.SnullBounds
import DeviceDrivers.Proofs.SnullCompletion
import DeviceDrivers.Proofs.SnullEcho
import DeviceDrivers.Proofs.SnullFlow
import DeviceDrivers.Proofs.SnullLifecycle
import DeviceDrivers.Library.Interleavings
import DeviceDrivers.Calculator.Driver
import DeviceDrivers.Proofs.CalculatorDispatch
import DeviceDrivers.Serial.Calls
import DeviceDrivers.Proofs.SerialBanking
import DeviceDrivers.Proofs.SerialReceive
import DeviceDrivers.Proofs.SerialTransmit
import DeviceDrivers.Library.LatestWrite
import DeviceDrivers.Serial.Settings
import DeviceDrivers.Proofs.SerialSettings
import DeviceDrivers.SlpyProc.Driver
import DeviceDrivers.SlpyWq.Driver
import DeviceDrivers.Proofs.SlpyProcEvents
import DeviceDrivers.Proofs.SlpyWqTimer
import DeviceDrivers.Proofs.SlpyWqUnload
import DeviceDrivers.Clock.Driver
import DeviceDrivers.Proofs.ClockRegisters
import DeviceDrivers.VideoRam.Driver
import DeviceDrivers.Proofs.VideoRamFile
import DeviceDrivers.Proofs.VideoRamFaults
import DeviceDrivers.Clock.Calls
import DeviceDrivers.Proofs.ClockFile
import DeviceDrivers.CharDevices.Drivers
import DeviceDrivers.Calculator.Calls
import DeviceDrivers.Proofs.CharDeviceCopies
import DeviceDrivers.Proofs.CalculatorArithmetic
import DeviceDrivers.Proofs.SnullIdentifier
import DeviceDrivers.Proofs.SnullOrder
import DeviceDrivers.Library.Quotas
import DeviceDrivers.Snull.Poll
import DeviceDrivers.Proofs.SnullPoll
import DeviceDrivers.Proofs.SnullHandshake
import DeviceDrivers.Library.Ledger
import DeviceDrivers.PortIo.Drivers
import DeviceDrivers.DeviceFiles.Drivers
import DeviceDrivers.Proofs.PortIoLoading
import DeviceDrivers.Proofs.DeviceFileLoading
import DeviceDrivers.Library.Decimal
import DeviceDrivers.Library.Resumption
import DeviceDrivers.Kernel.Callers
import DeviceDrivers.PortIo.Writes
import DeviceDrivers.Proofs.PortIoWrites
import DeviceDrivers.CharMemory.Driver
import DeviceDrivers.Proofs.CharMemoryFile
import DeviceDrivers.SlpyProc.Control
import DeviceDrivers.Proofs.SlpyProcControl
import DeviceDrivers.Library.Cycles
import DeviceDrivers.BusyWait.Driver
import DeviceDrivers.Proofs.BusyWaitEnd
import DeviceDrivers.Library.Requests
import DeviceDrivers.BottomHalves.Drivers
import DeviceDrivers.Proofs.BottomHalvesUnload
import DeviceDrivers.Proofs.OriginalPolling
import DeviceDrivers.Proofs.SlpyWaiting
import DeviceDrivers.Proofs.SlpyProcWaiting
import DeviceDrivers.Proofs.KernelThreadUnload
import DeviceDrivers.Proofs.SnullWork
import DeviceDrivers.Proofs.CharDeviceNumbers
import DeviceDrivers.Proofs.OriginalPort
import DeviceDrivers.Proofs.CalculatorPrograms
