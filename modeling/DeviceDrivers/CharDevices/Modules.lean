import DeviceDrivers.CharDevices.Loading
import DeviceDrivers.DeviceFiles.Drivers

/-! All character drivers of the repository on one kernel, loaded and unloaded in any order. -/

namespace DeviceDrivers.CharDevices
open SharedTable Kernel

inductive Module where
  | registerChrdev
  | clock
  | serial
  | dynamicCdd
  | ioctl
  | calculator
  | devfile
  | vram
  | memory
  | interrupt3
  | parport
  | slpy
  | slpyProc
  | slpyWq
  | cddTemp
  deriving DecidableEq, Repr

inductive Load where
  | registerChrdev (outcomes : Outcomes)
  | clock (outcomes : Outcomes)
  | serial (outcomes : PortIo.Outcomes)
  | dynamicCdd (outcomes : Outcomes)
  | ioctl (outcomes : Outcomes)
  | calculator (outcomes : Outcomes)
  | devfile (outcomes : DeviceFiles.Outcomes)
  | vram (outcomes : DeviceFiles.Outcomes)
  | memory (outcomes : Outcomes)
  | interrupt3 (outcomes : PortIo.Outcomes)
  | parport (outcomes : PortIo.Outcomes)
  | slpy (outcomes : Outcomes)
  | slpyProc (outcomes : Outcomes)
  | slpyWq (outcomes : Outcomes)
  | cddTemp (outcomes : Outcomes)

def Load.module : Load → Module
  | .registerChrdev _ => .registerChrdev
  | .clock _ => .clock
  | .serial _ => .serial
  | .dynamicCdd _ => .dynamicCdd
  | .ioctl _ => .ioctl
  | .calculator _ => .calculator
  | .devfile _ => .devfile
  | .vram _ => .vram
  | .memory _ => .memory
  | .interrupt3 _ => .interrupt3
  | .parport _ => .parport
  | .slpy _ => .slpy
  | .slpyProc _ => .slpyProc
  | .slpyWq _ => .slpyWq
  | .cddTemp _ => .cddTemp

def Load.conduct : Load → Conduct Span
  | .registerChrdev outcomes => numbersConduct RegisterChrdev.driver outcomes
  | .clock outcomes => numbersConduct Clock.driver outcomes
  | .serial outcomes => numbersConduct PortIo.Serial.driver outcomes
  | .dynamicCdd outcomes => numbersConduct DynamicCdd.driver outcomes
  | .ioctl outcomes => numbersConduct Ioctl.driver outcomes
  | .calculator outcomes => numbersConduct Calculator.driver outcomes
  | .devfile outcomes => numbersConduct DeviceFiles.Devfile.driver outcomes
  | .vram outcomes => numbersConduct DeviceFiles.Vram.driver outcomes
  | .memory outcomes => numbersConduct Memory.driver outcomes
  | .interrupt3 outcomes => numbersConduct PortIo.Interrupt3.driver outcomes
  | .parport outcomes => numbersConduct PortIo.Parport.driver outcomes
  | .slpy outcomes => numbersConduct Slpy.driver outcomes
  | .slpyProc outcomes => numbersConduct SlpyProc.driver outcomes
  | .slpyWq outcomes => numbersConduct SlpyWq.driver outcomes
  | .cddTemp outcomes => numbersConduct CddTemp.driver outcomes

def modules : House Load Module Span := ⟨Load.module, Load.conduct⟩

abbrev System := State Load Span

end DeviceDrivers.CharDevices
