import DeviceDrivers.Library.LatestWrite
import DeviceDrivers.Serial.Settings

/-! Which line settings the last accepted command decides. A command for even parity
sets a bit that the one for odd parity does not clear, nothing clears bit 5, and
the commands that the switch leaves out are accepted and do nothing. -/

namespace DeviceDrivers.Serial
open LatestWrite

variable {u : Uart} {cmd : Command} {cmds : List Command}

def Body.act (u : Uart) : Body → Uart
  | .divisor low high => { u with divisorLatchL := low, divisorLatchH := high }
  | .setBits mask => { u with lineCtrl := u.lineCtrl ||| mask }
  | .keepBits mask => { u with lineCtrl := u.lineCtrl &&& mask }
  | .interrupts mask => { u with intEnable := mask }
  | .nothing => u

def Command.act (u : Uart) (cmd : Command) : Uart := cmd.body.act u

/-- Even parity needs bit 5 clear, odd parity bit 4 as well; a command that is left
out of the switch has its way only where the registers held its value from the start. -/
def Command.Effective (u : Uart) (earlier : List Command) : Command → Prop
  | .setEvenParity => u.lineCtrl.getLsbD 5 = false
  | .setOddParity =>
    u.lineCtrl.getLsbD 4 = false ∧ u.lineCtrl.getLsbD 5 = false ∧ .setEvenParity ∉ earlier
  | cmd => cmd.body ≠ .nothing ∨
    u.held cmd.setting = cmd.asked ∧ ∀ other ∈ earlier, other.setting = cmd.setting → other.body = .nothing

def Settled (u : Uart) (cmds : List Command) : Prop :=
  ∀ earlier cmd later, cmds = earlier ++ cmd :: later → (∀ other ∈ later, other.setting ≠ cmd.setting) →
    cmd.Effective u earlier

end DeviceDrivers.Serial
