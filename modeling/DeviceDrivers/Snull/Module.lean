import DeviceDrivers.Snull.Calls

/-! Loading and unloading. Whether the kernel grants each allocation and each
registration is decided outside; what the module asked for and gave back is logged. -/

namespace DeviceDrivers.Snull

/-- What the kernel answers while the module is loaded. `registerNetdev` is
the value `register_netdev` returns. -/
structure Loading where
  allocNetdev : Dev → Bool := fun _ => true
  kmalloc : Dev → Nat → Bool := fun _ _ => true
  registerNetdev : Dev → Int := fun _ => 0

inductive NetdevCall where
  | alloc (dev : Dev)
  | register (dev : Dev)
  | unregister (dev : Dev)
  | free (dev : Dev)
  deriving DecidableEq, Repr

/-- `snullDevs` says which entries of `snull_devs` are not NULL. -/
structure Module where
  state : State
  snullDevs : Dev → Bool
  netdevs : List NetdevCall

/-- Before anything is allocated. The memory `kmalloc` will hand out is arbitrary. -/
def blank (memory : Addr → Packet) : State where
  heap := memory
  device _ := {}
  passedUp := []
  freed := []
  touched := []
  fresh := 0
  kfreed := []

/-- Both devices set up, as `alloc_netdev` leaves them through `snull_init`. -/
def setUp (cfg : Config) (kmalloc : Dev → Nat → Bool) (memory : Addr → Packet) : State :=
  snullInit cfg.poolSize (kmalloc .sn1) .sn1 (snullInit cfg.poolSize (kmalloc .sn0) .sn0 (blank memory))

def opened (cfg : Config) (kmalloc : Dev → Nat → Bool) (memory : Addr → Packet) : State :=
  snullOpen .sn1 (snullOpen .sn0 (setUp cfg kmalloc memory))

def kfree (pkt : Addr) (s : State) : State := { s with kfreed := s.kfreed ++ [pkt] }

/-- `while ((pkt = priv->ppool))`, for at most the given number of tests. -/
def snullTeardownPool : Nat → Dev → State → Option State
  | 0, _, _ => none
  | fuel + 1, dev, s =>
    match (s.priv dev).ppool with
    | none => some s
    | some pkt => snullTeardownPool fuel dev (kfree pkt (unlinkPool dev pkt s))

namespace Module

def log (m : Module) (call : NetdevCall) : Module := { m with netdevs := m.netdevs ++ [call] }

/-- `snull_devs[i] = alloc_netdev(sizeof(struct snull_priv), "sn%d", snull_init)`. -/
def allocNetdev (cfg : Config) (load : Loading) (dev : Dev) (m : Module) : Module :=
  if load.allocNetdev dev then
    { (m.log (.alloc dev)) with
      state := snullInit cfg.poolSize (load.kmalloc dev) dev m.state
      snullDevs := Function.update m.snullDevs dev true }
  else
    { m with snullDevs := Function.update m.snullDevs dev false }

def registerNetdev (load : Loading) (dev : Dev) (m : Module) : Module :=
  if load.registerNetdev dev = 0 then m.log (.register dev) else m

/-- An interface that is up is brought down first. -/
def unregisterNetdev (dev : Dev) (m : Module) : Module :=
  { (m.log (.unregister dev)) with
    state := if (m.state.device dev).up then snullRelease dev m.state else m.state }

def cleanupDevice (fuel : Nat) (dev : Dev) (m : Module) : Option Module :=
  if m.snullDevs dev then
    let m := m.unregisterNetdev dev
    (snullTeardownPool fuel dev m.state).map fun state => { m with state }.log (.free dev)
  else
    some m

end Module

def snullCleanup (fuel : Nat) (m : Module) : Option Module :=
  (m.cleanupDevice fuel .sn0).bind fun m => m.cleanupDevice fuel .sn1

/-- The return value (`-12` is `-ENOMEM`, `-19` is `-ENODEV`) and the module. -/
def snullInitModule (cfg : Config) (load : Loading) (memory : Addr → Packet) (fuel : Nat) :
    Option (Int × Module) :=
  let m : Module := ⟨blank memory, fun _ => false, []⟩
  let m := (m.allocNetdev cfg load .sn0).allocNetdev cfg load .sn1
  if m.snullDevs .sn0 = false ∨ m.snullDevs .sn1 = false then
    (snullCleanup fuel m).map fun m => (-12, m)
  else
    let m := (m.registerNetdev load .sn0).registerNetdev load .sn1
    if load.registerNetdev .sn0 = 0 ∨ load.registerNetdev .sn1 = 0 then
      some (0, m)
    else
      (snullCleanup fuel m).map fun m => (-19, m)

end DeviceDrivers.Snull
