import DeviceDrivers.PortIo.Drivers

/-! Whether the port drivers give back what they took. The drivers take no note of
which of their requests were granted, so unloading gives back what they asked for. -/

namespace DeviceDrivers.PortIo
open Runs Ledger Kernel

private theorem Interrupt3.settled_iff (outcomes : Outcomes) :
    Settled (Interrupt3.driver.life outcomes).events ↔ outcomes.register ≠ none := by
  obtain ⟨register, _, check, region, irq⟩ := outcomes
  cases register with
  | some errno => simp [driver, Component.life, parlelportInit, Settled, holds]
  | none =>
    cases check with
    | some errno => simp [driver, Component.life, parlelportInit, parlelportExit, Settled, holds]
    | none =>
      -- Three ports are taken and one is given back.
      cases region <;> cases irq <;> simp [driver, Component.life, parlelportInit, parlelportExit, Settled, holds]

private theorem Parport.settled_iff (outcomes : Outcomes) : Settled (Parport.driver.life outcomes).events ↔
    outcomes.register ≠ none ∨ outcomes.check ≠ none ∨ outcomes.region = true := by
  obtain ⟨register, _, check, region, _⟩ := outcomes
  cases register with
  | some errno => simp [driver, Component.life, parlelportInit, Settled, holds]
  | none =>
    cases check with
    | some errno => simp [driver, Component.life, parlelportInit, parlelportExit, Settled, holds]
    | none => cases region <;> simp [driver, Component.life, parlelportInit, parlelportExit, Settled, holds]

private theorem Serial.settled_iff (outcomes : Outcomes) : Settled (Serial.driver.life outcomes).events ↔
    outcomes.register ≠ none ∨ outcomes.cdevAdd = none ∧ outcomes.region = true ∧ outcomes.irq = none := by
  obtain ⟨register, cdevAdd, _, region, irq⟩ := outcomes
  cases register with
  | some errno => simp [driver, Component.life, charDeviceInit, Settled, holds]
  | none =>
    cases cdevAdd with
    | some errno => simp [driver, Component.life, charDeviceInit, Settled, holds]
    | none =>
      cases region <;> cases irq <;> simp [driver, Component.life, charDeviceInit, charDeviceExit, Settled, holds]

inductive Driver where
  | interrupt3
  | parport
  | serial
  deriving DecidableEq, Repr

namespace Driver

def Globals : Driver → Type
  | interrupt3 | parport => Int
  | serial => Unit

def component : (driver : Driver) → Component Outcomes driver.Globals Resource
  | interrupt3 => Interrupt3.driver
  | parport => Parport.driver
  | serial => Serial.driver

/-- The outcomes of a load that the driver undoes as it should. -/
def Undone (driver : Driver) (outcomes : Outcomes) : Prop :=
  match driver with
  | interrupt3 => outcomes.register ≠ none
  | parport => outcomes.register ≠ none ∨ outcomes.check ≠ none ∨ outcomes.region = true
  | serial =>
    outcomes.register ≠ none ∨ outcomes.cdevAdd = none ∧ outcomes.region = true ∧ outcomes.irq = none

private theorem settled_iff (driver : Driver) (outcomes : Outcomes) :
    Settled (driver.component.life outcomes).events ↔ driver.Undone outcomes := by
  cases driver with
  | interrupt3 => exact Interrupt3.settled_iff outcomes
  | parport => exact Parport.settled_iff outcomes
  | serial => exact Serial.settled_iff outcomes

end Driver

/-- Over any sequence of loads and unloads each failed load and each unload gives back
exactly what the load acquired if its requests turned out in a way that the driver
undoes, and only then. With all in such a way the kernel's tables are the first ones
whenever the driver is not loaded. -/
theorem undone_iff (driver : Driver) (table : List Resource) (actions : List (Component.Action Outcomes))
    (s : Component.State Outcomes driver.Globals Resource)
    (run : Run driver.component.step (fun _ _ => True) ⟨table, none, []⟩ actions s) :
    ((∀ life ∈ s.finished, Settled life.events) ↔ ∀ life ∈ s.finished, driver.Undone life.outcomes) ∧
      ((∀ life ∈ s.finished, driver.Undone life.outcomes) → s.running = none → s.table = table) := by
  have settled := Component.finished_iff (fun life => Settled life.events) driver.Undone driver.settled_iff run
  exact ⟨settled, fun undone => Component.restored run (settled.mpr undone)⟩

/-- `Parport` is loaded and unloaded while another driver has an interrupt. -/
theorem undone_iff_parport : ∃ s : Component.State Outcomes Int Resource,
    Run Parport.driver.step (fun _ _ => True) ⟨[.irq 4], none, []⟩ [.load {}, .unload] s ∧ s.finished.length = 1 ∧
      s.table = [.irq 4] := by
  have run : Run Parport.driver.step (fun _ _ => True) ⟨[.irq 4], none, []⟩ [.load {}, .unload] _ :=
    .snoc (.snoc .nil trivial rfl) trivial rfl
  refine ⟨_, run, rfl, (undone_iff .parport [.irq 4] _ _ run).2 ?_ rfl⟩
  exact List.forall_mem_singleton.mpr (.inr (.inr rfl))

/-- The parallel port with an interrupt takes three ports and gives one back. -/
theorem ports_kept : ¬ ∀ (driver : Driver) (table : List Resource) (actions : List (Component.Action Outcomes))
    (s : Component.State Outcomes driver.Globals Resource),
    Run driver.component.step (fun _ _ => True) ⟨table, none, []⟩ actions s → ∀ life ∈ s.finished, Settled life.events := by
  intro claim
  have run : Run Interrupt3.driver.step (fun _ _ => True) ⟨[], none, []⟩ [.load {}, .unload] _ :=
    .snoc (.snoc .nil trivial rfl) trivial rfl
  have settled := claim .interrupt3 [] _ _ run _ (List.mem_singleton_self _)
  exact absurd settled (by decide)

end DeviceDrivers.PortIo
