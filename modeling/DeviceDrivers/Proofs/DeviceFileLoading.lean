import DeviceDrivers.DeviceFiles.Drivers

/-! Whether the ladders that create a device file undo what they did. They take failed
calls for successful ones where these report an error pointer or another reason than 1. -/

namespace DeviceDrivers.DeviceFiles
open Runs Ledger Kernel

inductive Driver where
  | devfile
  | vram
  deriving DecidableEq, Repr

namespace Driver

def component : Driver → Component Outcomes Globals Resource
  | devfile => Devfile.driver
  | vram => Vram.driver

def AllSucceed (driver : Driver) (outcomes : Outcomes) : Prop :=
  (driver = vram → outcomes.ioremap = true) ∧ (∃ first, outcomes.alloc = .ok first) ∧ outcomes.classCreate = none ∧
    outcomes.deviceCreate = none ∧ outcomes.cdevAdd = none

/-- A load returns 0 only if all its calls succeeded, and else an error. When it has
failed, or been unloaded, all it acquired has been released once. -/
structure RolledBack (driver : Driver) (life : Life Outcomes Resource) : Prop where
  complete : life.result = 0 → driver.AllSucceed life.outcomes
  failed : life.result ≠ 0 → life.result < 0
  settled : Settled life.events

def Undone (driver : Driver) (outcomes : Outcomes) : Prop :=
  match driver with
  | devfile =>
    (∃ errno, outcomes.alloc = .error errno) ∨ outcomes.classCreate = none ∧
      (outcomes.deviceCreate = none ∧ outcomes.cdevAdd = none ∨ ∃ errno ∈ outcomes.cdevAdd, errno.number = 1)
  | vram => outcomes.ioremap = false ∨ vram.AllSucceed outcomes

variable {driver : Driver} {outcomes : Outcomes} {life : Life Outcomes Resource}

private theorem rolledBack_failed (negative : life.result = -1) : driver.RolledBack life ↔ Settled life.events :=
  ⟨RolledBack.settled, fun settled => ⟨by simp [negative], by simp [negative], settled⟩⟩

private theorem rolledBack_loaded (zero : life.result = 0) :
    driver.RolledBack life ↔ driver.AllSucceed life.outcomes ∧ Settled life.events :=
  ⟨fun rolled => ⟨rolled.complete zero, rolled.settled⟩,
    fun both => ⟨fun _ => both.1, fun nonzero => absurd zero nonzero, both.2⟩⟩

/-- The reason 1 is the only one of `cdev_add` that is noticed. -/
def NoticedAdd (outcomes : Outcomes) : Prop := ∃ errno ∈ outcomes.cdevAdd, errno.number = 1

def CallsSucceed (outcomes : Outcomes) : Prop :=
  outcomes.classCreate = none ∧ outcomes.deviceCreate = none ∧ outcomes.cdevAdd = none

inductive Created (first : Nat) (outcomes : Outcomes) (created : Logged Resource (Int × Globals)) : Prop where
  | failed (noticed : NoticedAdd outcomes) (returned : created.value.1 = -1)
      (account : ∀ held, Resource.device first ∉ held → holds (.numbers first 1 :: held) created.events =
        if outcomes.classCreate = none then some held else none)
  | partly (unnoticed : ¬ NoticedAdd outcomes) (incomplete : ¬ CallsSucceed outcomes) (returned : created.value.1 = 0)
  | complete (all : CallsSucceed outcomes) (same : created =
      ⟨(0, ⟨first, .good, .good⟩), [.acquired .deviceClass, .acquired (.device first), .acquired .cdev]⟩)

private theorem createDeviceFile_created (first : Nat) (outcomes : Outcomes) :
    Created first outcomes (createDeviceFile first outcomes) := by
  obtain ⟨ioremap, alloc, cl, device, added⟩ := outcomes
  by_cases noticed : NoticedAdd ⟨ioremap, alloc, cl, device, added⟩
  · obtain ⟨errno, same, one⟩ := noticed
    cases same
    refine .failed ⟨errno, rfl, one⟩ ?_ fun held absent => ?_
    · cases cl <;> cases device <;> simp [createDeviceFile, deviceCreate, one]
    · cases cl <;> cases device <;> simp [createDeviceFile, deviceCreate, deviceDestroy, one, holds, absent]
  · have unnoticed (errno : Errno) (same : added = some errno) : errno.number ≠ 1 :=
      fun one => noticed ⟨errno, same, one⟩
    have returned : (createDeviceFile first ⟨ioremap, alloc, cl, device, added⟩).value.1 = 0 := by
      cases cl <;> cases device <;> cases added <;> simp [createDeviceFile, deviceCreate, unnoticed]
    by_cases all : CallsSucceed ⟨ioremap, alloc, cl, device, added⟩
    · obtain ⟨rfl, rfl, rfl⟩ := all
      exact .complete ⟨rfl, rfl, rfl⟩ rfl
    · exact .partly noticed all returned

private theorem callsSucceed_noticed (all : CallsSucceed outcomes) : ¬ NoticedAdd outcomes := by
  rintro ⟨errno, same, _⟩
  rw [all.2.2] at same
  cases same

private theorem devfile_rolledBack (outcomes : Outcomes) :
    devfile.RolledBack (Devfile.driver.life outcomes) ↔ devfile.Undone outcomes := by
  cases alloc : outcomes.alloc with
  | error errno =>
    rw [rolledBack_failed (by simp [Devfile.driver, Component.life, Devfile.devfileInit, alloc])]
    simp [Devfile.driver, Component.life, Devfile.devfileInit, Settled, holds, Undone, alloc]
  | ok first =>
    have begun : Devfile.driver.init outcomes = ⟨(createDeviceFile first outcomes).value,
        .acquired (.numbers first 1) :: (createDeviceFile first outcomes).events⟩ := by
      simp only [Devfile.driver, Devfile.devfileInit, alloc]
      rfl
    have undone : devfile.Undone outcomes ↔ CallsSucceed outcomes ∨ outcomes.classCreate = none ∧ NoticedAdd outcomes := by
      simp only [Undone, alloc, reduceCtorEq, exists_false, false_or, CallsSucceed, NoticedAdd, and_or_left]
    rw [undone]
    cases createDeviceFile_created first outcomes with
    | failed noticed returned account =>
      rw [Component.life_failed begun (by simp [returned]), rolledBack_failed returned, Settled, holds,
        account [] List.not_mem_nil]
      have incomplete : ¬ CallsSucceed outcomes := fun all => callsSucceed_noticed all noticed
      simp [noticed, incomplete]
    | partly unnoticed incomplete returned =>
      rw [Component.life_loaded begun (by simp [returned]), rolledBack_loaded returned]
      refine iff_of_false (fun both => incomplete ?_) ?_
      · exact both.1.2.2
      · rintro (all | ⟨_, noticed⟩)
        · exact incomplete all
        · exact unnoticed noticed
    | complete all same =>
      rw [same] at begun
      rw [Component.life_loaded begun (by simp), rolledBack_loaded rfl]
      refine iff_of_true ⟨⟨by simp, ⟨first, alloc⟩, all⟩, ?_⟩ (.inl all)
      simp [Devfile.driver, Devfile.devfileExit, removeDeviceFile, deviceDestroy, Settled, holds]

/-- No way out but the last releases the mapping. -/
private theorem vram_rolledBack (outcomes : Outcomes) :
    vram.RolledBack (Vram.driver.life outcomes) ↔ vram.Undone outcomes := by
  cases mapped : outcomes.ioremap with
  | false =>
    rw [rolledBack_failed (by simp [Vram.driver, Component.life, Vram.vramInit, mapped])]
    simp [Vram.driver, Component.life, Vram.vramInit, Settled, holds, Undone, mapped]
  | true =>
    rw [show vram.Undone outcomes ↔ vram.AllSucceed outcomes from or_iff_right (by simp [mapped])]
    cases alloc : outcomes.alloc with
    | error errno =>
      rw [rolledBack_failed (by simp [Vram.driver, Component.life, Vram.vramInit, mapped, alloc])]
      simp [Vram.driver, Component.life, Vram.vramInit, Settled, holds, AllSucceed, mapped, alloc]
    | ok first =>
      have begun : Vram.driver.init outcomes = ⟨(createDeviceFile first outcomes).value,
          .acquired (.mapping Vram.vramBase VideoRam.vramSize) :: .acquired (.numbers first 1) ::
            (createDeviceFile first outcomes).events⟩ := by
        simp only [Vram.driver, Vram.vramInit, mapped, alloc]
        rfl
      cases createDeviceFile_created first outcomes with
      | failed noticed returned account =>
        rw [Component.life_failed begun (by simp [returned]), rolledBack_failed returned, Settled, holds, holds,
          account _ (by simp)]
        refine iff_of_false ?_ fun all => callsSucceed_noticed all.2.2 noticed
        split <;> simp
      | partly unnoticed incomplete returned =>
        rw [Component.life_loaded begun (by simp [returned]), rolledBack_loaded returned]
        exact iff_of_false (fun both => incomplete both.1.2.2) fun all => incomplete all.2.2
      | complete all same =>
        rw [same] at begun
        have succeeded : vram.AllSucceed outcomes := ⟨fun _ => mapped, ⟨first, alloc⟩, all⟩
        rw [Component.life_loaded begun (by simp), rolledBack_loaded rfl]
        refine iff_of_true ⟨succeeded, ?_⟩ succeeded
        simp [Vram.driver, Vram.vramExit, removeDeviceFile, deviceDestroy, Settled, holds]

private theorem rolledBack_iff (driver : Driver) (outcomes : Outcomes) :
    driver.RolledBack (driver.component.life outcomes) ↔ driver.Undone outcomes := by
  cases driver with
  | devfile => exact devfile_rolledBack outcomes
  | vram => exact vram_rolledBack outcomes

private theorem allSucceed_undone (all : driver.AllSucceed outcomes) : driver.Undone outcomes := by
  cases driver with
  | devfile => exact .inr ⟨all.2.2.1, .inl all.2.2.2⟩
  | vram => exact .inr all

private theorem loaded_iff (loaded : ¬ (driver.component.life outcomes).result < 0) :
    driver.AllSucceed outcomes ↔ driver.Undone outcomes := by
  refine ⟨allSucceed_undone, fun undone => ?_⟩
  have rolled := (driver.rolledBack_iff outcomes).mpr undone
  exact rolled.complete (by_contra fun nonzero => loaded (rolled.failed nonzero))

end Driver

/-- Over any sequence of loads and unloads each load is rolled back, or it has succeeded
throughout and is undone by its unload, if its calls turned out in a way that the ladder
gets right, and only then. With all in such a way nothing is left behind while the
driver is not loaded. -/
theorem rolled_back_iff (driver : Driver) (table : List Resource) (actions : List (Component.Action Outcomes))
    (s : Component.State Outcomes Globals Resource)
    (run : Run driver.component.step (fun _ _ => True) ⟨table, none, []⟩ actions s) :
    ((∀ life ∈ s.finished, driver.RolledBack life) ∧
        (∀ outcomes begun, s.running = some (outcomes, begun) → driver.AllSucceed outcomes) ↔
      (∀ life ∈ s.finished, driver.Undone life.outcomes) ∧
        ∀ outcomes begun, s.running = some (outcomes, begun) → driver.Undone outcomes) ∧
    ((∀ life ∈ s.finished, driver.Undone life.outcomes) → s.running = none → s.table = table) := by
  have rolled := Component.finished_iff driver.RolledBack driver.Undone driver.rolledBack_iff run
  refine ⟨and_congr rolled ?_, fun undone => Component.restored run fun life member => (rolled.mpr undone life member).settled⟩
  exact forall₃_congr fun outcomes begun running => Driver.loaded_iff (Component.running_loaded run running)

/-- `vram` is loaded and unloaded. -/
theorem rolled_back_iff_vram : ∃ s : Component.State Outcomes Globals Resource,
    Run Vram.driver.step (fun _ _ => True) ⟨[.irq 4], none, []⟩ [.load {}, .unload] s ∧ s.finished.length = 1 ∧
      s.table = [.irq 4] := by
  have run : Run Vram.driver.step (fun _ _ => True) ⟨[.irq 4], none, []⟩ [.load {}, .unload] _ :=
    .snoc (.snoc .nil trivial rfl) trivial rfl
  refine ⟨_, run, rfl, (rolled_back_iff .vram [.irq 4] _ _ run).2 ?_ rfl⟩
  exact List.forall_mem_singleton.mpr (.inr ⟨fun _ => rfl, ⟨0, rfl⟩, rfl, rfl, rfl⟩)

/-- `devfile` is loaded although its class could not be created. -/
theorem class_missing : ¬ ∀ (driver : Driver) (table : List Resource) (actions : List (Component.Action Outcomes))
    (s : Component.State Outcomes Globals Resource),
    Run driver.component.step (fun _ _ => True) ⟨table, none, []⟩ actions s → ∀ life ∈ s.finished, driver.RolledBack life := by
  intro claim
  have run : Run Devfile.driver.step (fun _ _ => True) ⟨[], none, []⟩
      [.load { classCreate := some ⟨17, by decide, by decide⟩ }, .unload] _ := .snoc (.snoc .nil trivial rfl) trivial rfl
  have all := (claim .devfile [] _ _ run _ (List.mem_singleton_self _)).complete rfl
  cases all.2.2.1

end DeviceDrivers.DeviceFiles
