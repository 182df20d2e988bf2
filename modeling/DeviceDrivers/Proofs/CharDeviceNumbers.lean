import DeviceDrivers.CharDevices.Modules

/-! Who has which device numbers, over any loads and unloads of all character drivers. -/

namespace DeviceDrivers.CharDevices
open Runs Ledger SharedTable Kernel

def Outcomes.first (outcomes : Outcomes) : Nat := outcomes.alloc.toOption.getD 0

def Outcomes.found (outcomes : Outcomes) : Nat := (outcomes.major.toOption.map Major.number).getD 0

def allocated (outcomes : DeviceFiles.Outcomes) : Nat := outcomes.alloc.toOption.getD 0

def Load.numbers : Load → Span
  | .registerChrdev _ | .clock _ | .serial _ => ⟨mkdev 255 0, 1⟩
  | .dynamicCdd outcomes | .ioctl outcomes => ⟨outcomes.first, 1⟩
  | .calculator outcomes => ⟨outcomes.first, 4⟩
  | .devfile outcomes | .vram outcomes => ⟨allocated outcomes, 1⟩
  | .memory _ | .interrupt3 _ | .parport _ => .ofMajor 61
  | .slpy _ => .ofMajor 60
  | .slpyProc outcomes | .slpyWq outcomes | .cddTemp outcomes => .ofMajor outcomes.found

/-- The driver could not add its device and keeps its number, or forgets the number that it is given. -/
def Load.stranded : Load → Bool
  | .registerChrdev outcomes | .clock outcomes => outcomes.register.isNone && outcomes.cdevAdd.isSome
  | .serial outcomes => outcomes.register.isNone && outcomes.cdevAdd.isSome
  | .dynamicCdd outcomes | .ioctl outcomes | .calculator outcomes => outcomes.alloc.isOk && outcomes.cdevAdd.isSome
  | .cddTemp outcomes => outcomes.major.isOk
  | _ => false

def Load.leaves (load : Load) : List Span := if load.stranded then [load.numbers] else []

inductive Manner (number : Span) : Conduct Span → List Span → Prop where
  | refused {result ended} (negative : result < 0) : Manner number ⟨result, [], ended⟩ []
  | undone {result ended} (negative : result < 0) : Manner number ⟨result, [.acquired number, .released number], ended⟩ []
  | stranded {result ended} (negative : result < 0) : Manner number ⟨result, [.acquired number], ended⟩ [number]
  | proper {result} (loaded : ¬ result < 0) : Manner number ⟨result, [.acquired number], [.released number]⟩ []
  | forgotten {result} (loaded : ¬ result < 0) : Manner number ⟨result, [.acquired number], []⟩ [number]

section Families
variable (outcomes : Outcomes) (first count : Nat)

private theorem addCdev_failed {errno : Errno} (failed : outcomes.cdevAdd = some errno) :
    addCdev first outcomes = ⟨(-1, first), []⟩ := by
  ext1 <;> simp [addCdev, failed]

private theorem addCdev_added (added : outcomes.cdevAdd = none) :
    addCdev first outcomes = ⟨(0, first), [.acquired .cdev]⟩ := by
  ext1 <;> simp [addCdev, added]

private theorem chosen_manner :
    Manner ⟨first, 1⟩ (numbersConduct ⟨addChosen first, fun _ => removeCdev 1 first⟩ outcomes)
    (if outcomes.register.isNone && outcomes.cdevAdd.isSome then [⟨first, 1⟩] else []) := by
  cases registered : outcomes.register with
  | some errno =>
    have begun : addChosen first outcomes = ⟨(-1, first), []⟩ := by
      ext1 <;> simp [addChosen, registered]
    simp only [numbersConduct, begun]
    exact .refused (by decide)
  | none =>
    have begun : addChosen first outcomes =
        ⟨(addCdev first outcomes).value, .acquired (.numbers first 1) :: (addCdev first outcomes).events⟩ := by
      ext1 <;> simp [addChosen, registered]
    cases added : outcomes.cdevAdd with
    | some errno =>
      simp only [numbersConduct, begun, addCdev_failed outcomes first added]
      exact .stranded (by decide)
    | none =>
      simp only [numbersConduct, begun, addCdev_added outcomes first added]
      exact .proper (by decide)

private theorem allocated_manner :
    Manner ⟨outcomes.first, count⟩ (numbersConduct ⟨addAllocated count, removeCdev count⟩ outcomes)
    (if outcomes.alloc.isOk && outcomes.cdevAdd.isSome then [⟨outcomes.first, count⟩] else []) := by
  cases found : outcomes.alloc with
  | error errno =>
    have begun : addAllocated count outcomes = ⟨(-1, 0), []⟩ := by
      ext1 <;> simp [addAllocated, found]
    simp only [numbersConduct, begun]
    exact .refused (by decide)
  | ok number =>
    have same : outcomes.first = number := by simp [Outcomes.first, found, Except.toOption]
    have begun : addAllocated count outcomes =
        ⟨(addCdev number outcomes).value, .acquired (.numbers number count) :: (addCdev number outcomes).events⟩ := by
      ext1 <;> simp [addAllocated, found]
    rw [same]
    cases added : outcomes.cdevAdd with
    | some errno =>
      simp only [numbersConduct, begun, addCdev_failed outcomes number added]
      exact .stranded (by decide)
    | none =>
      simp only [numbersConduct, begun, addCdev_added outcomes number added]
      exact .proper (by decide)

end Families

private theorem serial_manner (outcomes : PortIo.Outcomes) :
    Manner ⟨mkdev 255 0, 1⟩ (numbersConduct PortIo.Serial.driver outcomes)
    (if outcomes.register.isNone && outcomes.cdevAdd.isSome then [⟨mkdev 255 0, 1⟩] else []) := by
  obtain ⟨register, added, check, region, irq⟩ := outcomes
  cases register with
  | some errno =>
    have begun : PortIo.Serial.charDeviceInit ⟨some errno, added, check, region, irq⟩ = ⟨(-1, ()), []⟩ := by
      ext1 <;> simp [PortIo.Serial.charDeviceInit]
    simp only [numbersConduct, PortIo.Serial.driver, begun]
    exact .refused (by decide)
  | none =>
    cases added with
    | some errno =>
      have begun : PortIo.Serial.charDeviceInit ⟨none, some errno, check, region, irq⟩ =
          ⟨(-1, ()), [.acquired (.numbers PortIo.Serial.mydev 1)]⟩ := by
        ext1 <;> simp [PortIo.Serial.charDeviceInit]
      simp only [numbersConduct, PortIo.Serial.driver, begun]
      exact .stranded (by decide)
    | none =>
      have result : (PortIo.Serial.charDeviceInit ⟨none, none, check, region, irq⟩).value = (0, ()) := by
        simp [PortIo.Serial.charDeviceInit]
      have events : (PortIo.Serial.charDeviceInit ⟨none, none, check, region, irq⟩).events.filterMap onNumbers =
          [.acquired ⟨mkdev 255 0, 1⟩] := by
        cases region <;> cases irq <;> simp [PortIo.Serial.charDeviceInit, PortIo.Serial.mydev]
      simp only [numbersConduct, PortIo.Serial.driver, result, events]
      exact .proper (by decide)

private theorem createDeviceFile_numbers (first : Nat) (outcomes : DeviceFiles.Outcomes) :
    (DeviceFiles.createDeviceFile first outcomes).value.1 < 0 ∧
        (DeviceFiles.createDeviceFile first outcomes).events.filterMap onNumbers = [.released ⟨first, 1⟩] ∨
      (DeviceFiles.createDeviceFile first outcomes).value.1 = 0 ∧
        (DeviceFiles.createDeviceFile first outcomes).value.2.first = first ∧
        (DeviceFiles.createDeviceFile first outcomes).events.filterMap onNumbers = [] := by
  obtain ⟨ioremap, alloc, cl, device, added⟩ := outcomes
  by_cases noticed : ∃ errno ∈ added, errno.number = 1
  · obtain ⟨errno, same, one⟩ := noticed
    cases same
    refine .inl ⟨?_, ?_⟩
    · cases cl <;> cases device <;> simp [DeviceFiles.createDeviceFile, deviceCreate, one]
    · cases cl <;> cases device <;> simp [DeviceFiles.createDeviceFile, deviceCreate, deviceDestroy, one] <;> rfl
  · have unnoticed (errno : Errno) (same : added = some errno) : errno.number ≠ 1 :=
      fun one => noticed ⟨errno, same, one⟩
    refine .inr ⟨?_, ?_, ?_⟩
    · cases cl <;> cases device <;> cases added <;> simp [DeviceFiles.createDeviceFile, deviceCreate, unnoticed]
    · cases cl <;> cases device <;> cases added <;> simp [DeviceFiles.createDeviceFile, deviceCreate, unnoticed]
    · cases cl <;> cases device <;> cases added <;> simp [DeviceFiles.createDeviceFile, deviceCreate, unnoticed]

private theorem removeDeviceFile_numbers (globals : DeviceFiles.Globals) :
    (DeviceFiles.removeDeviceFile globals).events.filterMap onNumbers = [.released ⟨globals.first, 1⟩] := by
  obtain ⟨first, cl, device⟩ := globals
  cases cl <;> cases device <;> rfl

private theorem created_manner {component : Component DeviceFiles.Outcomes DeviceFiles.Globals Resource}
    {outcomes : DeviceFiles.Outcomes} {first : Nat} {front : List (Event Resource)}
    (begun : component.init outcomes = ⟨(DeviceFiles.createDeviceFile first outcomes).value,
      front ++ .acquired (.numbers first 1) :: (DeviceFiles.createDeviceFile first outcomes).events⟩)
    (silent : front.filterMap onNumbers = [])
    (exit : ∀ globals, (component.exit globals).events.filterMap onNumbers = [.released ⟨globals.first, 1⟩]) :
    Manner ⟨first, 1⟩ (numbersConduct component outcomes) [] := by
  have events : (front ++ .acquired (.numbers first 1) ::
      (DeviceFiles.createDeviceFile first outcomes).events).filterMap onNumbers =
      .acquired ⟨first, 1⟩ :: (DeviceFiles.createDeviceFile first outcomes).events.filterMap onNumbers := by
    simp [silent]
  simp only [numbersConduct, begun, events, exit]
  rcases createDeviceFile_numbers first outcomes with ⟨negative, undone⟩ | ⟨zero, kept, none⟩
  · rw [undone]
    exact .undone negative
  · rw [none, kept]
    exact .proper (by simp [zero])

private theorem devfile_manner (outcomes : DeviceFiles.Outcomes) :
    Manner ⟨allocated outcomes, 1⟩ (numbersConduct DeviceFiles.Devfile.driver outcomes) [] := by
  cases found : outcomes.alloc with
  | error errno =>
    have begun : DeviceFiles.Devfile.devfileInit outcomes = ⟨(-1, DeviceFiles.unset), []⟩ := by
      ext1 <;> simp [DeviceFiles.Devfile.devfileInit, found]
    simp only [numbersConduct, DeviceFiles.Devfile.driver, begun]
    exact .refused (by decide)
  | ok first =>
    have same : allocated outcomes = first := by simp [allocated, found, Except.toOption]
    rw [same]
    refine @created_manner DeviceFiles.Devfile.driver outcomes first [] ?_ rfl removeDeviceFile_numbers
    ext1 <;> simp [DeviceFiles.Devfile.driver, DeviceFiles.Devfile.devfileInit, found]

private theorem vram_manner (outcomes : DeviceFiles.Outcomes) :
    Manner ⟨allocated outcomes, 1⟩ (numbersConduct DeviceFiles.Vram.driver outcomes) [] := by
  cases mapped : outcomes.ioremap with
  | false =>
    have begun : DeviceFiles.Vram.vramInit outcomes = ⟨(-1, DeviceFiles.unset), []⟩ := by
      ext1 <;> simp [DeviceFiles.Vram.vramInit, mapped]
    simp only [numbersConduct, DeviceFiles.Vram.driver, begun]
    exact .refused (by decide)
  | true =>
    cases found : outcomes.alloc with
    | error errno =>
      have begun : DeviceFiles.Vram.vramInit outcomes =
          ⟨(-1, DeviceFiles.unset), [.acquired (.mapping DeviceFiles.Vram.vramBase VideoRam.vramSize)]⟩ := by
        ext1 <;> simp [DeviceFiles.Vram.vramInit, mapped, found]
      simp only [numbersConduct, DeviceFiles.Vram.driver, begun]
      exact .refused (by decide)
    | ok first =>
      have same : allocated outcomes = first := by simp [allocated, found, Except.toOption]
      have exit (globals : DeviceFiles.Globals) :
          (DeviceFiles.Vram.vramExit globals).events.filterMap onNumbers = [.released ⟨globals.first, 1⟩] := by
        have removed := removeDeviceFile_numbers globals
        simp only [DeviceFiles.Vram.vramExit, bind_events, List.filterMap_append, removed]
        rfl
      rw [same]
      refine @created_manner DeviceFiles.Vram.driver outcomes first
        [.acquired (.mapping DeviceFiles.Vram.vramBase VideoRam.vramSize)] ?_ rfl exit
      ext1 <;> simp [DeviceFiles.Vram.driver, DeviceFiles.Vram.vramInit, mapped, found]

private theorem memory_manner (outcomes : Outcomes) :
    Manner (.ofMajor 61) (numbersConduct Memory.driver outcomes) [] := by
  cases registered : outcomes.register with
  | some errno =>
    have begun : Memory.memoryInit outcomes = ⟨(Errno.code (some errno), ()), []⟩ := by
      ext1 <;> simp [Memory.memoryInit, registered]
    simp only [numbersConduct, Memory.driver, begun]
    exact .refused (Errno.code_some errno)
  | none =>
    cases room : outcomes.kmalloc with
    | true =>
      have begun : Memory.memoryInit outcomes = ⟨(0, ()), [.acquired (.chrdev 61)]⟩ := by
        ext1 <;> simp [Memory.memoryInit, registered, room, Memory.memoryMajor]
      simp only [numbersConduct, Memory.driver, begun]
      exact .proper (by decide)
    | false =>
      have begun : Memory.memoryInit outcomes = ⟨(-12, ()), [.acquired (.chrdev 61), .released (.chrdev 61)]⟩ := by
        ext1 <;> simp [Memory.memoryInit, Memory.memoryExit, registered, room, Memory.memoryMajor]
      simp only [numbersConduct, Memory.driver, begun]
      exact .undone (by decide)

private theorem slpy_manner (outcomes : Outcomes) : Manner (.ofMajor 60) (numbersConduct Slpy.driver outcomes) [] := by
  cases registered : outcomes.register with
  | some errno =>
    have begun : Slpy.slpyInit outcomes = ⟨(-1, ()), []⟩ := by
      ext1 <;> simp [Slpy.slpyInit, registered]
    simp only [numbersConduct, Slpy.driver, begun]
    exact .refused (by decide)
  | none =>
    have begun : Slpy.slpyInit outcomes = ⟨(0, ()), [.acquired (.chrdev 60)]⟩ := by
      ext1 <;> simp [Slpy.slpyInit, registered]
    simp only [numbersConduct, Slpy.driver, begun]
    exact .proper (by decide)

private theorem parlelport_manner {component : Component PortIo.Outcomes Int Resource} {outcomes : PortIo.Outcomes}
    (refused : ∀ errno, outcomes.register = some errno → (component.init outcomes) = ⟨(Errno.code (some errno), 0), []⟩)
    (checked : outcomes.register = none →
      (component.init outcomes).value = (Errno.code outcomes.check, Errno.code outcomes.check))
    (events : outcomes.register = none → (component.init outcomes).events.filterMap onNumbers =
      if outcomes.check = none then [.acquired (.ofMajor 61)] else [.acquired (.ofMajor 61), .released (.ofMajor 61)])
    (exit : ∀ port, (component.exit port).events.filterMap onNumbers = [.released (.ofMajor 61)]) :
    Manner (.ofMajor 61) (numbersConduct component outcomes) [] := by
  cases registered : outcomes.register with
  | some errno =>
    simp only [numbersConduct, refused errno registered]
    exact .refused (Errno.code_some errno)
  | none =>
    simp only [numbersConduct, checked registered, events registered, exit]
    cases outcomes.check with
    | none => exact .proper (by decide)
    | some errno => exact .undone (Errno.code_some errno)

private theorem interrupt3_manner (outcomes : PortIo.Outcomes) :
    Manner (.ofMajor 61) (numbersConduct PortIo.Interrupt3.driver outcomes) [] := by
  have exit (port : Int) : (PortIo.Interrupt3.parlelportExit port).events.filterMap onNumbers = [.released (.ofMajor 61)] := by
    by_cases zero : port = 0 <;> simp [PortIo.Interrupt3.parlelportExit, PortIo.parlelportMajor, zero]
  obtain ⟨register, added, check, region, irq⟩ := outcomes
  apply parlelport_manner _ _ _ exit
  · rintro errno ⟨⟩
    ext1 <;> simp [PortIo.Interrupt3.driver, PortIo.Interrupt3.parlelportInit]
  · rintro ⟨⟩
    cases check <;> simp [PortIo.Interrupt3.driver, PortIo.Interrupt3.parlelportInit]
  · rintro ⟨⟩
    cases check <;> cases region <;> cases irq <;>
      simp [PortIo.Interrupt3.driver, PortIo.Interrupt3.parlelportInit, PortIo.parlelportMajor, exit]

private theorem parport_manner (outcomes : PortIo.Outcomes) :
    Manner (.ofMajor 61) (numbersConduct PortIo.Parport.driver outcomes) [] := by
  have exit (port : Int) : (PortIo.Parport.parlelportExit port).events.filterMap onNumbers = [.released (.ofMajor 61)] := by
    by_cases zero : port = 0 <;> simp [PortIo.Parport.parlelportExit, PortIo.parlelportMajor, zero]
  obtain ⟨register, added, check, region, irq⟩ := outcomes
  apply parlelport_manner _ _ _ exit
  · rintro errno ⟨⟩
    ext1 <;> simp [PortIo.Parport.driver, PortIo.Parport.parlelportInit]
  · rintro ⟨⟩
    cases check <;> simp [PortIo.Parport.driver, PortIo.Parport.parlelportInit]
  · rintro ⟨⟩
    cases check <;> cases region <;>
      simp [PortIo.Parport.driver, PortIo.Parport.parlelportInit, PortIo.parlelportMajor, exit]

section AnyMajor
variable (outcomes : Outcomes)

private theorem found_span {major : Major} (found : outcomes.major = .ok major) :
    (Resource.chrdev major.number).span = some (.ofMajor outcomes.found) := by
  simp [Outcomes.found, found, Except.toOption, Nat.ne_of_gt major.positive]

private theorem registered_major {major : Major} : ¬ (major.number : Int) < 0 := by omega

private theorem slpyProc_manner : Manner (.ofMajor outcomes.found) (numbersConduct SlpyProc.driver outcomes) [] := by
  cases found : outcomes.major with
  | error errno =>
    have begun : SlpyProc.slpyInitModule outcomes = ⟨(Errno.code (some errno), 0), []⟩ := by
      ext1 <;> simp [SlpyProc.slpyInitModule, found]
    simp only [numbersConduct, SlpyProc.driver, begun]
    exact .refused (Errno.code_some errno)
  | ok major =>
    have span := found_span outcomes found
    cases entry : outcomes.procCreate with
    | true =>
      have begun : SlpyProc.slpyInitModule outcomes = ⟨(0, major.number), [.acquired (.chrdev major.number)]⟩ := by
        ext1 <;> simp [SlpyProc.slpyInitModule, found, entry, registered_major]
      have ended : (SlpyProc.slpyCleanupModule major.number).events = [.released (.chrdev major.number)] := rfl
      simp only [numbersConduct, SlpyProc.driver, begun, ended, List.filterMap_cons, List.filterMap_nil, onNumbers, span,
        Option.map_some]
      exact .proper (by decide)
    | false =>
      have begun : SlpyProc.slpyInitModule outcomes =
          ⟨(-12, major.number), [.acquired (.chrdev major.number), .released (.chrdev major.number)]⟩ := by
        ext1 <;> simp [SlpyProc.slpyInitModule, found, entry, registered_major]
      simp only [numbersConduct, SlpyProc.driver, begun, List.filterMap_cons, List.filterMap_nil, onNumbers, span,
        Option.map_some]
      exact .undone (by decide)

private theorem slpyWq_manner : Manner (.ofMajor outcomes.found) (numbersConduct SlpyWq.driver outcomes) [] := by
  cases found : outcomes.major with
  | error errno =>
    have begun : SlpyWq.slpyInitModule outcomes = ⟨(Errno.code (some errno), 0), []⟩ := by
      ext1 <;> simp [SlpyWq.slpyInitModule, found]
    simp only [numbersConduct, SlpyWq.driver, begun]
    exact .refused (Errno.code_some errno)
  | ok major =>
    have span := found_span outcomes found
    have begun : SlpyWq.slpyInitModule outcomes = ⟨(0, major.number), [.acquired (.chrdev major.number)]⟩ := by
      ext1 <;> simp [SlpyWq.slpyInitModule, found, registered_major]
    have ended : (SlpyWq.slpyCleanupModule major.number).events = [.released (.chrdev major.number)] := rfl
    simp only [numbersConduct, SlpyWq.driver, begun, ended, List.filterMap_cons, List.filterMap_nil, onNumbers, span,
      Option.map_some]
    exact .proper (by decide)

private theorem cddTemp_manner : Manner (.ofMajor outcomes.found) (numbersConduct CddTemp.driver outcomes)
    (if outcomes.major.isOk then [.ofMajor outcomes.found] else []) := by
  cases found : outcomes.major with
  | error errno =>
    have begun : CddTemp.charInit outcomes = ⟨(-1, ()), []⟩ := by
      ext1 <;> simp [CddTemp.charInit, found]
    simp only [numbersConduct, CddTemp.driver, begun]
    exact .refused (by decide)
  | ok major =>
    have span := found_span outcomes found
    have begun : CddTemp.charInit outcomes = ⟨(0, ()), [.acquired (.chrdev major.number)]⟩ := by
      ext1 <;> simp [CddTemp.charInit, found, registered_major]
    simp only [numbersConduct, CddTemp.driver, begun, List.filterMap_cons, List.filterMap_nil, onNumbers, span,
      Option.map_some]
    exact .forgotten (by decide)

end AnyMajor

private theorem Load.manner (load : Load) : Manner load.numbers load.conduct load.leaves := by
  cases load with
  | registerChrdev outcomes | clock outcomes => exact chosen_manner outcomes (mkdev 255 0)
  | serial outcomes => exact serial_manner outcomes
  | dynamicCdd outcomes | ioctl outcomes => exact allocated_manner outcomes 1
  | calculator outcomes => exact allocated_manner outcomes 4
  | devfile outcomes => exact devfile_manner outcomes
  | vram outcomes => exact vram_manner outcomes
  | memory outcomes => exact memory_manner outcomes
  | interrupt3 outcomes => exact interrupt3_manner outcomes
  | parport outcomes => exact parport_manner outcomes
  | slpy outcomes => exact slpy_manner outcomes
  | slpyProc outcomes => exact slpyProc_manner outcomes
  | slpyWq outcomes => exact slpyWq_manner outcomes
  | cddTemp outcomes => exact cddTemp_manner outcomes

theorem honest (load : Load) : modules.Honest (fun load => [load.numbers]) Load.leaves load := by
  have manner : Manner load.numbers (modules.conduct load) load.leaves := load.manner
  refine ⟨?_, ?_, ?_⟩
  all_goals
    generalize modules.conduct load = conduct at manner ⊢
    generalize load.leaves = leaves at manner ⊢
    cases manner <;> simp_all [holds]

private theorem flatMap_leaves (loads : List Load) :
    loads.flatMap Load.leaves = (loads.filter Load.stranded).map Load.numbers := by
  induction loads with
  | nil => rfl
  | cons load rest ih =>
    rw [List.flatMap_cons, ih, Load.leaves, List.filter_cons]
    split <;> rfl

/-- Whatever is loaded and unloaded, in any order and with any outcomes, the numbers taken
are those of the modules that are loaded, of the drivers whose devices could not be added,
and of the one that forgets its number, one for each. No two of them overlap, so what one
failed load has left behind no driver ever gets again. -/
theorem numbers_apart (others : List Span) (free : others.Pairwise Span.Apart) (actions : List (Action Load Module))
    (s : System) (run : Run modules.step (modules.Obliged Span.Apart) ⟨others, [], []⟩ actions s) :
    s.table.Perm (s.loaded.map Load.numbers ++ (s.finished.filter Load.stranded).map Load.numbers ++ others) ∧
      s.table.Pairwise Span.Apart ∧
      ∀ load ∈ s.loaded, ∀ failed ∈ s.finished, failed.stranded = true → load.numbers.Apart failed.numbers := by
  have table := (accounted_run honest run).table
  rw [← List.map_eq_flatMap, flatMap_leaves] at table
  have apart := apart_run run free
  refine ⟨table, apart, fun load member failed finished stranded => ?_⟩
  have all := (table.pairwise_iff Span.Apart.symm).mp apart
  rw [List.append_assoc, List.pairwise_append] at all
  have left : failed.numbers ∈ (s.finished.filter Load.stranded).map Load.numbers :=
    List.mem_map_of_mem (List.mem_filter.mpr ⟨finished, stranded⟩)
  exact all.2.2 _ (List.mem_map_of_mem member) _ (List.mem_append_left _ left)

/-- The clock cannot add its device. Memory and another driver are loaded, and that is as
near as the other driver of 255:0 ever gets. -/
theorem numbers_apart_clock : ∃ (actions : List (Action Load Module)) (s : System),
    Run modules.step (modules.Obliged Span.Apart) ⟨[.ofMajor 10], [], []⟩ actions s ∧ s.loaded.length = 2 ∧
      ∀ load ∈ s.loaded, load.numbers.Apart ⟨mkdev 255 0, 1⟩ := by
  have reached : ∃ s : System, Run modules.step (modules.Obliged Span.Apart) ⟨[.ofMajor 10], [], []⟩
      [.load (.clock { cdevAdd := some ⟨12, by decide, by decide⟩ }),
        .load (.registerChrdev { register := some ⟨16, by decide, by decide⟩ }), .load (.memory {}), .load (.cddTemp {}), .unload .cddTemp, .load (.calculator { alloc := .ok (mkdev 253 0) })] s ∧
      s.loaded.length = 2 ∧ ∃ failed ∈ s.finished, failed.stranded = true ∧ failed.numbers = ⟨mkdev 255 0, 1⟩ :=
    reaches_of_execute (by decide +kernel)
  obtain ⟨s, run, two, failed, finished, stranded, same⟩ := reached
  refine ⟨_, s, run, two, fun load member => ?_⟩
  rw [← same]
  exact (numbers_apart [.ofMajor 10] (by simp) _ s run).2.2 load member failed finished stranded

end DeviceDrivers.CharDevices
