import DeviceDrivers.Library.Runs

/-! Events that ask for something to be done, and later ones that do it. -/

namespace DeviceDrivers.Requests
open Runs

universe u v

variable {σ : Type u} {α : Type v} {asks answers : α → Prop} {events : List α} {event : α}

/-- Whatever is asked for is done later on. -/
def Answered (asks answers : α → Prop) (events : List α) : Prop :=
  ∀ earlier event later, events = earlier ++ event :: later → asks event → ∃ reply ∈ later, answers reply

end DeviceDrivers.Requests
