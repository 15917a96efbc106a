import AetherHF.Daemon.Carried

/-! What a profile's values that are not taken come to: nothing but a word of each. -/
namespace AetherHF.Settings

open Daemon (Inventory)

variable [Library]

/-- What applying a profile produces, the lists of what was set aside apart. -/
def Applied.taken (out : Applied) : Config × List Text × Option (List Daemon.Memory) × List Daemon.MissingHardware :=
  (out.config, out.changed, out.memories, out.missingHardware)

end AetherHF.Settings
