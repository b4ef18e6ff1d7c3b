import PspBoot.BlockStore.Storage
import PspBoot.Focus

/-!
# The world of a program

Sources share what lies outside them: the files and block stores of this machine, and whatever the
host program keeps behind the collaborators it supplies.  `World η` holds both, with `η` the state
of the host.
-/

namespace PspBoot

/-- The storage of this machine and the state of the host. -/
structure World (η : Type) where
  storage : Storage := {}
  host : η
deriving Repr, Inhabited

namespace World

variable {η : Type}

/-- The state of the host in the world. -/
def hostFocus : Focus (World η) η where
  get := World.host
  put world host := { world with host }

instance : (hostFocus : Focus (World η) η).Lawful where

/-- The storage in the world. -/
def storageFocus : Focus (World η) Storage where
  get := World.storage
  put world storage := { world with storage }

instance : (storageFocus : Focus (World η) Storage).Lawful where

/-- The files in the world. -/
def filesFocus : Focus (World η) FileTree where
  get world := world.storage.files
  put world files := { world with storage := { world.storage with files } }

instance : (filesFocus : Focus (World η) FileTree).Lawful where

end World

end PspBoot
