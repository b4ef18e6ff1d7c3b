import PspBoot.Image.Survey

/-!
# From a game directory to its container

A game that is installed on a memory stick is a directory with an executable container in it.
Where the directory was opened, the container is what has to be loaded.
-/

namespace PspBoot

namespace Opener

variable {η : Type}

/-- Replaces the layer of a game directory by one on its container.  Any other layer is returned
as it is.  The old layer is closed before the new one is opened. -/
def enterGameDirectory (opener : Opener η) (layer : Layer η) :
    StateM (World η) (Layer η) := do
  let (result, layer) ← layer.identify
  match result with
  | .ok .installedGame =>
      let target := layer.locator.gameFile
      if target = layer.locator then
        pure layer
      else
        layer.close
        opener.openLayer target
  | _ => pure layer

end Opener

end PspBoot
