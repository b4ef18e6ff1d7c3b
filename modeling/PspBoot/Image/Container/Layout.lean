import PspBoot.Image.Container

/-!
# Writing containers

`Container.layOut` writes a container with given parts: the header, and behind it the parts back
to back.  Each part begins where the parts before it end, so the offsets in the header never
decrease, and an empty part begins where the next one does.
-/

namespace PspBoot.Container

/-- The offsets of parts that lie back to back from an offset on. -/
def startsFrom : (offset : Nat) → List Bytes → List Nat
  | _, [] => []
  | offset, part :: parts => offset :: startsFrom (offset + part.length) parts

/-- The header of a container with the given parts. -/
def header (version : UInt32) (parts : Vector Bytes 8) : Bytes :=
  Signature.containerHead ++ Bytes.ofNatLE 4 version.toNat ++
    (startsFrom ContainerHeader.size parts.toList).flatMap (Bytes.ofNatLE 4)

/-- The bytes of a container with the given parts. -/
def layOut (version : UInt32) (parts : Vector Bytes 8) : Bytes :=
  header version parts ++ parts.toList.flatten

@[simp] theorem length_startsFrom (offset : Nat) (parts : List Bytes) :
    (startsFrom offset parts).length = parts.length := by
  induction parts generalizing offset with
  | nil => rfl
  | cons part parts ih => simp [startsFrom, ih]

@[simp] theorem length_header (version : UInt32) (parts : Vector Bytes 8) :
    (header version parts).length = ContainerHeader.size := by
  have hword : ∀ offsets : List Nat,
      (offsets.flatMap (Bytes.ofNatLE 4)).length = 4 * offsets.length := by
    intro offsets
    induction offsets with
    | nil => rfl
    | cons offset offsets ih => simp [ih]; omega
  simp [header, hword, ContainerHeader.size, Signature.containerHead]

end PspBoot.Container
