import PspBoot.Image.Signature
import PspBoot.Source.Basic

/-!
# Containers

A container begins with a header of 40 bytes: the signature, a version, and the offsets of eight
parts that lie back to back.  A part ends where the next one begins, the last one at the end of
the file.  The offsets may be anything, so each part is checked against the size of the file, and
against a ceiling, before any of it is read.
-/

namespace PspBoot

/-- The parts of a container in the order of the header. -/
inductive ContainerPart where
  /-- The parameter file. -/
  | parameters
  /-- The icon. -/
  | icon
  /-- The animated icon. -/
  | movingIcon
  /-- The overlay image. -/
  | overlay
  /-- The background image. -/
  | background
  /-- The background sound. -/
  | sound
  /-- The executable. -/
  | program
  /-- The data archive. -/
  | archive
deriving Repr, Inhabited, DecidableEq

namespace ContainerPart

/-- The place of a part in the header. -/
def index : ContainerPart → Fin 8
  | .parameters => 0
  | .icon => 1
  | .movingIcon => 2
  | .overlay => 3
  | .background => 4
  | .sound => 5
  | .program => 6
  | .archive => 7

/-- All parts in the order of the header. -/
def all : List ContainerPart :=
  [.parameters, .icon, .movingIcon, .overlay, .background, .sound, .program, .archive]

end ContainerPart

/-- The header of a container. -/
structure ContainerHeader where
  version : UInt32
  offsets : Vector UInt32 8
deriving Repr, DecidableEq

namespace ContainerHeader

/-- The length of the header. -/
def size : Nat := 40

/-- The offset of the header's pointer to the data archive. -/
def archivePointer : Nat := 0x24

/-- The largest part that is read. -/
def maxPartSize : Nat := 1024 * 1024

/-- The word at an offset of the header's bytes. -/
def wordAt (raw : Bytes) (offset : Nat) : UInt32 :=
  UInt32.ofNat (Bytes.leNat (Bytes.slice raw offset 4))

/-- The header that the first bytes of a file make up. -/
def decode? (raw : Bytes) : Option ContainerHeader :=
  if raw.length = size ∧ raw.take 4 = Signature.containerHead then
    some { version := wordAt raw 4, offsets := Vector.ofFn fun i => wordAt raw (8 + 4 * i.val) }
  else
    none

/-- Reads the header of a source. -/
def read? {σ : Type} (source : Source σ) : StateM σ (Option ContainerHeader) := do
  pure ((← source.readExactly 0 size).bind decode?)

/-- Where a part begins and ends in a file of the given size.  A part may not reach into the
header, end before it begins, or end behind the file. -/
def span? (header : ContainerHeader) (part : ContainerPart) (fileSize : Nat) : Option (Nat × Nat) :=
  let start := header.offsets[part.index].toNat
  let stop :=
    match header.offsets[part.index.val + 1]? with
    | some next => next.toNat
    | none => fileSize
  if size ≤ start ∧ start ≤ stop ∧ stop ≤ fileSize then some (start, stop) else none

/-- Reads a part; nothing if its place makes no sense, or if it is empty, too large, or cannot be
read in full. -/
def part? {σ : Type} (header : ContainerHeader) (source : Source σ) (part : ContainerPart) :
    StateM σ (Option Bytes) := do
  match header.span? part (← source.size) with
  | none => pure none
  | some (start, stop) =>
      if stop = start ∨ maxPartSize < stop - start then
        pure none
      else
        source.readExactly start (stop - start)

end ContainerHeader

end PspBoot
