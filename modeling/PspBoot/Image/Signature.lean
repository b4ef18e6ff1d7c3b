import PspBoot.Bytes

/-!
# Signatures

Files are told apart by fixed bytes at fixed places.  A `Signature` is what the first four bytes
of a file announce; the other constants are looked for where those leave a question open.
-/

namespace PspBoot

/-- What the first four bytes of a file announce. -/
inductive Signature where
  | zip
  | rar
  | container
  | executable
deriving Repr, Inhabited, DecidableEq

namespace Signature

/-- The signature among the first bytes of a file, if they begin with a known one.  A ZIP archive
can begin with a file, with its directory or with the mark of a split archive. -/
def ofHead? : Bytes → Option Signature
  | 0x50 :: 0x4B :: 3 :: 4 :: _ => some .zip
  | 0x50 :: 0x4B :: 5 :: 6 :: _ => some .zip
  | 0x50 :: 0x4B :: 7 :: 8 :: _ => some .zip
  | 0x52 :: 0x61 :: 0x72 :: 0x21 :: _ => some .rar
  | 0x00 :: 0x50 :: 0x42 :: 0x50 :: _ => some .container
  | 0x7F :: 0x45 :: 0x4C :: 0x46 :: _ => some .executable
  | _ => none

/-- The bytes that open every raw sector of a CD. -/
def sectorSync : Bytes :=
  [0x00, 0xFF, 0xFF, 0xFF, 0xFF, 0xFF, 0xFF, 0xFF, 0xFF, 0xFF, 0xFF, 0x00]

/-- The length of a raw sector of a CD. -/
def sectorSize : Nat := 2352

/-- The first bytes of a graphics trace, `PPSSPPGE`. -/
def traceHead : Bytes := [0x50, 0x50, 0x53, 0x53, 0x50, 0x50, 0x47, 0x45]

/-- The first bytes of a container, a NUL and `PBP`. -/
def containerHead : Bytes := [0x00, 0x50, 0x42, 0x50]

/-- The first bytes of a parameter file, a NUL and `PSF`. -/
def parametersHead : Bytes := [0x00, 0x50, 0x53, 0x46]

/-- The first bytes of the data archive of a disc from the online store, `NPUM`. -/
def storeArchiveHead : Bytes := [0x4E, 0x50, 0x55, 0x4D]

/-- The first bytes of the data archive of a game of the preceding generation, `PSIS`. -/
def ps1ArchiveHead : Bytes := [0x50, 0x53, 0x49, 0x53]

/-- What announces a container. -/
theorem ofHead?_eq_container {head : Bytes} :
    ofHead? head = some .container ↔ containerHead <+: head := by
  constructor
  · intro h
    unfold ofHead? at h
    split at h
    all_goals first
      | exact List.prefix_append _ _
      | cases h
  · rintro ⟨rest, rfl⟩
    rfl

end Signature

end PspBoot
