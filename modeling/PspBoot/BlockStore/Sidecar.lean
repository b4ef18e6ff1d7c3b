import PspBoot.Json.Value
import PspBoot.Storage.FileError
import PspBoot.Text.Utf8

/-!
# Sidecar files

Beside the data file of a cache entry stands a small JSON file that tells which blocks of the data
file are filled, and for which source: an object with the members `block_size`, `blocks`,
`locator` and `size`, in this order.  It counts only for a source with the same path and the same
size and for the same block size; otherwise the entry starts over.
-/

namespace PspBoot.BlockStore

/-- The bytes of a block on disk. -/
def blockSize : Nat := 65536

/-- A set of block numbers, as a strictly ascending list. -/
abbrev BlockSet := List Nat

namespace BlockSet

/-- The set with one more number. -/
def insert (n : Nat) : BlockSet → BlockSet
  | [] => [n]
  | m :: set => if n < m then n :: m :: set else if n = m then m :: set else m :: insert n set

/-- The set without a number. -/
def erase (n : Nat) (set : BlockSet) : BlockSet :=
  set.filter (· ≠ n)

/-- The set of the numbers in a list. -/
def ofList (numbers : List Nat) : BlockSet :=
  numbers.foldr insert []

theorem mem_insert {n m : Nat} {set : BlockSet} : m ∈ insert n set ↔ m = n ∨ m ∈ set := by
  induction set with
  | nil => simp [insert]
  | cons k set ih =>
    rw [insert]
    split
    · simp
    · split
      · next h => simp [h]
      · simp only [List.mem_cons, ih]
        exact or_left_comm

theorem mem_ofList {m : Nat} {numbers : List Nat} : m ∈ ofList numbers ↔ m ∈ numbers := by
  induction numbers with
  | nil => simp [ofList]
  | cons n numbers ih =>
    rw [ofList, List.foldr_cons, mem_insert, List.mem_cons]
    exact or_congr_right ih

end BlockSet

namespace Sidecar

/-- The sidecar of an entry for a source with the given path and size. -/
def toJson (path : String) (size : Nat) (blocks : BlockSet) : Json.Value :=
  .object
    [ ("block_size".toList, .number (.natural blockSize)),
      ("blocks".toList, .array (blocks.map fun n => .number (.natural n))),
      ("locator".toList, .string path.toList),
      ("size".toList, .number (.natural size)) ]

/-- The bytes of a sidecar file. -/
def encode (path : String) (size : Nat) (blocks : BlockSet) : Bytes :=
  Utf8.encode (toJson path size blocks).render

/-- The number of the last block of a source. -/
def lastBlock (size : Nat) : Nat :=
  (size - 1) / blockSize

/-- The blocks that a sidecar lists, if it is one for the given path and size.  Items that are no
block numbers of the source are passed over. -/
def ofJson? (path : String) (size : Nat) (json : Json.Value) : Option BlockSet :=
  if (json.member "locator").text? = some path.toList ∧
      (json.member "size").natural? = some size ∧
      (json.member "block_size").natural? = some blockSize then
    (json.member "blocks").items?.map fun items =>
      BlockSet.ofList ((items.filterMap Json.Value.natural?).filter (· ≤ lastBlock size))
  else
    none

/-- The blocks listed by the bytes of a sidecar file, if they are a sidecar for the given path and
size. -/
def decode? (path : String) (size : Nat) (data : Bytes) : Option BlockSet := do
  let text ← Utf8.decode? data
  let json ← Json.Value.parse? text
  ofJson? path size json

/-- The blocks listed for the given path and size by what was read of a sidecar file. -/
def listed (path : String) (size : Nat) : Except FileError Bytes → BlockSet
  | .error _ => []
  | .ok data => (decode? path size data).getD []

end Sidecar

end PspBoot.BlockStore
