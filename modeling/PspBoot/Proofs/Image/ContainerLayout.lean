import PspBoot.Image.Container.Layout
import PspBoot.Proofs.Windows

/-!
# Where the parts of a container stand

The parts of a container that has been written lie back to back behind its header.
`Container.startOf` is where each of them begins, with the end of the last one as a ninth place.  The
header holds these places in its words (`hasAt_offset`), and the parts stand at them (`hasAt_part`).
-/

namespace PspBoot

namespace Bytes

variable {data part : Bytes} {offset n : Nat} {before after : List Nat}

theorem length_words (ns : List Nat) : (ns.flatMap (ofNatLE 4)).length = 4 * ns.length := by
  induction ns with
  | nil => rfl
  | cons n ns ih =>
    rw [List.flatMap_cons, List.length_append, length_ofNatLE, ih, List.length_cons]
    omega

namespace HasAt

/-- What stands somewhere is still there if something is added at the end. -/
theorem extend (h : data.HasAt offset part) (rest : Bytes) : (data ++ rest).HasAt offset part := by
  obtain ⟨front, back, rfl, rfl⟩ := h
  exact ⟨front, back ++ rest, by simp, rfl⟩

/-- The words of a table stand one behind the other. -/
theorem word (h : data.HasAt offset ((before ++ n :: after).flatMap (ofNatLE 4))) :
    data.HasAt (offset + 4 * before.length) (ofNatLE 4 n) := by
  rw [List.flatMap_append, List.flatMap_cons] at h
  rw [← length_words]
  exact h.right.left

end HasAt

end Bytes

namespace Container

open Bytes (HasAt)

/-- The offset at which the part of a number begins, and behind the last part the end of the file. -/
def startOf (parts : Vector Bytes 8) (i : Nat) : Nat :=
  ContainerHeader.size + (parts.toList.take i).flatten.length

theorem lt_length (parts : Vector Bytes 8) (i : Fin 8) : i < parts.toList.length := by
  rw [Vector.length_toList]
  exact i.isLt

theorem toList_eq_append (parts : Vector Bytes 8) (i : Fin 8) :
    parts.toList = parts.toList.take i ++ parts.get i :: parts.toList.drop (i + 1) :=
  calc parts.toList
    _ = parts.toList.take i ++ parts.toList.drop i := (List.take_append_drop _ _).symm
    _ = parts.toList.take i ++ parts.get i :: parts.toList.drop (i + 1) :=
      congrArg _ (List.drop_eq_getElem_cons (lt_length parts i))

theorem length_take (parts : Vector Bytes 8) (i : Fin 8) : (parts.toList.take i).length = i := by
  rw [List.length_take, Vector.length_toList]
  omega

/-- A part begins where the part before it ends. -/
theorem startOf_succ (parts : Vector Bytes 8) (i : Fin 8) :
    startOf parts (i + 1) = startOf parts i + (parts.get i).length := by
  have htake : parts.toList.take (i + 1) = parts.toList.take i ++ [parts.get i] :=
    List.take_succ_eq_append_getElem (lt_length parts i)
  rw [startOf, htake, List.flatten_append, List.length_append, List.flatten_singleton, startOf,
    Nat.add_assoc]

theorem startOf_mono (parts : Vector Bytes 8) {i j : Nat} (h : i ≤ j) :
    startOf parts i ≤ startOf parts j := by
  obtain ⟨rest, hrest⟩ := List.take_prefix_take_left (l := parts.toList) h
  rw [startOf, startOf, ← hrest, List.flatten_append, List.length_append]
  omega

/-- The last part ends where the file ends. -/
theorem startOf_eight (version : UInt32) (parts : Vector Bytes 8) :
    startOf parts 8 = (layOut version parts).length := by
  have hall : parts.toList.take 8 = parts.toList :=
    List.take_of_length_le (Nat.le_of_eq Vector.length_toList)
  rw [startOf, hall, layOut, List.length_append, length_header]

theorem startsFrom_append (offset : Nat) (before after : List Bytes) :
    startsFrom offset (before ++ after) =
      startsFrom offset before ++ startsFrom (offset + before.flatten.length) after := by
  induction before generalizing offset with
  | nil => rfl
  | cons part before ih =>
    rw [List.cons_append, startsFrom, startsFrom, ih, List.flatten_cons, List.length_append,
      Nat.add_assoc, List.cons_append]

/-- The version stands behind the signature. -/
theorem hasAt_version (version : UInt32) (parts : Vector Bytes 8) :
    (header version parts).HasAt 4 (Bytes.ofNatLE 4 version.toNat) :=
  ⟨Signature.containerHead, _, List.append_assoc _ _ _, rfl⟩

/-- **The header says where each part begins.** -/
theorem hasAt_offset (version : UInt32) (parts : Vector Bytes 8) (i : Fin 8) :
    (header version parts).HasAt (8 + 4 * i) (Bytes.ofNatLE 4 (startOf parts i)) := by
  have htable : (header version parts).HasAt 8
      ((startsFrom ContainerHeader.size parts.toList).flatMap (Bytes.ofNatLE 4)) :=
    ⟨Signature.containerHead ++ Bytes.ofNatLE 4 version.toNat, [], by simp [header],
      by simp [Signature.containerHead]⟩
  rw [toList_eq_append parts i, startsFrom_append, startsFrom] at htable
  have hword := htable.word
  rw [length_startsFrom, length_take] at hword
  exact hword

/-- **A part stands where the header says.** -/
theorem hasAt_part (version : UInt32) (parts : Vector Bytes 8) (i : Fin 8) :
    (layOut version parts).HasAt (startOf parts i) (parts.get i) := by
  have hparts : (layOut version parts).HasAt ContainerHeader.size parts.toList.flatten :=
    ⟨header version parts, [], by rw [layOut, List.append_nil], length_header version parts⟩
  rw [toList_eq_append parts i, List.flatten_append, List.flatten_cons] at hparts
  exact hparts.right.left

end Container

end PspBoot
