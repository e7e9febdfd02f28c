import Mathlib.Algebra.Ring.Nat
import Mathlib.Data.List.TakeWhile

/-! Records in blocks.

A record is written as a header of one block, which says how long the content is, and the
content, filled up to whole blocks. A reader takes one record after the other, up to the
end of the input or a block that is blank. `Codec` is a way to write and read headers. -/
namespace CrashReporter
namespace Blocks

/-- Headers of `size` elements that say what a record is, as an `ι`, and how long. -/
structure Codec (β ι : Type) (size : Nat) (blank : β) where
  write : ι → Nat → List β
  read : List β → Option (ι × Nat)
  /-- What can be said in one header. -/
  Fits : ι → Nat → Prop
  length_write : ∀ i n, Fits i n → (write i n).length = size
  write_ne_blank : ∀ i n, Fits i n → write i n ≠ List.replicate size blank
  read_write : ∀ i n, Fits i n → read (write i n) = some (i, n)

/-- How much is missing to whole blocks. -/
def missing (size n : Nat) : Nat := (size - n % size) % size

section Codec
variable {β ι : Type} [DecidableEq β] {size : Nat} {blank : β} (C : Codec β ι size blank)

/-- The records up to the end of the input or a blank block; nothing when a header cannot
be read, or the input ends within a content. -/
def unpack [hsize : NeZero size] (input : List β) : Option (List (ι × List β)) :=
  if input = [] ∨ input.take size = List.replicate size blank then some []
  else match C.read (input.take size) with
    | none => none
    | some (i, n) =>
      if (input.drop size).length < n then none
      else (unpack ((input.drop size).drop (n + missing size n))).map ((i, (input.drop size).take n) :: ·)
termination_by input.length
decreasing_by
  have hpos := Nat.pos_of_ne_zero hsize.out
  have hne : input ≠ [] := fun hnil => absurd (Or.inl hnil) (by assumption)
  have hlen := List.length_pos_iff.mpr hne
  simp only [List.length_drop]
  omega

variable [NeZero size]

theorem unpack_nil : unpack C [] = some [] := by rw [unpack, if_pos (.inl rfl)]

/-- A blank block is the end. -/
theorem unpack_blank (rest : List β) : unpack C (List.replicate size blank ++ rest) = some [] := by
  rw [unpack, if_pos (.inr (List.take_left' (List.length_replicate ..)))]

/-- A record that is filled up is read, and then what is behind it. -/
theorem unpack_record {i : ι} {content : List β} (h : C.Fits i content.length) (rest : List β) :
    unpack C (C.write i content.length ++ (content ++
      (List.replicate (missing size content.length) blank ++ rest))) =
        (unpack C rest).map ((i, content) :: ·) := by
  have hlen := C.length_write i _ h
  have htake (tail : List β) : (C.write i content.length ++ tail).take size = C.write i content.length :=
    List.take_left' hlen
  have hdrop (tail : List β) : (C.write i content.length ++ tail).drop size = tail := List.drop_left' hlen
  have hne : C.write i content.length ≠ [] := by
    intro hnil
    rw [hnil] at hlen
    exact NeZero.ne size hlen.symm
  rw [unpack, if_neg (by simp [htake, C.write_ne_blank i _ h, hne]), htake, hdrop, C.read_write i _ h]
  dsimp only
  rw [if_neg (by simp), List.take_left' rfl, ← List.append_assoc, List.drop_left' (by simp)]

end Codec

end Blocks

end CrashReporter
