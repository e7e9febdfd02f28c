import Mathlib.Data.List.InsertIdx
import Mathlib.Data.List.Perm.Basic

/-! Lists that tell of their changes.

The owner of a list announces each row that it removes or inserts, and an observer who
keeps a copy applies what is announced. `replay` fails when a position is out of range, so
that an observer who gets through has been told valid positions only. -/
namespace CrashReporter

inductive RowChange (α : Type) where
  | removed (i : Nat)
  | inserted (i : Nat) (row : α)

namespace RowChange
variable {α : Type}

def apply : RowChange α → List α → Option (List α)
  | removed i, rows => if i < rows.length then some (rows.eraseIdx i) else none
  | inserted i row, rows => if i ≤ rows.length then some (rows.insertIdx i row) else none

/-- One change after the other. -/
def replay : List (RowChange α) → List α → Option (List α)
  | [], rows => some rows
  | change :: rest, rows => (change.apply rows).bind (replay rest)

theorem replay_append (changes later : List (RowChange α)) (rows : List α) :
    replay (changes ++ later) rows = (replay changes rows).bind (replay later) := by
  induction changes generalizing rows with
  | nil => rfl
  | cons change rest ih => cases h : change.apply rows <;> simp [replay, h, ih]

theorem replay_removed (before : List α) (row : α) (after : List α) (changes : List (RowChange α)) :
    replay (removed before.length :: changes) (before ++ row :: after) = replay changes (before ++ after) := by
  simp [replay, apply, List.eraseIdx_append_of_length_le]

theorem replay_inserted {i : Nat} {rows : List α} (h : i ≤ rows.length) (row : α)
    (changes : List (RowChange α)) :
    replay (inserted i row :: changes) rows = replay changes (rows.insertIdx i row) := by
  simp [replay, apply, h]

/-- Inserted before the first row that it goes before, a row keeps the order. -/
theorem pairwise_insertIdx_findIdx {le : α → α → Prop} (trans : ∀ a b c, le a b → le b c → le a c)
    {row : α} {p : α → Bool} (hp : ∀ r, p r = true → le row r) (hn : ∀ r, p r = false → le r row)
    {rows : List α} (h : rows.Pairwise le) : (rows.insertIdx (rows.findIdx p) row).Pairwise le := by
  induction rows with
  | nil => simp
  | cons first rest ih =>
    obtain ⟨hfirst, hrest⟩ := List.pairwise_cons.mp h
    cases hf : p first with
    | true =>
      rw [List.findIdx_cons, hf]
      refine List.pairwise_cons.mpr ⟨fun r hr => ?_, h⟩
      rcases List.mem_cons.mp hr with rfl | hr
      · exact hp r hf
      · exact trans _ _ _ (hp first hf) (hfirst r hr)
    | false =>
      rw [List.findIdx_cons, hf]
      refine List.pairwise_cons.mpr ⟨fun r hr => ?_, ih hrest⟩
      rcases List.eq_or_mem_of_mem_insertIdx hr with rfl | hr
      · exact hn first hf
      · exact hfirst r hr

end RowChange

end CrashReporter
