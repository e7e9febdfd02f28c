import Mathlib.Logic.Function.Basic

/-! A value of which several parties keep a copy.

A party reads and writes its own copy. `sync` saves what the party has written, and
takes over what is saved when it has written nothing; after `restart` the copy is a new
one of what is saved. `Spread` follows one write: which copies have its value, and
whether it is saved. -/
namespace CrashReporter.Copies

structure Register (ι α : Type) where
  saved : α
  seen : ι → α
  /-- Has been written since it was saved. -/
  unsaved : ι → Bool

inductive Access (ι α : Type) where
  | write (i : ι) (v : α)
  | sync (i : ι)
  | restart (i : ι)

section Run
variable {ι α : Type} [DecidableEq ι]

namespace Register

/-- Everybody has a copy. -/
def start (v : α) : Register ι α := ⟨v, fun _ => v, fun _ => false⟩

def access (r : Register ι α) : Access ι α → Register ι α
  | .write i v => {r with seen := Function.update r.seen i v, unsaved := Function.update r.unsaved i true}
  | .sync i =>
    if r.unsaved i then {r with saved := r.seen i, unsaved := Function.update r.unsaved i false}
    else {r with seen := Function.update r.seen i r.saved}
  | .restart i =>
    {r with seen := Function.update r.seen i r.saved, unsaved := Function.update r.unsaved i false}

def run (r : Register ι α) (accesses : List (Access ι α)) : Register ι α := accesses.foldl access r

theorem run_append (r : Register ι α) (before after : List (Access ι α)) :
    r.run (before ++ after) = (r.run before).run after := List.foldl_append

end Register

def Access.writes : Access ι α → Bool
  | .write .. => true
  | _ => false

/-- Where the value of a write is. -/
structure Spread (ι : Type) where
  saved : Bool
  informed : ι → Bool

namespace Spread

/-- One party has written. -/
def start (i : ι) : Spread ι := ⟨false, fun j => j = i⟩

def access (s : Spread ι) : Access ι α → Spread ι
  | .write .. => s
  | .sync i => ⟨s.saved || s.informed i, Function.update s.informed i (s.saved || s.informed i)⟩
  | .restart i => {s with informed := Function.update s.informed i s.saved}

def run (s : Spread ι) (accesses : List (Access ι α)) : Spread ι := accesses.foldl access s

end Spread

/-- The copies of the informed have the value, and nobody else has anything to save. -/
structure Informed (v : α) (s : Spread ι) (r : Register ι α) : Prop where
  seen : ∀ i, s.informed i = true → r.seen i = v
  kept : ∀ i, s.informed i = true → r.unsaved i = true ∨ r.saved = v
  saved : s.saved = true → r.saved = v
  unsaved : ∀ i, r.unsaved i = true → s.informed i = true

variable {v : α} {s : Spread ι} {r : Register ι α} {i : ι}

/-- A write, when there is nothing else to save. -/
theorem Informed.write (h : ∀ j ≠ i, r.unsaved j = false) (v : α) :
    Informed v (Spread.start i) (r.access (.write i v)) where
  seen j hj := by
    obtain rfl := of_decide_eq_true hj
    exact Function.update_self ..
  kept j hj := by
    obtain rfl := of_decide_eq_true hj
    exact .inl (Function.update_self ..)
  saved := nofun
  unsaved j hj := by
    by_contra hinformed
    have hne : j ≠ i := fun he => hinformed (decide_eq_true he)
    simp only [Register.access, Function.update_of_ne hne, h j hne] at hj
    cases hj

/-- A party takes over what is saved, and is informed when that is the value. -/
theorem Informed.reads (h : Informed v s r) (i : ι) {b : Bool} (hb : b = true → r.saved = v) :
    Informed v ⟨b, Function.update s.informed i b⟩ (r.access (.restart i)) := by
  refine ⟨fun j hj => ?_, fun j hj => ?_, hb, fun j hj => ?_⟩
  all_goals
    simp only [Register.access] at hj ⊢
    rcases eq_or_ne j i with rfl | hne
  · simp only [Function.update_self] at hj ⊢
    exact hb hj
  · simp only [Function.update_of_ne hne] at hj ⊢
    exact h.seen j hj
  · simp only [Function.update_self] at hj
    exact .inr (hb hj)
  · simp only [Function.update_of_ne hne] at hj ⊢
    exact h.kept j hj
  · simp only [Function.update_self] at hj
    cases hj
  · simp only [Function.update_of_ne hne] at hj ⊢
    exact h.unsaved j hj

theorem Informed.restart (h : Informed v s r) (i : ι) :
    Informed v (s.access (α := α) (.restart i)) (r.access (.restart i)) := h.reads i h.saved

theorem Informed.sync (h : Informed v s r) (i : ι) :
    Informed v (s.access (α := α) (.sync i)) (r.access (.sync i)) := by
  by_cases hu : r.unsaved i = true
  · -- What is saved now is the value, as the copy had it.
    have hi := h.unsaved i hu
    have hinformed : Function.update s.informed i (s.saved || s.informed i) = s.informed := by
      rw [hi, Bool.or_true, ← hi, Function.update_eq_self]
    simp only [Spread.access, Register.access, if_pos hu, hinformed]
    refine ⟨h.seen, fun _ _ => .inr (h.seen i hi), fun _ => h.seen i hi, fun j hj => h.unsaved j ?_⟩
    rcases eq_or_ne j i with rfl | hne
    · exact hu
    · simpa only [Function.update_of_ne hne] using hj
  · have hsame : r.access (.sync i) = r.access (.restart i) := by
      have hnone : Function.update r.unsaved i false = r.unsaved := by
        rw [← Bool.eq_false_iff.mpr hu, Function.update_eq_self]
      simp only [Register.access, if_neg hu, hnone]
    rw [hsame]
    refine h.reads i fun hs => ?_
    obtain hs | hs := Bool.or_eq_true_iff.mp hs
    · exact h.saved hs
    · exact (h.kept i hs).resolve_left hu

/-- The value spreads while nobody writes another one. -/
theorem Informed.run (h : Informed v s r) {accesses : List (Access ι α)}
    (hwrites : ∀ a ∈ accesses, a.writes = false) : Informed v (s.run accesses) (r.run accesses) := by
  induction accesses generalizing s r with
  | nil => exact h
  | cons a rest ih =>
    obtain ⟨ha, hrest⟩ := List.forall_mem_cons.mp hwrites
    cases a with
    | write => cases ha
    | sync i => exact ih (h.sync i) hrest
    | restart i => exact ih (h.restart i) hrest

end Run

end CrashReporter.Copies
