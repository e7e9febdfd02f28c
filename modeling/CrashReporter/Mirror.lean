import CrashReporter.Machine

/-! Copies of a value that changes elsewhere.

A program keeps a copy of something that others change, and reads it again when it
learns of a change. In between the copy is behind, but then a reading is due. A
`Mirror` names the value, the copy and what makes a reading due; `Refreshes` is what a
step owes, and `visits_followed` the rule for runs. -/
namespace CrashReporter

structure Mirror (σ α : Type) where
  live : σ → α
  copy : σ → α
  /-- The value is going to be read. -/
  due : σ → Prop

namespace Mirror
variable {σ ε α : Type} {m : Mirror σ α} {s t : σ}

/-- The copy is right, or a reading is due. -/
def Followed (m : Mirror σ α) (s : σ) : Prop := m.due s ∨ m.copy s = m.live s

/-- What a step from `s` to `t` may do. -/
inductive Refreshes (m : Mirror σ α) (s t : σ) : Prop where
  | read (h : m.copy t = m.live t)
  | told (h : m.due t)
  /-- Nothing changes, and what is due stays due. -/
  | same (copy : m.copy t = m.copy s) (live : m.live t = m.live s) (due : m.due s → m.due t)

theorem Refreshes.followed (h : m.Refreshes s t) (hs : m.Followed s) : m.Followed t := by
  cases h with
  | read h => exact .inr h
  | told h => exact .inl h
  | same copy live due =>
    cases hs with
    | inl hdue => exact .inl (due hdue)
    | inr heq => exact .inr (copy.trans (heq.trans live.symm))

/-- A copy that each step refreshes is right whenever nothing is due. -/
theorem visits_followed {M : Machine σ ε} {I : σ → Prop} {G : σ → ε → Prop}
    (keeps : ∀ s e t, I s → G s e → M.step s e = some t → I t ∧ m.Refreshes s t) {es : List ε}
    (start : I s) (followed : m.Followed s) (hw : M.Within G es s) :
    ∀ t ∈ M.visits es s, I t ∧ m.Followed t := by
  apply Machine.visits_invariant (I := fun s => I s ∧ m.Followed s) (G := G) _ ⟨start, followed⟩ hw
  intro s e t hs hg hstep
  obtain ⟨ht, hr⟩ := keeps s e t hs.1 hg hstep
  exact ⟨ht, hr.followed hs.2⟩

end Mirror

end CrashReporter
