import Mathlib.Data.List.Basic

/-! Programs that take one event at a time.

A `Machine` is in one state after another: an event that the state allows takes it to
the next. `visits` lists the states that a list of events leads through, `Within` says
that every step of it satisfies a guard, and `visits_iff_within` is the rule for a
property that holds along exactly the runs within a guard. -/
namespace CrashReporter

structure Machine (σ ε : Type) where
  /-- The state after an event, when the state allows it. -/
  step : σ → ε → Option σ

namespace Machine
variable {σ ε : Type} (M : Machine σ ε)

/-- The states after each event, up to the first event that cannot be taken. -/
def visits : List ε → σ → List σ
  | [], _ => []
  | e :: rest, s => match M.step s e with
    | some t => t :: visits rest t
    | none => []

/-- Every step taken satisfies the guard. -/
def Within (G : σ → ε → Prop) : List ε → σ → Prop
  | [], _ => True
  | e :: rest, s => ∀ t, M.step s e = some t → G s e ∧ Within G rest t

variable {M}

theorem visits_cons {s t : σ} {e : ε} (h : M.step s e = some t) (rest : List ε) :
    M.visits (e :: rest) s = t :: M.visits rest t := by
  simp [visits, h]

theorem visits_stuck {s : σ} {e : ε} (h : M.step s e = none) (rest : List ε) :
    M.visits (e :: rest) s = [] := by
  simp [visits, h]

/-- What the steps within a guard keep holds all along. -/
theorem visits_invariant {I : σ → Prop} {G : σ → ε → Prop}
    (keeps : ∀ s e t, I s → G s e → M.step s e = some t → I t) {es : List ε} {s : σ}
    (start : I s) (hw : M.Within G es s) : ∀ t ∈ M.visits es s, I t := by
  induction es generalizing s with
  | nil => exact fun t ht => nomatch ht
  | cons e rest ih =>
    cases hs : M.step s e with
    | none =>
      rw [visits_stuck hs]
      exact fun t ht => nomatch ht
    | some u =>
      obtain ⟨hg, hrest⟩ := hw u hs
      have hu := keeps s e u start hg hs
      rw [visits_cons hs, List.forall_mem_cons]
      exact ⟨hu, ih hu hrest⟩

theorem within_true (es : List ε) (s : σ) : M.Within (fun _ _ => True) es s := by
  induction es generalizing s with
  | nil => trivial
  | cons e rest ih => exact fun t _ => ⟨trivial, ih t⟩

/-- The guard is exact when the steps within it keep an invariant and lead to the
property, and every other step leads out of the property. -/
theorem visits_iff_within {I P : σ → Prop} {G : σ → ε → Prop}
    (keeps : ∀ s e t, I s → G s e → M.step s e = some t → I t ∧ P t)
    (leaves : ∀ s e t, I s → ¬ G s e → M.step s e = some t → ¬ P t) {es : List ε} {s : σ}
    (start : I s) : (∀ t ∈ M.visits es s, P t) ↔ M.Within G es s := by
  induction es generalizing s with
  | nil => exact ⟨fun _ => trivial, fun _ t ht => nomatch ht⟩
  | cons e rest ih =>
    cases hs : M.step s e with
    | none =>
      rw [visits_stuck hs]
      exact ⟨fun _ t ht => absurd (hs.symm.trans ht) (by simp), fun _ t ht => nomatch ht⟩
    | some u =>
      rw [visits_cons hs, List.forall_mem_cons]
      constructor
      · intro hP t ht
        obtain rfl : u = t := Option.some.inj (hs.symm.trans ht)
        have hg : G s e := by
          by_contra hg
          exact leaves s e u start hg hs hP.1
        exact ⟨hg, (ih (keeps s e u start hg hs).1).mp hP.2⟩
      · intro hw
        obtain ⟨hg, hrest⟩ := hw u hs
        obtain ⟨hu, hPu⟩ := keeps s e u start hg hs
        exact ⟨hPu, (ih hu).mpr hrest⟩

/-- A guard that looks at the events only is checked on the list. -/
theorem Within.of_forall {P : ε → Prop} {es : List ε} (h : ∀ e ∈ es, P e) (s : σ) :
    M.Within (fun _ e => P e) es s := by
  induction es generalizing s with
  | nil => trivial
  | cons e rest ih =>
    intro t _
    exact ⟨h e (List.mem_cons_self ..), ih (fun e he => h e (List.mem_cons_of_mem _ he)) t⟩

/-- Events that use up a measure are not many. -/
theorem visits_length_le {μ : σ → Nat} {G : σ → ε → Prop}
    (uses : ∀ s e t, G s e → M.step s e = some t → μ t < μ s) {es : List ε} {s : σ}
    (hw : M.Within G es s) : (M.visits es s).length ≤ μ s := by
  induction es generalizing s with
  | nil => exact Nat.zero_le _
  | cons e rest ih =>
    cases hs : M.step s e with
    | none =>
      rw [visits_stuck hs]
      exact Nat.zero_le _
    | some u =>
      obtain ⟨hg, hrest⟩ := hw u hs
      have hlt := uses s e u hg hs
      have hle := ih hrest
      rw [visits_cons hs, List.length_cons]
      omega

/-- Takes a list of events and checks each step. -/
def check (M : Machine σ ε) (g : σ → ε → Bool) : List ε → σ → Bool
  | [], _ => true
  | e :: rest, s => match M.step s e with
    | some t => g s e && check M g rest t
    | none => true

/-- A guard that can be computed is checked along the run. -/
theorem Within.of_check {G : σ → ε → Prop} {g : σ → ε → Bool} (hg : ∀ s e, g s e = true → G s e)
    {es : List ε} {s : σ} (h : M.check g es s = true) : M.Within G es s := by
  induction es generalizing s with
  | nil => trivial
  | cons e rest ih =>
    intro t hs
    simp only [check, hs] at h
    obtain ⟨he, hrest⟩ := Bool.and_eq_true_iff.mp h
    exact ⟨hg s e he, ih hrest⟩

/-- A property of the steps that holds of exactly those within a guard. -/
theorem within_congr {G H : σ → ε → Prop} (h : ∀ s e t, M.step s e = some t → (G s e ↔ H s e))
    (es : List ε) (s : σ) : M.Within G es s ↔ M.Within H es s := by
  induction es generalizing s with
  | nil => exact Iff.rfl
  | cons e rest ih =>
    exact forall_congr' fun t => forall_congr' fun hs => and_congr (h s e t hs) (ih t)

end Machine

end CrashReporter
