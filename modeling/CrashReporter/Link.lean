import CrashReporter.Reactor
import CrashReporter.Machine

/-! Two programs that share something.

Each of them is a reactor with its own picture of what they share. A `Link` says which
actions are a program's own, what the other one is told of its steps, what happens to both
from outside, and how a new process of each begins. Together they are a machine, in which
either program only ever does what it may do alone (`reaches_left`, `reaches_right`). -/
namespace CrashReporter
open Reactor

/-- `α` is what is left open when one program is told of a step of the other, `β` and `γ`
are what a new process may begin with, and `ζ` is what happens from outside. -/
structure Link {σ κ ε τ ι δ : Type} (R : Reactor σ κ ε) (S : Reactor τ ι δ) (α β γ ζ : Type) where
  ownLeft : Action ε → Bool
  ownRight : Action δ → Bool
  /-- When the left program has gone from the first configuration to the second. -/
  tellRight : α → Config σ κ → Config σ κ → Config τ ι → List δ
  tellLeft : α → Config σ κ → Config τ ι → Config τ ι → List ε
  outside : ζ → ε × δ
  startLeft : β → Config σ κ → Config σ κ
  startRight : γ → Config τ ι → Config τ ι

namespace Link
variable {σ κ ε τ ι δ α β γ ζ : Type} {R : Reactor σ κ ε} {S : Reactor τ ι δ}

inductive Event (ε δ α β γ ζ : Type) where
  | left (a : Action ε) (c : α)
  | right (b : Action δ) (c : α)
  | outside (z : ζ)
  | startLeft (p : β)
  | startRight (p : γ)

section Machine
variable (L : Link R S α β γ ζ)

def machine : Machine (Config σ κ × Config τ ι) (Event ε δ α β γ ζ) where
  step w
    | .left a c =>
      if L.ownLeft a then
        (R.step w.1 a).bind fun x => (S.run ((L.tellRight c w.1 x w.2).map .event) w.2).map fun y => (x, y)
      else none
    | .right b c =>
      if L.ownRight b then
        (S.step w.2 b).bind fun y => (R.run ((L.tellLeft c w.1 w.2 y).map .event) w.1).map fun x => (x, y)
      else none
    | .outside z =>
      (R.step w.1 (.event (L.outside z).1)).bind fun x =>
        (S.step w.2 (.event (L.outside z).2)).map fun y => (x, y)
    | .startLeft p => some (L.startLeft p w.1, w.2)
    | .startRight p => some (w.1, L.startRight p w.2)

/-- What the left program does in a step. -/
def leftActions (w : Config σ κ × Config τ ι) : Event ε δ α β γ ζ → List (Action ε)
  | .left a _ => [a]
  | .right b c => ((S.step w.2 b).map fun y => (L.tellLeft c w.1 w.2 y).map .event).getD []
  | .outside z => [.event (L.outside z).1]
  | .startLeft _ | .startRight _ => []

def rightActions (w : Config σ κ × Config τ ι) : Event ε δ α β γ ζ → List (Action δ)
  | .left a c => ((R.step w.1 a).map fun x => (L.tellRight c w.1 x w.2).map .event).getD []
  | .right b _ => [b]
  | .outside z => [.event (L.outside z).2]
  | .startLeft _ | .startRight _ => []

end Machine

variable {L : Link R S α β γ ζ} {w t : Config σ κ × Config τ ι} {e : Event ε δ α β γ ζ}

theorem step_left {a : Action ε} {c : α} (h : L.machine.step w (.left a c) = some t) :
    L.ownLeft a = true ∧ R.step w.1 a = some t.1 ∧
      S.run ((L.tellRight c w.1 t.1 w.2).map .event) w.2 = some t.2 := by
  obtain ⟨hown, h⟩ := Option.ite_none_right_eq_some.mp h
  obtain ⟨x, hx, h⟩ := Option.bind_eq_some_iff.mp h
  obtain ⟨y, hy, rfl⟩ := Option.map_eq_some_iff.mp h
  exact ⟨hown, hx, hy⟩

theorem step_right {b : Action δ} {c : α} (h : L.machine.step w (.right b c) = some t) :
    L.ownRight b = true ∧ S.step w.2 b = some t.2 ∧
      R.run ((L.tellLeft c w.1 w.2 t.2).map .event) w.1 = some t.1 := by
  obtain ⟨hown, h⟩ := Option.ite_none_right_eq_some.mp h
  obtain ⟨y, hy, h⟩ := Option.bind_eq_some_iff.mp h
  obtain ⟨x, hx, rfl⟩ := Option.map_eq_some_iff.mp h
  exact ⟨hown, hy, hx⟩

/-- A program can do beside the other what it can do alone, if the other can be told of it. -/
theorem left_step {a : Action ε} {c : α} {x : Config σ κ} {y : Config τ ι} (hown : L.ownLeft a = true)
    (hx : R.step w.1 a = some x) (hy : S.run ((L.tellRight c w.1 x w.2).map .event) w.2 = some y) :
    L.machine.step w (.left a c) = some (x, y) := by
  simp [machine, hown, hx, hy]

theorem right_step {b : Action δ} {c : α} {x : Config σ κ} {y : Config τ ι} (hown : L.ownRight b = true)
    (hy : S.step w.2 b = some y) (hx : R.run ((L.tellLeft c w.1 w.2 y).map .event) w.1 = some x) :
    L.machine.step w (.right b c) = some (x, y) := by
  simp [machine, hown, hx, hy]

theorem step_outside {z : ζ} (h : L.machine.step w (.outside z) = some t) :
    R.step w.1 (.event (L.outside z).1) = some t.1 ∧ S.step w.2 (.event (L.outside z).2) = some t.2 := by
  obtain ⟨x, hx, h⟩ := Option.bind_eq_some_iff.mp h
  obtain ⟨y, hy, rfl⟩ := Option.map_eq_some_iff.mp h
  exact ⟨hx, hy⟩

theorem run_one {x y : Config σ κ} {a : Action ε} (h : R.step x a = some y) : R.run [a] x = some y := by
  simp [run, h]

/-- But for a new process, a step of the machine is a run of each program. -/
theorem run_left (h : L.machine.step w e = some t) :
    (∃ p, e = .startLeft p ∧ t.1 = L.startLeft p w.1) ∨ R.run (L.leftActions w e) w.1 = some t.1 := by
  cases e with
  | left a c => exact .inr (run_one (step_left h).2.1)
  | right b c =>
    obtain ⟨-, hy, hx⟩ := step_right h
    refine .inr ?_
    simpa [leftActions, hy] using hx
  | outside z => exact .inr (run_one (step_outside h).1)
  | startLeft p =>
    cases h
    exact .inl ⟨p, rfl, rfl⟩
  | startRight p =>
    cases h
    exact .inr rfl

theorem run_right (h : L.machine.step w e = some t) :
    (∃ p, e = .startRight p ∧ t.2 = L.startRight p w.2) ∨ S.run (L.rightActions w e) w.2 = some t.2 := by
  cases e with
  | left a c =>
    obtain ⟨-, hx, hy⟩ := step_left h
    refine .inr ?_
    simpa [rightActions, hx] using hy
  | right b c => exact .inr (run_one (step_right h).2.1)
  | outside z => exact .inr (run_one (step_outside h).2)
  | startLeft p =>
    cases h
    exact .inr rfl
  | startRight p =>
    cases h
    exact .inl ⟨p, rfl, rfl⟩

/-- A configuration that a program reaches alone, from one of those it may begin in. -/
def Alone (R : Reactor σ κ ε) (G : Guard σ κ ε) (Begins : Config σ κ → Prop) (x : Config σ κ) : Prop :=
  ∃ x₀, Begins x₀ ∧ Reaches R G x₀ x

variable {G : Guard σ κ ε} {G' : Guard τ ι δ} {Begins : Config σ κ → Prop} {Begins' : Config τ ι → Prop}

theorem reaches_left (hw : Alone R G Begins w.1) (hg : Guarded R G (L.leftActions w e) w.1)
    (hp : ∀ p, e = .startLeft p → Begins (L.startLeft p w.1)) (hs : L.machine.step w e = some t) :
    Alone R G Begins t.1 := by
  obtain ⟨x₀, hx₀, hx⟩ := hw
  obtain ⟨p, he, ht⟩ | hrun := run_left hs
  · exact ⟨t.1, ht ▸ hp p he, .start⟩
  · exact ⟨x₀, hx₀, hx.of_run hg hrun⟩

theorem reaches_right (hw : Alone S G' Begins' w.2) (hg : Guarded S G' (L.rightActions w e) w.2)
    (hp : ∀ p, e = .startRight p → Begins' (L.startRight p w.2)) (hs : L.machine.step w e = some t) :
    Alone S G' Begins' t.2 := by
  obtain ⟨y₀, hy₀, hy⟩ := hw
  obtain ⟨p, he, ht⟩ | hrun := run_right hs
  · exact ⟨t.2, ht ▸ hp p he, .start⟩
  · exact ⟨y₀, hy₀, hy.of_run hg hrun⟩

end Link

end CrashReporter
