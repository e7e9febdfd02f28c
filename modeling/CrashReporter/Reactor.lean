import Mathlib.Algebra.BigOperators.Group.List.Basic
import Mathlib.Algebra.Ring.Nat

/-! Event machines with nested calls.

A single-threaded program of signals and slots takes one event at a time. A
function runs up to a signal it emits, the connected slots run, and only then
does the rest of the function run: whatever the slots did is already there. A
`Reactor` says what one call does up to the calls it makes next, and gives these
calls in order; the pending calls of all functions that have not returned yet
form the stack. An event from outside is taken when nothing is pending, or while
a call that lets such events in is on top (`admits`).

`Reaches` is every run whose steps satisfy a guard, from a first configuration.
`Reaches.invariant` is the induction rule for them; `drain` runs the pending calls of an
event without another one in between. -/
namespace CrashReporter

structure Reactor (σ κ ε : Type) where
  /-- One call: its effect up to the calls it makes next, and those calls. -/
  exec : κ → σ → σ × List κ
  /-- One event from outside, when the state allows it. -/
  deliver : ε → σ → Option (σ × List κ)
  /-- Whether an event may arrive while these calls are pending. -/
  admits : ε → List κ → Bool

namespace Reactor
variable {σ κ ε : Type}

/-- A state with the calls that have not run yet, innermost first. -/
structure Config (σ κ : Type) where
  state : σ
  stack : List κ

inductive Action (ε : Type) where
  /-- The innermost pending call runs. -/
  | run
  /-- The environment delivers an event. -/
  | event (e : ε)

/-- A condition on the steps of a run. -/
abbrev Guard (σ κ ε : Type) := Config σ κ → Action ε → Prop

section Step
variable (R : Reactor σ κ ε)

/-- The configuration after the innermost call of `k :: rest` has run. -/
def called (k : κ) (rest : List κ) (s : σ) : Config σ κ :=
  ⟨(R.exec k s).1, (R.exec k s).2 ++ rest⟩

def step (x : Config σ κ) : Action ε → Option (Config σ κ)
  | .run => match x.stack with
    | [] => none
    | k :: rest => some (R.called k rest x.state)
  | .event e =>
    if R.admits e x.stack then
      (R.deliver e x.state).map fun r => ⟨r.1, r.2 ++ x.stack⟩
    else none

/-- Executes a list of actions, each of which must be possible. -/
def run : List (Action ε) → Config σ κ → Option (Config σ κ)
  | [], x => some x
  | a :: rest, x => (R.step x a).bind (run rest)

theorem step_run {x y : Config σ κ} (h : R.step x .run = some y) :
    ∃ k rest, x.stack = k :: rest ∧ y = R.called k rest x.state := by
  obtain ⟨s, stack⟩ := x
  cases stack with
  | nil => exact absurd h (by simp [step])
  | cons k rest => exact ⟨k, rest, rfl, by simpa [step, eq_comm] using h⟩

theorem step_event {x y : Config σ κ} {e : ε} (h : R.step x (.event e) = some y) :
    R.admits e x.stack = true ∧ ∃ r, R.deliver e x.state = some r ∧ y = ⟨r.1, r.2 ++ x.stack⟩ := by
  by_cases ha : R.admits e x.stack = true
  · simp only [step, ha, if_true] at h
    obtain ⟨r, hr, hy⟩ := Option.map_eq_some_iff.mp h
    exact ⟨ha, r, hr, hy.symm⟩
  · simp [step, ha] at h

end Step

/-- The configurations that runs within `G` reach from `x₀`. -/
inductive Reaches (R : Reactor σ κ ε) (G : Guard σ κ ε) (x₀ : Config σ κ) : Config σ κ → Prop where
  | start : Reaches R G x₀ x₀
  | next {x y : Config σ κ} {a : Action ε} :
    Reaches R G x₀ x → G x a → R.step x a = some y → Reaches R G x₀ y

section Runs
variable {R : Reactor σ κ ε} {G : Guard σ κ ε} {x₀ : Config σ κ}

/-- A property of the first configuration that calls and events within the guard
keep, where runs reach them, holds in every configuration reached. -/
theorem Reaches.invariant {I : Config σ κ → Prop} (start : I x₀)
    (calls : ∀ s k rest, Reaches R G x₀ ⟨s, k :: rest⟩ → G ⟨s, k :: rest⟩ .run →
      I ⟨s, k :: rest⟩ → I (R.called k rest s))
    (events : ∀ s stack e r, Reaches R G x₀ ⟨s, stack⟩ → G ⟨s, stack⟩ (.event e) →
      R.admits e stack = true → R.deliver e s = some r → I ⟨s, stack⟩ → I ⟨r.1, r.2 ++ stack⟩)
    {x : Config σ κ} (h : Reaches R G x₀ x) : I x := by
  induction h with
  | start => exact start
  | @next x y a hx hg hs ih =>
    obtain ⟨s, stack⟩ := x
    cases a with
    | run =>
      obtain ⟨k, rest, rfl, rfl⟩ := R.step_run hs
      exact calls s k rest hx hg ih
    | event e =>
      obtain ⟨ha, r, hr, rfl⟩ := R.step_event hs
      exact events s stack e r hx hg ha hr ih

/-- Every step of the list is within the guard. -/
def Guarded (R : Reactor σ κ ε) (G : Guard σ κ ε) : List (Action ε) → Config σ κ → Prop
  | [], _ => True
  | a :: rest, x => G x a ∧ ∀ y, R.step x a = some y → Guarded R G rest y

theorem Guarded.mono {G' : Guard σ κ ε} (hG : ∀ x a, G x a → G' x a) {as : List (Action ε)}
    {x : Config σ κ} (h : Guarded R G as x) : Guarded R G' as x := by
  induction as generalizing x with
  | nil => trivial
  | cons a rest ih => exact ⟨hG _ _ h.1, fun y hy => ih (h.2 y hy)⟩

theorem Guarded.and {G' : Guard σ κ ε} {as : List (Action ε)} {x : Config σ κ} (h : Guarded R G as x)
    (h' : Guarded R G' as x) : Guarded R (fun x a => G x a ∧ G' x a) as x := by
  induction as generalizing x with
  | nil => trivial
  | cons a rest ih => exact ⟨⟨h.1, h'.1⟩, fun y hy => ih (h.2 y hy) (h'.2 y hy)⟩

/-- A guarded list of actions that executes is a run. -/
theorem Reaches.of_run {as : List (Action ε)} {x y : Config σ κ} (hx : Reaches R G x₀ x)
    (hg : Guarded R G as x) (hr : R.run as x = some y) : Reaches R G x₀ y := by
  induction as generalizing x with
  | nil =>
    cases hr
    exact hx
  | cons a rest ih =>
    obtain ⟨z, hz, hr'⟩ := Option.bind_eq_some_iff.mp hr
    exact ih (.next hx hg.1 hz) (hg.2 z hz) hr'

/-- What does not hold at first and holds in the end begins to hold in some step. -/
theorem Guarded.begins {P : Config σ κ → Prop} {as : List (Action ε)} {x y : Config σ κ}
    (hg : Guarded R G as x) (hr : R.run as x = some y) (hx : ¬P x) (hy : P y) :
    ∃ before a after z z', as = before ++ a :: after ∧ R.run before x = some z ∧
      R.step z a = some z' ∧ G z a ∧ ¬P z ∧ P z' := by
  induction as generalizing x with
  | nil =>
    cases hr
    exact absurd hy hx
  | cons a rest ih =>
    obtain ⟨u, hu, hr'⟩ := Option.bind_eq_some_iff.mp hr
    by_cases hP : P u
    · exact ⟨[], a, rest, x, u, rfl, rfl, hu, hg.1, hx, hP⟩
    · obtain ⟨before, b, after, z, z', rfl, hrun, hstep⟩ := ih (hg.2 u hu) hr' hP
      refine ⟨a :: before, b, after, z, z', rfl, ?_, hstep⟩
      simpa [run, hu] using hrun

/-- A guard that looks at the actions only is checked on the list. -/
theorem Guarded.of_forall {P : Action ε → Prop} {as : List (Action ε)} (h : ∀ a ∈ as, P a)
    (x : Config σ κ) : Guarded R (fun _ a => P a) as x := by
  induction as generalizing x with
  | nil => trivial
  | cons a rest ih =>
    exact ⟨h a (List.mem_cons_self ..), fun y _ => ih (fun b hb => h b (List.mem_cons_of_mem _ hb)) y⟩

/-- Executes a list of actions and checks each step. -/
def check (R : Reactor σ κ ε) (g : Config σ κ → Action ε → Bool) :
    List (Action ε) → Config σ κ → Bool
  | [], _ => true
  | a :: rest, x => g x a && match R.step x a with
    | some y => check R g rest y
    | none => true

/-- A guard that can be computed is checked along the run. -/
theorem Guarded.of_check {g : Config σ κ → Action ε → Bool} (hg : ∀ x a, g x a = true → G x a)
    {as : List (Action ε)} {x : Config σ κ} (h : check R g as x = true) : Guarded R G as x := by
  induction as generalizing x with
  | nil => trivial
  | cons a rest ih =>
    obtain ⟨ha, hrest⟩ := Bool.and_eq_true_iff.mp h
    refine ⟨hg x a ha, fun y hy => ih ?_⟩
    simpa [hy] using hrest

end Runs

/-! ### The pending calls of an event -/

section Drain
variable (R : Reactor σ κ ε)

/-- Runs up to `n` pending calls. -/
def drain : Nat → Config σ κ → Config σ κ
  | 0, x => x
  | _ + 1, ⟨s, []⟩ => ⟨s, []⟩
  | n + 1, ⟨s, k :: rest⟩ => drain n (R.called k rest s)

end Drain

end Reactor

end CrashReporter
