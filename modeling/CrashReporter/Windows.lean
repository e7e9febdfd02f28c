import Mathlib.Data.List.TakeWhile

/-! A list cut into windows.

Each window begins with the first element that is out of the window before, and whether
an element is out depends on the first element of the window alone. `windows` makes the
cuts on the whole list, `count` goes along it with the first element of the present window
and the number of elements it has so far: `count_none` says that the numbers on the way
are the positions in the windows. -/
namespace CrashReporter
namespace Windows
variable {α : Type} (out : α → α → Bool)

/-- The windows, in order. -/
def windows : List α → List (List α)
  | [] => []
  | a :: rest =>
    (a :: rest.takeWhile fun b => !out a b) :: windows (rest.dropWhile fun b => !out a b)
termination_by l => l.length
decreasing_by exact Nat.lt_succ_of_le (List.dropWhile_sublist _).length_le

/-- The position of each element in its window, the first one being 1. -/
def positions (l : List α) : List Nat := (windows out l).flatMap fun w => List.range' 1 w.length

/-- The first element of the present window and its length, when `a` comes. -/
def enter : Option (α × Nat) → α → α × Nat
  | none, a => (a, 1)
  | some (first, n), a => if out first a then (a, 1) else (first, n + 1)

/-- The length of the window at each element. -/
def count : Option (α × Nat) → List α → List Nat
  | _, [] => []
  | w, a :: rest => (enter out w a).2 :: count (some (enter out w a)) rest

theorem windows_nil : windows out [] = [] := by simp [windows]

theorem windows_cons (a : α) (rest : List α) : windows out (a :: rest) =
    (a :: rest.takeWhile fun b => !out a b) :: windows out (rest.dropWhile fun b => !out a b) := by
  rw [windows]

theorem positions_cons (a : α) (rest : List α) : positions out (a :: rest) =
    1 :: (List.range' 2 (rest.takeWhile fun b => !out a b).length ++
      positions out (rest.dropWhile fun b => !out a b)) := by
  rw [positions, windows_cons, List.flatMap_cons, List.length_cons, List.range'_succ]
  rfl

/-- The present window goes on up to the first element that is out of it. -/
theorem count_some (first : α) (n : Nat) (l : List α) : count out (some (first, n)) l =
    List.range' (n + 1) (l.takeWhile fun b => !out first b).length ++
      count out none (l.dropWhile fun b => !out first b) := by
  induction l generalizing n with
  | nil => rfl
  | cons a rest ih =>
    cases h : out first a with
    | true => simp [count, enter, h]
    | false => simp [count, enter, h, ih, List.range'_succ]

/-- Counting along the list gives the positions in the windows. -/
theorem count_none (l : List α) : count out none l = positions out l := by
  induction hn : l.length using Nat.strongRecOn generalizing l with
  | ind n ih =>
    cases l with
    | nil => simp [count, positions, windows_nil]
    | cons a rest =>
      have hlt : (rest.dropWhile fun b => !out a b).length < n := by
        rw [← hn]
        exact Nat.lt_succ_of_le (List.dropWhile_sublist _).length_le
      rw [positions_cons, ← ih _ hlt _ rfl, ← count_some out a 1]
      rfl

theorem mem_positions {p : Nat} {l : List α} :
    p ∈ positions out l ↔ ∃ w ∈ windows out l, 1 ≤ p ∧ p ≤ w.length := by
  simp only [positions, List.mem_flatMap, List.mem_range'_1]
  refine exists_congr fun w => and_congr_right fun _ => and_congr_right fun _ => ?_
  omega

end Windows

end CrashReporter
