import Mathlib.Data.List.Basic

/-! Times that come in small groups.

In a list of times, latest first, each may be at least a gap behind the ones more than a
few places on. Then an interval as long as the gap has only a few of them. -/
namespace CrashReporter
namespace Spacing

/-- Each time is `gap` or more after those that are `k + 1` or more places on. -/
def Apart (gap : Int) (k : Nat) : List Int → Prop
  | [] => True
  | t :: rest => (∀ s ∈ rest.drop k, s + gap ≤ t) ∧ Apart gap k rest

variable {gap : Int} {k : Nat} {times : List Int}

theorem Apart.cons {t : Int} (h : Apart gap k times) (ht : ∀ s ∈ times.drop k, s + gap ≤ t) :
    Apart gap k (t :: times) := ⟨ht, h⟩

/-- From `start` on, before `gap` is over. -/
def inside (gap start t : Int) : Bool := start ≤ t && t < start + gap

/-- An interval of length `gap` has at most `k + 1` of them. -/
theorem Apart.length_filter_inside_le (h : Apart gap k times) (start : Int) :
    (times.filter (inside gap start)).length ≤ k + 1 := by
  induction times with
  | nil => exact Nat.zero_le _
  | cons t rest ih =>
    obtain ⟨hhead, hrest⟩ := h
    by_cases hin : inside gap start t = true
    · -- The interval begins too late for what is `k` places on.
      have hlate : (rest.drop k).filter (inside gap start) = [] := by
        apply List.filter_eq_nil_iff.mpr
        intro s hs
        have hgap := hhead s hs
        simp only [inside, Bool.and_eq_true, decide_eq_true_eq] at hin ⊢
        omega
      have hsplit : rest.filter (inside gap start) = (rest.take k).filter (inside gap start) := by
        conv_lhs => rw [← List.take_append_drop k rest]
        rw [List.filter_append, hlate, List.append_nil]
      have hfew : ((rest.take k).filter (inside gap start)).length ≤ k :=
        Nat.le_trans (List.length_filter_le _ _) (List.length_take_le _ _)
      rw [List.filter_cons_of_pos hin, List.length_cons, hsplit]
      omega
    · rw [List.filter_cons_of_neg hin]
      exact ih hrest

end Spacing

end CrashReporter
