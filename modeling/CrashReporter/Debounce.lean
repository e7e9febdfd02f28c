import Mathlib.Tactic.ByContra

/-! Signals that pass when the one before is long enough ago.

Each signal restarts the waiting time, whether it passes or not; a muted one never passes.
Signals that pass are more than the waiting time apart, so that only so many of them fit
into an interval. -/
namespace CrashReporter
namespace Debounce

structure Hit where
  time : Int
  muted : Bool

variable (gap : Int)

/-- When the signals passed, the one before them having come at `last`. -/
def passed : Int → List Hit → List Int
  | _, [] => []
  | last, h :: rest =>
    if h.time - last > gap ∧ h.muted = false then h.time :: passed h.time rest else passed h.time rest

/-- When the last signal came. -/
def latest : Int → List Hit → Int
  | last, [] => last
  | _, h :: rest => latest h.time rest

variable {gap} {last : Int}

theorem passed_append (a b : List Hit) :
    passed gap last (a ++ b) = passed gap last a ++ passed gap (latest last a) b := by
  induction a generalizing last with
  | nil => rfl
  | cons h rest ih =>
    simp only [List.cons_append, passed, latest]
    split
    · rw [ih, List.cons_append]
    · exact ih

theorem latest_append (a b : List Hit) : latest last (a ++ b) = latest (latest last a) b := by
  induction a generalizing last with
  | nil => rfl
  | cons h rest ih => exact ih

/-- A signal that passes is more than the waiting time behind all those before it. -/
theorem passed_gap {hits : List Hit} (hlast : ∀ h ∈ hits, last ≤ h.time)
    (hmono : hits.Pairwise fun a b => a.time ≤ b.time) : ∀ t ∈ passed gap last hits, gap < t - last := by
  induction hits generalizing last with
  | nil => simp [passed]
  | cons h rest ih =>
    obtain ⟨hhead, hrest⟩ := List.pairwise_cons.mp hmono
    have hle := hlast h (List.mem_cons_self ..)
    have htail (t : Int) (ht : t ∈ passed gap h.time rest) : gap < t - last := by
      have := ih hhead hrest t ht
      omega
    rw [passed]
    split
    · rename_i hpass
      exact List.forall_mem_cons.mpr ⟨hpass.1, htail⟩
    · exact htail

theorem passed_spaced {hits : List Hit} (hmono : hits.Pairwise fun a b => a.time ≤ b.time) :
    (passed gap last hits).Pairwise fun a b => gap < b - a := by
  induction hits generalizing last with
  | nil => exact List.Pairwise.nil
  | cons h rest ih =>
    obtain ⟨hhead, hrest⟩ := List.pairwise_cons.mp hmono
    rw [passed]
    split
    · exact List.pairwise_cons.mpr ⟨passed_gap hhead hrest, ih hrest⟩
    · exact ih hrest

/-- The first of some spaced times, and how far it is from the end. -/
theorem spaced_span {stop t : Int} {times : List Int} (h : (t :: times).Pairwise fun a b => gap < b - a)
    (hstop : ∀ s ∈ t :: times, s ≤ stop) : t + times.length * (gap + 1) ≤ stop := by
  induction times generalizing t with
  | nil => simpa using hstop t (List.mem_cons_self ..)
  | cons s rest ih =>
    obtain ⟨hhead, hrest⟩ := List.pairwise_cons.mp h
    have hlt := hhead s (List.mem_cons_self ..)
    have hspan := ih hrest fun r hr => hstop r (List.mem_cons_of_mem _ hr)
    rw [List.length_cons, Int.natCast_succ, Int.add_mul]
    omega

/-- An interval of `n` waiting times has no more than `n` of them. -/
theorem spaced_length {n : Nat} (hn : 0 < n) (hgap : 0 ≤ gap) {start : Int} {times : List Int}
    (h : times.Pairwise fun a b => gap < b - a) (hin : ∀ t ∈ times, start ≤ t ∧ t ≤ start + n * gap) :
    times.length ≤ n := by
  cases times with
  | nil => exact Nat.zero_le n
  | cons t rest =>
    have hspan := spaced_span h fun s hs => (hin s hs).2
    have hstart := (hin t (List.mem_cons_self ..)).1
    by_contra hlong
    have hmany : (n : Int) ≤ rest.length := by
      rw [List.length_cons] at hlong
      omega
    have hmul : (n : Int) * (gap + 1) ≤ rest.length * (gap + 1) :=
      Int.mul_le_mul_of_nonneg_right hmany (by omega)
    rw [Int.mul_add, Int.mul_one] at hmul
    omega

end Debounce

end CrashReporter
