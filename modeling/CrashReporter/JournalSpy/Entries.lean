import CrashReporter.JournalSpy.Spy
import Mathlib.Data.Nat.Find

/-! When the loop over the journal ends.

The loop takes an error for an entry: it goes on, and compares once more what it compared
before. -/
namespace CrashReporter.JournalSpy
namespace Spy
variable (hasMatch : Text → Bytes → Bool)

/-- The first `n` calls of `sd_journal_next`. -/
def calls (turns : Nat → Turn) (n : Nat) : List Turn := (List.range n).map turns

/-- The new entries among them, before one that gave none. -/
def entriesRead (turns : Nat → Turn) (n : Nat) : Nat :=
  ((calls turns n).takeWhile fun t => decide (0 < t.result)).length

/-- The loop ends with the first call that gives no new entry, and compares each new entry
once. -/
structure ReadsOnce (s : Spy) (turns : Nat → Turn) : Prop where
  stops : ∀ n, (turns n).result ≤ 0 → (s.handleJournalEntries hasMatch (calls turns (n + 1))).2 = true
  once : ∀ n, (s.handleJournalEntries hasMatch (calls turns n)).1.evaluated =
    s.evaluated ++ List.range' (s.position + 1) (entriesRead turns n)

variable {hasMatch}

theorem turn_position (s : Spy) (t : Turn) :
    (s.turn hasMatch t).position = if 0 < t.result then s.position + 1 else s.position := by
  unfold turn
  dsimp only
  split <;> rfl

theorem turn_evaluated (s : Spy) (t : Turn) :
    (s.turn hasMatch t).evaluated = s.evaluated ++ [(s.turn hasMatch t).position] := by
  unfold turn
  dsimp only
  split <;> rfl

/-- The turns up to the first 0. -/
theorem handleJournalEntries_eq (turns : List Turn) (s : Spy) : s.handleJournalEntries hasMatch turns =
    ((turns.takeWhile fun t => decide (t.result ≠ 0)).foldl (turn hasMatch) s, turns.any fun t => t.result = 0) := by
  induction turns generalizing s with
  | nil => rfl
  | cons t rest ih => by_cases h : t.result = 0 <;> simp [handleJournalEntries, h, ih]

/-- A run of new entries. -/
theorem foldl_entries {turns : List Turn} (h : ∀ t ∈ turns, 0 < t.result) (s : Spy) :
    (turns.foldl (turn hasMatch) s).position = s.position + turns.length ∧
      (turns.foldl (turn hasMatch) s).evaluated = s.evaluated ++ List.range' (s.position + 1) turns.length := by
  induction turns generalizing s with
  | nil => simp
  | cons t rest ih =>
    obtain ⟨ht, hrest⟩ := List.forall_mem_cons.mp h
    obtain ⟨hpos, heval⟩ := ih hrest (s.turn hasMatch t)
    have hnext : (s.turn hasMatch t).position = s.position + 1 := by rw [turn_position, if_pos ht]
    rw [List.foldl_cons, hpos, heval, turn_evaluated, hnext]
    constructor
    · rw [List.length_cons]
      omega
    · simp [List.range'_succ]

theorem calls_succ (turns : Nat → Turn) (n : Nat) : calls turns (n + 1) = calls turns n ++ [turns n] := by
  simp [calls, List.range_succ]

theorem mem_calls {turns : Nat → Turn} {n : Nat} {t : Turn} : t ∈ calls turns n ↔ ∃ k < n, turns k = t := by
  simp [calls]

/-- Only new entries come before a 0. -/
theorem takeWhile_calls {turns : Nat → Turn}
    (h : ∀ n, (∀ k < n, 0 < (turns k).result) → 0 ≤ (turns n).result) (n : Nat) :
    (calls turns n).takeWhile (fun t => decide (t.result ≠ 0)) =
      (calls turns n).takeWhile fun t => decide (0 < t.result) := by
  induction n with
  | zero => rfl
  | succ n ih =>
    rw [calls_succ]
    by_cases hall : ∀ k < n, 0 < (turns k).result
    · have hpos : ∀ t ∈ calls turns n, decide (0 < t.result) = true := by simpa [calls] using hall
      have hne : ∀ t ∈ calls turns n, decide (t.result ≠ 0) = true := by
        intro t ht
        have := of_decide_eq_true (hpos t ht)
        simp only [decide_eq_true_eq]
        omega
      have hiff : (turns n).result ≠ 0 ↔ 0 < (turns n).result := by
        have := h n hall
        omega
      rw [List.takeWhile_append_of_pos hne, List.takeWhile_append_of_pos hpos]
      simp only [List.takeWhile_cons, List.takeWhile_nil, hiff]
    · have hstop : ∃ t ∈ calls turns n, ¬0 < t.result := by
        simp only [not_forall] at hall
        obtain ⟨k, hk, hle⟩ := hall
        exact ⟨turns k, mem_calls.mpr ⟨k, hk, rfl⟩, hle⟩
      have hlen : ((calls turns n).takeWhile fun t => decide (0 < t.result)).length ≠ (calls turns n).length := by
        intro hlen
        obtain ⟨t, ht, hle⟩ := hstop
        rw [← (List.takeWhile_prefix _).eq_of_length hlen] at ht
        exact hle (of_decide_eq_true (List.mem_takeWhile_imp (p := fun t : Turn => decide (0 < t.result)) ht))
      rw [List.takeWhile_append, List.takeWhile_append, ih, if_neg hlen, if_neg hlen]

/-- Where the loop is after new entries and an error: the last entry was compared twice. -/
theorem evaluated_error {turns : Nat → Turn} {n : Nat} (hall : ∀ k < n, 0 < (turns k).result)
    (herror : (turns n).result < 0) (s : Spy) :
    (s.handleJournalEntries hasMatch (calls turns (n + 1))).1.evaluated =
      s.evaluated ++ List.range' (s.position + 1) n ++ [s.position + n] := by
  have hpos : ∀ t ∈ calls turns n, 0 < t.result := by simpa [calls] using hall
  have htake : (calls turns (n + 1)).takeWhile (fun t => decide (t.result ≠ 0)) = calls turns n ++ [turns n] := by
    rw [calls_succ]
    refine List.takeWhile_eq_self_iff.mpr fun t ht => decide_eq_true ?_
    rcases List.mem_append.mp ht with ht | ht
    · exact (hpos t ht).ne'
    · rw [List.mem_singleton.mp ht]
      exact herror.ne
  obtain ⟨hposition, hevaluated⟩ := @foldl_entries hasMatch _ hpos s
  have hlen : (calls turns n).length = n := by simp [calls]
  rw [handleJournalEntries_eq, htake, List.foldl_append]
  simp only [List.foldl_cons, List.foldl_nil]
  rw [turn_evaluated, turn_position, if_neg (by omega), hevaluated, hposition, hlen]

/-- The loop reads each entry once, and ends, when the first result that is not positive is
no error. -/
theorem readsOnce_iff (s : Spy) (turns : Nat → Turn) :
    s.ReadsOnce hasMatch turns ↔ ∀ n, (∀ k < n, 0 < (turns k).result) → 0 ≤ (turns n).result := by
  constructor
  · intro h n hall
    by_contra herror
    have honce := h.once (n + 1)
    have hread : entriesRead turns (n + 1) = n := by
      have hpos : ∀ t ∈ calls turns n, decide (0 < t.result) = true := by simpa [calls] using hall
      have hlast : ¬0 < (turns n).result := by omega
      rw [entriesRead, calls_succ, List.takeWhile_append_of_pos hpos, List.takeWhile_cons]
      simp [hlast, calls]
    rw [evaluated_error hall (by omega) s, hread] at honce
    have hlen := congrArg List.length honce
    simp at hlen
  · intro h
    refine ⟨fun n hn => ?_, fun n => ?_⟩
    · rw [handleJournalEntries_eq]
      -- The first result that is not positive is 0.
      obtain ⟨m, hm, hmin⟩ : ∃ m, (turns m).result ≤ 0 ∧ ∀ k < m, 0 < (turns k).result :=
        have hex : ∃ m, (turns m).result ≤ 0 := ⟨n, hn⟩
        ⟨Nat.find hex, Nat.find_spec hex, fun k hk => Int.not_le.mp (Nat.find_min hex hk)⟩
      have hle : m ≤ n := by
        by_contra hlt
        have := hmin n (by omega)
        omega
      refine List.any_eq_true.mpr ⟨turns m, mem_calls.mpr ⟨m, by omega, rfl⟩, decide_eq_true ?_⟩
      have := h m hmin
      omega
    · have hpos : ∀ t ∈ (calls turns n).takeWhile fun t => decide (0 < t.result), 0 < t.result := fun t ht =>
        of_decide_eq_true (List.mem_takeWhile_imp (p := fun t : Turn => decide (0 < t.result)) ht)
      rw [handleJournalEntries_eq, takeWhile_calls h]
      exact (foldl_entries hpos s).2

/-- An expression of the example configuration. -/
def wlan : Expression := ⟨"wlan".toList, {("MESSAGE".toList, "wlan:".toList)}, 0⟩

/-- Each call of `sd_journal_next` fails. -/
def failing (_ : Nat) : Turn := ⟨-1, fun _ => none, 0, false⟩

/-- The loop goes on for ever then. -/
theorem error_forever : ¬(new [wlan]).ReadsOnce (fun _ _ => true) failing ∧
    ∀ n, ((new [wlan]).handleJournalEntries (fun _ _ => true) (calls failing n)).2 = false := by
  have hrun (n : Nat) : ((new [wlan]).handleJournalEntries (fun _ _ => true) (calls failing n)).2 = false := by
    rw [handleJournalEntries_eq]
    simp [calls, failing]
  refine ⟨fun h => ?_, hrun⟩
  have hstop := h.stops 0 (by decide)
  rw [hrun] at hstop
  cases hstop

end Spy

end CrashReporter.JournalSpy
