import CrashReporter.Monitor.FileName
import CrashReporter.Windows
import Mathlib.Algebra.Ring.Int.Defs
import Mathlib.Algebra.Ring.Nat

/-! Which reports are deleted as duplicates.

The reports of one binary and signal fall into windows: the first report opens one, and
every report that comes more than a day after the window was opened opens the next. A
report is to be deleted when its position in its window is greater than the maximum.
`checkForDuplicates` keeps the window of each kind of report as an entry of its list. -/
namespace CrashReporter.Monitor
open HandledRichCore (wrap)

/-- What makes reports duplicates of each other: the binary and the signal. -/
abbrev Key := Text × Int

def HandledRichCore.key (handled : HandledRichCore) : Key := (handled.binaryName, handled.signalNumber)

/-- A report comes. -/
structure Arrival where
  path : Text
  time : Int
deriving DecidableEq

namespace Arrival

/-- The key of a report that includes a crash. -/
def key (r : Arrival) : Option Key :=
  if reportIncludesCrash r.path then some (HandledRichCore.new r.path r.time).key else none

end Arrival

/-- `checkForDuplicates` for one report after the other: its answers, and the handled list. -/
def checkAll (autoDeleteMaxSimilarCores : Int32) : List Arrival → List HandledRichCore →
    List (Arrival × Bool) × List HandledRichCore
  | [], handled => ([], handled)
  | r :: rest, handled =>
    let checked := checkForDuplicates autoDeleteMaxSimilarCores.toInt r.time r.path handled
    let others := checkAll autoDeleteMaxSimilarCores rest checked.2
    ((r, checked.1) :: others.1, others.2)

/-- When the reports of `k` came. -/
def times (k : Key) (arrivals : List Arrival) : List Int :=
  arrivals.filterMap fun r => if r.key = some k then some r.time else none

/-- The answers for the reports of `k`. -/
def answers (k : Key) (checked : List (Arrival × Bool)) : List Bool :=
  checked.filterMap fun r => if r.1.key = some k then some r.2 else none

/-- More than a day after the window was opened. -/
def late (opened time : Int) : Bool := opened + HandledRichCore.day < time

/-- The entry of the handled list. -/
def entry (k : Key) (handled : List HandledRichCore) : Option HandledRichCore :=
  handled.find? (·.key = k)

/-- The reports of each window beyond the first `maximum` are deleted and no others, the handled
list has one entry for each key, and a report of another key, or without a crash, changes
nothing. -/
structure KeepsFirst (maximum : Int32) (arrivals : List Arrival) : Prop where
  deletes : ∀ k, answers k (checkAll maximum arrivals []).1 =
    (Windows.positions late (times k arrivals)).map fun p : Nat => decide (maximum.toInt < p)
  nodup : ∀ seen later, arrivals = seen ++ later → ((checkAll maximum seen []).2.map (·.key)).Nodup
  others : ∀ seen r later k, arrivals = seen ++ r :: later → r.key ≠ some k →
    entry k (checkAll maximum (seen ++ [r]) []).2 = entry k (checkAll maximum seen []).2
  crashless : ∀ r ∈ (checkAll maximum arrivals []).1, r.1.key = none → r.2 = false

/-! ### One report -/

section Step
variable {maximum now : Int} {rCore e : HandledRichCore} {handled : List HandledRichCore}

theorem same_iff (e rCore : HandledRichCore) : e.same rCore = true ↔ e.key = rCore.key := by
  simp [HandledRichCore.same, HandledRichCore.key, Prod.ext_iff]

theorem again_key (e : HandledRichCore) (now : Int) : (e.again now).key = e.key := by
  unfold HandledRichCore.again HandledRichCore.key
  dsimp only
  split <;> rfl

theorem findDuplicate_none (h : entry rCore.key handled = none) :
    findDuplicate maximum now rCore handled = none := by
  induction handled with
  | nil => rfl
  | cons first rest ih =>
    have hkeys := List.find?_eq_none.mp h
    have hne : first.same rCore = false := by
      rw [Bool.eq_false_iff, Ne, same_iff]
      simpa using hkeys first (List.mem_cons_self ..)
    have hrest : entry rCore.key rest = none :=
      List.find?_eq_none.mpr fun e he => hkeys e (List.mem_cons_of_mem _ he)
    simp [findDuplicate, hne, ih hrest]

/-- The entry counts one more report, and everything else stays. -/
theorem findDuplicate_some (h : entry rCore.key handled = some e) : ∃ handled',
    findDuplicate maximum now rCore handled = some (decide ((e.again now).count > maximum), handled') ∧
      handled'.map (·.key) = handled.map (·.key) ∧ entry rCore.key handled' = some (e.again now) ∧
        ∀ k ≠ rCore.key, entry k handled' = entry k handled := by
  induction handled with
  | nil => cases h
  | cons first rest ih =>
    by_cases hs : first.key = rCore.key
    · obtain rfl : first = e := by simpa [entry, hs] using h
      refine ⟨first.again now :: rest, ?_, ?_, ?_, fun k hk => ?_⟩
      · simp [findDuplicate, (same_iff _ _).mpr hs]
      · simp [again_key]
      · simp [entry, again_key, hs]
      · simp [entry, again_key, hs, hk.symm]
    · have hrest : entry rCore.key rest = some e := by simpa [entry, hs] using h
      obtain ⟨handled', hfind, hkeys, hentry, hothers⟩ := ih hrest
      have hne : first.same rCore = false := by rw [Bool.eq_false_iff, Ne, same_iff]; exact hs
      refine ⟨first :: handled', ?_, ?_, ?_, fun k hk => ?_⟩
      · simp [findDuplicate, hne, hfind]
      · simp [hkeys]
      · rw [← hentry]
        simp [entry, hs]
      · by_cases hfirst : first.key = k
        · simp [entry, hfirst]
        · simpa [entry, hfirst] using hothers k hk

/-- `handled` has the window of `k`, when there is one: when it was opened, and how many
reports it has. -/
def Tracks (handled : List HandledRichCore) (k : Key) (w : Option (Int × Nat)) : Prop :=
  entry k handled = w.map fun w => ⟨k.1, k.2, wrap w.2, w.1⟩

theorem wrap_of_lt {n : Nat} (h : n < 2 ^ 31) : wrap n = n :=
  Int.bmod_eq_of_le (by omega) (by omega)

theorem wrap_succ (n : Nat) : wrap (wrap n + 1) = wrap (n + 1) := Int.bmod_add_bmod ..

theorem again_tracks (k : Key) (opened : Int) (n : Nat) (now : Int) :
    HandledRichCore.again ⟨k.1, k.2, wrap n, opened⟩ now =
      ⟨k.1, k.2, wrap (Windows.enter late (some (opened, n)) now).2,
        (Windows.enter late (some (opened, n)) now).1⟩ := by
  by_cases h : opened + HandledRichCore.day < now
  · simp [HandledRichCore.again, Windows.enter, late, h]
  · simp [HandledRichCore.again, Windows.enter, late, h, wrap_succ]

/-- The answer for a report of a key whose window is `w`. -/
def answer (maximum : Int32) (w : Option (Int × Nat)) (now : Int) : Bool :=
  w.isSome && decide (maximum.toInt < wrap (Windows.enter late w now).2)

variable {r : Arrival} {k : Key}

theorem checkForDuplicates_crashless {maximum : Int} (h : r.key = none) :
    checkForDuplicates maximum r.time r.path handled = (false, handled) := by
  unfold Arrival.key at h
  split at h
  · cases h
  · simp [checkForDuplicates, *]

/-- A report with a crash, of the first of its key or of one more. -/
theorem checkForDuplicates_crash (handled : List HandledRichCore) (maximum : Int) (h : r.key = some k) :
    (entry k handled = none ∧ checkForDuplicates maximum r.time r.path handled =
      (false, handled ++ [⟨k.1, k.2, 1, r.time⟩])) ∨
    ∃ e handled', entry k handled = some e ∧ checkForDuplicates maximum r.time r.path handled =
      (decide ((e.again r.time).count > maximum), handled') ∧
        handled'.map (·.key) = handled.map (·.key) ∧ entry k handled' = some (e.again r.time) ∧
          ∀ k' ≠ k, entry k' handled' = entry k' handled := by
  unfold Arrival.key at h
  split at h
  case isFalse => cases h
  rename_i hcrash
  obtain rfl := Option.some.inj h
  unfold checkForDuplicates
  rw [if_neg (by simp [hcrash])]
  dsimp only
  cases he : entry (HandledRichCore.new r.path r.time).key handled with
  | none =>
    rw [findDuplicate_none he]
    exact .inl ⟨rfl, rfl⟩
  | some e =>
    obtain ⟨handled', hfind, hspec⟩ := @findDuplicate_some maximum r.time _ _ _ he
    rw [hfind]
    exact .inr ⟨e, handled', rfl, rfl, hspec⟩

/-- Every key keeps one entry, and only the entry of the report's key changes. -/
theorem checkForDuplicates_frame (maximum : Int) (hnodup : (handled.map (·.key)).Nodup) :
    ((checkForDuplicates maximum r.time r.path handled).2.map (·.key)).Nodup ∧ ∀ k, r.key ≠ some k →
      entry k (checkForDuplicates maximum r.time r.path handled).2 = entry k handled := by
  cases hr : r.key with
  | none =>
    rw [checkForDuplicates_crashless hr]
    exact ⟨hnodup, fun _ _ => rfl⟩
  | some k =>
    rcases checkForDuplicates_crash handled maximum hr with
      ⟨he, heq⟩ | ⟨e, handled', -, heq, hkeys, -, hothers⟩
    · rw [heq]
      refine ⟨?_, fun k' hk' => ?_⟩
      · rw [List.map_append, List.nodup_append]
        refine ⟨hnodup, by simp, fun k' hk' k'' hk'' hne => ?_⟩
        obtain ⟨first, hfirst, rfl⟩ := List.mem_map.mp hk'
        obtain rfl := List.mem_singleton.mp hk''
        exact List.find?_eq_none.mp he first hfirst (decide_eq_true hne)
      · have hne : k ≠ k' := fun h => hk' (congrArg some h)
        simp [entry, HandledRichCore.key, hne]
    · rw [heq, hkeys]
      exact ⟨hnodup, fun k' hk' => hothers k' fun h => hk' (congrArg some h.symm)⟩

/-- A report is counted in the window of its key. -/
theorem checkForDuplicates_tracks (maximum : Int32) (h : r.key = some k) {w : Option (Int × Nat)}
    (hw : Tracks handled k w) :
    (checkForDuplicates maximum.toInt r.time r.path handled).1 = answer maximum w r.time ∧
      Tracks (checkForDuplicates maximum.toInt r.time r.path handled).2 k
        (some (Windows.enter late w r.time)) := by
  rcases checkForDuplicates_crash handled maximum.toInt h with
    ⟨he, heq⟩ | ⟨e, handled', he, heq, -, hentry, -⟩
  · obtain rfl : w = none := by
      rw [Tracks, he] at hw
      simpa using hw.symm
    rw [heq]
    refine ⟨by simp [answer], ?_⟩
    rw [Tracks, entry, List.find?_append, show handled.find? _ = none from he]
    have hone : wrap 1 = 1 := by decide
    simp [HandledRichCore.key, Windows.enter, hone]
  · rw [Tracks, he] at hw
    obtain ⟨⟨opened, n⟩, rfl, rfl⟩ := Option.map_eq_some_iff.mp hw.symm
    rw [again_tracks] at heq hentry
    rw [heq]
    exact ⟨by simp [answer], hentry⟩

end Step

/-! ### All reports -/

section Run
variable {maximum : Int32} {k : Key}

theorem checkAll_append (seen later : List Arrival) (handled : List HandledRichCore) :
    (checkAll maximum (seen ++ later) handled).2 =
      (checkAll maximum later (checkAll maximum seen handled).2).2 := by
  induction seen generalizing handled with
  | nil => rfl
  | cons r rest ih => exact ih _

theorem checkAll_nodup (arrivals : List Arrival) {handled : List HandledRichCore}
    (hnodup : (handled.map (·.key)).Nodup) : ((checkAll maximum arrivals handled).2.map (·.key)).Nodup := by
  induction arrivals generalizing handled with
  | nil => exact hnodup
  | cons r rest ih => exact ih (checkForDuplicates_frame _ hnodup).1

theorem checkAll_crashless (arrivals : List Arrival) (handled : List HandledRichCore) :
    ∀ r ∈ (checkAll maximum arrivals handled).1, r.1.key = none → r.2 = false := by
  induction arrivals generalizing handled with
  | nil => exact nofun
  | cons first rest ih =>
    intro r hr hkey
    obtain rfl | hr := List.mem_cons.mp hr
    · exact congrArg Prod.fst (checkForDuplicates_crashless hkey)
    · exact ih _ r hr hkey

/-- The answers along a window that is open, or is to be opened. -/
def verdicts (maximum : Int32) : Option (Int × Nat) → List Int → List Bool
  | _, [] => []
  | w, time :: rest => answer maximum w time :: verdicts maximum (some (Windows.enter late w time)) rest

theorem checkAll_answers (arrivals : List Arrival) {handled : List HandledRichCore}
    (hnodup : (handled.map (·.key)).Nodup) {w : Option (Int × Nat)} (hw : Tracks handled k w) :
    answers k (checkAll maximum arrivals handled).1 = verdicts maximum w (times k arrivals) := by
  induction arrivals generalizing handled w with
  | nil => rfl
  | cons r rest ih =>
    obtain ⟨hnodup', hothers⟩ := checkForDuplicates_frame (r := r) maximum.toInt hnodup
    by_cases hr : r.key = some k
    · obtain ⟨hanswer, hw'⟩ := checkForDuplicates_tracks maximum hr hw
      simp only [checkAll, answers, times, List.filterMap_cons, hr, if_true, verdicts, hanswer]
      exact congrArg _ (ih hnodup' hw')
    · have hw' : Tracks (checkForDuplicates maximum.toInt r.time r.path handled).2 k w := by
        rw [Tracks, hothers k hr]
        exact hw
      simp only [checkAll, answers, times, List.filterMap_cons, hr, if_false]
      exact ih hnodup' hw'

/-- Past the first report of a key, the answers compare the positions as `int`s. -/
theorem verdicts_some (w : Int × Nat) (l : List Int) : verdicts maximum (some w) l =
    (Windows.count late (some w) l).map fun p : Nat => decide (maximum.toInt < wrap p) := by
  induction l generalizing w with
  | nil => rfl
  | cons time rest ih => simp [verdicts, Windows.count, answer, ih]

/-- The answers are right when the first report is to be kept and no window is too long. -/
theorem verdicts_iff (l : List Int) : verdicts maximum none l =
      ((Windows.positions late l).map fun p : Nat => decide (maximum.toInt < p)) ↔
    (l ≠ [] → 0 < maximum) ∧ ∀ w ∈ Windows.windows late l, w.length < 2 ^ 31 := by
  have hmax := maximum.toInt_lt
  have hmin := maximum.le_toInt
  cases l with
  | nil => simp [verdicts, Windows.positions, Windows.windows_nil]
  | cons time rest =>
    have hcount : Windows.positions late (time :: rest) =
        1 :: Windows.count late (some (time, 1)) rest := (Windows.count_none late _).symm
    have hzero : 0 < maximum ↔ ¬maximum.toInt < (1 : Nat) := by
      rw [Int32.lt_iff_toInt_lt]
      simp
      omega
    have hfirst : answer maximum none time = false := by simp [answer]
    rw [verdicts, hcount, List.map_cons, List.cons.injEq, hfirst, eq_comm, decide_eq_false_iff_not, ← hzero]
    simp only [ne_eq, List.cons_ne_nil, not_false_eq_true, forall_const]
    refine and_congr_right fun _ => ?_
    rw [Windows.enter, verdicts_some, List.map_inj_left]
    constructor
    · intro hsame w hw
      by_contra hlong
      have hp : 2 ^ 31 ∈ Windows.positions late (time :: rest) :=
        (Windows.mem_positions late).mpr ⟨w, hw, by decide, by omega⟩
      rw [hcount] at hp
      have hp := hsame _ ((List.mem_cons.mp hp).resolve_left (by decide))
      have hwrap : wrap ((2 ^ 31 : Nat) : Int) = -2 ^ 31 := by decide
      rw [hwrap, decide_eq_decide] at hp
      have := hp.mpr (by simpa using hmax)
      omega
    · intro hshort p hp
      have hp : p ∈ Windows.positions late (time :: rest) := by
        rw [hcount]
        exact List.mem_cons_of_mem _ hp
      obtain ⟨w, hw, -, hle⟩ := (Windows.mem_positions late).mp hp
      have hlt := hshort w hw
      rw [wrap_of_lt (Nat.lt_of_le_of_lt hle hlt)]

end Run

/-- The first reports of each window are kept, and those beyond the maximum deleted, when
the maximum is not 0 and no window has 2^31 reports. -/
theorem keepsFirst_iff (maximum : Int32) (arrivals : List Arrival) : KeepsFirst maximum arrivals ↔
    ((∃ r ∈ arrivals, reportIncludesCrash r.path = true) → 0 < maximum) ∧
      ∀ k, ∀ w ∈ Windows.windows late (times k arrivals), w.length < 2 ^ 31 := by
  have hnodup : (([] : List HandledRichCore).map (·.key)).Nodup := List.nodup_nil
  have htracks (k : Key) : Tracks [] k none := rfl
  have hcrash : (∃ r ∈ arrivals, reportIncludesCrash r.path = true) ↔ ∃ k, times k arrivals ≠ [] := by
    constructor
    · rintro ⟨r, hr, hcrash⟩
      have hkey : r.key = some (HandledRichCore.new r.path r.time).key := if_pos hcrash
      exact ⟨_, List.ne_nil_of_mem (List.mem_filterMap.mpr ⟨r, hr, if_pos hkey⟩)⟩
    · rintro ⟨k, hne⟩
      obtain ⟨time, htime⟩ := List.exists_mem_of_ne_nil _ hne
      obtain ⟨r, hr, hkey⟩ := List.mem_filterMap.mp htime
      refine ⟨r, hr, ?_⟩
      by_contra hcrash
      simp [Arrival.key, hcrash] at hkey
  have hanswers : (∀ k, answers k (checkAll maximum arrivals []).1 =
      (Windows.positions late (times k arrivals)).map fun p : Nat => decide (maximum.toInt < p)) ↔
        (∀ k, times k arrivals ≠ [] → 0 < maximum) ∧
          ∀ k, ∀ w ∈ Windows.windows late (times k arrivals), w.length < 2 ^ 31 := by
    rw [← forall_and]
    refine forall_congr' fun k => ?_
    rw [checkAll_answers arrivals hnodup (htracks k), verdicts_iff]
  rw [hcrash, exists_imp, ← hanswers]
  refine ⟨KeepsFirst.deletes, fun h => ⟨h, ?_, ?_, checkAll_crashless arrivals []⟩⟩
  · rintro seen later rfl
    exact checkAll_nodup seen hnodup
  · rintro seen r later k rfl hr
    rw [checkAll_append]
    exact (checkForDuplicates_frame _ (checkAll_nodup seen hnodup)).2 k hr

/-- The only report of an application. -/
def onlyReport : Arrival := ⟨"/var/cache/core-dumps/app-1234-11-4321.rcore.lzo".toList, 0⟩

/-- With a maximum of 0 the first report of all is kept. -/
theorem first_report_kept : answers ("app".toList, 11) (checkAll 0 [onlyReport] []).1 = [false] ∧
    ¬KeepsFirst 0 [onlyReport] := by
  have htold : answers ("app".toList, 11) (checkAll 0 [onlyReport] []).1 = [false] := by decide +kernel
  refine ⟨htold, fun h => ?_⟩
  have hdeletes := h.deletes ("app".toList, 11)
  rw [htold, ← Windows.count_none, show times ("app".toList, 11) [onlyReport] = [0] by decide +kernel] at hdeletes
  exact absurd hdeletes (by decide)

end CrashReporter.Monitor
