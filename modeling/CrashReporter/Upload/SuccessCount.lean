import CrashReporter.Daemon.CoreMonitoring
import CrashReporter.Upload.AutoUploader

/-! The running count of successful uploads.

Every batch ends in engineFinished() of an uploader process, often a new one; the count
is carried from one to the next by the saved state. `batches` is the sequence of batches
since the daemon was started, with what each of them passed to engineFinished(). -/
namespace CrashReporter.Upload.SuccessCount
open Daemon

/-- A notification that is published, with its item count. -/
inductive Notice where
  | failed (failures : Int32)
  | succeeded (sent : Int32)
deriving DecidableEq

/-- One call of engineFinished(). -/
structure Batch where
  sent : Int32
  total : Int32
  /-- The ids of the two notifications afterwards. -/
  successId : UInt32
  failedId : UInt32
  /-- By a process that was started for it. -/
  newProcess : Bool
deriving DecidableEq

/-- The notifications of `engineFinished` and what it stores, with a local `sent` that is
added to in one branch and stored in any case. -/
def engineFinished (settings : PrivacySettingsModel) (b : Batch) (state : CReporterSavedState) :
    CReporterSavedState × List Notice :=
  if settings.notificationsEnabled then
    let failed := if b.total > b.sent then [.failed (b.total - b.sent)] else []
    let sent := if b.sent > 0 then b.sent + state.uploadSuccessCount else b.sent
    let succeeded := if b.sent > 0 then [.succeeded sent] else []
    let state := (state.setUploadSuccessNotificationId b.successId).1
    let state := (state.setUploadFailedNotificationId b.failedId).1
    ((state.setUploadSuccessCount sent).1, failed ++ succeeded)
  else (state, [])

/-- The settings and the saved state, what the last batch published, and what all
batches have sent, latest first. -/
structure History where
  settings : PrivacySettingsModel
  savedState : CReporterSavedState
  notices : List Notice
  sent : List Int32

namespace History

/-- The saved state as the process of the batch finds it. -/
def opened (b : Batch) (h : History) : CReporterSavedState :=
  if b.newProcess then h.savedState.reread else h.savedState

def finish (b : Batch) (h : History) : History :=
  let (savedState, notices) := engineFinished h.settings b (h.opened b)
  {h with savedState := savedState, notices := notices, sent := b.sent :: h.sent}

/-- The daemon has just been started. -/
def started (d : CReporterDaemon) : History := ⟨d.settings, d.savedState, [], []⟩

def count (h : History) : Int32 := h.savedState.uploadSuccessCount

def total (h : History) : Int := (h.sent.map Int32.toInt).sum

/-- The count is the sum of the batches, and so is the one in a success notification. -/
structure Tallies (h : History) : Prop where
  count : h.count.toInt = h.total
  shown : ∀ n, .succeeded n ∈ h.notices → n.toInt = h.total

end History

def batches : Machine History Batch := ⟨fun h b => some (h.finish b)⟩

/-! ### One batch -/

section Batch
variable {h : History} {b : Batch} {n : Int32}

theorem opened_counts (hc : h.savedState.Counts n) : (h.opened b).Counts n := by
  unfold History.opened
  split
  · exact hc.reread
  · exact hc

/-- The count that a batch leaves, and the one it shows. -/
theorem finish_count (hs : h.settings.notificationsEnabled = true) (hc : h.savedState.Counts n) :
    (h.finish b).savedState.Counts (if b.sent > 0 then b.sent + n else b.sent) := by
  have hopened := (opened_counts (b := b) hc).uploadSuccessCount
  simp only [History.finish, engineFinished, hs, if_true, hopened]
  exact CReporterSavedState.counts_set

theorem finish_shown (hs : h.settings.notificationsEnabled = true) (hc : h.savedState.Counts n)
    {m : Int32} (hm : .succeeded m ∈ (h.finish b).notices) : b.sent > 0 ∧ m = b.sent + n := by
  have hopened := (opened_counts (b := b) hc).uploadSuccessCount
  simp only [History.finish, engineFinished, hs, if_true, hopened, List.mem_append] at hm
  rcases hm with hm | hm
  · split at hm
    · exact absurd (List.mem_singleton.mp hm) (by simp)
    · exact nomatch hm
  · split at hm
    · rename_i hpos
      exact ⟨hpos, by simpa using hm⟩
    · exact nomatch hm

theorem finish_total : (h.finish b).total = b.sent.toInt + h.total := rfl

/-- Nothing is lost: a batch without a success leaves a count of 0, and the sum of the
others fits. -/
def Carried (h : History) (b : Batch) : Prop :=
  if 0 < b.sent then b.sent.toInt + h.count.toInt < 2 ^ 31 else h.count = 0

instance (h : History) (b : Batch) : Decidable (Carried h b) :=
  inferInstanceAs
    (Decidable (if 0 < b.sent then b.sent.toInt + h.count.toInt < 2 ^ 31 else h.count = 0))

/-- The addition of `int`s is that of integers as long as it fits. -/
theorem toInt_add_iff {a c : Int32} (ha : 0 < a) :
    (a + c).toInt = a.toInt + c.toInt ↔ a.toInt + c.toInt < 2 ^ 31 := by
  have hpos : 0 < a.toInt := by simpa using Int32.lt_iff_toInt_lt.mp ha
  have hlower := c.le_toInt
  have hupper := (a + c).toInt_lt
  constructor
  · intro heq
    omega
  · intro hlt
    rw [Int32.toInt_add]
    exact Int.bmod_eq_of_le (by omega) (by omega)

/-- The count after a batch is the sum exactly when the batch is carried. -/
theorem finish_count_iff (hs : h.settings.notificationsEnabled = true)
    (hc : h.savedState.Counts n) (hn : n.toInt = h.total) :
    (h.finish b).count.toInt = (h.finish b).total ↔ Carried h b := by
  have hcount : h.count = n := hc.uploadSuccessCount
  have hafter : (h.finish b).count = if b.sent > 0 then b.sent + n else b.sent :=
    (finish_count hs hc).uploadSuccessCount
  rw [hafter, finish_total, ← hn, Carried, hcount]
  by_cases hpos : 0 < b.sent
  · rw [if_pos hpos, if_pos hpos]
    exact toInt_add_iff hpos
  · rw [if_neg hpos, if_neg hpos]
    constructor
    · intro heq
      have hzero : n.toInt = (0 : Int32).toInt := by
        rw [Int32.toInt_zero]
        omega
      exact Int32.toInt_inj.mp hzero
    · rintro rfl
      rw [Int32.toInt_zero, Int.add_zero]

end Batch

/-- The uploader process, which counts without a limit, stores the same number while it
fits. -/
theorem notifyFinished_count {s : State} {settings : PrivacySettingsModel} {b : Batch}
    {state : CReporterSavedState} {sent total : Nat}
    (hn : s.env.settings.notificationsEnabled = settings.notificationsEnabled)
    (hs : b.sent.toInt = sent) (hc : state.uploadSuccessCount.toInt = s.uploadSuccessCount)
    (hfits : (sent + s.uploadSuccessCount : Int) < 2 ^ 31) :
    (engineFinished settings b state).1.uploadSuccessCount.toInt =
      (AutoUploader.notifyFinished sent total s).uploadSuccessCount := by
  have hpos : b.sent > 0 ↔ sent > 0 := by
    rw [gt_iff_lt, Int32.lt_iff_toInt_lt, Int32.toInt_zero, hs]
    omega
  unfold engineFinished AutoUploader.notifyFinished
  rw [hn]
  split
  · by_cases h : b.sent > 0
    · have hsum := (toInt_add_iff (c := state.uploadSuccessCount) h).mpr (by rw [hs, hc]; exact hfits)
      have hsum' : (b.sent + state.uploadSuccessCount).toInt = sent + s.uploadSuccessCount := by
        rw [hsum, hs, hc]
      simp only [CReporterSavedState.uploadSuccessCount_set, h, hpos.mp h, if_true, hsum']
      split <;> rfl
    · simp only [CReporterSavedState.uploadSuccessCount_set, h, hpos.not.mp h, if_false]
      exact hs
  · exact hc

/-! ### All batches -/

/-- The count is stored, and is the sum so far. -/
structure Keeping (h : History) : Prop where
  notifies : h.settings.notificationsEnabled = true
  counts : h.savedState.Counts h.count
  sum : h.count.toInt = h.total

theorem finish_keeping {h : History} {b : Batch} (hk : Keeping h) (hc : Carried h b) :
    Keeping (h.finish b) ∧ (h.finish b).Tallies := by
  have hsum := (finish_count_iff hk.notifies hk.counts hk.sum).mpr hc
  have hcounts := finish_count (b := b) hk.notifies hk.counts
  have hcount : (h.finish b).count = _ := hcounts.uploadSuccessCount
  refine ⟨⟨hk.notifies, hcount ▸ hcounts, hsum⟩, hsum, fun m hm => ?_⟩
  obtain ⟨hpos, rfl⟩ := finish_shown hk.notifies hk.counts hm
  rw [if_pos hpos] at hcount
  rw [← hcount]
  exact hsum

/-- initiateDaemon() starts with a count of 0. -/
theorem started_keeping {d d' : CReporterDaemon} {u : CReporterDaemon.Startup}
    (h : d.initiateDaemon u = some d') (hs : d'.settings.notificationsEnabled = true) :
    Keeping (History.started d') := by
  have hcounts : d'.savedState.Counts 0 := by
    obtain rfl := CReporterDaemon.initiateDaemon_some h
    unfold CReporterDaemon.handleStoredCores
    split
    · split <;> exact CReporterSavedState.counts_set
    · split <;> exact CReporterSavedState.counts_set
  have hzero : (History.started d').count = 0 := hcounts.uploadSuccessCount
  exact ⟨hs, by rwa [hzero], by rw [hzero]; rfl⟩

/-- **The running count is the sum of the batches, and each success notification shows
it, exactly when every batch is carried.** -/
theorem success_count_is_sum (d d' : CReporterDaemon) (u : CReporterDaemon.Startup)
    (h : d.initiateDaemon u = some d') (hs : d'.settings.notificationsEnabled = true)
    (bs : List Batch) : (∀ x ∈ batches.visits bs (History.started d'), x.Tallies) ↔
      batches.Within Carried bs (History.started d') := by
  refine Machine.visits_iff_within (I := Keeping) ?_ ?_ (started_keeping h hs)
  · intro x b y hx hc hy
    obtain rfl := Option.some.inj hy
    exact finish_keeping hx hc
  · intro x b y hx hc hy ht
    obtain rfl := Option.some.inj hy
    exact hc ((finish_count_iff hx.notifies hx.counts hx.sum).mp ht.count)

/-- Two batches with a success, the second by a new process. -/
def twoBatches : List Batch := [⟨2, 3, 7, 8, false⟩, ⟨4, 4, 7, 8, true⟩]

theorem success_count_is_sum_twice : batches.Within Carried twoBatches (History.started initiated) ∧
    ∀ x ∈ batches.visits twoBatches (History.started initiated), x.Tallies := by
  have hw : batches.Within Carried twoBatches (History.started initiated) :=
    .of_check (g := fun x b => decide (Carried x b)) (fun _ _ => of_decide_eq_true) (by decide)
  exact ⟨hw, (success_count_is_sum installed initiated quietStartup (Option.some_get _).symm (by decide) _).mpr hw⟩

/-- A batch that fails altogether between two others: what was counted before is lost. -/
theorem failed_batch_resets : ¬ ∀ x ∈ batches.visits [⟨2, 2, 7, 8, false⟩, ⟨0, 1, 7, 8, false⟩]
    (History.started initiated), x.Tallies := by
  intro h
  have hx := (h (((History.started initiated).finish ⟨2, 2, 7, 8, false⟩).finish ⟨0, 1, 7, 8, false⟩)
    (by simp [Machine.visits, batches])).count
  exact absurd hx (by decide)

end CrashReporter.Upload.SuccessCount
