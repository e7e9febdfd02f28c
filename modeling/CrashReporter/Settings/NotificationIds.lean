import CrashReporter.Settings.SavedState

/-! The notification ids in the saved state.

An id is stored as an unsigned integer and read as a signed one, by the next process from
its decimal text. What does not fit is cut off to 32 bits on the way, and the conversion
back restores it. -/
namespace CrashReporter

/-- The notifications whose ids are saved. -/
inductive SavedId where
  | crash | storageUsage | uploadSuccess | uploadFailed
deriving DecidableEq

namespace SavedId

def key : SavedId → String
  | .crash => SavedState.CrashNotificationId
  | .storageUsage => SavedState.StorageUsageNotificationId
  | .uploadSuccess => SavedState.UploadSuccessNotificationId
  | .uploadFailed => SavedState.UploadFailedNotificationId

/-- The getter. -/
def read : SavedId → CReporterSavedState → UInt32
  | .crash => (·.crashNotificationId)
  | .storageUsage => (·.storageUsageNotificationId)
  | .uploadSuccess => (·.uploadSuccessNotificationId)
  | .uploadFailed => (·.uploadFailedNotificationId)

/-- The setter. -/
def write (id : UInt32) : SavedId → CReporterSavedState → CReporterSavedState × Bool
  | .crash => (·.setCrashNotificationId id)
  | .storageUsage => (·.setStorageUsageNotificationId id)
  | .uploadSuccess => (·.setUploadSuccessNotificationId id)
  | .uploadFailed => (·.setUploadFailedNotificationId id)

end SavedId

/-- What the processes do with the saved state. -/
inductive Access where
  | write (n : SavedId) (id : UInt32)
  | setUploadSuccessCount (count : Int32)
  /-- The process ends, and the next one reads the file. -/
  | restart

/-- The id that an access stores as this one. -/
def Access.stores (n : SavedId) : Access → Option UInt32
  | .write m id => if m = n then some id else none
  | .setUploadSuccessCount _ | .restart => none

def lastStored (n : SavedId) : List Access → Option UInt32
  | [] => none
  | a :: rest => (lastStored n rest).or (a.stores n)

namespace CReporterSavedState

def access (s : CReporterSavedState) : Access → CReporterSavedState
  | .write n id => (n.write id s).1
  | .setUploadSuccessCount count => (s.setUploadSuccessCount count).1
  | .restart => s.reread

/-- The first process reads the file, and so on. -/
def run (file : CReporterSavedState) (accesses : List Access) : CReporterSavedState :=
  accesses.foldl access file.reread

/-- An id that is stored is there now and after a restart, and the others are what they were. -/
structure Saves (n : SavedId) (id : UInt32) (s : CReporterSavedState) : Prop where
  stored : n.read (n.write id s).1 = id
  survives : n.read (n.write id s).1.reread = id
  others : ∀ m ≠ n, m.read (n.write id s).1 = m.read s ∧ m.read (n.write id s).1.reread = m.read s

/-- No id was stored as a truth value. -/
def Plain (s : CReporterSavedState) : Prop := ∀ (n : SavedId) (b : Bool), s.values n.key ≠ .value (.bool b)

/-! ### One access -/

/-- An unsigned integer that is read as a signed one is the same 32 bits. -/
theorem toUInt32_ofInt (id : UInt32) : (Int32.ofInt id.toNat).toUInt32 = id := by
  apply UInt32.toNat_inj.mp
  simp [Int32.ofInt]

variable {s : CReporterSavedState} {n : SavedId}

theorem key_injective : Function.Injective SavedId.key := by
  intro n m h
  cases n <;> cases m <;> first | rfl | exact absurd h (by decide)

theorem key_ne_count (n : SavedId) : n.key ≠ SavedState.UploadSuccessCount := by cases n <;> decide

theorem read_eq (n : SavedId) (s : CReporterSavedState) : n.read s = (s.intValue n.key 0).toUInt32 := by
  cases n <;> rfl

theorem write_eq (n : SavedId) (id : UInt32) (s : CReporterSavedState) :
    n.write id s = s.set n.key (.uint id) := by
  cases n <;> rfl

/-- A getter reads its own key only. -/
theorem read_congr {s' : CReporterSavedState} (h : s'.values n.key = s.values n.key) : n.read s' = n.read s := by
  simp only [read_eq, intValue, SettingsBase.value, h]

theorem read_write (n m : SavedId) (id : UInt32) (s : CReporterSavedState) :
    n.read (m.write id s).1 = if m = n then id else n.read s := by
  split
  · rename_i h
    subst h
    have hvalue : (m.write id s).1.value m.key (.int 0) = .value (.uint id) := by
      rw [write_eq]
      exact SettingsBase.value_setValue
    rw [read_eq, intValue, hvalue]
    exact toUInt32_ofInt id
  · rename_i h
    refine read_congr ?_
    rw [write_eq]
    exact Function.update_of_ne (fun hkey => h (key_injective hkey).symm) ..

/-- The text of an integer is read as the integer. -/
theorem read_reread (h : s.Plain) (n : SavedId) : n.read s.reread = n.read s := by
  have hvalue : s.reread.values n.key = (s.values n.key).reread := rfl
  cases hv : s.values n.key with
  | invalid =>
    refine read_congr ?_
    rw [hvalue, hv]
    rfl
  | text t =>
    refine read_congr ?_
    rw [hvalue, hv]
    rfl
  | value v =>
    have hb := v.number_bounds
    have htext : v.toText = Text.decimal v.number := by
      cases v with
      | bool b => exact absurd hv (h n b)
      | int i => rfl
      | uint i => rfl
    simp only [read_eq, intValue, SettingsBase.value, hvalue, hv, Variant.reread, Variant.toInt?, htext,
      Text.toLongLong_decimal hb.1 hb.2]
    rfl

theorem read_access (h : s.Plain) (n : SavedId) (a : Access) :
    n.read (s.access a) = (a.stores n).getD (n.read s) := by
  cases a with
  | write m id =>
    rw [access, read_write, Access.stores]
    split <;> rfl
  | setUploadSuccessCount count => exact read_congr (Function.update_of_ne (key_ne_count n) ..)
  | restart => exact read_reread h n

theorem plain_reread (s : CReporterSavedState) : s.reread.Plain := by
  intro n b hv
  have hvalue : (s.values n.key).reread = .value (.bool b) := hv
  cases h : s.values n.key <;> simp [h, Variant.reread] at hvalue

theorem Plain.set (h : s.Plain) {key : String} {v : Value} (hv : ∀ b, v ≠ .bool b) : (s.set key v).1.Plain := by
  intro n b hn
  have hvalue : Function.update s.values key (.value v) n.key = .value (.bool b) := hn
  by_cases hk : n.key = key
  · rw [hk, Function.update_self, Variant.value.injEq] at hvalue
    exact hv b hvalue
  · rw [Function.update_of_ne hk] at hvalue
    exact h n b hvalue

theorem Plain.access (h : s.Plain) (a : Access) : (s.access a).Plain := by
  cases a with
  | write m id =>
    rw [CReporterSavedState.access, write_eq]
    exact h.set fun b => nofun
  | setUploadSuccessCount count => exact h.set fun b => nofun
  | restart => exact plain_reread s

/-! ### All processes -/

theorem plain_foldl (h : s.Plain) (accesses : List Access) : (accesses.foldl access s).Plain := by
  induction accesses generalizing s with
  | nil => exact h
  | cons a rest ih => exact ih (h.access a)

/-- An id is the one that was stored last, by whatever process. -/
theorem read_foldl (h : s.Plain) (n : SavedId) (accesses : List Access) :
    n.read (accesses.foldl access s) = (lastStored n accesses).getD (n.read s) := by
  induction accesses generalizing s with
  | nil => rfl
  | cons a rest ih =>
    rw [List.foldl_cons, ih (h.access a), read_access h, lastStored]
    cases lastStored n rest <;> rfl

/-- Whatever the processes did before, an id that is stored survives the next restart, and
leaves the others alone. -/
theorem ids_survive (file : CReporterSavedState) (accesses : List Access) (n : SavedId) (id : UInt32) :
    Saves n id (run file accesses) := by
  have hplain : (run file accesses).Plain := plain_foldl (plain_reread file) accesses
  have hstored (m : SavedId) := read_foldl hplain m [.write n id]
  have hrestarted (m : SavedId) := read_foldl hplain m [.write n id, .restart]
  refine ⟨(hstored n).trans ?_, (hrestarted n).trans ?_, fun m hm => ⟨(hstored m).trans ?_, (hrestarted m).trans ?_⟩⟩
  · simp [lastStored, Access.stores]
  · simp [lastStored, Access.stores]
  · simp [lastStored, Access.stores, hm.symm]
  · simp [lastStored, Access.stores, hm.symm]

end CReporterSavedState

end CrashReporter
