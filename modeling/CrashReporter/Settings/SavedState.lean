import CrashReporter.Settings.Variant

/-! `CReporterSavedState`: what survives the processes.

Notification ids and the number of uploads that succeeded, stored as integers and read
back as text by the next process. -/
namespace CrashReporter

namespace SavedState

def CrashNotificationId := "SavedState/crash_notification_id"
def StorageUsageNotificationId := "SavedState/storageUsage_notification_id"
def UploadSuccessNotificationId := "SavedState/upload_success_notification_id"
def UploadFailedNotificationId := "SavedState/upload_failed_notification_id"
def UploadSuccessCount := "SavedState/upload_success_count"

end SavedState

structure CReporterSavedState extends SettingsBase

namespace CReporterSavedState

def intValue (key : String) (defaultValue : Int32) (s : CReporterSavedState) : Int32 :=
  (s.value key (.int defaultValue)).toInt?.getD defaultValue

/-- A setter; true when its change signal is emitted. -/
def set (key : String) (v : Value) (s : CReporterSavedState) : CReporterSavedState × Bool :=
  let (base, changed) := s.setValue key v
  (⟨base⟩, changed)

section Members
variable (s : CReporterSavedState)

def crashNotificationId : UInt32 :=
  (s.intValue SavedState.CrashNotificationId 0).toUInt32

def setCrashNotificationId (id : UInt32) :=
  s.set SavedState.CrashNotificationId (.uint id)

def storageUsageNotificationId : UInt32 :=
  (s.intValue SavedState.StorageUsageNotificationId 0).toUInt32

def setStorageUsageNotificationId (id : UInt32) :=
  s.set SavedState.StorageUsageNotificationId (.uint id)

def uploadSuccessNotificationId : UInt32 :=
  (s.intValue SavedState.UploadSuccessNotificationId 0).toUInt32

def setUploadSuccessNotificationId (id : UInt32) :=
  s.set SavedState.UploadSuccessNotificationId (.uint id)

def uploadFailedNotificationId : UInt32 :=
  (s.intValue SavedState.UploadFailedNotificationId 0).toUInt32

def setUploadFailedNotificationId (id : UInt32) :=
  s.set SavedState.UploadFailedNotificationId (.uint id)

def uploadSuccessCount : Int32 := s.intValue SavedState.UploadSuccessCount 0

def setUploadSuccessCount (count : Int32) := s.set SavedState.UploadSuccessCount (.int count)

/-- Another process reads the file. -/
def reread : CReporterSavedState := ⟨s.toSettingsBase.reread⟩

end Members

variable {s : CReporterSavedState} {n : Int32} {key : String} {v : Value}

@[simp] theorem uploadSuccessCount_set : (s.setUploadSuccessCount n).1.uploadSuccessCount = n := by
  have hvalue : (s.setUploadSuccessCount n).1.value SavedState.UploadSuccessCount (.int 0) =
      .value (.int n) := SettingsBase.value_setValue
  simp [uploadSuccessCount, intValue, hvalue, Variant.toInt?, Value.number]

/-- The count was stored as an integer, or read from the file where it had been. -/
def Counts (s : CReporterSavedState) (n : Int32) : Prop :=
  s.values SavedState.UploadSuccessCount = .value (.int n) ∨
    s.values SavedState.UploadSuccessCount = (Variant.value (.int n)).reread

theorem Counts.uploadSuccessCount (h : s.Counts n) : s.uploadSuccessCount = n := by
  obtain h | h := h
  · simp [CReporterSavedState.uploadSuccessCount, intValue, SettingsBase.value, h, Variant.toInt?,
      Value.number]
  · have hread := Variant.toInt?_reread n
    simp only [CReporterSavedState.uploadSuccessCount, intValue, SettingsBase.value, h]
    simp only [Variant.reread] at hread ⊢
    rw [hread, Option.getD_some]

theorem Counts.reread (h : s.Counts n) : s.reread.Counts n := by
  obtain h | h := h
  · exact .inr (congrArg Variant.reread h)
  · exact .inr ((congrArg Variant.reread h).trans rfl)

theorem counts_set : (s.setUploadSuccessCount n).1.Counts n :=
  .inl (by simp [setUploadSuccessCount, set, SettingsBase.setValue])

end CReporterSavedState

end CrashReporter
