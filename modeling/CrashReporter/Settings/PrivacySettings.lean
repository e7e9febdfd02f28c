import CrashReporter.Settings.Variant
import CrashReporter.Machine

/-! `CReporterPrivacySettingsModel`: the privacy settings and their change signals.

Most properties are backed by a key of the settings file; two by mark files in the
first core directory. A setter returns the model and the signals it emits. -/
namespace CrashReporter

/-! ### The keys -/

namespace Settings

def CoreDumping := "Settings/coredumping"
def Notifications := "Settings/notifications"
def UseHomePartition := "Settings/use-home-partition"
def AutoDeleteDuplicates := "Settings/avoid-dups"
def AutoDeleteMaxSimilarCores := "Settings/maxsimilarcores"
def AutomaticSending := "Settings/automaticsending"
def NoticeAccepted := "Settings/privacy-notice-accepted"
def AllowMobileData := "Settings/allow-mobile-data"
def RestrictWhenLowBattery := "Settings/restrict-when-low-battery"
def RestrictWhenDischarging := "Settings/restrict-when-discharging"
def DischargingThreshold := "Settings/discharging-threshold"

end Settings

namespace Privacy

def IncludeCore := "Privacy/INCLUDE_CORE"
def IncludeSysLog := "Privacy/INCLUDE_SYSLOG"
def IncludePkgList := "Privacy/INCLUDE_PKGLIST"
def IncludeStackTrace := "Privacy/INCLUDE_STACK_TRACE"
def ReduceCore := "Privacy/REDUCE_CORE"
def DownloadDebuginfo := "Privacy/DOWNLOAD_DEBUGINFO"

end Privacy

/-! ### The model -/

/-- A mark file: whether it is there, and whether it can be made and removed. -/
structure MarkFile where
  present : Bool
  creatable : Bool
  removable : Bool
deriving DecidableEq

namespace MarkFile

/-- `QFile::open(WriteOnly)`. -/
def create (f : MarkFile) : MarkFile := {f with present := f.present || f.creatable}

/-- `QFile::remove`. -/
def remove (f : MarkFile) : MarkFile := {f with present := f.present && !f.removable}

end MarkFile

structure PrivacySettingsModel where
  base : SettingsBase
  /-- `enduranceCollectMark()` and `journalSpyMark()`. -/
  enduranceCollectMark : MarkFile
  journalSpyMark : MarkFile

namespace PrivacySettingsModel

inductive Signal where
  | valueChanged (key : String) (value : Value)
  | coreDumpingEnabledChanged
  | enduranceEnabledChanged
  | journalSpyEnabledChanged
  | useHomePartitionEnabledChanged
  | notificationsEnabledChanged
  | autoDeleteDuplicatesChanged
  | automaticSendingEnabledChanged
  | includeStackTraceChanged
  | downloadDebuginfoChanged
  | privacyNoticeAcceptedChanged
  | allowMobileDataChanged
  | restrictWhenLowBatteryChanged
  | restrictWhenDischargingChanged
  | dischargingThresholdChanged
deriving DecidableEq

section Getters
variable (m : PrivacySettingsModel)

def coreDumpingEnabled : Bool := (m.base.value Settings.CoreDumping (.bool true)).toBool
def enduranceEnabled : Bool := m.enduranceCollectMark.present
def journalSpyEnabled : Bool := m.journalSpyMark.present
def useHomePartitionEnabled : Bool := (m.base.value Settings.UseHomePartition (.bool false)).toBool
def notificationsEnabled : Bool := (m.base.value Settings.Notifications (.bool true)).toBool
def autoDeleteDuplicates : Bool := (m.base.value Settings.AutoDeleteDuplicates (.bool true)).toBool
def autoDeleteMaxSimilarCores : Int32 :=
  (m.base.value Settings.AutoDeleteMaxSimilarCores (.int 5)).toInt
def automaticSendingEnabled : Bool := (m.base.value Settings.AutomaticSending (.bool true)).toBool
def includeStackTrace : Bool := (m.base.value Privacy.IncludeStackTrace (.bool false)).toBool
def downloadDebuginfo : Bool := (m.base.value Privacy.DownloadDebuginfo (.bool false)).toBool
def privacyNoticeAccepted : Bool := (m.base.value Settings.NoticeAccepted (.bool false)).toBool
def allowMobileData : Bool := (m.base.value Settings.AllowMobileData (.bool false)).toBool
def restrictWhenLowBattery : Bool :=
  (m.base.value Settings.RestrictWhenLowBattery (.bool true)).toBool
def restrictWhenDischarging : Bool :=
  (m.base.value Settings.RestrictWhenDischarging (.bool true)).toBool
def dischargingThreshold : Int32 := (m.base.value Settings.DischargingThreshold (.int 20)).toInt

end Getters

/-! ### The setters -/

/-- Stores a value, and emits the signal when it was changed. -/
def store (key : String) (v : Value) (changed : Option Signal) (m : PrivacySettingsModel) :
    PrivacySettingsModel × List Signal :=
  let (base, differs) := m.base.setValue key v
  ({m with base := base}, if differs then .valueChanged key v :: changed.toList else [])

/-- Makes or removes a mark file; the result is not looked at. -/
def setMark (value : Bool) (changed : Signal) (mark : MarkFile) : MarkFile × List Signal :=
  if value = mark.present then (mark, [])
  else (if value then mark.create else mark.remove, [changed])

section Setters
variable (m : PrivacySettingsModel)

def setCoreDumpingEnabled (value : Bool) :=
  m.store Settings.CoreDumping (.bool value) (some .coreDumpingEnabledChanged)

def setEnduranceEnabled (value : Bool) : PrivacySettingsModel × List Signal :=
  let (mark, signals) := setMark value .enduranceEnabledChanged m.enduranceCollectMark
  ({m with enduranceCollectMark := mark}, signals)

def setJournalSpyEnabled (value : Bool) : PrivacySettingsModel × List Signal :=
  let (mark, signals) := setMark value .journalSpyEnabledChanged m.journalSpyMark
  ({m with journalSpyMark := mark}, signals)

-- The signal is that of another property.
def setUseHomePartitionEnabled (value : Bool) :=
  m.store Settings.UseHomePartition (.bool value) (some .notificationsEnabledChanged)

def setNotificationsEnabled (value : Bool) :=
  m.store Settings.Notifications (.bool value) (some .notificationsEnabledChanged)

def setAutoDeleteDuplicates (value : Bool) :=
  m.store Settings.AutoDeleteDuplicates (.bool value) (some .autoDeleteDuplicatesChanged)

def setAutoDeleteMaxSimilarCores (value : Int32) :=
  m.store Settings.AutoDeleteMaxSimilarCores (.int value) none

def setAutomaticSendingEnabled (value : Bool) :=
  m.store Settings.AutomaticSending (.bool value) (some .automaticSendingEnabledChanged)

def setIncludeCore (value : Bool) := m.store Privacy.IncludeCore (.bool value) none
def setIncludeSystemLog (value : Bool) := m.store Privacy.IncludeSysLog (.bool value) none
def setIncludePackageList (value : Bool) := m.store Privacy.IncludePkgList (.bool value) none

def setIncludeStackTrace (value : Bool) :=
  m.store Privacy.IncludeStackTrace (.bool value) (some .includeStackTraceChanged)

def setDownloadDebuginfo (value : Bool) :=
  m.store Privacy.DownloadDebuginfo (.bool value) (some .downloadDebuginfoChanged)

def setPrivacyNoticeAccepted (value : Bool) :=
  m.store Settings.NoticeAccepted (.bool value) (some .privacyNoticeAcceptedChanged)

def setAllowMobileData (value : Bool) :=
  m.store Settings.AllowMobileData (.bool value) (some .allowMobileDataChanged)

def setRestrictWhenLowBattery (value : Bool) :=
  m.store Settings.RestrictWhenLowBattery (.bool value) (some .restrictWhenLowBatteryChanged)

def setRestrictWhenDischarging (value : Bool) :=
  m.store Settings.RestrictWhenDischarging (.bool value) (some .restrictWhenDischargingChanged)

/-- `qBound(0, value, 100)`. -/
def bounded (value : Int32) : Int32 := max 0 (min 100 value)

def setDischargingThreshold (value : Int32) :=
  m.store Settings.DischargingThreshold (.int (bounded value)) (some .dischargingThresholdChanged)

def setReduceCore (value : Bool) := m.store Privacy.ReduceCore (.bool value) none

end Setters

section Switches
variable {m : PrivacySettingsModel} {key key' : String} {v d : Value} {c : Option Signal}

@[simp] theorem store_value : (m.store key v c).1.base.value key d = .value v :=
  SettingsBase.value_setValue

theorem store_value_of_ne (h : key' ≠ key) :
    (m.store key v c).1.base.value key' d = m.base.value key' d :=
  SettingsBase.value_setValue_of_ne h

theorem toBool_value (b : Bool) : (Variant.value (.bool b)).toBool = b := by
  cases b <;> decide

/-- A setter that stores a value that is there already emits nothing. -/
theorem store_signals : (m.store key v c).2 =
    if (m.base.values key).equals v then [] else .valueChanged key v :: c.toList := by
  cases h : (m.base.values key).equals v <;> simp [store, SettingsBase.setValue, h]

@[simp] theorem notificationsEnabled_set (b : Bool) :
    (m.setNotificationsEnabled b).1.notificationsEnabled = b := by
  rw [notificationsEnabled, setNotificationsEnabled, store_value, toBool_value]

@[simp] theorem automaticSendingEnabled_setNotifications (b : Bool) :
    (m.setNotificationsEnabled b).1.automaticSendingEnabled = m.automaticSendingEnabled :=
  congrArg Variant.toBool (store_value_of_ne (by decide))

@[simp] theorem automaticSendingEnabled_set (b : Bool) :
    (m.setAutomaticSendingEnabled b).1.automaticSendingEnabled = b := by
  rw [automaticSendingEnabled, setAutomaticSendingEnabled, store_value, toBool_value]

@[simp] theorem notificationsEnabled_setAutomaticSending (b : Bool) :
    (m.setAutomaticSendingEnabled b).1.notificationsEnabled = m.notificationsEnabled :=
  congrArg Variant.toBool (store_value_of_ne (by decide))

/-- Without a signal, READ has returned the new value before. -/
theorem notificationsEnabled_of_equals {b : Bool}
    (h : (m.base.values Settings.Notifications).equals (.bool b) = true) :
    m.notificationsEnabled = b := by
  rw [notificationsEnabled, SettingsBase.value_of_equals h]
  exact Variant.toBool_of_equals h

end Switches

/-- A call of a setter. -/
inductive Setter where
  | setCoreDumpingEnabled (value : Bool)
  | setEnduranceEnabled (value : Bool)
  | setJournalSpyEnabled (value : Bool)
  | setUseHomePartitionEnabled (value : Bool)
  | setNotificationsEnabled (value : Bool)
  | setAutoDeleteDuplicates (value : Bool)
  | setAutoDeleteMaxSimilarCores (value : Int32)
  | setAutomaticSendingEnabled (value : Bool)
  | setIncludeCore (value : Bool)
  | setIncludeSystemLog (value : Bool)
  | setIncludePackageList (value : Bool)
  | setIncludeStackTrace (value : Bool)
  | setDownloadDebuginfo (value : Bool)
  | setPrivacyNoticeAccepted (value : Bool)
  | setAllowMobileData (value : Bool)
  | setRestrictWhenLowBattery (value : Bool)
  | setRestrictWhenDischarging (value : Bool)
  | setDischargingThreshold (value : Int32)
  | setReduceCore (value : Bool)
deriving DecidableEq

def call (m : PrivacySettingsModel) : Setter → PrivacySettingsModel × List Signal
  | .setCoreDumpingEnabled value => m.setCoreDumpingEnabled value
  | .setEnduranceEnabled value => m.setEnduranceEnabled value
  | .setJournalSpyEnabled value => m.setJournalSpyEnabled value
  | .setUseHomePartitionEnabled value => m.setUseHomePartitionEnabled value
  | .setNotificationsEnabled value => m.setNotificationsEnabled value
  | .setAutoDeleteDuplicates value => m.setAutoDeleteDuplicates value
  | .setAutoDeleteMaxSimilarCores value => m.setAutoDeleteMaxSimilarCores value
  | .setAutomaticSendingEnabled value => m.setAutomaticSendingEnabled value
  | .setIncludeCore value => m.setIncludeCore value
  | .setIncludeSystemLog value => m.setIncludeSystemLog value
  | .setIncludePackageList value => m.setIncludePackageList value
  | .setIncludeStackTrace value => m.setIncludeStackTrace value
  | .setDownloadDebuginfo value => m.setDownloadDebuginfo value
  | .setPrivacyNoticeAccepted value => m.setPrivacyNoticeAccepted value
  | .setAllowMobileData value => m.setAllowMobileData value
  | .setRestrictWhenLowBattery value => m.setRestrictWhenLowBattery value
  | .setRestrictWhenDischarging value => m.setRestrictWhenDischarging value
  | .setDischargingThreshold value => m.setDischargingThreshold value
  | .setReduceCore value => m.setReduceCore value

/-- The properties that are declared with a NOTIFY signal. -/
inductive Property where
  | coreDumping
  | endurance
  | journalSpy
  | useHomePartition
  | notifications
  | autoDeleteDuplicates
  | includeStackTrace
  | downloadDebuginfo
  | privacyNoticeAccepted
  | allowMobileData
  | restrictWhenLowBattery
  | restrictWhenDischarging
  | dischargingThreshold
deriving DecidableEq

namespace Property

/-- READ. -/
def read (m : PrivacySettingsModel) : Property → Value
  | .coreDumping => .bool m.coreDumpingEnabled
  | .endurance => .bool m.enduranceEnabled
  | .journalSpy => .bool m.journalSpyEnabled
  | .useHomePartition => .bool m.useHomePartitionEnabled
  | .notifications => .bool m.notificationsEnabled
  | .autoDeleteDuplicates => .bool m.autoDeleteDuplicates
  | .includeStackTrace => .bool m.includeStackTrace
  | .downloadDebuginfo => .bool m.downloadDebuginfo
  | .privacyNoticeAccepted => .bool m.privacyNoticeAccepted
  | .allowMobileData => .bool m.allowMobileData
  | .restrictWhenLowBattery => .bool m.restrictWhenLowBattery
  | .restrictWhenDischarging => .bool m.restrictWhenDischarging
  | .dischargingThreshold => .int m.dischargingThreshold

/-- NOTIFY. -/
def notify : Property → Signal
  | .coreDumping => .coreDumpingEnabledChanged
  | .endurance => .enduranceEnabledChanged
  | .journalSpy => .journalSpyEnabledChanged
  | .useHomePartition => .useHomePartitionEnabledChanged
  | .notifications => .notificationsEnabledChanged
  | .autoDeleteDuplicates => .autoDeleteDuplicatesChanged
  | .includeStackTrace => .includeStackTraceChanged
  | .downloadDebuginfo => .downloadDebuginfoChanged
  | .privacyNoticeAccepted => .privacyNoticeAcceptedChanged
  | .allowMobileData => .allowMobileDataChanged
  | .restrictWhenLowBattery => .restrictWhenLowBatteryChanged
  | .restrictWhenDischarging => .restrictWhenDischargingChanged
  | .dischargingThreshold => .dischargingThresholdChanged

end Property

end PrivacySettingsModel

end CrashReporter
