import CrashReporter.Settings.PrivacySettings
import CrashReporter.Settings.SavedState

/-! `CReporterDaemon`: when core directories are monitored.

A `CReporterDaemonMonitor` is made and deleted by startCoreMonitoring() and
stopCoreMonitoring(), which are called at start-up, over D-Bus, and by the slot of
notificationsEnabledChanged(). A call over D-Bus stores the setting as well, and the
change signal of that enters the slot before the call returns. -/
namespace CrashReporter.Daemon

/-- `CReporterDaemonMonitor`, as far as the daemon sets it up. -/
structure Monitor where
  autoDeleteMaxSimilarCores : Int32
deriving DecidableEq

inductive Output where
  | notifyAutoUploader (files : List String)
  /-- "This system has stored crash reports." -/
  | storedCoresNotified
  /-- The monitor calls quit() of the auto uploader. -/
  | quitAutoUploader
deriving DecidableEq

structure CReporterDaemon where
  settings : PrivacySettingsModel
  savedState : CReporterSavedState
  monitor : Option Monitor
  log : List Output

namespace CReporterDaemon

def emit (d : CReporterDaemon) (o : Output) : CReporterDaemon := {d with log := o :: d.log}

/-- `new CReporterDaemonMonitor`, unless there is one. -/
def createMonitor (d : CReporterDaemon) : CReporterDaemon :=
  match d.monitor with
  | some _ => d
  | none => {d with monitor := some ⟨0⟩}

/-- `setAutoDeleteMaxSimilarCores` of the new monitor. -/
def setUpMonitor (d : CReporterDaemon) : CReporterDaemon :=
  {d with monitor := d.monitor.map fun _ => ⟨d.settings.autoDeleteMaxSimilarCores⟩}

/-! ### Inside the process -/

/-- `startCoreMonitoring(false)`. -/
def startCoreMonitoring (d : CReporterDaemon) : CReporterDaemon :=
  match d.monitor with
  | some _ => d
  | none => d.createMonitor.setUpMonitor

/-- `stopCoreMonitoring(false)`. -/
def stopCoreMonitoring (d : CReporterDaemon) : CReporterDaemon := {d with monitor := none}

def onNotificationsSettingChanged (d : CReporterDaemon) : CReporterDaemon :=
  if d.settings.notificationsEnabled then d.startCoreMonitoring
  else if !d.settings.automaticSendingEnabled then d.stopCoreMonitoring
  else d

/-- The slot of the monitor. -/
def onSetAutoUploadChanged (d : CReporterDaemon) : CReporterDaemon :=
  if d.settings.automaticSendingEnabled then d else d.emit .quitAutoUploader

/-- What a signal of the settings enters. -/
def handle (d : CReporterDaemon) : PrivacySettingsModel.Signal → CReporterDaemon
  | .notificationsEnabledChanged => d.onNotificationsSettingChanged
  | .automaticSendingEnabledChanged => if d.monitor.isSome then d.onSetAutoUploadChanged else d
  | _ => d

/-- A setter of the settings object of this process. -/
def changeSetting (d : CReporterDaemon) (r : PrivacySettingsModel × List PrivacySettingsModel.Signal) :
    CReporterDaemon :=
  r.2.foldl handle {d with settings := r.1}

def setNotificationsEnabled (value : Bool) (d : CReporterDaemon) : CReporterDaemon :=
  d.changeSetting (d.settings.setNotificationsEnabled value)

def setAutomaticSendingEnabled (value : Bool) (d : CReporterDaemon) : CReporterDaemon :=
  d.changeSetting (d.settings.setAutomaticSendingEnabled value)

/-! ### Over D-Bus -/

/-- `startCoreMonitoring(true)`. -/
def startCoreMonitoringFromDBus (d : CReporterDaemon) : CReporterDaemon :=
  match d.monitor with
  | some _ => d
  | none => (d.createMonitor.setNotificationsEnabled true).setUpMonitor

/-- `stopCoreMonitoring(true)`. -/
def stopCoreMonitoringFromDBus (d : CReporterDaemon) : CReporterDaemon :=
  match d.monitor with
  | some _ => {d with monitor := none}.setNotificationsEnabled false
  | none => d

/-! ### The start -/

/-- What the daemon finds when it is started. -/
structure Startup where
  /-- `isValid()`: the settings file exists. -/
  isValid : Bool
  /-- `startService()`. -/
  serviceStarted : Bool
  /-- `collectAllCoreFiles()`. -/
  files : List String
  canUseNetworkConnection : Bool
  shouldSavePower : Bool
deriving DecidableEq

/-- Core monitoring starts when one of the settings asks for it. -/
def startNeeded (d : CReporterDaemon) : CReporterDaemon :=
  if d.settings.notificationsEnabled || d.settings.automaticSendingEnabled then
    d.startCoreMonitoring
  else d

def resetSuccessCount (d : CReporterDaemon) : CReporterDaemon :=
  {d with savedState := (d.savedState.setUploadSuccessCount 0).1}

/-- The reports that are there already are uploaded, or the user is told of them. -/
def handleStoredCores (u : Startup) (d : CReporterDaemon) : CReporterDaemon :=
  if d.settings.automaticSendingEnabled then
    if !u.files.isEmpty && u.canUseNetworkConnection && !u.shouldSavePower then
      d.emit (.notifyAutoUploader u.files)
    else d
  else if d.settings.notificationsEnabled && !u.files.isEmpty then d.emit .storedCoresNotified
  else d

/-- The daemon when it goes on; none when it is to exit. -/
def initiateDaemon (u : Startup) (d : CReporterDaemon) : Option CReporterDaemon :=
  if !u.isValid || !u.serviceStarted then none
  else some (d.startNeeded.resetSuccessCount.handleStoredCores u)

/-- A daemon that was not initiated yet. -/
def new (settings : PrivacySettingsModel) (savedState : CReporterSavedState) : CReporterDaemon where
  settings := settings
  savedState := savedState
  monitor := none
  log := []

end CReporterDaemon

/-- What happens to the daemon once it runs. -/
inductive Request where
  /-- Over D-Bus. -/
  | startCoreMonitoring
  | stopCoreMonitoring
  /-- Through the settings object of the process. -/
  | setNotificationsEnabled (value : Bool)
  | setAutomaticSendingEnabled (value : Bool)
deriving DecidableEq

def requests : Machine CReporterDaemon Request where
  step d
    | .startCoreMonitoring => some d.startCoreMonitoringFromDBus
    | .stopCoreMonitoring => some d.stopCoreMonitoringFromDBus
    | .setNotificationsEnabled value => some (d.setNotificationsEnabled value)
    | .setAutomaticSendingEnabled value => some (d.setAutomaticSendingEnabled value)

/-! ### Monitoring when it is needed -/

namespace CReporterDaemon

def Needed (d : CReporterDaemon) : Bool :=
  d.settings.notificationsEnabled || d.settings.automaticSendingEnabled

/-- There is a monitor if and only if one of the settings asks for it. -/
def Apt (d : CReporterDaemon) : Prop := d.monitor.isSome = d.Needed

variable {d : CReporterDaemon} {value : Bool}

/-! ### Starting and stopping -/

@[simp] theorem createMonitor_settings : d.createMonitor.settings = d.settings := by
  unfold createMonitor
  split <;> rfl

@[simp] theorem createMonitor_monitor : d.createMonitor.monitor.isSome = true := by
  unfold createMonitor
  split
  · rename_i h
    rw [h]
    rfl
  · rfl

@[simp] theorem setUpMonitor_monitor : d.setUpMonitor.monitor.isSome = d.monitor.isSome := by
  simp [setUpMonitor]

@[simp] theorem setUpMonitor_needed : d.setUpMonitor.Needed = d.Needed := rfl

@[simp] theorem startCoreMonitoring_settings : d.startCoreMonitoring.settings = d.settings := by
  unfold startCoreMonitoring
  split
  · rfl
  · exact createMonitor_settings

@[simp] theorem startCoreMonitoring_monitor : d.startCoreMonitoring.monitor.isSome = true := by
  unfold startCoreMonitoring
  split
  · rename_i h
    rw [h]
    rfl
  · simp

@[simp] theorem onNotificationsSettingChanged_settings :
    d.onNotificationsSettingChanged.settings = d.settings := by
  unfold onNotificationsSettingChanged
  split
  · exact startCoreMonitoring_settings
  · split <;> rfl

/-- The slot restores the rule, unless automatic sending lacks its monitor. -/
theorem onNotificationsSettingChanged_apt
    (h : d.settings.automaticSendingEnabled = true → d.monitor.isSome = true) :
    d.onNotificationsSettingChanged.Apt := by
  unfold Apt Needed
  rw [onNotificationsSettingChanged_settings]
  unfold onNotificationsSettingChanged
  cases hn : d.settings.notificationsEnabled with
  | true => simp
  | false =>
    cases ha : d.settings.automaticSendingEnabled with
    | true => simpa using h ha
    | false => simp [stopCoreMonitoring]

/-! ### The settings -/

theorem setNotificationsEnabled_eq : d.setNotificationsEnabled value =
    if (d.settings.base.values Settings.Notifications).equals (.bool value) then
      {d with settings := (d.settings.setNotificationsEnabled value).1}
    else
      ({d with
        settings := (d.settings.setNotificationsEnabled value).1} : CReporterDaemon
          ).onNotificationsSettingChanged := by
  have hs : (d.settings.setNotificationsEnabled value).2 = _ := PrivacySettingsModel.store_signals
  rw [setNotificationsEnabled, changeSetting, hs]
  split <;> rfl

theorem setNotificationsEnabled_apt
    (hauto : d.settings.automaticSendingEnabled = true → d.monitor.isSome = true)
    (hsame : d.settings.notificationsEnabled = value → d.Apt) :
    (d.setNotificationsEnabled value).Apt := by
  rw [setNotificationsEnabled_eq]
  split
  · rename_i heq
    have hn := PrivacySettingsModel.notificationsEnabled_of_equals heq
    have hd := hsame hn
    simpa [Apt, Needed, hn] using hd
  · exact onNotificationsSettingChanged_apt (by simpa using hauto)

theorem setAutomaticSendingEnabled_monitor :
    (d.setAutomaticSendingEnabled value).monitor = d.monitor := by
  have hs : (d.settings.setAutomaticSendingEnabled value).2 = _ := PrivacySettingsModel.store_signals
  rw [setAutomaticSendingEnabled, changeSetting, hs]
  split
  · rfl
  · simp only [Option.toList_some, List.foldl_cons, List.foldl_nil, handle]
    split
    · unfold onSetAutoUploadChanged
      split <;> rfl
    · rfl

theorem setAutomaticSendingEnabled_settings : (d.setAutomaticSendingEnabled value).settings =
    (d.settings.setAutomaticSendingEnabled value).1 := by
  have hs : (d.settings.setAutomaticSendingEnabled value).2 = _ := PrivacySettingsModel.store_signals
  rw [setAutomaticSendingEnabled, changeSetting, hs]
  split
  · rfl
  · simp only [Option.toList_some, List.foldl_cons, List.foldl_nil, handle]
    split
    · unfold onSetAutoUploadChanged
      split <;> rfl
    · rfl

/-- No monitor is made or deleted when automatic sending changes. -/
theorem setAutomaticSendingEnabled_apt_iff (h : d.Apt) : (d.setAutomaticSendingEnabled value).Apt ↔
    d.settings.notificationsEnabled = true ∨ value = d.settings.automaticSendingEnabled := by
  have hm : d.monitor.isSome = (d.settings.notificationsEnabled || d.settings.automaticSendingEnabled) := h
  simp only [Apt, Needed, setAutomaticSendingEnabled_monitor, setAutomaticSendingEnabled_settings, hm,
    PrivacySettingsModel.notificationsEnabled_setAutomaticSending,
    PrivacySettingsModel.automaticSendingEnabled_set]
  cases d.settings.notificationsEnabled <;> cases d.settings.automaticSendingEnabled <;>
    cases value <;> decide

/-! ### The calls over D-Bus -/

theorem startCoreMonitoringFromDBus_apt (h : d.Apt) : d.startCoreMonitoringFromDBus.Apt := by
  unfold startCoreMonitoringFromDBus
  split
  · exact h
  · have hset : (d.createMonitor.setNotificationsEnabled true).Apt :=
      setNotificationsEnabled_apt (fun _ => createMonitor_monitor) fun hn => by
        simp only [Apt, Needed, createMonitor_monitor, hn, Bool.true_or]
    simpa [Apt] using hset

/-- Stopping over D-Bus is right when nothing but the notifications asks for a monitor. -/
theorem stopCoreMonitoringFromDBus_apt (h : d.Apt) (ha : d.settings.automaticSendingEnabled = false) :
    d.stopCoreMonitoringFromDBus.Apt := by
  unfold stopCoreMonitoringFromDBus
  split
  · refine setNotificationsEnabled_apt (fun ht => absurd (ha.symm.trans ht) (by decide)) fun hn => ?_
    simp only [Apt, Needed, ha, hn]
    rfl
  · exact h

/-- With automatic sending on, the monitor is gone all the same. -/
theorem stopCoreMonitoringFromDBus_not_apt (h : d.Apt) (ha : d.settings.automaticSendingEnabled = true) :
    ¬ d.stopCoreMonitoringFromDBus.Apt := by
  have hsome : d.monitor.isSome = true := by simpa [Apt, Needed, ha] using h
  obtain ⟨monitor, hm⟩ := Option.isSome_iff_exists.mp hsome
  have hstop : d.stopCoreMonitoringFromDBus = {d with monitor := none}.setNotificationsEnabled false := by
    simp [stopCoreMonitoringFromDBus, hm]
  rw [hstop, setNotificationsEnabled_eq]
  split
  · simp [Apt, Needed, ha]
  · simp [Apt, Needed, ha, onNotificationsSettingChanged]

/-! ### The start -/

theorem startNeeded_settings : d.startNeeded.settings = d.settings := by
  unfold startNeeded
  split
  · exact startCoreMonitoring_settings
  · rfl

theorem startNeeded_apt (h : d.monitor = none) : d.startNeeded.Apt := by
  unfold Apt Needed
  rw [startNeeded_settings]
  unfold startNeeded
  split
  · rename_i hneed
    rw [startCoreMonitoring_monitor, hneed]
  · rename_i hneed
    rw [h, Bool.eq_false_iff.mpr hneed]
    rfl

theorem handleStoredCores_apt {u : Startup} (h : d.Apt) : (d.handleStoredCores u).Apt := by
  unfold handleStoredCores
  split
  · split <;> exact h
  · split <;> exact h

theorem initiateDaemon_some {u : Startup} {d' : CReporterDaemon} (h : d.initiateDaemon u = some d') :
    d' = d.startNeeded.resetSuccessCount.handleStoredCores u := by
  unfold initiateDaemon at h
  split at h
  · exact nomatch h
  · exact (Option.some.inj h).symm

/-- The rule holds from the start. -/
theorem initiateDaemon_apt {u : Startup} {d' : CReporterDaemon} (hm : d.monitor = none)
    (h : d.initiateDaemon u = some d') : d'.Apt := by
  rw [initiateDaemon_some h]
  exact handleStoredCores_apt (d := d.startNeeded.resetSuccessCount) (startNeeded_apt hm)

end CReporterDaemon

open CReporterDaemon

/-- Monitoring is stopped over D-Bus only while automatic sending is off, and automatic
sending is switched only while notifications are on. -/
def Attended (d : CReporterDaemon) : Request → Prop
  | .startCoreMonitoring => True
  | .stopCoreMonitoring => d.settings.automaticSendingEnabled = false
  | .setNotificationsEnabled _ => True
  | .setAutomaticSendingEnabled value =>
    d.settings.notificationsEnabled = true ∨ value = d.settings.automaticSendingEnabled

instance (d : CReporterDaemon) (r : Request) : Decidable (Attended d r) :=
  match r with
  | .startCoreMonitoring | .setNotificationsEnabled _ => inferInstanceAs (Decidable True)
  | .stopCoreMonitoring => inferInstanceAs (Decidable (_ = _))
  | .setAutomaticSendingEnabled _ => inferInstanceAs (Decidable (_ ∨ _))

theorem request_apt_iff {d d' : CReporterDaemon} {r : Request} (h : d.Apt)
    (hs : requests.step d r = some d') : d'.Apt ↔ Attended d r := by
  cases r with
  | startCoreMonitoring =>
    obtain rfl := Option.some.inj hs
    exact iff_true_intro (startCoreMonitoringFromDBus_apt h)
  | stopCoreMonitoring =>
    obtain rfl := Option.some.inj hs
    cases ha : d.settings.automaticSendingEnabled with
    | true => simp [Attended, ha, stopCoreMonitoringFromDBus_not_apt h ha]
    | false => simp [Attended, ha, stopCoreMonitoringFromDBus_apt h ha]
  | setNotificationsEnabled value =>
    obtain rfl := Option.some.inj hs
    refine iff_true_intro (setNotificationsEnabled_apt (fun ha => ?_) fun _ => h)
    simpa [Apt, Needed, ha] using h
  | setAutomaticSendingEnabled value =>
    obtain rfl := Option.some.inj hs
    exact setAutomaticSendingEnabled_apt_iff h

/-- **The monitor exists exactly while it is needed, in every state after the daemon was
initiated, if and only if every request is attended to.** -/
theorem monitor_iff_needed (settings : PrivacySettingsModel) (savedState : CReporterSavedState)
    (u : Startup) (d : CReporterDaemon) (h : (new settings savedState).initiateDaemon u = some d)
    (rs : List Request) : (∀ d' ∈ d :: requests.visits rs d, d'.Apt) ↔
      requests.Within Attended rs d := by
  have hd : d.Apt := initiateDaemon_apt rfl h
  rw [List.forall_mem_cons, and_iff_right hd]
  refine Machine.visits_iff_within (I := Apt) ?_ ?_ hd
  · intro d r d' hd hg hs
    have hd' := (request_apt_iff hd hs).mpr hg
    exact ⟨hd', hd'⟩
  · exact fun d r d' hd hg hs hd' => hg ((request_apt_iff hd hs).mp hd')

/-- The daemon comes up with the settings file it was installed with. -/
def installed : CReporterDaemon :=
  new ⟨⟨fun _ => .invalid⟩, ⟨false, true, true⟩, ⟨false, true, true⟩⟩ ⟨⟨fun _ => .invalid⟩⟩

def quietStartup : Startup := ⟨true, true, [], true, false⟩

def initiated : CReporterDaemon := (installed.initiateDaemon quietStartup).get (by decide)

/-- With automatic sending off, monitoring is stopped and started again over D-Bus. -/
def restart : List Request := [.setAutomaticSendingEnabled false, .stopCoreMonitoring, .startCoreMonitoring]

theorem monitor_iff_needed_restarted : requests.Within Attended restart initiated ∧
    ∀ d' ∈ initiated :: requests.visits restart initiated, d'.Apt := by
  have hw : requests.Within Attended restart initiated :=
    .of_check (g := fun d r => decide (Attended d r)) (fun _ _ => of_decide_eq_true) (by decide)
  exact ⟨hw, (monitor_iff_needed _ _ quietStartup initiated (Option.some_get _).symm _).mpr hw⟩

/-- Notifications are switched off, then automatic sending: nothing needs the monitor any
more, and nothing deletes it. -/
theorem sending_switched_off : ¬ ∀ d' ∈ initiated :: requests.visits
    [.setNotificationsEnabled false, .setAutomaticSendingEnabled false] initiated, d'.Apt := by
  intro h
  have hd := h ((initiated.setNotificationsEnabled false).setAutomaticSendingEnabled false)
    (by simp [Machine.visits, requests])
  exact absurd hd (by unfold Apt; decide)

end CrashReporter.Daemon
