import CrashReporter.Copies
import CrashReporter.Settings.ChangeSignals

/-! The privacy settings in several processes.

Each process has the values in a `QSettings` of its own. `sync()`, which comes from
`writeSettings`, from the event loop or at the end, saves what the process has set and
takes over what others have saved. A value is kept as it was set, and saved as its text.
READ turns both into the type of the default. -/
namespace CrashReporter.PrivacySettingsModel
open Copies

/-- The key that a call writes; a mark file has none. -/
def Setter.writes : Setter → Option (String × Value)
  | .setCoreDumpingEnabled value => some (Settings.CoreDumping, .bool value)
  | .setEnduranceEnabled _ | .setJournalSpyEnabled _ => none
  | .setUseHomePartitionEnabled value => some (Settings.UseHomePartition, .bool value)
  | .setNotificationsEnabled value => some (Settings.Notifications, .bool value)
  | .setAutoDeleteDuplicates value => some (Settings.AutoDeleteDuplicates, .bool value)
  | .setAutoDeleteMaxSimilarCores value => some (Settings.AutoDeleteMaxSimilarCores, .int value)
  | .setAutomaticSendingEnabled value => some (Settings.AutomaticSending, .bool value)
  | .setIncludeCore value => some (Privacy.IncludeCore, .bool value)
  | .setIncludeSystemLog value => some (Privacy.IncludeSysLog, .bool value)
  | .setIncludePackageList value => some (Privacy.IncludePkgList, .bool value)
  | .setIncludeStackTrace value => some (Privacy.IncludeStackTrace, .bool value)
  | .setDownloadDebuginfo value => some (Privacy.DownloadDebuginfo, .bool value)
  | .setPrivacyNoticeAccepted value => some (Settings.NoticeAccepted, .bool value)
  | .setAllowMobileData value => some (Settings.AllowMobileData, .bool value)
  | .setRestrictWhenLowBattery value => some (Settings.RestrictWhenLowBattery, .bool value)
  | .setRestrictWhenDischarging value => some (Settings.RestrictWhenDischarging, .bool value)
  | .setDischargingThreshold value => some (Settings.DischargingThreshold, .int (bounded value))
  | .setReduceCore value => some (Privacy.ReduceCore, .bool value)

/-- What a call sets a property to. -/
def Setter.sets (p : Property) (c : Setter) : Option Value :=
  match c.writes with
  | some (key, v) => if p.backing.map Prod.fst = some key then some v else none
  | none => none

/-- The values of a process, and the keys it has set and not saved. -/
structure QSettings where
  base : SettingsBase
  unsaved : List String

/-- The file is read. -/
def QSettings.opened (file : SettingsBase) : QSettings := ⟨file, []⟩

def QSettings.saves (s : QSettings) (key : String) : Bool := s.unsaved.contains key

/-- The processes by number, the mark files, and the values in the settings file as text. -/
structure Processes where
  file : SettingsBase
  enduranceCollectMark : MarkFile
  journalSpyMark : MarkFile
  settings : Nat → QSettings

namespace Processes

/-- The settings model of a process. -/
def model (w : Processes) (process : Nat) : PrivacySettingsModel :=
  ⟨(w.settings process).base, w.enduranceCollectMark, w.journalSpyMark⟩

/-- The values of a process after a call. -/
def called (process : Nat) (c : Setter) (w : Processes) : QSettings :=
  ⟨((w.model process).call c).1.base, (c.writes.map Prod.fst).toList ++ (w.settings process).unsaved⟩

def call (process : Nat) (c : Setter) (w : Processes) : Processes :=
  let (m, _) := (w.model process).call c
  {w with
    enduranceCollectMark := m.enduranceCollectMark
    journalSpyMark := m.journalSpyMark
    settings := Function.update w.settings process (w.called process c)}

/-- The values of a process after `sync()`. -/
def synced (process : Nat) (w : Processes) : QSettings :=
  let s := w.settings process
  ⟨⟨fun key => if s.saves key then s.base.values key else w.file.values key⟩, []⟩

def sync (process : Nat) (w : Processes) : Processes :=
  let s := w.settings process
  {w with
    file := ⟨fun key => if s.saves key then (s.base.values key).reread else w.file.values key⟩
    settings := Function.update w.settings process (w.synced process)}

def restart (process : Nat) (w : Processes) : Processes :=
  {w with settings := Function.update w.settings process (.opened w.file)}

end Processes

/-- What the processes do with the settings. -/
inductive Action where
  | call (process : Nat) (c : Setter)
  | sync (process : Nat)
  /-- The process ends without another `sync()`, and the next one under its number begins. -/
  | restart (process : Nat)
deriving DecidableEq

def act (w : Processes) : Action → Processes
  | .call process c => w.call process c
  | .sync process => w.sync process
  | .restart process => w.restart process

/-- All processes have read the file. -/
def reading (file : PrivacySettingsModel) : Processes :=
  ⟨file.base.reread, file.enduranceCollectMark, file.journalSpyMark, fun _ => .opened file.base.reread⟩

def run (file : PrivacySettingsModel) (actions : List Action) : Processes := actions.foldl act (reading file)

/-- What is done with one property. -/
def Action.access (p : Property) : Action → Option (Copies.Access Nat Value)
  | .call process c => (c.sets p).map (.write process)
  | .sync process => some (.sync process)
  | .restart process => some (.restart process)

/-- What the file says at first. -/
def Property.first (p : Property) (file : PrivacySettingsModel) : Value := p.read ((reading file).model 0)

/-- One property alone, with a copy of its value in each process. -/
def Property.register (p : Property) (file : PrivacySettingsModel) (actions : List Action) : Register Nat Value :=
  (Register.start (p.first file)).run (actions.filterMap (Action.access p))

/-! ### One action -/

section Action
variable {m : PrivacySettingsModel} {c : Setter} {p : Property} {key : String} {v d : Value}

theorem call_base (m : PrivacySettingsModel) (c : Setter) : (m.call c).1.base =
    match c.writes with
    | some (key, v) => (m.base.setValue key v).1
    | none => m.base := by
  cases c <;> rfl

/-- Whatever is written under the key of a property has its type. -/
theorem writes_typed (hw : c.writes = some (key, v)) (hp : p.backing = some (key, d)) :
    asValue d (.value v) = v := by
  have hbool {q : Property} {b value : Bool} (hq : q.backing = some (key, .bool b)) :
      asValue d (.value (.bool value)) = .bool value := by
    obtain rfl := Property.key_injective q p (by rw [hq]; rfl) (by rw [hq, hp]; rfl)
    cases hq.symm.trans hp
    exact asValue_bool b value
  have hnone (hk : ∀ q : Property, q.backing.map Prod.fst ≠ some key) : asValue d (.value v) = v :=
    absurd (by rw [hp]; rfl) (hk p)
  cases c <;> cases hw
  case setCoreDumpingEnabled => exact hbool (q := .coreDumping) rfl
  case setUseHomePartitionEnabled => exact hbool (q := .useHomePartition) rfl
  case setNotificationsEnabled => exact hbool (q := .notifications) rfl
  case setAutoDeleteDuplicates => exact hbool (q := .autoDeleteDuplicates) rfl
  case setIncludeStackTrace => exact hbool (q := .includeStackTrace) rfl
  case setDownloadDebuginfo => exact hbool (q := .downloadDebuginfo) rfl
  case setPrivacyNoticeAccepted => exact hbool (q := .privacyNoticeAccepted) rfl
  case setAllowMobileData => exact hbool (q := .allowMobileData) rfl
  case setRestrictWhenLowBattery => exact hbool (q := .restrictWhenLowBattery) rfl
  case setRestrictWhenDischarging => exact hbool (q := .restrictWhenDischarging) rfl
  case setDischargingThreshold value =>
    obtain rfl := Property.key_injective .dischargingThreshold p rfl (by rw [hp]; rfl)
    cases hp
    simp [asValue, Variant.toInt, Variant.toInt?, Value.number]
  all_goals exact hnone (by decide)

/-- The text of a value is read as the value. -/
theorem asValue_reread (h : asValue d (.value v) = v) : asValue d (Variant.value v).reread = v := by
  have hb := v.number_bounds
  have hint (ht : v.toText = Text.decimal v.number) : (Variant.value v).reread.toInt = (Variant.value v).toInt := by
    simp [Variant.reread, ht, Variant.toInt, Variant.toInt?, Text.toLongLong_decimal hb.1 hb.2]
  cases v with
  | bool b =>
    cases d with
    | bool d => cases b <;> rfl
    | int d => cases h
    | uint d => cases h
  | int n =>
    cases d with
    | bool d => cases h
    | int d => exact (congrArg Value.int (hint rfl)).trans h
    | uint d => cases h
  | uint n =>
    cases d with
    | bool d => cases h
    | int d => cases h
    | uint d => exact (congrArg (fun i : Int32 => Value.uint i.toUInt32) (hint rfl)).trans h

end Action

/-! ### One property -/

section Follows
variable {p : Property} {key key' : String} {v d : Value} {s t : SettingsBase} {w : Processes}
  {r : Register Nat Value}

theorem value_congr (h : s.values key = t.values key) : s.value key d = t.value key d := by
  rw [SettingsBase.value, SettingsBase.value, h]

/-- What is saved is read as what was kept. -/
theorem asValue_saved (htyped : ∀ v, s.values key = .value v → asValue d (.value v) = v)
    (h : t.values key = (s.values key).reread) : asValue d (t.value key d) = asValue d (s.value key d) := by
  rw [SettingsBase.value, SettingsBase.value, h]
  cases hv : s.values key with
  | invalid | text => rfl
  | value v =>
    have ht := htyped v hv
    exact (asValue_reread ht).trans ht.symm

/-- The processes have the values of a register under the key, each of the right type. -/
structure Follows (key : String) (d : Value) (r : Register Nat Value) (w : Processes) : Prop where
  typed : ∀ i v, (w.settings i).base.values key = .value v → asValue d (.value v) = v
  text : ∀ v, w.file.values key ≠ .value v
  seen : ∀ i, asValue d ((w.settings i).base.value key d) = r.seen i
  unsaved : ∀ i, (w.settings i).saves key = r.unsaved i
  saved : asValue d (w.file.value key d) = r.saved

/-- One process has new values, and the file with it or not. -/
theorem Follows.update {saved x : Value} {b : Bool} (h : Follows key d r w) {i : Nat} {q : QSettings} {u : Processes}
    (hsettings : u.settings = Function.update w.settings i q)
    (htyped : ∀ v, q.base.values key = .value v → asValue d (.value v) = v)
    (hseen : asValue d (q.base.value key d) = x) (hunsaved : q.saves key = b)
    (htext : ∀ v, u.file.values key ≠ .value v) (hsaved : asValue d (u.file.value key d) = saved) :
    Follows key d ⟨saved, Function.update r.seen i x, Function.update r.unsaved i b⟩ u := by
  refine ⟨fun j v hv => ?_, htext, fun j => ?_, fun j => ?_, hsaved⟩
  · rw [hsettings] at hv
    rcases eq_or_ne j i with rfl | hne
    · rw [Function.update_self] at hv
      exact htyped v hv
    · rw [Function.update_of_ne hne] at hv
      exact h.typed j v hv
  · rw [hsettings]
    rcases eq_or_ne j i with rfl | hne
    · simp only [Function.update_self, hseen]
    · simp only [Function.update_of_ne hne, h.seen]
  · rw [hsettings]
    rcases eq_or_ne j i with rfl | hne
    · simp only [Function.update_self, hunsaved]
    · simp only [Function.update_of_ne hne, h.unsaved]

theorem Follows.call_written (h : Follows key d r w) (hp : p.backing = some (key, d)) (i : Nat) {c : Setter}
    (hw : c.writes = some (key, v)) : Follows key d (r.access (.write i v)) (w.call i c) := by
  have ht := writes_typed hw hp
  have hbase : (w.called i c).base = ((w.model i).base.setValue key v).1 := by rw [Processes.called, call_base, hw]
  refine h.update rfl (fun v' hv' => ?_) ?_ ?_ h.text h.saved
  · rw [hbase] at hv'
    have hvalue : ((w.model i).base.setValue key v).1.values key = .value v := Function.update_self ..
    exact Variant.value.inj (hvalue.symm.trans hv') ▸ ht
  · rw [hbase, SettingsBase.value_setValue, ht]
  · simp [Processes.called, QSettings.saves, hw]

theorem Follows.call_other (h : Follows key d r w) (i : Nat) {c : Setter} (hw : c.writes.map Prod.fst ≠ some key) :
    Follows key d r (w.call i c) := by
  have hvalues : (w.called i c).base.values key = (w.settings i).base.values key := by
    rw [Processes.called, call_base]
    cases hc : c.writes with
    | none => rfl
    | some written =>
      have hne : key ≠ written.1 := fun he => hw (by rw [hc, he]; rfl)
      exact Function.update_of_ne hne ..
  have hsaves : (w.called i c).saves key = (w.settings i).saves key := by
    cases hc : c.writes.map Prod.fst with
    | none => simp [Processes.called, QSettings.saves, hc]
    | some key' =>
      have hne : key ≠ key' := fun he => hw (by rw [hc, he])
      simp [Processes.called, QSettings.saves, hc, hne]
  have hf := h.update (u := w.call i c) rfl (fun v hv => h.typed i v (hvalues ▸ hv))
    ((congrArg _ (value_congr hvalues)).trans (h.seen i)) (hsaves.trans (h.unsaved i)) h.text h.saved
  rwa [Function.update_eq_self, Function.update_eq_self] at hf

theorem Follows.restart (h : Follows key d r w) (i : Nat) : Follows key d (r.access (.restart i)) (w.restart i) :=
  h.update rfl (fun v hv => absurd hv (h.text v)) h.saved rfl h.text h.saved

theorem Follows.sync (h : Follows key d r w) (i : Nat) : Follows key d (r.access (.sync i)) (w.sync i) := by
  by_cases hu : (w.settings i).saves key = true
  · have hfile : (w.sync i).file.values key = ((w.settings i).base.values key).reread := if_pos hu
    have hvalues : (w.synced i).base.values key = (w.settings i).base.values key := if_pos hu
    have hf := h.update (u := w.sync i) (i := i) rfl (fun v hv => h.typed i v (hvalues ▸ hv))
      ((congrArg _ (value_congr hvalues)).trans (h.seen i)) rfl (fun v hv => ?_)
      ((asValue_saved (h.typed i) hfile).trans (h.seen i))
    · rw [Function.update_eq_self] at hf
      rwa [Register.access, if_pos ((h.unsaved i).symm.trans hu)]
    · rw [hfile] at hv
      cases hold : (w.settings i).base.values key <;> simp [hold, Variant.reread] at hv
  · have hr : r.unsaved i = false := (h.unsaved i).symm.trans (Bool.eq_false_iff.mpr hu)
    have hfile : (w.sync i).file.values key = w.file.values key := if_neg hu
    have hvalues : (w.synced i).base.values key = w.file.values key := if_neg hu
    have hf := h.update (u := w.sync i) (i := i) rfl (fun v hv => absurd (hvalues ▸ hv) (h.text v))
      ((congrArg _ (value_congr hvalues)).trans h.saved) hr.symm (fun v hv => h.text v (hfile ▸ hv))
      ((congrArg _ (value_congr hfile)).trans h.saved)
    rw [Function.update_eq_self] at hf
    rwa [Register.access, if_neg (by simp [hr])]

end Follows

/-! ### All processes -/

section Runs
variable {p : Property} {key : String} {d : Value}

theorem Follows.act {r : Register Nat Value} {w : Processes} (h : Follows key d r w)
    (hp : p.backing = some (key, d)) (a : Action) :
    Follows key d ((a.access p).elim r r.access) (act w a) := by
  cases a with
  | sync i => exact h.sync i
  | restart i => exact h.restart i
  | call i c =>
    cases hw : c.writes with
    | none =>
      have hsets : c.sets p = none := by simp [Setter.sets, hw]
      rw [Action.access, hsets]
      exact h.call_other i (by simp [hw])
    | some written =>
      obtain ⟨key', v⟩ := written
      by_cases hk : key = key'
      · subst hk
        have hsets : c.sets p = some v := by simp [Setter.sets, hw, hp]
        rw [Action.access, hsets]
        exact h.call_written hp i hw
      · have hsets : c.sets p = none := by simp [Setter.sets, hw, hp, hk]
        rw [Action.access, hsets]
        exact h.call_other i (by simpa [hw] using Ne.symm hk)

theorem Follows.foldl {r : Register Nat Value} {w : Processes} (h : Follows key d r w)
    (hp : p.backing = some (key, d)) (actions : List Action) :
    Follows key d (r.run (actions.filterMap (Action.access p))) (actions.foldl PrivacySettingsModel.act w) := by
  induction actions generalizing r w with
  | nil => exact h
  | cons a rest ih =>
    have hstep := ih (h.act hp a)
    cases ha : a.access p <;> simpa [List.filterMap_cons, Register.run, ha] using hstep

theorem follows_reading (file : PrivacySettingsModel) (hp : p.backing = some (key, d)) :
    Follows key d (Register.start (p.first file)) (reading file) := by
  have htext (v : Value) : (reading file).file.values key ≠ .value v := by
    intro hv
    have hvalue : (file.base.values key).reread = .value v := hv
    cases h : file.base.values key <;> simp [h, Variant.reread] at hvalue
  have hfirst : asValue d ((reading file).file.value key d) = p.first file := by
    rw [Property.first, Property.read_backing hp]
    rfl
  exact ⟨fun _ v hv => absurd hv (htext v), htext, fun _ => hfirst, fun _ => rfl, hfirst⟩

theorem read_run (file : PrivacySettingsModel) (actions : List Action) (hp : p.backing = some (key, d))
    (process : Nat) :
    p.read ((run file actions).model process) = (p.register file actions).seen process := by
  rw [Property.read_backing hp]
  exact ((follows_reading file hp).foldl hp actions).seen process

/-- **A process reads a property that is kept in the settings file as the copy that it would
have of this property alone: as what it has set itself and not saved, or else as what was
saved last when it last read the file.** -/
theorem settings_survive (file : PrivacySettingsModel) (actions : List Action)
    (hp : p.backing = some (key, d)) (process : Nat) :
    p.read ((run file actions).model process) = (p.register file actions).seen process :=
  read_run file actions hp process

/-- Two processes set a property each, and then save. -/
def eachSaves : List Action := [.call 0 (.setDischargingThreshold 250), .call 1 (.setRestrictWhenDischarging false),
  .sync 0, .sync 1]

/-- Both have the threshold, the second one from the file. -/
theorem settings_survive_threshold :
    Property.dischargingThreshold.read ((run untouched eachSaves).model 0) = .int 100 ∧
      Property.dischargingThreshold.read ((run untouched eachSaves).model 1) = .int 100 := by
  rw [settings_survive untouched eachSaves (p := .dischargingThreshold) rfl 0,
    settings_survive untouched eachSaves (p := .dischargingThreshold) rfl 1]
  decide

end Runs

end CrashReporter.PrivacySettingsModel
