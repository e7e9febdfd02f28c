import CrashReporter.Monitor.Locations
import CrashReporter.Settings.PrivacySettings

/-! The switches for endurance reports and for the journal spy.

A click on one of them sets a mark file and asks `crashreporter-servicehelper`, which is
set-uid, to start or stop the service. The mark is made in the first core directory that
exists. systemd looks for it in `/var/cache/core-dumps`, each time it is to start the
service, and so does the next boot. What systemd does is a parameter, and `Documented` is
what it promises for units like these. -/
namespace CrashReporter.Ui.OptionalServices
open PrivacySettingsModel

/-! ### The helper -/

namespace ServiceHelper

def serviceName (service : String) : Option String :=
  if service = "journalspy" then some "crash-reporter-journalspy.service"
  else if service = "endurance" then some "crash-reporter-endurance.service"
  else none

def start (action : String) : Option Bool :=
  if action = "start" then some true
  else if action = "stop" then some false
  else none

/-- What `main` executes, none after the usage. -/
def main (argv : List String) : Option (List String) :=
  match argv with
  | [_, service, action] =>
    (serviceName service).bind fun serviceName => (start action).map fun start =>
      ["systemctl", if start then "start" else "stop", serviceName]
  | _ => none

end ServiceHelper

inductive Service where
  | endurance | journalSpy
deriving DecidableEq

namespace Service

/-- The name that the helper knows it by. -/
def name : Service → String
  | .endurance => "endurance"
  | .journalSpy => "journalspy"

def unit : Service → String
  | .endurance => "crash-reporter-endurance.service"
  | .journalSpy => "crash-reporter-journalspy.service"

/-- The property of the settings model, and its signal. -/
def changed : Service → Signal
  | .endurance => .enduranceEnabledChanged
  | .journalSpy => .journalSpyEnabledChanged

end Service

/-- `runServiceHelper`. -/
def helperArguments (service : Service) (run : Bool) : List String :=
  ["/usr/libexec/crashreporter-servicehelper", service.name, if run then "start" else "stop"]

/-! ### systemd -/

/-- What runs after a command, after a unit has ended by itself and after a boot, by the
units whose condition is met and those that ran. -/
structure Systemd where
  systemctl (command : List String) (conditions running : String → Bool) : String → Bool
  ended (unit : String) (conditions running : String → Bool) : String → Bool
  boot (conditions : String → Bool) : String → Bool

/-- The two units have a condition, are always restarted and are wanted at boot: a unit is
started when its condition is met, and only then. None of them fails so often in a short
time that systemd gives it up. -/
structure Systemd.Documented (systemd : Systemd) : Prop where
  start : ∀ (service : Service) conditions running, systemd.systemctl ["systemctl", "start", service.unit]
    conditions running = Function.update running service.unit (running service.unit || conditions service.unit)
  stop : ∀ (service : Service) conditions running, systemd.systemctl ["systemctl", "stop", service.unit]
    conditions running = Function.update running service.unit false
  ended : ∀ (service : Service) conditions running, systemd.ended service.unit conditions running =
    Function.update running service.unit (conditions service.unit)
  boot : ∀ (service : Service) conditions, systemd.boot conditions service.unit = conditions service.unit

/-! ### The settings page -/

/-- `ConditionPathExists` of the two units, without the name of the mark. -/
def conditionDirectory : Text := "/var/cache/core-dumps".toList

structure World where
  /-- The directories that are there, by their clean paths. -/
  there : Text → Bool
  /-- The mark of a service in a directory that is there. -/
  mark : Service → Text → MarkFile
  /-- The units that run. -/
  running : String → Bool
  /-- The switches, while the page is open. -/
  checked : Option (Service → Bool)
  /-- `first()` was called on an empty list. -/
  fault : Bool

namespace World

/-- `environment` has the mount points that the environment names. -/
def getCoreLocationPaths (environment : List Text) (w : World) : List Text :=
  ((Monitor.createCoreLocationRegistry environment).map Monitor.absolutePath).filter w.there

/-- The first of them, none when there is no core directory. -/
def first (environment : List Text) (w : World) : Option Text := (w.getCoreLocationPaths environment).head?

/-- `enduranceEnabled()` and `journalSpyEnabled()`. -/
def enabled (environment : List Text) (w : World) (service : Service) : Option Bool :=
  (w.first environment).map fun first => (w.mark service first).present

def setEnabled (first : Text) (service : Service) (value : Bool) (w : World) : World :=
  {w with mark := Function.update w.mark service (Function.update (w.mark service) first
    (setMark value service.changed (w.mark service first)).1)}

/-- systemd finds the mark. -/
def conditionMet (w : World) (service : Service) : Bool :=
  w.there conditionDirectory && (w.mark service conditionDirectory).present

/-- The condition of each unit. -/
def conditions (w : World) (unit : String) : Bool :=
  if unit = Service.endurance.unit then w.conditionMet .endurance
  else if unit = Service.journalSpy.unit then w.conditionMet .journalSpy
  else false

/-- `executed` unless the helper cannot be run. -/
def setServiceState (systemd : Systemd) (service : Service) (run executed : Bool) (w : World) : World :=
  match ServiceHelper.main (helperArguments service run) with
  | some command => if executed then {w with running := systemd.systemctl command w.conditions w.running} else w
  | none => w

/-- A click sets its switch, which does not follow the setting any more. -/
def clicked (systemd : Systemd) (first : Text) (service : Service) (executed : Bool) (checked : Service → Bool)
    (w : World) : World :=
  let checked := Function.update checked service (!checked service)
  ({w with checked := some checked}.setEnabled first service (checked service)).setServiceState systemd service
    (checked service) executed

/-- The page asks for the settings. -/
def opened (environment : List Text) (w : World) : World :=
  match w.first environment with
  | some first => {w with checked := some fun service => (w.mark service first).present}
  | none => {w with fault := true}

end World

inductive Event where
  /-- The page is opened. -/
  | opened
  | clicked (service : Service) (executed : Bool)
  /-- A service ends by itself. -/
  | ended (service : Service)
  /-- Core directories and marks come and go. -/
  | files (there : Text → Bool) (mark : Service → Text → MarkFile)
  | boot

section Machine
variable (systemd : Systemd) (environment : List Text)

def machine : Machine World Event where
  step w
    | .opened => some (w.opened environment)
    | .clicked service executed => w.checked.map fun checked =>
      match w.first environment with
      | some first => w.clicked systemd first service executed checked
      | none => {w with fault := true}
    | .ended service =>
      if w.running service.unit then some {w with running := systemd.ended service.unit w.conditions w.running}
      else none
    | .files there mark => some {w with there := there, mark := mark}
    | .boot => some {w with running := systemd.boot w.conditions, checked := none}

/-- After a boot. -/
def booted (there : Text → Bool) (mark : Service → Text → MarkFile) : World :=
  let w : World := ⟨there, mark, fun _ => false, none, false⟩
  {w with running := systemd.boot w.conditions}

end Machine

/-! ### The commands -/

theorem serviceName_eq_some {service serviceName : String} (h : ServiceHelper.serviceName service = some serviceName) :
    ∃ s : Service, service = s.name ∧ serviceName = s.unit := by
  unfold ServiceHelper.serviceName at h
  split at h
  · exact ⟨.journalSpy, ‹_›, (Option.some.inj h).symm⟩
  · split at h
    · exact ⟨.endurance, ‹_›, (Option.some.inj h).symm⟩
    · cases h

theorem start_eq_some {action : String} {run : Bool} (h : ServiceHelper.start action = some run) :
    action = if run then "start" else "stop" := by
  unfold ServiceHelper.start at h
  split at h
  · cases h
    assumption
  · split at h
    · cases h
      assumption
    · cases h

/-- The helper runs nothing but systemctl, to start or stop one of the two units. -/
theorem main_eq_some {argv command : List String} (h : ServiceHelper.main argv = some command) :
    ∃ program, ∃ service : Service, ∃ run : Bool,
      argv = [program, service.name, if run then "start" else "stop"] ∧
      command = ["systemctl", if run then "start" else "stop", service.unit] := by
  unfold ServiceHelper.main at h
  split at h
  · rename_i program _ _
    obtain ⟨_, hservice, h⟩ := Option.bind_eq_some_iff.mp h
    obtain ⟨run, hstart, rfl⟩ := Option.map_eq_some_iff.mp h
    obtain ⟨service, rfl, rfl⟩ := serviceName_eq_some hservice
    obtain rfl := start_eq_some hstart
    exact ⟨program, service, run, rfl, rfl⟩
  · cases h

theorem main_helperArguments (service : Service) (run : Bool) : ServiceHelper.main (helperArguments service run) =
    some ["systemctl", if run then "start" else "stop", service.unit] := by
  cases service <;> cases run <;> decide

/-! ### One click -/

section Click
variable {systemd : Systemd} {environment : List Text} {w : World} {first : Text} {service : Service}
  {executed : Bool} {checked : Service → Bool}

/-- What a click wants of the mark. -/
def wanted (mark : MarkFile) : Bool := if mark.present then mark.removable else mark.creatable

theorem present_setMark {mark : MarkFile} {signal : Signal} :
    (setMark (!mark.present) signal mark).1.present = !mark.present ↔ wanted mark = true := by
  cases h : mark.present <;> simp [wanted, setMark, MarkFile.create, MarkFile.remove, h]

theorem conditions_unit (w : World) (service : Service) : w.conditions service.unit = w.conditionMet service := by
  cases service <;> simp [World.conditions, Service.unit]

theorem unit_injective : Function.Injective Service.unit := by
  intro service other h
  cases service <;> cases other <;> first | rfl | simp [Service.unit] at h

theorem there_of_first (h : w.first environment = some first) : w.there first = true :=
  (List.mem_filter.mp (List.mem_of_head? h)).2

theorem first_congr {t : World} (h : t.there = w.there) : t.first environment = w.first environment := by
  simp [World.first, World.getCoreLocationPaths, h]

theorem setServiceState_eq (hsystemd : systemd.Documented) (service : Service) (run executed : Bool) (w : World) :
    w.setServiceState systemd service run executed = if executed then {w with
      running := Function.update w.running service.unit
        (if run then w.running service.unit || w.conditionMet service else false)}
    else w := by
  rw [World.setServiceState, main_helperArguments]
  cases run with
  | true => simp [hsystemd.start, conditions_unit]
  | false => simp [hsystemd.stop]

section Clicked
variable (hsystemd : systemd.Documented)
include hsystemd

theorem clicked_there : (w.clicked systemd first service executed checked).there = w.there := by
  rw [World.clicked, setServiceState_eq hsystemd]
  split <;> rfl

theorem clicked_fault : (w.clicked systemd first service executed checked).fault = w.fault := by
  rw [World.clicked, setServiceState_eq hsystemd]
  split <;> rfl

theorem clicked_checked : (w.clicked systemd first service executed checked).checked =
    some (Function.update checked service (!checked service)) := by
  rw [World.clicked, setServiceState_eq hsystemd]
  split <;> rfl

theorem clicked_mark : (w.clicked systemd first service executed checked).mark =
    Function.update w.mark service (Function.update (w.mark service) first
      (setMark (!checked service) service.changed (w.mark service first)).1) := by
  rw [World.clicked, setServiceState_eq hsystemd]
  split <;> simp [World.setEnabled]

theorem clicked_running : (w.clicked systemd first service executed checked).running =
    if executed then Function.update w.running service.unit (if !checked service then
      w.running service.unit || (w.clicked systemd first service executed checked).conditionMet service else false)
    else w.running := by
  rw [World.conditionMet, clicked_mark hsystemd, clicked_there hsystemd, World.clicked, setServiceState_eq hsystemd]
  cases executed <;> simp [World.setEnabled, World.conditionMet]

end Clicked

end Click

/-! ### Every run -/

/-- The mark that systemd looks for, the service, the setting and an open page say the same. -/
structure Agree (environment : List Text) (w : World) : Prop where
  safe : w.fault = false
  runs : ∀ service, w.running service.unit = w.conditionMet service
  set : ∀ service, w.enabled environment service = some (w.conditionMet service)
  shown : ∀ checked, w.checked = some checked → ∀ service, checked service = w.conditionMet service

/-- A click finds the first core directory where systemd looks, the mark as it wants it and
the helper. When directories or marks come and go, systemd finds the marks that it found
before, and so does the page in the directory that is first then. -/
def Kept (environment : List Text) (w : World) : Event → Prop
  | .clicked service executed => executed = true ∧ w.first environment = some conditionDirectory ∧
      wanted (w.mark service conditionDirectory) = true
  | .files there mark => ∀ service,
      World.conditionMet {w with there := there, mark := mark} service = w.conditionMet service ∧
      World.enabled environment {w with there := there, mark := mark} service = some (w.conditionMet service)
  | .opened | .ended _ | .boot => True

section Runs
variable {systemd : Systemd} {environment : List Text} {w : World} {first : Text} {service : Service}
  {executed : Bool} {checked : Service → Bool}

theorem enabled_eq (h : w.first environment = some first) (service : Service) :
    w.enabled environment service = some (w.mark service first).present := by
  rw [World.enabled, h]
  rfl

/-- A click that is kept turns over its service and nothing else. -/
theorem clicked_conditionMet (hsystemd : systemd.Documented) (hthere : w.there conditionDirectory = true)
    (hs : checked service = w.conditionMet service) (hwanted : wanted (w.mark service conditionDirectory) = true)
    (executed : Bool) : (w.clicked systemd conditionDirectory service executed checked).conditionMet =
      Function.update w.conditionMet service (!checked service) := by
  funext other
  rw [World.conditionMet, clicked_mark hsystemd, clicked_there hsystemd, hthere, Bool.true_and]
  by_cases ho : other = service
  · subst ho
    rw [World.conditionMet, hthere, Bool.true_and] at hs
    rw [Function.update_self, Function.update_self, Function.update_self, hs]
    exact present_setMark.mpr hwanted
  · rw [Function.update_of_ne ho, Function.update_of_ne ho, World.conditionMet, hthere, Bool.true_and]

theorem Agree.clicked (hsystemd : systemd.Documented) (h : Agree environment w) (hc : w.checked = some checked)
    (hg : Kept environment w (.clicked service true)) :
    Agree environment (w.clicked systemd conditionDirectory service true checked) := by
  obtain ⟨-, hfirst, hwanted⟩ := hg
  have hthere := there_of_first hfirst
  have hcondition := clicked_conditionMet hsystemd hthere (h.shown _ hc service) hwanted true
  have hfirst' : (w.clicked systemd conditionDirectory service true checked).first environment =
      some conditionDirectory := (first_congr (clicked_there hsystemd)).trans hfirst
  refine ⟨(clicked_fault hsystemd).trans h.safe, fun other => ?_, fun other => ?_, fun checked' hc' other => ?_⟩
  · rw [clicked_running hsystemd, if_pos rfl, hcondition]
    by_cases ho : other = service
    · subst ho
      cases checked other <;> simp
    · rw [Function.update_of_ne (unit_injective.ne ho), Function.update_of_ne ho]
      exact h.runs other
  · rw [enabled_eq hfirst', World.conditionMet, clicked_there hsystemd, hthere, Bool.true_and]
  · rw [clicked_checked hsystemd] at hc'
    obtain rfl := Option.some.inj hc'
    rw [hcondition]
    by_cases ho : other = service
    · subst ho
      rw [Function.update_self, Function.update_self]
    · rw [Function.update_of_ne ho, Function.update_of_ne ho]
      exact h.shown _ hc other

/-- After any other click the page, the mark and the service are not the same. -/
theorem Agree.unkept (hsystemd : systemd.Documented) (h : Agree environment w) (hc : w.checked = some checked)
    (hfirst : w.first environment = some first)
    (ht : Agree environment (w.clicked systemd first service executed checked)) :
    Kept environment w (.clicked service executed) := by
  have hold : checked service = w.conditionMet service := h.shown _ hc service
  have hnew : (w.clicked systemd first service executed checked).conditionMet service = !checked service := by
    have hshown := ht.shown _ (clicked_checked hsystemd) service
    rw [← hshown, Function.update_self]
  have hdirectory : first = conditionDirectory := by
    by_contra hne
    rw [World.conditionMet, clicked_mark hsystemd, clicked_there hsystemd, Function.update_self,
      Function.update_of_ne (Ne.symm hne)] at hnew
    exact absurd (hold.trans hnew) (by cases checked service <;> decide)
  subst hdirectory
  refine ⟨?_, hfirst, ?_⟩
  · by_contra hexecuted
    have hruns := ht.runs service
    rw [clicked_running hsystemd, if_neg hexecuted, hnew, h.runs, ← hold] at hruns
    exact absurd hruns (by cases checked service <;> decide)
  · have hthere := there_of_first hfirst
    rw [World.conditionMet, clicked_mark hsystemd, clicked_there hsystemd, hthere, Bool.true_and, Function.update_self,
      Function.update_self] at hnew
    rw [World.conditionMet, hthere, Bool.true_and] at hold
    rw [hold] at hnew
    exact present_setMark.mp hnew

theorem Agree.step (hsystemd : systemd.Documented) {t : World} {e : Event} (h : Agree environment w)
    (hs : (machine systemd environment).step w e = some t) : Agree environment t ↔ Kept environment w e := by
  have hsome : ∃ first, w.first environment = some first := by
    obtain ⟨first, hfirst, -⟩ := Option.map_eq_some_iff.mp (h.set .endurance)
    exact ⟨first, hfirst⟩
  obtain ⟨first, hfirst⟩ := hsome
  cases e with
  | opened =>
    obtain rfl := Option.some.inj hs
    refine iff_true_intro ?_
    simp only [World.opened, hfirst]
    refine ⟨h.safe, h.runs, h.set, fun checked hc service => ?_⟩
    obtain rfl := Option.some.inj hc
    exact Option.some.inj ((enabled_eq hfirst service).symm.trans (h.set service))
  | clicked service executed =>
    obtain ⟨checked, hc, rfl⟩ := Option.map_eq_some_iff.mp hs
    simp only [hfirst]
    refine ⟨h.unkept hsystemd hc hfirst, fun hg => ?_⟩
    obtain rfl := hg.1
    obtain rfl := Option.some.inj (hfirst.symm.trans hg.2.1)
    exact h.clicked hsystemd hc hg
  | ended service =>
    simp only [machine] at hs
    split at hs
    · obtain rfl := Option.some.inj hs
      refine iff_true_intro ⟨h.safe, fun other => ?_, h.set, h.shown⟩
      simp only [hsystemd.ended, conditions_unit]
      by_cases ho : other = service
      · subst ho
        exact Function.update_self ..
      · exact (Function.update_of_ne (unit_injective.ne ho) ..).trans (h.runs other)
    · cases hs
  | files there mark =>
    obtain rfl := Option.some.inj hs
    constructor
    · intro ht service
      have hcondition := (ht.runs service).symm.trans (h.runs service)
      exact ⟨hcondition, (ht.set service).trans (congrArg some hcondition)⟩
    · intro hg
      exact ⟨h.safe, fun service => (h.runs service).trans (hg service).1.symm,
        fun service => (hg service).2.trans (congrArg some (hg service).1.symm),
        fun checked hc service => (h.shown checked hc service).trans (hg service).1.symm⟩
  | boot =>
    obtain rfl := Option.some.inj hs
    refine iff_true_intro ⟨h.safe, fun service => ?_, h.set, nofun⟩
    exact (hsystemd.boot ..).trans (conditions_unit w service)

end Runs

/-- **The switch, the setting, the service and the next boot agree all along, and there is a
core directory whenever one is asked for, exactly when every click is kept, and so are the
marks when directories come and go.** -/
theorem services_follow_switches (systemd : Systemd) (hsystemd : systemd.Documented) (environment : List Text)
    (there : Text → Bool) (mark : Service → Text → MarkFile)
    (hfirst : (booted systemd there mark).first environment = some conditionDirectory) (es : List Event) :
    (∀ w ∈ (machine systemd environment).visits es (booted systemd there mark), Agree environment w) ↔
      (machine systemd environment).Within (Kept environment) es (booted systemd there mark) := by
  have hbooted : Agree environment (booted systemd there mark) := by
    refine ⟨rfl, fun service => ?_, fun service => ?_, nofun⟩
    · exact (hsystemd.boot ..).trans (conditions_unit _ service)
    · rw [enabled_eq hfirst, World.conditionMet, there_of_first hfirst, Bool.true_and]
  refine Machine.visits_iff_within (I := Agree environment) ?_ ?_ hbooted
  · intro w e t h hg hs
    have ht := (h.step hsystemd hs).mpr hg
    exact ⟨ht, ht⟩
  · exact fun w e t h hg hs ht => hg ((h.step hsystemd hs).mp ht)

/-- Every command does what it says. -/
def obedient : Systemd where
  systemctl command conditions running := match command with
    | [_, "start", unit] => Function.update running unit (running unit || conditions unit)
    | [_, "stop", unit] => Function.update running unit false
    | _ => running
  ended unit conditions running := Function.update running unit (conditions unit)
  boot conditions := conditions

theorem obedient_documented : obedient.Documented :=
  ⟨fun _ _ _ => rfl, fun _ _ _ => rfl, fun _ _ _ => rfl, fun _ _ => rfl⟩

def homeDirectory : Text := "/home/.crash-reporter/core-dumps".toList

/-- No mark is there, and all can be made and removed. -/
def unmarked : Service → Text → MarkFile := fun _ _ => ⟨false, true, true⟩

/-- The mark for endurance reports has been made. -/
def marked : Service → Text → MarkFile := fun service _ => ⟨service = .endurance, true, true⟩

def bothThere : World := booted obedient (fun path => path = conditionDirectory ∨ path = homeDirectory) unmarked

/-- The switch is turned on; the other directory goes, the service ends, and the device is
booted; and the switch is turned off again. -/
def onAndOff : List Event := [.opened, .clicked .endurance true, .files (· = conditionDirectory) marked,
  .ended .endurance, .boot, .opened, .clicked .endurance true]

/-- The guard, computed. -/
def kept (w : World) (e : Event) : Bool :=
  match e with
  | .clicked service executed => executed && w.first [] = some conditionDirectory &&
      wanted (w.mark service conditionDirectory)
  | .files there mark => [.endurance, .journalSpy].all fun service =>
      World.conditionMet {w with there := there, mark := mark} service = w.conditionMet service &&
      World.enabled [] {w with there := there, mark := mark} service = some (w.conditionMet service)
  | _ => true

theorem kept_sound (w : World) (e : Event) (h : kept w e = true) : Kept [] w e := by
  cases e with
  | clicked service executed => simpa [kept, Kept, and_assoc] using h
  | files there mark =>
    simp only [kept, List.all_cons, List.all_nil, Bool.and_true, Bool.and_eq_true, decide_eq_true_eq] at h
    intro service
    cases service with
    | endurance => exact h.1
    | journalSpy => exact h.2
  | opened | ended | boot => trivial

theorem services_follow_switches_onAndOff :
    (∀ w ∈ (machine obedient []).visits onAndOff bothThere, Agree [] w) ∧
    ((machine obedient []).visits onAndOff bothThere).map (·.running Service.endurance.unit) =
      [false, true, true, true, true, true, false] :=
  ⟨(services_follow_switches obedient obedient_documented [] _ unmarked (by decide) onAndOff).mpr
    (Machine.Within.of_check kept_sound (by decide)), by decide⟩

/-- While there is only the directory in the home partition, the mark is made there: the
setting is on, and nothing runs, not even after a boot. -/
example : ((machine obedient []).visits [.files (· = homeDirectory) unmarked, .opened, .clicked .endurance true, .boot]
    bothThere).map (fun w => (w.enabled [] .endurance, w.running Service.endurance.unit)) =
      [(some false, false), (some false, false), (some true, false), (some true, false)] := by decide

end CrashReporter.Ui.OptionalServices
