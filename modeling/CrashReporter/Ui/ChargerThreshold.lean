import CrashReporter.Settings.Survival
import CrashReporter.Upload.World

/-! The menu for the charge below which the charger is required.

It shows one number and keeps two settings: whether there is a threshold at all, and which
one. The processes that save power read both, each in its own `QSettings`: a process that
has not read the file since the click was saved goes by what it read before. -/
namespace CrashReporter.Ui.ChargerThreshold
open PrivacySettingsModel Copies

def options : List Int32 := [-1, 20, 40, 60, 80]

/-- The assignments of `setThreshold`, in order. -/
def setThreshold (threshold : Int32) : List Setter :=
  if threshold < 0 then [.setRestrictWhenDischarging false]
  else [.setDischargingThreshold threshold, .setRestrictWhenDischarging true]

def effectiveDischargingThreshold (m : PrivacySettingsModel) : Int32 :=
  if m.restrictWhenDischarging then m.dischargingThreshold else -1

/-- The item that is marked, none when the threshold is not in the menu. -/
def currentIndex (m : PrivacySettingsModel) : Option Nat := options.idxOf? (effectiveDischargingThreshold m)

/-- What a process reads of the settings. -/
def settings (m : PrivacySettingsModel) : Upload.Settings where
  notificationsEnabled := m.notificationsEnabled
  allowMobileData := m.allowMobileData
  restrictWhenLowBattery := m.restrictWhenLowBattery
  restrictWhenDischarging := m.restrictWhenDischarging
  dischargingThreshold := m.dischargingThreshold.toInt

/-- A click on an item, in the process of the page. -/
def clicked (page : Nat) (threshold : Int32) : List Action := (setThreshold threshold).map (.call page)

/-- Neither of the two settings is set. -/
def Leaves : Action → Prop
  | .call _ c => c.sets .restrictWhenDischarging = none ∧ c.sets .dischargingThreshold = none
  | .sync _ | .restart _ => True

instance : DecidablePred Leaves
  | .call _ _ => inferInstanceAs (Decidable (_ ∧ _))
  | .sync _ | .restart _ => .isTrue trivial

/-- No other process has one of the two settings to save. -/
def Settled (page : Nat) (w : Processes) : Prop := ∀ process ≠ page,
  (w.settings process).saves Settings.RestrictWhenDischarging = false ∧
    (w.settings process).saves Settings.DischargingThreshold = false

/-- The processes that know of a click: that of the page, and those that have read the file
since one that knows has saved it. -/
def knows (page : Nat) (after : List Action) : Nat → Bool :=
  ((Spread.start page).run (after.filterMap (Action.access .restrictWhenDischarging))).informed

/-- The threshold is shown, and it is what power is saved by. -/
structure Obeyed (threshold : Int32) (m : PrivacySettingsModel) : Prop where
  effective : effectiveDischargingThreshold m = threshold
  shown : (currentIndex m).bind (options[·]?) = some threshold
  discharging : ∀ env : Upload.Environment, ∀ status level, env.settings = settings m →
    env.batteryStatus = some status → env.batteryLevel = some level → env.chargerState = some .off →
      status ≠ .unknown → status ≠ .full →
        env.shouldSavePower = (0 ≤ threshold ∧ level < threshold.toInt)

/-! ### What the settings hold -/

section Holds
variable {m : PrivacySettingsModel} {threshold : Int32}

/-- What a click leaves in the settings. -/
def Holds (threshold : Int32) (m : PrivacySettingsModel) : Prop :=
  m.restrictWhenDischarging = decide (0 ≤ threshold) ∧ (0 ≤ threshold → m.dischargingThreshold = threshold)

/-- The items are checked one by one. -/
theorem of_options {p : Int32 → Prop} [DecidablePred p] (h : options.all (fun threshold => p threshold) = true) :
    ∀ threshold ∈ options, p threshold := fun threshold ht =>
  of_decide_eq_true (List.all_eq_true.mp h threshold ht)

theorem options_bounded : ∀ threshold ∈ options, 0 ≤ threshold → bounded threshold = threshold :=
  of_options (by decide)

theorem options_idxOf : ∀ threshold ∈ options, (options.idxOf? threshold).bind (options[·]?) = some threshold :=
  of_options (by decide)

theorem effective_of_holds (ht : threshold ∈ options) (h : Holds threshold m) :
    effectiveDischargingThreshold m = threshold := by
  have hnever : ∀ threshold ∈ options, ¬ 0 ≤ threshold → threshold = -1 :=
    of_options (by decide)
  rw [effectiveDischargingThreshold, h.1]
  by_cases hn : 0 ≤ threshold
  · rw [if_pos (decide_eq_true hn), h.2 hn]
  · rw [if_neg (by simpa using hn), hnever threshold ht hn]

theorem Holds.obeyed (ht : threshold ∈ options) (h : Holds threshold m) : Obeyed threshold m := by
  have heffective := effective_of_holds ht h
  refine ⟨heffective, ?_, ?_⟩
  · rw [currentIndex, heffective]
    exact options_idxOf threshold ht
  · intro env status level hs hstatus hlevel hcharger hu hf
    simp only [Upload.Environment.shouldSavePower, hstatus, hlevel, hcharger, if_neg hu, if_neg hf, hs, settings, h.1]
    by_cases hn : 0 ≤ threshold <;> simp [hn, h.2]

end Holds

/-! ### A click and what follows -/

section Runs
variable {page process : Nat} {threshold : Int32} {p : Property} {key : String} {v d : Value} {a : Action}
  {before after : List Action}

theorem clicked_restricts (page : Nat) (threshold : Int32) :
    (clicked page threshold).filterMap (Action.access .restrictWhenDischarging) =
      [.write page (.bool (decide (0 ≤ threshold)))] := by
  unfold clicked setThreshold
  split <;> rename_i h
  · have hn : ¬ 0 ≤ threshold := Int32.not_le.mpr h
    simp only [hn, decide_false]
    rfl
  · have hp : 0 ≤ threshold := Int32.not_lt.mp h
    simp only [hp, decide_true]
    rfl

theorem clicked_bounds (page : Nat) (h : 0 ≤ threshold) :
    (clicked page threshold).filterMap (Action.access .dischargingThreshold) =
      [.write page (.int (bounded threshold))] := by
  rw [clicked, setThreshold, if_neg (Int32.not_lt.mpr h)]
  rfl

/-- What is done with the one setting is done with the other. -/
theorem Leaves.access (h : Leaves a) : a.access .dischargingThreshold = a.access .restrictWhenDischarging := by
  cases a with
  | call process c => rw [Action.access, Action.access, h.1, h.2]
  | sync | restart => rfl

theorem Leaves.writes (h : Leaves a) {x : Copies.Access Nat Value} (hx : a.access .restrictWhenDischarging = some x) :
    x.writes = false := by
  cases a with
  | call process c =>
    rw [Action.access, h.1] at hx
    cases hx
  | sync | restart =>
    cases hx
    rfl

/-- What a click has set is read by those who know of it. -/
theorem read_of_knows (file : PrivacySettingsModel) (hp : p.backing = some (key, d))
    (hclick : (clicked page threshold).filterMap (Action.access p) = [.write page v])
    (haccess : ∀ a ∈ after, a.access p = a.access .restrictWhenDischarging) (hafter : ∀ a ∈ after, Leaves a)
    (hsettled : ∀ process ≠ page, ((run file before).settings process).saves key = false)
    (hknows : knows page after process = true) :
    p.read ((run file (before ++ clicked page threshold ++ after)).model process) = v := by
  have hunsaved : ∀ other ≠ page, (p.register file before).unsaved other = false := fun other hother =>
    (((follows_reading file hp).foldl hp before).unsaved other).symm.trans (hsettled other hother)
  have hwrites : ∀ x ∈ after.filterMap (Action.access .restrictWhenDischarging), x.writes = false := by
    intro x hx
    obtain ⟨a, ha, hax⟩ := List.mem_filterMap.mp hx
    exact (hafter a ha).writes hax
  have hspread := (Informed.write hunsaved v).run hwrites
  rw [read_run file _ hp, Property.register, List.filterMap_append, List.filterMap_append, hclick,
    List.filterMap_congr haccess, Register.run_append, Register.run_append]
  exact hspread.seen process hknows

theorem holds_run (file : PrivacySettingsModel) (ht : threshold ∈ options) (hafter : ∀ a ∈ after, Leaves a)
    (hsettled : Settled page (run file before)) (hknows : knows page after process = true) :
    Holds threshold ((run file (before ++ clicked page threshold ++ after)).model process) := by
  constructor
  · have hrestrict := read_of_knows file (p := .restrictWhenDischarging) rfl (clicked_restricts page threshold)
      (fun _ _ => rfl) hafter (fun other hother => (hsettled other hother).1) hknows
    exact Value.bool.inj hrestrict
  · intro hp
    have hthreshold := read_of_knows file (p := .dischargingThreshold) rfl (clicked_bounds page hp)
      (fun a ha => (hafter a ha).access) hafter (fun other hother => (hsettled other hother).2) hknows
    rw [options_bounded threshold ht hp] at hthreshold
    exact Value.int.inj hthreshold

/-- 60 is chosen and saved, then 40. -/
def chosen : List Action := clicked 0 60 ++ [.sync 0]

/-- The page saves, one process reads the file for a setting of its own, and another one is new. -/
def spreading : List Action := [.sync 0, .call 1 (.setAllowMobileData true), .sync 1, .restart 2]

theorem settled_chosen : Settled 0 (run untouched chosen) := by
  intro process hprocess
  have hchosen : chosen = [.call 0 (.setDischargingThreshold 60), .call 0 (.setRestrictWhenDischarging true),
      .sync 0] := by decide
  have hsettings : (run untouched chosen).settings process = .opened untouched.base.reread := by
    simp [hchosen, run, act, Processes.call, Processes.sync, reading, hprocess]
  rw [hsettings]
  exact ⟨rfl, rfl⟩

/-- A process that has run all along and has nothing to save goes by what it read at first. -/
example : ((run untouched (chosen ++ clicked 0 40 ++ [.sync 0])).model 1).dischargingThreshold = 20 := by decide

end Runs

end CrashReporter.Ui.ChargerThreshold
