import CrashReporter.Settings.PrivacySettings
import Mathlib.Data.Fintype.Basic

/-! Change signals against what the READ functions return.

A setter compares the stored value with the new one, before any default and as it is
written: an absent key differs from every value, and so does a text that reads as the
value without being spelled like it. `Observable` is the condition under which no
observer can tell the difference. -/
namespace CrashReporter.PrivacySettingsModel

instance : Fintype Property :=
  .ofList [.coreDumping, .endurance, .journalSpy, .useHomePartition, .notifications,
    .autoDeleteDuplicates, .includeStackTrace, .downloadDebuginfo, .privacyNoticeAccepted,
    .allowMobileData, .restrictWhenLowBattery, .restrictWhenDischarging, .dischargingThreshold]
    fun p => by cases p <;> simp

/-- What a variant is as a value of this type. -/
def asValue (like : Value) (v : Variant) : Value :=
  match like with
  | .bool _ => .bool v.toBool
  | .int _ => .int v.toInt
  | .uint _ => .uint v.toInt.toUInt32

theorem asValue_of_equals {v : Variant} {b : Bool} (d : Bool) (h : v.equals (.bool b) = true) :
    asValue (.bool d) v = .bool b :=
  congrArg Value.bool (Variant.toBool_of_equals h)

theorem asValue_bool (d b : Bool) : asValue (.bool d) (.value (.bool b)) = .bool b :=
  asValue_of_equals d (by simp [Variant.equals])

namespace Property

/-- The key of the property and the default of READ; a mark file has none. -/
def backing : Property → Option (String × Value)
  | .coreDumping => some (Settings.CoreDumping, .bool true)
  | .endurance => none
  | .journalSpy => none
  | .useHomePartition => some (Settings.UseHomePartition, .bool false)
  | .notifications => some (Settings.Notifications, .bool true)
  | .autoDeleteDuplicates => some (Settings.AutoDeleteDuplicates, .bool true)
  | .includeStackTrace => some (Privacy.IncludeStackTrace, .bool false)
  | .downloadDebuginfo => some (Privacy.DownloadDebuginfo, .bool false)
  | .privacyNoticeAccepted => some (Settings.NoticeAccepted, .bool false)
  | .allowMobileData => some (Settings.AllowMobileData, .bool false)
  | .restrictWhenLowBattery => some (Settings.RestrictWhenLowBattery, .bool true)
  | .restrictWhenDischarging => some (Settings.RestrictWhenDischarging, .bool true)
  | .dischargingThreshold => some (Settings.DischargingThreshold, .int 20)

variable {m : PrivacySettingsModel} {p q : Property} {key : String} {v d : Value}

theorem read_backing (h : p.backing = some (key, d)) : p.read m = asValue d (m.base.value key d) := by
  cases p <;> cases h <;> rfl

theorem key_injective : ∀ p q : Property, p.backing.isSome = true →
    p.backing.map Prod.fst = q.backing.map Prod.fst → p = q := by decide

theorem notify_injective : ∀ p q : Property, p.notify = q.notify → p = q := by decide

theorem notify_ne_valueChanged : p.notify ≠ .valueChanged key v := by
  cases p <;> exact nofun

end Property

/-- The signals of a call are those of the properties whose READ value changed. -/
def Announces (m : PrivacySettingsModel) (r : PrivacySettingsModel × List Signal) : Prop :=
  ∀ p : Property, p.notify ∈ r.2 ↔ p.read r.1 ≠ p.read m

section Store
variable {m : PrivacySettingsModel} {p : Property} {key : String} {v d : Value} {c : Signal}

theorem read_store (h : p.backing = some (key, d)) (changed : Option Signal) :
    p.read (m.store key v changed).1 = asValue d (.value v) := by
  have hvalue : (m.store key v changed).1.base.value key d = .value v := SettingsBase.value_setValue
  rw [Property.read_backing h, hvalue]

theorem read_store_of_ne (h : p.backing.map Prod.fst ≠ some key) (changed : Option Signal) :
    p.read (m.store key v changed).1 = p.read m := by
  cases hb : p.backing with
  | none => cases p <;> first | rfl | exact nomatch hb
  | some b =>
    obtain ⟨key', d⟩ := b
    have hne : key' ≠ key := by
      rw [hb] at h
      exact fun he => h (congrArg some he)
    rw [Property.read_backing hb, Property.read_backing hb]
    exact congrArg _ (SettingsBase.value_setValue_of_ne hne)

theorem notify_mem_store (changed : Option Signal) : p.notify ∈ (m.store key v changed).2 ↔
    (m.base.values key).equals v = false ∧ changed = some p.notify := by
  have hv : p.notify ≠ .valueChanged key v := Property.notify_ne_valueChanged
  cases h : (m.base.values key).equals v <;>
    simp [store, SettingsBase.setValue, h, hv, Option.mem_toList, eq_comm]

/-- The key of a property, with its own signal. -/
theorem announces_store (hp : p.backing = some (key, d)) (hv : asValue d (.value v) = v)
    (he : (m.base.values key).equals v = true → p.read m = v) :
    Announces m (m.store key v (some p.notify)) ↔
      ((m.base.values key).equals v = true ∨ p.read m ≠ v) := by
  constructor
  · intro h
    have hread := h p
    rw [notify_mem_store, read_store hp, hv] at hread
    cases heq : (m.base.values key).equals v with
    | true => exact .inl rfl
    | false => exact .inr (hread.mp ⟨heq, rfl⟩).symm
  · intro h q
    rw [notify_mem_store]
    by_cases hq : q = p
    · subst hq
      rw [read_store hp, hv]
      constructor
      · rintro ⟨hne, -⟩ heq
        exact h.elim (fun ht => absurd (ht.symm.trans hne) (by decide)) fun hr => hr heq.symm
      · intro hne
        refine ⟨?_, rfl⟩
        cases heq : (m.base.values key).equals v with
        | true => exact absurd (he heq).symm hne
        | false => rfl
    · have hkey : q.backing.map Prod.fst ≠ some key := by
        intro hk
        refine hq (Property.key_injective p q (by rw [hp]; rfl) ?_).symm
        rw [hp, hk]
        rfl
      have hnot : p.notify ≠ q.notify := fun hn => hq (Property.notify_injective p q hn).symm
      simp [read_store_of_ne hkey, hnot]

/-- A key of no property, with a signal of none. -/
theorem announces_silent {changed : Option Signal}
    (hk : ∀ q : Property, q.backing.map Prod.fst ≠ some key)
    (hc : ∀ q : Property, changed ≠ some q.notify) : Announces m (m.store key v changed) := by
  intro q
  rw [notify_mem_store, read_store_of_ne (hk q)]
  simp [hc q]

end Store

/-- The value is stored just as the setter would store it, or READ returns another one. -/
def Told (m : PrivacySettingsModel) (key : String) (v : Value) (p : Property) : Prop :=
  (m.base.values key).equals v = true ∨ p.read m ≠ v

/-- The mark file is already as it should be, or can be made so. -/
def Obeys (f : MarkFile) (value : Bool) : Prop :=
  if value then f.present = true ∨ f.creatable = true else f.present = false ∨ f.removable = true

/-- The condition under which a call announces exactly what it changes. -/
def Observable (m : PrivacySettingsModel) : Setter → Prop
  | .setCoreDumpingEnabled value => Told m Settings.CoreDumping (.bool value) .coreDumping
  | .setEnduranceEnabled value => Obeys m.enduranceCollectMark value
  | .setJournalSpyEnabled value => Obeys m.journalSpyMark value
  -- Only a call that changes nothing at all keeps quiet about the notifications.
  | .setUseHomePartitionEnabled value =>
    (m.base.values Settings.UseHomePartition).equals (.bool value) = true
  | .setNotificationsEnabled value => Told m Settings.Notifications (.bool value) .notifications
  | .setAutoDeleteDuplicates value =>
    Told m Settings.AutoDeleteDuplicates (.bool value) .autoDeleteDuplicates
  | .setIncludeStackTrace value => Told m Privacy.IncludeStackTrace (.bool value) .includeStackTrace
  | .setDownloadDebuginfo value => Told m Privacy.DownloadDebuginfo (.bool value) .downloadDebuginfo
  | .setPrivacyNoticeAccepted value =>
    Told m Settings.NoticeAccepted (.bool value) .privacyNoticeAccepted
  | .setAllowMobileData value => Told m Settings.AllowMobileData (.bool value) .allowMobileData
  | .setRestrictWhenLowBattery value =>
    Told m Settings.RestrictWhenLowBattery (.bool value) .restrictWhenLowBattery
  | .setRestrictWhenDischarging value =>
    Told m Settings.RestrictWhenDischarging (.bool value) .restrictWhenDischarging
  | .setDischargingThreshold value =>
    Told m Settings.DischargingThreshold (.int (bounded value)) .dischargingThreshold
  | .setAutoDeleteMaxSimilarCores _ | .setAutomaticSendingEnabled _ | .setIncludeCore _
  | .setIncludeSystemLog _ | .setIncludePackageList _ | .setReduceCore _ => True

section Calls
variable {m : PrivacySettingsModel} {p : Property} {key : String}

theorem announces_bool {d : Bool} (hp : p.backing = some (key, .bool d)) (value : Bool) :
    Announces m (m.store key (.bool value) (some p.notify)) ↔ Told m key (.bool value) p := by
  refine announces_store hp (asValue_bool d value) fun he => ?_
  rw [Property.read_backing hp, SettingsBase.value_of_equals he]
  exact asValue_of_equals d he

theorem announces_int {d : Int32} (hp : p.backing = some (key, .int d)) (value : Int32) :
    Announces m (m.store key (.int value) (some p.notify)) ↔ Told m key (.int value) p := by
  refine announces_store hp ?_ fun he => ?_
  · simp [asValue, Variant.toInt, Variant.toInt?, Value.number]
  · rw [Property.read_backing hp, SettingsBase.value_of_equals he]
    exact congrArg Value.int (Variant.toInt_of_equals he)

/-- The slip of the home partition: its own signal is never emitted, and that of the
notifications is, although they stay as they are. -/
theorem announces_useHomePartition (value : Bool) : Announces m (m.setUseHomePartitionEnabled value) ↔
    (m.base.values Settings.UseHomePartition).equals (.bool value) = true := by
  have hp : Property.useHomePartition.backing = some (Settings.UseHomePartition, .bool false) := rfl
  have hread := read_store (m := m) (v := .bool value) hp (some .notificationsEnabledChanged)
  constructor
  · intro h
    have hn := (h .notifications).not
    rw [setUseHomePartitionEnabled, notify_mem_store,
      read_store_of_ne (by decide) (some .notificationsEnabledChanged)] at hn
    cases heq : (m.base.values Settings.UseHomePartition).equals (.bool value) with
    | true => rfl
    | false => exact absurd ⟨heq, rfl⟩ (hn.mpr (not_not_intro rfl))
  · intro he q
    have hkeep : q.read (m.setUseHomePartitionEnabled value).1 = q.read m := by
      by_cases hq : q.backing.map Prod.fst = some Settings.UseHomePartition
      · obtain rfl := Property.key_injective .useHomePartition q rfl hq.symm
        rw [setUseHomePartitionEnabled, hread, Property.read_backing hp,
          SettingsBase.value_of_equals he, asValue_of_equals false he, asValue_bool]
      · exact read_store_of_ne hq _
    rw [hkeep, setUseHomePartitionEnabled, notify_mem_store, he]
    simp

theorem set_present {f : MarkFile} {value : Bool} {c : Signal} :
    ((setMark value c f).2 = [c] ↔ (setMark value c f).1.present ≠ f.present) ↔ Obeys f value := by
  cases value <;> cases hf : f.present <;>
    simp [setMark, Obeys, hf, MarkFile.create, MarkFile.remove]

/-- A property of a mark file, which its own setter alone touches. -/
theorem announces_mark {m' : PrivacySettingsModel} {f : MarkFile} {value : Bool}
    (hother : ∀ q, q ≠ p → q.read m' = q.read m) (hp : p.read m = .bool f.present)
    (hp' : p.read m' = .bool (setMark value p.notify f).1.present) :
    Announces m (m', (setMark value p.notify f).2) ↔ Obeys f value := by
  have hmem (q : Property) : q.notify ∈ (setMark value p.notify f).2 ↔
      q = p ∧ (setMark value p.notify f).2 = [p.notify] := by
    unfold setMark
    split
    · simp
    · simp only [List.mem_singleton, and_true]
      exact ⟨fun h => Property.notify_injective q p h, fun h => h ▸ rfl⟩
  rw [← set_present (f := f) (c := p.notify)]
  constructor
  · intro h
    have hself := h p
    rw [hmem, hp, hp'] at hself
    simpa using hself
  · intro h q
    rw [hmem]
    by_cases hq : q = p
    · subst hq
      rw [hp, hp']
      simpa using h
    · simp [hq, hother q hq]

theorem announces_endurance (value : Bool) :
    Announces m (m.setEnduranceEnabled value) ↔ Obeys m.enduranceCollectMark value := by
  refine announces_mark (p := .endurance) (fun q hq => ?_) rfl rfl
  cases q <;> first | rfl | exact absurd rfl hq

theorem announces_journalSpy (value : Bool) :
    Announces m (m.setJournalSpyEnabled value) ↔ Obeys m.journalSpyMark value := by
  refine announces_mark (p := .journalSpy) (fun q hq => ?_) rfl rfl
  cases q <;> first | rfl | exact absurd rfl hq

end Calls

/-- A call announces exactly what it changes under its condition only. -/
theorem announces_iff (m : PrivacySettingsModel) (c : Setter) :
    Announces m (m.call c) ↔ Observable m c := by
  have hsilent {key : String} (v : Value) {changed : Option Signal}
      (hk : ∀ q : Property, q.backing.map Prod.fst ≠ some key)
      (hc : ∀ q : Property, changed ≠ some q.notify) : Announces m (m.store key v changed) ↔ True :=
    iff_true_intro (announces_silent hk hc)
  cases c with
  | setCoreDumpingEnabled value => exact announces_bool (p := .coreDumping) rfl value
  | setEnduranceEnabled value => exact announces_endurance value
  | setJournalSpyEnabled value => exact announces_journalSpy value
  | setUseHomePartitionEnabled value => exact announces_useHomePartition value
  | setNotificationsEnabled value => exact announces_bool (p := .notifications) rfl value
  | setAutoDeleteDuplicates value => exact announces_bool (p := .autoDeleteDuplicates) rfl value
  | setIncludeStackTrace value => exact announces_bool (p := .includeStackTrace) rfl value
  | setDownloadDebuginfo value => exact announces_bool (p := .downloadDebuginfo) rfl value
  | setPrivacyNoticeAccepted value => exact announces_bool (p := .privacyNoticeAccepted) rfl value
  | setAllowMobileData value => exact announces_bool (p := .allowMobileData) rfl value
  | setRestrictWhenLowBattery value =>
    exact announces_bool (p := .restrictWhenLowBattery) rfl value
  | setRestrictWhenDischarging value =>
    exact announces_bool (p := .restrictWhenDischarging) rfl value
  | setDischargingThreshold value =>
    exact announces_int (p := .dischargingThreshold) rfl (bounded value)
  | setAutoDeleteMaxSimilarCores value => exact hsilent (.int value) (by decide) (by decide)
  | setAutomaticSendingEnabled value => exact hsilent (.bool value) (by decide) (by decide)
  | setIncludeCore value => exact hsilent (.bool value) (by decide) (by decide)
  | setIncludeSystemLog value => exact hsilent (.bool value) (by decide) (by decide)
  | setIncludePackageList value => exact hsilent (.bool value) (by decide) (by decide)
  | setReduceCore value => exact hsilent (.bool value) (by decide) (by decide)

/-- The model as its setters are called one after another. -/
def calls : Machine PrivacySettingsModel Setter := ⟨fun m c => some (m.call c).1⟩

/-- **Change signals match the READ values along a sequence of calls exactly when every
call of it is observable.** -/
theorem signals_match_reads (m : PrivacySettingsModel) (cs : List Setter) :
    calls.Within (fun m c => Announces m (m.call c)) cs m ↔ calls.Within Observable cs m :=
  Machine.within_congr (fun m c _ _ => announces_iff m c) cs m

/-- A settings file without the keys, and no mark file. -/
def untouched : PrivacySettingsModel := ⟨⟨fun _ => .invalid⟩, ⟨false, true, true⟩, ⟨false, true, true⟩⟩

/-- The first call stores the default: READ returns the same, and the signal is emitted. -/
theorem default_announced : ¬ calls.Within (fun m c => Announces m (m.call c))
    [.setNotificationsEnabled true] untouched := by
  intro h
  have hn := ((h _ rfl).1 .notifications).mp (by decide)
  exact hn (by decide)

end CrashReporter.PrivacySettingsModel
