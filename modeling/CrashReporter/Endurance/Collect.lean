import CrashReporter.Machine
import Mathlib.Data.List.Perm.Basic
import Mathlib.Data.List.Nodup

/-! `endurance-collect`: one snapshot each time it runs, a package for every twelve.

The endurance directory holds the snapshots that wait, and two files: how many
snapshots the session has, and when the system was booted. The boot mark is lost when
the system reboots; the next run then packs what the old session left, or discards it
when the session was too short. `collector` is the script and the reboots. -/
namespace CrashReporter.Endurance

/-- One boot session. -/
structure Boot where
  number : Nat
  /-- The btime of /proc/stat. -/
  btime : Nat
deriving DecidableEq

/-- A snapshot directory; `boot` is the session in which it was taken, and what its
`stat` file says. -/
structure Snapshot where
  number : Nat
  boot : Boot
deriving DecidableEq

structure Package where
  snapshots : List Snapshot
  /-- The section boot-time. -/
  bootTime : Option Nat
  /-- Made because enough snapshots were waiting, not because the session had ended. -/
  bySize : Bool
deriving DecidableEq

/-- ENDURANCE_DIR: its snapshots, SNAPSHOT_COUNT_FILE and BOOT_TIME_FILE. -/
structure EnduranceDir where
  snapshots : List Snapshot
  snapshotCount : Option Nat
  bootTime : Option Nat
deriving DecidableEq

structure Device where
  enduranceDir : Option EnduranceDir
  /-- BOOT_MARK_FILE is there. -/
  bootMark : Bool
  boot : Boot
  /-- All snapshots so far, and what became of them, latest first. -/
  taken : List Snapshot
  packages : List Package
  discarded : List Snapshot
deriving DecidableEq

def snapshotsToPack : Nat := 12
def minSessionLength : Nat := 2

namespace Device

/-- `mkdir -p`. -/
def dir (s : Device) : EnduranceDir := s.enduranceDir.getD ⟨[], none, none⟩

/-- The snapshots in the endurance directory. -/
def waiting (s : Device) : List Snapshot := s.dir.snapshots

/-- The snapshots taken in a session. -/
def sessionLength (s : Device) (boot : Boot) : Nat := s.taken.countP (·.boot = boot)

def createEndurancePackage (bootTime : Option Nat) (bySize : Bool) (s : Device) : Device :=
  {s with
    enduranceDir := s.enduranceDir.map fun dir => {dir with snapshots := []}
    packages := ⟨s.waiting, bootTime, bySize⟩ :: s.packages}

/-- BOOT_TIME_FILE, or the first `stat` file of a snapshot. -/
def readBootTime (s : Device) : Option Nat :=
  match s.dir.bootTime with
  | some bootTime => some bootTime
  | none => s.waiting.head?.map (·.boot.btime)

/-- After reboot, the session ends. -/
def endSession (bootTime : Option Nat) (snapshotsInSession : Nat) (s : Device) : Device :=
  if snapshotsInSession < minSessionLength then
    {s with enduranceDir := none, discarded := s.waiting ++ s.discarded}
  else createEndurancePackage bootTime false s

def startSession (s : Device) : Device :=
  {s with enduranceDir := some {s.dir with bootTime := some s.boot.btime}, bootMark := true}

/-- `endurance-snapshot endurance`. -/
def takeSnapshot (s : Device) : Device :=
  let snapshot : Snapshot := ⟨s.taken.length, s.boot⟩
  {s with
    enduranceDir := some {s.dir with snapshots := s.waiting ++ [snapshot]}
    taken := snapshot :: s.taken}

def writeSnapshotCount (snapshotsInSession : Nat) (s : Device) : Device :=
  {s with enduranceDir := some {s.dir with snapshotCount := some snapshotsInSession}}

/-- The script from the snapshot on, with its three variables. -/
def addSnapshot (bootTime : Option Nat) (snapshotsNotUploaded snapshotsInSession : Nat)
    (s : Device) : Device :=
  let s := s.takeSnapshot.writeSnapshotCount (snapshotsInSession + 1)
  if snapshotsToPack ≤ snapshotsNotUploaded + 1 then createEndurancePackage bootTime true s else s

/-- One run of the script. -/
def collect (s : Device) : Device :=
  let snapshotsNotUploaded := s.waiting.length
  let bootTime := s.readBootTime
  let snapshotsInSession := s.dir.snapshotCount.getD snapshotsNotUploaded
  if s.bootMark then s.addSnapshot bootTime snapshotsNotUploaded snapshotsInSession
  else
    let s := (s.endSession bootTime snapshotsInSession).startSession
    s.addSnapshot (some s.boot.btime) snapshotsNotUploaded 0

def reboot (btime : Nat) (s : Device) : Device :=
  {s with bootMark := false, boot := ⟨s.boot.number + 1, btime⟩}

end Device

inductive Action where
  | collect
  /-- The system comes up again, and reads its clock. -/
  | reboot (btime : Nat)
deriving DecidableEq

def collector : Machine Device Action where
  step s
    | .collect => some s.collect
    | .reboot btime => some (s.reboot btime)

/-- A system on which no snapshot was taken yet. -/
def Device.new (btime : Nat) : Device where
  enduranceDir := none
  bootMark := false
  boot := ⟨0, btime⟩
  taken := []
  packages := []
  discarded := []

/-! ### What becomes of the snapshots -/

namespace Device

/-- Every snapshot is in one package, waits, or was discarded with a short session; a
package is of one session and carries its boot time. -/
structure Ledger (s : Device) : Prop where
  accounted : (s.packages.flatMap (·.snapshots) ++ s.waiting ++ s.discarded).Perm s.taken
  distinct : s.taken.Nodup
  oneSession : ∀ p ∈ s.packages, ∃ boot : Boot,
    p.bootTime = some boot.btime ∧ ∀ snapshot ∈ p.snapshots, snapshot.boot = boot
  short : ∀ snapshot ∈ s.discarded, s.sessionLength snapshot.boot < minSessionLength

/-- And the packages made by size are full. -/
structure Complete (s : Device) : Prop extends Ledger s where
  full : ∀ p ∈ s.packages, p.bySize = true → p.snapshots.length = snapshotsToPack

/-- The directory is that of the session `boot`, the last one with a snapshot. -/
structure Recorded (s : Device) (boot : Boot) : Prop where
  exist : s.enduranceDir = some s.dir
  bootTime : s.dir.bootTime = some boot.btime
  waiting : ∀ snapshot ∈ s.waiting, snapshot.boot = boot
  latest : ∀ snapshot ∈ s.taken, snapshot.boot.number ≤ boot.number
  numbered : ∀ snapshot ∈ s.taken, snapshot.number < s.taken.length
  past : ∀ snapshot ∈ s.discarded, snapshot.boot.number < boot.number

/-- Between two runs of the script. -/
structure Kept (s : Device) (boot : Boot) : Prop extends Recorded s boot where
  count : s.dir.snapshotCount = some (s.sessionLength boot)
  few : s.waiting.length < snapshotsToPack
  current : s.bootMark = true → boot = s.boot
  ended : s.bootMark = false → boot.number < s.boot.number

/-- Nothing was ever collected. -/
structure Pristine (s : Device) : Prop where
  dir : s.enduranceDir = none
  mark : s.bootMark = false
  taken : s.taken = []
  packages : s.packages = []
  discarded : s.discarded = []

variable {s : Device} {boot : Boot} {bootTime : Option Nat} {bySize : Bool}

/-! ### A package -/

@[simp] theorem package_waiting : (createEndurancePackage bootTime bySize s).waiting = [] := by
  cases h : s.enduranceDir <;> simp [createEndurancePackage, waiting, dir, h]

theorem package_dir (h : s.enduranceDir = some s.dir) :
    (createEndurancePackage bootTime bySize s).enduranceDir = some {s.dir with snapshots := []} := by
  simp [createEndurancePackage, h]

theorem package_dir' (h : s.enduranceDir = some s.dir) :
    (createEndurancePackage bootTime bySize s).dir = {s.dir with snapshots := []} := by
  simp [dir, package_dir h]

theorem Ledger.package (h : s.Ledger) (hb : bootTime = some boot.btime)
    (hw : ∀ snapshot ∈ s.waiting, snapshot.boot = boot) :
    (createEndurancePackage bootTime bySize s).Ledger where
  accounted := by
    refine List.Perm.trans (List.Perm.append_right _ ?_) h.accounted
    rw [package_waiting, List.append_nil]
    exact List.perm_append_comm
  distinct := h.distinct
  oneSession := by
    intro p hp
    rcases List.mem_cons.mp hp with rfl | hp
    · exact ⟨boot, hb, hw⟩
    · exact h.oneSession p hp
  short := h.short

theorem Recorded.package (h : s.Recorded boot) :
    (createEndurancePackage bootTime bySize s).Recorded boot where
  exist := by rw [package_dir h.exist, package_dir' h.exist]
  bootTime := by
    rw [package_dir' h.exist]
    exact h.bootTime
  waiting := by simp
  latest := h.latest
  numbered := h.numbered
  past := h.past

/-! ### A snapshot -/

/-- The state after a snapshot was taken and counted. -/
def counted (snapshotsInSession : Nat) (s : Device) : Device :=
  s.takeSnapshot.writeSnapshotCount (snapshotsInSession + 1)

variable {n : Nat}

theorem counted_waiting : (s.counted n).waiting = s.waiting ++ [⟨s.taken.length, s.boot⟩] := rfl

theorem counted_sessionLength : (s.counted n).sessionLength s.boot = s.sessionLength s.boot + 1 := by
  simp [counted, writeSnapshotCount, takeSnapshot, sessionLength]

theorem counted_sessionLength_of_ne (h : boot ≠ s.boot) :
    (s.counted n).sessionLength boot = s.sessionLength boot := by
  simp [counted, writeSnapshotCount, takeSnapshot, sessionLength, h.symm]

theorem Recorded.counted (h : s.Recorded s.boot) : (s.counted n).Recorded s.boot where
  exist := rfl
  bootTime := h.bootTime
  waiting := by
    intro snapshot hs
    rcases List.mem_append.mp (counted_waiting ▸ hs) with hs | hs
    · exact h.waiting snapshot hs
    · rw [List.mem_singleton.mp hs]
  latest := by
    intro snapshot hs
    rcases List.mem_cons.mp hs with rfl | hs
    · exact Nat.le_refl _
    · exact h.latest snapshot hs
  numbered := by
    intro snapshot hs
    rcases List.mem_cons.mp hs with rfl | hs
    · exact Nat.lt_succ_self _
    · exact Nat.lt_succ_of_lt (h.numbered snapshot hs)
  past := h.past

theorem Ledger.counted (h : s.Ledger) (hr : s.Recorded s.boot) : (s.counted n).Ledger where
  accounted := by
    rw [counted_waiting, ← List.append_assoc, List.append_assoc _ [_]]
    exact List.perm_middle.trans (h.accounted.cons _)
  distinct := by
    refine List.nodup_cons.mpr ⟨fun hm => ?_, h.distinct⟩
    exact Nat.lt_irrefl _ (hr.numbered _ hm)
  oneSession := h.oneSession
  short := by
    intro snapshot hs
    have hne : snapshot.boot ≠ s.boot := fun he => Nat.lt_irrefl _ (he ▸ hr.past snapshot hs)
    rw [counted_sessionLength_of_ne hne]
    exact h.short snapshot hs

/-! ### The end of a session -/

/-- A session in which nothing was taken yet. -/
theorem sessionLength_new (h : ∀ snapshot ∈ s.taken, snapshot.boot.number < boot.number) :
    s.sessionLength boot = 0 := by
  refine List.countP_eq_zero.mpr fun snapshot hs he => ?_
  have hlt := h snapshot hs
  rw [of_decide_eq_true he] at hlt
  exact Nat.lt_irrefl _ hlt

theorem startSession_recorded (hw : s.waiting = [])
    (hb : ∀ snapshot ∈ s.taken, snapshot.boot.number < s.boot.number)
    (hn : ∀ snapshot ∈ s.taken, snapshot.number < s.taken.length)
    (hp : ∀ snapshot ∈ s.discarded, snapshot.boot.number < s.boot.number) :
    s.startSession.Recorded s.boot where
  exist := rfl
  bootTime := rfl
  waiting := by
    intro snapshot hs
    have hs' : snapshot ∈ s.waiting := hs
    rw [hw] at hs'
    exact nomatch hs'
  latest snapshot hs := Nat.le_of_lt (hb snapshot hs)
  numbered := hn
  past := hp

theorem Ledger.startSession (h : s.Ledger) : s.startSession.Ledger :=
  ⟨h.accounted, h.distinct, h.oneSession, h.short⟩

theorem endSession_waiting : (endSession bootTime n s).waiting = [] := by
  unfold endSession
  split
  · rfl
  · exact package_waiting

theorem endSession_taken : (endSession bootTime n s).taken = s.taken := by
  unfold endSession
  split <;> rfl

theorem endSession_boot : (endSession bootTime n s).boot = s.boot := by
  unfold endSession
  split <;> rfl

theorem endSession_discarded {snapshot : Snapshot}
    (h : snapshot ∈ (endSession bootTime n s).discarded) :
    snapshot ∈ s.waiting ∨ snapshot ∈ s.discarded := by
  unfold endSession at h
  split at h
  · exact List.mem_append.mp h
  · exact .inr h

/-- The waiting snapshots of a short session are discarded, all others are packed. -/
theorem Ledger.endSession (h : s.Ledger) (hb : bootTime = some boot.btime)
    (hw : ∀ snapshot ∈ s.waiting, snapshot.boot = boot) (hn : n = s.sessionLength boot) :
    (endSession bootTime n s).Ledger := by
  unfold Device.endSession
  split
  · rename_i hshort
    refine ⟨?_, h.distinct, h.oneSession, ?_⟩
    · have hnone : ({s with enduranceDir := none, discarded := s.waiting ++ s.discarded} : Device).waiting
          = [] := rfl
      rw [hnone, List.append_nil]
      exact (List.append_assoc .. ▸ h.accounted)
    · intro snapshot hs
      rcases List.mem_append.mp hs with hs | hs
      · rw [hw snapshot hs]
        exact hn ▸ hshort
      · exact h.short snapshot hs
  · exact h.package hb hw

/-! ### One run -/

/-- The state in which a run after a reboot takes its snapshot. -/
def renewed (s : Device) : Device :=
  (s.endSession s.readBootTime (s.dir.snapshotCount.getD s.waiting.length)).startSession

theorem renewed_boot : s.renewed.boot = s.boot := endSession_boot

theorem renewed_waiting : s.renewed.waiting = [] := endSession_waiting

theorem Kept.readBootTime (h : s.Kept boot) : s.readBootTime = some boot.btime := by
  simp [Device.readBootTime, h.bootTime]

theorem Kept.renewed (h : s.Kept boot) (hl : s.Ledger) (hm : s.bootMark = false) :
    s.renewed.Recorded s.boot ∧ s.renewed.Ledger := by
  have hlt := h.ended hm
  have htaken : ∀ snapshot ∈ s.taken, snapshot.boot.number < s.boot.number :=
    fun snapshot hs => Nat.lt_of_le_of_lt (h.latest snapshot hs) hlt
  have hpast : ∀ snapshot ∈ (s.endSession s.readBootTime
      (s.dir.snapshotCount.getD s.waiting.length)).discarded, snapshot.boot.number < s.boot.number := by
    intro snapshot hs
    rcases endSession_discarded hs with hs | hs
    · rw [h.waiting snapshot hs]
      exact hlt
    · exact Nat.lt_trans (h.past snapshot hs) hlt
  constructor
  · have hr := startSession_recorded (s := s.endSession s.readBootTime
      (s.dir.snapshotCount.getD s.waiting.length)) endSession_waiting
      (by rwa [endSession_taken, endSession_boot]) (by rw [endSession_taken]; exact h.numbered)
      (by rwa [endSession_boot])
    rwa [endSession_boot] at hr
  · exact (hl.endSession h.readBootTime h.waiting (by rw [h.count, Option.getD_some])).startSession

theorem Pristine.waiting (h : s.Pristine) : s.waiting = [] := by
  simp [Device.waiting, Device.dir, h.dir]

theorem Pristine.renewed (h : s.Pristine) (hl : s.Ledger) :
    s.renewed.Recorded s.boot ∧ s.renewed.Ledger := by
  have hend : s.endSession s.readBootTime (s.dir.snapshotCount.getD s.waiting.length) =
      {s with enduranceDir := none, discarded := []} := by
    simp [endSession, h.waiting, Device.dir, h.dir, h.discarded, minSessionLength]
  rw [Device.renewed, hend]
  have hrec := startSession_recorded (s := {s with enduranceDir := none, discarded := []}) rfl
    (by simp [h.taken]) (by simp [h.taken]) (by simp)
  refine ⟨hrec, Ledger.startSession ?_⟩
  refine ⟨?_, hl.distinct, hl.oneSession, by simp⟩
  have hacc := hl.accounted
  rw [h.waiting, h.discarded] at hacc
  exact hacc

/-- A run takes its snapshot in the old session, or in a new one after a reboot. -/
theorem collect_marked (h : s.bootMark = true) : s.collect =
    s.addSnapshot s.readBootTime s.waiting.length (s.dir.snapshotCount.getD s.waiting.length) := by
  simp [collect, h]

theorem collect_renewed (h : s.bootMark = false) :
    s.collect = s.renewed.addSnapshot (some s.boot.btime) s.waiting.length 0 := by
  have hb : ((s.endSession s.readBootTime
      (s.dir.snapshotCount.getD s.waiting.length)).startSession).boot = s.boot := renewed_boot
  simp [collect, h, hb, renewed]

theorem addSnapshot_waits {k : Nat} (h : k + 1 < snapshotsToPack) :
    s.addSnapshot bootTime k n = s.counted n := by
  have hk : ¬ snapshotsToPack ≤ k + 1 := by omega
  simp [addSnapshot, counted, hk]

theorem addSnapshot_packs {k : Nat} (h : snapshotsToPack ≤ k + 1) :
    s.addSnapshot bootTime k n = createEndurancePackage bootTime true (s.counted n) := by
  simp [addSnapshot, counted, h]

/-- Between two runs, and whole so far. -/
def Whole (s : Device) : Prop := s.Complete ∧ (s.Pristine ∨ ∃ boot, s.Kept boot)

theorem counted_whole (h : s.Recorded s.boot) (hc : s.Complete) (hm : s.bootMark = true)
    (hn : n = s.sessionLength s.boot) (hw : s.waiting.length + 1 < snapshotsToPack) :
    (s.counted n).Whole := by
  refine ⟨⟨hc.toLedger.counted h, hc.full⟩, .inr ⟨s.boot, h.counted, ?_, ?_, fun _ => rfl, ?_⟩⟩
  · rw [counted_sessionLength, ← hn]
    rfl
  · simpa [counted_waiting] using hw
  · exact fun hf => absurd (hm.symm.trans hf) (by decide)

theorem packed_whole (h : s.Recorded s.boot) (hc : s.Complete) (hm : s.bootMark = true)
    (hb : bootTime = some s.boot.btime) (hn : n = s.sessionLength s.boot)
    (hw : s.waiting.length + 1 = snapshotsToPack) :
    (createEndurancePackage bootTime true (s.counted n)).Whole := by
  have hr : (s.counted n).Recorded s.boot := h.counted
  refine ⟨⟨(hc.toLedger.counted h).package hb hr.waiting, ?_⟩,
    .inr ⟨s.boot, hr.package, ?_, by simp [snapshotsToPack], fun _ => rfl, ?_⟩⟩
  · intro p hp hsize
    rcases List.mem_cons.mp hp with rfl | hp
    · simpa [counted_waiting] using hw
    · exact hc.full p hp hsize
  · rw [package_dir' hr.exist]
    have hlen : (s.counted n).sessionLength s.boot = n + 1 := by rw [counted_sessionLength, hn]
    exact congrArg some hlen.symm
  · exact fun hf => absurd (hm.symm.trans hf) (by decide)

theorem renewed_complete (hc : s.Complete) (hl : s.renewed.Ledger) : s.renewed.Complete := by
  refine ⟨hl, fun p hp hsize => ?_⟩
  have hmem : p ∈ s.packages ∨ p.bySize = false := by
    have hp' : p ∈ (s.endSession s.readBootTime (s.dir.snapshotCount.getD s.waiting.length)).packages := hp
    unfold endSession at hp'
    split at hp'
    · exact .inl hp'
    · rcases List.mem_cons.mp hp' with rfl | hp'
      · exact .inr rfl
      · exact .inl hp'
  rcases hmem with hp | hf
  · exact hc.full p hp hsize
  · exact absurd (hf.symm.trans hsize) (by decide)

theorem renewed_sessionLength (hb : ∀ snapshot ∈ s.taken, snapshot.boot.number < s.boot.number) :
    s.renewed.sessionLength s.boot = 0 := by
  refine sessionLength_new fun snapshot hs => hb snapshot ?_
  have htaken : s.renewed.taken = s.taken := endSession_taken
  rwa [htaken] at hs

theorem Whole.renewed (h : s.Whole) (hm : s.bootMark = false) :
    s.renewed.Recorded s.boot ∧ s.renewed.Complete ∧ s.renewed.sessionLength s.boot = 0 := by
  obtain ⟨hc, hp | ⟨boot, hk⟩⟩ := h
  · obtain ⟨hr, hl⟩ := hp.renewed hc.toLedger
    exact ⟨hr, renewed_complete hc hl, renewed_sessionLength (by simp [hp.taken])⟩
  · obtain ⟨hr, hl⟩ := hk.renewed hc.toLedger hm
    exact ⟨hr, renewed_complete hc hl, renewed_sessionLength fun snapshot hs =>
      Nat.lt_of_le_of_lt (hk.latest snapshot hs) (hk.ended hm)⟩

theorem Whole.reboot (h : s.Whole) (btime : Nat) : (s.reboot btime).Whole := by
  obtain ⟨⟨hl, hf⟩, hk⟩ := h
  refine ⟨⟨⟨hl.accounted, hl.distinct, hl.oneSession, hl.short⟩, hf⟩, ?_⟩
  obtain hp | ⟨boot, hk⟩ := hk
  · exact .inl ⟨hp.dir, rfl, hp.taken, hp.packages, hp.discarded⟩
  · have hle : boot.number ≤ s.boot.number := by
      cases hm : s.bootMark with
      | true => exact Nat.le_of_eq (congrArg Boot.number (hk.current hm))
      | false => exact Nat.le_of_lt (hk.ended hm)
    refine .inr ⟨boot, ⟨hk.exist, hk.bootTime, hk.waiting, hk.latest, hk.numbered, hk.past⟩,
      hk.count, hk.few, ?_, fun _ => Nat.lt_succ_of_le hle⟩
    exact fun hm => absurd hm (by simp [Device.reboot])

/-- A run in the session of the snapshots that wait. -/
theorem Whole.collect_marked (h : s.Whole) (hm : s.bootMark = true) : s.collect.Whole := by
  obtain ⟨hc, hp | ⟨boot, hk⟩⟩ := h
  · exact absurd (hm.symm.trans hp.mark) (by decide)
  · obtain rfl := hk.current hm
    have hn : s.dir.snapshotCount.getD s.waiting.length = s.sessionLength s.boot := by
      rw [hk.count, Option.getD_some]
    rw [Device.collect_marked hm]
    by_cases hw : s.waiting.length + 1 < snapshotsToPack
    · rw [addSnapshot_waits hw]
      exact counted_whole hk.toRecorded hc hm hn hw
    · have hfew := hk.few
      have hfull : s.waiting.length + 1 = snapshotsToPack := by omega
      rw [addSnapshot_packs (by omega)]
      exact packed_whole hk.toRecorded hc hm hk.readBootTime hn hfull

/-- A run after a reboot, with room for its snapshot. -/
theorem Whole.collect_renewed (h : s.Whole) (hm : s.bootMark = false)
    (hw : s.waiting.length + 1 < snapshotsToPack) : s.collect.Whole := by
  obtain ⟨hr, hc, hn⟩ := h.renewed hm
  rw [Device.collect_renewed hm, addSnapshot_waits hw]
  rw [← renewed_boot] at hr hn
  refine counted_whole hr hc rfl hn.symm ?_
  rw [renewed_waiting]
  decide

/-- The count of the old session is still in the variable when the first snapshot of the
new one is there: a package of one. -/
theorem collect_renewed_packs (hm : s.bootMark = false) (hw : snapshotsToPack ≤ s.waiting.length + 1) :
    ∃ p ∈ s.collect.packages, p.bySize = true ∧ p.snapshots.length = 1 := by
  rw [collect_renewed hm, addSnapshot_packs hw]
  refine ⟨_, List.mem_cons_self .., rfl, ?_⟩
  simp [counted_waiting, renewed_waiting]

end Device

open Device

/-- The first run after a reboot does not find eleven snapshots waiting. -/
def Spaced (s : Device) : Action → Prop
  | .collect => s.bootMark = false → s.waiting.length + 1 < snapshotsToPack
  | .reboot _ => True

theorem new_whole (btime : Nat) : (Device.new btime).Whole := by
  refine ⟨⟨⟨List.Perm.refl _, List.nodup_nil, ?_, ?_⟩, ?_⟩, .inl ⟨rfl, rfl, rfl, rfl, rfl⟩⟩
  · exact fun p hp => nomatch hp
  · exact fun p hp => nomatch hp
  · exact fun p hp => nomatch hp

/-- **Packages are full and of one session, and no snapshot is lost or packed twice,
exactly when no first run after a reboot finds eleven snapshots waiting.** -/
theorem packages_complete (btime : Nat) (as : List Action) :
    (∀ s ∈ collector.visits as (Device.new btime), s.Complete) ↔
      collector.Within Spaced as (Device.new btime) := by
  refine Machine.visits_iff_within (I := Whole) ?_ ?_ (new_whole btime)
  · intro s a t h hg hs
    have ht : t.Whole := by
      cases a with
      | collect =>
        obtain rfl := Option.some.inj hs
        cases hm : s.bootMark with
        | true => exact h.collect_marked hm
        | false => exact h.collect_renewed hm (hg hm)
      | reboot btime =>
        obtain rfl := Option.some.inj hs
        exact h.reboot btime
    exact ⟨ht, ht.1⟩
  · intro s a t h hg hs hc
    cases a with
    | collect =>
      obtain rfl := Option.some.inj hs
      simp only [Spaced, Classical.not_imp, Nat.not_lt] at hg
      obtain ⟨p, hp, hsize, hone⟩ := collect_renewed_packs hg.1 hg.2
      exact absurd (hone.symm.trans (hc.full p hp hsize)) (by decide)
    | reboot btime => exact hg trivial

/-- Eleven snapshots, a reboot, and one more run: it makes a package of one. -/
def rebootAtEleven : List Action := List.replicate 11 .collect ++ [.reboot 7, .collect]

theorem reboot_packs_one :
    ¬ ∀ s ∈ collector.visits rebootAtEleven (Device.new 3), s.Complete := by
  intro h
  have hone : ∃ s ∈ collector.visits rebootAtEleven (Device.new 3), ∃ p ∈ s.packages,
      p.bySize = true ∧ p.snapshots.length ≠ snapshotsToPack := by decide
  obtain ⟨s, hs, p, hp, hsize, hne⟩ := hone
  exact hne ((h s hs).full p hp hsize)

end CrashReporter.Endurance
