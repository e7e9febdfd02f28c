import CrashReporter.Daemon.CoreMonitoring
import CrashReporter.Spacing
import Mathlib.Logic.Function.Basic

/-! How processes of `crash-reporter-daemon` start.

A process that finds no PID file waits half a minute before it initiates the daemon; one
that finds a file tries at once, and removes the file when that fails. A process that fails
ends, and is started again. `processes` is the event machine of all processes, the PID file
and the D-Bus name that only one of them can have. The startup timer is taken to be exact,
although Qt lets a coarse timer expire up to a twentieth too early, and the PID file to be
one that can always be removed. -/
namespace CrashReporter.Daemon
open CReporterDaemon

namespace Startups

structure Process where
  daemon : CReporterDaemon
  /-- When the startup timer expires at the earliest, while the start is delayed. -/
  startupTimer : Option Int

structure World where
  /-- In milliseconds. -/
  now : Int
  /-- What the PID file says, when it is there. -/
  pidFile : Option Nat
  /-- The process with the D-Bus name. -/
  owner : Option Nat
  processes : Nat → Option Process
  /-- When processes were started, latest first. -/
  starts : List Int

def startupDelay : Int := 30000

inductive Event where
  | tick (ms : Nat)
  /-- A process is started, and can write the PID file or not. -/
  | start (pid : Nat) (writable : Bool) (settings : PrivacySettingsModel) (savedState : CReporterSavedState)
    (u : Startup)
  | timerEvent (pid : Nat) (u : Startup)
  /-- What happens to a daemon that runs. -/
  | request (pid : Nat) (r : Request)
  /-- A process ends, whatever the reason. -/
  | exit (pid : Nat)

namespace World

/-- Whether this is the first startup. -/
def getPid (pid : Nat) (writable : Bool) (w : World) : Bool × World :=
  let firstStartup := w.pidFile.isNone
  (firstStartup, {w with pidFile := if writable then some pid else none})

def setProcess (pid : Nat) (p : Option Process) (w : World) : World :=
  {w with processes := Function.update w.processes pid p}

def setDelayedStartup (timeout : Int) (pid : Nat) (d : CReporterDaemon) (w : World) : World :=
  w.setProcess pid (some ⟨d, some (w.now + timeout)⟩)

/-- `initiateDaemon` of a process; the name can be had when no other process has it. -/
def initiate (pid : Nat) (u : Startup) (d : CReporterDaemon) (w : World) : Option World :=
  (d.initiateDaemon {u with serviceStarted := u.serviceStarted && w.owner.isNone}).map fun d =>
    {w with owner := some pid}.setProcess pid (some ⟨d, none⟩)

/-- `main`, up to the event loop. -/
def main (pid : Nat) (writable : Bool) (d : CReporterDaemon) (u : Startup) (w : World) : World :=
  let (firstStartup, w) := w.getPid pid writable
  -- If no PID file was found, delay startup.
  if firstStartup then w.setDelayedStartup startupDelay pid d
  else match w.initiate pid u d with
    | some w => w
    | none => {w with pidFile := none}

end World

def processes : Machine World Event where
  step w
    | .tick ms => some {w with now := w.now + ms}
    | .start pid writable settings savedState u =>
      if (w.processes pid).isSome then none
      else some ({w with starts := w.now :: w.starts}.main pid writable (new settings savedState) u)
    | .timerEvent pid u =>
      match w.processes pid with
      | some ⟨d, some due⟩ =>
        if w.now < due then none
        else match w.initiate pid u d with
          | some w => some w
          | none => some (w.setProcess pid none)
      | _ => none
    | .request pid r =>
      match w.processes pid with
      | some ⟨d, none⟩ => (requests.step d r).map fun d => w.setProcess pid (some ⟨d, none⟩)
      | _ => none
    | .exit pid =>
      match w.processes pid with
      | some _ => some ({w with owner := if w.owner = some pid then none else w.owner}.setProcess pid none)
      | none => none

/-- No process runs yet; an old PID file may be there. -/
def booted (now : Int) (pidFile : Option Nat) : World := ⟨now, pidFile, none, fun _ => none, []⟩

/-! ### What a start does -/

section Start
variable {w t : World} {pid p : Nat} {u : Startup} {d : CReporterDaemon} {q : Option Process}

@[simp] theorem World.setProcess_self : (w.setProcess pid q).processes pid = q := Function.update_self ..

theorem World.setProcess_of_ne (h : p ≠ pid) : (w.setProcess pid q).processes p = w.processes p :=
  Function.update_of_ne h ..

/-- Only a process that nobody keeps the name from initiates the daemon. -/
theorem World.initiate_some (h : w.initiate pid u d = some t) :
    w.owner = none ∧ ∃ d', t = {w with owner := some pid}.setProcess pid (some ⟨d', none⟩) := by
  obtain ⟨d', hd, rfl⟩ := Option.map_eq_some_iff.mp h
  refine ⟨?_, d', rfl⟩
  by_contra howner
  obtain ⟨other, hother⟩ := Option.ne_none_iff_exists'.mp howner
  simp [initiateDaemon, hother] at hd

/-- What `main` leaves: a delayed start, a daemon that runs, or a process that has ended. -/
inductive Started (pid : Nat) (w : World) : World → Prop where
  | delayed (d : CReporterDaemon) (hd : d.monitor = none) (h : w.pidFile = none) (file : Option Nat) :
    Started pid w ({w with pidFile := file}.setProcess pid (some ⟨d, some (w.now + startupDelay)⟩))
  | running (d : CReporterDaemon) (hp : w.pidFile ≠ none) (h : w.owner = none) (file : Option Nat) :
    Started pid w ({w with pidFile := file, owner := some pid}.setProcess pid (some ⟨d, none⟩))
  | failed (hp : w.pidFile ≠ none) : Started pid w {w with pidFile := none}

theorem World.main_started (writable : Bool) (hd : d.monitor = none) : Started pid w (w.main pid writable d u) := by
  unfold main getPid
  dsimp only
  split
  · rename_i hfirst
    exact .delayed d hd (by simpa using hfirst) _
  · rename_i hfirst
    have hfile : w.pidFile ≠ none := by simpa using hfirst
    split
    · rename_i v hv
      obtain ⟨howner, d', rfl⟩ := initiate_some hv
      exact .running d' hfile howner _
    · exact .failed hfile

/-- What an event does. -/
inductive Moves (w : World) : Event → World → Prop where
  | ticked (ms : Nat) : Moves w (.tick ms) {w with now := w.now + ms}
  | started {pid : Nat} {writable : Bool} {settings : PrivacySettingsModel} {savedState : CReporterSavedState}
    {u : Startup} (h : w.processes pid = none) {t : World}
    (ht : Started pid {w with starts := w.now :: w.starts} t) :
    Moves w (.start pid writable settings savedState u) t
  | initiated {pid : Nat} {u : Startup} {d : CReporterDaemon} {due : Int}
    (h : w.processes pid = some ⟨d, some due⟩) (howner : w.owner = none) (d' : CReporterDaemon) :
    Moves w (.timerEvent pid u) ({w with owner := some pid}.setProcess pid (some ⟨d', none⟩))
  | failed {pid : Nat} {u : Startup} {d : CReporterDaemon} {due : Int}
    (h : w.processes pid = some ⟨d, some due⟩) (hdue : due ≤ w.now) :
    Moves w (.timerEvent pid u) (w.setProcess pid none)
  | requested {pid : Nat} {r : Request} {d : CReporterDaemon} (h : w.processes pid = some ⟨d, none⟩)
    (d' : CReporterDaemon) : Moves w (.request pid r) (w.setProcess pid (some ⟨d', none⟩))
  | exited {pid : Nat} {q : Process} (h : w.processes pid = some q) : Moves w (.exit pid)
      ({w with owner := if w.owner = some pid then none else w.owner}.setProcess pid none)

theorem step_moves {e : Event} (hs : processes.step w e = some t) : Moves w e t := by
  cases e with
  | tick ms =>
    obtain rfl := Option.some.inj hs
    exact .ticked ms
  | start pid writable settings savedState u =>
    simp only [processes] at hs
    split at hs
    · cases hs
    · rename_i h
      obtain rfl := Option.some.inj hs
      exact .started (by simpa using h) (World.main_started writable rfl)
  | timerEvent pid u =>
    simp only [processes] at hs
    split at hs
    · rename_i d due h
      split at hs
      · cases hs
      · rename_i hdue
        split at hs
        · rename_i v hv
          obtain ⟨howner, d', rfl⟩ := World.initiate_some hv
          obtain rfl := Option.some.inj hs
          exact .initiated h howner d'
        · obtain rfl := Option.some.inj hs
          exact .failed h (Int.not_lt.mp hdue)
    · cases hs
  | request pid r =>
    simp only [processes] at hs
    split at hs
    · rename_i d h
      obtain ⟨d', -, rfl⟩ := Option.map_eq_some_iff.mp hs
      exact .requested h d'
    · cases hs
  | exit pid =>
    simp only [processes] at hs
    split at hs
    · rename_i q h
      obtain rfl := Option.some.inj hs
      exact .exited h
    · cases hs

end Start

/-! ### One daemon at a time -/

/-- A daemon that runs has the name; one that still waits has no monitor. -/
structure Owned (w : World) : Prop where
  running : ∀ pid d, w.processes pid = some ⟨d, none⟩ → w.owner = some pid
  waiting : ∀ pid d due, w.processes pid = some ⟨d, some due⟩ → d.monitor = none

section Owned
variable {w t : World} {pid : Nat} {e : Event}

/-- A process changes, and nobody else runs. -/
theorem Owned.set {d : CReporterDaemon} (h : Owned w) (howner : w.owner = none ∨ w.owner = some pid) :
    Owned ({w with owner := some pid}.setProcess pid (some ⟨d, none⟩)) := by
  constructor
  · intro p d' hp
    by_cases hne : p = pid
    · rw [hne]
      rfl
    · rw [World.setProcess_of_ne hne] at hp
      have hown := h.running p d' hp
      obtain hnone | hpid := howner
      · rw [hnone] at hown
        cases hown
      · exact absurd (Option.some.inj (hown.symm.trans hpid)) hne
  · intro p d' due hp
    by_cases hne : p = pid
    · rw [hne, World.setProcess_self] at hp
      cases hp
    · rw [World.setProcess_of_ne hne] at hp
      exact h.waiting p d' due hp

/-- A process ends. -/
theorem Owned.ended {owner : Option Nat} (h : Owned w) (ho : ∀ p, p ≠ pid → w.owner = some p → owner = some p) :
    Owned ({w with owner := owner}.setProcess pid none) := by
  constructor
  · intro p d hp
    by_cases hne : p = pid
    · rw [hne, World.setProcess_self] at hp
      cases hp
    · rw [World.setProcess_of_ne hne] at hp
      exact ho p hne (h.running p d hp)
  · intro p d due hp
    by_cases hne : p = pid
    · rw [hne, World.setProcess_self] at hp
      cases hp
    · rw [World.setProcess_of_ne hne] at hp
      exact h.waiting p d due hp

theorem Owned.started (h : Owned w) (ht : Started pid w t) : Owned t := by
  cases ht with
  | delayed d hd =>
    constructor
    · intro p d' hp
      by_cases hne : p = pid
      · rw [hne, World.setProcess_self] at hp
        cases hp
      · rw [World.setProcess_of_ne hne] at hp
        exact h.running p d' hp
    · intro p d' due hp
      by_cases hne : p = pid
      · rw [hne, World.setProcess_self] at hp
        cases hp
        exact hd
      · rw [World.setProcess_of_ne hne] at hp
        exact h.waiting p d' due hp
  | running d _ howner file =>
    exact Owned.set (w := {w with pidFile := file}) ⟨h.running, h.waiting⟩ (.inl howner)
  | failed => exact ⟨h.running, h.waiting⟩

theorem Owned.step (h : Owned w) (hs : processes.step w e = some t) : Owned t := by
  cases step_moves hs with
  | ticked ms => exact ⟨h.running, h.waiting⟩
  | started _ ht => exact Owned.started (w := {w with starts := w.now :: w.starts}) ⟨h.running, h.waiting⟩ ht
  | initiated _ howner d' => exact h.set (.inl howner)
  | failed => exact h.ended fun _ _ ho => ho
  | requested hp d' =>
    have howner := h.running _ _ hp
    have hset := h.set (d := d') (.inr howner)
    rw [← howner] at hset
    exact hset
  | @exited pid =>
    refine h.ended fun p hne ho => ?_
    rw [if_neg fun hpid => hne (Option.some.inj (ho.symm.trans hpid))]
    exact ho

/-- However many processes are started, by systemd, over D-Bus or by hand, at most one of them
monitors the core directories, and that is the one with the D-Bus name. -/
theorem one_monitors (now : Int) (pidFile : Option Nat) (es : List Event) :
    ∀ w ∈ processes.visits es (booted now pidFile), ∀ pid p, w.processes pid = some p →
      p.daemon.monitor ≠ none → w.owner = some pid := by
  intro w hw pid p hp hm
  have howned := Machine.visits_invariant (I := Owned) (fun _ _ _ h _ hs => h.step hs) (s := booted now pidFile)
    ⟨nofun, nofun⟩ (Machine.within_true es _) w hw
  obtain ⟨d, timer⟩ := p
  cases timer with
  | none => exact howned.running pid d hp
  | some due => exact absurd (howned.waiting pid d due hp) hm

/-- The daemon runs; a second process finds the name taken, and takes the PID file with it. -/
def startedTwice : List Event :=
  let start pid : Event := .start pid true installed.settings installed.savedState quietStartup
  [start 1, start 2]

theorem startedTwice_ne : processes.visits startedTwice (booted 0 (some 7)) ≠ [] :=
  List.ne_nil_of_length_pos (by decide)

theorem one_monitors_startedTwice : let w := (processes.visits startedTwice (booted 0 (some 7))).getLast startedTwice_ne
    w.pidFile = none ∧ w.owner = some 1 := by
  refine ⟨by decide, one_monitors 0 (some 7) startedTwice _ (List.getLast_mem startedTwice_ne) 1
    ⟨initiated, none⟩ rfl (by decide)⟩

end Owned

/-! ### A daemon that cannot start -/

/-- Processes are started one after another, and end only because the daemon cannot start. -/
def Respawned (w : World) : Event → Prop
  | .start .. => ∀ pid, w.processes pid = none
  | .exit _ => False
  | _ => True

/-- Every other start is delayed. -/
structure Paced (w : World) : Prop where
  apart : Spacing.Apart startupDelay 1 w.starts
  past : ∀ s ∈ w.starts, s ≤ w.now
  alone : ∀ p q, w.processes p ≠ none → w.processes q ≠ none → p = q
  waiting : ∀ p d due, w.processes p = some ⟨d, some due⟩ → ∀ s ∈ w.starts, s + startupDelay ≤ due
  /-- A process that tries at once comes after a delay; one that is delayed may come at once. -/
  ready : (∀ p, w.processes p = none) →
    (∀ s ∈ w.starts.drop 1, s + startupDelay ≤ w.now) ∧
      (w.pidFile ≠ none → ∀ s ∈ w.starts, s + startupDelay ≤ w.now)

section Paced
variable {w t : World} {pid : Nat} {e : Event}

theorem Paced.started (h : Paced w) (hnone : ∀ p, w.processes p = none)
    (ht : Started pid {w with starts := w.now :: w.starts} t) : Paced t := by
  obtain ⟨htail, hall⟩ := h.ready hnone
  have hapart := h.apart.cons htail
  have hpast : ∀ s ∈ w.now :: w.starts, s ≤ w.now := List.forall_mem_cons.mpr ⟨Int.le_refl _, h.past⟩
  have halone (q : Process) (p : Nat) (hp : (w.setProcess pid (some q)).processes p ≠ none) : p = pid := by
    by_contra hne
    rw [World.setProcess_of_ne hne] at hp
    exact hp (hnone p)
  cases ht with
  | delayed d hd hfile file =>
    refine ⟨hapart, hpast, fun p q hp hq => (halone _ p hp).trans (halone _ q hq).symm, fun p d' due hp s hs => ?_,
      fun hn => ?_⟩
    · by_cases hne : p = pid
      · rw [hne, World.setProcess_self] at hp
        cases hp
        exact Int.add_le_add_right (hpast s hs) _
      · rw [World.setProcess_of_ne hne] at hp
        cases (hnone p).symm.trans hp
    · have hpid := hn pid
      rw [World.setProcess_self] at hpid
      cases hpid
  | running d hp howner file =>
    refine ⟨hapart, hpast, fun p q hp hq => (halone _ p hp).trans (halone _ q hq).symm, fun p d' due hp => ?_,
      fun hn => ?_⟩
    · by_cases hne : p = pid
      · rw [hne, World.setProcess_self] at hp
        cases hp
      · rw [World.setProcess_of_ne hne] at hp
        cases (hnone p).symm.trans hp
    · have hpid := hn pid
      rw [World.setProcess_self] at hpid
      cases hpid
  | failed hfile =>
    refine ⟨hapart, hpast, h.alone, fun p d due hp => ?_, fun _ => ⟨hall hfile, fun hn => absurd rfl hn⟩⟩
    cases (hnone p).symm.trans hp

/-- The one process goes on. -/
theorem Paced.runs {owner : Option Nat} {d : CReporterDaemon} {q : Process} (h : Paced w)
    (hp : w.processes pid = some q) : Paced ({w with owner := owner}.setProcess pid (some ⟨d, none⟩)) := by
  have hsome : w.processes pid ≠ none := by simp [hp]
  have hne (p : Nat) (hn : p ≠ pid) : w.processes p = none := by
    by_contra hq
    exact hn (h.alone p pid hq hsome)
  have halone (p : Nat) (hq : ({w with owner := owner}.setProcess pid (some ⟨d, none⟩)).processes p ≠ none) :
      p = pid := by
    by_contra hn
    rw [World.setProcess_of_ne hn] at hq
    exact hq (hne p hn)
  refine ⟨h.apart, h.past, fun p q hp hq => (halone p hp).trans (halone q hq).symm, fun p d' due hq => ?_,
    fun hn => ?_⟩
  · obtain rfl := halone p (by simp [hq])
    rw [World.setProcess_self] at hq
    cases hq
  · have hpid := hn pid
    rw [World.setProcess_self] at hpid
    cases hpid

theorem Paced.step (h : Paced w) (hg : Respawned w e) (hs : processes.step w e = some t) : Paced t := by
  cases step_moves hs with
  | ticked ms =>
    have hlater {s : Int} (hs : s ≤ w.now) : s ≤ w.now + ms := by omega
    exact ⟨h.apart, fun s hs => hlater (h.past s hs), h.alone, h.waiting,
      fun hn => ⟨fun s hs => hlater ((h.ready hn).1 s hs), fun hf s hs => hlater ((h.ready hn).2 hf s hs)⟩⟩
  | started _ ht => exact h.started hg ht
  | initiated hp => exact h.runs hp
  | @failed pid u d due hp hdue =>
    have hdelay (s : Int) (hs : s ∈ w.starts) : s + startupDelay ≤ w.now :=
      Int.le_trans (h.waiting pid d due hp s hs) hdue
    have hleft (p : Nat) (hq : (w.setProcess pid none).processes p ≠ none) :
        p ≠ pid ∧ (w.setProcess pid none).processes p = w.processes p := by
      have hne : p ≠ pid := by
        rintro rfl
        exact hq World.setProcess_self
      exact ⟨hne, World.setProcess_of_ne hne⟩
    refine ⟨h.apart, h.past, fun p q hp hq => ?_, fun p d' due' hq => ?_,
      fun _ => ⟨fun s hs => hdelay s (List.mem_of_mem_drop hs), fun _ => hdelay⟩⟩
    · exact h.alone p q ((hleft p hp).2 ▸ hp) ((hleft q hq).2 ▸ hq)
    · rw [(hleft p (by simp [hq])).2] at hq
      exact h.waiting p d' due' hq
  | requested hp => exact Paced.runs h hp
  | exited => exact hg.elim

/-- A daemon that cannot start is not started more than twice in half a minute. -/
theorem restarts_spaced (now : Int) (pidFile : Option Nat) {es : List Event}
    (hw : processes.Within Respawned es (booted now pidFile)) :
    ∀ w ∈ processes.visits es (booted now pidFile), ∀ start,
      (w.starts.filter (Spacing.inside startupDelay start)).length ≤ 2 := by
  intro w hv start
  have hbooted : Paced (booted now pidFile) :=
    ⟨trivial, nofun, fun _ _ hp => absurd rfl hp, nofun, fun _ => ⟨nofun, fun _ => nofun⟩⟩
  have h := Machine.visits_invariant (fun _ _ _ h hg hs => Paced.step h hg hs) hbooted hw w hv
  exact h.apart.length_filter_inside_le start

/-- There is no session bus: the first process tries at once, the second one is delayed, and a
third one is started when that has failed, too. -/
def noBus : List Event :=
  let start pid : Event :=
    .start pid true installed.settings installed.savedState {quietStartup with serviceStarted := false}
  [start 1, start 2, .tick 30000, .timerEvent 2 {quietStartup with serviceStarted := false}, start 3]

theorem noBus_ne : processes.visits noBus (booted 0 (some 7)) ≠ [] := List.ne_nil_of_length_pos (by decide)

theorem restarts_spaced_noBus : let w := (processes.visits noBus (booted 0 (some 7))).getLast noBus_ne
    w.starts.length = 3 ∧ (w.starts.filter (Spacing.inside startupDelay 0)).length ≤ 2 := by
  refine ⟨by decide, restarts_spaced 0 (some 7) ?_ _ (List.getLast_mem noBus_ne) 0⟩
  intro t ht
  refine ⟨fun _ => rfl, ?_⟩
  obtain rfl := Option.some.inj ht
  intro t ht
  refine ⟨fun _ => rfl, ?_⟩
  obtain rfl := Option.some.inj ht
  intro t ht
  obtain rfl := Option.some.inj ht
  refine ⟨trivial, fun t ht => ⟨trivial, ?_⟩⟩
  obtain rfl := Option.some.inj ht
  refine fun t ht => ⟨fun pid => ?_, trivial⟩
  by_cases h : pid = 2
  · rw [h]
    rfl
  · exact (World.setProcess_of_ne h).trans (World.setProcess_of_ne h)

example : (processes.visits noBus (booted 0 (some 7))).map World.starts =
    [[0], [0, 0], [0, 0], [0, 0], [30000, 0, 0]] := by decide

end Paced

end Startups

end CrashReporter.Daemon
