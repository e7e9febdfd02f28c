import CrashReporter.Machine
import CrashReporter.Text
import Mathlib.Logic.Function.Iterate

/-! How `CReporterDaemonMonitor` notices that a core directory is back.

When a watched core directory is gone, `handleDirectoryChanged` watches the directory two
levels up, and `handleParentDirectoryChanged` adds the core directories again that exist
by then. `monitor` is the event machine of the directories and the two watchers. A
`FileSystemWatcher` sends a notification when an entry appears in a directory that it
watches or disappears from it, and when the directory itself is removed, which it stops
to watch then. Notifications are delivered later, in any order. -/
namespace CrashReporter.Monitor
open Text

/-- A directory, its own name first, then its parent's; the root is the empty list. -/
abbrev Path := List Text

structure FileSystemWatcher where
  directories : List Path
  /-- The directories of the notifications on their way. -/
  pending : List Path
deriving DecidableEq

namespace FileSystemWatcher

/-- Nothing is added when the directory is not there or watched already. -/
def addPath (dirs : List Path) (w : FileSystemWatcher) (path : Path) : FileSystemWatcher :=
  if dirs.contains path && !w.directories.contains path then
    {w with directories := w.directories ++ [path]}
  else w

def addPaths (dirs : List Path) (w : FileSystemWatcher) (paths : List Path) : FileSystemWatcher :=
  paths.foldl (addPath dirs) w

/-- What is not watched any more is not notified either. -/
def removePaths (w : FileSystemWatcher) (paths : List Path) : FileSystemWatcher :=
  ⟨w.directories.filter fun path => !paths.contains path, w.pending.filter fun path => !paths.contains path⟩

/-- An entry appears in the directory, or disappears from it. -/
def entryChanged (path : Path) (w : FileSystemWatcher) : FileSystemWatcher :=
  if w.directories.contains path then {w with pending := path :: w.pending} else w

/-- The directory is removed. -/
def removed (path : Path) (w : FileSystemWatcher) : FileSystemWatcher :=
  if w.directories.contains path then
    ⟨w.directories.filter (· ≠ path), path :: w.pending⟩
  else w

def delivered (path : Path) (w : FileSystemWatcher) : FileSystemWatcher :=
  {w with pending := w.pending.erase path}

variable {dirs : List Path} {w : FileSystemWatcher} {path p : Path}

theorem mem_addPath : p ∈ (w.addPath dirs path).directories ↔
    p ∈ w.directories ∨ p = path ∧ path ∈ dirs := by
  unfold addPath
  by_cases hd : path ∈ dirs <;> by_cases hw : path ∈ w.directories <;> simp [hd, hw]
  rintro rfl
  exact hw

theorem mem_addPaths {paths : List Path} : p ∈ (w.addPaths dirs paths).directories ↔
    p ∈ w.directories ∨ p ∈ paths ∧ p ∈ dirs := by
  unfold addPaths
  induction paths generalizing w with
  | nil => simp
  | cons path paths ih =>
    rw [List.foldl_cons, ih, mem_addPath, List.mem_cons]
    grind

@[simp] theorem addPath_pending : (w.addPath dirs path).pending = w.pending := by
  unfold addPath
  split <;> rfl

@[simp] theorem entryChanged_directories : (w.entryChanged path).directories = w.directories := by
  unfold entryChanged
  split <;> rfl

theorem mem_removed : p ∈ (w.removed path).directories ↔ p ∈ w.directories ∧ p ≠ path := by
  unfold removed
  split
  · simp
  · rename_i hw
    have hne : p ∈ w.directories → p ≠ path := by
      rintro hp rfl
      simp [hp] at hw
    exact ⟨fun hp => ⟨hp, hne hp⟩, And.left⟩

/-- Notifications on their way are not taken back. -/
theorem entryChanged_pending (h : w.pending ≠ []) : (w.entryChanged path).pending ≠ [] := by
  unfold entryChanged
  split
  · exact List.cons_ne_nil _ _
  · exact h

theorem removed_pending (h : w.pending ≠ []) : (w.removed path).pending ≠ [] := by
  unfold removed
  split
  · exact List.cons_ne_nil _ _
  · exact h

end FileSystemWatcher

namespace ParentWatch
open FileSystemWatcher

structure State where
  /-- The directories that are there. -/
  dirs : List Path
  watcher : FileSystemWatcher
  parentDirWatcher : FileSystemWatcher
  /-- How often handleParentDirectoryChanged() is connected: disconnect(this, ...) names the
  receiver as the sender, and so disconnects nothing. -/
  connections : Nat
  /-- What the watcher has ever watched. -/
  watched : List Path
deriving DecidableEq

inductive Step where
  | mkdir (path : Path)
  | rmdir (path : Path)
  /-- A file appears in the directory, or disappears from it. -/
  | fileChanged (path : Path)
  /-- A notification of `watcher`, or of `parentDirWatcher`, is delivered. -/
  | directoryChanged (path : Path)
  | parentDirectoryChanged (path : Path)
deriving DecidableEq

section Machine
variable (coreDirs : List Path)

def getCoreLocationPaths (s : State) : List Path := coreDirs.filter s.dirs.contains

/-- `watcher.addPaths` of the core directories. -/
def addCorePaths (s : State) : State :=
  let watcher := s.watcher.addPaths s.dirs (getCoreLocationPaths coreDirs s)
  {s with watcher := watcher, watched := s.watched ++ watcher.directories}

/-- The part of `handleDirectoryChanged` about directories: cd("../..") fails when there is
no such directory. -/
def handleDirectoryChanged (path : Path) (s : State) : State :=
  if s.dirs.contains path then s
  else if s.dirs.contains path.tail.tail then
    {s with
      connections := s.connections + 1
      parentDirWatcher := s.parentDirWatcher.addPath s.dirs path.tail.tail}
  else s

def handleParentDirectoryChanged (s : State) : State :=
  let s' := addCorePaths coreDirs s
  if s.watcher.directories.length < s'.watcher.directories.length then
    {s' with parentDirWatcher := s'.parentDirWatcher.removePaths s'.parentDirWatcher.directories}
  else s'

/-- Both watchers see what happens to a directory. -/
def see (f : FileSystemWatcher → FileSystemWatcher) (s : State) : State :=
  {s with watcher := f s.watcher, parentDirWatcher := f s.parentDirWatcher}

def monitor : Machine State Step where
  step s
    | .mkdir path =>
      if path = [] || s.dirs.contains path || !s.dirs.contains path.tail then none
      else some (see (.entryChanged path.tail) {s with dirs := path :: s.dirs})
    | .rmdir path =>
      if path = [] || !s.dirs.contains path || s.dirs.any (fun p => p ≠ [] && p.tail = path) then none
      else some (see (fun w => (w.removed path).entryChanged path.tail)
        {s with dirs := s.dirs.filter (· ≠ path)})
    | .fileChanged path => some (see (.entryChanged path) s)
    | .directoryChanged path =>
      if s.watcher.pending.contains path then
        some (handleDirectoryChanged path {s with watcher := s.watcher.delivered path})
      else none
    | .parentDirectoryChanged path =>
      if s.parentDirWatcher.pending.contains path then
        some ((handleParentDirectoryChanged coreDirs)^[s.connections]
          {s with parentDirWatcher := s.parentDirWatcher.delivered path})
      else none

/-- After `addDirectoryWatcher`. -/
def start (dirs : List Path) : State := addCorePaths coreDirs ⟨dirs, ⟨[], []⟩, ⟨[], []⟩, 0, []⟩

end Machine

/-- No notification is pending. -/
def Quiet (s : State) : Prop := s.watcher.pending = [] ∧ s.parentDirWatcher.pending = []

/-- Every core directory that was watched is watched again, when it is there. -/
def Resumed (s : State) : Prop := ∀ c ∈ s.watched, c ∈ s.dirs → c ∈ s.watcher.directories

def Step.delivers : Step → Bool
  | .directoryChanged _ | .parentDirectoryChanged _ => true
  | .mkdir _ | .rmdir _ | .fileChanged _ => false

/-- A directory that was watched comes back only while a notification of the parent
directories is pending, or is sent for it. -/
def Noticed (s : State) : Step → Prop
  | .mkdir path => path ∈ s.watched →
    s.parentDirWatcher.pending ≠ [] ∨ path.tail ∈ s.parentDirWatcher.directories
  | _ => True

section Sound
variable (coreDirs : List Path)

structure Sound (s : State) : Prop where
  there : ∀ p ∈ s.watcher.directories, p ∈ s.dirs
  seen : ∀ p ∈ s.watcher.directories, p ∈ s.watched
  core : ∀ p ∈ s.watched, p ∈ coreDirs
  connected : s.parentDirWatcher.directories ≠ [] ∨ s.parentDirWatcher.pending ≠ [] → s.connections ≠ 0

/-- What is not watched again yet is about to be. -/
def Covered (s : State) : Prop :=
  ∀ c ∈ s.watched, c ∈ s.dirs → c ∈ s.watcher.directories ∨ s.parentDirWatcher.pending ≠ []

variable {coreDirs : List Path} {s : State} {path : Path}

theorem Covered.resumed (h : Covered s) (hq : Quiet s) : Resumed s :=
  fun c hw hc => (h c hw hc).resolve_right fun hp => hp hq.2

theorem Resumed.covered (h : Resumed s) : Covered s := fun c hw hc => .inl (h c hw hc)

/-! ### Adding the core directories -/

theorem mem_addCorePaths {p : Path} : p ∈ (addCorePaths coreDirs s).watcher.directories ↔
    p ∈ s.watcher.directories ∨ p ∈ coreDirs ∧ p ∈ s.dirs := by
  simp [addCorePaths, getCoreLocationPaths, mem_addPaths]

theorem Sound.addCorePaths (h : Sound coreDirs s) : Sound coreDirs (addCorePaths coreDirs s) where
  there p hp := by
    rcases mem_addCorePaths.mp hp with hp | ⟨-, hp⟩
    · exact h.there p hp
    · exact hp
  seen p hp := List.mem_append_right _ hp
  core p hp := by
    rcases List.mem_append.mp hp with hp | hp
    · exact h.core p hp
    · rcases mem_addCorePaths.mp hp with hp | ⟨hp, -⟩
      · exact h.core p (h.seen p hp)
      · exact hp
  connected := h.connected

theorem Sound.addCorePaths_resumed (h : Sound coreDirs s) : Resumed (ParentWatch.addCorePaths coreDirs s) := by
  intro c hw hc
  exact mem_addCorePaths.mpr (.inr ⟨h.addCorePaths.core c hw, hc⟩)

theorem Sound.handleParentDirectoryChanged (h : Sound coreDirs s) :
    Sound coreDirs (handleParentDirectoryChanged coreDirs s) := by
  have ha := h.addCorePaths
  simp only [ParentWatch.handleParentDirectoryChanged]
  split
  · refine ⟨ha.there, ha.seen, ha.core, fun hne => ha.connected ?_⟩
    refine hne.imp (fun hd he => hd ?_) (fun hp he => hp ?_) <;> simp [removePaths, he]
  · exact ha

theorem Sound.handleParentDirectoryChanged_resumed (h : Sound coreDirs s) :
    Resumed (ParentWatch.handleParentDirectoryChanged coreDirs s) := by
  have hr := h.addCorePaths_resumed
  simp only [ParentWatch.handleParentDirectoryChanged]
  split <;> exact hr

/-- A delivered notification enters the slot once for each connection. -/
theorem Sound.enter (h : Sound coreDirs s) (n : Nat) :
    Sound coreDirs ((ParentWatch.handleParentDirectoryChanged coreDirs)^[n] s) := by
  induction n generalizing s with
  | zero => exact h
  | succ n ih => exact ih h.handleParentDirectoryChanged

theorem Sound.enter_resumed (h : Sound coreDirs s) {n : Nat} (hn : n ≠ 0) :
    Resumed ((ParentWatch.handleParentDirectoryChanged coreDirs)^[n] s) := by
  obtain ⟨n, rfl⟩ := Nat.exists_eq_succ_of_ne_zero hn
  rw [Function.iterate_succ_apply']
  exact (h.enter n).handleParentDirectoryChanged_resumed

theorem Sound.delivered (h : Sound coreDirs s) : Sound coreDirs
    {s with parentDirWatcher := s.parentDirWatcher.delivered path} := by
  refine ⟨h.there, h.seen, h.core, fun hne => h.connected (hne.imp_right fun hp he => hp ?_)⟩
  simp [FileSystemWatcher.delivered, he]

theorem Sound.handleDirectoryChanged (h : Sound coreDirs s) :
    Sound coreDirs (handleDirectoryChanged path s) := by
  unfold ParentWatch.handleDirectoryChanged
  split
  · exact h
  · split
    · exact ⟨h.there, h.seen, h.core, fun _ => Nat.succ_ne_zero _⟩
    · exact h

/-- Handling a notification of the core directories leaves what they cover. -/
theorem Covered.handleDirectoryChanged (h : Covered s) : Covered (handleDirectoryChanged path s) := by
  unfold ParentWatch.handleDirectoryChanged
  split
  · exact h
  · split
    · intro c hw hc
      rw [addPath_pending]
      exact h c hw hc
    · exact h

/-! ### One event keeps it -/

theorem Sound.start (dirs : List Path) : Sound coreDirs (start coreDirs dirs) :=
  Sound.addCorePaths ⟨by simp, by simp, by simp, by simp⟩

theorem covered_start (dirs : List Path) : Covered (start coreDirs dirs) :=
  (Sound.addCorePaths_resumed ⟨by simp, by simp, by simp, by simp⟩).covered

theorem Sound.step (h : Sound coreDirs s) {e : Step} {t : State}
    (hs : (monitor coreDirs).step s e = some t) : Sound coreDirs t := by
  have hentry {p : Path} (hne : (s.parentDirWatcher.entryChanged p).directories ≠ [] ∨
      (s.parentDirWatcher.entryChanged p).pending ≠ []) : s.connections ≠ 0 := by
    apply h.connected
    by_contra hnone
    simp only [ne_eq, not_or, not_not] at hnone
    simp [entryChanged, hnone] at hne
  cases e with
  | mkdir path =>
    simp only [monitor] at hs
    split at hs
    · exact nomatch hs
    · cases hs
      refine ⟨fun p hp => ?_, fun p hp => ?_, h.core, hentry⟩
      · exact List.mem_cons_of_mem _ (h.there p (by simpa [see] using hp))
      · exact h.seen p (by simpa [see] using hp)
  | rmdir path =>
    simp only [monitor] at hs
    split at hs
    · exact nomatch hs
    · cases hs
      refine ⟨fun p hp => ?_, fun p hp => ?_, h.core, fun hne => ?_⟩
      · obtain ⟨hp, hne⟩ : p ∈ s.watcher.directories ∧ p ≠ path := by
          simpa [see, mem_removed] using hp
        exact List.mem_filter.mpr ⟨h.there p hp, by simpa using hne⟩
      · obtain ⟨hp, -⟩ : p ∈ s.watcher.directories ∧ p ≠ path := by
          simpa [see, mem_removed] using hp
        exact h.seen p hp
      · apply h.connected
        by_contra hnone
        simp only [ne_eq, not_or, not_not] at hnone
        simp [see, removed, entryChanged, hnone] at hne
  | fileChanged path =>
    cases hs
    exact ⟨fun p hp => h.there p (by simpa [see] using hp), fun p hp => h.seen p (by simpa [see] using hp),
      h.core, hentry⟩
  | directoryChanged path =>
    simp only [monitor] at hs
    split at hs
    · cases hs
      exact Sound.handleDirectoryChanged ⟨h.there, h.seen, h.core, h.connected⟩
    · exact nomatch hs
  | parentDirectoryChanged path =>
    simp only [monitor] at hs
    split at hs
    · cases hs
      exact h.delivered.enter s.connections
    · exact nomatch hs

theorem Covered.step (h : Covered s) (hsound : Sound coreDirs s) {e : Step} {t : State}
    (hn : Noticed s e) (hs : (monitor coreDirs).step s e = some t) : Covered t := by
  cases e with
  | mkdir path =>
    simp only [monitor] at hs
    split at hs
    · exact nomatch hs
    · cases hs
      intro c hw hc
      rcases List.mem_cons.mp hc with rfl | hc
      · -- It is back, and the notification of its return is on its way.
        right
        rcases hn hw with hp | hp
        · exact entryChanged_pending hp
        · simp [see, entryChanged, hp]
      · rcases h c hw hc with hd | hp
        · exact .inl (by simpa [see] using hd)
        · exact .inr (entryChanged_pending hp)
  | rmdir path =>
    simp only [monitor] at hs
    split at hs
    · exact nomatch hs
    · cases hs
      intro c hw hc
      obtain ⟨hc, hne⟩ := List.mem_filter.mp hc
      rcases h c hw hc with hd | hp
      · left
        simpa [see, mem_removed, hd] using hne
      · exact .inr (entryChanged_pending (removed_pending hp))
  | fileChanged path =>
    cases hs
    intro c hw hc
    rcases h c hw hc with hd | hp
    · exact .inl (by simpa [see] using hd)
    · exact .inr (entryChanged_pending hp)
  | directoryChanged path =>
    simp only [monitor] at hs
    split at hs
    · cases hs
      exact Covered.handleDirectoryChanged h
    · exact nomatch hs
  | parentDirectoryChanged path =>
    simp only [monitor] at hs
    split at hs
    · rename_i hp
      cases hs
      have hsome : s.connections ≠ 0 := hsound.connected (.inr fun he => by simp [he] at hp)
      exact (hsound.delivered.enter_resumed hsome).covered
    · exact nomatch hs

/-! ### Delivering what is pending -/

/-- Delivering the notifications of the core directories brings none of them back. -/
theorem delivered_quiet (coreDirs : List Path) (hp : s.parentDirWatcher.pending = []) :
    ∃ es u, (∀ e ∈ es, Step.delivers e = true) ∧ u ∈ s :: (monitor coreDirs).visits es s ∧ Quiet u ∧
      u.dirs = s.dirs ∧ u.watched = s.watched ∧ u.watcher.directories = s.watcher.directories := by
  induction hw : s.watcher.pending generalizing s with
  | nil => exact ⟨[], s, by simp, List.mem_cons_self, ⟨hw, hp⟩, rfl, rfl, rfl⟩
  | cons path rest ih =>
    have hmem : s.watcher.pending.contains path = true := by simp [hw]
    set t := handleDirectoryChanged path {s with watcher := s.watcher.delivered path} with ht
    have hstep : (monitor coreDirs).step s (.directoryChanged path) = some t := by
      simp only [monitor, hmem, if_true, ht]
    have hsame : t.dirs = s.dirs ∧ t.watched = s.watched ∧ t.watcher = s.watcher.delivered path ∧
        t.parentDirWatcher.pending = [] := by
      simp only [ht, handleDirectoryChanged]
      split
      · exact ⟨rfl, rfl, rfl, hp⟩
      · split
        · exact ⟨rfl, rfl, rfl, by rw [addPath_pending, hp]⟩
        · exact ⟨rfl, rfl, rfl, hp⟩
    obtain ⟨hdirs, hwatched, hwatcher, hparent⟩ := hsame
    have hrest : t.watcher.pending = rest := by
      simp [hwatcher, FileSystemWatcher.delivered, hw]
    obtain ⟨es, u, hes, hu, hquiet, hud, huw, hudirs⟩ := ih hparent hrest
    refine ⟨.directoryChanged path :: es, u, ?_, ?_, hquiet, hud.trans hdirs, huw.trans hwatched, ?_⟩
    · rw [List.forall_mem_cons]
      exact ⟨rfl, hes⟩
    · rw [Machine.visits_cons hstep]
      exact List.mem_cons_of_mem _ hu
    · rw [hudirs, hwatcher]
      rfl

/-- Once the pending notifications have been delivered, monitoring has resumed. -/
def Resumes (coreDirs : List Path) (s : State) : Prop :=
  ∀ es, (∀ e ∈ es, Step.delivers e = true) → ∀ u ∈ s :: (monitor coreDirs).visits es s,
    Quiet u → Resumed u

theorem within_of_delivers {es : List Step} (hes : ∀ e ∈ es, Step.delivers e = true) :
    (monitor coreDirs).Within Noticed es s := by
  induction es generalizing s with
  | nil => trivial
  | cons e rest ih =>
    rw [List.forall_mem_cons] at hes
    intro t _
    refine ⟨?_, ih hes.2⟩
    cases e with
    | mkdir => exact nomatch hes.1
    | rmdir => trivial
    | fileChanged => trivial
    | directoryChanged => trivial
    | parentDirectoryChanged => trivial

theorem Covered.resumes (h : Covered s) (hsound : Sound coreDirs s) : Resumes coreDirs s := by
  intro es hes u hu hquiet
  rcases List.mem_cons.mp hu with rfl | hu
  · exact h.resumed hquiet
  · have hboth := Machine.visits_invariant (I := fun s => Sound coreDirs s ∧ Covered s)
      (fun s e t h hn hs => ⟨h.1.step hs, h.2.step h.1 hn hs⟩) ⟨hsound, h⟩ (within_of_delivers hes) u hu
    exact hboth.2.resumed hquiet

/-- A directory whose return nobody notices stays unwatched. -/
theorem not_resumes_of_unnoticed (h : Sound coreDirs s) {e : Step} {t : State} (hn : ¬ Noticed s e)
    (hs : (monitor coreDirs).step s e = some t) : ¬ Resumes coreDirs t := by
  cases e with
  | rmdir => exact absurd trivial hn
  | fileChanged => exact absurd trivial hn
  | directoryChanged => exact absurd trivial hn
  | parentDirectoryChanged => exact absurd trivial hn
  | mkdir path =>
    simp only [Noticed, Classical.not_imp, not_or, not_not] at hn
    obtain ⟨hwatched, hpending, hparent⟩ := hn
    simp only [monitor] at hs
    split at hs
    · exact nomatch hs
    · rename_i hguard
      cases hs
      simp only [Bool.or_eq_true, not_or, List.contains_eq_mem, decide_eq_true_eq] at hguard
      intro hresumes
      have hquiet : (s.parentDirWatcher.entryChanged path.tail).pending = [] := by
        simp [entryChanged, hparent, hpending]
      obtain ⟨es, u, hes, hu, hq, hdirs, huw, hud⟩ := delivered_quiet coreDirs
        (s := see (.entryChanged path.tail) {s with dirs := path :: s.dirs}) hquiet
      have hback := hresumes es hes u hu hq path (huw ▸ hwatched) (hdirs ▸ List.mem_cons_self)
      rw [hud] at hback
      exact hguard.1.2 (h.there path (by simpa [see] using hback))

/-- Monitoring resumes in exactly the runs in which a notification of the parent directories
is pending whenever a core directory comes back that was watched before. -/
theorem monitoring_resumes (coreDirs dirs : List Path) (events : List Step) :
    (∀ s ∈ (monitor coreDirs).visits events (start coreDirs dirs), Resumes coreDirs s) ↔
      (monitor coreDirs).Within Noticed events (start coreDirs dirs) :=
  Machine.visits_iff_within (I := fun s => Sound coreDirs s ∧ Covered s)
    (fun _ _ _ h hn hs => ⟨⟨h.1.step hs, h.2.step h.1 hn hs⟩, (h.2.step h.1 hn hs).resumes (h.1.step hs)⟩)
    (fun _ _ _ h hn hs => not_resumes_of_unnoticed h.1 hn hs) ⟨.start dirs, covered_start dirs⟩

def mountpoint : Path := ["cache".toList, "var".toList]
def coreDumps : Path := "core-dumps".toList :: mountpoint

/-- The core directory is deleted and created again: nothing changes in /var, which is
watched then. -/
theorem never_resumed : ¬ ∀ s ∈ (monitor [coreDumps]).visits
    [.rmdir coreDumps, .directoryChanged coreDumps, .mkdir coreDumps]
    (start [coreDumps] [coreDumps, mountpoint, mountpoint.tail, []]), Quiet s → Resumed s := by
  unfold Quiet Resumed
  decide

end Sound

end ParentWatch

end CrashReporter.Monitor
