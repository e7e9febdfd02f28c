import CrashReporter.Mirror
import CrashReporter.Monitor.Registry
import CrashReporter.Ui.PendingUploads
import Mathlib.Data.Multiset.Basic

/-! When `CrashReporterAdapter` updates the reports that the settings show.

The adapter goes through the core directories once, watches those that are there, and goes
through all of them again when one that it watches has changed. Other processes write and
delete files all the time, also while it looks, and whole directories come and go. `adapter`
is the event machine of the adapter, its watcher and the file system. A listing shows the
files that are there while it is made; of those that come or go meanwhile it may show any. -/
namespace CrashReporter.Ui

namespace ReportsWatch
open Monitor

/-- `collectAllCoreFiles` on its way through the core directories. -/
structure Look where
  looked : List Text
  /-- The first of these is being listed. -/
  rest : List Text
  found : List Text
  /-- The names that have come or gone in it since its listing began. -/
  touched : List Text
  constructing : Bool
deriving DecidableEq

inductive Activity where
  | idle
  | collecting (look : Look)
  /-- The constructor adds paths to the watcher. -/
  | adding (rest : List Text)
deriving DecidableEq

structure World where
  fs : FileSystem
  adapter : Adapter
  watched : List Text
  /-- The directories of the notifications on their way. -/
  pending : List Text
  activity : Activity

inductive Event where
  /-- What other processes do, or the user in the settings. -/
  | create (path name : Text)
  | delete (path name : Text)
  | makeDirectory (path : Text)
  | removeDirectory (path : Text)
  /-- The watcher makes one of two notifications of a directory. -/
  | merged (path : Text)
  /-- The names that the listing of a directory shows. -/
  | listed (names : List Text)
  /-- All are found; the files that are inserted were created then. -/
  | collected (created : Nat → Int)
  | addPath
  | directoryChanged (path : Text)

/-- The reports among the files of a directory. -/
def reportsIn (directory : Text) (names : List Text) : List Text :=
  CoreDir.collectAllCoreFilesAtLocation ⟨directory, names, []⟩

section Machine
variable (strsignal : Int → Text) (directories : List Text)

/-- `collectAllCoreFiles`, while nothing changes. -/
def collectAllCoreFiles (fs : FileSystem) : List Text := directories.flatMap fun d => reportsIn d (fs.files d)

/-- The names that are in one of two lists only. -/
def changedNames (old new : List Text) : List Text :=
  (old ++ new).filter fun name => old.contains name != new.contains name

def Look.change (path : Text) (names : List Text) (look : Look) : Look :=
  if look.rest.head? = some path then {look with touched := look.touched ++ names} else look

/-- A directory changes: a watcher of it is notified. -/
def World.change (path : Text) (names : Option (List Text)) (w : World) : World :=
  {w with
    fs := Function.update w.fs path names
    pending := if w.watched.contains path then path :: w.pending else w.pending
    activity := match w.activity with
      | .collecting look => .collecting (look.change path (changedNames (w.fs.files path) (names.getD [])))
      | activity => activity}

/-- The first directory has been listed. Of the files that were there all the time, none is
missed, and no others are shown but those that have come or gone. -/
def Look.listed (fs : FileSystem) (names : List Text) (look : Look) : Option Look :=
  match look.rest with
  | [] => none
  | d :: rest =>
    let still (names : List Text) := names.filter fun name => !look.touched.contains name
    if (still names).isPerm (still (fs.files d)) then
      some {look with
        looked := look.looked ++ [d]
        rest := rest
        found := look.found ++ reportsIn d names
        touched := []}
    else none

def adapter : Machine World Event where
  step w
    | .create path name =>
      match w.fs path with
      | none => none
      | some names => if names.contains name then none else some (w.change path (some (name :: names)))
    | .delete path name =>
      match w.fs path with
      | none => none
      | some names => if !names.contains name then none else some (w.change path (some (names.filter (· ≠ name))))
    | .makeDirectory path => if (w.fs path).isSome then none else some (w.change path (some []))
    | .removeDirectory path =>
      if (w.fs path).isNone then none
      else
        -- A directory that is gone is not watched any more.
        let w := w.change path none
        some {w with watched := w.watched.filter (· ≠ path)}
    | .merged path => if 2 ≤ w.pending.count path then some {w with pending := w.pending.erase path} else none
    | .listed names =>
      match w.activity with
      | .collecting look => (look.listed w.fs names).map fun look => {w with activity := .collecting look}
      | _ => none
    | .collected created =>
      match w.activity with
      | .collecting look =>
        if look.rest.isEmpty then
          some {w with
            adapter := w.adapter.updateCoreDirectoryModels strsignal ⟨look.found, created⟩
            activity := if look.constructing then .adding (directories.filter fun d => (w.fs d).isSome) else .idle}
        else none
      | _ => none
    | .addPath =>
      match w.activity with
      | .adding [] => some {w with activity := .idle}
      | .adding (path :: rest) => some {w with
          watched := if (w.fs path).isSome && !w.watched.contains path then path :: w.watched else w.watched
          activity := .adding rest}
      | _ => none
    | .directoryChanged path =>
      if w.activity = .idle ∧ w.pending.contains path then
        some {w with pending := w.pending.erase path, activity := .collecting ⟨[], directories, [], [], false⟩}
      else none

/-- The constructor has been called. -/
def start (fs : FileSystem) : World := ⟨fs, ⟨0, [], []⟩, [], [], .collecting ⟨[], directories, [], [], true⟩⟩

end Machine

/-! ### What the settings show -/

section Shown
variable (directories : List Text)

/-- The reports that are there. -/
def World.reports (w : World) : Multiset Text := collectAllCoreFiles directories w.fs

/-- Those that are shown, or are going to be when the look under way has ended and nothing
changes until then. -/
def World.seen (w : World) : Multiset Text :=
  match w.activity with
  | .collecting look => (look.found ++ collectAllCoreFiles look.rest w.fs : List Text)
  | .idle | .adding _ => (w.adapter.pendingUploadsModel.map (·.filePath) : List Text)

def reportsShown : Mirror World (Multiset Text) where
  live := World.reports directories
  copy := World.seen
  due w := w.pending ≠ []

/-- An update is under way, or is going to be. -/
def World.Due (w : World) : Prop := w.pending ≠ [] ∨ ∃ look, w.activity = .collecting look

/-- The look under way has not gone through this directory yet. -/
def World.Ahead (path : Text) (w : World) : Prop := ∃ look, w.activity = .collecting look ∧ path ∉ look.looked

/-- A directory that changes to these names is noticed: a notification is on its way anyway or
comes now, the look under way has not gone through it yet, or the reports stay the same. -/
def World.Notices (path : Text) (names : Option (List Text)) (w : World) : Prop :=
  w.pending ≠ [] ∨ path ∈ w.watched ∨ w.Ahead path ∨
    (w.change path names).reports directories = w.reports directories

/-- Every change is noticed; and of the reports that come or go while their directory is being
listed, those are found that are there in the end, or a notification is on its way. -/
def Noticed (w : World) : Event → Prop
  | .create path name => ∀ names, w.fs path = some names → w.Notices directories path (some (name :: names))
  | .delete path name => ∀ names, w.fs path = some names → w.Notices directories path (some (names.filter (· ≠ name)))
  | .removeDirectory path => w.Notices directories path none
  | .listed names => w.pending ≠ [] ∨ ∀ look d rest, w.activity = .collecting look → look.rest = d :: rest →
      (reportsIn d (names.filter look.touched.contains)).Perm
        (reportsIn d ((w.fs.files d).filter look.touched.contains))
  | .makeDirectory _ | .merged _ | .collected _ | .addPath | .directoryChanged _ => True

/-- The rows and the number of reports are those of the files that are there. -/
structure World.Shows (w : World) : Prop where
  files : (w.adapter.pendingUploadsModel.map (·.filePath)).Perm (collectAllCoreFiles directories w.fs)
  reportsToUpload : w.adapter.reportsToUpload = (collectAllCoreFiles directories w.fs).length

/-- The reports that are there are shown, or have been found or are still to be found. -/
def World.Finds (w : World) : Prop :=
  match w.activity with
  | .collecting look =>
    (look.found ++ collectAllCoreFiles look.rest w.fs).Perm (collectAllCoreFiles directories w.fs)
  | .idle | .adding _ => w.Shows directories

structure Sound (w : World) : Prop where
  sorted : Sorted w.adapter.pendingUploadsModel
  counted : w.adapter.reportsToUpload = w.adapter.pendingUploadsModel.length
  through : ∀ look, w.activity = .collecting look → look.looked ++ look.rest = directories
  followed : (reportsShown directories).Followed w

end Shown

section Lists
variable {directories : List Text} {fs : FileSystem} {path : Text} {names : Option (List Text)}

theorem reportsIn_eq (directory : Text) (names : List Text) :
    reportsIn directory names = (names.filter Monitor.listed).map (filePathIn directory) := CoreDir.collect_eq

/-- Of each report, a changed directory has as many more as it is gone through. -/
theorem count_update (directories : List Text) (fs : FileSystem) (path : Text) (names : Option (List Text)) (r : Text) :
    (collectAllCoreFiles directories (Function.update fs path names)).count r +
        directories.count path * (reportsIn path (fs.files path)).count r =
      (collectAllCoreFiles directories fs).count r +
        directories.count path * (reportsIn path (names.getD [])).count r := by
  induction directories with
  | nil => simp [collectAllCoreFiles]
  | cons d rest ih =>
    simp only [collectAllCoreFiles, List.flatMap_cons, List.count_append, Registry.files_update] at ih ⊢
    by_cases hd : d = path
    · subst hd
      rw [if_pos rfl, List.count_cons_self, Nat.add_mul, Nat.add_mul]
      omega
    · rw [if_neg hd, List.count_cons_of_ne hd]
      omega

theorem update_of_not_mem (h : path ∉ directories) :
    (collectAllCoreFiles directories (Function.update fs path names)).Perm (collectAllCoreFiles directories fs) := by
  refine List.perm_iff_count.mpr fun r => ?_
  have hcount := count_update directories fs path names r
  rwa [List.count_eq_zero_of_not_mem h, Nat.zero_mul, Nat.zero_mul, Nat.add_zero, Nat.add_zero] at hcount

/-- The reports stay the same when those of the directory do, and only then. -/
theorem update_perm_iff (h : path ∈ directories) :
    (collectAllCoreFiles directories (Function.update fs path names)).Perm (collectAllCoreFiles directories fs) ↔
      (reportsIn path (names.getD [])).Perm (reportsIn path (fs.files path)) := by
  have hpos : 0 < directories.count path := List.count_pos_iff.mpr h
  rw [List.perm_iff_count, List.perm_iff_count]
  refine forall_congr' fun r => ?_
  have hcount := count_update directories fs path names r
  constructor
  · intro heq
    rw [heq] at hcount
    exact (Nat.eq_of_mul_eq_mul_left hpos (Nat.add_left_cancel hcount)).symm
  · intro heq
    rw [heq] at hcount
    exact Nat.add_right_cancel hcount

/-- When all reports stay the same, those of some of the directories do. -/
theorem update_perm_of_subset {some : List Text}
    (h : (collectAllCoreFiles directories (Function.update fs path names)).Perm
      (collectAllCoreFiles directories fs)) (hs : some ⊆ directories) :
    (collectAllCoreFiles some (Function.update fs path names)).Perm (collectAllCoreFiles some fs) := by
  by_cases hp : path ∈ some
  · exact (update_perm_iff hp).mpr ((update_perm_iff (hs hp)).mp h)
  · exact update_of_not_mem hp

theorem collect_append (looked rest : List Text) :
    collectAllCoreFiles (looked ++ rest) fs = collectAllCoreFiles looked fs ++ collectAllCoreFiles rest fs :=
  List.flatMap_append

/-- Names split as those that have been touched and the others. -/
theorem reportsIn_filter (directory : Text) (p : Text → Bool) (names : List Text) :
    (reportsIn directory names).Perm
      (reportsIn directory (names.filter p) ++ reportsIn directory (names.filter fun name => !p name)) := by
  simp only [reportsIn_eq, ← List.map_append, ← List.filter_append]
  exact ((List.filter_append_perm p names).symm.filter _).map _

end Lists

section Steps
variable {strsignal : Int → Text} {directories : List Text} {w t : World} {e : Event} {path : Text}
  {names : Option (List Text)}

theorem change_pending (h : w.pending ≠ [] ∨ path ∈ w.watched) : (w.change path names).pending ≠ [] := by
  by_cases hw : path ∈ w.watched
  · simp [World.change, hw]
  · simpa [World.change, hw] using h.resolve_right hw

theorem change_not_pending (hp : w.pending = []) (hw : path ∉ w.watched) : (w.change path names).pending = [] := by
  simpa [World.change, hw] using hp

theorem Look.change_same (path : Text) (names : List Text) (look : Look) : ∃ touched,
    look.change path names = {look with touched := touched} := by
  unfold Look.change
  split
  · exact ⟨_, rfl⟩
  · exact ⟨look.touched, rfl⟩

/-- A look goes on. -/
theorem change_collecting {look : Look} (h : w.activity = .collecting look) (path : Text)
    (names : Option (List Text)) : ∃ touched,
      (w.change path names).activity = .collecting {look with touched := touched} := by
  obtain ⟨touched, heq⟩ := Look.change_same path (changedNames (w.fs.files path) (names.getD [])) look
  exact ⟨touched, by simp only [World.change, h, heq]⟩

theorem change_activity (h : ∀ look, w.activity ≠ .collecting look) :
    (w.change path names).activity = w.activity := by
  cases hact : w.activity with
  | collecting look => exact absurd hact (h look)
  | _ => simp [World.change, hact]

theorem change_through (h : ∀ look, w.activity = .collecting look → look.looked ++ look.rest = directories) :
    ∀ look, (w.change path names).activity = .collecting look → look.looked ++ look.rest = directories := by
  intro look hlook
  cases hact : w.activity with
  | collecting look' =>
    obtain ⟨touched, heq⟩ := change_collecting hact path names
    cases heq.symm.trans hlook
    exact h look' hact
  | _ =>
    rw [change_activity (by simp [hact]), hact] at hlook
    cases hlook

/-- What is seen of a change. -/
theorem change_seen {look : Look} (h : w.activity = .collecting look) : (w.change path names).seen =
    (look.found ++ collectAllCoreFiles look.rest (Function.update w.fs path names) : List Text) := by
  obtain ⟨touched, heq⟩ := change_collecting h path names
  simp only [World.seen, heq]
  rfl

theorem change_seen_still (h : ∀ look, w.activity ≠ .collecting look) (path : Text) (names : Option (List Text)) :
    (w.change path names).seen = w.seen := by
  cases hact : w.activity with
  | collecting look => exact absurd hact (h look)
  | _ => simp only [World.seen, change_activity h, hact]; rfl

/-- What a look has found is what was there, when it sees what is there. -/
theorem found_perm {look : Look} (hthrough : look.looked ++ look.rest = directories)
    (hact : w.activity = .collecting look) (hs : w.seen = w.reports directories) :
    look.found.Perm (collectAllCoreFiles look.looked w.fs) := by
  have hperm : (look.found ++ collectAllCoreFiles look.rest w.fs).Perm (collectAllCoreFiles directories w.fs) := by
    simp only [World.seen, hact] at hs
    exact Multiset.coe_eq_coe.mp hs
  rw [← hthrough, collect_append] at hperm
  exact (List.perm_append_right_iff _).mp hperm

/-- A change that is noticed. -/
theorem change_followed (h : Sound directories w) (hn : w.Notices directories path names) :
    (reportsShown directories).Followed (w.change path names) := by
  by_cases hdue : w.pending ≠ [] ∨ path ∈ w.watched
  · exact .inl (change_pending hdue)
  · obtain ⟨hp, hw⟩ := not_or.mp hdue
    have hs : w.seen = w.reports directories := h.followed.resolve_left hp
    rcases (hn.resolve_left hp).resolve_left hw with ⟨look, hact, hahead⟩ | hsame
    · -- What has been found stays, and the rest is still to be found.
      have hthrough := h.through look hact
      have hfound := found_perm hthrough hact hs
      have hlooked : (collectAllCoreFiles look.looked (Function.update w.fs path names)).Perm
          (collectAllCoreFiles look.looked w.fs) := update_of_not_mem hahead
      refine .inr ((change_seen hact).trans (Multiset.coe_eq_coe.mpr ?_))
      show List.Perm _ (collectAllCoreFiles directories (Function.update w.fs path names))
      rw [← hthrough, collect_append]
      exact (hfound.trans hlooked.symm).append_right _
    · refine .inr ?_
      have hseen : (w.change path names).seen = w.seen := by
        by_cases hact : ∃ look, w.activity = .collecting look
        · obtain ⟨look, hact⟩ := hact
          have hrest : look.rest ⊆ directories := by
            rw [← h.through look hact]
            exact List.subset_append_right _ _
          have hperm := update_perm_of_subset (Multiset.coe_eq_coe.mp hsame) hrest
          rw [change_seen hact]
          simp only [World.seen, hact]
          exact Multiset.coe_eq_coe.mpr (hperm.append_left _)
        · exact change_seen_still (not_exists.mp hact) path names
      exact hseen.trans (hs.trans hsame.symm)

/-- A change that is not. -/
theorem change_lost (h : Sound directories w) (hn : ¬w.Notices directories path names) :
    ¬(reportsShown directories).Followed (w.change path names) := by
  obtain ⟨hp, hn⟩ := not_or.mp hn
  obtain ⟨hw, hn⟩ := not_or.mp hn
  obtain ⟨hahead, hreports⟩ := not_or.mp hn
  have hs : w.seen = w.reports directories := h.followed.resolve_left hp
  rintro (hdue | hsame)
  · exact hdue (change_not_pending (not_not.mp hp) hw)
  · refine hreports (Multiset.coe_eq_coe.mpr ?_)
    by_cases hact : ∃ look, w.activity = .collecting look
    · obtain ⟨look, hact⟩ := hact
      have hthrough := h.through look hact
      have hlooked : path ∈ look.looked := by
        by_contra hpath
        exact hahead ⟨look, hact, hpath⟩
      have hfound := found_perm hthrough hact hs
      have hfound' : look.found.Perm (collectAllCoreFiles look.looked (Function.update w.fs path names)) := by
        have hperm := Multiset.coe_eq_coe.mp ((change_seen hact).symm.trans hsame)
        rw [show collectAllCoreFiles directories (w.change path names).fs =
          collectAllCoreFiles directories (Function.update w.fs path names) from rfl, ← hthrough,
          collect_append] at hperm
        exact (List.perm_append_right_iff _).mp hperm
      have hmem : path ∈ directories := by
        rw [← hthrough]
        exact List.mem_append_left _ hlooked
      exact (update_perm_iff hmem).mpr ((update_perm_iff hlooked).mp (hfound'.symm.trans hfound))
    · have hstill := change_seen_still (not_exists.mp hact) path names
      exact Multiset.coe_eq_coe.mp (hsame.symm.trans (hstill.trans hs))

theorem World.Finds.seen (h : w.Finds directories) : w.seen = w.reports directories := by
  cases hact : w.activity with
  | collecting look =>
    simp only [World.Finds, World.seen, hact] at h ⊢
    exact Multiset.coe_eq_coe.mpr h
  | idle | adding rest =>
    simp only [World.Finds, World.seen, hact] at h ⊢
    exact Multiset.coe_eq_coe.mpr h.files

theorem Sound.finds (h : Sound directories w) (hs : w.seen = w.reports directories) : w.Finds directories := by
  cases hact : w.activity with
  | collecting look =>
    simp only [World.Finds, World.seen, hact] at hs ⊢
    exact Multiset.coe_eq_coe.mp hs
  | idle | adding rest =>
    simp only [World.Finds, World.seen, hact] at hs ⊢
    have hperm := Multiset.coe_eq_coe.mp hs
    exact ⟨hperm, h.counted.trans (by simpa using hperm.length_eq)⟩

theorem Sound.shows (h : Sound directories w) : w.Due ∨ w.Shows directories := by
  cases hact : w.activity with
  | collecting look => exact .inl (.inr ⟨look, hact⟩)
  | idle | adding rest =>
    refine h.followed.imp .inl fun hseen => ?_
    have hfinds := h.finds hseen
    simpa only [World.Finds, hact] using hfinds

/-- One of two notifications is left. -/
theorem merged_pending (h : 2 ≤ w.pending.count path) : w.pending.erase path ≠ [] := by
  have hmem : path ∈ w.pending.erase path := by
    rw [← List.count_pos_iff, List.count_erase_self]
    omega
  exact List.ne_nil_of_mem hmem

/-- A listing, with what has been touched and what has not. -/
theorem listed_perm {look look' : Look} {names : List Text} (h : look.listed w.fs names = some look') :
    ∃ d rest, look.rest = d :: rest ∧
      look' = {look with looked := look.looked ++ [d], rest := rest, found := look.found ++ reportsIn d names,
                         touched := []} ∧
      ((reportsIn d (names.filter look.touched.contains)).Perm
        (reportsIn d ((w.fs.files d).filter look.touched.contains)) ↔
          (reportsIn d names).Perm (reportsIn d (w.fs.files d))) := by
  unfold Look.listed at h
  split at h
  · cases h
  · rename_i d rest hrest
    dsimp only at h
    split at h
    · rename_i hstill
      cases h
      refine ⟨d, rest, hrest, rfl, ?_⟩
      have hothers : (reportsIn d (names.filter fun name => !look.touched.contains name)).Perm
          (reportsIn d ((w.fs.files d).filter fun name => !look.touched.contains name)) := by
        rw [reportsIn_eq, reportsIn_eq]
        exact ((List.isPerm_iff.mp hstill).filter _).map _
      rw [(reportsIn_filter d look.touched.contains names).congr_left,
        (reportsIn_filter d look.touched.contains (w.fs.files d)).congr_right]
      refine ⟨fun hperm => hperm.append hothers, fun hperm => ?_⟩
      exact (List.perm_append_right_iff _).mp (hperm.trans (hothers.symm.append_left _))
    · cases h

/-- What an event can do. -/
inductive Moves (strsignal : Int → Text) (directories : List Text) (w : World) : Event → World → Prop where
  | created {path name : Text} {names : List Text} (h : w.fs path = some names) :
    Moves strsignal directories w (.create path name) (w.change path (some (name :: names)))
  | deleted {path name : Text} {names : List Text} (h : w.fs path = some names) :
    Moves strsignal directories w (.delete path name) (w.change path (some (names.filter (· ≠ name))))
  | made {path : Text} (h : w.fs path = none) :
    Moves strsignal directories w (.makeDirectory path) (w.change path (some []))
  | removed (path : Text) :
    Moves strsignal directories w (.removeDirectory path)
      {w.change path none with watched := (w.change path none).watched.filter (· ≠ path)}
  | merged {path : Text} (h : 2 ≤ w.pending.count path) :
    Moves strsignal directories w (.merged path) {w with pending := w.pending.erase path}
  | listed {names : List Text} {look look' : Look} (h : w.activity = .collecting look)
    (hl : look.listed w.fs names = some look') :
    Moves strsignal directories w (.listed names) {w with activity := .collecting look'}
  | collected {look : Look} (created : Nat → Int) (h : w.activity = .collecting look) (hr : look.rest = []) :
    Moves strsignal directories w (.collected created) {w with
      adapter := w.adapter.updateCoreDirectoryModels strsignal ⟨look.found, created⟩
      activity := if look.constructing then .adding (directories.filter fun d => (w.fs d).isSome) else .idle}
  | added {rest : List Text} (h : w.activity = .adding rest) (watched : List Text) (activity : Activity)
    (ha : activity = .idle ∨ ∃ rest, activity = .adding rest) :
    Moves strsignal directories w .addPath {w with watched := watched, activity := activity}
  | told {path : Text} (h : w.activity = .idle) (pending : List Text) :
    Moves strsignal directories w (.directoryChanged path)
      {w with pending := pending, activity := .collecting ⟨[], directories, [], [], false⟩}

theorem step_moves (hs : (adapter strsignal directories).step w e = some t) : Moves strsignal directories w e t := by
  cases e with
  | create path name =>
    simp only [adapter] at hs
    split at hs
    · cases hs
    · rename_i names h
      split at hs
      · cases hs
      · obtain rfl := Option.some.inj hs
        exact .created h
  | delete path name =>
    simp only [adapter] at hs
    split at hs
    · cases hs
    · rename_i names h
      split at hs
      · cases hs
      · obtain rfl := Option.some.inj hs
        exact .deleted h
  | makeDirectory path =>
    simp only [adapter] at hs
    split at hs
    · cases hs
    · rename_i h
      obtain rfl := Option.some.inj hs
      exact .made (by simpa using h)
  | removeDirectory path =>
    simp only [adapter] at hs
    split at hs
    · cases hs
    · obtain rfl := Option.some.inj hs
      exact .removed path
  | merged path =>
    obtain ⟨h, heq⟩ := Option.ite_none_right_eq_some.mp hs
    obtain rfl := Option.some.inj heq
    exact .merged h
  | listed names =>
    simp only [adapter] at hs
    split at hs
    · rename_i look h
      obtain ⟨look', hl, rfl⟩ := Option.map_eq_some_iff.mp hs
      exact .listed h hl
    · cases hs
  | collected created =>
    simp only [adapter] at hs
    split at hs
    · rename_i look h
      obtain ⟨hrest, heq⟩ := Option.ite_none_right_eq_some.mp hs
      obtain rfl := Option.some.inj heq
      exact .collected created h (List.isEmpty_iff.mp hrest)
    · cases hs
  | addPath =>
    simp only [adapter] at hs
    split at hs
    · rename_i h
      obtain rfl := Option.some.inj hs
      exact .added h _ _ (.inl rfl)
    · rename_i h
      obtain rfl := Option.some.inj hs
      exact .added h _ _ (.inr ⟨_, rfl⟩)
    · cases hs
  | directoryChanged path =>
    simp only [adapter] at hs
    split at hs
    · rename_i h
      obtain rfl := Option.some.inj hs
      exact .told h.1 _
    · cases hs

/-- A new directory has no files. -/
theorem change_made (h : w.fs path = none) :
    (w.change path (some [])).reports directories = w.reports directories := by
  have hfiles (d : Text) : FileSystem.files (Function.update w.fs path (some [])) d = w.fs.files d := by
    rw [Registry.files_update]
    split
    · rename_i hd
      simp [hd, FileSystem.files, h]
    · rfl
  simp only [World.reports, World.change, collectAllCoreFiles, hfiles]

/-- The reports of a directory that is listed now. -/
theorem seen_listed {names : List Text} {look look' : Look} (hact : w.activity = .collecting look)
    (hl : look.listed w.fs names = some look') (h : Sound directories w) (hs : w.seen = w.reports directories) :
    World.seen {w with activity := .collecting look'} = w.reports directories ↔ ∃ d rest, look.rest = d :: rest ∧
      (reportsIn d names).Perm (reportsIn d (w.fs.files d)) := by
  obtain ⟨d, rest, hrest, rfl, -⟩ := listed_perm hl
  have hthrough := h.through look hact
  have hfound := found_perm hthrough hact hs
  have hdirectories : (collectAllCoreFiles directories w.fs).Perm
      (look.found ++ (reportsIn d (w.fs.files d) ++ collectAllCoreFiles rest w.fs)) := by
    rw [← hthrough, hrest, collect_append]
    exact hfound.symm.append_right _
  have hseen : World.seen {w with activity := .collecting {look with
      looked := look.looked ++ [d], rest := rest, found := look.found ++ reportsIn d names, touched := []}} =
        ((look.found ++ (reportsIn d names ++ collectAllCoreFiles rest w.fs) : List Text) : Multiset Text) :=
    congrArg Multiset.ofList (List.append_assoc ..)
  rw [hseen]
  constructor
  · intro heq
    have hperm := (Multiset.coe_eq_coe.mp heq).trans hdirectories
    exact ⟨d, rest, hrest, (List.perm_append_right_iff _).mp ((List.perm_append_left_iff _).mp hperm)⟩
  · rintro ⟨d', rest', hrest', hperm⟩
    cases hrest.symm.trans hrest'
    exact Multiset.coe_eq_coe.mpr (((hperm.append_right _).append_left _).trans hdirectories.symm)

/-- A change of a directory. -/
theorem Sound.changed (h : Sound directories w) (hn : w.Notices directories path names) :
    Sound directories (w.change path names) :=
  ⟨h.sorted, h.counted, change_through h.through, change_followed h hn⟩

theorem Sound.step (h : Sound directories w) (hg : Noticed directories w e)
    (hs : (adapter strsignal directories).step w e = some t) : Sound directories t := by
  cases step_moves hs with
  | created hp => exact h.changed (hg _ hp)
  | deleted hp => exact h.changed (hg _ hp)
  | made hp => exact h.changed (.inr (.inr (.inr (change_made hp))))
  | removed path =>
    have ht := h.changed hg
    exact ⟨ht.sorted, ht.counted, ht.through, ht.followed⟩
  | merged hp => exact ⟨h.sorted, h.counted, h.through, .inl (merged_pending hp)⟩
  | @listed names look look' hact hl =>
    obtain ⟨d, rest, hrest, rfl, htouched⟩ := listed_perm hl
    refine ⟨h.sorted, h.counted, fun look' hlook => ?_, ?_⟩
    · cases hlook
      have hthrough := h.through look hact
      rw [hrest] at hthrough
      simpa using hthrough
    · rcases hg with hp | hfound
      · exact .inl hp
      · rcases h.followed with hp | hseen
        · exact .inl hp
        · exact .inr ((seen_listed hact hl h hseen).mpr ⟨d, rest, hrest, htouched.mp (hfound look d rest hact hrest)⟩)
  | @collected look created hact hrest =>
    have hf := Adapter.update_follows strsignal ⟨look.found, created⟩ h.sorted
    refine ⟨hf.sorted, hf.reportsToUpload, fun look' hlook => ?_, h.followed.imp id fun hseen => ?_⟩
    · dsimp only at hlook
      split at hlook <;> cases hlook
    · -- What has been found is shown now.
      have hrows : (look.found : Multiset Text) = w.seen := by
        simp only [World.seen, hact, hrest]
        exact congrArg _ (List.append_nil _).symm
      have hfiles := Multiset.coe_eq_coe.mpr hf.files
      have hshown : w.reports directories = _ := (hfiles.trans (hrows.trans hseen)).symm
      show World.seen _ = w.reports directories
      rw [hshown]
      cases look.constructing <;> rfl
  | @added rest hact watched activity ha =>
    have hseen : World.seen {w with watched := watched, activity := activity} = w.seen := by
      obtain rfl | ⟨rest', rfl⟩ := ha <;> simp only [World.seen, hact]
    refine ⟨h.sorted, h.counted, fun look hlook => ?_, h.followed.imp id hseen.trans⟩
    obtain rfl | ⟨rest', rfl⟩ := ha <;> cases hlook
  | told hact pending =>
    refine ⟨h.sorted, h.counted, fun look hlook => ?_, .inr rfl⟩
    cases hlook
    rfl

/-- An unnoticed change leaves the settings with other reports, and no update is due. -/
theorem Sound.unnoticed (h : Sound directories w) (hg : ¬Noticed directories w e)
    (hs : (adapter strsignal directories).step w e = some t) : ¬(reportsShown directories).Followed t := by
  cases step_moves hs with
  | created hp =>
    refine change_lost h fun hn => hg fun names hnames => ?_
    cases hp.symm.trans hnames
    exact hn
  | deleted hp =>
    refine change_lost h fun hn => hg fun names hnames => ?_
    cases hp.symm.trans hnames
    exact hn
  | removed path => exact change_lost h hg
  | @listed names look look' hact hl =>
    obtain ⟨hp, hfound⟩ := not_or.mp hg
    obtain ⟨d, rest, hrest, -, htouched⟩ := listed_perm hl
    have hseen := h.followed.resolve_left hp
    rintro (hdue | hsame)
    · exact hp hdue
    · obtain ⟨d', rest', hrest', hperm⟩ := (seen_listed hact hl h hseen).mp hsame
      cases hrest.symm.trans hrest'
      refine hfound fun look₁ d₁ rest₁ hact₁ hrest₁ => ?_
      cases hact.symm.trans hact₁
      cases hrest.symm.trans hrest₁
      exact htouched.mpr hperm
  | made | merged | collected | added | told => exact absurd trivial hg

end Steps

/-! ### Every run -/

section Runs
variable (strsignal : Int → Text) (directories : List Text) (fs : FileSystem) (es : List Event)

theorem sound_start : Sound directories (start directories fs) where
  sorted := .nil
  counted := rfl
  through look hlook := by
    cases hlook
    rfl
  followed := .inr rfl

/-- Whenever no notification is on its way, the settings show the reports that are there, or a
look under way has found them or is still to find them, exactly in the runs in which every
change is noticed. -/
theorem reports_shown_iff_noticed :
    (∀ w ∈ (adapter strsignal directories).visits es (start directories fs), w.pending ≠ [] ∨ w.Finds directories) ↔
      (adapter strsignal directories).Within (Noticed directories) es (start directories fs) := by
  refine Machine.visits_iff_within (I := Sound directories) (fun w e t h hg hs => ?_)
    (fun w e t h hg hs hfinds => ?_) (sound_start directories fs)
  · have ht := h.step hg hs
    exact ⟨ht, ht.followed.imp_right ht.finds⟩
  · exact h.unnoticed hg hs (hfinds.imp_right World.Finds.seen)

/-- Reports come and go in directories that are watched. -/
def InWatched (w : World) : Event → Prop
  | .create path name => path ∈ w.watched ∨ ∀ names, w.fs path = some names →
      (w.change path (some (name :: names))).reports directories = w.reports directories
  | .delete path name => path ∈ w.watched ∨ ∀ names, w.fs path = some names →
      (w.change path (some (names.filter (· ≠ name)))).reports directories = w.reports directories
  | .removeDirectory path => path ∈ w.watched ∨ (w.change path none).reports directories = w.reports directories
  | _ => True

variable {strsignal directories fs es}

/-- What comes or goes in a watched directory while it is being listed leads to another update. -/
def Told (w : World) : Prop := ∀ look, w.activity = .collecting look →
  w.pending ≠ [] ∨ ∀ name ∈ look.touched, Monitor.listed name = false

/-- When the reports stay the same, no report has come or gone. -/
theorem unlisted_of_same {w : World} {path name : Text} {names : Option (List Text)} (hp : path ∈ directories)
    (h : (w.change path names).reports directories = w.reports directories)
    (hn : name ∈ changedNames (w.fs.files path) (names.getD [])) : Monitor.listed name = false := by
  by_contra hl
  have hlisted : Monitor.listed name = true := by simpa using hl
  have hmem (l : List Text) : filePathIn path name ∈ reportsIn path l ↔ name ∈ l := by
    simp [reportsIn_eq, filePathIn_inj, hlisted]
  have hperm := (update_perm_iff hp).mp (Multiset.coe_eq_coe.mp h)
  have hsame : name ∈ names.getD [] ↔ name ∈ w.fs.files path :=
    (hmem _).symm.trans (hperm.mem_iff.trans (hmem _))
  have hdiffers := (List.mem_filter.mp hn).2
  simp [hsame] at hdiffers

theorem Told.change {w : World} {path : Text} {names : Option (List Text)} (h : Told w)
    (hthrough : ∀ look, w.activity = .collecting look → look.looked ++ look.rest = directories)
    (hg : path ∈ w.watched ∨ (w.change path names).reports directories = w.reports directories) :
    Told (w.change path names) := by
  intro look hlook
  obtain hw | hsame := hg
  · exact .inl (change_pending (.inr hw))
  · cases hact : w.activity with
    | collecting look' =>
      simp only [World.change, hact, Activity.collecting.injEq] at hlook
      subst hlook
      refine (h look' hact).imp (fun hp => change_pending (.inl hp)) fun htouched name hn => ?_
      unfold Look.change at hn
      split at hn
      · rename_i hhead
        have hpath : path ∈ directories := by
          rw [← hthrough look' hact]
          exact List.mem_append_right _ (List.mem_of_head? hhead)
        exact (List.mem_append.mp hn).elim (htouched name) (unlisted_of_same hpath hsame)
      · exact htouched name hn
    | _ => simp [World.change, hact] at hlook

theorem Told.noticed {w t : World} {e : Event} (h : Told w) (hs : Sound directories w) (hg : InWatched directories w e)
    (hstep : (adapter strsignal directories).step w e = some t) : Noticed directories w e ∧ Told t := by
  cases step_moves hstep with
  | created hp =>
    refine ⟨fun names hnames => .inr (hg.imp_right fun hsame => .inr (hsame names hnames)), h.change hs.through ?_⟩
    exact hg.imp_right fun hsame => hsame _ hp
  | deleted hp =>
    refine ⟨fun names hnames => .inr (hg.imp_right fun hsame => .inr (hsame names hnames)), h.change hs.through ?_⟩
    exact hg.imp_right fun hsame => hsame _ hp
  | made hp => exact ⟨trivial, h.change hs.through (.inr (change_made hp))⟩
  | removed path =>
    have ht := h.change hs.through hg
    exact ⟨.inr (hg.imp_right .inr), fun look hlook => ht look hlook⟩
  | merged hp => exact ⟨trivial, fun look hlook => .inl (merged_pending hp)⟩
  | @listed names look look' hact hl =>
    obtain ⟨d, rest, hrest, rfl, -⟩ := listed_perm hl
    refine ⟨(h look hact).imp_right fun htouched => ?_, fun look' hlook => .inr fun name hn => ?_⟩
    · intro look₁ d₁ rest₁ hact₁ _
      cases hact.symm.trans hact₁
      have hnone (l : List Text) : (l.filter look.touched.contains).filter Monitor.listed = [] := by
        refine List.filter_eq_nil_iff.mpr fun name hn => ?_
        have hn := (List.mem_filter.mp hn).2
        simp [htouched name (by simpa using hn)]
      rw [reportsIn_eq, reportsIn_eq, hnone, hnone]
    · cases hlook
      cases hn
  | @collected look =>
    refine ⟨trivial, fun look' hlook => ?_⟩
    dsimp only at hlook
    split at hlook <;> cases hlook
  | added hact watched activity ha =>
    refine ⟨trivial, fun look hlook => ?_⟩
    obtain rfl | ⟨rest', rfl⟩ := ha <;> cases hlook
  | told =>
    refine ⟨trivial, fun look hlook => .inr ?_⟩
    cases hlook
    exact fun name hn => by cases hn

/-- As long as reports come and go in watched directories, also while the adapter looks, the
settings show those that are there whenever no update is due. -/
theorem reports_shown_of_watched
    (hw : (adapter strsignal directories).Within (InWatched directories) es (start directories fs)) :
    ∀ w ∈ (adapter strsignal directories).visits es (start directories fs), w.Due ∨ w.Shows directories := by
  intro w hv
  have htold : Told (start directories fs) := fun look hlook => .inr fun name hn => by
    cases hlook
    cases hn
  refine (Machine.visits_invariant (I := fun w => Sound directories w ∧ Told w) (fun w e t h hg hs => ?_)
    ⟨sound_start directories fs, htold⟩ hw w hv).1.shows
  obtain ⟨hnoticed, ht⟩ := h.2.noticed h.1 hg hs
  exact ⟨h.1.step hnoticed hs, ht⟩

def corePath : Text := "/var/cache/core-dumps".toList

/-- A report is written after the constructor, and another one while the adapter looks. -/
def written : List Event :=
  [.listed [], .collected fun _ => 0, .addPath, .addPath, .create corePath "a.rcore".toList,
    .directoryChanged corePath, .create corePath "b.rcore".toList, .listed ["a.rcore".toList],
    .collected fun _ => 1, .directoryChanged corePath, .listed (["b.rcore", "a.rcore"].map String.toList),
    .collected fun _ => 2]

theorem written_ne : (adapter (fun _ => []) [corePath]).visits written (start [corePath] fun _ => some []) ≠ [] :=
  List.ne_nil_of_length_pos (by decide)

theorem reports_shown_of_watched_written :
    let w := ((adapter (fun _ => []) [corePath]).visits written (start [corePath] fun _ => some [])).getLast written_ne
    w.adapter.reportsToUpload = 2 ∧ (w.pending, w.activity) = ([], .idle) ∧ w.Shows [corePath] := by
  let g (w : World) : Event → Bool
    | .create path _ | .delete path _ | .removeDirectory path => w.watched.contains path
    | _ => true
  have hshown := reports_shown_of_watched (Machine.Within.of_check (M := adapter (fun _ => []) [corePath])
    (G := InWatched [corePath]) (g := g) (fun w e h => ?_) (by decide)) _ (List.getLast_mem written_ne)
  · refine ⟨by decide, by decide, hshown.resolve_left ?_⟩
    rintro (hp | ⟨look, hact⟩)
    · exact hp (by decide)
    · cases hact
  · cases e with
    | create path name | delete path name | removeDirectory path => exact .inl (by simpa [g] using h)
    | _ => trivial

/-- A report written between the first look and addPaths() is not shown, and nothing is due. -/
example : ((adapter (fun _ => []) [corePath]).visits
      [.listed [], .collected fun _ => 0, .create corePath "a.rcore".toList, .addPath, .addPath]
      (start [corePath] fun _ => some [])).getLast?.map (fun w => (w.pending, w.activity, w.adapter.reportsToUpload,
        collectAllCoreFiles [corePath] w.fs)) =
    some ([], .idle, 0, [filePathIn corePath "a.rcore".toList]) := by decide

end Runs

end ReportsWatch

end CrashReporter.Ui
