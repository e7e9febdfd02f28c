import CrashReporter.Monitor.Registry
import CrashReporter.Segments

/-! The paths of the core directories.

A core directory is named by its mount point and a suffix. `getCoreLocationPaths`
publishes its clean path, which is what gets watched and what a change is reported for;
`checkDirectoryForCores` compares that with the name. -/
namespace CrashReporter.Monitor
open Text Segments

/-- A segment of a path that leads nowhere. -/
def stays (segment : Text) : Bool := segment = [] || segment = ".".toList

def up (segment : Text) : Bool := segment = "..".toList

/-- The segments of an absolute path. -/
def segments (path : Text) : List Text := path.tail.splitOn '/'

/-- `absolutePath` of an absolute path: separators, dots and double dots are cleaned up. -/
def absolutePath (path : Text) : Text := '/' :: ['/'].intercalate (normalize stays up (segments path))

def coreDumpsSuffix : Text := "/core-dumps".toList

def mountpointStatic : List Text := ["/var/cache".toList, "/home/.crash-reporter".toList]

def coreDirectory (mountpoint : Text) : Text := mountpoint ++ coreDumpsSuffix

/-- `environment` has the values of the variables for mount points, empty for one that is
not set; only some builds read them. -/
def mountpoints (environment : List Text) : List Text :=
  let named := environment.filter (· ≠ [])
  if named = [] then mountpointStatic else named

/-- The directories of the registry, in its order. -/
def createCoreLocationRegistry (environment : List Text) : List Text := (mountpoints environment).map coreDirectory

namespace Registry

def getCoreLocationPaths (directories : List Text) (fs : FileSystem) : List Text :=
  (directories.filter fun d => (fs d).isSome).map absolutePath

/-- A path that `getCoreLocationPaths` returns for this core directory. -/
structure CameFrom (directories : List Text) (fs : FileSystem) (path : Text) (i : Nat) : Prop where
  lt : i < directories.length
  there : (fs (directory directories i)).isSome = true
  path : absolutePath (directory directories i) = path

/-- `checkDirectoryForCores` of this core directory runs. -/
def Examines (path : Text) (i : Nat) (s : State) : Prop := ∃ rest scan, s.activity = .check path i rest scan

/-- The file goes away. -/
def Step.removes (path name : Text) : Step → Bool
  | .delete p n => p = path && n = name
  | .removeDirectory p => p = path
  | _ => false

/-- A call with this path, whatever happens meanwhile, goes through the core directory
before it returns; and it returns a report when there is one in the directory all the time
that the registry does not know. -/
structure Recognised (directories : List Text) (path : Text) (i : Nat) : Prop where
  examined : ∀ s events, s.activity = .idle →
    ∀ t ∈ (registry directories).visits (.checkDirectoryForCores path :: events) s, t.activity = .idle →
      ∃ u ∈ (registry directories).visits (.checkDirectoryForCores path :: events) s, Examines path i u
  found : ∀ s events name, s.activity = .idle → name ∈ s.fs.files (directory directories i) → listed name = true →
    (∀ j, directory directories j = directory directories i → name ∉ s.coresAtDirectory j) →
    (∀ e ∈ events, Step.removes (directory directories i) name e = false) →
    ∀ t ∈ (registry directories).visits (.checkDirectoryForCores path :: events) s, t.activity = .idle →
      ∃ new report, t.log = new ++ s.log ∧ .returned path (some report) ∈ new

/-- Each path that is published is recognised. -/
def AllRecognised (directories : List Text) (fs : FileSystem) : Prop :=
  ∀ path ∈ getCoreLocationPaths directories fs, ∀ i, CameFrom directories fs path i → Recognised directories path i

/-! ### What a step does -/

section Step
variable {directories : List Text} {s t : State} {e : Step}

/-- What other processes do in a step: iterators follow, and nothing more is known. -/
structure Outside (directories : List Text) (e : Step) (s t : State) : Prop where
  follows : ∃ p f, t.activity = mapScan directories p f s.activity ∧ ∀ scan, (f scan).shown = scan.shown ∧
    ∀ path name, Step.removes path name e = false → name ∈ scan.throughout → p = path → name ∈ (f scan).throughout
  cores : t.coresAtDirectory = s.coresAtDirectory
  kept : ∀ path name, Step.removes path name e = false → name ∈ s.fs.files path → name ∈ t.fs.files path
  log : ∃ new, t.log = new ++ s.log

theorem mapScan_id (p : Text) (activity : Activity) : mapScan directories p id activity = activity := by
  cases activity <;> simp [mapScan]

theorem call_idle {activity : Activity} (h : call activity s = some t) : s.activity = .idle := by
  unfold call at h
  split at h
  · assumption
  · cases h

theorem outside_create {p n : Text} (hs : (registry directories).step s (.create p n) = some t) :
    Outside directories (.create p n) s t := by
  simp only [registry] at hs
  split at hs
  · cases hs
  · rename_i names hp
    split at hs
    · cases hs
    · cases hs
      refine ⟨⟨p, _, rfl, fun scan => ?_⟩, rfl, fun path name _ hn => ?_, ⟨[_], rfl⟩⟩
      · split
        · exact ⟨rfl, fun _ _ _ hn _ => hn⟩
        · exact ⟨rfl, fun _ _ _ hn _ => hn⟩
      · rw [files_update]
        split
        · rename_i hpath
          rw [hpath, FileSystem.files, hp] at hn
          exact List.mem_cons_of_mem _ hn
        · exact hn

theorem outside_delete {p n : Text} (hs : (registry directories).step s (.delete p n) = some t) :
    Outside directories (.delete p n) s t := by
  simp only [registry] at hs
  split at hs
  · cases hs
  · rename_i names hp
    split at hs
    · cases hs
    · cases hs
      have hne {path name : Text} (hr : Step.removes path name (.delete p n) = false) (hpath : p = path) :
          name ≠ n := by
        rintro rfl
        simp [Step.removes, hpath] at hr
      refine ⟨⟨p, _, rfl, fun scan => ⟨rfl, fun path name hr hn hpath => ?_⟩⟩, rfl, fun path name hr hn => ?_,
        ⟨[_], rfl⟩⟩
      · exact List.mem_filter.mpr ⟨hn, decide_eq_true (hne hr hpath)⟩
      · rw [files_update]
        split
        · rename_i hpath
          rw [hpath, files_of_some hp] at hn
          exact List.mem_filter.mpr ⟨hn, decide_eq_true (hne hr hpath.symm)⟩
        · exact hn

theorem outside_makeDirectory {p : Text} (hs : (registry directories).step s (.makeDirectory p) = some t) :
    Outside directories (.makeDirectory p) s t := by
  simp only [registry] at hs
  split at hs
  · cases hs
  · rename_i hnone
    cases hs
    rw [Option.not_isSome_iff_eq_none] at hnone
    refine ⟨⟨p, id, (mapScan_id p _).symm, fun scan => ⟨rfl, fun _ _ _ hn _ => hn⟩⟩, rfl, fun path name _ hn => ?_,
      ⟨[], rfl⟩⟩
    rw [files_update]
    split
    · rename_i hpath
      rw [hpath, FileSystem.files, hnone] at hn
      exact hn
    · exact hn

theorem outside_removeDirectory {p : Text} (hs : (registry directories).step s (.removeDirectory p) = some t) :
    Outside directories (.removeDirectory p) s t := by
  simp only [registry] at hs
  split at hs
  · cases hs
  · cases hs
    have hne {path name : Text} (hr : Step.removes path name (.removeDirectory p) = false) : p ≠ path := by
      simpa [Step.removes] using hr
    refine ⟨⟨p, _, rfl, fun scan => ⟨rfl, fun _ _ hr _ hpath => absurd hpath (hne hr)⟩⟩, rfl,
      fun path name hr hn => ?_, ⟨[_], rfl⟩⟩
    rw [files_update, if_neg (hne hr).symm]
    exact hn

/-- A step of the others, or of the function that runs; only an idle registry is called. -/
theorem step_cases (hs : (registry directories).step s e = some t) : s.activity = .idle ∨
    Outside directories e s t ∨ (∃ answer, run directories answer s = some t) ∨ (∃ name, next name s = some t) ∨
      atEnd directories s = some t := by
  cases e with
  | create p n => exact .inr (.inl (outside_create hs))
  | delete p n => exact .inr (.inl (outside_delete hs))
  | makeDirectory p => exact .inr (.inl (outside_makeDirectory hs))
  | removeDirectory p => exact .inr (.inl (outside_removeDirectory hs))
  | checkDirectoryForCores p =>
    obtain ⟨u, hu, -⟩ := Option.map_eq_some_iff.mp hs
    exact .inl (call_idle hu)
  | refreshRegistry => exact .inl (call_idle hs)
  | coreLocationsUpdated => exact .inl (call_idle hs)
  | updateCoreList i => exact .inl (call_idle hs)
  | createCoreDirectory i => exact .inl (call_idle hs)
  | run answer => exact .inr (.inr (.inl ⟨answer, hs⟩))
  | next name => exact .inr (.inr (.inr (.inl ⟨name, hs⟩)))
  | atEnd => exact .inr (.inr (.inr (.inr hs)))

/-- One turn of the loop of `checkDirectoryForCores`, or its end. -/
theorem run_lookup {answer : Bool} {path : Text} {rest : List Nat} {found : Option Text}
    (hact : s.activity = .lookup path rest found) (hs : run directories answer s = some t) :
    (rest = [] ∧ t = {s with activity := .idle, log := .returned path found :: s.log}) ∨
    ∃ i later, rest = i :: later ∧
      ((directory directories i = path ∧ t = {s with activity := .check path i later (openScan directories i s)}) ∨
        (directory directories i ≠ path ∧ t = {s with activity := .lookup path later found})) := by
  cases rest with
  | nil =>
    simp only [run, hact] at hs
    cases hs
    exact .inl ⟨rfl, rfl⟩
  | cons i later =>
    simp only [run, hact] at hs
    split at hs
    · rename_i hi
      cases hs
      exact .inr ⟨i, later, rfl, .inl ⟨hi, rfl⟩⟩
    · rename_i hi
      cases hs
      exact .inr ⟨i, later, rfl, .inr ⟨hi, rfl⟩⟩

/-- The iterator of a check shows a report that is new, or something else; that of a refresh
shows what is there. -/
theorem next_cases {name : Text} (hs : next name s = some t) :
    (∃ path i rest scan, s.activity = .check path i rest scan ∧
      (t = {learn i name s with activity := .lookup path rest (some name)} ∨
        ((name ∈ s.coresAtDirectory i ∨ validateCore name = false) ∧
          t = {s with activity := .check path i rest (scan.advance name)}))) ∨
    ∃ i scan after, s.activity = .update i scan after ∧
      t = {learn i name s with activity := .update i (scan.advance name) after} := by
  unfold next at hs
  split at hs
  · rename_i path i rest scan hact
    refine .inl ⟨path, i, rest, scan, hact, ?_⟩
    split at hs
    · cases hs
    · split at hs
      · cases hs
        exact .inl rfl
      · rename_i hold
        cases hs
        refine .inr ⟨?_, rfl⟩
        simp only [Bool.and_eq_true, Bool.not_eq_true', List.contains_eq_mem, decide_eq_false_iff_not, not_and,
          Bool.not_eq_true] at hold
        exact or_iff_not_imp_left.mpr hold
  · rename_i i scan after hact
    refine .inr ⟨i, scan, after, hact, ?_⟩
    split at hs
    · cases hs
    · cases hs
      rfl
  · cases hs

/-- At the end of a check the core directory is refreshed; after a refresh the function goes on. -/
theorem atEnd_cases (hs : atEnd directories s = some t) :
    (∃ path i rest scan, s.activity = .check path i rest scan ∧ (∀ name ∈ scan.throughout, name ∈ scan.shown) ∧
      t = startUpdate directories i (.lookup path rest) s) ∨
    ∃ i scan after, s.activity = .update i scan after ∧ t = {s with activity := after.resume} := by
  unfold atEnd at hs
  split at hs
  · rename_i path i rest scan hact
    split at hs
    · rename_i hall
      cases hs
      exact .inl ⟨path, i, rest, scan, hact, fun name hn => by simpa using List.all_eq_true.mp hall name hn, rfl⟩
    · cases hs
  · rename_i i scan after hact
    split at hs
    · cases hs
      exact .inr ⟨i, scan, after, hact, rfl⟩
    · cases hs
  · cases hs

theorem run_log {answer : Bool} (hs : run directories answer s = some t) : ∃ new, t.log = new ++ s.log := by
  unfold run at hs
  split at hs
  · cases hs
    exact ⟨[_], rfl⟩
  · split at hs <;> cases hs <;> exact ⟨[], rfl⟩
  · cases hs
    exact ⟨[], rfl⟩
  · cases hs
    exact ⟨[], rfl⟩
  · split at hs
    · cases hs
      exact ⟨[], rfl⟩
    · split at hs <;> cases hs <;> exact ⟨[], rfl⟩
  · dsimp only at hs
    split at hs
    · cases hs
      exact ⟨[], rfl⟩
    · split at hs
      · cases hs
      · cases hs
        exact ⟨[], rfl⟩
  · cases hs

theorem next_log {name : Text} (hs : next name s = some t) : t.log = s.log := by
  obtain ⟨path, i, rest, scan, -, rfl | ⟨-, rfl⟩⟩ | ⟨i, scan, after, -, rfl⟩ := next_cases hs
  · rfl
  · rfl
  · rfl

theorem atEnd_log (hs : atEnd directories s = some t) : t.log = s.log := by
  obtain ⟨path, i, rest, scan, -, -, rfl⟩ | ⟨i, scan, after, -, rfl⟩ := atEnd_cases hs
  · rfl
  · rfl

theorem call_log {activity : Activity} (hs : call activity s = some t) : t.log = s.log := by
  unfold call at hs
  split at hs
  · cases hs
    rfl
  · cases hs

/-- The log only grows. -/
theorem step_log (hs : (registry directories).step s e = some t) : ∃ new, t.log = new ++ s.log := by
  cases e with
  | create p n => exact (outside_create hs).log
  | delete p n => exact (outside_delete hs).log
  | makeDirectory p => exact (outside_makeDirectory hs).log
  | removeDirectory p => exact (outside_removeDirectory hs).log
  | checkDirectoryForCores p =>
    obtain ⟨u, hu, rfl⟩ := Option.map_eq_some_iff.mp hs
    exact ⟨[.called p], congrArg _ (call_log hu)⟩
  | refreshRegistry => exact ⟨[], call_log hs⟩
  | coreLocationsUpdated => exact ⟨[], call_log hs⟩
  | updateCoreList i => exact ⟨[], call_log hs⟩
  | createCoreDirectory i => exact ⟨[], call_log hs⟩
  | run answer => exact run_log hs
  | next name => exact ⟨[], next_log hs⟩
  | atEnd => exact ⟨[], atEnd_log hs⟩

end Step

/-! ### The core directories are asked in turn -/

section Call
variable {directories : List Text} {s t : State} {path name : Text} {i : Nat} {e : Step}

/-- The core directory is still to be asked. -/
def Pending (path : Text) (i : Nat) : Activity → Prop
  | .lookup p rest _ => p = path ∧ i ∈ rest
  | .check p _ rest _ => p = path ∧ i ∈ rest
  | .update _ _ after => ∃ rest, after = .lookup path rest ∧ i ∈ rest
  | _ => False

theorem pending_mapScan {f : Scan → Scan} {p : Text} {activity : Activity} (h : Pending path i activity) :
    Pending path i (mapScan directories p f activity) := by
  cases activity <;> exact h

/-- A core directory of this path is asked next, or still to be asked. -/
theorem Pending.step (hi : directory directories i = path) (h : Pending path i s.activity)
    (hs : (registry directories).step s e = some t) : Examines path i t ∨ Pending path i t.activity := by
  obtain hidle | ⟨⟨p, f, hact, -⟩, -, -, -⟩ | ⟨answer, hrun⟩ | ⟨name, hnext⟩ | hend := step_cases hs
  · rw [hidle] at h
    exact h.elim
  · rw [hact]
    exact .inr (pending_mapScan h)
  · cases hact : s.activity with
    | lookup p rest found =>
      rw [hact] at h
      obtain ⟨rfl, hmem⟩ := h
      obtain ⟨rfl, -⟩ | ⟨j, later, rfl, ⟨hj, rfl⟩ | ⟨hj, rfl⟩⟩ := run_lookup hact hrun
      · cases hmem
      · obtain rfl | hmem := List.mem_cons.mp hmem
        · exact .inl ⟨later, _, rfl⟩
        · exact .inr ⟨rfl, hmem⟩
      · obtain rfl | hmem := List.mem_cons.mp hmem
        · exact absurd hi hj
        · exact .inr ⟨rfl, hmem⟩
    | idle => simp [run, hact] at hrun
    | check => simp [run, hact] at hrun
    | update => simp [run, hact] at hrun
    | signal => rw [hact] at h; exact h.elim
    | mkdir => rw [hact] at h; exact h.elim
  · obtain ⟨p, j, rest, scan, hact, rfl | ⟨-, rfl⟩⟩ | ⟨j, scan, after, hact, rfl⟩ := next_cases hnext
    · rw [hact] at h
      exact .inr h
    · rw [hact] at h
      exact .inr h
    · rw [hact] at h
      exact .inr h
  · obtain ⟨p, j, rest, scan, hact, -, rfl⟩ | ⟨j, scan, after, hact, rfl⟩ := atEnd_cases hend
    · rw [hact] at h
      obtain ⟨rfl, hmem⟩ := h
      exact .inr ⟨rest, rfl, hmem⟩
    · rw [hact] at h
      obtain ⟨rest, rfl, hmem⟩ := h
      exact .inr ⟨rfl, hmem⟩

/-- A call of `checkDirectoryForCores` with this path has still to come to a core directory
of the path, or has found something; a report in the directory is new to it. -/
inductive Awaits (directories : List Text) (path name : Text) (s : State) : Prop where
  | lookup {rest : List Nat} {found : Option Text} (activity : s.activity = .lookup path rest found)
    (nodup : rest.Nodup) (new : ∀ i ∈ rest, directory directories i = path → name ∉ s.coresAtDirectory i)
    (due : (∃ report, found = some report) ∨ ∃ i ∈ rest, directory directories i = path)
  | check {i : Nat} {rest : List Nat} {scan : Scan} (activity : s.activity = .check path i rest scan)
    (own : directory directories i = path) (nodup : (i :: rest).Nodup)
    (new : ∀ j ∈ i :: rest, directory directories j = path → name ∉ s.coresAtDirectory j)
    (throughout : name ∈ scan.throughout) (unshown : name ∉ scan.shown)

/-- The call goes on, or returns a report. -/
theorem Awaits.step (hlisted : listed name = true) (h : Awaits directories path name s)
    (hfile : name ∈ s.fs.files path) (hr : Step.removes path name e = false)
    (hs : (registry directories).step s e = some t) :
    (Awaits directories path name t ∧ name ∈ t.fs.files path) ∨
      ∃ report, t.log = .returned path (some report) :: s.log := by
  obtain hidle | ⟨⟨p, f, hact, hf⟩, hcores, hkept, -⟩ | ⟨answer, hrun⟩ | ⟨n, hnext⟩ | hend := step_cases hs
  · cases h with
    | lookup hl => simp [hl] at hidle
    | check hl => simp [hl] at hidle
  · refine .inl ⟨?_, hkept path name hr hfile⟩
    cases h with
    | lookup hl hnodup hnew hdue =>
      exact .lookup (hact.trans (by rw [hl]; rfl)) hnodup (hcores ▸ hnew) hdue
    | @check i rest scan hl hown hnodup hnew hthrough hshown =>
      refine .check (hact.trans (by rw [hl]; rfl)) hown hnodup (hcores ▸ hnew) ?_ ?_
      · split
        · rename_i hp
          exact (hf scan).2 path name hr hthrough (hp.symm.trans hown)
        · exact hthrough
      · split
        · rwa [(hf scan).1]
        · exact hshown
  · cases h with
    | check hl => simp [run, hl] at hrun
    | lookup hl hnodup hnew hdue =>
      obtain ⟨rfl, rfl⟩ | ⟨j, later, rfl, ⟨hj, rfl⟩ | ⟨hj, rfl⟩⟩ := run_lookup hl hrun
      · obtain ⟨report, rfl⟩ | ⟨i, hi, -⟩ := hdue
        · exact .inr ⟨report, rfl⟩
        · cases hi
      · have hscan : name ∈ (s.fs.files (directory directories j)).filter listed := by
          rw [hj]
          exact List.mem_filter.mpr ⟨hfile, hlisted⟩
        exact .inl ⟨.check rfl hj hnodup hnew hscan List.not_mem_nil, hfile⟩
      · refine .inl ⟨.lookup rfl hnodup.of_cons (fun i hi => hnew i (List.mem_cons_of_mem _ hi)) ?_, hfile⟩
        refine hdue.imp_right ?_
        rintro ⟨i, hi, hdir⟩
        obtain rfl | hi := List.mem_cons.mp hi
        · exact absurd hdir hj
        · exact ⟨i, hi, hdir⟩
  · cases h with
    | lookup hl => simp [next, hl] at hnext
    | @check i rest scan hl hown hnodup hnew hthrough hshown =>
      obtain ⟨_, _, _, _, hact, hcase⟩ | ⟨_, _, _, hact, -⟩ := next_cases hnext
      · cases hl.symm.trans hact
        obtain rfl | ⟨hold, rfl⟩ := hcase
        · refine .inl ⟨.lookup rfl hnodup.of_cons (fun j hj hdir => ?_) (.inl ⟨n, rfl⟩), hfile⟩
          have hne : j ≠ i := fun heq => (List.nodup_cons.mp hnodup).1 (heq ▸ hj)
          have hcores : ({learn i n s with activity := .lookup path rest (some n)} : State).coresAtDirectory j =
              s.coresAtDirectory j := Function.update_of_ne hne ..
          rw [hcores]
          exact hnew j (List.mem_cons_of_mem _ hj) hdir
        · have hne : name ≠ n := by
            rintro rfl
            obtain hknown | hinvalid := hold
            · exact hnew i (List.mem_cons_self ..) hown hknown
            · rw [CoreDir.validateCore_of_listed hlisted] at hinvalid
              cases hinvalid
          refine .inl ⟨.check rfl hown hnodup hnew hthrough ?_, hfile⟩
          exact fun hm => (List.mem_cons.mp hm).elim hne hshown
      · cases hl.symm.trans hact
  · cases h with
    | lookup hl => simp [atEnd, hl] at hend
    | check hl hown hnodup hnew hthrough hshown =>
      obtain ⟨_, _, _, _, hact, hall, -⟩ | ⟨_, _, _, hact, -⟩ := atEnd_cases hend
      · cases hl.symm.trans hact
        exact absurd (hall name hthrough) hshown
      · cases hl.symm.trans hact

/-! ### Whole calls -/

/-- A call that has still to come to the core directory goes through it before it returns. -/
theorem Pending.examined (hi : directory directories i = path) {events : List Step} (h : Pending path i s.activity) :
    ∀ t ∈ (registry directories).visits events s, t.activity = .idle →
      ∃ u ∈ (registry directories).visits events s, Examines path i u := by
  induction events generalizing s with
  | nil => exact fun t ht => nomatch ht
  | cons e rest ih =>
    intro t ht hidle
    cases hs : (registry directories).step s e with
    | none =>
      rw [Machine.visits_stuck hs] at ht
      cases ht
    | some u =>
      rw [Machine.visits_cons hs] at ht ⊢
      obtain hexam | hpend := h.step hi hs
      · exact ⟨u, List.mem_cons_self .., hexam⟩
      · obtain rfl | ht := List.mem_cons.mp ht
        · rw [hidle] at hpend
          exact hpend.elim
        · obtain ⟨v, hv, hexam⟩ := ih hpend t ht hidle
          exact ⟨v, List.mem_cons_of_mem _ hv, hexam⟩

theorem visits_log {events : List Step} :
    ∀ t ∈ (registry directories).visits events s, ∃ new, t.log = new ++ s.log := by
  induction events generalizing s with
  | nil => exact fun t ht => nomatch ht
  | cons e rest ih =>
    intro t ht
    cases hs : (registry directories).step s e with
    | none =>
      rw [Machine.visits_stuck hs] at ht
      cases ht
    | some u =>
      rw [Machine.visits_cons hs] at ht
      obtain ⟨new, hu⟩ := step_log hs
      obtain rfl | ht := List.mem_cons.mp ht
      · exact ⟨new, hu⟩
      · obtain ⟨later, hlater⟩ := ih t ht
        exact ⟨later ++ new, by rw [hlater, hu, List.append_assoc]⟩

/-- A report that is new and stays makes the call return one. -/
theorem Awaits.found (hlisted : listed name = true) {events : List Step} (h : Awaits directories path name s)
    (hfile : name ∈ s.fs.files path) (hr : ∀ e ∈ events, Step.removes path name e = false) :
    ∀ t ∈ (registry directories).visits events s, t.activity = .idle →
      ∃ new report, t.log = new ++ s.log ∧ .returned path (some report) ∈ new := by
  induction events generalizing s with
  | nil => exact fun t ht => nomatch ht
  | cons e rest ih =>
    obtain ⟨he, hrest⟩ := List.forall_mem_cons.mp hr
    intro t ht hidle
    cases hs : (registry directories).step s e with
    | none =>
      rw [Machine.visits_stuck hs] at ht
      cases ht
    | some u =>
      rw [Machine.visits_cons hs] at ht
      obtain ⟨hawaits, hfile'⟩ | ⟨report, hlog⟩ := h.step hlisted hfile he hs
      · obtain rfl | ht := List.mem_cons.mp ht
        · cases hawaits with
          | lookup hl => simp [hl] at hidle
          | check hl => simp [hl] at hidle
        · obtain ⟨new, report, hnew, hmem⟩ := ih hawaits hfile' hrest t ht hidle
          obtain ⟨first, hfirst⟩ := step_log hs
          exact ⟨new ++ first, report, by rw [hnew, hfirst, List.append_assoc], List.mem_append_left _ hmem⟩
      · obtain ⟨new, hnew⟩ : ∃ new, t.log = new ++ u.log := by
          obtain rfl | ht := List.mem_cons.mp ht
          · exact ⟨[], rfl⟩
          · exact visits_log t ht
        refine ⟨new ++ [.returned path (some report)], report, ?_, by simp⟩
        rw [hnew, hlog, List.append_assoc, List.singleton_append]

/-- With nothing in the file system a call returns. -/
theorem lookup_returns {rest : List Nat} {found : Option Text} (hact : s.activity = .lookup path rest found)
    (hfs : ∀ p, s.fs.files p = []) : ∃ events, ∃ t ∈ (registry directories).visits events s, t.activity = .idle := by
  induction rest generalizing s found with
  | nil =>
    have hs : (registry directories).step s (.run true) =
        some {s with activity := .idle, log := .returned path found :: s.log} := by
      simp only [registry, run, hact]
    exact ⟨[.run true], _, by rw [Machine.visits_cons hs]; exact List.mem_cons_self .., rfl⟩
  | cons j rest ih =>
    by_cases hj : directory directories j = path
    · let scan := openScan directories j s
      have hscan : scan.throughout = [] := by simp [scan, openScan, hfs]
      let checking : State := {s with activity := .check path j rest scan}
      let updating := startUpdate directories j (.lookup path rest) checking
      have hcheck : (registry directories).step s (.run true) = some checking := by
        simp only [registry, run, hact, hj, if_true]
        rfl
      have hupdate : (registry directories).step checking .atEnd = some updating := by
        simp [registry, atEnd, checking, hscan, updating]
      have hdone : (registry directories).step updating .atEnd =
          some {updating with activity := .lookup path rest none} := by
        have hup : (openScan directories j checking).throughout = [] := hscan
        simp [registry, atEnd, updating, startUpdate, hup, After.resume]
      obtain ⟨events, t, ht, hidle⟩ := ih (s := {updating with activity := .lookup path rest none}) rfl hfs
      refine ⟨.run true :: .atEnd :: .atEnd :: events, t, ?_, hidle⟩
      rw [Machine.visits_cons hcheck, Machine.visits_cons hupdate, Machine.visits_cons hdone]
      exact List.mem_cons_of_mem _ (List.mem_cons_of_mem _ (List.mem_cons_of_mem _ ht))
    · have hs : (registry directories).step s (.run true) = some {s with activity := .lookup path rest found} := by
        simp only [registry, run, hact, hj, if_false]
      obtain ⟨events, t, ht, hidle⟩ := ih (s := {s with activity := .lookup path rest found}) rfl hfs
      refine ⟨.run true :: events, t, ?_, hidle⟩
      rw [Machine.visits_cons hs]
      exact List.mem_cons_of_mem _ ht

theorem step_call (hidle : s.activity = .idle) : (registry directories).step s (.checkDirectoryForCores path) =
    some {s with
      activity := .lookup path (List.range directories.length) none
      log := .called path :: s.log} := by
  simp [registry, call, hidle]

/-- A core directory of the path is recognised. -/
theorem recognised_of_directory (hlt : i < directories.length) (hi : directory directories i = path) :
    Recognised directories path i := by
  constructor
  · intro s events hidle t ht htidle
    rw [Machine.visits_cons (step_call hidle)] at ht ⊢
    obtain rfl | ht := List.mem_cons.mp ht
    · cases htidle
    · have hpend : Pending path i (.lookup path (List.range directories.length) none) :=
        ⟨rfl, List.mem_range.mpr hlt⟩
      obtain ⟨u, hu, hexam⟩ := Pending.examined (s := {s with activity := _, log := _}) hi hpend t ht htidle
      exact ⟨u, List.mem_cons_of_mem _ hu, hexam⟩
  · intro s events name hidle hfile hlisted hnew hr t ht htidle
    rw [hi] at hfile hnew hr
    rw [Machine.visits_cons (step_call hidle)] at ht
    obtain rfl | ht := List.mem_cons.mp ht
    · cases htidle
    · have hawaits : Awaits directories path name {s with
          activity := .lookup path (List.range directories.length) none
          log := .called path :: s.log} :=
        .lookup rfl List.nodup_range (fun j _ => hnew j) (.inr ⟨i, List.mem_range.mpr hlt, hi⟩)
      obtain ⟨new, report, hlog, hmem⟩ := hawaits.found hlisted hfile hr t ht htidle
      refine ⟨new ++ [.called path], report, ?_, List.mem_append_left _ hmem⟩
      rw [hlog, List.append_assoc, List.singleton_append]

/-- A core directory of another path is never gone through. -/
theorem directory_of_recognised (h : Recognised directories path i) : directory directories i = path := by
  let s := start fun _ => none
  let called : State := {s with
    activity := .lookup path (List.range directories.length) none
    log := [.called path]}
  have hcall : (registry directories).step s (.checkDirectoryForCores path) = some called := step_call rfl
  have hreturns : ∃ events, ∃ t ∈ (registry directories).visits events called, t.activity = .idle :=
    lookup_returns rfl fun _ => rfl
  obtain ⟨events, t, ht, hidle⟩ := hreturns
  have ht' : t ∈ (registry directories).visits (.checkDirectoryForCores path :: events) s := by
    rw [Machine.visits_cons hcall]
    exact List.mem_cons_of_mem _ ht
  obtain ⟨u, hu, rest, scan, hact⟩ := h.examined s events rfl t ht' hidle
  have hsound : Sound directories (fun _ => none) u :=
    Machine.visits_invariant (G := fun _ _ => True) (fun _ _ _ h _ hstep => h.step hstep)
      (sound_start _) (Machine.within_true _ _) u hu
  have hfits := hsound.activity
  rw [hact] at hfits
  exact hfits.1

end Call

end Registry

/-! ### Which names are clean -/

/-- An absolute path, as the environment may name it. -/
abbrev Mountpoint := {mountpoint : Text // mountpoint.head? = some '/'}

/-- No segment is empty or a dot, and double dots come first: then so does the path of the
core directory. -/
def Clean (mountpoint : Mountpoint) : Prop :=
  ∀ segment ∈ (segments mountpoint.1).dropWhile up, stays segment = false ∧ up segment = false

instance (mountpoint : Mountpoint) : Decidable (Clean mountpoint) :=
  inferInstanceAs (Decidable (∀ segment ∈ (segments mountpoint.1).dropWhile up, _ ∧ _))

theorem not_mem_splitOn {path segment : Text} (h : segment ∈ path.splitOn '/') : '/' ∉ segment := by
  induction path generalizing segment with
  | nil =>
    rw [List.splitOn_nil, List.mem_singleton] at h
    simp [h]
  | cons c rest ih =>
    rw [List.splitOn_cons_eq_if_modifyHead] at h
    split at h
    · obtain rfl | h := List.mem_cons.mp h
      · exact List.not_mem_nil
      · exact ih h
    · rename_i hc
      cases hs : rest.splitOn '/' with
      | nil => exact (List.splitOn_ne_nil _ _ hs).elim
      | cons first later =>
        rw [hs, List.modifyHead_cons] at h
        obtain rfl | h := List.mem_cons.mp h
        · have hfirst := ih (hs ▸ List.mem_cons_self ..)
          have hne : '/' ≠ c := fun heq => hc (beq_iff_eq.mpr heq.symm)
          exact fun hm => (List.mem_cons.mp hm).elim hne hfirst
        · exact ih (hs ▸ List.mem_cons_of_mem _ h)

/-- The suffix is one more segment. -/
theorem segments_coreDirectory (mountpoint : Mountpoint) : segments (coreDirectory mountpoint.1) =
    segments mountpoint.1 ++ ["core-dumps".toList] := by
  obtain ⟨path, hpath⟩ := mountpoint
  obtain ⟨rest, rfl⟩ := List.head?_eq_some_iff.mp hpath
  have hlast : ("core-dumps".toList).splitOn '/' = ["core-dumps".toList] := by decide
  rw [← hlast]
  exact List.splitOn_append_cons_self rest _

/-- Cleaning leaves a path alone when it leaves its segments alone. -/
theorem absolutePath_eq_self {path : Text} (hhead : path.head? = some '/') (hne : path.tail ≠ []) :
    absolutePath path = path ↔ normalize stays up (segments path) = segments path := by
  obtain ⟨rest, rfl⟩ := List.head?_eq_some_iff.mp hhead
  have hjoin : ['/'].intercalate (segments ('/' :: rest)) = rest := List.intercalate_splitOn '/'
  constructor
  · intro h
    have hrest : ['/'].intercalate (normalize stays up (segments ('/' :: rest))) = rest := (List.cons.inj h).2
    have hsome : normalize stays up (segments ('/' :: rest)) ≠ [] := by
      intro hnil
      rw [hnil] at hrest
      exact hne hrest.symm
    have hsplit : (['/'].intercalate (normalize stays up (segments ('/' :: rest)))).splitOn '/' =
        normalize stays up (segments ('/' :: rest)) :=
      List.splitOn_intercalate '/' (fun _ hs => not_mem_splitOn (mem_normalize hs)) hsome
    rw [← hsplit, hrest]
    rfl
  · intro h
    rw [absolutePath, h, hjoin]

theorem absolutePath_coreDirectory (mountpoint : Mountpoint) :
    absolutePath (coreDirectory mountpoint.1) = coreDirectory mountpoint.1 ↔ Clean mountpoint := by
  have hhead : (coreDirectory mountpoint.1).head? = some '/' := by
    rw [coreDirectory, List.head?_append, mountpoint.2, Option.some_or]
  have htail : (coreDirectory mountpoint.1).tail ≠ [] := by
    obtain ⟨path, hpath⟩ := mountpoint
    obtain ⟨rest, rfl⟩ := List.head?_eq_some_iff.mp hpath
    exact List.append_ne_nil_of_right_ne_nil rest (by decide)
  have hdisj (segment : Text) (h : up segment = true) : stays segment = false := by
    rw [of_decide_eq_true h]
    decide
  have hlast : Leads stays up "core-dumps".toList := ⟨by decide, by decide⟩
  rw [absolutePath_eq_self hhead htail, normalize_eq_self hdisj, segments_coreDirectory, List.dropWhile_append]
  split
  · rename_i hnil
    have hclean : Clean mountpoint := by
      rw [Clean, List.isEmpty_iff.mp hnil]
      exact fun _ hs => nomatch hs
    rw [List.dropWhile_cons_of_neg (Bool.eq_false_iff.mp hlast.2), List.forall_mem_singleton]
    exact ⟨fun _ => hclean, fun _ => hlast⟩
  · rw [List.forall_mem_append, List.forall_mem_singleton]
    exact and_iff_left hlast

/-- The paths that are published are recognised when the mount points of the directories
that exist are clean, and in no other case. -/
theorem locations_recognised_iff (mountpoints : List Mountpoint) (fs : FileSystem) :
    Registry.AllRecognised (mountpoints.map fun m => coreDirectory m.1) fs ↔
      ∀ m ∈ mountpoints, (fs (coreDirectory m.1)).isSome = true → Clean m := by
  have hdir {i : Nat} {m : Mountpoint} (hm : mountpoints[i]? = some m) :
      Registry.directory (mountpoints.map fun m => coreDirectory m.1) i = coreDirectory m.1 := by
    simp [Registry.directory, List.getD_eq_getElem?_getD, hm]
  constructor
  · intro h m hm hsome
    obtain ⟨i, hi⟩ := List.mem_iff_getElem?.mp hm
    have hlt := (List.getElem?_eq_some_iff.mp hi).1
    have hpath : absolutePath (coreDirectory m.1) ∈
        Registry.getCoreLocationPaths (mountpoints.map fun m => coreDirectory m.1) fs :=
      List.mem_map.mpr ⟨_, List.mem_filter.mpr ⟨List.mem_map.mpr ⟨m, hm, rfl⟩, hsome⟩, rfl⟩
    have hfrom : Registry.CameFrom (mountpoints.map fun m => coreDirectory m.1) fs
        (absolutePath (coreDirectory m.1)) i := by
      refine ⟨by simpa using hlt, ?_, ?_⟩
      · rw [hdir hi, hsome]
      · rw [hdir hi]
    have heq := Registry.directory_of_recognised (h _ hpath i hfrom)
    rw [hdir hi] at heq
    exact (absolutePath_coreDirectory m).mp heq.symm
  · rintro h path - i ⟨hlt, hsome, rfl⟩
    obtain ⟨m, hi⟩ : ∃ m, mountpoints[i]? = some m := by
      rw [List.length_map] at hlt
      exact ⟨_, List.getElem?_eq_getElem hlt⟩
    rw [hdir hi] at hsome
    have hclean := h m (List.mem_of_getElem? hi) hsome
    refine Registry.recognised_of_directory hlt ?_
    rw [hdir hi, (absolutePath_coreDirectory m).mpr hclean]

/-- The static mount points are clean. -/
example : ∀ m ∈ mountpointStatic, ∃ h, Clean ⟨m, h⟩ := by decide

/-- A memory card as the environment may name it. -/
def memoryCard : Mountpoint := ⟨"/media/mmc1/".toList, rfl⟩

/-- Its core directory is watched under a path that the registry does not know. -/
theorem trailing_slash_unrecognised :
    Registry.getCoreLocationPaths [coreDirectory memoryCard.1] (fun _ => some []) = ["/media/mmc1/core-dumps".toList] ∧
      ¬Registry.AllRecognised [coreDirectory memoryCard.1] fun _ => some [] := by
  have hpaths : Registry.getCoreLocationPaths [coreDirectory memoryCard.1] (fun _ => some []) =
      ["/media/mmc1/core-dumps".toList] := by decide
  refine ⟨hpaths, fun h => ?_⟩
  have hpath : "/media/mmc1/core-dumps".toList ∈
      Registry.getCoreLocationPaths [coreDirectory memoryCard.1] fun _ => some [] := by
    rw [hpaths]
    exact List.mem_cons_self ..
  have heq := Registry.directory_of_recognised (h _ hpath 0 ⟨by decide, rfl, by decide⟩)
  exact absurd heq (by decide)

end CrashReporter.Monitor
