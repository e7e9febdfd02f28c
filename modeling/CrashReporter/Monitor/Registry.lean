import CrashReporter.Monitor.CoreDir
import CrashReporter.Machine
import Mathlib.Logic.Function.Basic

/-! `CReporterCoreRegistry` over directories that change at any time.

A core directory is gone through entry by entry, while other processes create and
delete files, and whole directories. What a directory iterator shows then is left to
the system, within limits: it shows only files that were there at some moment since it
was opened, and before it ends it has shown every file that was there all the time.
`registry` is the event machine of the registry and the file system; its core
directories are given by their paths, in the order of the registry. -/
namespace CrashReporter.Monitor
open Text

/-- A directory iterator. -/
structure Scan where
  /-- What was there at some moment since it was opened. -/
  since : List Text
  /-- What was there all the time. -/
  throughout : List Text
  /-- What it has shown. -/
  shown : List Text
deriving DecidableEq

namespace Scan

def create (name : Text) (s : Scan) : Scan := {s with since := name :: s.since}

def delete (name : Text) (s : Scan) : Scan :=
  {s with throughout := s.throughout.filter (· ≠ name)}

def clear (s : Scan) : Scan := {s with throughout := []}

def advance (name : Text) (s : Scan) : Scan := {s with shown := name :: s.shown}

end Scan

/-- The two signals of the registry: coreLocationsUpdated() enters createCoreDirectory(),
registryRefreshNeeded() enters updateCoreList(). -/
inductive Slot where
  | createCoreDirectory | updateCoreList
deriving DecidableEq

/-- Where a function of the registry goes on. -/
inductive After where
  /-- The loop of `checkDirectoryForCores`, with the core directories still to be asked. -/
  | lookup (path : Text) (rest : List Nat)
  /-- The core directories whose slot is still to be entered. -/
  | signal (slot : Slot) (rest : List Nat)
deriving DecidableEq

/-- What the registry is doing. -/
inductive Activity where
  | idle
  | lookup (path : Text) (rest : List Nat) (coreFilePath : Option Text)
  /-- `checkDirectoryForCores` of a core directory. -/
  | check (path : Text) (i : Nat) (rest : List Nat) (scan : Scan)
  | update (i : Nat) (scan : Scan) (after : After)
  | signal (slot : Slot) (rest : List Nat)
  /-- `createCoreDirectory` has found no directory. -/
  | mkdir (i : Nat) (rest : List Nat)
deriving DecidableEq

def After.resume : After → Activity
  | .lookup path rest => .lookup path rest none
  | .signal slot rest => .signal slot rest

inductive Entry where
  | created (path name : Text)
  | deleted (path name : Text)
  /-- The directory went with all its files. -/
  | removed (path : Text)
  /-- `checkDirectoryForCores` is called, and returns the path of a file, or nothing. -/
  | called (path : Text)
  | returned (path : Text) (name : Option Text)
deriving DecidableEq

/-- A directory's files, none when there is no such directory. -/
abbrev FileSystem := Text → Option (List Text)

def FileSystem.files (fs : FileSystem) (path : Text) : List Text := (fs path).getD []

namespace Registry

structure State where
  fs : FileSystem
  /-- `coresAtDirectory` of each core directory. -/
  coresAtDirectory : Nat → List Text
  activity : Activity
  log : List Entry

inductive Step where
  /-- What other processes do. -/
  | create (path name : Text)
  | delete (path name : Text)
  | makeDirectory (path : Text)
  | removeDirectory (path : Text)
  /-- What the program calls. -/
  | checkDirectoryForCores (path : Text)
  | refreshRegistry
  | coreLocationsUpdated
  | updateCoreList (i : Nat)
  | createCoreDirectory (i : Nat)
  /-- The function that runs goes on; `answer` is that of isMounted() or mkdir(). -/
  | run (answer : Bool)
  /-- The iterator shows a file. -/
  | next (name : Text)
  /-- The iterator ends. -/
  | atEnd
deriving DecidableEq

section Machine
variable (directories : List Text)

def directory (i : Nat) : Text := directories.getD i []

/-- A new iterator. -/
def openScan (i : Nat) (s : State) : Scan :=
  let names := (s.fs.files (directory directories i)).filter listed
  ⟨names, names, []⟩

/-- An iterator sees a change of its directory. -/
def mapScan (path : Text) (f : Scan → Scan) : Activity → Activity
  | .check p i rest scan =>
    .check p i rest (if directory directories i = path then f scan else scan)
  | .update i scan after => .update i (if directory directories i = path then f scan else scan) after
  | activity => activity

/-- `updateCoreList`, up to its loop. -/
def startUpdate (i : Nat) (after : After) (s : State) : State :=
  {s with
    coresAtDirectory := Function.update s.coresAtDirectory i []
    activity := .update i (openScan directories i s) after}

/-- One more name is known of a core directory. -/
def learn (i : Nat) (name : Text) (s : State) : State :=
  {s with coresAtDirectory := Function.update s.coresAtDirectory i (s.coresAtDirectory i ++ [name])}

def run (answer : Bool) (s : State) : Option State :=
  match s.activity with
  | .lookup path [] coreFilePath =>
    some {s with activity := .idle, log := .returned path coreFilePath :: s.log}
  | .lookup path (i :: rest) coreFilePath =>
    if directory directories i = path then
      some {s with activity := .check path i rest (openScan directories i s)}
    else some {s with activity := .lookup path rest coreFilePath}
  | .signal _ [] => some {s with activity := .idle}
  | .signal .updateCoreList (i :: rest) =>
    some (startUpdate directories i (.signal .updateCoreList rest) s)
  | .signal .createCoreDirectory (i :: rest) =>
    if !answer then some {s with activity := .signal .createCoreDirectory rest}
    else if (s.fs (directory directories i)).isSome then
      some (startUpdate directories i (.signal .createCoreDirectory rest) s)
    else some {s with activity := .mkdir i rest}
  | .mkdir i rest =>
    let s := {s with
      coresAtDirectory := Function.update s.coresAtDirectory i []
      activity := .signal .createCoreDirectory rest}
    if !answer then some s
    else if (s.fs (directory directories i)).isSome then none
    else some {s with fs := Function.update s.fs (directory directories i) (some [])}
  | _ => none

/-- The body of the loops over a directory. -/
def next (name : Text) (s : State) : Option State :=
  match s.activity with
  | .check path i rest scan =>
    if !scan.since.contains name then none
    else if !(s.coresAtDirectory i).contains name && validateCore name then
      some {learn i name s with activity := .lookup path rest (some name)}
    else some {s with activity := .check path i rest (scan.advance name)}
  | .update i scan after =>
    if !scan.since.contains name then none
    else some {learn i name s with activity := .update i (scan.advance name) after}
  | _ => none

def atEnd (s : State) : Option State :=
  match s.activity with
  | .check path i rest scan =>
    if scan.throughout.all scan.shown.contains then
      some (startUpdate directories i (.lookup path rest) s)
    else none
  | .update _ scan after =>
    if scan.throughout.all scan.shown.contains then some {s with activity := after.resume} else none
  | _ => none

/-- A function is called when no other one runs. -/
def call (activity : Activity) (s : State) : Option State :=
  if s.activity = .idle then some {s with activity := activity} else none

def registry : Machine State Step where
  step s
    | .create path name =>
      match s.fs path with
      | none => none
      | some names =>
        if names.contains name then none
        else some {s with
          fs := Function.update s.fs path (some (name :: names))
          activity := mapScan directories path (if listed name then .create name else id) s.activity
          log := .created path name :: s.log}
    | .delete path name =>
      match s.fs path with
      | none => none
      | some names =>
        if !names.contains name then none
        else some {s with
          fs := Function.update s.fs path (some (names.filter (· ≠ name)))
          activity := mapScan directories path (.delete name) s.activity
          log := .deleted path name :: s.log}
    | .makeDirectory path =>
      if (s.fs path).isSome then none
      else some {s with fs := Function.update s.fs path (some [])}
    | .removeDirectory path =>
      if (s.fs path).isNone then none
      else some {s with
        fs := Function.update s.fs path none
        activity := mapScan directories path .clear s.activity
        log := .removed path :: s.log}
    | .checkDirectoryForCores path =>
      (call (.lookup path (List.range directories.length) none) s).map fun s =>
        {s with log := .called path :: s.log}
    | .refreshRegistry => call (.signal .updateCoreList (List.range directories.length)) s
    | .coreLocationsUpdated =>
      call (.signal .createCoreDirectory (List.range directories.length)) s
    | .updateCoreList i => call (.signal .updateCoreList [i]) s
    | .createCoreDirectory i => call (.signal .createCoreDirectory [i]) s
    | .run answer => run directories answer s
    | .next name => next name s
    | .atEnd => atEnd directories s

/-- No core directory was gone through yet. -/
def start (fs : FileSystem) : State := ⟨fs, fun _ => [], .idle, []⟩

end Machine

/-! ### What the log tells -/

section Log
variable (fs₀ : FileSystem)

/-- Whether the file was there at this moment. -/
def present : List Entry → Text → Text → Bool
  | [], path, name => (fs₀.files path).contains name
  | .created p n :: log, path, name => (p = path && n = name) || present log path name
  | .deleted p n :: log, path, name => !(p = path && n = name) && present log path name
  | .removed p :: log, path, name => p ≠ path && present log path name
  | .called _ :: log, path, name => present log path name
  | .returned _ _ :: log, path, name => present log path name

/-- The file was there at some moment since the last call of `checkDirectoryForCores`. -/
def ThereDuringCall : List Entry → Text → Text → Prop
  | [], _, _ => False
  | .called p :: log, path, name => present fs₀ (.called p :: log) path name = true
  | e :: log, path, name => present fs₀ (e :: log) path name = true ∨ ThereDuringCall log path name

/-- The file was returned, and has stayed in the directory ever since. -/
def Stays : List Entry → Text → Text → Prop
  | [], _, _ => False
  | e :: log, path, name => present fs₀ (e :: log) path name = true ∧
    (e = .returned path (some name) ∨ Stays log path name)

/-- What happens in the file system, not in the program. -/
def Entry.isChange : Entry → Bool
  | .created .. | .deleted .. | .removed _ => true
  | .called _ | .returned .. => false

variable {fs₀ : FileSystem} {log : List Entry} {path name : Text} {e : Entry}

theorem ThereDuringCall.change (he : Entry.isChange e = true) (h : ThereDuringCall fs₀ log path name) :
    ThereDuringCall fs₀ (e :: log) path name := by
  cases e with
  | called => exact nomatch he
  | returned => exact nomatch he
  | created => exact .inr h
  | deleted => exact .inr h
  | removed => exact .inr h

theorem thereDuringCall_of_present (h : present fs₀ (e :: log) path name = true) :
    ThereDuringCall fs₀ (e :: log) path name := by
  cases e <;> first | exact h | exact .inl h

theorem Stays.present (h : Stays fs₀ log path name) : present fs₀ log path name = true := by
  cases log with
  | nil => exact nomatch h
  | cons e log => exact h.1

theorem Stays.of_cons (h : Stays fs₀ (e :: log) path name) (he : e ≠ .returned path (some name)) :
    Stays fs₀ log path name := h.2.resolve_left he

theorem Stays.of_change (h : Stays fs₀ (e :: log) path name) (he : Entry.isChange e = true) :
    Stays fs₀ log path name :=
  h.of_cons (by rintro rfl; exact nomatch he)

/-- A file that does not stay was away at some moment. -/
theorem away_of_not_stays {mid pre : List Entry}
    (h : ¬ Stays fs₀ (mid ++ .returned path (some name) :: pre) path name) :
    ∃ later earlier, mid = later ++ earlier ∧
      present fs₀ (earlier ++ .returned path (some name) :: pre) path name = false := by
  induction mid with
  | nil =>
    refine ⟨[], [], rfl, ?_⟩
    cases hp : present fs₀ ([] ++ .returned path (some name) :: pre) path name with
    | false => rfl
    | true => exact absurd ⟨hp, .inl rfl⟩ h
  | cons e mid ih =>
    cases hp : present fs₀ (e :: mid ++ .returned path (some name) :: pre) path name with
    | false => exact ⟨[], e :: mid, rfl, hp⟩
    | true =>
      obtain ⟨later, earlier, rfl, haway⟩ := ih fun hs => h ⟨hp, .inr hs⟩
      exact ⟨e :: later, earlier, rfl, haway⟩

end Log

/-! ### What is known -/

section Sound
variable (directories : List Text) (fs₀ : FileSystem)

/-- The last of these core directories with this path. -/
def lastOf (path : Text) (done : List Nat) : Option Nat :=
  (done.filter (directory directories · = path)).getLast?

/-- The core directory whose answer for a path counts. -/
def owner (path : Text) : Option Nat := lastOf directories path (List.range directories.length)

/-- What the loop of the registry has found among the core directories asked so far. -/
structure Found (log : List Entry) (cores : Nat → List Text) (path : Text) (done : List Nat)
    (name : Text) : Prop where
  listed : listed name = true
  there : ThereDuringCall fs₀ log path name
  known : ∃ i, lastOf directories path done = some i ∧ name ∈ cores i ∧
    (owner directories path = some i → ¬ Stays fs₀ log path name)

/-- `checkDirectoryForCores` was called, and has still these core directories to ask. -/
structure Asks (log : List Entry) (done rest : List Nat) : Prop where
  called : log ≠ []
  order : List.range directories.length = done ++ rest

def Resumes (log : List Entry) : After → Prop
  | .lookup _ rest => ∃ done, Asks directories log done rest
  | .signal _ _ => True

/-- What holds while the registry is doing this. -/
def Fits (log : List Entry) (cores : Nat → List Text) : Activity → Prop
  | .lookup path rest coreFilePath => ∃ done, Asks directories log done rest ∧
    ∀ name, coreFilePath = some name → Found directories fs₀ log cores path done name
  | .check path i rest scan => directory directories i = path ∧
    (∃ done, Asks directories log done (i :: rest)) ∧
    ∀ name ∈ scan.since, listed name = true ∧ ThereDuringCall fs₀ log path name
  | .update i scan after => (∀ name ∈ scan.shown, name ∈ cores i) ∧ Resumes directories log after
  -- The directory was not there, and nothing has been returned since.
  | .mkdir i _ => ∀ name, ¬ Stays fs₀ log (directory directories i) name
  | .idle | .signal _ _ => True

/-- Known, or about to be: the list is being rebuilt and the file was there all the time. -/
def Known (s : State) (i : Nat) (name : Text) : Prop :=
  name ∈ s.coresAtDirectory i ∨
    ∃ scan after, s.activity = .update i scan after ∧ name ∈ scan.throughout

/-- Every file returned so far was there, and had not been returned before. -/
def Right : List Entry → Prop
  | [] => True
  | .returned path (some name) :: log =>
    (listed name = true ∧ ThereDuringCall fs₀ log path name ∧ ¬ Stays fs₀ log path name) ∧ Right log
  | _ :: log => Right log

structure Sound (s : State) : Prop where
  files : ∀ path name, name ∈ s.fs.files path ↔ present fs₀ s.log path name = true
  returned : ∀ path name, Stays fs₀ s.log path name → listed name = true
  known : ∀ path name i, Stays fs₀ s.log path name → owner directories path = some i → Known s i name
  activity : Fits directories fs₀ s.log s.coresAtDirectory s.activity
  log : Right fs₀ s.log

variable {directories : List Text} {fs₀ : FileSystem} {s : State} {path name : Text} {i : Nat}

theorem lastOf_snoc (done : List Nat) : lastOf directories path (done ++ [i]) =
    if directory directories i = path then some i else lastOf directories path done := by
  unfold lastOf
  rw [List.filter_append]
  by_cases h : directory directories i = path <;> simp [h]

theorem directory_of_owner (h : owner directories path = some i) : directory directories i = path := by
  have hm := List.mem_of_getLast? h
  simpa using (List.mem_filter.mp hm).2

theorem Asks.snoc {log : List Entry} {done rest : List Nat} (h : Asks directories log done (i :: rest)) :
    Asks directories log (done ++ [i]) rest :=
  ⟨h.called, h.order.trans (List.append_assoc done [i] rest).symm⟩

theorem Asks.cons {log : List Entry} {done rest : List Nat} (h : Asks directories log done rest)
    (e : Entry) : Asks directories (e :: log) done rest :=
  ⟨List.cons_ne_nil e log, h.order⟩

theorem Resumes.cons {log : List Entry} {after : After} (h : Resumes directories log after) (e : Entry) :
    Resumes directories (e :: log) after := by
  cases after with
  | signal slot rest => trivial
  | lookup path rest =>
    obtain ⟨done, hasks⟩ := h
    exact ⟨done, hasks.cons e⟩

/-! ### The file system changes -/

variable (fs₀) in
/-- What a change of its directory does to an iterator. -/
structure Follows (log : List Entry) (path : Text) (f : Scan → Scan) : Prop where
  shown : ∀ scan, (f scan).shown = scan.shown
  since : ∀ scan, ∀ name ∈ (f scan).since,
    name ∈ scan.since ∨ listed name = true ∧ present fs₀ log path name = true
  throughout : ∀ scan, ∀ name ∈ scan.throughout, present fs₀ log path name = true →
    name ∈ (f scan).throughout

section Change
variable {e : Entry} {f : Scan → Scan} {fs : FileSystem}

theorem Found.change (he : Entry.isChange e = true) {log : List Entry} {cores : Nat → List Text}
    {done : List Nat} (h : Found directories fs₀ log cores path done name) :
    Found directories fs₀ (e :: log) cores path done name := by
  obtain ⟨hlisted, hthere, i, hlast, hknown, hstays⟩ := h
  exact ⟨hlisted, hthere.change he, i, hlast, hknown, fun ho hs => hstays ho (hs.of_change he)⟩

theorem Right.change (he : Entry.isChange e = true) {log : List Entry} (h : Right fs₀ log) :
    Right fs₀ (e :: log) := by
  cases e with
  | called => exact nomatch he
  | returned => exact nomatch he
  | created => exact h
  | deleted => exact h
  | removed => exact h

/-- Changes of the file system are followed by the iterators. -/
theorem Sound.change (h : Sound directories fs₀ s) (he : Entry.isChange e = true)
    (hf : Follows fs₀ (e :: s.log) path f)
    (hfs : ∀ path name, name ∈ fs.files path ↔ present fs₀ (e :: s.log) path name = true) :
    Sound directories fs₀ {s with
      fs := fs
      activity := mapScan directories path f s.activity
      log := e :: s.log} where
  files := hfs
  returned p n hs := h.returned p n (hs.of_change he)
  known := by
    intro p n i hs ho
    rcases h.known p n i (hs.of_change he) ho with hk | ⟨scan, after, ha, hn⟩
    · exact .inl hk
    · refine .inr ⟨if directory directories i = path then f scan else scan, after, ?_, ?_⟩
      · simp only [ha, mapScan]
      · split
        · rename_i hp
          have hp' : p = path := (directory_of_owner ho).symm.trans hp
          exact hf.throughout scan n hn (hp' ▸ hs.present)
        · exact hn
  activity := by
    have ha := h.activity
    cases hact : s.activity with
    | idle => trivial
    | signal slot rest => trivial
    | lookup p rest found =>
      rw [hact] at ha
      obtain ⟨done, hasks, hfound⟩ := ha
      exact ⟨done, hasks.cons e, fun n hn => (hfound n hn).change he⟩
    | check p i rest scan =>
      rw [hact] at ha
      obtain ⟨hdir, ⟨done, hasks⟩, hsince⟩ := ha
      refine ⟨hdir, ⟨done, hasks.cons e⟩, fun n hn => ?_⟩
      split at hn
      · rename_i hp
        rcases hf.since scan n hn with hn | ⟨hlisted, hpresent⟩
        · exact ⟨(hsince n hn).1, (hsince n hn).2.change he⟩
        · have hp' : p = path := hdir.symm.trans hp
          exact ⟨hlisted, thereDuringCall_of_present (hp' ▸ hpresent)⟩
      · exact ⟨(hsince n hn).1, (hsince n hn).2.change he⟩
    | update i scan after =>
      rw [hact] at ha
      refine ⟨fun n hn => ha.1 n ?_, ha.2.cons e⟩
      split at hn
      · rwa [hf.shown] at hn
      · exact hn
    | mkdir i rest =>
      rw [hact] at ha
      exact fun n hs => ha n (hs.of_change he)
  log := h.log.change he

/-- A change of another directory, or of a name that is not listed, shows nothing new. -/
theorem follows_id {log : List Entry} : Follows fs₀ log path id :=
  ⟨fun _ => rfl, fun _ _ h => .inl h, fun _ _ h _ => h⟩

theorem follows_create {name : Text} {log : List Entry} (h : listed name = true) :
    Follows fs₀ (.created path name :: log) path (.create name) where
  shown _ := rfl
  since scan n hn := by
    rcases List.mem_cons.mp hn with rfl | hn
    · exact .inr ⟨h, by simp [present]⟩
    · exact .inl hn
  throughout _ _ h _ := h

theorem follows_delete {name : Text} {log : List Entry} :
    Follows fs₀ (.deleted path name :: log) path (.delete name) where
  shown _ := rfl
  since _ _ h := .inl h
  throughout scan n hn hp := by
    refine List.mem_filter.mpr ⟨hn, ?_⟩
    simp only [present, Bool.and_eq_true, Bool.not_eq_true', decide_true, Bool.true_and,
      decide_eq_false_iff_not] at hp
    simpa using Ne.symm hp.1

theorem follows_clear {log : List Entry} : Follows fs₀ (.removed path :: log) path .clear where
  shown _ := rfl
  since _ _ h := .inl h
  throughout scan n hn hp := by simp [present] at hp

end Change

/-! ### One event keeps it -/

theorem files_update {fs : FileSystem} {p : Text} {names : Option (List Text)} :
    FileSystem.files (Function.update fs path names) p =
      if p = path then names.getD [] else fs.files p := by
  unfold FileSystem.files
  by_cases h : p = path
  · subst h
    simp
  · simp [h]

theorem files_of_some {fs : FileSystem} {names : List Text} (h : fs path = some names) :
    fs.files path = names := by
  simp [FileSystem.files, h]

theorem Sound.create (h : Sound directories fs₀ s) {names : List Text} (hp : s.fs path = some names) :
    Sound directories fs₀ {s with
      fs := Function.update s.fs path (some (name :: names))
      activity := mapScan directories path (if listed name then .create name else id) s.activity
      log := .created path name :: s.log} := by
  apply h.change rfl
  · cases hl : listed name with
    | true => exact follows_create hl
    | false => exact follows_id
  · intro p n
    rw [files_update]
    by_cases hpp : p = path
    · subst hpp
      have hf := h.files p n
      rw [files_of_some hp] at hf
      simp only [Option.getD_some, if_true, List.mem_cons, hf, present, decide_true, Bool.true_and,
        Bool.or_eq_true, decide_eq_true_eq]
      exact or_congr_left eq_comm
    · have hpp' : path ≠ p := fun h => hpp h.symm
      simp [present, hpp, hpp', h.files]

theorem Sound.delete (h : Sound directories fs₀ s) {names : List Text} (hp : s.fs path = some names) :
    Sound directories fs₀ {s with
      fs := Function.update s.fs path (some (names.filter (· ≠ name)))
      activity := mapScan directories path (.delete name) s.activity
      log := .deleted path name :: s.log} := by
  apply h.change rfl follows_delete
  intro p n
  rw [files_update]
  by_cases hpp : p = path
  · subst hpp
    have hf := h.files p n
    rw [files_of_some hp] at hf
    simp only [Option.getD_some, if_true, List.mem_filter, hf, present, decide_true, Bool.true_and,
      Bool.and_eq_true, Bool.not_eq_true', decide_eq_true_eq, decide_eq_false_iff_not]
    rw [and_comm, ne_eq, eq_comm]
  · have hpp' : path ≠ p := fun h => hpp h.symm
    simp [present, hpp, hpp', h.files]

theorem Sound.removeDirectory (h : Sound directories fs₀ s) :
    Sound directories fs₀ {s with
      fs := Function.update s.fs path none
      activity := mapScan directories path .clear s.activity
      log := .removed path :: s.log} := by
  apply h.change rfl follows_clear
  intro p n
  rw [files_update]
  by_cases hpp : p = path
  · subst hpp
    simp [present]
  · have hpp' : path ≠ p := fun h => hpp h.symm
    simp [present, hpp, hpp', h.files]

/-! ### The registry goes on -/

theorem Known.mem (h : Known s i name) (ha : ∀ scan after, s.activity ≠ .update i scan after) :
    name ∈ s.coresAtDirectory i := by
  rcases h with hk | ⟨scan, after, hs, -⟩
  · exact hk
  · exact absurd hs (ha scan after)

theorem Sound.mem_of_stays (h : Sound directories fs₀ s) (ha : ∀ scan after, s.activity ≠ .update i scan after)
    (hs : Stays fs₀ s.log path name) (ho : owner directories path = some i) :
    name ∈ s.coresAtDirectory i :=
  (h.known path name i hs ho).mem ha

/-- Nothing else than what the registry is doing changes, and it was not rebuilding a list. -/
theorem Sound.goOn (h : Sound directories fs₀ s) (ha : ∀ i scan after, s.activity ≠ .update i scan after)
    {activity : Activity}
    (hf : Fits directories fs₀ s.log s.coresAtDirectory activity) :
    Sound directories fs₀ {s with activity := activity} where
  files := h.files
  returned := h.returned
  known _ _ i hs ho := .inl (h.mem_of_stays (ha i) hs ho)
  activity := hf
  log := h.log

theorem Sound.startUpdate (h : Sound directories fs₀ s)
    (ha : ∀ i scan after, s.activity ≠ .update i scan after) {after : After}
    (hr : Resumes directories s.log after) :
    Sound directories fs₀ (startUpdate directories i after s) where
  files := h.files
  returned := h.returned
  known := by
    intro p n j hs ho
    by_cases hj : j = i
    · subst hj
      -- Returned and still there: the new iterator must show it.
      refine .inr ⟨openScan directories j s, after, rfl, List.mem_filter.mpr ⟨?_, h.returned p n hs⟩⟩
      rw [directory_of_owner ho]
      exact (h.files p n).mpr hs.present
    · left
      show n ∈ Function.update s.coresAtDirectory i [] j
      rw [Function.update_of_ne hj]
      exact h.mem_of_stays (ha j) hs ho
  activity := ⟨fun n hn => absurd hn List.not_mem_nil, hr⟩
  log := h.log

theorem mem_learn {j : Nat} {new : Text} (h : name ∈ s.coresAtDirectory j) :
    name ∈ (learn i new s).coresAtDirectory j := by
  show name ∈ Function.update s.coresAtDirectory i (s.coresAtDirectory i ++ [new]) j
  by_cases hj : j = i
  · subst hj
    rw [Function.update_self]
    exact List.mem_append_left _ h
  · rwa [Function.update_of_ne hj]

theorem learn_mem : name ∈ (learn i name s).coresAtDirectory i := by
  simp [learn]

theorem Sound.learn (h : Sound directories fs₀ s) {activity : Activity}
    (ha : ∀ i scan after, s.activity ≠ .update i scan after)
    (hf : Fits directories fs₀ s.log (learn i name s).coresAtDirectory activity) :
    Sound directories fs₀ {learn i name s with activity := activity} where
  files := h.files
  returned := h.returned
  known _ _ j hs ho := .inl (mem_learn (h.mem_of_stays (ha j) hs ho))
  activity := hf
  log := h.log

theorem Sound.returns (h : Sound directories fs₀ s) {found : Option Text}
    (hact : s.activity = .lookup path [] found) :
    Sound directories fs₀ {s with activity := .idle, log := .returned path found :: s.log} := by
  have ha : ∀ i scan after, s.activity ≠ .update i scan after := by simp [hact]
  have hfit := h.activity
  rw [hact] at hfit
  obtain ⟨done, hasks, hfound⟩ := hfit
  have hdone : done = List.range directories.length := by simpa using hasks.order.symm
  subst hdone
  have hstays : ∀ p n, Stays fs₀ (.returned path found :: s.log) p n →
      Stays fs₀ s.log p n ∨ p = path ∧ found = some n := by
    intro p n hs
    rcases hs.2 with he | hs
    · cases he
      exact .inr ⟨rfl, rfl⟩
    · exact .inl hs
  constructor
  · exact h.files
  · intro p n hs
    rcases hstays p n hs with hs | ⟨rfl, hn⟩
    · exact h.returned p n hs
    · exact (hfound n hn).listed
  · intro p n i hs ho
    rcases hstays p n hs with hs | ⟨rfl, hn⟩
    · exact .inl (h.mem_of_stays (ha i) hs ho)
    · obtain ⟨j, hj, hmem, -⟩ := (hfound n hn).known
      obtain rfl : i = j := Option.some.inj (ho.symm.trans hj)
      exact .inl hmem
  · trivial
  · cases found with
    | none => exact h.log
    | some n =>
      obtain ⟨j, hj, -, hnew⟩ := (hfound n rfl).known
      exact ⟨⟨(hfound n rfl).listed, (hfound n rfl).there, hnew hj⟩, h.log⟩

theorem Sound.run (h : Sound directories fs₀ s) {answer : Bool} {t : State}
    (hs : run directories answer s = some t) : Sound directories fs₀ t := by
  have hfit := h.activity
  cases hact : s.activity with
  | idle => simp [Registry.run, hact] at hs
  | check path i rest scan => simp [Registry.run, hact] at hs
  | update i scan after => simp [Registry.run, hact] at hs
  | lookup path rest found =>
    have ha : ∀ i scan after, s.activity ≠ .update i scan after := by simp [hact]
    rw [hact] at hfit
    cases rest with
    | nil =>
      simp only [Registry.run, hact, Option.some.injEq] at hs
      subst hs
      exact h.returns hact
    | cons i rest =>
      obtain ⟨done, hasks, hfound⟩ := hfit
      simp only [Registry.run, hact] at hs
      split at hs
      · rename_i hdir
        cases hs
        apply h.goOn ha
        refine ⟨hdir, ⟨done, hasks⟩, fun n hn => ?_⟩
        obtain ⟨hn, hlisted⟩ := List.mem_filter.mp hn
        rw [hdir, h.files] at hn
        obtain ⟨e, log, hlog⟩ := List.exists_cons_of_ne_nil hasks.called
        rw [hlog] at hn ⊢
        exact ⟨hlisted, thereDuringCall_of_present hn⟩
      · rename_i hdir
        cases hs
        apply h.goOn ha
        refine ⟨done ++ [i], hasks.snoc, fun n hn => ?_⟩
        obtain ⟨hlisted, hthere, hknown⟩ := hfound n hn
        refine ⟨hlisted, hthere, ?_⟩
        rwa [lastOf_snoc, if_neg hdir]
  | signal slot rest =>
    have ha : ∀ i scan after, s.activity ≠ .update i scan after := by simp [hact]
    cases rest with
    | nil =>
      simp only [Registry.run, hact, Option.some.injEq] at hs
      subst hs
      exact h.goOn ha trivial
    | cons i rest =>
      cases slot with
      | updateCoreList =>
        simp only [Registry.run, hact, Option.some.injEq] at hs
        subst hs
        exact h.startUpdate ha trivial
      | createCoreDirectory =>
        simp only [Registry.run, hact] at hs
        split at hs
        · cases hs
          exact h.goOn ha trivial
        · split at hs
          · cases hs
            exact h.startUpdate ha trivial
          · rename_i hnone
            cases hs
            apply h.goOn ha
            intro n hstays
            have hmem := (h.files _ n).mpr hstays.present
            rw [Option.not_isSome_iff_eq_none] at hnone
            simp [FileSystem.files, hnone] at hmem
  | mkdir i rest =>
    have ha : ∀ i scan after, s.activity ≠ .update i scan after := by simp [hact]
    rw [hact] at hfit
    have hcleared (fs : FileSystem) (hfiles : ∀ p, fs.files p = s.fs.files p) :
        Sound directories fs₀ {s with
          fs := fs
          coresAtDirectory := Function.update s.coresAtDirectory i []
          activity := .signal .createCoreDirectory rest} := by
      constructor
      · intro p n
        rw [hfiles]
        exact h.files p n
      · exact h.returned
      · intro p n j hs ho
        left
        have hj : j ≠ i := by
          rintro rfl
          exact hfit n (directory_of_owner ho ▸ hs)
        show n ∈ Function.update s.coresAtDirectory i [] j
        rw [Function.update_of_ne hj]
        exact h.mem_of_stays (ha j) hs ho
      · trivial
      · exact h.log
    simp only [Registry.run, hact] at hs
    split at hs
    · cases hs
      exact hcleared s.fs fun _ => rfl
    · split at hs
      · exact nomatch hs
      · rename_i hnone
        cases hs
        apply hcleared
        intro p
        rw [files_update]
        rw [Option.not_isSome_iff_eq_none] at hnone
        by_cases hp : p = directory directories i
        · subst hp
          simp [FileSystem.files, hnone]
        · rw [if_neg hp]

theorem Sound.next (h : Sound directories fs₀ s) {t : State} (hs : next name s = some t) :
    Sound directories fs₀ t := by
  have hfit := h.activity
  cases hact : s.activity with
  | idle => simp [Registry.next, hact] at hs
  | lookup path rest found => simp [Registry.next, hact] at hs
  | signal slot rest => simp [Registry.next, hact] at hs
  | mkdir i rest => simp [Registry.next, hact] at hs
  | check path i rest scan =>
    have ha : ∀ i scan after, s.activity ≠ .update i scan after := by simp [hact]
    rw [hact] at hfit
    obtain ⟨hdir, ⟨done, hasks⟩, hsince⟩ := hfit
    simp only [Registry.next, hact, Bool.not_eq_true'] at hs
    split at hs
    · exact nomatch hs
    · rename_i hshown
      have hname : name ∈ scan.since := by simpa using hshown
      split at hs
      · rename_i hnew
        cases hs
        obtain ⟨hlisted, hthere⟩ := hsince name hname
        apply h.learn ha
        refine ⟨done ++ [i], hasks.snoc, fun n hn => ?_⟩
        cases hn
        refine ⟨hlisted, hthere, i, by rw [lastOf_snoc, if_pos hdir], learn_mem, fun ho hstays => ?_⟩
        have hmem := h.mem_of_stays (ha i) hstays ho
        simp [hmem] at hnew
      · cases hs
        exact h.goOn ha ⟨hdir, ⟨done, hasks⟩, hsince⟩
  | update i scan after =>
    rw [hact] at hfit
    obtain ⟨hshown, hresumes⟩ := hfit
    simp only [Registry.next, hact] at hs
    split at hs
    · exact nomatch hs
    · cases hs
      constructor
      · exact h.files
      · exact h.returned
      · intro p n j hstays ho
        rcases h.known p n j hstays ho with hk | ⟨scan', after', hup, hn⟩
        · exact .inl (mem_learn hk)
        · rw [hact] at hup
          cases hup
          exact .inr ⟨scan.advance name, after, rfl, hn⟩
      · refine ⟨fun n hn => ?_, hresumes⟩
        rcases List.mem_cons.mp hn with rfl | hn
        · exact learn_mem
        · exact mem_learn (hshown n hn)
      · exact h.log

theorem Fits.resume {log : List Entry} {cores : Nat → List Text} {after : After}
    (h : Resumes directories log after) : Fits directories fs₀ log cores after.resume := by
  cases after with
  | signal slot rest => trivial
  | lookup path rest =>
    obtain ⟨done, hasks⟩ := h
    exact ⟨done, hasks, fun n hn => nomatch hn⟩

theorem Sound.atEnd (h : Sound directories fs₀ s) {t : State} (hs : atEnd directories s = some t) :
    Sound directories fs₀ t := by
  have hfit := h.activity
  cases hact : s.activity with
  | idle => simp [Registry.atEnd, hact] at hs
  | lookup path rest found => simp [Registry.atEnd, hact] at hs
  | signal slot rest => simp [Registry.atEnd, hact] at hs
  | mkdir i rest => simp [Registry.atEnd, hact] at hs
  | check path i rest scan =>
    have ha : ∀ i scan after, s.activity ≠ .update i scan after := by simp [hact]
    rw [hact] at hfit
    obtain ⟨-, ⟨done, hasks⟩, -⟩ := hfit
    simp only [Registry.atEnd, hact] at hs
    split at hs
    · cases hs
      exact h.startUpdate ha ⟨done ++ [i], hasks.snoc⟩
    · exact nomatch hs
  | update i scan after =>
    rw [hact] at hfit
    obtain ⟨hshown, hresumes⟩ := hfit
    simp only [Registry.atEnd, hact] at hs
    split at hs
    · rename_i hall
      cases hs
      constructor
      · exact h.files
      · exact h.returned
      · intro p n j hstays ho
        rcases h.known p n j hstays ho with hk | ⟨scan', after', hup, hn⟩
        · exact .inl hk
        · rw [hact] at hup
          cases hup
          have hn' := List.all_eq_true.mp hall n hn
          exact .inl (hshown n (by simpa using hn'))
      · exact .resume hresumes
      · exact h.log
    · exact nomatch hs

theorem Fits.signal {log : List Entry} {cores : Nat → List Text} (slot : Slot) (rest : List Nat) :
    Fits directories fs₀ log cores (.signal slot rest) := trivial

theorem Sound.call (h : Sound directories fs₀ s) {activity : Activity} {t : State}
    (hf : Fits directories fs₀ s.log s.coresAtDirectory activity) (hs : call activity s = some t) :
    Sound directories fs₀ t := by
  unfold Registry.call at hs
  split at hs
  · rename_i hidle
    cases hs
    exact h.goOn (by simp [hidle]) hf
  · exact nomatch hs

theorem Sound.checks (h : Sound directories fs₀ s) (hidle : s.activity = .idle) :
    Sound directories fs₀ {s with
      activity := .lookup path (List.range directories.length) none
      log := .called path :: s.log} where
  files := h.files
  returned p n hs := h.returned p n (hs.of_cons (by simp))
  known _ _ i hs ho := .inl (h.mem_of_stays (by simp [hidle]) (hs.of_cons (by simp)) ho)
  activity := ⟨[], ⟨List.cons_ne_nil _ _, rfl⟩, fun n hn => nomatch hn⟩
  log := h.log

theorem Sound.step (h : Sound directories fs₀ s) {e : Step} {t : State}
    (hs : (registry directories).step s e = some t) : Sound directories fs₀ t := by
  cases e with
  | create path name =>
    simp only [registry] at hs
    split at hs
    · exact nomatch hs
    · rename_i names hp
      split at hs
      · exact nomatch hs
      · cases hs
        exact h.create hp
  | delete path name =>
    simp only [registry] at hs
    split at hs
    · exact nomatch hs
    · rename_i names hp
      split at hs
      · exact nomatch hs
      · cases hs
        exact h.delete hp
  | makeDirectory path =>
    simp only [registry] at hs
    split at hs
    · exact nomatch hs
    · rename_i hnone
      cases hs
      rw [Option.not_isSome_iff_eq_none] at hnone
      refine ⟨fun p n => ?_, h.returned, h.known, h.activity, h.log⟩
      rw [files_update]
      by_cases hp : p = path
      · subst hp
        have hf := h.files p n
        rw [FileSystem.files, hnone] at hf
        simpa using hf
      · rw [if_neg hp]
        exact h.files p n
  | removeDirectory path =>
    simp only [registry] at hs
    split at hs
    · exact nomatch hs
    · cases hs
      exact h.removeDirectory
  | checkDirectoryForCores path =>
    simp only [registry, Registry.call] at hs
    split at hs
    · rename_i hidle
      cases hs
      exact h.checks hidle
    · exact nomatch hs
  | refreshRegistry => exact h.call (.signal _ _) hs
  | coreLocationsUpdated => exact h.call (.signal _ _) hs
  | updateCoreList i => exact h.call (.signal _ _) hs
  | createCoreDirectory i => exact h.call (.signal _ _) hs
  | run answer => exact h.run hs
  | next name => exact h.next hs
  | atEnd => exact h.atEnd hs

theorem sound_start (fs : FileSystem) : Sound directories fs (start fs) where
  files p n := by simp [present, start]
  returned _ _ h := nomatch h
  known _ _ _ h := nomatch h
  activity := trivial
  log := trivial

theorem Right.at {post pre : List Entry} (h : Right fs₀ (post ++ .returned path (some name) :: pre)) :
    listed name = true ∧ ThereDuringCall fs₀ pre path name ∧ ¬ Stays fs₀ pre path name := by
  induction post with
  | nil => exact h.1
  | cons e post ih =>
    cases e with
    | returned p found =>
      cases found with
      | none => exact ih h
      | some n => exact ih h.2
    | called => exact ih h
    | created => exact ih h
    | deleted => exact ih h
    | removed => exact ih h

/-- A file that `checkDirectoryForCores` returns is a report that was in the directory
during the call; and when it had been returned before, it was away in between. -/
theorem announced_once (directories : List Text) (fs : FileSystem) (events : List Step) :
    ∀ s ∈ (registry directories).visits events (start fs), ∀ post pre path name,
      s.log = post ++ .returned path (some name) :: pre →
      validateCore name = true ∧ ThereDuringCall fs pre path name ∧
      ∀ mid older, pre = mid ++ .returned path (some name) :: older →
        ∃ later earlier, mid = later ++ earlier ∧
          present fs (earlier ++ .returned path (some name) :: older) path name = false := by
  intro s hs post pre path name hlog
  have hsound : Sound directories fs s :=
    Machine.visits_invariant (G := fun _ _ => True) (fun _ _ _ h _ hstep => h.step hstep)
      (sound_start fs) (Machine.within_true events _) s hs
  have hright := hsound.log
  rw [hlog] at hright
  obtain ⟨hlisted, hthere, hstays⟩ := hright.at
  refine ⟨CoreDir.validateCore_of_listed hlisted, hthere, ?_⟩
  rintro mid older rfl
  exact away_of_not_stays hstays

def corePath : Text := "/var/cache/core-dumps".toList
def report : Text := "app.rcore".toList

/-- A report is announced, deleted, noticed to be away, and comes back. -/
def comesBack : List Step :=
  [.create corePath report,
    .checkDirectoryForCores corePath, .run true, .next report, .run true,
    .delete corePath report,
    .checkDirectoryForCores corePath, .run true, .atEnd, .atEnd, .run true,
    .create corePath report,
    .checkDirectoryForCores corePath, .run true, .next report, .run true]

/-- It is announced again, having been away in between. -/
theorem announced_once_again : ∃ s ∈ (registry [corePath]).visits comesBack (start fun _ => some []),
    ∃ pre mid older, s.log = .returned corePath (some report) :: pre ∧
      pre = mid ++ .returned corePath (some report) :: older ∧
      ∃ later earlier, mid = later ++ earlier ∧ present (fun _ => some [])
        (earlier ++ .returned corePath (some report) :: older) corePath report = false := by
  have hne : (registry [corePath]).visits comesBack (start fun _ => some []) ≠ [] :=
    List.ne_nil_of_length_pos (by decide)
  have hs := List.getLast_mem hne
  have hlog : (((registry [corePath]).visits comesBack (start fun _ => some [])).getLast hne).log =
      .returned corePath (some report) :: ([.called corePath, .created corePath report,
        .returned corePath none, .called corePath, .deleted corePath report] ++
        .returned corePath (some report) :: [.called corePath, .created corePath report]) := by
    rfl
  exact ⟨_, hs, _, _, _, hlog, rfl,
    (announced_once _ _ _ _ hs [] _ _ _ hlog).2.2 _ _ rfl⟩

/-! ### An undisturbed check -/

/-- When nobody interferes, the small steps do what `CoreDir.checkDirectoryForCores` does. -/
theorem scan_finds {rest : List Nat} {scan : Scan} {d d' : CoreDir} {listing : List Text} {file : Text}
    (hact : s.activity = .check path i rest scan) (hd : d.coresAtDirectory = s.coresAtDirectory i)
    (hl : ∀ n ∈ listing, n ∈ scan.since) (h : d.checkDirectoryForCores listing = some (file, d')) :
    ∃ events name, file = d.filePath name ∧
      {s with
        coresAtDirectory := Function.update s.coresAtDirectory i d'.coresAtDirectory
        activity := .lookup path rest (some name)} ∈ (registry directories).visits events s := by
  induction listing generalizing s scan with
  | nil => exact nomatch h
  | cons n listing ih =>
    have hn : scan.since.contains n = true := by simpa using hl n List.mem_cons_self
    simp only [CoreDir.checkDirectoryForCores, List.find?_cons] at h
    cases hnew : !d.coresAtDirectory.contains n && validateCore n with
    | true =>
      simp only [hnew, Option.map_some, Option.some.injEq, Prod.mk.injEq] at h
      obtain ⟨rfl, rfl⟩ := h
      refine ⟨[.next n], n, rfl, ?_⟩
      rw [hd] at hnew
      have hstep : (registry directories).step s (.next n) =
          some {learn i n s with activity := .lookup path rest (some n)} := by
        simp only [registry, Registry.next, hact, hn, hnew, Bool.not_true, if_true]
        rfl
      rw [Machine.visits_cons hstep, hd]
      exact List.mem_cons_self
    | false =>
      simp only [hnew] at h
      rw [hd] at hnew
      have hstep : (registry directories).step s (.next n) =
          some {s with activity := .check path i rest (scan.advance n)} := by
        simp only [registry, Registry.next, hact, hn, hnew, Bool.not_true]
        rfl
      obtain ⟨events, name, hfile, hmem⟩ := ih (s := {s with activity := .check path i rest (scan.advance n)})
        rfl hd (fun m hm => hl m (List.mem_cons_of_mem _ hm)) h
      refine ⟨.next n :: events, name, hfile, ?_⟩
      rw [Machine.visits_cons hstep]
      exact List.mem_cons_of_mem _ hmem

end Sound

end Registry

end CrashReporter.Monitor
