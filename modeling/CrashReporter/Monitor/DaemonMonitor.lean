import CrashReporter.Monitor.CoreDir
import CrashReporter.Upload.World
import CrashReporter.Reactor

/-! `CReporterDaemonMonitor`, watching a core directory that stays in place.

`monitor` is the event machine of the monitor and the directory. Files come and go at
any time, between deliveries of directoryChanged() and while one is handled; each
change is delivered, several may be merged into one delivery, and the last change is
always followed by one. -/
namespace CrashReporter.Monitor
open Text Reactor

structure Settings where
  notificationsEnabled : Bool
  autoDeleteDuplicates : Bool
  automaticSendingEnabled : Bool
deriving DecidableEq

/-- The summary of a crash notification. -/
inductive Notice where
  | quickieReady | enduranceReady | powerExcess
  | appTerminated (appName : Text)
  | appCrashed (appName : Text)
deriving DecidableEq

inductive Output where
  /-- What happens to the directory. -/
  | created (name : Text)
  | deleted (name : Text)
  | richCoreNotify (filePath : Text)
  | crashedAgain (appName : Text)
  | removed (filePath : Text)
  /-- With the total when it is more than one. -/
  | crashNotified (notice : Notice) (total : Option Nat) (itemCount : Nat)
  | notifyAutoUploader (files : List Text)
deriving DecidableEq

/-- The rest of a function that has not returned. -/
inductive Call where
  /-- `checkDirectoryForCores` has found nothing new. -/
  | updateCoreList
  /-- handleDirectoryChanged(), after richCoreNotify(). -/
  | richCoreFound (filePath : Text)
deriving DecidableEq

structure State where
  dir : CoreDir
  /-- Deliveries of directoryChanged() to come. -/
  pending : Nat
  /-- A report that the monitor removes is merged with the change before it, when that is
  still to be delivered. -/
  removalMerged : Bool
  settings : Settings
  env : Upload.Environment
  now : Int
  autoDeleteMaxSimilarCores : Int
  handledRichCores : List HandledRichCore
  crashCount : Nat
  log : List Output

namespace State

def emit (s : State) (o : Output) : State := {s with log := o :: s.log}

end State

/-- SIGQUIT. -/
def sigquit : Int := 3

/-- The notification of a new report, and the crashes counted. -/
def notice (filePath appName : Text) (isUserTerminated : Bool) (crashCount : Nat) : Notice × Nat :=
  if "Quickie".toList <:+: filePath then (.quickieReady, crashCount)
  else if "Endurance".toList <:+: filePath then (.enduranceReady, crashCount)
  else if "PowerExcess".toList <:+: filePath then (.powerExcess, crashCount)
  else if isUserTerminated then (.appTerminated appName, crashCount)
  else (.appCrashed appName, crashCount + 1)

def publish (filePath appName : Text) (isUserTerminated : Bool) (s : State) : State :=
  if s.settings.notificationsEnabled then
    let (n, crashCount) := notice filePath appName isUserTerminated s.crashCount
    let total := if s.crashCount < crashCount ∧ 1 < crashCount then some crashCount else none
    {s with crashCount := crashCount}.emit (.crashNotified n total crashCount)
  else s

/-- `handleDirectoryChanged`, up to richCoreNotify(). -/
def handleDirectoryChanged (listing : List Text) (s : State) : State × List Call :=
  match s.dir.checkDirectoryForCores listing with
  | none => (s, [.updateCoreList])
  | some (filePath, dir) =>
    ({s with dir := dir}.emit (.richCoreNotify filePath), [.richCoreFound filePath])

/-- The deliveries to come after one more change. -/
def notified (merged : Bool) (pending : Nat) : Nat := if merged then max pending 1 else pending + 1

/-- The report is one too many, and its removal one more change of the directory. -/
def dropDuplicate (filePath appName : Text) (s : State) : State :=
  let s := if s.settings.notificationsEnabled then s.emit (.crashedAgain appName) else s
  {s with
    dir := s.dir.removeFile filePath
    pending := notified s.removalMerged s.pending}.emit (.removed filePath)

/-- The report is kept, and all reports are uploaded when that may be done now. -/
def autoUpload (filePath appName : Text) (isUserTerminated : Bool) (s : State) : State :=
  if !s.settings.automaticSendingEnabled then s
  else
    let s := publish filePath appName isUserTerminated s
    if !s.env.canUseNetworkConnection || s.env.shouldSavePower then s
    else s.emit (.notifyAutoUploader s.dir.collectAllCoreFilesAtLocation)

/-- The rest of `handleDirectoryChanged`. -/
def richCoreFound (filePath : Text) (s : State) : State :=
  let details := parseCrashInfoFromFilename filePath
  let isUserTerminated : Bool := toInt (details.getD 2 []) = sigquit
  let appName := details.getD 0 []
  let checked :=
    if !isUserTerminated && s.settings.autoDeleteDuplicates then
      checkForDuplicates s.autoDeleteMaxSimilarCores s.now filePath s.handledRichCores
    else (false, s.handledRichCores)
  let s := {s with handledRichCores := checked.2}
  if checked.1 then dropDuplicate filePath appName s
  else autoUpload filePath appName isUserTerminated s

inductive Event where
  /-- A file appears under a new name. -/
  | create (name : Text) (merged : Bool)
  | delete (name : Text) (merged : Bool)
  /-- directoryChanged() is delivered; the directory lists its files in this order. -/
  | directoryChanged (listing : List Text)
  | settings (settings : Settings) (autoDeleteMaxSimilarCores : Int)
  | environment (env : Upload.Environment)
  | clock (now : Int)
  | removal (merged : Bool)
deriving DecidableEq

def deliver (ev : Event) (s : State) : Option (State × List Call) :=
  match ev with
  | .create name merged =>
    if name ∈ s.dir.files then none
    else some ({s with dir := s.dir.create name, pending := notified merged s.pending}.emit
      (.created name), [])
  | .delete name merged =>
    if name ∈ s.dir.files then
      some ({s with
        dir := s.dir.removeFile (s.dir.filePath name)
        pending := notified merged s.pending}.emit (.deleted name), [])
    else none
  | .directoryChanged listing =>
    if 0 < s.pending ∧ s.dir.lists listing then
      some (handleDirectoryChanged listing {s with pending := s.pending - 1})
    else none
  | .settings settings maximum =>
    some ({s with settings := settings, autoDeleteMaxSimilarCores := maximum}, [])
  | .environment env => some ({s with env := env}, [])
  | .clock now => some ({s with now := now}, [])
  | .removal merged => some ({s with removalMerged := merged}, [])

def exec (call : Call) (s : State) : State × List Call :=
  match call with
  | .updateCoreList => ({s with dir := s.dir.updateCoreList}, [])
  | .richCoreFound filePath => (richCoreFound filePath s, [])

/-- Only deliveries wait until the one before is handled. -/
def admits : Event → List Call → Bool
  | .directoryChanged _, _ :: _ => false
  | _, _ => true

def monitor : Reactor State Call Event := ⟨exec, deliver, admits⟩

abbrev Config := Reactor.Config State Call
abbrev Action := Reactor.Action Event

/-- The monitor has just refreshed the registry and starts to watch. -/
def watching (directory : Text) (files : List Text) (settings : Settings) (env : Upload.Environment)
    (now autoDeleteMaxSimilarCores : Int) : State where
  dir := CoreDir.updateCoreList ⟨directory, files, []⟩
  pending := 0
  removalMerged := false
  settings := settings
  env := env
  now := now
  autoDeleteMaxSimilarCores := autoDeleteMaxSimilarCores
  handledRichCores := []
  crashCount := 0
  log := []

/-! ### Reports that have not been announced -/

/-- The valid reports created while being watched, without those that were deleted or
announced since. -/
def unannounced (directory : Text) : List Output → List Text
  | [] => []
  | .created name :: log =>
    if listed name then name :: unannounced directory log else unannounced directory log
  | .deleted name :: log => (unannounced directory log).filter (· ≠ name)
  | .richCoreNotify path :: log => (unannounced directory log).filter (filePathIn directory · ≠ path)
  | .removed path :: log => (unannounced directory log).filter (filePathIn directory · ≠ path)
  | _ :: log => unannounced directory log

def State.unannounced (s : State) : List Text := Monitor.unannounced s.dir.directory s.log

variable {s : State}

/-- What is not known of a directory is what was not announced, and a delivery is to
come while something is not. -/
structure Watched (s : State) : Prop where
  present : ∀ name ∈ s.unannounced, name ∈ s.dir.files ∧ listed name = true
  known : ∀ name ∈ s.dir.files, listed name = true →
    name ∈ s.dir.coresAtDirectory ∨ name ∈ s.unannounced
  settled : s.pending = 0 → s.unannounced = []

/-- Steps that do nothing to the directory. -/
theorem Watched.of_same {s' : State} (h : Watched s) (hd : s'.dir = s.dir)
    (hu : s'.unannounced = s.unannounced) (hp : s'.pending = s.pending) : Watched s' := by
  constructor
  · rw [hu, hd]
    exact h.present
  · rw [hu, hd]
    exact h.known
  · rw [hu, hp]
    exact h.settled

theorem notified_pos (merged : Bool) (pending : Nat) : notified merged pending ≠ 0 := by
  unfold notified
  split <;> omega

theorem Watched.create (h : Watched s) {name : Text} (merged : Bool) :
    Watched ({s with dir := s.dir.create name, pending := notified merged s.pending}.emit
      (.created name)) := by
  have hu (other : Text) : other ∈ ({s with dir := s.dir.create name, pending := notified merged s.pending}.emit
      (.created name)).unannounced ↔ other = name ∧ listed name = true ∨ other ∈ s.unannounced := by
    simp only [State.unannounced, State.emit, CoreDir.create, unannounced]
    split <;> simp_all
  refine ⟨fun other ho => ?_, fun other ho hl => ?_, fun hp => absurd hp (notified_pos _ _)⟩
  · rcases (hu other).mp ho with ⟨rfl, hl⟩ | ho
    · exact ⟨by simp [State.emit, CoreDir.create], hl⟩
    · obtain ⟨hf, hl⟩ := h.present other ho
      exact ⟨List.mem_append_left _ hf, hl⟩
  · rw [hu]
    rcases List.mem_append.mp ho with ho | ho
    · exact (h.known other ho hl).imp id .inr
    · obtain rfl := List.mem_singleton.mp ho
      exact .inr (.inl ⟨rfl, hl⟩)

/-- A file goes, and with it what has to be said about it. -/
theorem Watched.remove (h : Watched s) {path : Text} {pending : Nat} (hp : pending ≠ 0) {s' : State}
    (hd : s'.dir = s.dir.removeFile path) (hpending : s'.pending = pending)
    (hu : s'.unannounced = s.unannounced.filter (s.dir.filePath · ≠ path)) : Watched s' := by
  refine ⟨fun name hn => ?_, fun name hn hl => ?_, fun h0 => absurd (hpending ▸ h0) hp⟩
  · rw [hu, List.mem_filter] at hn
    rw [hd]
    obtain ⟨hf, hl⟩ := h.present name hn.1
    exact ⟨List.mem_filter.mpr ⟨hf, hn.2⟩, hl⟩
  · rw [hd] at hn ⊢
    obtain ⟨hf, hne⟩ := List.mem_filter.mp hn
    rw [hu, List.mem_filter]
    exact (h.known name hf hl).imp id fun ho => ⟨ho, hne⟩

theorem publish_same (filePath appName : Text) (isUserTerminated : Bool) (s : State) :
    (publish filePath appName isUserTerminated s).dir = s.dir ∧
      (publish filePath appName isUserTerminated s).pending = s.pending ∧
      (publish filePath appName isUserTerminated s).unannounced = s.unannounced := by
  unfold publish
  split <;> exact ⟨rfl, rfl, rfl⟩

theorem Watched.dropDuplicate (h : Watched s) (filePath appName : Text) :
    Watched (Monitor.dropDuplicate filePath appName s) := by
  have hnotify : Watched (if s.settings.notificationsEnabled then s.emit (.crashedAgain appName) else s) := by
    split
    · exact h.of_same rfl rfl rfl
    · exact h
  unfold Monitor.dropDuplicate
  generalize (if s.settings.notificationsEnabled then s.emit (.crashedAgain appName) else s) = t at hnotify
  exact hnotify.remove (notified_pos t.removalMerged t.pending) rfl rfl rfl

theorem Watched.autoUpload (h : Watched s) (filePath appName : Text) (isUserTerminated : Bool) :
    Watched (Monitor.autoUpload filePath appName isUserTerminated s) := by
  obtain ⟨hd, hp, hu⟩ := publish_same filePath appName isUserTerminated s
  unfold Monitor.autoUpload
  dsimp only
  split
  · exact h
  · split
    · exact h.of_same hd hu hp
    · exact h.of_same hd hu hp

theorem Watched.richCoreFound (h : Watched s) (filePath : Text) :
    Watched (Monitor.richCoreFound filePath s) := by
  have hset (handled : List HandledRichCore) : Watched {s with handledRichCores := handled} :=
    ⟨h.present, h.known, h.settled⟩
  unfold Monitor.richCoreFound
  extract_lets details isUserTerminated appName checked t
  split
  · exact (hset checked.2).dropDuplicate _ _
  · exact (hset checked.2).autoUpload _ _ _

theorem Watched.updateCoreList (h : Watched s) :
    Watched {s with dir := s.dir.updateCoreList} where
  present := h.present
  known _ hn hl := .inl (List.mem_filter.mpr ⟨hn, hl⟩)
  settled := h.settled

theorem Watched.exec (h : Watched s) (k : Call) : Watched (exec k s).1 := by
  cases k with
  | updateCoreList => exact h.updateCoreList
  | richCoreFound filePath => exact h.richCoreFound filePath

/-- A delivery after which none is to come finds at most one report that has not been
announced, and its name is not in the list. -/
def OneLeft : Guard State Call Event := fun x a => ∀ listing, a = .event (.directoryChanged listing) →
  x.state.pending = 1 → ∀ name ∈ x.state.unannounced,
    name ∉ x.state.dir.coresAtDirectory ∧ ∀ other ∈ x.state.unannounced, other = name

/-- The check announces a report that was not announced, or there is none. -/
theorem Watched.handleDirectoryChanged (h : Watched s) {listing : List Text}
    (hl : s.dir.lists listing = true) (hpos : 0 < s.pending)
    (hlast : s.pending = 1 → ∀ name ∈ s.unannounced,
      name ∉ s.dir.coresAtDirectory ∧ ∀ other ∈ s.unannounced, other = name) :
    Watched (handleDirectoryChanged listing {s with pending := s.pending - 1}).1 := by
  unfold Monitor.handleDirectoryChanged
  dsimp only
  cases hc : s.dir.checkDirectoryForCores listing with
  | none =>
    have hknown {name : Text} (hn : name ∈ s.unannounced) : name ∈ s.dir.coresAtDirectory :=
      CoreDir.checkDirectoryForCores_none hl hc (h.present name hn).1 (h.present name hn).2
    refine ⟨h.present, h.known, fun hp => ?_⟩
    -- An unannounced report would have been found.
    refine List.eq_nil_iff_forall_not_mem.mpr fun name hn => ?_
    have hone : s.pending = 1 := by
      dsimp only at hp
      omega
    exact (hlast hone name hn).1 (hknown hn)
  | some r =>
    obtain ⟨path, d'⟩ := r
    obtain ⟨name, rfl, hf, hlisted, hnew, rfl⟩ := CoreDir.checkDirectoryForCores_some hl hc
    have hfound : name ∈ s.unannounced := (h.known name hf hlisted).resolve_left hnew
    have hu (other : Text) : other ∈ s.unannounced.filter (s.dir.filePath · ≠ s.dir.filePath name) ↔
        other ∈ s.unannounced ∧ other ≠ name := by
      simp [CoreDir.filePath, filePathIn_inj]
    refine ⟨fun other ho => h.present other ((hu other).mp ho).1, fun other ho hol => ?_, fun hp => ?_⟩
    · by_cases he : other = name
      · exact .inl (List.mem_append_right _ (List.mem_singleton.mpr he))
      · exact (h.known other ho hol).imp (List.mem_append_left _) fun ho => (hu other).mpr ⟨ho, he⟩
    · refine List.eq_nil_iff_forall_not_mem.mpr fun other ho => ?_
      obtain ⟨ho, hne⟩ := (hu other).mp ho
      have hone : s.pending = 1 := by
        dsimp only [State.emit] at hp
        omega
      exact hne ((hlast hone name hfound).2 other ho)

theorem watched_of_reaches {directory : Text} {files : List Text} {settings : Settings}
    {env : Upload.Environment} {now maximum : Int} {x : Config}
    (hx : Reaches monitor OneLeft ⟨watching directory files settings env now maximum, []⟩ x) :
    Watched x.state := by
  refine hx.invariant (I := fun x => Watched x.state) ?_ ?_ ?_
  · refine ⟨?_, fun name hn hl => .inl (List.mem_filter.mpr ⟨hn, hl⟩), fun _ => rfl⟩
    simp [watching, State.unannounced, unannounced]
  · intro s k rest _ _ h
    exact h.exec k
  · intro s stack ev r _ hg _ hr h
    cases ev with
    | create name merged =>
      simp only [monitor, deliver, Option.ite_none_left_eq_some, Option.some.injEq] at hr
      obtain ⟨-, rfl⟩ := hr
      exact h.create merged
    | delete name merged =>
      simp only [monitor, deliver, Option.ite_none_right_eq_some, Option.some.injEq] at hr
      obtain ⟨-, rfl⟩ := hr
      refine h.remove (notified_pos merged s.pending) rfl rfl ?_
      simp [State.unannounced, State.emit, unannounced, CoreDir.removeFile, CoreDir.filePath, filePathIn_inj]
    | directoryChanged listing =>
      simp only [monitor, deliver, Option.ite_none_right_eq_some, Option.some.injEq] at hr
      obtain ⟨⟨hpos, hl⟩, rfl⟩ := hr
      exact h.handleDirectoryChanged hl hpos (hg listing rfl)
    | settings | environment | clock | removal =>
      cases hr
      exact h.of_same rfl rfl rfl

/-- An empty directory. -/
def emptyDirectory : Config :=
  ⟨watching "/cores".toList [] ⟨true, false, false⟩ .wlan 0 10, []⟩

def first : Text := "a-1-11-1.rcore".toList
def second : Text := "b-1-11-2.rcore".toList

/-- A report appears and is announced. -/
def announceFirst : List Action :=
  [.event (.create first false), .event (.directoryChanged [first]), .run]

def firstAnnounced : Config := (monitor.run announceFirst emptyDirectory).get (by decide +kernel)

/-- The guard, computed, for every delivery. -/
def oneLeft (x : Config) : Action → Bool
  | .event (.directoryChanged _) => match x.state.unannounced with
    | [] => true
    | [name] => !x.state.dir.coresAtDirectory.contains name
    | _ => false
  | _ => true

theorem oneLeft_sound (x : Config) (a : Action) (h : oneLeft x a = true) : OneLeft x a := by
  rintro listing rfl - name hn
  cases hl : x.state.unannounced with
  | nil => simp [hl] at hn
  | cons n rest =>
    cases rest with
    | nil => simp_all [oneLeft]
    | cons m rest => simp [oneLeft, hl] at h

/-- Two reports appear in one change. -/
def announceOneOfTwo : List Action :=
  [.event (.create first false), .event (.create second true), .event (.directoryChanged [first, second]),
    .run]

/-- The report is deleted and written again in one change. -/
def missSameName : List Action := announceFirst ++
  [.event (.delete first false), .event (.create first true), .event (.directoryChanged [first]), .run]

def oneOfTwo : Config := (monitor.run announceOneOfTwo emptyDirectory).get (by decide +kernel)

def sameName : Config := (monitor.run missSameName emptyDirectory).get (by decide +kernel)

end CrashReporter.Monitor
