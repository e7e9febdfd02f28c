import CrashReporter.Link
import CrashReporter.Monitor.Surplus
import CrashReporter.Upload.Removal

/-! The daemon and the uploader, and the reports in a core directory.

Both remove reports, and so may the user, while others are written. Each program sees what
the other one has removed: the monitor as a change of its directory, the uploader when it
opens a file. Either may end at any time, and another process takes its place. -/
namespace CrashReporter.System
open Reactor

def reportPath (directory name : Text) : Upload.Path := String.ofList (Monitor.filePathIn directory name)

/-- What others do in the directory. -/
inductive Change where
  /-- A report is written under a new name. -/
  | written (name : Text) (file : Upload.File) (merged : Bool)
  | deleted (name : Text) (merged : Bool)

structure DaemonStart where
  settings : Monitor.Settings
  env : Upload.Environment
  now : Int
  autoDeleteMaxSimilarCores : Int

structure UploaderStart where
  env : Upload.Environment
  coreLocations : List Upload.Path
  uploadLogWritable : Bool

def DaemonStart.monitor (directory : Text) (files : List Text) (p : DaemonStart) : Monitor.Config :=
  ⟨Monitor.watching directory files p.settings p.env p.now p.autoDeleteMaxSimilarCores, []⟩

def UploaderStart.uploader (files : Upload.Path → Option Upload.File) (p : UploaderStart) : Upload.Config :=
  ⟨Upload.blank p.env files p.coreLocations p.uploadLogWritable, []⟩

/-- The monitor is told, perhaps together with another change, of the reports that the
uploader has removed. -/
def reports (directory : Text) :
    Link Monitor.monitor Upload.uploader Bool DaemonStart UploaderStart Change where
  ownLeft
    | .event (.create ..) | .event (.delete ..) => false
    | _ => true
  ownRight
    | .event (.file ..) => false
    | _ => true
  tellRight _ x x' _ := (x.state.dir.files.filter fun name => !x'.state.dir.files.contains name).map fun name =>
    .file (reportPath directory name) none
  tellLeft merged x _ y' := (x.state.dir.files.filter fun name =>
    (y'.state.files (reportPath directory name)).isNone).map fun name => .delete name merged
  outside
    | .written name file merged => (.create name merged, .file (reportPath directory name) (some file))
    | .deleted name merged => (.delete name merged, .file (reportPath directory name) none)
  startLeft p x := p.monitor directory x.state.dir.files
  startRight p y := p.uploader y.state.files

abbrev World := Monitor.Config × Upload.Config
abbrev Event := Link.Event Monitor.Event Upload.Event Bool DaemonStart UploaderStart Change

/-- Nothing has been written yet. -/
def installed (directory : Text) (p : DaemonStart) (q : UploaderStart) : World :=
  (p.monitor directory [], q.uploader fun _ => none)

variable {directory : Text}

theorem reportPath_inj {name name' : Text} :
    reportPath directory name = reportPath directory name' ↔ name = name' := by
  rw [reportPath, reportPath, String.ofList_inj, Monitor.filePathIn_inj]

/-! ### What each program removes -/

section Steps
variable {x x' : Monitor.Config} {y y' : Upload.Config}

theorem autoUpload_dir (filePath appName : Text) (isUserTerminated : Bool) (s : Monitor.State) :
    (Monitor.autoUpload filePath appName isUserTerminated s).dir = s.dir := by
  have hpublished := (Monitor.publish_same filePath appName isUserTerminated s).1
  unfold Monitor.autoUpload
  split
  · rfl
  · dsimp only
    split
    · exact hpublished
    · exact hpublished

theorem richCoreFound_dir (filePath : Text) (s : Monitor.State) :
    (Monitor.richCoreFound filePath s).dir = s.dir ∨ ∃ earlier,
      (Monitor.richCoreFound filePath s).log = .removed filePath :: earlier ∧
        (Monitor.richCoreFound filePath s).dir = s.dir.removeFile filePath := by
  unfold Monitor.richCoreFound
  extract_lets details isUserTerminated appName checked t
  split
  · refine .inr ⟨_, rfl, ?_⟩
    unfold Monitor.dropDuplicate
    dsimp only
    split <;> rfl
  · exact .inl (autoUpload_dir ..)

theorem handleDirectoryChanged_files (listing : List Text) (s : Monitor.State) :
    (Monitor.handleDirectoryChanged listing s).1.dir.directory = s.dir.directory ∧
      (Monitor.handleDirectoryChanged listing s).1.dir.files = s.dir.files := by
  unfold Monitor.handleDirectoryChanged
  split
  · exact ⟨rfl, rfl⟩
  · rename_i heq
    obtain ⟨name, -, he⟩ := Option.map_eq_some_iff.mp heq
    cases he
    exact ⟨rfl, rfl⟩

/-- The monitor removes the report that it logs, or none. -/
theorem monitor_files {a : Monitor.Action} (hown : (reports directory).ownLeft a = true)
    (hs : Monitor.monitor.step x a = some x') : x'.state.dir.directory = x.state.dir.directory ∧
      (x'.state.dir.files = x.state.dir.files ∨ ∃ path earlier, x'.state.log = .removed path :: earlier ∧
        x'.state.dir.files = x.state.dir.files.filter fun name => x.state.dir.filePath name ≠ path) := by
  cases a with
  | run =>
    obtain ⟨k, rest, -, rfl⟩ := Monitor.monitor.step_run hs
    cases k with
    | updateCoreList => exact ⟨rfl, .inl rfl⟩
    | richCoreFound path =>
      obtain hd | ⟨earlier, hlog, hd⟩ := richCoreFound_dir path x.state
      · exact ⟨congrArg Monitor.CoreDir.directory hd, .inl (congrArg Monitor.CoreDir.files hd)⟩
      · exact ⟨(congrArg Monitor.CoreDir.directory hd).trans rfl,
          .inr ⟨path, earlier, hlog, (congrArg Monitor.CoreDir.files hd).trans rfl⟩⟩
  | event ev =>
    obtain ⟨-, r, hr, rfl⟩ := Monitor.monitor.step_event hs
    cases ev with
    | create | delete => cases hown
    | directoryChanged listing =>
      simp only [Monitor.monitor, Monitor.deliver, Option.ite_none_right_eq_some, Option.some.injEq] at hr
      obtain ⟨-, rfl⟩ := hr
      obtain ⟨hdirectory, hfiles⟩ := handleDirectoryChanged_files listing
        {x.state with pending := x.state.pending - 1}
      exact ⟨hdirectory, .inl hfiles⟩
    | settings | environment | clock | removal =>
      cases hr
      exact ⟨rfl, .inl rfl⟩

/-- The uploader removes the report of which it has the reply, or none. -/
theorem uploader_files {b : Upload.Action} (hown : (reports directory).ownRight b = true)
    (hu : Upload.Uploads y.state ∧ ∀ k ∈ y.stack, k.Spent y.state) (hs : Upload.uploader.step y b = some y') :
    y'.state.files = y.state.files ∨ ∃ c answer, b = .event (.replyFinished c answer) ∧
      (y.state.clients c).reply = true ∧ ∀ path, y'.state.files path =
        if path = (y.state.clients c).currentFile then none else y.state.files path := by
  cases b with
  | run =>
    obtain ⟨k, rest, hk, rfl⟩ := Upload.uploader.step_run hs
    exact .inl (Upload.continues_exec rest hu.1 (hu.2 k (hk ▸ List.mem_cons_self ..))).files
  | event ev =>
    obtain ⟨-, r, hr, rfl⟩ := Upload.uploader.step_event hs
    obtain hc | ⟨c, answer, rfl⟩ | ⟨path, file, rfl⟩ :=
      Upload.continues_deliver y.stack hu.1 hr
    · exact .inl hc.files
    · obtain ⟨t, ht, rfl | ⟨hreply, rfl⟩⟩ := Upload.replyFinished_cases hr
      · exact .inl (ht.trans (Upload.HttpClient.minor_finished c).frame).files
      · refine .inr ⟨c, answer, rfl, hreply, fun path => ?_⟩
        have hfiles := (Upload.HttpClient.minor_finished c (s := Upload.HttpClient.removeFile
          (y.state.clients c).currentFile t)).frame.files
        rw [hfiles]
        split
        · rename_i hp
          rw [hp, Upload.HttpClient.removeFile_files]
        · rename_i hp
          rw [Upload.HttpClient.removeFile_files_ne hp, ht.files]
    · cases hown

/-- The uploader is told that reports are gone. -/
theorem told_removed (directory : Text) (names : List Text) (y : Upload.Config) : ∃ y',
    Upload.uploader.run ((names.map fun name => Upload.Event.file (reportPath directory name) none).map .event) y =
      some y' ∧ ∀ path, y'.state.files path =
        if path ∈ names.map (reportPath directory) then none else y.state.files path := by
  induction names generalizing y with
  | nil => exact ⟨y, rfl, fun path => by simp⟩
  | cons name rest ih =>
    let files := Function.update y.state.files (reportPath directory name) none
    obtain ⟨y', hrun, hfiles⟩ := ih ⟨{y.state with files := files}, y.stack⟩
    refine ⟨y', hrun, fun path => ?_⟩
    rw [hfiles]
    by_cases hp : path = reportPath directory name
    · simp [files, hp]
    · simp [files, hp]

/-- The monitor is told that reports are gone. -/
theorem told_deleted (merged : Bool) (names : List Text) (x : Monitor.Config) (hd : names.Nodup)
    (hmem : ∀ name ∈ names, name ∈ x.state.dir.files) : ∃ x',
      Monitor.monitor.run ((names.map fun name => Monitor.Event.delete name merged).map .event) x = some x' ∧
        x'.state.dir.directory = x.state.dir.directory ∧
          x'.state.dir.files = x.state.dir.files.filter fun name => !names.contains name := by
  induction names generalizing x with
  | nil => exact ⟨x, rfl, rfl, by simp⟩
  | cons name rest ih =>
    obtain ⟨hnot, hrest⟩ := List.nodup_cons.mp hd
    have hname : name ∈ x.state.dir.files := hmem name (List.mem_cons_self ..)
    let z : Monitor.Config := ⟨{x.state with
      dir := x.state.dir.removeFile (x.state.dir.filePath name)
      pending := Monitor.notified merged x.state.pending}.emit (.deleted name), x.stack⟩
    have hfiles : z.state.dir.files = x.state.dir.files.filter fun other => other ≠ name := by
      refine List.filter_congr fun other _ => ?_
      rw [decide_eq_decide, not_iff_not]
      exact Monitor.filePathIn_inj
    have hstep : Monitor.monitor.step x (.event (.delete name merged)) = some z := by
      simp [step, Monitor.monitor, Monitor.admits, Monitor.deliver, hname, z]
    obtain ⟨x', hrun, hdirectory, hx'⟩ := ih z hrest fun other ho => by
      rw [hfiles, List.mem_filter]
      exact ⟨hmem other (List.mem_cons_of_mem _ ho), decide_eq_true fun he => hnot (he ▸ ho)⟩
    refine ⟨x', ?_, hdirectory, ?_⟩
    · rw [List.map_cons, List.map_cons, run, hstep]
      exact hrun
    · rw [hx', hfiles, List.filter_filter]
      refine List.filter_congr fun other _ => ?_
      by_cases ho : other = name <;> simp [ho]

end Steps

/-! ### Every run -/

/-- The maximum is never less than `m`, no report is written under the name of one that is
being uploaded, and of one that is going to be uploaded all can be read. -/
def Kept (m : Int) (directory : Text) (w : World) : Event → Prop
  | .left a _ => ∀ settings maximum, a = .event (.settings settings maximum) → m ≤ maximum
  | .outside (.written name _ _) => ∀ c, (w.2.state.clients c).reply = true →
    (w.2.state.clients c).currentFile ≠ reportPath directory name
  | .right b _ => Upload.WholeReads w.2 b
  | .startLeft p => m ≤ p.autoDeleteMaxSimilarCores
  | .outside (.deleted ..) | .startRight _ => True

/-- Nobody writes a report in place of one that is being uploaded, and the reads that an
upload begins with do not fail. -/
def Unspoilt : Guard Upload.State Upload.Call Upload.Event := fun y b =>
  (∀ path file, b = .event (.file path (some file)) →
    ∀ c, (y.state.clients c).reply = true → (y.state.clients c).currentFile ≠ path) ∧ Upload.WholeReads y b

/-- No upload begins with what happens to a file. -/
theorem wholeReads_file (y : Upload.Config) (path : Upload.Path) (file : Option Upload.File) :
    Upload.WholeReads y (.event (.file path file)) := by
  rintro e i (⟨-, hact, -⟩ | ⟨hact, -⟩) <;> cases hact

/-- Both programs know of the same reports. -/
structure Agreed (directory : Text) (w : World) : Prop where
  watched : w.1.state.dir.directory = directory
  nodup : w.1.state.dir.files.Nodup
  synced : ∀ name, name ∈ w.1.state.dir.files ↔ (w.2.state.files (reportPath directory name)).isSome = true

/-- Each program has done what it may do alone. -/
structure Sound (m : Int) (directory : Text) (w : World) : Prop where
  monitor : Link.Alone Monitor.monitor (Monitor.AtLeast m)
    (fun x => ∃ files p, m ≤ p.autoDeleteMaxSimilarCores ∧ x = DaemonStart.monitor directory files p) w.1
  uploader : Link.Alone Upload.uploader Unspoilt (fun y => ∃ files p, y = UploaderStart.uploader files p) w.2
  agreed : Agreed directory w

section Runs
variable {m : Int} {w t : World} {e : Event}

theorem Sound.accounted (h : Sound m directory w) : Monitor.Accounted m w.1.state w.1.stack := by
  obtain ⟨x₀, ⟨files, p, hp, rfl⟩, hx⟩ := h.monitor
  exact Monitor.accounted_of_reaches hp hx

theorem Sound.uploads (h : Sound m directory w) :
    Upload.Uploads w.2.state ∧ ∀ k ∈ w.2.stack, k.Spent w.2.state := by
  obtain ⟨y₀, ⟨files, p, rfl⟩, hy⟩ := h.uploader
  exact Upload.uploads_of_reaches hy

/-- What is being sent is what is in the report. -/
theorem Sound.faithful (h : Sound m directory w) : Upload.Faithful w.2.state := by
  obtain ⟨y₀, ⟨files, p, rfl⟩, hy⟩ := h.uploader
  refine hy.invariant (I := fun y => Upload.Faithful y.state)
    (by simp [UploaderStart.uploader, Upload.Faithful, Upload.blank]) ?_ ?_
  · intro s k rest hy hg hf
    obtain ⟨hu, hs⟩ := Upload.uploads_of_reaches hy
    have hc := Upload.continues_exec rest hu (hs k (List.mem_cons_self ..))
    exact hc.faithful (fun i hi => hi.elim fun e he => hg.2 e i he) hf
  · intro s stack ev r hy hg _ hr hf
    obtain hc | ⟨c, answer, rfl⟩ | ⟨path, file, rfl⟩ :=
      Upload.continues_deliver stack (Upload.uploads_of_reaches hy).1 hr
    · exact hc.faithful (fun i hi => hi.elim fun e he => hg.2 e i he) hf
    · obtain ⟨t, ht, rfl | ⟨-, rfl⟩⟩ := Upload.replyFinished_cases hr
      · exact (hf.frame ht).frame (Upload.HttpClient.minor_finished c).frame
      · exact ((hf.frame ht).removeFile _).frame (Upload.HttpClient.minor_finished c).frame
    · cases hr
      refine hf.setFile fun c hc hp => ?_
      cases file with
      | none => rfl
      | some file => exact absurd hp (hg.1 path file rfl c hc)

theorem Kept.left (hg : Kept m directory w e) :
    Guarded Monitor.monitor (Monitor.AtLeast m) ((reports directory).leftActions w e) w.1 := by
  cases e with
  | left a c => exact ⟨hg, fun _ _ => trivial⟩
  | right b c =>
    refine Guarded.of_forall (P := fun a : Monitor.Action => ∀ settings (maximum : Int),
      a = .event (.settings settings maximum) → m ≤ maximum) (fun a ha => ?_) _
    cases hs : Upload.uploader.step w.2 b with
    | none => simp [Link.leftActions, hs] at ha
    | some y =>
      simp only [Link.leftActions, hs, reports, Option.map_some, Option.getD_some, List.mem_map] at ha
      obtain ⟨_, ⟨name, -, rfl⟩, rfl⟩ := ha
      exact fun settings maximum he => by cases he
  | outside z =>
    cases z <;> exact ⟨(fun settings maximum he => by cases he), fun _ _ => trivial⟩
  | startLeft | startRight => trivial

theorem Kept.right (hg : Kept m directory w e) (hs : (reports directory).machine.step w e = some t) :
    Guarded Upload.uploader Unspoilt ((reports directory).rightActions w e) w.2 := by
  cases e with
  | left a c =>
    have hgone (actions : List Upload.Action) (y : Upload.Config)
        (hb : ∀ b ∈ actions, ∃ path, b = .event (.file path none)) : Guarded Upload.uploader Unspoilt actions y := by
      refine (Guarded.of_forall hb y).mono fun y b ⟨path, he⟩ => ?_
      subst he
      exact ⟨(fun _ _ he => by cases he), wholeReads_file y path none⟩
    refine hgone _ _ fun b hb => ?_
    cases hs : Monitor.monitor.step w.1 a with
    | none => simp [Link.rightActions, hs] at hb
    | some x =>
      simp only [Link.rightActions, hs, reports, Option.map_some, Option.getD_some, List.mem_map] at hb
      obtain ⟨_, ⟨name, -, rfl⟩, rfl⟩ := hb
      exact ⟨_, rfl⟩
  | right b c =>
    have hown := (Link.step_right hs).1
    refine ⟨⟨fun path file he => ?_, hg⟩, fun _ _ => trivial⟩
    rw [he] at hown
    cases hown
  | outside z =>
    cases z with
    | written name file merged =>
      refine ⟨⟨fun path file' he => ?_, wholeReads_file w.2 _ _⟩, fun _ _ => trivial⟩
      cases he
      exact hg
    | deleted name merged =>
      exact ⟨⟨(fun path file he => by cases he), wholeReads_file w.2 _ _⟩, fun _ _ => trivial⟩
  | startLeft | startRight => trivial

/-- The reports that one program has removed are gone for the other. -/
theorem Agreed.filter (h : Agreed directory w) (keep : Text → Bool)
    (hd : t.1.state.dir.directory = w.1.state.dir.directory)
    (hf : t.1.state.dir.files = w.1.state.dir.files.filter keep)
    (hu : ∀ name, (t.2.state.files (reportPath directory name)).isSome = true ↔
      (w.2.state.files (reportPath directory name)).isSome = true ∧ keep name = true) : Agreed directory t where
  watched := hd.trans h.watched
  nodup := by
    rw [hf]
    exact h.nodup.filter _
  synced name := by
    rw [hf, List.mem_filter, h.synced, hu]

/-- What the daemon has removed is gone, and nothing else. -/
theorem left_files {a : Monitor.Action} {c : Bool} (hs : (reports directory).machine.step w (.left a c) = some t)
    (name : Text) : t.2.state.files (reportPath directory name) =
      if name ∈ w.1.state.dir.files ∧ name ∉ t.1.state.dir.files then none
      else w.2.state.files (reportPath directory name) := by
  obtain ⟨-, -, hy⟩ := Link.step_left hs
  obtain ⟨y, hrun, hfiles⟩ := told_removed directory
    (w.1.state.dir.files.filter fun name => !t.1.state.dir.files.contains name) w.2
  obtain rfl : y = t.2 := Option.some.inj (hrun.symm.trans hy)
  rw [hfiles]
  simp [reportPath_inj]

theorem Agreed.left {a : Monitor.Action} {c : Bool} (h : Agreed directory w)
    (hs : (reports directory).machine.step w (.left a c) = some t) : Agreed directory t := by
  obtain ⟨hown, hx, -⟩ := Link.step_left hs
  obtain ⟨hd, hf⟩ := monitor_files hown hx
  obtain ⟨keep, hkeep⟩ : ∃ keep, t.1.state.dir.files = w.1.state.dir.files.filter keep := by
    obtain hf | ⟨path, -, -, hf⟩ := hf
    · exact ⟨fun _ => true, by simp [hf]⟩
    · exact ⟨_, hf⟩
  refine h.filter keep hd hkeep fun name => ?_
  have ht : name ∈ t.1.state.dir.files ↔ name ∈ w.1.state.dir.files ∧ keep name = true := by
    rw [hkeep, List.mem_filter]
  rw [left_files hs]
  by_cases hgone : name ∈ w.1.state.dir.files ∧ name ∉ t.1.state.dir.files
  · rw [if_pos hgone]
    have hk : keep name ≠ true := fun hk => hgone.2 (ht.mpr ⟨hgone.1, hk⟩)
    simp [hk]
  · rw [if_neg hgone]
    refine ⟨fun hsome => ⟨hsome, ?_⟩, And.left⟩
    have hthere : name ∈ w.1.state.dir.files := (h.synced name).mpr hsome
    exact (ht.mp (by_contra fun hn => hgone ⟨hthere, hn⟩)).2

theorem Agreed.right {b : Upload.Action} {c : Bool} (h : Agreed directory w)
    (hu : Upload.Uploads w.2.state ∧ ∀ k ∈ w.2.stack, k.Spent w.2.state)
    (hs : (reports directory).machine.step w (.right b c) = some t) : Agreed directory t := by
  obtain ⟨hown, hy, hx⟩ := Link.step_right hs
  obtain ⟨x, hrun, hd, hf⟩ := told_deleted c
    (w.1.state.dir.files.filter fun name => (t.2.state.files (reportPath directory name)).isNone) w.1
    (h.nodup.filter _) fun name hn => List.mem_of_mem_filter hn
  obtain rfl : x = t.1 := Option.some.inj (hrun.symm.trans hx)
  -- The uploader removes reports, and writes none.
  have hless (path : Upload.Path) (hp : (t.2.state.files path).isSome = true) :
      (w.2.state.files path).isSome = true := by
    obtain hsame | ⟨_, _, -, -, hfiles⟩ := uploader_files hown hu hy
    · rwa [hsame] at hp
    · rw [hfiles] at hp
      split at hp
      · cases hp
      · exact hp
  refine h.filter _ hd hf fun name => ?_
  have hkeep : (t.2.state.files (reportPath directory name)).isSome = true ↔
      (t.2.state.files (reportPath directory name)).isNone ≠ true := by
    rw [Option.isSome_iff_ne_none, Ne, Ne, Option.isNone_iff_eq_none]
  have hgone : (!(w.1.state.dir.files.filter fun name =>
      (t.2.state.files (reportPath directory name)).isNone).contains name) = true ↔
        (name ∈ w.1.state.dir.files → (t.2.state.files (reportPath directory name)).isSome = true) := by
    rw [hkeep]
    simp [imp_iff_not_or]
  rw [hgone]
  exact ⟨fun hp => ⟨hless _ hp, fun _ => hp⟩, fun ⟨hp, himp⟩ => himp ((h.synced name).mpr hp)⟩

theorem written_files {name : Text} {file : Upload.File} {merged : Bool}
    (hs : (reports directory).machine.step w (.outside (.written name file merged)) = some t) :
    name ∉ w.1.state.dir.files ∧ t.1.state.dir = w.1.state.dir.create name ∧
      t.2.state.files = Function.update w.2.state.files (reportPath directory name) (some file) := by
  obtain ⟨hx, hy⟩ := Link.step_outside hs
  obtain ⟨-, r, hr, hx⟩ := Monitor.monitor.step_event hx
  obtain ⟨-, r', hr', hy⟩ := Upload.uploader.step_event hy
  simp only [reports, Monitor.monitor, Monitor.deliver, Option.ite_none_left_eq_some, Option.some.injEq] at hr
  obtain ⟨hnew, rfl⟩ := hr
  cases hr'
  exact ⟨hnew, congrArg (·.state.dir) hx, congrArg (·.state.files) hy⟩

theorem deleted_files {name : Text} {merged : Bool}
    (hs : (reports directory).machine.step w (.outside (.deleted name merged)) = some t) :
    t.1.state.dir = w.1.state.dir.removeFile (w.1.state.dir.filePath name) ∧
      t.2.state.files = Function.update w.2.state.files (reportPath directory name) none := by
  obtain ⟨hx, hy⟩ := Link.step_outside hs
  obtain ⟨-, r, hr, hx⟩ := Monitor.monitor.step_event hx
  obtain ⟨-, r', hr', hy⟩ := Upload.uploader.step_event hy
  simp only [reports, Monitor.monitor, Monitor.deliver, Option.ite_none_right_eq_some, Option.some.injEq] at hr
  obtain ⟨-, rfl⟩ := hr
  cases hr'
  exact ⟨congrArg (·.state.dir) hx, congrArg (·.state.files) hy⟩

theorem Agreed.outside {z : Change} (h : Agreed directory w)
    (hs : (reports directory).machine.step w (.outside z) = some t) : Agreed directory t := by
  cases z with
  | written name file merged =>
    obtain ⟨hnew, hd, hfiles⟩ := written_files hs
    have hcreated : t.1.state.dir.files = w.1.state.dir.files ++ [name] := congrArg Monitor.CoreDir.files hd
    refine ⟨(congrArg Monitor.CoreDir.directory hd).trans h.watched, ?_, fun other => ?_⟩
    · rw [hcreated]
      refine List.nodup_append.mpr ⟨h.nodup, by simp, fun other ho last hl => ?_⟩
      rw [List.mem_singleton.mp hl]
      exact fun he => hnew (he ▸ ho)
    · rw [hcreated, hfiles, List.mem_append, List.mem_singleton, h.synced]
      by_cases ho : other = name
      · simp [ho]
      · rw [Function.update_of_ne fun he => ho (reportPath_inj.mp he)]
        simp [ho]
  | deleted name merged =>
    obtain ⟨hd, hfiles⟩ := deleted_files hs
    have hdirectory : t.1.state.dir.directory = w.1.state.dir.directory :=
      (congrArg Monitor.CoreDir.directory hd).trans rfl
    refine h.filter (fun other => other ≠ name) hdirectory ?_ fun other => ?_
    · rw [hd]
      refine List.filter_congr fun other _ => ?_
      rw [decide_eq_decide, not_iff_not]
      exact Monitor.filePathIn_inj
    · rw [hfiles]
      by_cases ho : other = name
      · simp [ho]
      · rw [Function.update_of_ne fun he => ho (reportPath_inj.mp he)]
        simp [ho]

theorem Sound.step (h : Sound m directory w) (hg : Kept m directory w e)
    (hs : (reports directory).machine.step w e = some t) : Sound m directory t where
  monitor := Link.reaches_left h.monitor hg.left
    (fun p he => ⟨w.1.state.dir.files, p, by subst he; exact hg, rfl⟩) hs
  uploader := Link.reaches_right h.uploader (hg.right hs) (fun p _ => ⟨w.2.state.files, p, rfl⟩) hs
  agreed := by
    cases e with
    | left a c => exact h.agreed.left hs
    | right b c => exact h.agreed.right h.uploads hs
    | outside z => exact h.agreed.outside hs
    | startLeft p =>
      cases hs
      exact ⟨rfl, h.agreed.nodup, h.agreed.synced⟩
    | startRight p =>
      cases hs
      exact ⟨h.agreed.watched, h.agreed.nodup, h.agreed.synced⟩

theorem sound_installed {p : DaemonStart} (q : UploaderStart) (hp : m ≤ p.autoDeleteMaxSimilarCores) :
    Sound m directory (installed directory p q) where
  monitor := ⟨_, ⟨[], p, hp, rfl⟩, .start⟩
  uploader := ⟨_, ⟨fun _ => none, q, rfl⟩, .start⟩
  agreed := ⟨rfl, List.nodup_nil, by simp [installed, DaemonStart.monitor, UploaderStart.uploader,
    Monitor.watching, Monitor.CoreDir.updateCoreList, Upload.blank]⟩

/-- What the daemon can do alone it can do beside the uploader. -/
theorem left_unhindered {a : Monitor.Action} (c : Bool) {x : Monitor.Config}
    (hown : (reports directory).ownLeft a = true) (hx : Monitor.monitor.step w.1 a = some x) :
    ∃ y, (reports directory).machine.step w (.left a c) = some (x, y) := by
  obtain ⟨y, hrun, -⟩ := told_removed directory
    (w.1.state.dir.files.filter fun name => !x.state.dir.files.contains name) w.2
  exact ⟨y, Link.left_step hown hx hrun⟩

theorem right_unhindered {b : Upload.Action} (c : Bool) {y : Upload.Config} (h : Agreed directory w)
    (hown : (reports directory).ownRight b = true) (hy : Upload.uploader.step w.2 b = some y) :
    ∃ x, (reports directory).machine.step w (.right b c) = some (x, y) := by
  obtain ⟨x, hrun, -, -⟩ := told_deleted c
    (w.1.state.dir.files.filter fun name => (y.state.files (reportPath directory name)).isNone) w.1
    (h.nodup.filter _) fun name hn => List.mem_of_mem_filter hn
  exact ⟨x, Link.right_step hown hy hrun⟩

/-! ### How a report goes -/

/-- A step in which a report goes. -/
inductive Goes (m : Int) (directory name : Text) (content : Upload.Content) (w t : World) : Event → Prop where
  | deleted (merged : Bool) : Goes m directory name content w t (.outside (.deleted name merged))
  /-- The daemon has announced more than `m` of its kind. -/
  | surplus (a : Monitor.Action) (c : Bool) (earlier : List Monitor.Output)
      (hlog : t.1.state.log = .removed (Monitor.filePathIn directory name) :: earlier)
      (hs : Monitor.Surplus m (Monitor.filePathIn directory name) earlier) :
      Goes m directory name content w t (.left a c)
  /-- The uploader has sent what is in it, and this is the reply. -/
  | uploaded (c : Upload.ClientId) (i : Upload.ItemId) (answer : Upload.ServerReply) (merged : Bool)
      (hreply : (w.2.state.clients c).network = .running)
      (hput : .put c i (reportPath directory name) content ∈ w.2.state.log) :
      Goes m directory name content w t (.right (.event (.replyFinished c answer)) merged)

section Report
variable {name : Text} {file : Upload.File}

theorem Sound.goes_left {a : Monitor.Action} {c : Bool} (h : Sound m directory w) (ht : Sound m directory t)
    (hs : (reports directory).machine.step w (.left a c) = some t)
    (hf : w.2.state.files (reportPath directory name) = some file)
    (hgone : t.2.state.files (reportPath directory name) ≠ some file) :
    Goes m directory name file.content w t (.left a c) := by
  obtain ⟨hown, hx, -⟩ := Link.step_left hs
  obtain ⟨hthere, haway⟩ : name ∈ w.1.state.dir.files ∧ name ∉ t.1.state.dir.files := by
    rw [left_files hs] at hgone
    by_contra hn
    exact hgone ((if_neg hn).trans hf)
  obtain ⟨-, hfiles | ⟨path, earlier, hlog, hfiles⟩⟩ := monitor_files hown hx
  · exact absurd (hfiles ▸ hthere) haway
  · obtain rfl : Monitor.filePathIn directory name = path := by
      by_contra hp
      refine haway ?_
      rw [hfiles, List.mem_filter, Monitor.CoreDir.filePath, h.agreed.watched]
      exact ⟨hthere, decide_eq_true hp⟩
    exact .surplus a c earlier hlog (ht.accounted.deleted _ _ (hlog ▸ List.suffix_rfl))

theorem Sound.goes_right {b : Upload.Action} {c : Bool} (h : Sound m directory w)
    (hs : (reports directory).machine.step w (.right b c) = some t)
    (hf : w.2.state.files (reportPath directory name) = some file)
    (hgone : t.2.state.files (reportPath directory name) ≠ some file) :
    t.2.state.files (reportPath directory name) = none ∧ Goes m directory name file.content w t (.right b c) := by
  obtain ⟨hown, hy, -⟩ := Link.step_right hs
  obtain hsame | ⟨client, answer, rfl, hreply, hfiles⟩ := uploader_files hown h.uploads hy
  · exact absurd (hsame ▸ hf) hgone
  · have hpath : reportPath directory name = (w.2.state.clients client).currentFile := by
      by_contra hp
      rw [hfiles, if_neg hp] at hgone
      exact hgone hf
    have hsent := h.uploads.1.sent client hreply
    rw [← hpath, ← h.faithful client hreply file (hpath ▸ hf)] at hsent
    refine ⟨?_, .uploaded client _ answer c (h.uploads.1.running client hreply) hsent⟩
    rw [hfiles, if_pos hpath]

theorem Sound.goes (h : Sound m directory w) (hk : Kept m directory w e)
    (hs : (reports directory).machine.step w e = some t)
    (hf : w.2.state.files (reportPath directory name) = some file)
    (hgone : t.2.state.files (reportPath directory name) ≠ some file) :
    t.2.state.files (reportPath directory name) = none ∧ Goes m directory name file.content w t e := by
  cases e with
  | left a c =>
    refine ⟨?_, h.goes_left (h.step hk hs) hs hf hgone⟩
    rw [left_files hs] at hgone ⊢
    split
    · rfl
    · rename_i hn
      exact absurd ((if_neg hn).trans hf) hgone
  | right b c => exact h.goes_right hs hf hgone
  | outside z =>
    cases z with
    | written other file' merged =>
      obtain ⟨hnew, -, hfiles⟩ := written_files hs
      have hne : reportPath directory name ≠ reportPath directory other := fun he => by
        refine hnew ((h.agreed.synced other).mpr ?_)
        rw [← he, hf]
        rfl
      exact absurd (by rw [hfiles, Function.update_of_ne hne, hf]) hgone
    | deleted other merged =>
      obtain ⟨-, hfiles⟩ := deleted_files hs
      obtain rfl : other = name := by
        by_contra hne
        exact hgone (by rw [hfiles, Function.update_of_ne fun he => hne (reportPath_inj.mp he).symm, hf])
      exact ⟨by rw [hfiles, Function.update_self], .deleted merged⟩
  | startLeft | startRight =>
    cases hs
    exact absurd hf hgone

/-- No report is lost: whatever the two programs and the others do, and however often either
program is started anew, a report goes only in a step in which others delete it, or the
daemon finds it to be surplus, or the server replies to what the uploader has sent of it.
Until then it stays as it is. -/
theorem no_report_lost {p : DaemonStart} {q : UploaderStart} {es : List Event}
    (hp : m ≤ p.autoDeleteMaxSimilarCores)
    (hes : (reports directory).machine.Within (Kept m directory) es (installed directory p q))
    (hw : w ∈ installed directory p q :: (reports directory).machine.visits es (installed directory p q))
    (hk : Kept m directory w e) (hs : (reports directory).machine.step w e = some t)
    (hf : w.2.state.files (reportPath directory name) = some file)
    (hgone : t.2.state.files (reportPath directory name) ≠ some file) :
    t.2.state.files (reportPath directory name) = none ∧ Goes m directory name file.content w t e := by
  have hstart : Sound m directory (installed directory p q) := sound_installed q hp
  have hsound : Sound m directory w := by
    rcases List.mem_cons.mp hw with rfl | hw
    · exact hstart
    · exact Machine.visits_invariant (fun _ _ _ h hk hs => h.step hk hs) hstart hes w hw
  exact hsound.goes hk hs hf hgone

/-- What the uploader does, as far as `Kept` allows it, computed. -/
def keptRight (w : World) : Event → Bool
  | .right b _ => Upload.wholeReads w.2 b
  | _ => false

theorem keptRight_sound (w : World) (e : Event) (h : keptRight w e = true) : Kept m directory w e := by
  cases e with
  | right b c => exact Upload.wholeReads_sound w.2 b h
  | _ => cases h

def sentFile : Upload.File := ⟨[1, 2], true, none⟩

def writtenFile : Event := .outside (.written "a.rcore".toList sentFile false)

def upload : List Event :=
  [.event (.callUploadFiles ["/cores/a.rcore"] false), .event .dispatch, .run, .run, .run, .run, .run].map
    fun b => .right b false

/-- A report is written and uploaded. -/
def writeReport : List Event := writtenFile :: upload

def installedCores : World :=
  installed "/cores".toList ⟨⟨true, true, true⟩, .usbCable, 0, 5⟩ ⟨.usbCable, ["/cores"], true⟩

theorem writeReport_ne : (reports "/cores".toList).machine.visits writeReport installedCores ≠ [] :=
  List.ne_nil_of_length_pos (by decide)

/-- The report has been sent. -/
def reportSent : World := ((reports "/cores".toList).machine.visits writeReport installedCores).getLast writeReport_ne

def acknowledge : Event := .right Upload.acknowledged false

def reportUploaded : World := ((reports "/cores".toList).machine.step reportSent acknowledge).get (by decide)

theorem no_report_lost_sent : reportUploaded.2.state.files "/cores/a.rcore" = none ∧
    Goes 5 "/cores".toList "a.rcore".toList [1, 2] reportSent reportUploaded acknowledge := by
  have hidle (c : Upload.ClientId) : (installedCores.2.state.clients c).reply = false := rfl
  have hwithin : (reports "/cores".toList).machine.Within (Kept 5 "/cores".toList) writeReport installedCores := by
    intro t ht
    have hwritten : ((reports "/cores".toList).machine.step installedCores writtenFile).get (by decide) = t :=
      Option.get_of_mem _ ht
    subst hwritten
    refine ⟨fun c hc => ?_, .of_check keptRight_sound (by decide)⟩
    rw [hidle c] at hc
    cases hc
  have hsent : reportSent.2.state.files (reportPath "/cores".toList "a.rcore".toList) = some sentFile := by
    decide
  have hgone : reportUploaded.2.state.files (reportPath "/cores".toList "a.rcore".toList) ≠ some sentFile := by
    decide
  have hkept : Kept 5 "/cores".toList reportSent acknowledge := keptRight_sound _ _ (by decide)
  exact no_report_lost (by decide) hwithin (List.mem_cons_of_mem _ (List.getLast_mem writeReport_ne)) hkept
    (Option.some_get _).symm hsent hgone

end Report

end Runs

end CrashReporter.System
