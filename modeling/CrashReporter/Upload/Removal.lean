import CrashReporter.Upload.InFlight
import Mathlib.Data.List.Infix

/-! A report leaves the disk only when its upload has succeeded.

What has been uploaded is what could be read of it. `readAll` says nothing of a read that
fails, so this is the report as long as all of it can be read. -/
namespace CrashReporter.Upload
open Reactor

variable {s : State}

/-- Of a report that is going to be uploaded, all can be read. -/
def WholeReads : Guard State Call Event := fun x a => ∀ e i, Starts e x a i → x.state.ReadsWhole i

/-- Nobody else writes a report while it is being uploaded. -/
def Undisturbed : Guard State Call Event := fun x a => ∀ path file, a = .event (.file path file) →
  ∀ c, (x.state.clients c).reply = true → (x.state.clients c).currentFile ≠ path

/-- Files may go, and others may change. -/
theorem Faithful.setFile (h : Faithful s) {path : Path} {file : Option File}
    (hp : ∀ c, (s.clients c).reply = true → (s.clients c).currentFile = path → file = none) :
    Faithful {s with files := Function.update s.files path file} := by
  intro c hc f hf
  dsimp only at hc hf ⊢
  by_cases he : (s.clients c).currentFile = path
  · simp [he, hp c hc he] at hf
  · rw [Function.update_of_ne he] at hf
    exact h c hc f hf

theorem Faithful.removeFile (h : Faithful s) (path : Path) :
    Faithful (HttpClient.removeFile path s) := by
  unfold HttpClient.removeFile
  split
  · exact h
  · exact (h.setFile fun _ _ _ => rfl).aside (.emit rfl)

/-- A PUT of this body was sent when it was what the file contained. -/
def SentOf (as : List Action) (x₀ : Config) (path : Path) (body : Content) : Prop :=
  ∃ before a after z y c i file, as = before ++ a :: after ∧ uploader.run before x₀ = some z ∧
    uploader.step z a = some y ∧ .put c i path body ∉ z.state.log ∧ .put c i path body ∈ y.state.log ∧
      z.state.files path = some file ∧ file.content = body

/-- The file goes with the reply, without an error, to a PUT of it, which had been sent of
what it contained. If nobody else writes reports while they are being uploaded, this is
what it still contains. -/
def Acknowledged (as : List Action) (x₀ x : Config) (a : Action) (y : Config) (path : Path) : Prop :=
  ∃ c i answer body file, a = .event (.replyFinished c answer) ∧ (x.state.clients c).network = .running ∧
    .put c i path body ∈ x.state.log ∧ SentOf as x₀ path body ∧
    x.state.files path = some file ∧ y.state.files path = none ∧
      (Guarded uploader Undisturbed as x₀ → file.content = body)

section Runs
variable {env : Environment} {files : Path → Option File} {coreLocations : List Path} {logWritable : Bool}
variable {as : List Action} {x y : Config} {a : Action} {path : Path}

theorem faithful_of_reaches (hx : Reaches uploader (fun x a => WholeReads x a ∧ Undisturbed x a)
    ⟨blank env files coreLocations logWritable, []⟩ x) : Faithful x.state := by
  refine hx.invariant (I := fun x => Faithful x.state) (by simp [Faithful, blank]) ?_ ?_
  · intro s k rest hx hg hf
    obtain ⟨hu, hs⟩ := uploads_of_reaches hx
    have hc := continues_exec rest hu (hs k (List.mem_cons_self ..))
    exact hc.faithful (fun i hi => hi.elim fun e he => hg.1 e i he) hf
  · intro s stack ev r hx hg _ hr hf
    rcases continues_deliver stack (uploads_of_reaches hx).1 hr with hc | ⟨c, answer, rfl⟩ | ⟨path, file, rfl⟩
    · exact hc.faithful (fun i hi => hi.elim fun e he => hg.1 e i he) hf
    · obtain ⟨t, ht, rfl | ⟨-, rfl⟩⟩ := replyFinished_cases hr
      · exact (hf.frame ht).frame (HttpClient.minor_finished c).frame
      · exact ((hf.frame ht).removeFile _).frame (HttpClient.minor_finished c).frame
    · cases hr
      exact hf.setFile fun c hc hp => absurd hp (hg.2 path file rfl c hc)

/-- What is in the log has been sent of a file that contained it. -/
theorem sentOf_put (hg : Guarded uploader WholeReads as ⟨blank env files coreLocations logWritable, []⟩)
    (hr : uploader.run as ⟨blank env files coreLocations logWritable, []⟩ = some x) {c : ClientId} {i : ItemId}
    {body : Content} (hput : .put c i path body ∈ x.state.log) :
    SentOf as ⟨blank env files coreLocations logWritable, []⟩ path body := by
  obtain ⟨before, b, after, z, y, rfl, hrun, hstep, hwhole, hbefore, hafter⟩ :=
    hg.begins (P := fun z => .put c i path body ∈ z.state.log) hr (by simp [blank]) hput
  have hz : Reaches uploader (fun _ _ => True) ⟨blank env files coreLocations logWritable, []⟩ z :=
    Reaches.of_run .start (Guarded.of_forall (P := fun _ => True) (fun _ _ => trivial) _) hrun
  obtain ⟨hu, hs⟩ := uploads_of_reaches hz
  obtain hold | ⟨⟨e, he⟩, rfl, file, hfile, hreadable, hread⟩ := (carries_step hu hs hstep).2 c i path body hafter
  · exact absurd hold hbefore
  · refine ⟨before, b, after, z, y, c, i, file, rfl, hrun, hstep, hbefore, hafter, hfile, ?_⟩
    exact (hwhole e i he file hfile hreadable).symm.trans hread

/-- In a run in which all of each report can be read, the process removes a report only in
the step in which the reply to a PUT of it finishes without an error. -/
theorem report_removed_after_success
    (hg : Guarded uploader WholeReads as ⟨blank env files coreLocations logWritable, []⟩)
    (hr : uploader.run as ⟨blank env files coreLocations logWritable, []⟩ = some x)
    (hs : uploader.step x a = some y) (hext : ∀ file, a ≠ .event (.file path file))
    (hne : y.state.files path ≠ x.state.files path) :
    Acknowledged as ⟨blank env files coreLocations logWritable, []⟩ x a y path := by
  have hx : Reaches uploader WholeReads ⟨blank env files coreLocations logWritable, []⟩ x := .of_run .start hg hr
  obtain ⟨hu, hspent⟩ := uploads_of_reaches hx
  obtain ⟨s, stack⟩ := x
  cases a with
  | run =>
    obtain ⟨k, rest, rfl, rfl⟩ := uploader.step_run hs
    have hc := continues_exec rest hu (hspent k (List.mem_cons_self ..))
    exact absurd (congrFun hc.files path) hne
  | event ev =>
    obtain ⟨-, r, hdeliver, rfl⟩ := uploader.step_event hs
    rcases continues_deliver stack hu hdeliver with hc | ⟨c, answer, rfl⟩ | ⟨path', file, rfl⟩
    · exact absurd (congrFun hc.files path) hne
    · obtain ⟨t, ht, rfl | ⟨hreply, rfl⟩⟩ := replyFinished_cases hdeliver
      · have hfiles := (ht.trans (HttpClient.minor_finished c).frame).files
        exact absurd (congrFun hfiles path) hne
      · have hfiles := (HttpClient.minor_finished c (s := HttpClient.removeFile
          (s.clients c).currentFile t)).frame.files
        have hpath : path = (s.clients c).currentFile := by
          by_contra hp
          refine hne ?_
          rw [hfiles, HttpClient.removeFile_files_ne hp, ht.files]
        subst hpath
        rw [hfiles, HttpClient.removeFile_files] at hne
        obtain ⟨file, hfile⟩ := Option.ne_none_iff_exists'.mp hne.symm
        have hput := hu.sent c hreply
        refine ⟨c, (s.clients c).item, answer, (s.clients c).body, file, rfl, hu.running c hreply, hput,
          sentOf_put hg hr hput, hfile, ?_, fun hquiet => ?_⟩
        · rw [hfiles, HttpClient.removeFile_files]
        · exact faithful_of_reaches (.of_run .start (hg.and hquiet) hr) c hreply file hfile
    · cases hdeliver
      have hp : path ≠ path' := fun hp => hext file (hp ▸ rfl)
      exact absurd (Function.update_of_ne hp ..) hne

end Runs

/-- The file of the item is read whole if it is there. -/
def State.readsWhole (s : State) (i : ItemId) : Bool :=
  (s.files (s.items i).filepath).all fun file => file.shortRead.isNone

/-- The guard, computed. -/
def wholeReads (x : Config) : Action → Bool
  | .run => match x.stack with
    | .uploadItem _ i :: _ => x.state.readsWhole i
    | _ => true
  | .event (.session e .opened) => (x.state.engines e).currentItem.all x.state.readsWhole
  | _ => true

theorem wholeReads_sound (x : Config) (a : Action) (h : wholeReads x a = true) : WholeReads x a := by
  have hwhole {i : ItemId} (hi : x.state.readsWhole i = true) : x.state.ReadsWhole i := by
    intro file hfile _
    simp only [State.readsWhole, hfile, Option.all_some, Option.isNone_iff_eq_none] at hi
    rw [File.readAll, hi]
  rintro e i (⟨⟨rest, hstack⟩, rfl, -⟩ | ⟨rfl, -, hitem⟩)
  · exact hwhole (by simpa [wholeReads, hstack] using h)
  · exact hwhole (by simpa [wholeReads, hitem] using h)

/-- The server takes the report. -/
def acknowledged : Action := .event (.replyFinished 0 ⟨true, some 7⟩)

def reportAcknowledged : Config := (uploader.step sendingReport acknowledged).get (by decide)

theorem report_removed_after_success_sent :
    Acknowledged sendReport reportAtRest sendingReport acknowledged reportAcknowledged "/a.rcore" := by
  have hwhole : Guarded uploader WholeReads sendReport reportAtRest := .of_check wholeReads_sound (by decide)
  exact report_removed_after_success hwhole (Option.some_get _).symm (Option.some_get _).symm
    (by simp [acknowledged]) (by decide)

/-! ### What the code does when a read fails -/

/-- The second byte of the report cannot be read. -/
def damagedReport : Config :=
  ⟨blank .usbCable (fun p => if p = "/a.rcore" then some ⟨[1, 2], true, some 1⟩ else none) ["/cores"] true, []⟩

def sendingDamaged : Config := (uploader.run sendReport damagedReport).get (by decide)

def damagedAcknowledged : Config := (uploader.step sendingDamaged acknowledged).get (by decide)

/-- The first byte is sent, and the report is removed. -/
theorem damaged_report_removed :
    damagedAcknowledged.state.files "/a.rcore" = none ∧ sendingDamaged.state.files "/a.rcore" ≠ none ∧
      ¬Acknowledged sendReport damagedReport sendingDamaged acknowledged damagedAcknowledged "/a.rcore" := by
  refine ⟨by decide, by decide, ?_⟩
  rintro ⟨c, i, answer, body, file, -, -, hput, ⟨before, b, after, z, y, c', i', sent, hsplit, hrun, -, -, -,
    hfile, hcontent⟩, -⟩
  have hbody : body = [1] := by
    have hlog : sendingDamaged.state.log = [.returned true, .progressNotified 1, .put 0 0 "/a.rcore" [1],
      .startUpload 0, .nextItem 0, .enqueued 0, .accepted 0 false] := by decide
    simp only [hlog, List.mem_cons, Output.put.injEq, reduceCtorEq, List.not_mem_nil, or_false, false_or] at hput
    exact hput.2.2.2
  -- All along there are two bytes in it.
  have hall : ∀ before ∈ sendReport.inits,
      (uploader.run before damagedReport).map (·.state.files "/a.rcore") = some (some ⟨[1, 2], true, some 1⟩) := by
    decide
  have hthere := hall before ((List.mem_inits ..).mpr ⟨b :: after, hsplit.symm⟩)
  rw [hrun, Option.map_some, hfile] at hthere
  cases hthere
  rw [hbody] at hcontent
  cases hcontent

end CrashReporter.Upload
