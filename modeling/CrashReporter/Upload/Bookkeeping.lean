import CrashReporter.Bytes
import CrashReporter.Upload.Frame

/-! The end of a successful upload.

Before the client removes the file and reports, it logs where the server keeps the report:
in the first core directory that exists, and there may be none. -/
namespace CrashReporter.Upload

variable {s : State}

/-- `CReporterCoreRegistry::getCoreLocationPaths`: the core directories that exist. -/
def getCoreLocationPaths (coreDirs : List Path) (dirExists : Path → Bool) : List Path := coreDirs.filter dirExists

/-- The client's state while it handles the end of its reply. -/
structure Completes (c : ClientId) (answer : ServerReply) (s : State) : Prop where
  /-- Finished() is emitted, and there is no step outside the language. -/
  outputs : ∃ new, (HttpClient.handleFinished c answer s).1.log = new ++ s.log ∧
    new.count (.clientFinished c) = 1 ∧ ∀ f, .fault f ∉ new
  removed : (s.clients c).deleteFileFlag = true →
    (HttpClient.handleFinished c answer s).1.files (s.clients c).currentFile = none
  forgotten : ((HttpClient.handleFinished c answer s).1.clients c).reply = false
  state : ((HttpClient.handleFinished c answer s).1.clients c).clientState = .init

/-- What is put out for the record of an upload. -/
def Output.bookkeeping : Output → Bool
  | .uploadLog .. | .removed _ | .fault _ => true
  | _ => false

namespace HttpClient

theorem parseReply_outputs {c : ClientId} (answer : ServerReply) (hr : (s.clients c).reply = true) :
    ∃ new, parseReply c answer s = {s with log := new ++ s.log} ∧ (∀ o ∈ new, o.bookkeeping = true) ∧
      ((∃ f, .fault f ∈ new) ↔ answer.opens = true ∧ (∃ n, answer.submissionId = some n ∧ n ≠ 0) ∧
        s.coreLocations = []) := by
  obtain ⟨opens, submissionId⟩ := answer
  unfold parseReply
  rw [if_neg (by simp [hr])]
  cases opens with
  | false => exact ⟨[], rfl, by simp, by simp⟩
  | true =>
    cases submissionId with
    | none => exact ⟨[], rfl, by simp, by simp⟩
    | some n =>
      by_cases hn : n = 0
      · exact ⟨[], (show _ = s by simp [hn]), by simp, by simp [hn]⟩
      · by_cases hdirs : s.coreLocations = []
        · exact ⟨[.fault .emptyCoreLocations], (show _ = s.emit _ by simp [hn, hdirs]), by simp [Output.bookkeeping],
            by simp [hn, hdirs]⟩
        · obtain ⟨corePath, rest, hcons⟩ := List.exists_cons_of_ne_nil hdirs
          by_cases hlog : s.uploadLogWritable = true
          · exact ⟨[.uploadLog (corePath ++ "/uploadlog") (s.clients c).currentFile n],
              (show _ = s.emit _ by simp [hn, hcons, hlog]), by simp [Output.bookkeeping], by simp [hdirs]⟩
          · exact ⟨[], (show _ = s by simp [hn, hcons, hlog]), by simp, by simp [hdirs]⟩

theorem removeFile_outputs (path : Path) :
    ∃ files new, removeFile path s = {s with files := files, log := new ++ s.log} ∧
    files path = none ∧ (∀ o ∈ new, o.bookkeeping = true) ∧ ∀ f, .fault f ∉ new := by
  cases h : s.files path with
  | none => exact ⟨s.files, [], by simp [removeFile, h], h, by simp, by simp⟩
  | some file =>
    exact ⟨Function.update s.files path none, [.removed path], by simp [removeFile, h, State.emit], by simp,
      by simp [Output.bookkeeping], by simp⟩

theorem finished_fst (c : ClientId) : (finished c s).1.log = .clientFinished c :: s.log ∧
    (finished c s).1.files = s.files ∧ (finished c s).1.clients = s.clients := by
  unfold finished
  dsimp only
  split
  · exact ⟨rfl, rfl, rfl⟩
  · exact ⟨rfl, rfl, rfl⟩

def stopTimer (c : ClientId) (s : State) : State := s.setClient c {s.clients c with connectionTimeout := false}

/-- What is done with a reply that ended without an error. -/
def conclude (c : ClientId) (answer : ServerReply) (s : State) : State :=
  let s := parseReply c answer s
  if (s.clients c).deleteFileFlag then removeFile (s.clients c).currentFile s else s

def forget (c : ClientId) (s : State) : State := s.setClient c {s.clients c with reply := false, clientState := .init}

theorem handleFinished_reply {c : ClientId} (answer : ServerReply) (hr : (s.clients c).reply = true) :
    handleFinished c answer s = finished c (forget c (conclude c answer (stopTimer c s))) := by
  have hreply : ((s.setClient c {s.clients c with connectionTimeout := false}).clients c).reply = true := by
    simpa using hr
  unfold handleFinished
  dsimp only
  rw [if_pos hreply]
  rfl

/-- The reply is logged, the file removed. -/
theorem conclude_outputs {c : ClientId} (answer : ServerReply) (hr : (s.clients c).reply = true) :
    ∃ files new, conclude c answer s = {s with files := files, log := new ++ s.log} ∧
      ((s.clients c).deleteFileFlag = true → files (s.clients c).currentFile = none) ∧
      (∀ o ∈ new, o.bookkeeping = true) ∧
      ((∃ f, .fault f ∈ new) ↔ answer.opens = true ∧ (∃ n, answer.submissionId = some n ∧ n ≠ 0) ∧
        s.coreLocations = []) := by
  obtain ⟨new, hparse, hquiet, hfault⟩ := parseReply_outputs answer hr
  unfold conclude
  rw [hparse]
  dsimp only
  cases hflag : (s.clients c).deleteFileFlag with
  | false => exact ⟨s.files, new, rfl, by simp, hquiet, hfault⟩
  | true =>
    obtain ⟨files, later, hremove, hgone, hquiet', hfault'⟩ :=
      removeFile_outputs (s := {s with log := new ++ s.log}) (s.clients c).currentFile
    refine ⟨files, later ++ new, ?_, fun _ => hgone, ?_, ?_⟩
    · rw [if_pos rfl, hremove, List.append_assoc]
    · exact fun o ho => (List.mem_append.mp ho).elim (hquiet' o) (hquiet o)
    · rw [← hfault]
      refine exists_congr fun f => ⟨fun hf => ?_, List.mem_append_right _⟩
      exact (List.mem_append.mp hf).resolve_left (hfault' f)

end HttpClient

/-- The end is reached without an access out of range when the reply has no submission to
log, or there is a core directory. `submissionId` is what Qt makes of a body: none for what
is no JSON object, and 0 for an object without an id. -/
theorem completes_iff (submissionId : Content → Option Int) (coreDirs : List Path) (dirExists : Path → Bool)
    (c : ClientId) (opens : Bool) (body : Content) (s : State)
    (hdirs : s.coreLocations = getCoreLocationPaths coreDirs dirExists) (hr : (s.clients c).reply = true) :
    Completes c ⟨opens, submissionId body⟩ s ↔
      (opens = true → ∀ n, submissionId body = some n → n ≠ 0 → ∃ dir ∈ coreDirs, dirExists dir = true) := by
  have hstopped : ((HttpClient.stopTimer c s).clients c).reply = true := by simpa [HttpClient.stopTimer] using hr
  obtain ⟨files, new, hconclude, hgone, hquiet, hfault⟩ :=
    HttpClient.conclude_outputs ⟨opens, submissionId body⟩ hstopped
  obtain ⟨hlog, hfiles, hclients⟩ := HttpClient.finished_fst
    (s := HttpClient.forget c (HttpClient.conclude c ⟨opens, submissionId body⟩ (HttpClient.stopTimer c s))) c
  rw [← HttpClient.handleFinished_reply ⟨opens, submissionId body⟩ hr, hconclude] at hlog hfiles hclients
  have hempty : s.coreLocations = [] ↔ ¬∃ dir ∈ coreDirs, dirExists dir = true := by
    rw [hdirs]
    simp [getCoreLocationPaths]
  have hfaultless : (∀ f, .fault f ∉ new) ↔
      (opens = true → ∀ n, submissionId body = some n → n ≠ 0 → ∃ dir ∈ coreDirs, dirExists dir = true) := by
    rw [← not_exists, hfault, show (HttpClient.stopTimer c s).coreLocations = s.coreLocations from rfl, hempty]
    grind
  rw [← hfaultless]
  constructor
  · intro h f hf
    obtain ⟨new', hnew', -, hnone⟩ := h.outputs
    rw [hlog] at hnew'
    obtain rfl : .clientFinished c :: new = new' := List.append_cancel_right hnew'
    exact hnone f (List.mem_cons_of_mem _ hf)
  · intro h
    refine ⟨⟨.clientFinished c :: new, hlog, ?_, by simpa using h⟩, fun hflag => ?_, ?_, ?_⟩
    · have hnone : .clientFinished c ∉ new := fun hc => Bool.noConfusion (hquiet _ hc)
      rw [List.count_cons_self, List.count_eq_zero_of_not_mem hnone]
    · rw [hfiles]
      simpa [HttpClient.stopTimer, HttpClient.forget] using hgone (by simpa [HttpClient.stopTimer] using hflag)
    · simp [hclients, HttpClient.forget]
    · simp [hclients, HttpClient.forget]

/-- A client whose reply is there. -/
def replied (coreLocations : List Path) : State :=
  (blank .usbCable (fun p => if p = "/a.rcore" then some ⟨[1, 2], true, none⟩ else none) coreLocations true).setClient 0
    { item := 0, currentFile := "/a.rcore", clientState := .sending, reply := true, deleteFileFlag := true,
      connectionTimeout := false, network := .finished, body := [1, 2], connected := false }

/-- A body, and what Qt makes of it. -/
def acknowledgement : Content := Bytes.ascii "\x7b\"submission_id\":5\x7d"

def submissionOf (body : Content) : Option Int := if body = acknowledgement then some 5 else none

theorem completes_with_directory :
    Completes 0 ⟨true, submissionOf acknowledgement⟩ (replied ["/var/cache/core-dumps"]) :=
  (completes_iff submissionOf ["/var/cache/core-dumps"] (fun _ => true) 0 true acknowledgement
    (replied ["/var/cache/core-dumps"]) rfl rfl).mpr fun _ _ _ _ => ⟨"/var/cache/core-dumps", by simp, rfl⟩

/-- Where no core directory exists, the first one of none is asked for. -/
theorem no_core_directory : ¬Completes 0 ⟨true, submissionOf acknowledgement⟩
    (replied (getCoreLocationPaths ["/var/cache/core-dumps"] fun _ => false)) := by
  intro h
  obtain ⟨new, hnew, -, hnone⟩ := h.outputs
  have hlog : (HttpClient.handleFinished 0 ⟨true, submissionOf acknowledgement⟩
      (replied (getCoreLocationPaths ["/var/cache/core-dumps"] fun _ => false))).1.log =
        [.clientFinished 0, .removed "/a.rcore", .fault .emptyCoreLocations] := by
    decide
  have hempty : new ++ [] = [.clientFinished 0, .removed "/a.rcore", .fault .emptyCoreLocations] := hnew.symm.trans hlog
  rw [List.append_nil] at hempty
  exact hnone .emptyCoreLocations (by simp [hempty])

end CrashReporter.Upload
