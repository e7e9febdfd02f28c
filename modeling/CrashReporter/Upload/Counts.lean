import CrashReporter.Upload.Sequence

/-! What finished() says of a batch.

`total` counts the items enqueued since done() was emitted last, and `sent` those whose
reply finished without error. An item is counted after it has been handed out, so a
cancel in between comes before the count; and an upload that has no reply ends as
finished when it is cancelled, whether it was answered or not. -/
namespace CrashReporter.Upload
open Reactor
open Service (Mark Label Ordered Truthful)

/-- The counts of every finished() are those of the batch before it. -/
def CountsBatch (log : List Output) : Prop :=
  ∀ post pre e error sent total, log = post ++ .finished e error sent total :: pre →
    ∃ before, marks pre = .emptied :: before ∧
      total = (Service.enqueued (Service.batch before)).length ∧
      sent = Service.answeredCount (Service.batch before)

/-- No cancel comes before the item is counted, or when the current item's client has no
reply and still reports to the item. -/
def CancelsCounted : Guard State Call Event := fun x act => Alone x act ∧
  (Cancels 0 x act → .itemEnqueued ∉ x.stack ∧ ¬x.state.Answerless 0)

theorem counted_of_reaches {env : Environment} {files : Path → Option File}
    {coreLocations : List Path} {logWritable : Bool} {x : Config}
    (hx : Reaches uploader CancelsCounted (attached env files coreLocations logWritable) x) :
    ∃ a, Engaged ⟨True, True⟩ x a ∧ Truthful a := by
  induction hx with
  | start => exact ⟨_, engaged_attached .., Service.truthful_fresh⟩
  | next _ hg hs ih =>
    obtain ⟨a, ha, htrue⟩ := ih
    obtain ⟨halone, hcancels⟩ := hg
    obtain ⟨labels, a', ha', hadv⟩ := ha.step trivial halone (fun _ _ => .inl trivial) hs
    have hhonest (l : Label) (hl : l ∈ labels) : l.honest = true := by
      have htold := hadv.told l hl
      cases l with
      | cut => exact absurd htold.2 (hcancels htold.1).1
      | abandon | echo => exact absurd htold.2 (hcancels htold.1).2
      | _ => rfl
    have hrun := hadv.run.invariant (I := fun a => Ordered a ∧ Truthful a) (P := fun l => l.honest = true)
      (fun _ _ _ hm hl h => ⟨hm.ordered h.1, hm.truthful hl h.1 h.2⟩) hhonest ⟨ha.ordered, htrue⟩
    exact ⟨a', ha', hrun.2⟩

theorem counts_batch {env : Environment} {files : Path → Option File} {coreLocations : List Path}
    {logWritable : Bool} {x : Config}
    (hx : Reaches uploader CancelsCounted (attached env files coreLocations logWritable) x) :
    CountsBatch x.state.log := by
  obtain ⟨a, ha, htrue⟩ := counted_of_reaches hx
  intro post pre e error sent total hlog
  refine htrue.reports (marks post) (marks pre) sent total ?_
  rw [← ha.served.serves.trace, hlog, marks_append]
  rfl

/-- What `CancelsCounted` asks of steps that cancel nothing. -/
def cancelsNothing (x : Config) (act : Action) : Bool := ofEngine act &&
  match act, x.stack with
  | .run, .cancelAll _ :: _ => false
  | .event (.session ..), _ | .event (.cancelAll _), _ => false
  | _, _ => true

theorem cancelsNothing_sound (x : Config) (act : Action) (h : cancelsNothing x act = true) :
    CancelsCounted x act := by
  obtain ⟨hengine, h⟩ := Bool.and_eq_true_iff.mp h
  refine ⟨alone_of_ofEngine hengine, fun hc => ?_⟩
  rcases hc with rfl | ⟨⟨rest, hstack⟩, rfl⟩ | ⟨-, rfl | ⟨m, isOpen, rfl⟩⟩
  · cases h
  · rw [hstack] at h
    cases h
  · cases h
  · cases h

/-- One report is sent, and acknowledged. -/
def finishOne : List Action := [.event (.enqueue "/a.rcore"), .run, .run,
  .event (.replyFinished 0 ⟨true, some 7⟩), .run, .run]

def finishedOne : Config := (uploader.run finishOne engineAtRest).get (by decide)

theorem counts_batch_one : .finished 0 .noError 1 1 ∈ finishedOne.state.log ∧
    CountsBatch finishedOne.state.log := by
  refine ⟨by decide, counts_batch (Reaches.of_run .start (Guarded.of_check cancelsNothing_sound (by decide))
    (Option.some_get (x := uploader.run finishOne engineAtRest) (by decide)).symm)⟩

/-! ### What the code does when a cancel comes late, or early -/

/-- The file of the item is missing, and the owner cancels. -/
def cancelMissing : List Action := [.event (.enqueue "/b.rcore"), .run, .run, .event (.cancelAll 0),
  .run, .run]

def cancelledMissing : Config := (uploader.run cancelMissing engineAtRest).get (by decide)

/-- The item that could not be sent is reported as sent. -/
theorem counts_batch_missing : ∃ x, Reaches uploader Alone engineAtRest x ∧ ¬CountsBatch x.state.log := by
  refine ⟨cancelledMissing, ?_, fun h => ?_⟩
  · exact Reaches.of_run .start (Guarded.mono (fun _ _ => alone_of_ofEngine) (Guarded.of_forall
      (P := fun act => ofEngine act = true) (by decide) _)) (Option.some_get _).symm
  · have hlog : cancelledMissing.state.log = [] ++ .finished 0 .noError 1 1 ::
      [.queueDone, .itemDone 0, .clientFinished 0, .startUpload 0, .nextItem 0, .enqueued 0] := by decide
    obtain ⟨before, hmarks, -, hsent⟩ := h _ _ _ _ _ _ hlog
    obtain rfl : [.done 0, .started 0, .handed 0, .enqueued 0] = before :=
      (List.cons.inj (show _ = Mark.emptied :: before from hmarks)).2
    exact absurd hsent (by decide)

/-- The session fails while it is being opened. -/
def failInOpen : List Action := [.event (.enqueue "/a.rcore"), .run, .event (.session 0 (.error "" false)),
  .run, .run]

def failedInOpen : Config := (uploader.run failInOpen engineOnWlan).get (by decide)

/-- The item is reported before it is counted. -/
theorem counts_batch_early : ∃ x, Reaches uploader Alone engineOnWlan x ∧ ¬CountsBatch x.state.log := by
  refine ⟨failedInOpen, ?_, fun h => ?_⟩
  · exact Reaches.of_run .start (Guarded.mono (fun _ _ => alone_of_ofEngine) (Guarded.of_forall
      (P := fun act => ofEngine act = true) (by decide) _)) (Option.some_get _).symm
  · have hlog : failedInOpen.state.log = [] ++ .finished 0 .connectionNotAvailable 0 0 ::
      [.queueDone, .itemDone 0, .nextItem 0, .enqueued 0] := by decide
    obtain ⟨before, hmarks, htotal, -⟩ := h _ _ _ _ _ _ hlog
    obtain rfl : [.done 0, .handed 0, .enqueued 0] = before :=
      (List.cons.inj (show _ = Mark.emptied :: before from hmarks)).2
    exact absurd htotal (by decide)

end CrashReporter.Upload
