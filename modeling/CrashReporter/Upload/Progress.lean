import CrashReporter.Upload.Sequence

/-! While an item is being handled, something is outstanding that will end it.

An item waits for a session that was requested, or its client waits for a reply. Two
things leave it with nothing to wait for: an upload that does not start because its
file cannot be read, and a session that is deleted just after it was requested again. -/
namespace CrashReporter.Upload
open Reactor
open Service (Phase Label)

variable {s : State}

/-- The file of an item that starts can be read, and a session is not deleted while the
engine waits for it. -/
def Unhindered : Guard State Call Event := fun x act => Alone x act ∧
  (∀ i, Starts 0 x act i → HttpClient.createPutRequest (x.state.items i).filepath x.state ≠ none) ∧
    ((∃ rest, x.stack = .sessionGone 0 :: rest) → act = .run → (x.state.engines 0).state ≠ .connecting)

/-- The engine waits for a session that has neither opened nor failed, or its current
item for a reply that has not finished. -/
def Outstanding (s : State) : Prop :=
  ((s.engines 0).state = .connecting ∧
      ∃ session, (s.engines 0).networkSession = some session ∧ session.requested = true) ∨
    ∃ i c, (s.engines 0).currentItem = some i ∧ (s.items i).http = some c ∧
      (s.clients c).reply = true ∧ (s.clients c).network = .running

theorem unhindered_of_reaches {env : Environment} {files : Path → Option File}
    {coreLocations : List Path} {logWritable : Bool} {x : Config}
    (hx : Reaches uploader Unhindered (attached env files coreLocations logWritable) x) :
    ∃ a, Engaged ⟨False, True⟩ x a ∧ ∀ i, a.phase ≠ .stalled i := by
  induction hx with
  | start => exact ⟨_, engaged_attached .., by simp [Service.fresh]⟩
  | next _ hg hs ih =>
    obtain ⟨a, ha, hstalled⟩ := ih
    obtain ⟨halone, hfile, hgone⟩ := hg
    obtain ⟨labels, a', ha', hadv⟩ := ha.step trivial halone (fun hk he => .inr (hgone hk he)) hs
    refine ⟨a', ha', hadv.run.not_stalled (fun hl => ?_) hstalled⟩
    obtain ⟨i, hstarts, hnone⟩ := hadv.told _ hl
    exact hfile i hstarts hnone

/-- Between two events a busy queue waits for something. -/
theorem upload_outstanding {env : Environment} {files : Path → Option File}
    {coreLocations : List Path} {logWritable : Bool} {x : Config}
    (hx : Reaches uploader Unhindered (attached env files coreLocations logWritable) x)
    (hstack : x.stack = []) (hbusy : x.state.queue.notified = true) : Outstanding x.state := by
  obtain ⟨a, ha, hstalled⟩ := unhindered_of_reaches hx
  have hs := ha.served.serves
  have hd := hs.doing
  have hstands := ha.served.stands
  have hlive : live 0 a.phase = [] := by
    obtain ⟨tail, hcalls, -⟩ := ha.served.calls
    exact (List.append_eq_nil_iff.mp (hcalls.symm.trans hstack)).1
  rw [hs.notified] at hbusy
  cases hp : a.phase with
  | waiting i =>
    rw [hp] at hstands
    obtain ⟨hstate, hsession⟩ := hstands
    exact .inl ⟨hstate, hsession.resolve_left id⟩
  | sending i =>
    rw [hp] at hd
    obtain ⟨hh, -, c, hc⟩ := hd
    exact .inr ⟨i, c, hh.current, hc.http, hc.reply, ha.uploads.running c hc.reply⟩
  | stalled i => exact absurd hp (hstalled i)
  | idle | echo | drained => simp [hp, Phase.busy] at hbusy
  | handing | ending => simp [hp, live] at hlive

/-- What `Unhindered` asks of steps that start or delete nothing but readable uploads. -/
def unhindered (x : Config) (act : Action) : Bool := ofEngine act &&
  match act, x.stack with
  | .run, .uploadItem _ i :: _ => (HttpClient.createPutRequest (x.state.items i).filepath x.state).isSome
  | .run, .sessionGone _ :: _ => false
  | .event (.session ..), _ => false
  | _, _ => true

theorem unhindered_sound (x : Config) (act : Action) (h : unhindered x act = true) :
    Unhindered x act := by
  obtain ⟨hengine, h⟩ := Bool.and_eq_true_iff.mp h
  refine ⟨alone_of_ofEngine hengine, fun i hi => ?_, ?_⟩
  · rcases hi with ⟨⟨rest, hstack⟩, rfl, -⟩ | ⟨rfl, -⟩
    · rw [hstack] at h
      exact Option.isSome_iff_ne_none.mp h
    · cases h
  · rintro ⟨rest, hstack⟩ rfl
    rw [hstack] at h
    cases h

/-- The report is being sent. -/
def uploadOne : List Action := [.event (.enqueue "/a.rcore"), .run, .run]

def uploadingOne : Config := (uploader.run uploadOne engineAtRest).get (by decide)

theorem upload_outstanding_one : Outstanding uploadingOne.state :=
  upload_outstanding (Reaches.of_run .start (Guarded.of_check unhindered_sound (by decide))
    (Option.some_get (x := uploader.run uploadOne engineAtRest) (by decide)).symm) (by decide) (by decide)

/-! ### What the code does when the file is gone -/

/-- The engine is busy, and nothing is outstanding. -/
theorem not_outstanding {i : ItemId} (hcurrent : (s.engines 0).currentItem = some i)
    (hstate : (s.engines 0).state ≠ .connecting ∨ (s.engines 0).networkSession = none)
    (hreply : ∀ c, (s.items i).http = some c → (s.clients c).reply = false) : ¬Outstanding s := by
  rintro (⟨hconnecting, session, hsession, -⟩ | ⟨j, c, hj, hc, hr, -⟩)
  · rcases hstate with hne | hnone
    · exact hne hconnecting
    · rw [hnone] at hsession
      cases hsession
  · obtain rfl : i = j := Option.some.inj (hcurrent.symm.trans hj)
    rw [hreply c hc] at hr
    cases hr

/-- An item whose file is missing. -/
def uploadMissing : List Action := [.event (.enqueue "/b.rcore"), .run, .run]

def stuck : Config := (uploader.run uploadMissing engineAtRest).get (by decide)

/-- The upload does not start, nobody is told, and the queue stays busy. -/
theorem upload_stuck : ∃ x, Reaches uploader Alone engineAtRest x ∧ x.stack = [] ∧
    x.state.queue.notified = true ∧ ¬Outstanding x.state := by
  refine ⟨stuck, ?_, by decide, by decide, not_outstanding (i := 0) (by decide) (.inl (by decide)) ?_⟩
  · exact Reaches.of_run .start (Guarded.mono (fun _ _ => alone_of_ofEngine) (Guarded.of_forall
      (P := fun act => ofEngine act = true) (by decide) _)) (Option.some_get _).symm
  · intro c hc
    obtain rfl : 0 = c := Option.some.inj ((show _ = some 0 by decide).symm.trans hc)
    decide

/-! ### What the code does when a session is lost and asked for again -/

/-- The session is lost, and the owner enqueues the next item when it hears of the end of
the batch. -/
def reopen : List Action := [.event (.enqueue "/a.rcore"), .run, .run, .run,
  .event (.session 0 .disconnected), .run, .run, .event (.enqueue "/b.rcore"), .run, .run, .run, .run, .run]

def reopened : Config := (uploader.run reopen engineOnWlan).get (by decide)

/-- The session that was requested for the next item is deleted with the old one. -/
theorem upload_stuck_reopened : ∃ x, Reaches uploader Alone engineOnWlan x ∧ x.stack = [] ∧
    x.state.queue.notified = true ∧ ¬Outstanding x.state := by
  refine ⟨reopened, ?_, by decide, by decide, not_outstanding (i := 1) (by decide) (.inr (by decide)) ?_⟩
  · exact Reaches.of_run .start (Guarded.mono (fun _ _ => alone_of_ofEngine) (Guarded.of_forall
      (P := fun act => ofEngine act = true) (by decide) _)) (Option.some_get _).symm
  · intro c hc
    exact absurd ((show _ = none by decide).symm.trans hc) (by simp)

end CrashReporter.Upload
