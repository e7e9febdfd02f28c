import CrashReporter.Service.Batch
import CrashReporter.Upload.Verdict

/-! The first failure names the batch.

In the first batch of an engine the errors start empty, so the verdict is that of the
first failure. A failure that reports no message leaves the message free for a later
one; but it cancels an item that waits, and then the queue is cleared and the batch is
reported before anything else can happen (`Over`). -/
namespace CrashReporter.Upload
open Reactor
open Service (Phase Mark Label Move Ordered Underway)

variable {s : State}

/-- Every upload that starts is sent. -/
def Startable : Guard State Call Event := fun x act => Alone x act ∧
  ∀ i, Starts 0 x act i → HttpClient.createPutRequest (x.state.items i).filepath x.state ≠ none

def failureOf (x : Config) : Action → Option Failure
  | .run => none
  | .event ev => failure x.state ev

/-- The failures of a run, the first one first. -/
def failures : List Action → Config → List Failure
  | [], _ => []
  | act :: rest, x => match uploader.step x act with
    | some y => (failureOf x act).toList ++ failures rest y
    | none => []

/-- The errors that the first of these failures gives. -/
def named : List Failure → Errors
  | [] => (.noError, none)
  | f :: _ => (f.type, f.messages.head?)

/-- A later failure adds nothing to one that has a message. -/
theorem blamed_named {fs : List Failure} (htype : ∀ f ∈ fs, f.type ≠ .noError)
    (hmessages : ∀ f rest, fs = f :: rest → f.messages ≠ []) (o : Option Failure) :
    blamed o (named fs) = named (fs ++ o.toList) := by
  cases o with
  | none => simp [blamed]
  | some g =>
    cases fs with
    | nil => simp [blamed, named, Failure.blame, blame]
    | cons f rest =>
      have ht : f.type ≠ .noError := htype f (List.mem_cons_self ..)
      obtain ⟨m, messages, hm⟩ := List.exists_cons_of_ne_nil (hmessages f rest rfl)
      simp [blamed, named, Failure.blame, blame, ht, hm]

/-! ### A failure without a message -/

/-- An item was cancelled, or done() is being emitted. -/
def Over (x : Config) : Prop :=
  (∃ i rest, x.stack = .uploadFinished 0 i :: rest ∧ (x.state.items i).status = .cancelled) ∨
    ∃ rest, x.stack = .queueDone 0 :: rest

/-- Nothing but the two calls can come then. -/
theorem Over.passive {x : Config} (h : Over x) {ev : Event} (ha : admits ev x.stack = true) :
    ev.passive = true := by
  rcases h with ⟨i, rest, hstack, -⟩ | ⟨rest, hstack⟩
  all_goals
    rw [hstack] at ha
    rcases admits_cons ha with hp | ⟨_, _, _, hk⟩ | ⟨_, _, _, _, hk⟩
    · exact hp
    · cases hk
    · cases hk

theorem Over.event {x y : Config} {ev : Event} (h : Over x) (hs : uploader.step x (.event ev) = some y) :
    Over y := by
  obtain ⟨ha, r, hr, rfl⟩ := uploader.step_event hs
  obtain ⟨hcalls, hitems, -⟩ := deliver_passive (h.passive ha) hr
  unfold Over
  dsimp only
  rw [hcalls, hitems]
  exact h

section Step
variable {R : Rules} {a : Service ItemId}

/-- A cancelled item empties the queue. -/
theorem Over.run {x y : Config} (h : Over x) (hserves : Serves 0 x.state a)
    (hs : uploader.step x .run = some y) : Over y ∨ ∃ rest, x.stack = .queueDone 0 :: rest := by
  rcases h with ⟨i, rest, hstack, hcancelled⟩ | h
  · obtain ⟨k, rest', hstack', rfl⟩ := uploader.step_run hs
    obtain ⟨rfl, rfl⟩ := List.cons.inj (hstack.symm.trans hstack')
    refine .inl (.inr ⟨rest, ?_⟩)
    show (UploadEngine.uploadFinished 0 i x.state).2 ++ rest = _
    rw [uploadFinished_drains (.inl hcancelled), hserves.engines]
    rfl
  · exact .inr h

/-- A failure reports no message only when an item that waits is cancelled. -/
theorem over_of_messageless {ev : Event} {stack : List Call} {r : State × List Call}
    (h : Engaged R ⟨s, stack⟩ a) (hr : deliver ev s = some r) {i : ItemId}
    (hp : a.phase = .waiting i ∨ a.phase = .sending i) {f : Failure} (hf : failure s ev = some f)
    (hmessages : f.messages = []) : Over ⟨r.1, r.2 ++ stack⟩ := by
  obtain ⟨j, tail, hcalls, -, hcancelled⟩ := failure_ends h.served.serves h.uploads.owned hr hp hf
  refine .inl ⟨j, tail ++ stack, ?_, hcancelled hmessages⟩
  rw [hcalls]
  rfl

/-! ### The first batch -/

theorem hasReport_marks {log : List Output} : Service.HasReport (marks log) ↔ 0 < finishes log := by
  unfold finishes
  rw [List.countP_pos_iff]
  constructor
  · rintro ⟨sent, total, hm⟩
    obtain ⟨o, ho, he⟩ := mem_marks hm
    refine ⟨o, ho, ?_⟩
    cases o with
    | finished => rfl
    | fault f => cases f <;> cases he
    | _ => cases he
  · rintro ⟨o, ho, he⟩
    cases o with
    | finished e error sent total => exact ⟨sent, total, List.mem_filterMap.mpr ⟨_, ho, rfl⟩⟩
    | _ => cases he

/-- Nothing was enqueued yet. -/
structure Unopened (x : Config) : Prop where
  stack : x.stack = []
  clients : x.state.nextClient = 0
  queue : x.state.queue.notified = false
  current : (x.state.engines 0).currentItem = none
  session : (x.state.engines 0).networkSession = none
  errors : (x.state.engines 0).errors = (.noError, none)

/-- The first batch is under way, after these failures. -/
structure FirstBatch (fs : List Failure) (x : Config) (a : Service ItemId) : Prop where
  busy : a.phase ≠ .idle ∧ ∀ i, a.phase ≠ .echo i
  verdict : verdict x = named fs
  types : ∀ f ∈ fs, f.type ≠ .noError
  ended : ∀ f rest, fs = f :: rest → f.messages = [] → Over x

/-- What is known of an engine until its first batch is reported. -/
structure First (fs : List Failure) (x : Config) (a : Service ItemId) : Prop where
  engaged : Engaged ⟨True, True⟩ x a
  sent : ∀ i, a.phase ≠ .stalled i
  silent : x.state.Silent
  first : Service.HasReport a.trace ∨ Unopened x ∧ fs = [] ∨ FirstBatch fs x a

/-- Until the first item is enqueued nothing happens. -/
theorem Unopened.step {x y : Config} {act : Action} (h : Unopened x) (he : Engaged R x a)
    (hg : Alone x act) (hs : uploader.step x act = some y) : failureOf x act = none ∧
      (Unopened y ∨ y.state.queue.notified = true ∧ verdict y = (.noError, none)) := by
  obtain ⟨s, stack⟩ := x
  obtain rfl : stack = [] := h.stack
  cases act with
  | run => cases hs
  | event ev =>
    obtain ⟨-, r, hr, rfl⟩ := uploader.step_event hs
    replace hr : deliver ev s = some r := hr
    have hdead (c : ClientId) : s.clientAlive c = false := by
      have hzero : s.nextClient = 0 := h.clients
      simp [State.clientAlive, hzero]
    have hreply {c : ClientId} {p : Bool} {slot : State × List Call}
        (hr : deliverReply c s p slot = some r) : False := by
      obtain ⟨hc, -⟩ := deliverReply_some hr
      rw [hdead c] at hc
      cases hc
    have hcurrent (e : EngineId) : (s.engines e).currentItem = none := by
      rcases eq_or_ne e 0 with rfl | hne
      · exact h.current
      · exact (he.served.serves.others e hne).2
    by_cases hp : ev.passive = true
    · obtain ⟨hcalls, -, -, hengines, hqueue⟩ := deliver_passive hp hr
      have hnone := (verdict_passive [] hp hr).2
      have hclients : r.1.nextClient = s.nextClient := by
        cases ev with
        | environment | file | coreLocations | callUploadFiles | callQuit =>
          cases hr
          rfl
        | _ => cases hp
      refine ⟨hnone, .inl ⟨?_, hclients.trans h.clients, ?_, ?_, ?_, ?_⟩⟩
      · simp [hcalls]
      · exact hqueue ▸ h.queue
      · exact hengines ▸ h.current
      · exact hengines ▸ h.session
      · exact hengines ▸ h.errors
    cases ev with
    | enqueue file =>
      cases hr
      refine ⟨rfl, .inr ?_⟩
      have hserves : Serves 0 s a := he.served.serves
      have hn : s.queue.notified = false := h.queue
      have hq : s.queue.uploadQueue = [] := by
        rw [hserves.queue]
        exact he.ordered.empty (hserves.notified ▸ hn)
      have hengines : ((UploadQueue.enqueueNew file s).1.engines 0).errors = (.noError, none) := by
        rw [(Apart.enqueueNew file).engines]
        exact h.errors
      refine ⟨?_, ?_⟩
      · rw [UploadQueue.enqueueNew_first file hn hq]
        rfl
      · rw [← hengines]
        refine verdict_plain fun e i hm => ?_
        rw [UploadQueue.enqueueNew_first file hn hq] at hm
        simp at hm
    | cancelAll e =>
      cases hr
      have heq : UploadEngine.cancelAll e s = (s, []) := by
        simp [UploadEngine.cancelAll, UploadEngine.cancelCurrent, hcurrent e]
      rw [heq]
      refine ⟨?_, .inl h⟩
      show cancelFailure e s = none
      simp [cancelFailure, hcurrent e]
    | dispatch =>
      obtain ⟨i, rest, hposted⟩ := hg.2.2.2 rfl
      dsimp only at hposted
      simp only [deliver, dispatch, hposted, Option.some.injEq] at hr
      subst hr
      exact ⟨rfl, .inl ⟨rfl, h.clients, h.queue, h.current, h.session, h.errors⟩⟩
    | quitTimer | exit => cases hg.2.2.1 _ rfl
    | session e signal =>
      simp only [deliver, Option.ite_none_right_eq_some, Option.some.injEq] at hr
      have hsession : (s.engines e).networkSession = none := by
        rcases eq_or_ne e 0 with rfl | hne
        · exact h.session
        · exact (he.served.serves.others e hne).1
      simp [hsession] at hr
    | replyError | replyFinished | uploadProgress | sslErrors | timeout => exact (hreply hr).elim
    | environment | file | coreLocations | callUploadFiles | callQuit => exact absurd rfl hp

/-- A step of the first batch changes the verdict by its failure. -/
theorem FirstBatch.step {fs : List Failure} {x y : Config} {act : Action} (h : FirstBatch fs x a)
    (he : Engaged R x a) (hsent : ∀ i, a.phase ≠ .stalled i) (hsilent : x.state.Silent)
    (hg : Alone x act) (hs : uploader.step x act = some y) :
    Upload.verdict y = named (fs ++ (failureOf x act).toList) ∧
      ((∃ rest, x.stack = .queueDone 0 :: rest) ∧ act = .run ∨
        ∀ f rest, fs ++ (failureOf x act).toList = f :: rest → f.messages = [] → Over y) := by
  cases act with
  | run =>
    rw [show failureOf x .run = none from rfl, Option.toList_none, List.append_nil]
    refine ⟨(verdict_run he hs).trans h.verdict, ?_⟩
    by_cases hdone : ∃ rest, x.stack = .queueDone 0 :: rest
    · exact .inl ⟨hdone, rfl⟩
    · refine .inr fun f rest hfs hf => ?_
      exact ((h.ended f rest hfs hf).run he.served.serves hs).resolve_right hdone
  | event ev =>
    have hevent := hs
    obtain ⟨s, stack⟩ := x
    obtain ⟨ha, r, hr, rfl⟩ := uploader.step_event hs
    by_cases hp : ev.passive = true
    · obtain ⟨hsame, hnone⟩ := verdict_passive stack hp hr
      rw [show failureOf ⟨s, stack⟩ (.event ev) = none from hnone, Option.toList_none, List.append_nil]
      exact ⟨hsame.trans h.verdict, .inr fun f rest hfs hf => (h.ended f rest hfs hf).event hevent⟩
    · have hlive : live 0 a.phase = [] := he.served.live_of_admits ha (by simpa using hp)
      have hphase : ∃ i, a.phase = .waiting i ∨ a.phase = .sending i := by
        cases hph : a.phase with
        | waiting i => exact ⟨i, .inl rfl⟩
        | sending i => exact ⟨i, .inr rfl⟩
        | stalled i => exact absurd hph (hsent i)
        | idle => exact absurd hph h.busy.1
        | echo i => exact absurd hph (h.busy.2 i)
        | handing | ending | drained => simp [hph, live] at hlive
      obtain ⟨i, hphase⟩ := hphase
      -- What came before has a message, or nothing could come now.
      have hmessages (f : Failure) (rest : List Failure) (hfs : fs = f :: rest) : f.messages ≠ [] := by
        intro hf
        exact hp ((h.ended f rest hfs hf).passive ha)
      refine ⟨?_, .inr fun f rest hfs hf => ?_⟩
      · rw [verdict_event he hsilent hg hr (hphase.imp id Or.inl), h.verdict]
        exact blamed_named h.types hmessages _
      · cases fs with
        | cons g fs =>
          obtain ⟨rfl, -⟩ := List.cons.inj hfs
          exact absurd hf (hmessages g fs rfl)
        | nil =>
          have hof : failure s ev = some f := by
            rw [List.nil_append] at hfs
            cases hfail : failureOf ⟨s, stack⟩ (.event ev) with
            | none =>
              rw [hfail] at hfs
              cases hfs
            | some g =>
              rw [hfail] at hfs
              cases hfs
              exact hfail
          exact over_of_messageless he hr hphase hof hf

theorem First.step {fs : List Failure} {x y : Config} {act : Action} (h : First fs x a)
    (hg : Startable x act) (hs : uploader.step x act = some y) :
    ∃ a', First (fs ++ (failureOf x act).toList) y a' := by
  obtain ⟨halone, hfile⟩ := hg
  obtain ⟨labels, a', he, hadv⟩ := h.engaged.step trivial halone (fun _ _ => .inl trivial) hs
  have hsent := hadv.run.not_stalled (fun hl => by
    obtain ⟨i, hstarts, hnone⟩ := hadv.told _ hl
    exact hfile i hstarts hnone) h.sent
  refine ⟨a', he, hsent, h.engaged.silent_step halone hs h.silent, ?_⟩
  rcases h.first with hrep | ⟨hunopened, rfl⟩ | hbatch
  · exact .inl (hadv.run.invariant (I := fun b => Service.HasReport b.trace) (P := fun _ => True)
      (fun _ _ _ hm _ h => hm.hasReport h) (fun _ _ => trivial) hrep)
  · obtain ⟨hnone, hnext⟩ := hunopened.step h.engaged halone hs
    rw [hnone]
    refine .inr (hnext.imp (⟨·, rfl⟩) fun ⟨hn, hv⟩ => ?_)
    have hbusy : a'.phase.busy = true := he.served.serves.notified ▸ hn
    refine ⟨⟨?_, fun i => ?_⟩, hv, by simp, by simp⟩
    · intro hp
      rw [hp] at hbusy
      cases hbusy
    · intro hp
      rw [hp] at hbusy
      cases hbusy
  · by_cases hrep : Service.HasReport a'.trace
    · exact .inl hrep
    have hbusy := (hadv.run.underway (.inl hbatch.busy)).resolve_right hrep
    obtain ⟨hv, hover⟩ := hbatch.step h.engaged h.sent h.silent halone hs
    refine .inr (.inr ⟨hbusy, hv, fun f hf => ?_, hover.resolve_left ?_⟩)
    · rcases List.mem_append.mp hf with hf | hf
      · exact hbatch.types f hf
      · cases act with
        | run => simp [failureOf] at hf
        | event ev => exact failure_type (Option.mem_toList.mp hf)
    · rintro ⟨⟨rest, hstack⟩, rfl⟩
      apply hrep
      rw [← he.served.serves.trace, hasReport_marks]
      obtain ⟨s, stack⟩ := x
      obtain rfl : stack = .queueDone 0 :: rest := hstack
      obtain rfl : uploader.called (.queueDone 0) rest s = y := by simpa [Reactor.step] using hs
      show 0 < finishes (UploadEngine.queueDone 0 s).1.log
      rw [queueDone_finishes]
      omega

end Step

theorem first_attached (env : Environment) (files : Path → Option File) (coreLocations : List Path)
    (logWritable : Bool) : First [] (attached env files coreLocations logWritable) Service.fresh where
  engaged := engaged_attached _ env files coreLocations logWritable
  sent i hi := by cases hi
  silent i hi := rfl
  first := .inr (.inl ⟨⟨rfl, rfl, rfl, rfl, rfl, rfl⟩, rfl⟩)

theorem First.run {fs : List Failure} {as : List Action} {x y : Config} {a : Service ItemId}
    (h : First fs x a) (hg : Guarded uploader Startable as x) (hr : uploader.run as x = some y) :
    ∃ a', First (fs ++ failures as x) y a' := by
  induction as generalizing fs x a with
  | nil =>
    cases hr
    rw [failures, List.append_nil]
    exact ⟨a, h⟩
  | cons act rest ih =>
    obtain ⟨z, hz, hr'⟩ := Option.bind_eq_some_iff.mp hr
    obtain ⟨a', ha'⟩ := h.step hg.1 hz
    obtain ⟨a'', ha''⟩ := ih ha' (hg.2 z hz) hr'
    refine ⟨a'', ?_⟩
    rwa [failures, hz, ← List.append_assoc]

/-- When the first finished() is emitted, its error is the class of the first failure, and
the engine's message is the first one that this failure reports. -/
theorem first_failure_names_batch {env : Environment} {files : Path → Option File}
    {coreLocations : List Path} {logWritable : Bool} {as : List Action} {act : Action} {x y : Config}
    {e : EngineId} {error : ErrorType} {sent total : Nat}
    (hg : Guarded uploader Startable as (attached env files coreLocations logWritable))
    (hr : uploader.run as (attached env files coreLocations logWritable) = some x)
    (hfirst : finishes x.state.log = 0)
    (hact : Startable x act) (hs : uploader.step x act = some y)
    (hlog : y.state.log = .finished e error sent total :: x.state.log) :
    (error, (y.state.engines 0).errorMessage) =
      named (failures as (attached env files coreLocations logWritable)) := by
  obtain ⟨a, ha⟩ := (first_attached env files coreLocations logWritable).run hg hr
  rw [List.nil_append] at ha
  have hone : finishes y.state.log = 1 := by
    rw [hlog, finishes, List.countP_cons_of_pos (by rfl)]
    exact congrArg (· + 1) hfirst
  rcases ha.engaged.mute hact.1 hs with hm | ⟨t, ⟨rest, hstack⟩, -, hm, herrors, hy⟩
  · have heq := hm.finishes
    omega
  · have hbatch : verdict x = named (failures as (attached env files coreLocations logWritable)) := by
      rcases ha.first with hrep | ⟨hunopened, -⟩ | hbatch
      · rw [← ha.engaged.served.serves.trace, hasReport_marks] at hrep
        omega
      · rw [hunopened.stack] at hstack
        cases hstack
      · exact hbatch.verdict
    have hverdict : verdict x = (x.state.engines 0).errors := by
      unfold verdict
      rw [hstack]
    rw [← hbatch, hverdict, ← herrors]
    rw [hy] at hlog
    have hhead := (List.cons.inj hlog).1
    cases hhead
    rw [hy]
    simp [UploadEngine.emitFinished, Engine.errors]

/-- What `Startable` asks. -/
def startable (x : Config) (act : Action) : Bool := ofEngine act &&
  match act, x.stack with
  | .run, .uploadItem _ i :: _ => (HttpClient.createPutRequest (x.state.items i).filepath x.state).isSome
  | .event (.session e .opened), _ => (x.state.engines e).currentItem.all fun i =>
    (HttpClient.createPutRequest (x.state.items i).filepath x.state).isSome
  | _, _ => true

theorem startable_sound (x : Config) (act : Action) (h : startable x act = true) : Startable x act := by
  obtain ⟨hengine, h⟩ := Bool.and_eq_true_iff.mp h
  refine ⟨alone_of_ofEngine hengine, fun i hi => ?_⟩
  rcases hi with ⟨⟨rest, hstack⟩, rfl, -⟩ | ⟨rfl, -, hcurrent⟩
  · rw [hstack] at h
    exact Option.isSome_iff_ne_none.mp h
  · have hall : (x.state.engines 0).currentItem.all (fun i =>
        (HttpClient.createPutRequest (x.state.items i).filepath x.state).isSome) = true := h
    rw [hcurrent] at hall
    exact Option.isSome_iff_ne_none.mp hall

/-- The first reply fails, and the session is lost while the second item is sent. -/
def failTwice : List Action := [.event (.enqueue "/a.rcore"), .run, .run, .run,
  .event (.session 0 .opened), .event (.enqueue "/b.rcore"), .run, .event (.replyError 0 "Host not found"),
  .run, .run, .event (.session 0 (.error "Roaming error" false)), .run]

def failedTwice : Config := (uploader.run failTwice engineOnWlan).get (by decide)

theorem first_failure_names_batch_twice :
    failures failTwice engineOnWlan = [⟨.protocolError, ["Host not found"]⟩,
      ⟨.connectionClosed, ["Roaming error", HttpClient.abortMessage]⟩] ∧
    (ErrorType.protocolError, ((uploader.called (.queueDone 0) (failedTwice.stack.drop 1)
      failedTwice.state).state.engines 0).errorMessage) = named (failures failTwice engineOnWlan) := by
  have hlog : (uploader.called (.queueDone 0) (failedTwice.stack.drop 1) failedTwice.state).state.log =
      .finished 0 .protocolError 0 2 :: failedTwice.state.log := by decide
  exact ⟨by decide, first_failure_names_batch (Guarded.of_check startable_sound (by decide))
    (Option.some_get (x := uploader.run failTwice engineOnWlan) (by decide)).symm (by decide)
    (startable_sound _ .run (by decide)) (by rfl) hlog⟩

end CrashReporter.Upload
