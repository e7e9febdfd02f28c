import CrashReporter.Service.Batch
import CrashReporter.Upload.Counts
import CrashReporter.Upload.Verdict

/-! Cancelling is effective, and harmless when idle.

A cancel reaches the queue through the status of the current item. An item that waits or
is being sent ends as cancelled, and the queue is cleared; one that failed to start ends
as finished, and the queue goes on. Between batches the engine keeps its last item, and
cancels that one. `Cancellable` is what a cancel must find. -/
namespace CrashReporter.Upload
open Reactor
open Service (Phase Mark Label Move Ordered Doomed Closing)

variable {s : State}

/-- The owner leaves the engine alone. -/
def Untouched : Guard State Call Event := fun x act => Alone x act ∧
  (∀ file, act ≠ .event (.enqueue file)) ∧ ∀ e, act ≠ .event (.cancelAll e)

/-- The end of an item, or of the queue, is about to be handled. -/
def Pending (x : Config) : Prop :=
  (∃ i rest, x.stack = .uploadFinished 0 i :: rest) ∨ ∃ rest, x.stack = .queueDone 0 :: rest

/-- A cancel, from `x` to `y`, ends the batch. -/
structure Ends (x y : Config) : Prop where
  /-- No item that was queued is ever started. -/
  unstarted : ∀ z, Reaches uploader Alone y z → ∀ j ∈ x.state.queue.uploadQueue, .startUpload j ∉ z.state.log
  /-- finished() is emitted once, and the queue is empty then. -/
  once : ∀ z, Reaches uploader Untouched y z →
    Pending z ∧ finishes z.state.log = finishes x.state.log ∨
      z.state.queue.uploadQueue = [] ∧ finishes z.state.log = finishes x.state.log + 1
  reported : ∃ z, uploader.run [.run, .run] y = some z ∧ finishes z.state.log = finishes x.state.log + 1

/-- A cancel, from `x` to `y`, touches no item and emits nothing. -/
structure Harmless (x y : Config) : Prop where
  items : y.state.items = x.state.items
  log : y.state.log = x.state.log
  stack : y.stack = x.stack

/-- While a batch is active: nothing is queued behind an item that failed to start.
Otherwise: the engine had no item yet, or its last one is still there, was cancelled
before, and never had a client. -/
def Cancellable (s : State) : Prop := ∀ i, (s.engines 0).currentItem = some i →
  if s.queue.notified then (s.items i).status = .error → s.queue.uploadQueue = []
  else (s.items i).alive = true ∧ (s.items i).status = .cancelled ∧ (s.items i).http = none

/-! ### What a cancel leads to -/

theorem reports_marks (log : List Output) : Service.reports (marks log) = finishes log := by
  induction log with
  | nil => rfl
  | cons o log ih =>
    have hcons (hm : o.mark = none) (ho : finishes (o :: log) = finishes log) :
        Service.reports (marks (o :: log)) = finishes (o :: log) := by
      rw [ho, ← ih]
      exact congrArg Service.reports (List.filterMap_cons_none hm)
    have hmark {m : Mark ItemId} (hm : o.mark = some m) (hr : m.isReported = false)
        (ho : finishes (o :: log) = finishes log) :
        Service.reports (marks (o :: log)) = finishes (o :: log) := by
      rw [ho, ← ih, marks, List.filterMap_cons_some hm]
      exact Service.reports_cons hr _
    cases o with
    | finished e error sent total =>
      show Service.reports (.reported sent total :: marks log) = finishes (.finished e error sent total :: log)
      rw [Service.reports, finishes, List.countP_cons_of_pos (by rfl), List.countP_cons_of_pos (by rfl)]
      exact congrArg (· + 1) ih
    | fault f =>
      cases f with
      | emptyQueue => exact hmark rfl rfl rfl
      | _ => exact hcons rfl rfl
    | enqueued | nextItem | startUpload | succeeded | itemDone | dropped | queueDone => exact hmark rfl rfl rfl
    | _ => exact hcons rfl rfl

section Step
variable {R : Rules} {a : Service ItemId}

/-- The stack when a phase ends in a call. -/
theorem Served.stack_of_closing {x : Config} (h : Served R (fun _ => False) 0 x a)
    (hc : a.phase.closing a.queued) : Pending x := by
  obtain ⟨tail, hstack, -⟩ := h.calls
  cases hp : a.phase with
  | ending i outcome =>
    rw [hp] at hstack
    exact .inl ⟨i, tail, hstack⟩
  | drained =>
    rw [hp] at hstack
    exact .inr ⟨tail, hstack⟩
  | idle | handing | waiting | sending | stalled | echo => simp [hp, Phase.closing] at hc

/-- Left alone, a batch that comes to its end does nothing but that. -/
theorem Engaged.closing {x y : Config} {act : Action} {n : Nat} (h : Engaged ⟨True, True⟩ x a)
    (hc : Closing n a) (hg : Untouched x act) (hs : uploader.step x act = some y) :
    ∃ a', Engaged ⟨True, True⟩ y a' ∧ Closing n a' := by
  obtain ⟨halone, henqueue, hcancel⟩ := hg
  obtain ⟨labels, a', h', hadv, hmakes⟩ := h.makes trivial halone (fun _ _ => .inl trivial) hs
  refine ⟨a', h', hadv.run.closing (fun l hl => ?_) h.ordered hc⟩
  cases l with
  | hand =>
    obtain ⟨file, rfl⟩ := hmakes _ hl
    exact absurd rfl (henqueue file)
  | echo =>
    -- Nobody cancels: the owner does not, and the session is not in use.
    exfalso
    obtain ⟨s, stack⟩ := x
    rcases (hadv.told _ hl).1 with rfl | ⟨⟨rest, hstack⟩, rfl⟩ | ⟨hstate, hsignal⟩
    · exact hcancel 0 rfl
    · obtain rfl : stack = .cancelAll 0 :: rest := hstack
      have hforeign := h.served.not_foreign
      cases hforeign
    · obtain ⟨ev, rfl, hp⟩ : ∃ ev, act = .event ev ∧ ev.passive = false := by
        rcases hsignal with rfl | ⟨m, isOpen, rfl⟩
        · exact ⟨_, rfl, rfl⟩
        · exact ⟨_, rfl, rfl⟩
      have hlive := h.served.live_of_admits (uploader.step_event hs).1 hp
      have hstands : Stands _ (s.engines 0) a.phase := h.served.stands
      rcases hc with ⟨hc, -⟩ | ⟨hp, -⟩
      · cases hp : a.phase with
        | ending | drained => simp [hp, live] at hlive
        | idle | handing | waiting | sending | stalled | echo => simp [hp, Phase.closing] at hc
      · exact ((stands_cases hstands hlive).2.mp hp).1 (hstate.resolve_right
          ((stands_cases hstands hlive).2.mp hp).2)
  | _ => rfl

/-- What the service is like when a cancel ends the current item. -/
theorem ends_of_closing {x y : Config} {i : ItemId} {rest : List Call} (h : Engaged ⟨True, True⟩ y a)
    (hstack : y.stack = .uploadFinished 0 i :: rest)
    (hitem : (y.state.items i).status = .cancelled ∨ y.state.queue.uploadQueue = [])
    (hqueue : y.state.queue.uploadQueue = x.state.queue.uploadQueue)
    (hfinishes : finishes y.state.log = finishes x.state.log)
    (hphase : ∃ outcome, a.phase = .ending i outcome ∧ (outcome = .cancelled ∨ a.queued = [])) :
    Ends x y := by
  obtain ⟨outcome, hp, hout⟩ := hphase
  have hqueued : a.queued = x.state.queue.uploadQueue := h.served.serves.queue.symm.trans hqueue
  have hdoomed : Doomed x.state.queue.uploadQueue a := by
    rcases hout with rfl | hq
    · refine .inl ⟨⟨i, hp⟩, fun j hj => ?_⟩
      rw [hqueued]
      exact hj
    · refine .inr fun j hj => ?_
      rw [← hqueued, hq] at hj
      cases hj
  have hclosing : Closing (finishes x.state.log) a := by
    refine .inl ⟨?_, ?_⟩
    · rw [hp]
      exact hout
    · rw [← h.served.serves.trace, reports_marks, hfinishes]
  refine ⟨fun z hz => ?_, fun z hz => ?_, ?_⟩
  · have hrun : ∃ b, Engaged ⟨True, True⟩ z b ∧ Doomed x.state.queue.uploadQueue b := by
      induction hz with
      | start => exact ⟨a, h, hdoomed⟩
      | next _ hg hs ih =>
        obtain ⟨b, hb, hd⟩ := ih
        obtain ⟨labels, b', hb', hadv⟩ := hb.step trivial hg (fun _ _ => .inl trivial) hs
        exact ⟨b', hb', hadv.run.doomed hb.ordered hd⟩
    obtain ⟨b, hb, hd⟩ := hrun
    intro j hj hm
    refine hd.not_started hb.ordered j hj ?_
    rw [← hb.served.serves.trace]
    exact List.mem_filterMap.mpr ⟨.started j, List.mem_filterMap.mpr ⟨_, hm, rfl⟩, rfl⟩
  · have hrun : ∃ b, Engaged ⟨True, True⟩ z b ∧ Closing (finishes x.state.log) b := by
      induction hz with
      | start => exact ⟨a, h, hclosing⟩
      | next _ hg hs ih =>
        obtain ⟨b, hb, hc⟩ := ih
        exact hb.closing hc hg hs
    obtain ⟨b, hb, hc⟩ := hrun
    have hreports : Service.reports b.trace = finishes z.state.log := by
      rw [← hb.served.serves.trace, reports_marks]
    rcases hc with ⟨hc, hn⟩ | ⟨-, hq, hn⟩
    · exact .inl ⟨hb.served.stack_of_closing hc, hreports.symm.trans hn⟩
    · exact .inr ⟨hb.served.serves.queue.trans hq, hreports.symm.trans hn⟩
  · obtain ⟨t, stack⟩ := y
    obtain rfl : stack = .uploadFinished 0 i :: rest := hstack
    have hdone : uploader.called (.uploadFinished 0 i) rest t =
        ⟨(UploadEngine.uploadFinished 0 i t).1, .queueDone 0 :: rest⟩ := by
      show (⟨_, (UploadEngine.uploadFinished 0 i t).2 ++ rest⟩ : Config) = _
      have hengines : t.queue.engines = [0] := h.served.serves.engines
      rw [uploadFinished_drains hitem, hengines]
      rfl
    refine ⟨uploader.called (.queueDone 0) rest (UploadEngine.uploadFinished 0 i t).1, ?_, ?_⟩
    · show (some (uploader.called (.uploadFinished 0 i) rest t)).bind (uploader.run [.run]) = _
      rw [hdone]
      rfl
    · have hmute := (mute_uploadFinished 0 i (s := t)).finishes
      rw [← hfinishes, ← hmute]
      exact queueDone_finishes 0

/-- A cancel of the item that is being served. -/
theorem Engaged.cancel_ends {x y : Config} (h : Engaged ⟨True, True⟩ x a)
    (hs : uploader.step x (.event (.cancelAll 0)) = some y) {i : ItemId}
    (hp : a.phase = .waiting i ∨ a.phase = .sending i ∨ a.phase = .stalled i ∧ a.queued = []) : Ends x y := by
  have halone : Alone x (.event (.cancelAll 0)) := alone_of_ofEngine rfl
  obtain ⟨labels, a', h', hadv⟩ := h.step trivial halone (fun _ _ => .inl trivial) hs
  obtain ⟨s, stack⟩ := x
  obtain ⟨-, r, hr, rfl⟩ := uploader.step_event hs
  have hmute : finishes r.1.log = finishes s.log := by
    replace hr : deliver (.cancelAll 0) s = some r := hr
    exact (mute_event hr rfl (by simp)).finishes
  have hserves : Serves 0 s a := h.served.serves
  have howned : s.Owned := h.uploads.owned
  have hn : s.queue.notified = true := by
    rw [hserves.notified]
    rcases hp with hp | hp | ⟨hp, -⟩ <;> rw [hp] <;> rfl
  have hcancel (hh : s.Handles 0 i) : r = UploadItem.cancel i s := by
    cases hr
    exact hh.cancelCurrent
  -- The cancel leaves the queue, and the end of the item pending.
  have hends {t : State} {tail : List Call} (hrt : r = (t, .uploadFinished 0 i :: tail))
      (hqueue : t.queue = s.queue) (hstatus : (t.items i).status = .cancelled ∨ a.queued = []) :
      Ends ⟨s, stack⟩ ⟨r.1, r.2 ++ stack⟩ := by
    subst hrt
    have hq : t.queue.uploadQueue = a.queued := by rw [hqueue, hserves.queue]
    have hq' : a'.queued = a.queued := h'.served.serves.queue.symm.trans hq
    obtain ⟨outcome, hp', hafter⟩ := h'.served.ending_of_stack (hqueue ▸ hn)
    refine ends_of_closing h' rfl ?_ (congrArg Queue.uploadQueue hqueue) hmute ⟨outcome, hp', ?_⟩
    · exact hstatus.imp id hq.trans
    · rw [hq']
      refine hstatus.imp (fun hc => ?_) id
      cases outcome with
      | cancelled => rfl
      | finished | failed => cases hc.symm.trans hafter
  have hd := hserves.doing
  rcases hp with hp | hp | ⟨hp, hq⟩
  · rw [hp] at hd
    obtain ⟨hh, hst, hhttp⟩ := hd
    have heq := (hcancel hh).trans (UploadItem.cancel_waiting hst hhttp)
    rw [uploadFinishedCalls_eq hh] at heq
    exact hends heq rfl (.inl (by simp))
  · rw [hp] at hd
    obtain ⟨hh, hst, c, hc⟩ := hd
    exact hends ((hcancel hh).trans (UploadItem.cancel_sending howned hh hst hc)) rfl (.inl (by simp))
  · rw [hp] at hd
    obtain ⟨hh, hst, c, hc⟩ := hd
    exact hends ((hcancel hh).trans (UploadItem.cancel_stalled howned hh hst hc)) rfl (.inr hq)

/-! ### The item that failed to start, and the next one -/

theorem UploadItem.startUpload_logged (i : ItemId) : .startUpload i ∈ (startUpload i s).1.log := by
  cases hb : HttpClient.createPutRequest (s.items i).filepath s with
  | none => simp [startUpload_failed i hb]
  | some body => simp [startUpload_sent i hb]

/-- An item that is handed out can be started, by its session at the latest. -/
theorem uploadItem_starts {j : ItemId} (hj : s.Fresh j) (rest : List Call) : ∃ as z,
    (∀ act ∈ as, ofEngine act = true) ∧ uploader.run as ⟨s, .uploadItem 0 j :: rest⟩ = some z ∧
      .startUpload j ∈ z.state.log := by
  by_cases hready : NwSessionMgr.ready 0 s = true
  · refine ⟨[.run], uploader.called (.uploadItem 0 j) rest s, by simp [ofEngine], rfl, ?_⟩
    show .startUpload j ∈ (UploadEngine.uploadItem 0 j s).1.log
    rw [UploadEngine.uploadItem_eq, if_pos hready]
    exact UploadItem.startUpload_logged j
  · have hcalled : uploader.called (.uploadItem 0 j) rest s =
        ⟨NwSessionMgr.setSession 0 (some ⟨false, true⟩) (UploadEngine.take 0 j s), .sessionOpen 0 :: rest⟩ := by
      show (⟨_, (UploadEngine.uploadItem 0 j s).2 ++ rest⟩ : Config) = _
      show (⟨(UploadEngine.uploadItem 0 j s).1, _⟩ : Config) = _
      rw [UploadEngine.uploadItem_eq, if_neg hready]
      rfl
    refine ⟨[.run, .event (.session 0 .opened)], ⟨UploadEngine.sessionOpened 0 (NwSessionMgr.setSession 0
      (some ⟨true, false⟩) (NwSessionMgr.setSession 0 (some ⟨false, true⟩) (UploadEngine.take 0 j s))),
      .sessionOpen 0 :: rest⟩, by simp [ofEngine], ?_, ?_⟩
    · show (some (uploader.called (.uploadItem 0 j) rest s)).bind (uploader.run [.event (.session 0 .opened)]) = _
      rw [hcalled]
      simp [Reactor.run, Reactor.step, uploader, admits, deliver, NwSessionMgr.setSession, NwSessionMgr.signal]
    · simp [UploadEngine.sessionOpened, NwSessionMgr.setSession, UploadEngine.take_eq, UploadEngine.stateChange,
        hj.alive, UploadItem.startUpload_logged]

/-- The item that failed to start ends as finished, and the queue goes on. -/
theorem Engaged.cancel_goes_on {x y : Config} (h : Engaged ⟨True, True⟩ x a)
    (hs : uploader.step x (.event (.cancelAll 0)) = some y) {i : ItemId} (hp : a.phase = .stalled i)
    (hq : a.queued ≠ []) : ¬Ends x y := by
  obtain ⟨j, queued, hqueued⟩ := List.exists_cons_of_ne_nil hq
  obtain ⟨labels, a', h', -⟩ := h.step trivial (alone_of_ofEngine rfl) (fun _ _ => .inl trivial) hs
  obtain ⟨s, stack⟩ := x
  obtain ⟨-, r, hr, rfl⟩ := uploader.step_event hs
  have hserves : Serves 0 s a := h.served.serves
  have hd := hserves.doing
  rw [hp] at hd
  obtain ⟨hh, hst, c, hc⟩ := hd
  have hcancel : r = UploadItem.cancel i s := by
    cases hr
    exact hh.cancelCurrent
  rw [hcancel, UploadItem.cancel_stalled h.uploads.owned hh hst hc] at h' ⊢
  dsimp only [List.cons_append, List.nil_append] at h' ⊢
  generalize ht : ({s with
      clients := Function.update s.clients c {s.clients c with
        connectionTimeout := false
        clientState := .init}
      items := Function.update s.items i {s.items i with status := .finished}
      log := .clientFinished c :: s.log} : State) = t at h' ⊢
  have hfinished : (t.items i).status = .finished := by simp [← ht]
  have hqueue : t.queue = s.queue := by rw [← ht]
  have hnext : t.queue.uploadQueue = j :: queued := by rw [hqueue, hserves.queue, hqueued]
  -- The next item is handed out.
  have hcalls : (UploadEngine.uploadFinished 0 i t).2 = [.uploadItem 0 j] := by
    rw [UploadEngine.uploadFinished_finished hfinished, UploadItem.markDone_next i (by exact hnext)]
    show t.queue.engines.map (Call.uploadItem · j) = _
    rw [hqueue, hserves.engines]
    rfl
  have hu : uploader.step ⟨t, .uploadFinished 0 i :: stack⟩ .run =
      some ⟨(UploadEngine.uploadFinished 0 i t).1, .uploadItem 0 j :: stack⟩ := by
    show some (⟨_, (UploadEngine.uploadFinished 0 i t).2 ++ stack⟩ : Config) = _
    rw [hcalls]
    rfl
  obtain ⟨labels', a'', h'', -⟩ := h'.step trivial (alone_of_ofEngine rfl) (fun _ _ => .inl trivial) hu
  have hfresh : (UploadEngine.uploadFinished 0 i t).1.Fresh j := by
    have hd := h''.served.serves.doing
    rcases h''.served.cases.2 with hk | ⟨-, hk | hk⟩
    · cases hp' : a''.phase with
      | handing k =>
        rw [hp'] at hk hd
        cases hk
        exact hd
      | idle | waiting | sending | stalled | ending | echo | drained => simp [hp', live] at hk
    · exact hk.elim
    · exact hk.elim
  obtain ⟨as, z, has, hz, hlog⟩ := uploadItem_starts hfresh stack
  intro hends
  refine hends.unstarted z ?_ j ?_ hlog
  · refine Reaches.of_run (.next .start (alone_of_ofEngine rfl) hu) ?_ hz
    exact (Guarded.of_forall has _).mono fun _ _ => alone_of_ofEngine
  · show j ∈ s.queue.uploadQueue
    rw [hserves.queue, hqueued]
    exact List.mem_cons_self ..

/-! ### Between batches -/

theorem HttpClient.cancel_logged {c : ClientId} (hr : (s.clients c).reply = false) :
    (cancel c s).1.log = .clientFinished c :: s.log := by
  rw [cancel_idle c hr, handleFinished_idle c _ (by simpa using hr)]
  unfold finished
  dsimp only
  split <;> rfl

/-- Between batches a cancel changes nothing only when it finds nothing to change. -/
theorem harmless_iff {x y : Config} (h : Engaged R x a) (hp : a.phase = .idle)
    (hs : uploader.step x (.event (.cancelAll 0)) = some y) : Harmless x y ↔
      ∀ i, (x.state.engines 0).currentItem = some i → (x.state.items i).alive = true ∧
        (x.state.items i).status = .cancelled ∧ (x.state.items i).http = none := by
  obtain ⟨s, stack⟩ := x
  obtain ⟨-, r, hr, rfl⟩ := uploader.step_event hs
  cases hr
  have hpast := h.served.serves.doing
  rw [hp] at hpast
  have hquiet (c : ClientId) : (s.clients c).Quiet := h.served.serves.quiet c (by simp [hp])
  show Harmless ⟨s, stack⟩ ⟨(UploadEngine.cancelCurrent 0 s).1, (UploadEngine.cancelCurrent 0 s).2 ++ stack⟩ ↔ _
  cases hc : (s.engines 0).currentItem with
  | none =>
    have heq : UploadEngine.cancelCurrent 0 s = (s, []) := by simp [UploadEngine.cancelCurrent, hc]
    rw [heq]
    constructor
    · intro _ i hi
      cases hi
    · exact fun _ => ⟨rfl, rfl, rfl⟩
  | some i =>
    by_cases ha : (s.items i).alive = true
    · have heq : UploadEngine.cancelCurrent 0 s = UploadItem.cancel i s := by
        simp [UploadEngine.cancelCurrent, hc, ha]
      have hst : (s.items i).status ≠ .waiting := ((hpast i hc).2 ha).1
      rw [heq]
      cases hh : (s.items i).http with
      | none =>
        have hcancel : UploadItem.cancel i s = (UploadItem.setStatus i .cancelled s, []) := by
          simp [UploadItem.cancel, UploadItem.setStatus, hst, hh]
        rw [hcancel]
        constructor
        · rintro ⟨hitems, -, -⟩ j hj
          cases hj
          refine ⟨ha, ?_, hh⟩
          have hi := congrFun hitems i
          simp only [UploadItem.setStatus, State.setItem_items, Function.update_self] at hi
          exact (congrArg Item.status hi).symm
        · intro hall
          obtain ⟨-, hcancelled, -⟩ := hall i rfl
          refine ⟨?_, rfl, rfl⟩
          show Function.update s.items i {s.items i with status := .cancelled} = s.items
          rw [← hcancelled]
          exact Function.update_eq_self i s.items
      | some c =>
        rw [UploadItem.cancel_started hst hh]
        constructor
        · rintro ⟨-, hlog, -⟩
          have hlogged := HttpClient.cancel_logged (s := UploadItem.setStatus i .cancelled s) (c := c)
            (hquiet c).reply
          exact absurd (hlogged.symm.trans hlog) (List.cons_ne_self _ _)
        · intro hall
          obtain ⟨-, -, hnone⟩ := hall i rfl
          cases hh.symm.trans hnone
    · have heq : UploadEngine.cancelCurrent 0 s = (s.emit (.fault .deletedItem), []) := by
        simp [UploadEngine.cancelCurrent, hc, ha]
      rw [heq]
      constructor
      · rintro ⟨-, hlog, -⟩
        exact absurd hlog (List.cons_ne_self _ _)
      · exact fun hall => absurd (hall i rfl).1 ha

end Step

/-- A cancel ends an active batch, and does nothing between batches, exactly when it finds
what `Cancellable` says. -/
theorem cancel_effective {env : Environment} {files : Path → Option File} {coreLocations : List Path}
    {logWritable : Bool} {x y : Config}
    (hx : Reaches uploader Alone (attached env files coreLocations logWritable) x)
    (hs : uploader.step x (.event (.cancelAll 0)) = some y) :
    (x.state.queue.notified = true → Ends x y) ∧ (x.state.queue.notified = false → Harmless x y) ↔
      Cancellable x.state := by
  obtain ⟨a, ha⟩ := engaged_of_reaches (fun _ _ => id) hx
  have hserves := ha.served.serves
  have hd := hserves.doing
  have hlive : live 0 a.phase = [] := ha.served.live_of_admits (uploader.step_event hs).1 rfl
  have hn := hserves.notified
  unfold Cancellable
  cases hp : a.phase with
  | idle =>
    have hidle : x.state.queue.notified = false := by rw [hn, hp]; rfl
    simp [hidle, harmless_iff ha hp hs]
  | waiting i =>
    have hbusy : x.state.queue.notified = true := by rw [hn, hp]; rfl
    rw [hp] at hd
    have hends : Ends x y := ha.cancel_ends hs (.inl hp)
    simp [hbusy, hends, hd.1.current, hd.2.1]
  | sending i =>
    have hbusy : x.state.queue.notified = true := by rw [hn, hp]; rfl
    rw [hp] at hd
    have hends : Ends x y := ha.cancel_ends hs (.inr (.inl hp))
    simp [hbusy, hends, hd.1.current, hd.2.1]
  | stalled i =>
    have hbusy : x.state.queue.notified = true := by rw [hn, hp]; rfl
    rw [hp] at hd
    have hends : Ends x y ↔ a.queued = [] := by
      constructor
      · intro hends
        by_contra hq
        exact ha.cancel_goes_on hs hp hq hends
      · exact fun hq => ha.cancel_ends hs (.inr (.inr ⟨hp, hq⟩))
    simp [hbusy, hends, hd.1.current, hd.2.1, hserves.queue]
  | handing | ending | echo | drained => simp [hp, live] at hlive

/-- The first item waits for its session, and the second one is queued. -/
def enqueueTwo : List Action := [.event (.enqueue "/a.rcore"), .run, .run, .run, .event (.enqueue "/b.rcore"), .run]

def waitingTwo : Config := (uploader.run enqueueTwo engineOnWlan).get (by decide)

def cancelledTwo : Config := (uploader.step waitingTwo (.event (.cancelAll 0))).get (by decide)

theorem cancel_effective_two : Ends waitingTwo cancelledTwo := by
  refine ((cancel_effective (reaches_ofEngine enqueueTwo (by decide) (Option.some_get _).symm)
    (Option.some_get _).symm).mpr fun i hi => ?_).1 (by decide)
  obtain rfl : 0 = i := Option.some.inj ((show _ = some 0 by decide).symm.trans hi)
  decide

/-! ### What the code does with an item that failed to start, and between batches -/

/-- The file of the first item is missing, and the second one is queued. -/
def enqueueMissing : List Action := [.event (.enqueue "/b.rcore"), .run, .run, .event (.enqueue "/a.rcore"), .run]

def missingFirst : Config := (uploader.run enqueueMissing engineAtRest).get (by decide)

/-- The queue goes on after a cancel; and a cancel between batches reaches the last item,
which reports to the engine once more. -/
theorem cancel_ineffective :
    (∃ x y, Reaches uploader Alone engineAtRest x ∧ uploader.step x (.event (.cancelAll 0)) = some y ∧
      x.state.queue.notified = true ∧ ¬Ends x y) ∧
    ∃ x y, Reaches uploader Alone engineAtRest x ∧ uploader.step x (.event (.cancelAll 0)) = some y ∧
      x.state.queue.notified = false ∧ ¬Harmless x y := by
  constructor
  · refine ⟨missingFirst, (uploader.step missingFirst (.event (.cancelAll 0))).get (by decide),
      reaches_ofEngine enqueueMissing (by decide) (Option.some_get _).symm, (Option.some_get _).symm,
      by decide, fun h => ?_⟩
    have hz := reaches_ofEngine [.run, .run] (by decide) (Option.some_get (x := uploader.run [.run, .run]
      ((uploader.step missingFirst (.event (.cancelAll 0))).get (by decide))) (by decide)).symm
    exact h.unstarted _ hz 1 (by decide) (by decide)
  · refine ⟨finishedOne, (uploader.step finishedOne (.event (.cancelAll 0))).get (by decide),
      reaches_ofEngine finishOne (by decide) (Option.some_get _).symm, (Option.some_get _).symm,
      by decide, fun h => ?_⟩
    exact absurd h.log (by decide)

end CrashReporter.Upload
