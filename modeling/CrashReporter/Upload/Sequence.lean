import CrashReporter.Upload.Served

/-! Uploads are sequential and in order.

One engine on one queue, whose owner enqueues items and cancels as it likes. Whatever
the session, the replies and the timers do, the queue and the engine make the moves of
a `Service`, whose items are handed out in order and once. -/
namespace CrashReporter.Upload
open Reactor
open Service (Phase Mark Label Move Ordered)

variable {s : State}

/-- One engine, attached to an empty queue. -/
def attached (env : Environment) (files : Path → Option File) (coreLocations : List Path)
    (logWritable : Bool) : Config :=
  ⟨UploadEngine.newEngine (blank env files coreLocations logWritable), []⟩

/-- There is no uploader: no request comes, and what the event loop dispatches is the
deletion of items. -/
def Alone : Guard State Call Event := fun x act =>
  (∀ fileList obey, act ≠ .event (.callUploadFiles fileList obey)) ∧ act ≠ .event .callQuit ∧
    (∀ ev, act = .event ev → ev.quits = false) ∧
      (act = .event .dispatch → ∃ i rest, x.state.posted = .deleteItem i :: rest)

/-- The engine is at `a`. -/
structure Engaged (R : Rules) (x : Config) (a : Service ItemId) : Prop where
  uploads : Uploads x.state
  spent : ∀ k ∈ x.stack, k.Spent x.state
  unreported : ∀ e, (x.state.engines e).reported = false
  served : Served R (fun _ => False) 0 x a
  ordered : Ordered a
  closed : Service.Closed a

theorem engaged_attached (R : Rules) (env : Environment) (files : Path → Option File)
    (coreLocations : List Path) (logWritable : Bool) :
    Engaged R (attached env files coreLocations logWritable) Service.fresh where
  uploads := by constructor <;> simp [attached, UploadEngine.newEngine, blank, State.Owned]
  spent := by simp [attached]
  unreported e := by
    rcases eq_or_ne e 0 with rfl | he
    · rfl
    · simp [attached, UploadEngine.newEngine, blank]
  served := by
    refine ⟨?_, .inl rfl, ⟨[], rfl, by simp⟩, rfl⟩
    refine ⟨rfl, fun e _ => ?_, rfl, rfl, rfl, rfl, rfl, ?_, ?_, ?_, fun c _ => ?_, ?_⟩
    · simp [attached, UploadEngine.newEngine, blank]
    · simp [Service.fresh]
    · simp [Service.fresh, Service.enqueued]
    · simp [attached, UploadEngine.newEngine, blank]
    · constructor <;> simp [attached, UploadEngine.newEngine, blank]
    · intro i hi
      simp [attached, UploadEngine.newEngine, blank] at hi
  ordered := Service.ordered_fresh
  closed pre htrace := by simp [Service.fresh] at htrace

theorem Engaged.makes {R : Rules} {x y : Config} {act : Action} {a : Service ItemId}
    (h : Engaged R x a) (hR : R.byOwner) (hg : Alone x act)
    (hgone : (∃ rest, x.stack = .sessionGone 0 :: rest) → act = .run →
      R.lost ∨ (x.state.engines 0).state ≠ .connecting) (hs : uploader.step x act = some y) :
    ∃ labels a', Engaged R y a' ∧ Advances R (fun _ => False) 0 x act y a labels a' ∧
      ∀ l ∈ labels, Makes 0 x act l := by
  obtain ⟨hu', hs'⟩ := (carries_step h.uploads h.spent hs).1
  have hnext {labels : List Label} {a' : Service ItemId}
      (hadv : Advances R (fun _ => False) 0 x act y a labels a') (hmakes : ∀ l ∈ labels, Makes 0 x act l)
      (hr : ∀ e, (y.state.engines e).reported = false) :
      ∃ labels a', Engaged R y a' ∧ Advances R (fun _ => False) 0 x act y a labels a' ∧
        ∀ l ∈ labels, Makes 0 x act l := by
    have ho := hadv.run.invariant (I := Ordered) (P := fun _ => True)
      (fun _ _ _ hm _ h => hm.ordered h) (fun _ _ => trivial) h.ordered
    have hc := hadv.run.invariant (I := Service.Closed) (P := fun _ => True)
      (fun _ _ _ hm _ h => hm.closed h) (fun _ _ => trivial) h.closed
    exact ⟨labels, a', ⟨hu', hs', hr, hadv.served, ho, hc⟩, hadv, hmakes⟩
  obtain ⟨s, stack⟩ := x
  cases act with
  | run =>
    obtain ⟨k, rest, rfl, rfl⟩ := uploader.step_run hs
    have hreported (e : EngineId) (error : ErrorType) (sent total : Nat)
        (_ : k = .finished e error sent total) : (s.engines e).reported = false := h.unreported e
    obtain ⟨labels, a', hadv, hmakes⟩ := served_run h.served h.ordered id hreported fun hk =>
      hgone ⟨rest, hk ▸ rfl⟩ rfl
    have htail : k ≠ .quitTail := by
      rintro rfl
      rcases h.served.cases.2 with hlive | ⟨-, hk | hk⟩
      · cases hp : a.phase <;> simp [hp, live] at hlive
      · exact hk
      · exact hk
    have hcalm := (undisturbing_exec h.uploads (h.spent k (List.mem_cons_self ..)) htail hreported).calm
    exact hnext hadv hmakes fun e => (hcalm.reported e).trans (h.unreported e)
  | event ev =>
    obtain ⟨ha, r, hr, rfl⟩ := uploader.step_event hs
    obtain ⟨-, -, hquit, hdispatch⟩ := hg
    have hq : ev.quits = false := hquit ev rfl
    obtain ⟨labels, a', hadv, hmakes⟩ := served_event h.served h.ordered h.uploads ha hr hq
      (fun he => hdispatch (he ▸ rfl)) fun _ _ => hR
    refine hnext hadv hmakes fun e => ?_
    by_cases hd : ev = .dispatch
    · subst hd
      obtain ⟨i, rest, hposted⟩ := hdispatch rfl
      have hr' : deliver .dispatch s = some r := hr
      dsimp only at hposted
      simp only [deliver, dispatch, hposted, Option.some.injEq] at hr'
      subst hr'
      exact h.unreported e
    · exact ((undisturbing_deliver h.uploads hr hd hq).calm.reported e).trans (h.unreported e)

theorem Engaged.step {R : Rules} {x y : Config} {act : Action} {a : Service ItemId}
    (h : Engaged R x a) (hR : R.byOwner) (hg : Alone x act)
    (hgone : (∃ rest, x.stack = .sessionGone 0 :: rest) → act = .run →
      R.lost ∨ (x.state.engines 0).state ≠ .connecting) (hs : uploader.step x act = some y) :
    ∃ labels a', Engaged R y a' ∧ Advances R (fun _ => False) 0 x act y a labels a' := by
  obtain ⟨labels, a', he, hadv, -⟩ := h.makes hR hg hgone hs
  exact ⟨labels, a', he, hadv⟩

theorem engaged_of_reaches {G : Guard State Call Event} {env : Environment}
    {files : Path → Option File} {coreLocations : List Path} {logWritable : Bool} {x : Config}
    (hG : ∀ x act, G x act → Alone x act)
    (hx : Reaches uploader G (attached env files coreLocations logWritable) x) :
    ∃ a, Engaged ⟨True, True⟩ x a := by
  induction hx with
  | start => exact ⟨_, engaged_attached ..⟩
  | next _ hg hs ih =>
    obtain ⟨a, ha⟩ := ih
    obtain ⟨_, a', ha', -⟩ := ha.step trivial (hG _ _ hg) (fun _ _ => .inl trivial) hs
    exact ⟨a', ha'⟩

/-! ### Items are uploaded one by one -/

namespace State

/-- The items that were enqueued, handed out by nextItem(), and started, latest first. -/
def enqueuedItems (s : State) : List ItemId := Service.enqueued (marks s.log)

def handedItems (s : State) : List ItemId := Service.handed (marks s.log)

def startedItems (s : State) : List ItemId := Service.started (marks s.log)

end State

/-- The item is done or was dropped. -/
def Settled (i : ItemId) (log : List Output) : Prop :=
  .itemDone i ∈ log ∨ ∃ items, .dropped items ∈ log ∧ i ∈ items

theorem mem_marks {log : List Output} {m : Mark ItemId} (h : m ∈ marks log) :
    ∃ o ∈ log, o.mark = some m := List.mem_filterMap.mp h

theorem settled_marks {i : ItemId} {log : List Output} (h : Service.Settled i (marks log)) :
    Settled i log := by
  rcases h with hm | ⟨items, hm, hi⟩
  · obtain ⟨o, ho, he⟩ := mem_marks hm
    cases o with
    | itemDone j =>
      cases he
      exact .inl ho
    | fault f => cases f <;> cases he
    | _ => cases he
  · obtain ⟨o, ho, he⟩ := mem_marks hm
    cases o with
    | dropped items' =>
      cases he
      exact .inr ⟨items, ho, hi⟩
    | fault f => cases f <;> cases he
    | _ => cases he

theorem enqueued_marks {i : ItemId} {log : List Output} (h : .enqueued i ∈ log) :
    i ∈ Service.enqueued (marks log) :=
  List.mem_filterMap.mpr ⟨.enqueued i, List.mem_filterMap.mpr ⟨_, h, rfl⟩, rfl⟩

theorem marks_append (post pre : List Output) : marks (post ++ pre) = marks post ++ marks pre :=
  List.filterMap_append ..

structure InOrder (s : State) : Prop where
  /-- At most one item has an unfinished PUT. -/
  one : ∀ c c', (s.clients c).network = .running → (s.clients c').network = .running → c = c'
  /-- Items are handed out in the order they were enqueued. -/
  order : s.handedItems.Sublist s.enqueuedItems
  handed : s.handedItems.Nodup
  started : s.startedItems.Nodup
  offered : ∀ i ∈ s.startedItems, i ∈ s.handedItems
  fed : .fault .emptyQueue ∉ s.log
  /-- When done() was emitted every item enqueued before was done or dropped. -/
  done : ∀ post pre, s.log = post ++ .queueDone :: pre → ∀ i, .enqueued i ∈ pre → Settled i pre
  /-- After done() the queue is free, until an item is enqueued. -/
  free : ∀ post pre, s.log = post ++ .queueDone :: pre → marks post = [] → s.queue.notified = false
  empty : s.queue.notified = false → s.queue.uploadQueue = []
  /-- A free queue hands out the next item that comes at once. -/
  accepts : s.queue.notified = false → ∀ file, ∃ calls,
    (UploadQueue.enqueueNew file s).2 = .uploadItem 0 s.nextItem :: calls

theorem Engaged.inOrder {R : Rules} {x : Config} {a : Service ItemId} (h : Engaged R x a) :
    InOrder x.state := by
  have hs := h.served.serves
  have ho := h.ordered
  have htrace := hs.trace
  have hdone {post pre : List Output} (hlog : x.state.log = post ++ .queueDone :: pre) :
      a.trace = marks post ++ .emptied :: marks pre := by
    rw [← htrace, hlog, marks_append]
    rfl
  have hempty (hn : x.state.queue.notified = false) : x.state.queue.uploadQueue = [] :=
    hs.queue.trans (ho.empty (hs.notified ▸ hn))
  have hhanded : (Service.handed a.trace).Sublist (Service.enqueued a.trace) :=
    (List.sublist_append_right _ _).trans ho.order
  have hstarted : (Service.started a.trace).Sublist (Service.handed a.trace) :=
    (List.sublist_append_right _ _).trans ho.starts
  refine ⟨fun c c' hc hc' => ?_, ?_, ?_, ?_, ?_, fun hmem => ho.fed ?_, fun post pre hlog i hi => ?_,
    fun post pre hlog hpost => ?_, hempty, fun hn file => ?_⟩
  · obtain ⟨i, hp, -, -, hi⟩ := hs.sender fun hq => hq.network hc
    obtain ⟨i', hp', -, -, hi'⟩ := hs.sender fun hq => hq.network hc'
    obtain rfl : i = i' := by simpa using hp.symm.trans hp'
    exact Option.some.inj (hi.http.symm.trans hi'.http)
  · rw [State.handedItems, State.enqueuedItems, htrace]
    exact hhanded
  · rw [State.handedItems, htrace]
    exact hhanded.nodup ho.nodup
  · rw [State.startedItems, htrace]
    exact (hstarted.trans hhanded).nodup ho.nodup
  · rw [State.startedItems, State.handedItems, htrace]
    exact fun i hi => hstarted.mem hi
  · rw [← htrace]
    exact List.mem_filterMap.mpr ⟨_, hmem, rfl⟩
  · exact settled_marks (ho.emptied (marks post) (marks pre) (hdone hlog) i (enqueued_marks hi))
  · have htr := hdone hlog
    rw [hpost] at htr
    rw [hs.notified, h.closed _ htr]
    rfl
  · rw [UploadQueue.enqueueNew_first file hn (hempty hn), hs.engines]
    exact ⟨_, rfl⟩

/-- Whatever the owner, the session, the server and the timers do. -/
theorem uploads_in_order {env : Environment} {files : Path → Option File} {coreLocations : List Path}
    {logWritable : Bool} {x : Config}
    (hx : Reaches uploader Alone (attached env files coreLocations logWritable) x) : InOrder x.state := by
  obtain ⟨a, ha⟩ := engaged_of_reaches (fun _ _ => id) hx
  exact ha.inOrder

/-- An event of the engine's own world, other than a dispatch. -/
def ofEngine : Action → Bool
  | .event (.callUploadFiles ..) | .event .callQuit | .event .dispatch => false
  | .event .quitTimer | .event .exit => false
  | _ => true

theorem alone_of_ofEngine {x : Config} {act : Action} (h : ofEngine act = true) : Alone x act := by
  refine ⟨?_, ?_, ?_, ?_⟩
  · rintro fileList obey rfl
    cases h
  · rintro rfl
    cases h
  · intro ev hact
    subst hact
    cases ev with
    | quitTimer | exit => cases h
    | _ => rfl
  · rintro rfl
    cases h

theorem reaches_ofEngine (as : List Action) {x y : Config} (has : ∀ act ∈ as, ofEngine act = true)
    (hr : uploader.run as x = some y) : Reaches uploader Alone x y :=
  Reaches.of_run .start ((Guarded.of_forall has _).mono fun _ _ => alone_of_ofEngine) hr

/-- One report, and a USB cable. -/
def engineAtRest : Config :=
  attached .usbCable (fun p => if p = "/a.rcore" then some ⟨[1, 2], true, none⟩ else none) ["/cores"] true

/-- The default connection is there, so a session is needed. -/
def engineOnWlan : Config := attached .wlan (fun _ => some ⟨[1, 2], true, none⟩) ["/cores"] true

/-- The second item is enqueued while the first one is sent; its file is missing. -/
def uploadTwo : List Action := [.event (.enqueue "/a.rcore"), .run, .run, .event (.enqueue "/b.rcore"),
  .run, .event (.replyFinished 0 ⟨true, some 7⟩), .run, .run]

def uploadedTwo : Config := (uploader.run uploadTwo engineAtRest).get (by decide)

theorem uploads_in_order_two : uploadedTwo.state.handedItems = [1, 0] ∧ InOrder uploadedTwo.state := by
  refine ⟨by decide, uploads_in_order (Reaches.of_run .start (Guarded.mono ?_ (Guarded.of_forall
    (P := fun act => ofEngine act = true) (by decide) _)) (Option.some_get
      (x := uploader.run uploadTwo engineAtRest) (by decide)).symm)⟩
  exact fun _ _ => alone_of_ofEngine

end CrashReporter.Upload
