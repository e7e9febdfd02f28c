import CrashReporter.Service
import CrashReporter.Upload.InFlight

/-! The queue and its engine are a service.

The queue does not say which item is being uploaded: that is spread over its notified
flag, the engine's state and current item, the item's status and its client. `Serves`
puts these together as the phase of a `Service`, and `Brings` says which moves of the
service a function makes. Here are the functions of the queue and of the engine that
take an item from the queue to its end. -/
namespace CrashReporter.Upload
open Reactor
open Service (Phase Mark Label Move Ordered)

variable {s : State}

/-- What the service sees of the program's outputs. -/
def Output.mark : Output → Option (Mark ItemId)
  | .enqueued i => some (.enqueued i)
  | .nextItem i => some (.handed i)
  | .startUpload i => some (.started i)
  | .succeeded _ i => some (.answered i)
  | .itemDone i => some (.done i)
  | .dropped items => some (.dropped items)
  | .queueDone => some .emptied
  | .finished _ _ sent total => some (.reported sent total)
  | .fault .emptyQueue => some .starved
  | _ => none

def marks (log : List Output) : List (Mark ItemId) := log.filterMap Output.mark

/-- Not handed out yet. -/
structure State.Fresh (s : State) (i : ItemId) : Prop where
  known : i < s.nextItem
  alive : (s.items i).alive = true
  status : (s.items i).status = .waiting
  http : (s.items i).http = none
  listeners : (s.items i).listeners = []

/-- The item is the engine's current one. -/
structure State.Handles (s : State) (e : EngineId) (i : ItemId) : Prop where
  known : i < s.nextItem
  current : (s.engines e).currentItem = some i
  alive : (s.items i).alive = true
  listeners : (s.items i).listeners = [e]

/-- The engine's current item is done. -/
def State.Past (s : State) (e : EngineId) : Prop :=
  ∀ i, (s.engines e).currentItem = some i → i < s.nextItem ∧ ((s.items i).alive = true →
    (s.items i).status ≠ .waiting ∧ (s.items i).listeners = [e])

/-- The client uploads nothing, and reports nothing to its item any more unless it is
cancelled once more. -/
structure Client.Quiet (v : Client) : Prop where
  reply : v.reply = false
  network : v.network ≠ .running
  connected : v.connected = true → v.connectionTimeout = false ∧ v.network ≠ .failed

/-- The client has ended, and its item does not hear of it. -/
def State.Detached (s : State) (c : ClientId) : Prop :=
  c < s.nextClient ∧ (s.clients c).reply = false ∧ (s.clients c).connected = false

/-- The client of an item whose uploadFinished() has not been entered yet. -/
structure State.Holds (s : State) (i : ItemId) (c : ClientId) (reply : Bool) : Prop where
  http : (s.items i).http = some c
  reply : (s.clients c).reply = reply
  connected : (s.clients c).connected = true

/-- The status of an item whose upload ended so. -/
def ItemStatus.after : Outcome → ItemStatus
  | .finished => .finished
  | .failed => .error
  | .cancelled => .cancelled

/-- What the objects are like in a phase. -/
def Doing (e : EngineId) (s : State) : Phase ItemId → Prop
  | .idle | .drained => s.Past e
  | .handing i => s.Fresh i
  | .waiting i => s.Handles e i ∧ (s.items i).status = .waiting ∧ (s.items i).http = none
  | .sending i => s.Handles e i ∧ (s.items i).status = .sending ∧ ∃ c, s.Holds i c true
  | .stalled i => s.Handles e i ∧ (s.items i).status = .error ∧ ∃ c, s.Holds i c false
  | .ending i outcome => s.Handles e i ∧ (s.items i).status = .after outcome
  | .echo i => i < s.nextItem ∧ (s.engines e).currentItem = some i ∧ (s.items i).status = .finished ∧
    (s.items i).listeners = [e]

/-- What may happen to an engine. -/
structure Rules where
  /-- A session may be deleted while the engine waits for it. -/
  lost : Prop
  /-- The owner may cancel. -/
  byOwner : Prop

/-- What the engine's state is in a phase. -/
def Stands (R : Rules) (v : Engine) : Phase ItemId → Prop
  | .idle => v.state = .noConnection ∨ v.state = .closing
  | .waiting _ => v.state = .connecting ∧
    (R.lost ∨ ∃ session, v.networkSession = some session ∧ session.requested = true)
  | .sending _ | .stalled _ => v.state = .connected
  | .ending _ .failed => v.state ≠ .noConnection
  | .ending _ .cancelled => R.byOwner ∨ v.state = .noConnection
  | _ => True

/-- The call in which a phase ends. -/
def live (e : EngineId) : Phase ItemId → List Call
  | .handing i => [.uploadItem e i]
  | .ending i _ | .echo i => [.uploadFinished e i]
  | .drained => [.queueDone e]
  | _ => []

/-- A pending call that ends no phase. -/
def Call.Settled (e : EngineId) (s : State) : Call → Prop
  | .aborted c | .cancelled c => s.Detached c
  | .sessionOpen e' | .sessionGone e' => e' = e
  | .finished .. | .itemEnqueued => True
  | _ => False

structure Serves (e : EngineId) (s : State) (a : Service ItemId) : Prop where
  engines : s.queue.engines = [e]
  others : ∀ e', e' ≠ e → (s.engines e').networkSession = none ∧ (s.engines e').currentItem = none
  queue : s.queue.uploadQueue = a.queued
  notified : s.queue.notified = a.phase.busy
  total : s.queue.nbrOfItems = a.total
  sent : (s.engines e).sentFiles = a.sent
  trace : marks s.log = a.trace
  fresh : ∀ i ∈ a.queued, s.Fresh i
  known : ∀ i ∈ Service.enqueued a.trace, i < s.nextItem
  posted : ∀ i, .deleteItem i ∈ s.posted → i < s.nextItem ∧ i ∉ a.queued ∧ a.phase.item ≠ some i
  quiet : ∀ c, (∀ i, a.phase = .sending i → (s.items i).http ≠ some c) → (s.clients c).Quiet
  doing : Doing e s a.phase

theorem State.Fresh.same {s' : State} {i : ItemId} (h : s.Fresh i) (hitem : s'.items i = s.items i)
    (hnext : s.nextItem ≤ s'.nextItem) : s'.Fresh i := by
  constructor
  · exact Nat.lt_of_lt_of_le h.known hnext
  · exact hitem ▸ h.alive
  · exact hitem ▸ h.status
  · exact hitem ▸ h.http
  · exact hitem ▸ h.listeners

theorem State.Handles.past {e : EngineId} {i : ItemId} (h : s.Handles e i)
    (hs : (s.items i).status ≠ .waiting) : s.Past e := by
  intro j hj
  obtain rfl : i = j := Option.some.inj (h.current.symm.trans hj)
  exact ⟨h.known, fun _ => ⟨hs, h.listeners⟩⟩

/-! ### Changes that the service does not see -/

/-- The two states differ only where the service does not look. -/
structure Alike (e : EngineId) (s s' : State) : Prop where
  queue : s'.queue = s.queue
  items : s'.items = s.items
  clients : s'.clients = s.clients
  nextItem : s'.nextItem = s.nextItem
  nextClient : s'.nextClient = s.nextClient
  current : (s'.engines e).currentItem = (s.engines e).currentItem
  sent : (s'.engines e).sentFiles = (s.engines e).sentFiles
  others : ∀ e', e' ≠ e → s'.engines e' = s.engines e'
  marks : marks s'.log = marks s.log
  posted : ∀ i, .deleteItem i ∈ s'.posted → .deleteItem i ∈ s.posted

namespace Alike
variable {e : EngineId}

theorem refl (s : State) : Alike e s s := 
  ⟨rfl, rfl, rfl, rfl, rfl, rfl, rfl, fun _ _ => rfl, rfl, fun _ => id⟩

theorem trans {s t u : State} (h : Alike e s t) (h' : Alike e t u) : Alike e s u where
  queue := h'.queue.trans h.queue
  items := h'.items.trans h.items
  clients := h'.clients.trans h.clients
  nextItem := h'.nextItem.trans h.nextItem
  nextClient := h'.nextClient.trans h.nextClient
  current := h'.current.trans h.current
  sent := h'.sent.trans h.sent
  others e' he := (h'.others e' he).trans (h.others e' he)
  marks := h'.marks.trans h.marks
  posted i hi := h.posted i (h'.posted i hi)

theorem emit {o : Output} (h : o.mark = none) : Alike e s (s.emit o) :=
  {refl s with marks := List.filterMap_cons_none h}

theorem setEngine {v : Engine} (hc : v.currentItem = (s.engines e).currentItem)
    (hs : v.sentFiles = (s.engines e).sentFiles) : Alike e s (s.setEngine e v) where
  __ := refl (e := e) s
  current := by simpa using hc
  sent := by simpa using hs
  others e' he := by simp [he]

theorem stateChange (next : EngineState) : Alike e s (UploadEngine.stateChange e next s) :=
  setEngine rfl rfl

theorem setSession (session : Option Session) : Alike e s (NwSessionMgr.setSession e session s) :=
  setEngine rfl rfl

theorem close : Alike e s (NwSessionMgr.close e s) := by
  unfold NwSessionMgr.close
  split
  · exact refl s
  · exact setSession _

theorem setErrorType (type : ErrorType) : Alike e s (UploadEngine.setErrorType e type s) := by
  unfold UploadEngine.setErrorType
  split
  · exact setEngine rfl rfl
  · exact refl s

theorem setErrorString (message : Option String) :
    Alike e s (UploadEngine.setErrorString e message s) := by
  unfold UploadEngine.setErrorString
  split
  · exact setEngine rfl rfl
  · exact refl s

theorem detached {s' : State} (h : Alike e s s') {c : ClientId} (hc : s.Detached c) :
    s'.Detached c := by
  rw [State.Detached, h.nextClient, h.clients]
  exact hc

theorem owned {s' : State} (h : Alike e s s') (hu : s.Owned) : s'.Owned := by
  intro i c hc
  rw [h.items] at hc
  rw [h.nextClient, h.clients]
  exact hu i c hc

end Alike

/-- A client that is quiet hears of no timer and of no failed reply while it is connected. -/
theorem Client.Quiet.unconnected {v : Client} (h : v.Quiet)
    (hv : v.connectionTimeout = true ∨ v.network = .failed) : v.connected = false := by
  cases hc : v.connected with
  | false => rfl
  | true =>
    obtain ⟨ht, hn⟩ := h.connected hc
    simp [ht, hn] at hv

theorem State.Handles.cancelCurrent {e : EngineId} {i : ItemId} (h : s.Handles e i) :
    UploadEngine.cancelCurrent e s = UploadItem.cancel i s := by
  simp [UploadEngine.cancelCurrent, h.current, h.alive]

/-- Only the engine that serves the queue has a session. -/
theorem Serves.session_own {e e' : EngineId} {a : Service ItemId} (h : Serves e s a)
    (hs : (s.engines e').networkSession.isSome = true) : e' = e := by
  by_contra he
  rw [(h.others e' he).1] at hs
  cases hs

/-- Doing looks at known items, at the engine's current item, and at clients. -/
theorem Doing.same {e : EngineId} {s' : State} {p : Phase ItemId} (h : Doing e s p)
    (hitems : ∀ i, i < s.nextItem → s'.items i = s.items i) (hnext : s.nextItem ≤ s'.nextItem)
    (hcurrent : (s'.engines e).currentItem = (s.engines e).currentItem)
    (hclients : s'.clients = s.clients) : Doing e s' p := by
  have hpast (h : s.Past e) : s'.Past e := by
    intro i hi
    obtain ⟨hlt, hk⟩ := h i (hcurrent ▸ hi)
    rw [hitems i hlt]
    exact ⟨Nat.lt_of_lt_of_le hlt hnext, hk⟩
  have hhandles {i : ItemId} (h : s.Handles e i) : s'.Handles e i := by
    refine ⟨Nat.lt_of_lt_of_le h.known hnext, hcurrent.trans h.current, ?_, ?_⟩
    · rw [hitems i h.known]
      exact h.alive
    · rw [hitems i h.known]
      exact h.listeners
  have hholds {i : ItemId} {c : ClientId} {reply : Bool} (hi : i < s.nextItem)
      (h : s.Holds i c reply) : s'.Holds i c reply := by
    refine ⟨?_, ?_, ?_⟩
    · rw [hitems i hi]
      exact h.http
    · rw [hclients]
      exact h.reply
    · rw [hclients]
      exact h.connected
  cases p with
  | idle => exact hpast h
  | drained => exact hpast h
  | handing i => exact State.Fresh.same h (hitems i (State.Fresh.known h)) hnext
  | waiting i =>
    obtain ⟨hh, hrest⟩ := h
    rw [← hitems i hh.known] at hrest
    exact ⟨hhandles hh, hrest⟩
  | sending i =>
    obtain ⟨hh, hs, c, hc⟩ := h
    rw [← hitems i hh.known] at hs
    exact ⟨hhandles hh, hs, c, hholds hh.known hc⟩
  | stalled i =>
    obtain ⟨hh, hs, c, hc⟩ := h
    rw [← hitems i hh.known] at hs
    exact ⟨hhandles hh, hs, c, hholds hh.known hc⟩
  | ending i outcome =>
    obtain ⟨hh, hs⟩ := h
    rw [← hitems i hh.known] at hs
    exact ⟨hhandles hh, hs⟩
  | echo i =>
    obtain ⟨hk, hc, hrest⟩ := h
    rw [← hitems i hk] at hrest
    exact ⟨Nat.lt_of_lt_of_le hk hnext, hcurrent.trans hc, hrest⟩

/-- The item of a phase is known. -/
theorem Doing.known {e : EngineId} {p : Phase ItemId} (h : Doing e s p) {i : ItemId}
    (hi : p.item = some i) : i < s.nextItem := by
  cases p with
  | idle | echo | drained => cases hi
  | handing =>
    cases hi
    exact State.Fresh.known h
  | waiting | sending | stalled | ending =>
    cases hi
    exact h.1.known

theorem Serves.alike {e : EngineId} {s' : State} {a : Service ItemId} (h : Serves e s a)
    (hs : Alike e s s') : Serves e s' a where
  engines := hs.queue ▸ h.engines
  others e' he := by
    rw [hs.others e' he]
    exact h.others e' he
  queue := hs.queue ▸ h.queue
  notified := hs.queue ▸ h.notified
  total := hs.queue ▸ h.total
  sent := hs.sent.trans h.sent
  trace := hs.marks.trans h.trace
  fresh i hi := (h.fresh i hi).same (by rw [hs.items]) (Nat.le_of_eq hs.nextItem.symm)
  known i hi := hs.nextItem ▸ h.known i hi
  posted i hi := hs.nextItem ▸ h.posted i (hs.posted i hi)
  quiet c hc := by
    rw [hs.clients]
    refine h.quiet c fun i hp => ?_
    rw [← hs.items]
    exact hc i hp
  doing := h.doing.same (fun i _ => by rw [hs.items]) (Nat.le_of_eq hs.nextItem.symm) hs.current hs.clients

/-- What a function brings about when the service is at `a`: moves to `a'`, and the
calls that are to end the new phase, before others that end none. -/
structure Brings (R : Rules) (e : EngineId) (s : State) (a : Service ItemId)
    (r : State × List Call) (labels : List Label) (a' : Service ItemId) : Prop where
  run : Service.Run a labels a'
  serves : Serves e r.1 a'
  stands : Stands R (r.1.engines e) a'.phase
  calls : ∃ tail, r.2 = live e a'.phase ++ tail ∧ ∀ k ∈ tail, k.Settled e r.1
  counts : a'.uncounted = a.uncounted + r.2.count .itemEnqueued
  detached : ∀ c, s.Detached c → r.1.Detached c
  /-- Items are cancelled by the owner, or because the connection is gone. -/
  cancels : ∀ i, (r.1.items i).status = .cancelled → (s.items i).status = .cancelled ∨
    R.byOwner ∨ (r.1.engines e).state = .noConnection

section Functions
variable {R : Rules} {e : EngineId} {a : Service ItemId}

/-- Nothing happens that the service sees. -/
theorem Brings.of_alike {r : State × List Call} (h : Serves e s a) (hs : Alike e s r.1)
    (hstands : Stands R (r.1.engines e) a.phase) (hlive : live e a.phase = [])
    (hcalls : ∀ k ∈ r.2, k.Settled e r.1) (hcount : .itemEnqueued ∉ r.2) :
    Brings R e s a r [] a where
  run := .nil a
  serves := h.alike hs
  stands := hstands
  calls := ⟨r.2, by rw [hlive, List.nil_append], hcalls⟩
  counts := by rw [List.count_eq_zero_of_not_mem hcount, Nat.add_zero]
  detached _ hc := hs.detached hc
  cancels i hi := .inl (hs.items ▸ hi)

theorem Brings.after {t : State} {r : State × List Call} {labels : List Label}
    {a' : Service ItemId} (hs : Alike e s t) (h : Brings R e t a r labels a') :
    Brings R e s a r labels a' :=
  {h with
    detached := fun c hc => h.detached c (hs.detached hc)
    cancels := fun i hi => hs.items ▸ h.cancels i hi}

theorem live_eq_nil {p : Phase ItemId} (h : live e p = []) : p = .idle ∨ p.serving = true := by
  cases p with
  | idle => exact .inl rfl
  | waiting | sending | stalled => exact .inr rfl
  | handing | ending | echo | drained => cases h

/-! ### The queue -/

namespace UploadQueue

theorem fresh_newItem (file : Path) : (newItem file s).Fresh s.nextItem := by
  constructor <;> simp [newItem]

theorem enqueueNew_busy (file : Path) (h : s.queue.notified = true) :
    enqueueNew file s = (((newItem file s).setQueue {s.queue with
      uploadQueue := s.queue.uploadQueue ++ [s.nextItem]}).emit (.enqueued s.nextItem),
      [.itemEnqueued]) := by
  simp [enqueueNew, enqueue, newItem, h]

theorem enqueueNew_first (file : Path) (h : s.queue.notified = false)
    (hq : s.queue.uploadQueue = []) :
    enqueueNew file s = ((((newItem file s).setQueue {s.queue with
      nbrOfItems := 0
      notified := true}).emit (.enqueued s.nextItem)).emit (.nextItem s.nextItem),
      s.queue.engines.map (Call.uploadItem · s.nextItem) ++ [.itemEnqueued]) := by
  simp [enqueueNew, enqueue, newItem, emitNextItem, h, hq, State.emit, State.setQueue]

end UploadQueue

theorem Serves.newItem (h : Serves e s a) (file : Path) : Serves e (UploadQueue.newItem file s) a := by
  have hitems (i : ItemId) (hi : i < s.nextItem) :
      (UploadQueue.newItem file s).items i = s.items i := by
    simp [UploadQueue.newItem, Nat.ne_of_lt hi]
  have hlt {i : ItemId} (hi : i < s.nextItem) : i < (UploadQueue.newItem file s).nextItem :=
    Nat.lt_succ_of_lt hi
  have hdoing := h.doing.same hitems (Nat.le_succ _) rfl rfl
  refine {h with
    fresh := fun i hi => (h.fresh i hi).same (hitems i (h.fresh i hi).known) (Nat.le_succ _)
    known := fun i hi => hlt (h.known i hi)
    posted := fun i hi => ?_
    quiet := fun c hc => h.quiet c fun i hp => ?_
    doing := hdoing}
  · obtain ⟨hk, hrest⟩ := h.posted i hi
    exact ⟨hlt hk, hrest⟩
  · have hi : i < s.nextItem := h.doing.known (by rw [hp]; rfl)
    rw [← hitems i hi]
    exact hc i hp

theorem Serves.enqueue (h : Serves e s a) {i : ItemId} (hi : s.Fresh i)
    (hposted : .deleteItem i ∉ s.posted) :
    Serves e ((s.setQueue {s.queue with uploadQueue := s.queue.uploadQueue ++ [i]}).emit (.enqueued i))
      {a with
        queued := a.queued ++ [i]
        uncounted := a.uncounted + 1
        trace := .enqueued i :: a.trace} where
  engines := h.engines
  others := h.others
  queue := congrArg (· ++ [i]) h.queue
  notified := h.notified
  total := h.total
  sent := h.sent
  trace := congrArg (Mark.enqueued i :: ·) h.trace
  fresh j hj := by
    have hold : s.Fresh j := by
      rcases List.mem_append.mp hj with hj | hj
      · exact h.fresh j hj
      · exact List.mem_singleton.mp hj ▸ hi
    exact hold.same rfl (Nat.le_refl _)
  known j hj := by
    rcases List.mem_cons.mp hj with rfl | hj
    · exact hi.known
    · exact h.known j hj
  posted j hj := by
    obtain ⟨hk, hq, hp⟩ := h.posted j hj
    refine ⟨hk, fun hmem => ?_, hp⟩
    rcases List.mem_append.mp hmem with hmem | hmem
    · exact hq hmem
    · exact hposted (List.mem_singleton.mp hmem ▸ hj)
  quiet := h.quiet
  doing := h.doing.same (fun _ _ => rfl) (Nat.le_refl _) rfl rfl

theorem Serves.first (h : Serves e s a) (hp : a.phase = .idle) {i : ItemId} (hi : s.Fresh i)
    (hposted : .deleteItem i ∉ s.posted) (hq : a.queued = []) :
    Serves e (((s.setQueue {s.queue with nbrOfItems := 0, notified := true}).emit
      (.enqueued i)).emit (.nextItem i)) {a with
        phase := .handing i
        total := 0
        uncounted := a.uncounted + 1
        trace := .handed i :: .enqueued i :: a.trace} where
  engines := h.engines
  others := h.others
  queue := h.queue
  notified := rfl
  total := rfl
  sent := h.sent
  trace := congrArg (Mark.handed i :: Mark.enqueued i :: ·) h.trace
  fresh j hj := by simp [hq] at hj
  known j hj := by
    rcases List.mem_cons.mp hj with rfl | hj
    · exact hi.known
    · exact h.known j hj
  posted j hj := by
    obtain ⟨hk, hnq, -⟩ := h.posted j hj
    refine ⟨hk, hnq, fun he => ?_⟩
    cases he
    exact hposted hj
  quiet c _ := h.quiet c (by simp [hp])
  doing := hi.same rfl (Nat.le_refl _)

theorem brings_enqueueNew (h : Serves e s a) (hstands : Stands R (s.engines e) a.phase)
    (ho : Ordered a) (hlive : live e a.phase = []) (file : Path) : ∃ labels a',
      Brings R e s a (UploadQueue.enqueueNew file s) labels a' ∧
        (labels = [.enqueue] ∨ labels = [.hand]) := by
  have hposted : .deleteItem s.nextItem ∉ (UploadQueue.newItem file s).posted :=
    fun hi => Nat.lt_irrefl _ (h.posted _ hi).1
  have hnew : s.nextItem ∉ Service.enqueued a.trace := fun hi => Nat.lt_irrefl _ (h.known _ hi)
  have hcancels (i : ItemId) (hi : ((UploadQueue.newItem file s).items i).status = .cancelled) :
      (s.items i).status = .cancelled := by
    rcases eq_or_ne i s.nextItem with rfl | hne
    · simp [UploadQueue.newItem] at hi
    · simpa [UploadQueue.newItem, hne] using hi
  rcases live_eq_nil hlive with hp | hp
  · have hq : a.queued = [] := ho.empty (by rw [hp]; rfl)
    have hn : s.queue.notified = false := by rw [h.notified, hp]; rfl
    rw [UploadQueue.enqueueNew_first file hn (h.queue.trans hq), h.engines]
    refine ⟨_, _, ⟨(Move.hand hp hnew).run, (h.newItem file).first hp (UploadQueue.fresh_newItem file)
      hposted hq, trivial, ⟨[.itemEnqueued], rfl, ?_⟩, rfl, fun c => id, fun i hi => .inl (hcancels i hi)⟩,
      .inr rfl⟩
    simp [Call.Settled]
  · have hb : a.phase.busy = true := by
      cases hp' : a.phase <;> simp_all [Phase.serving, Phase.busy]
    rw [UploadQueue.enqueueNew_busy file (by rw [h.notified, hb])]
    refine ⟨_, _, ⟨(Move.enqueue hp hnew).run, (h.newItem file).enqueue (UploadQueue.fresh_newItem file)
      hposted, hstands, ⟨[.itemEnqueued], ?_, ?_⟩, rfl, fun c => id, fun i hi => .inl (hcancels i hi)⟩,
      .inl rfl⟩
    · rw [show live e _ = [] from hlive]
      rfl
    · simp [Call.Settled]

/-! ### The start of an upload -/

theorem Serves.take (h : Serves e s a) (ho : Ordered a) {i : ItemId} (hp : a.phase = .handing i) :
    Serves e (UploadEngine.take e i s) {a with phase := .waiting i} := by
  have hi : s.Fresh i := by
    have hd := h.doing
    rwa [hp] at hd
  have hitem : a.phase.item = some i := by rw [hp]; rfl
  have hne {j : ItemId} (hj : j ∈ a.queued) : j ≠ i := fun he => ho.not_queued hitem (he ▸ hj)
  rw [UploadEngine.take_eq]
  refine {h with
    others := fun e' he => ?_
    notified := h.notified.trans (by rw [hp]; rfl)
    sent := ?_
    fresh := fun j hj => ?_
    posted := fun j hj => ?_
    quiet := fun c _ => h.quiet c (by simp [hp])
    doing := ⟨⟨hi.known, ?_, ?_, ?_⟩, ?_, ?_⟩}
  · dsimp only
    rw [Function.update_of_ne he]
    exact h.others e' he
  · simpa using h.sent
  · exact (h.fresh j hj).same (by simp [hne hj]) (Nat.le_refl _)
  · obtain ⟨hk, hq, hn⟩ := h.posted j hj
    exact ⟨hk, hq, fun he => hn (hitem.trans he)⟩
  · simp
  · simpa using hi.alive
  · simp [hi.listeners]
  · simpa using hi.status
  · simpa using hi.http

/-- The item's record and its new client, when its upload starts. -/
theorem Serves.started (h : Serves e s a) (ho : Ordered a) {i : ItemId} (hp : a.phase = .waiting i)
    {phase : Phase ItemId} {v : Client} {status : ItemStatus} (new : List Output)
    (hphase : phase = .sending i ∧ status = .sending ∧ v.reply = true ∨
      phase = .stalled i ∧ status = .error ∧ v.Quiet)
    (hv : v.connected = true) (hnew : marks new = [.started i]) :
    Serves e {s with
      clients := Function.update s.clients s.nextClient v
      nextClient := s.nextClient + 1
      items := Function.update s.items i {s.items i with http := some s.nextClient, status := status}
      log := new ++ s.log} {a with phase := phase, trace := .started i :: a.trace} := by
  have hd := h.doing
  rw [hp] at hd
  obtain ⟨hh, -, -⟩ := hd
  have hitem : a.phase.item = some i := by rw [hp]; rfl
  have hitem' : phase.item = some i := by rcases hphase with ⟨rfl, -⟩ | ⟨rfl, -⟩ <;> rfl
  have hbusy : phase.busy = true := by rcases hphase with ⟨rfl, -⟩ | ⟨rfl, -⟩ <;> rfl
  have hne {j : ItemId} (hj : j ∈ a.queued) : j ≠ i := fun he => ho.not_queued hitem (he ▸ hj)
  have hquiet (c : ClientId) : (s.clients c).Quiet := h.quiet c (by simp [hp])
  refine ⟨h.engines, h.others, h.queue, ?_, h.total, h.sent, ?_, fun j hj => ?_, h.known,
    fun j hj => ?_, fun c hc => ?_, ?_⟩
  · exact h.notified.trans (by rw [hp, hbusy]; rfl)
  · rw [marks, List.filterMap_append]
    show marks new ++ marks s.log = _
    rw [hnew, h.trace]
    rfl
  · exact (h.fresh j hj).same (by simp [hne hj]) (Nat.le_refl _)
  · obtain ⟨hk, hq, hn⟩ := h.posted j hj
    exact ⟨hk, hq, fun he => hn (hitem.trans (hitem'.symm.trans he))⟩
  · rcases eq_or_ne c s.nextClient with rfl | hcne
    · rcases hphase with ⟨rfl, -⟩ | ⟨-, -, hv⟩
      · exact absurd (by simp) (hc i rfl)
      · simpa using hv
    · simpa [hcne] using hquiet c
  · have hhandles : State.Handles {s with
        clients := Function.update s.clients s.nextClient v
        nextClient := s.nextClient + 1
        items := Function.update s.items i {s.items i with http := some s.nextClient, status := status}
        log := new ++ s.log} e i :=
      ⟨hh.known, hh.current, by simpa using hh.alive, by simpa using hh.listeners⟩
    rcases hphase with ⟨rfl, rfl, hr⟩ | ⟨rfl, rfl, hq⟩
    · exact ⟨hhandles, by simp, s.nextClient, by simp, by simpa using hr, by simpa using hv⟩
    · exact ⟨hhandles, by simp, s.nextClient, by simp, by simpa using hq.reply, by simpa using hv⟩

/-- A waiting item is started: its upload is sent, or stalls because its file cannot be
read. -/
theorem Serves.startUpload (h : Serves e s a) (ho : Ordered a) {i : ItemId}
    (hp : a.phase = .waiting i) : ∃ label a', Move a label a' ∧
      Serves e (UploadItem.startUpload i s).1 a' ∧ live e a'.phase = [] ∧
      a'.uncounted = a.uncounted ∧
      (label = .start ∧ a'.phase = .sending i ∨ label = .stall ∧ a'.phase = .stalled i ∧
        HttpClient.createPutRequest (s.items i).filepath s = none) := by
  cases hb : HttpClient.createPutRequest (s.items i).filepath s with
  | none =>
    rw [UploadItem.startUpload_failed i hb]
    refine ⟨.stall, _, .stall hp, ?_, rfl, rfl, .inr ⟨rfl, rfl, rfl⟩⟩
    refine h.started ho hp [.startUpload i] (.inr ⟨rfl, rfl, ?_⟩) rfl rfl
    constructor <;> simp
  | some body =>
    rw [UploadItem.startUpload_sent i hb]
    refine ⟨.start, _, .start hp, ?_, rfl, rfl, .inl ⟨rfl, rfl⟩⟩
    exact h.started ho hp [.put s.nextClient i (s.items i).filepath body, .startUpload i]
      (.inl ⟨rfl, rfl, rfl⟩) rfl rfl

theorem UploadItem.startUpload_cancelled {i j : ItemId}
    (h : ((startUpload i s).1.items j).status = .cancelled) : (s.items j).status = .cancelled := by
  rcases eq_or_ne j i with rfl | hne
  · cases hb : HttpClient.createPutRequest (s.items j).filepath s with
    | none => simp [startUpload_failed j hb] at h
    | some body => simp [startUpload_sent j hb] at h
  · cases hb : HttpClient.createPutRequest (s.items i).filepath s with
    | none => simpa [startUpload_failed i hb, hne] using h
    | some body => simpa [startUpload_sent i hb, hne] using h

theorem UploadItem.startUpload_engines (i : ItemId) : (startUpload i s).1.engines = s.engines := by
  cases hb : HttpClient.createPutRequest (s.items i).filepath s with
  | none => rw [startUpload_failed i hb]
  | some body => rw [startUpload_sent i hb]

theorem UploadItem.startUpload_detached (i : ItemId) {c : ClientId} (h : s.Detached c) :
    (startUpload i s).1.Detached c := by
  have hne : c ≠ s.nextClient := Nat.ne_of_lt h.1
  cases hb : HttpClient.createPutRequest (s.items i).filepath s with
  | none =>
    rw [startUpload_failed i hb]
    exact ⟨Nat.lt_succ_of_lt h.1, by simpa [hne] using h.2⟩
  | some body =>
    rw [startUpload_sent i hb]
    exact ⟨Nat.lt_succ_of_lt h.1, by simpa [hne] using h.2⟩

/-- An item that waits is started with the connection there. -/
theorem brings_startUpload (h : Serves e s a) (ho : Ordered a) {i : ItemId}
    (hp : a.phase = .waiting i) : ∃ label a',
      Brings R e s a ((UploadItem.startUpload i (UploadEngine.stateChange e .connected s)).1, [])
        [label] a' ∧ (label = .start ∨ label = .stall ∧
          HttpClient.createPutRequest (s.items i).filepath s = none) := by
  have hs : Alike e s (UploadEngine.stateChange e .connected s) := .stateChange _
  obtain ⟨label, a', hm, hserves, hlive, hcount, hlabel⟩ := (h.alike hs).startUpload ho hp
  refine ⟨label, a', ⟨hm.run, hserves, ?_, ⟨[], by rw [hlive]; rfl, by simp⟩, hcount, ?_, ?_⟩,
    hlabel.imp And.left fun hl => ⟨hl.1, hl.2.2⟩⟩
  · have hstate : ((UploadItem.startUpload i (UploadEngine.stateChange e .connected s)).1.engines e).state
        = .connected := by simp [UploadItem.startUpload_engines, UploadEngine.stateChange]
    rcases hlabel with ⟨-, hp'⟩ | ⟨-, hp', -⟩
    all_goals
      rw [hp']
      exact hstate
  · exact fun c hc => UploadItem.startUpload_detached i (hs.detached hc)
  · intro j hj
    have hj' := UploadItem.startUpload_cancelled hj
    rw [hs.items] at hj'
    exact .inl hj'

theorem brings_uploadItem (h : Serves e s a) (ho : Ordered a) {i : ItemId}
    (hp : a.phase = .handing i) : ∃ labels a',
      Brings R e s a (UploadEngine.uploadItem e i s) labels a' ∧
        ∀ l ∈ labels, l = .take ∨ l = .start ∨ l = .stall ∧ NwSessionMgr.ready e s = true ∧
          HttpClient.createPutRequest (s.items i).filepath s = none := by
  have htake := h.take ho hp
  have hmove : Move a .take {a with phase := .waiting i} := .take hp
  have hcancels (j : ItemId) (hj : ((UploadEngine.take e i s).items j).status = .cancelled) :
      (s.items j).status = .cancelled := by
    rw [UploadEngine.take_eq] at hj
    rcases eq_or_ne j i with rfl | hne
    · simpa using hj
    · simpa [hne] using hj
  have hdetached (c : ClientId) (hc : s.Detached c) : (UploadEngine.take e i s).Detached c := by
    rw [UploadEngine.take_eq]
    exact hc
  rw [UploadEngine.uploadItem_eq]
  by_cases hr : NwSessionMgr.ready e s = true
  · rw [if_pos hr]
    obtain ⟨label, a', hb, hlabel⟩ := brings_startUpload (R := R) htake (hmove.ordered ho) rfl
    refine ⟨[.take, label], a', ⟨.cons hmove hb.run, hb.serves, hb.stands, hb.calls, hb.counts,
      fun c hc => hb.detached c (hdetached c hc), fun j hj => (hb.cancels j hj).imp (hcancels j) id⟩,
      fun l hl => ?_⟩
    have hfile : HttpClient.createPutRequest ((UploadEngine.take e i s).items i).filepath
        (UploadEngine.take e i s) = HttpClient.createPutRequest (s.items i).filepath s := by
      simp [UploadEngine.take_eq, HttpClient.createPutRequest]
    rw [hfile] at hlabel
    rcases List.mem_cons.mp hl with rfl | hl
    · exact .inl rfl
    · rw [List.mem_singleton.mp hl]
      exact .inr (hlabel.imp id fun hl => ⟨hl.1, hr, hl.2⟩)
  · rw [if_neg hr]
    have hs : Alike e (UploadEngine.take e i s)
        (NwSessionMgr.setSession e (some ⟨false, true⟩) (UploadEngine.take e i s)) := .setSession _
    refine ⟨[.take], _, ⟨hmove.run, htake.alike hs, ⟨?_, .inr ⟨⟨false, true⟩, ?_, rfl⟩⟩, ⟨[.sessionOpen e], rfl, ?_⟩,
      rfl, fun c hc => hs.detached (hdetached c hc), fun j hj => .inl (hcancels j ?_)⟩, by simp⟩
    · simp [NwSessionMgr.setSession, UploadEngine.take_eq]
    · simp [NwSessionMgr.setSession]
    · simp [Call.Settled]
    · rwa [hs.items] at hj

/-- While an engine waits for a session the item waits; between batches it does neither. -/
theorem stands_cases {v : Engine} {p : Phase ItemId} (h : Stands R v p) (hlive : live e p = []) :
    (v.state = .connecting → ∃ i, p = .waiting i) ∧
      (p = .idle ↔ v.state ≠ .connecting ∧ v.state ≠ .connected) := by
  cases p with
  | idle => rcases h with h | h <;> simp [h]
  | waiting i => simp [show v.state = .connecting from h.1]
  | sending i | stalled i => simp [show v.state = .connected from h]
  | handing | ending | echo | drained => simp [live] at hlive

theorem Stands.setSession {v : Engine} {p : Phase ItemId} (h : Stands R v p)
    (hp : ∀ i, p ≠ .waiting i) (session : Option Session) :
    Stands R {v with networkSession := session} p := by
  cases p with
  | waiting i => exact absurd rfl (hp i)
  | ending i outcome => cases outcome <;> exact h
  | idle | sending | stalled | handing | echo | drained => exact h

theorem brings_sessionOpened (h : Serves e s a) (hstands : Stands R (s.engines e) a.phase)
    (ho : Ordered a) (hlive : live e a.phase = []) (session : Option Session) : ∃ labels a',
      Brings R e s a (UploadEngine.sessionOpened e (NwSessionMgr.setSession e session s), []) labels a' ∧
        ∀ l ∈ labels, l = .start ∨ l = .stall ∧ (s.engines e).state = .connecting ∧
          ∃ i, (s.engines e).currentItem = some i ∧
            HttpClient.createPutRequest (s.items i).filepath s = none := by
  have hs : Alike e s (NwSessionMgr.setSession e session s) := .setSession _
  have hstate : ((NwSessionMgr.setSession e session s).engines e).state = (s.engines e).state := by
    simp [NwSessionMgr.setSession]
  by_cases hc : (s.engines e).state = .connecting
  · obtain ⟨i, hp⟩ := (stands_cases hstands hlive).1 hc
    have hd := (h.alike hs).doing
    rw [hp] at hd
    have heq : UploadEngine.sessionOpened e (NwSessionMgr.setSession e session s) =
        (UploadItem.startUpload i
          (UploadEngine.stateChange e .connected (NwSessionMgr.setSession e session s))).1 := by
      have halive : ((UploadEngine.stateChange e .connected
        (NwSessionMgr.setSession e session s)).items i).alive = true := hd.1.alive
      simp [UploadEngine.sessionOpened, hstate, hc, hd.1.current, halive]
    rw [heq]
    obtain ⟨label, a', hb, hlabel⟩ := brings_startUpload (R := R) (h.alike hs) ho hp
    refine ⟨[label], a', hb.after hs, fun l hl => ?_⟩
    rw [List.mem_singleton.mp hl]
    exact hlabel.imp id fun hl => ⟨hl.1, hc, i, hs.current.symm.trans hd.1.current, hl.2⟩
  · have heq : UploadEngine.sessionOpened e (NwSessionMgr.setSession e session s) =
        NwSessionMgr.setSession e session s := by simp [UploadEngine.sessionOpened, hstate, hc]
    have hstands' : Stands R ((NwSessionMgr.setSession e session s).engines e) a.phase := by
      have hne (i : ItemId) : a.phase ≠ .waiting i := by
        intro hp
        rw [hp] at hstands
        exact hc hstands.1
      simpa [NwSessionMgr.setSession] using hstands.setSession hne session
    rw [heq]
    exact ⟨[], a, .of_alike h hs hstands' hlive (by simp) (by simp), by simp⟩

/-! ### The end of an upload -/

namespace UploadItem

theorem markDone_last (i : ItemId) (hq : s.queue.uploadQueue = []) :
    markDone i s = ((((s.emit (.itemDone i)).post (.deleteItem i)).setQueue
      {s.queue with notified := false}).emit .queueDone, s.queue.engines.map Call.queueDone) := by
  simp [markDone, UploadQueue.itemFinished, hq]

theorem markDone_next (i : ItemId) {j : ItemId} {rest : List ItemId}
    (hq : s.queue.uploadQueue = j :: rest) :
    markDone i s = ((((s.emit (.itemDone i)).post (.deleteItem i)).setQueue
      {s.queue with uploadQueue := rest}).emit (.nextItem j),
        s.queue.engines.map (Call.uploadItem · j)) := by
  simp [markDone, UploadQueue.itemFinished, UploadQueue.emitNextItem, hq]

end UploadItem

theorem mem_post {posted : List Posted} {i j : ItemId} (h : .deleteItem j ∈ posted ++ [.deleteItem i]) :
    .deleteItem j ∈ posted ∨ j = i := by simpa using h

theorem Serves.markDone_last (h : Serves e s a) {i : ItemId} (hi : i < s.nextItem)
    (hpast : s.Past e) (hq : a.queued = []) (hp : ∀ j, a.phase ≠ .sending j) :
    Serves e (UploadItem.markDone i s).1
      {a with phase := .drained, trace := .emptied :: .done i :: a.trace} := by
  rw [UploadItem.markDone_last i (h.queue.trans hq)]
  refine {h with
    notified := rfl
    trace := congrArg (Mark.emptied :: Mark.done i :: ·) h.trace
    fresh := by simp [hq]
    known := fun j hj => h.known j hj
    posted := fun j hj => ?_
    quiet := fun c _ => h.quiet c fun j hj => absurd hj (hp j)
    doing := hpast}
  rcases mem_post hj with hj | rfl
  · exact ⟨(h.posted j hj).1, by simp [hq], by simp [Phase.item]⟩
  · exact ⟨hi, by simp [hq], by simp [Phase.item]⟩

theorem Serves.markDone_next (h : Serves e s a) {i j : ItemId} {rest : List ItemId}
    (hi : i < s.nextItem) (hni : i ∉ a.queued) (hq : a.queued = j :: rest)
    (hb : a.phase.busy = true) (hp : ∀ j, a.phase ≠ .sending j) :
    Serves e (UploadItem.markDone i s).1 {a with
      phase := .handing j
      queued := rest
      trace := .handed j :: .done i :: a.trace} := by
  have hj : j ∈ a.queued := hq ▸ List.mem_cons_self ..
  have hrest {d : ItemId} (hd : d ∉ a.queued) : d ∉ rest ∧ some j ≠ some d := by
    refine ⟨fun hm => hd (hq ▸ List.mem_cons_of_mem _ hm), fun he => ?_⟩
    cases he
    exact hd hj
  rw [UploadItem.markDone_next i (h.queue.trans hq)]
  refine {h with
    queue := rfl
    notified := h.notified.trans hb
    trace := congrArg (Mark.handed j :: Mark.done i :: ·) h.trace
    fresh := fun d hd => (h.fresh d (hq ▸ List.mem_cons_of_mem _ hd)).same rfl (Nat.le_refl _)
    known := fun d hd => h.known d hd
    posted := fun d hd => ?_
    quiet := fun c _ => h.quiet c fun j hj => absurd hj (hp j)
    doing := (h.fresh j hj).same rfl (Nat.le_refl _)}
  · rcases mem_post hd with hd | rfl
    · obtain ⟨hk, hn, -⟩ := h.posted d hd
      exact ⟨hk, hrest hn⟩
    · exact ⟨hi, hrest hni⟩

/-- What is queued is deleted while an item ends. -/
theorem Serves.clear (h : Serves e s a) {i : ItemId} {outcome : Outcome}
    (hp : a.phase = .ending i outcome) (hni : i ∉ a.queued) (hq : a.queued ≠ []) :
    Serves e (UploadQueue.clear s)
      {a with queued := [], trace := .dropped a.queued :: a.trace} := by
  have heq : UploadQueue.clear s = {s with
      queue := {s.queue with uploadQueue := []}
      items := fun j => if j ∈ a.queued then {s.items j with alive := false} else s.items j
      log := .dropped a.queued :: s.log} := by
    unfold UploadQueue.clear
    rw [if_pos (by simpa [h.queue] using hq)]
    simp [h.queue, State.setQueue, State.emit]
  have hd := h.doing
  rw [hp] at hd
  obtain ⟨hh, hs⟩ := hd
  rw [heq]
  refine {h with
    queue := rfl
    trace := congrArg (Mark.dropped a.queued :: ·) h.trace
    fresh := by simp
    known := fun j hj => h.known j hj
    posted := fun j hj => ⟨(h.posted j hj).1, by simp, (h.posted j hj).2.2⟩
    quiet := fun c _ => h.quiet c (by simp [hp])
    doing := ?_}
  dsimp only
  rw [hp]
  refine ⟨⟨hh.known, hh.current, ?_, ?_⟩, ?_⟩
  · simpa [hni] using hh.alive
  · simpa [hni] using hh.listeners
  · simpa [hni] using hs

namespace UploadEngine

theorem uploadFinished_finished {i : ItemId} (hs : (s.items i).status = .finished) :
    uploadFinished e i s = UploadItem.markDone i (s.setEngine e
      {s.engines e with sentFiles := (s.engines e).sentFiles + 1}) := by
  simp [uploadFinished, hs]

theorem uploadFinished_failed {i : ItemId} (hs : (s.items i).status = .error)
    (hc : (s.engines e).state ≠ .noConnection) :
    uploadFinished e i s = UploadItem.markDone i
      (setErrorString e (s.items i).errorString (setErrorType e .protocolError s)) := by
  simp [uploadFinished, hs, hc]

theorem uploadFinished_cancelled {i : ItemId} (hs : (s.items i).status = .cancelled) :
    ∃ t, Alike e s t ∧ uploadFinished e i s = UploadItem.markDone i (UploadQueue.clear t) := by
  have hfail : Alike e s
      (setErrorString e (s.items i).errorString (setErrorType e .protocolError s)) :=
    (Alike.setErrorType _).trans (.setErrorString _)
  unfold uploadFinished
  dsimp only
  rw [if_neg (by simp [hs]), if_pos (.inr hs)]
  split
  · exact ⟨_, hfail.trans (.stateChange _), rfl⟩
  · exact ⟨_, hfail, rfl⟩

end UploadEngine

/-- The states in between change neither clients nor what is cancelled. -/
structure Between (s t : State) : Prop where
  clients : t.clients = s.clients
  nextClient : t.nextClient = s.nextClient
  cancels : ∀ i, (t.items i).status = .cancelled → (s.items i).status = .cancelled

theorem Between.detached {t : State} (h : Between s t) {c : ClientId} (hc : s.Detached c) :
    t.Detached c := by
  rw [State.Detached, h.clients, h.nextClient]
  exact hc

theorem Between.of_alike {t : State} (h : Alike e s t) : Between s t :=
  ⟨h.clients, h.nextClient, fun _ hi => h.items ▸ hi⟩

theorem Between.markDone (i : ItemId) : Between s (UploadItem.markDone i s).1 := by
  cases hq : s.queue.uploadQueue with
  | nil =>
    rw [UploadItem.markDone_last i hq]
    exact ⟨rfl, rfl, fun _ => id⟩
  | cons j rest =>
    rw [UploadItem.markDone_next i hq]
    exact ⟨rfl, rfl, fun _ => id⟩

theorem Between.clear : Between s (UploadQueue.clear s) := by
  unfold UploadQueue.clear
  split
  · refine ⟨rfl, rfl, fun _ hi => ?_⟩
    dsimp only [State.emit, State.setQueue] at hi
    split at hi <;> exact hi
  · exact ⟨rfl, rfl, fun _ => id⟩

theorem Between.trans {t u : State} (h : Between s t) (h' : Between t u) : Between s u :=
  ⟨h'.clients.trans h.clients, h'.nextClient.trans h.nextClient, fun i hi => h.cancels i (h'.cancels i hi)⟩

/-- An item is done and the queue is empty. -/
theorem brings_markDone_last {t : State} {b : Service ItemId} (hb : Serves e t b) (ht : Between s t)
    {i : ItemId} (hi : i < t.nextItem) (hpast : t.Past e) (hq : b.queued = [])
    (hp : ∀ j, b.phase ≠ .sending j) (hcount : b.uncounted = a.uncounted) {label : Label}
    (hm : Move a label {b with phase := .drained, trace := .emptied :: .done i :: b.trace}) :
    Brings R e s a (UploadItem.markDone i t) [label]
      {b with phase := .drained, trace := .emptied :: .done i :: b.trace} := by
  have hs := ht.trans (Between.markDone i)
  have hcalls : (UploadItem.markDone i t).2 = [.queueDone e] := by
    rw [UploadItem.markDone_last i (hb.queue.trans hq), hb.engines]
    rfl
  refine ⟨hm.run, hb.markDone_last hi hpast hq hp, trivial, ⟨[], hcalls, by simp⟩, ?_,
    fun c hc => hs.detached hc, fun j hj => .inl (hs.cancels j hj)⟩
  rw [hcalls]
  exact hcount

/-- An item is done and the next one is handed out. -/
theorem brings_markDone_next {t : State} {b : Service ItemId} (hb : Serves e t b) (ht : Between s t)
    {i j : ItemId} {rest : List ItemId} (hi : i < t.nextItem) (hni : i ∉ b.queued)
    (hq : b.queued = j :: rest) (hbusy : b.phase.busy = true) (hp : ∀ j, b.phase ≠ .sending j)
    (hcount : b.uncounted = a.uncounted) {label : Label}
    (hm : Move a label {b with
      phase := .handing j
      queued := rest
      trace := .handed j :: .done i :: b.trace}) :
    Brings R e s a (UploadItem.markDone i t) [label] {b with
      phase := .handing j
      queued := rest
      trace := .handed j :: .done i :: b.trace} := by
  have hs := ht.trans (Between.markDone i)
  have hcalls : (UploadItem.markDone i t).2 = [.uploadItem e j] := by
    rw [UploadItem.markDone_next i (hb.queue.trans hq), hb.engines]
    rfl
  refine ⟨hm.run, hb.markDone_next hi hni hq hbusy hp, trivial, ⟨[], hcalls, by simp⟩, ?_,
    fun c hc => hs.detached hc, fun j hj => .inl (hs.cancels j hj)⟩
  rw [hcalls]
  exact hcount

/-- One item more has ended well. -/
theorem Serves.addSent (h : Serves e s a) : Serves e
    (s.setEngine e {s.engines e with sentFiles := (s.engines e).sentFiles + 1})
    {a with sent := a.sent + 1} := by
  refine {h with
    others := fun e' he => ?_
    sent := ?_
    fresh := fun i hi => (h.fresh i hi).same rfl (Nat.le_refl _)
    doing := h.doing.same (fun _ _ => rfl) (Nat.le_refl _) ?_ rfl}
  · simpa [he] using h.others e' he
  · simp [h.sent]
  · simp

/-- An item that was not cancelled is counted when it ended well. -/
theorem uploadFinished_counted (h : Serves e s a) (hstands : Stands R (s.engines e) a.phase)
    {i : ItemId} {outcome : Outcome} (hp : a.phase = .ending i outcome) (hne : outcome ≠ .cancelled) :
    ∃ t, UploadEngine.uploadFinished e i s = UploadItem.markDone i t ∧ Between s t ∧
      Serves e t {a with sent := a.sent + outcome.gain} := by
  have hd := h.doing
  rw [hp] at hd hstands
  cases outcome with
  | finished => exact ⟨_, UploadEngine.uploadFinished_finished hd.2, ⟨rfl, rfl, fun _ => id⟩, h.addSent⟩
  | failed =>
    have hfail : Alike e s (UploadEngine.setErrorString e (s.items i).errorString
      (UploadEngine.setErrorType e .protocolError s)) := (Alike.setErrorType _).trans (.setErrorString _)
    exact ⟨_, UploadEngine.uploadFinished_failed hd.2 hstands, .of_alike hfail, h.alike hfail⟩
  | cancelled => exact absurd rfl hne

theorem brings_uploadFinished (h : Serves e s a) (hstands : Stands R (s.engines e) a.phase)
    (ho : Ordered a) {i : ItemId} {outcome : Outcome} (hp : a.phase = .ending i outcome) :
    ∃ label a', Brings R e s a (UploadEngine.uploadFinished e i s) [label] a' ∧
      (label = .next ∨ label = .last ∨
        label = .drop ∧ (R.byOwner ∨ (s.engines e).state = .noConnection)) := by
  have hd := h.doing
  rw [hp] at hd
  have hitem : a.phase.item = some i := by rw [hp]; rfl
  have hbusy : a.phase.busy = true := by rw [hp]; rfl
  have hnot (j : ItemId) : a.phase ≠ .sending j := by simp [hp]
  have hni : i ∉ a.queued := ho.not_queued hitem
  have hpast {t : State} {b : Service ItemId} (hb : Serves e t b) (hbp : b.phase = a.phase) :
      i < t.nextItem ∧ t.Past e := by
    have hbd := hb.doing
    rw [hbp, hp] at hbd
    refine ⟨hbd.1.known, hbd.1.past ?_⟩
    rw [hbd.2]
    cases outcome <;> simp [ItemStatus.after]
  by_cases hc : outcome = .cancelled
  · subst hc
    obtain ⟨t, ht, heq⟩ := UploadEngine.uploadFinished_cancelled (e := e) hd.2
    have hserves := h.alike ht
    rw [heq]
    cases hq : a.queued with
    | nil =>
      have hclear : UploadQueue.clear t = t := by
        simp [UploadQueue.clear, hserves.queue, hq]
      rw [hclear]
      refine ⟨.last, _, brings_markDone_last (s := s) (a := a) hserves (.of_alike ht) (hpast hserves rfl).1
        (hpast hserves rfl).2 hq hnot rfl ?_, .inr (.inl rfl)⟩
      exact .last hp hq
    | cons j rest =>
      have hcleared := hserves.clear hp hni (by simp [hq])
      refine ⟨.drop, _, brings_markDone_last (s := s) (a := a) hcleared ((Between.of_alike ht).trans .clear)
        (hpast hcleared rfl).1 (hpast hcleared rfl).2 rfl hnot rfl ?_, .inr (.inr ⟨rfl, ?_⟩)⟩
      · exact .drop hp
      · rwa [hp] at hstands
  · obtain ⟨t, heq, ht, hserves⟩ := uploadFinished_counted h hstands hp hc
    rw [heq]
    cases hq : a.queued with
    | nil =>
      refine ⟨.last, _, brings_markDone_last (s := s) (a := a) hserves ht (hpast hserves rfl).1
        (hpast hserves rfl).2 hq hnot rfl ?_, .inr (.inl rfl)⟩
      exact .last hp hq
    | cons j rest =>
      refine ⟨.next, _, brings_markDone_next (s := s) (a := a) hserves ht (hpast hserves rfl).1 hni hq hbusy hnot
        rfl ?_, .inl rfl⟩
      exact .next hp hc hq

/-- The end of an item that has ended before. -/
theorem brings_echo (h : Serves e s a) (ho : Ordered a) {i : ItemId} (hp : a.phase = .echo i) :
    ∃ a', Brings R e s a (UploadEngine.uploadFinished e i s) [.again] a' := by
  have hd := h.doing
  rw [hp] at hd
  obtain ⟨hk, hcurrent, hs, hl⟩ := hd
  have hq : a.queued = [] := ho.empty (by rw [hp]; rfl)
  have hpast : s.Past e := by
    intro j hj
    obtain rfl : i = j := Option.some.inj (hcurrent.symm.trans hj)
    exact ⟨hk, fun _ => ⟨by simp [hs], hl⟩⟩
  rw [UploadEngine.uploadFinished_finished hs]
  refine ⟨_, brings_markDone_last (s := s) (a := a) h.addSent ⟨rfl, rfl, fun _ => id⟩ hk ?_ hq ?_ rfl ?_⟩
  · simpa [State.Past] using hpast
  · simp [hp]
  · exact .again hp

/-- The batch is reported. -/
theorem brings_queueDone (h : Serves e s a) (hp : a.phase = .drained) :
    ∃ a', Brings R e s a (UploadEngine.queueDone e s) [.report] a' := by
  have hd := h.doing
  rw [hp] at hd
  obtain ⟨t, ht, hstate, heq⟩ : ∃ t, Alike e s t ∧ ((t.engines e).state = .noConnection ∨
      (t.engines e).state = .closing) ∧ UploadEngine.queueDone e s = UploadEngine.emitFinished e
        (t.engines e).error (t.engines e).sentFiles (UploadQueue.totalNumberOfItems t) t := by
    unfold UploadEngine.queueDone
    dsimp only
    split
    · refine ⟨_, (Alike.stateChange _).trans .close, .inr ?_, rfl⟩
      unfold NwSessionMgr.close
      split <;> simp [UploadEngine.stateChange, NwSessionMgr.setSession]
    · rename_i hn
      exact ⟨s, .refl s, .inl (by simpa using hn), rfl⟩
  have hserves := h.alike ht
  have hsent : (t.engines e).sentFiles = a.sent := hserves.sent
  have htotal : UploadQueue.totalNumberOfItems t = a.total := hserves.total
  rw [heq, hsent, htotal]
  refine ⟨_, (Move.report hp).run, ?_, ?_, ⟨[.finished e (t.engines e).error a.sent a.total], rfl, ?_⟩,
    rfl, fun c hc => ht.detached hc, fun i hi => .inl (ht.items ▸ hi)⟩
  · refine {hserves with
      others := fun e' he => ?_
      notified := hserves.notified.trans (by rw [hp]; rfl)
      sent := ?_
      trace := congrArg (Mark.reported a.sent a.total :: ·) hserves.trace
      fresh := fun i hi => (hserves.fresh i hi).same rfl (Nat.le_refl _)
      known := fun i hi => hserves.known i hi
      posted := fun i hi => ?_
      quiet := fun c _ => hserves.quiet c (by simp [hp])
      doing := ?_}
    · simpa [UploadEngine.emitFinished, he] using hserves.others e' he
    · simp [UploadEngine.emitFinished]
    · obtain ⟨hk, hq, -⟩ := hserves.posted i hi
      exact ⟨hk, hq, by simp [Phase.item]⟩
    · have hpast := hserves.doing
      rw [hp] at hpast
      simpa [Doing, State.Past, UploadEngine.emitFinished] using hpast
  · simpa [Stands, UploadEngine.emitFinished] using hstate
  · simp [Call.Settled]

end Functions

end CrashReporter.Upload
