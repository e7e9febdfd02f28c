import CrashReporter.Service.Batch
import CrashReporter.Upload.Effects

/-! A refused request does not harm the accepted ones.

A request is refused with its engine created already, and a timer set that calls quit();
the end of a batch calls quit() as well, and so does the destructor once the process has
been told to quit. `Considerate` says when none of them does any harm:
the timer fires between batches, and nothing is queued any more once quit() was called.
Until a client calls quit() itself the process then is in one of three states: it has no
engine yet (`Unstarted`), its engine serves the requests (`Active`), or quit() was called
and every item was settled before (`Ended`). -/
namespace CrashReporter.Upload
open Reactor
open Service (Phase Mark Label Move Ordered)

variable {s : State}

/-- The queue and its engine are the process's own. -/
def Process : Guard State Call Event := fun _ act =>
  (∀ file, act ≠ .event (.enqueue file)) ∧ ∀ e, act ≠ .event (.cancelAll e)

/-- Until a client calls quit(): requests are refused while the engine is active, files are
queued before quit() was called, and the timer of a refused request fires when no batch
is under way. -/
def Considerate : Guard State Call Event := fun x act => Process x act ∧ (.quit .client ∈ x.state.log ∨
  (∀ fileList obey rest, act = .event .dispatch → x.state.posted = .uploadFiles fileList obey :: rest →
    fileList ≠ [] → AutoUploader.refused obey x.state.env = true → x.state.uploader.activated = true) ∧
  (∀ path obey rest, act = .run → x.stack = .addFile path obey :: rest →
    path ∉ x.state.uploader.addedFiles → ∀ cause, .quit cause ∉ x.state.log) ∧
  (act = .event .quitTimer → x.state.queue.notified = false))

/-- Every quit() came when all items were settled, and nothing was accepted after it. -/
def QuitsSettled (log : List Output) : Prop := ∀ post pre cause, log = post ++ .quit cause :: pre →
  ∀ i obey, .accepted i obey ∈ log → .accepted i obey ∈ pre ∧ Settled i pre

/-- The session is lost. -/
def LosesSession (act : Action) : Prop :=
  act = .event (.session 0 .disconnected) ∨ ∃ m isOpen, act = .event (.session 0 (.error m isOpen))

/-- What a run within `G` shows of the accepted items, until a client calls quit(). -/
structure Unharmed (G : Guard State Call Event) (x : Config) : Prop where
  quits : QuitsSettled x.state.log
  /-- An item is cancelled when the session is lost. -/
  cancels : ∀ act y i obey, G x act → uploader.step x act = some y → .accepted i obey ∈ x.state.log →
    ¬Settled i x.state.log → (y.state.items i).status = .cancelled →
      (x.state.items i).status = .cancelled ∨ LosesSession act
  /-- An item is dropped at the end of one that was cancelled. -/
  drops : ∀ act y new items i obey, G x act → uploader.step x act = some y →
    y.state.log = new ++ x.state.log → .dropped items ∈ new → i ∈ items → .accepted i obey ∈ x.state.log →
      ¬Settled i x.state.log → ∃ e j rest, x.stack = .uploadFinished e j :: rest ∧
        (x.state.items j).status = .cancelled
  /-- A call that returns false leaves the engine, the queue and the uploads as they were. -/
  refusals : ∀ fileList obey rest y, G x (.event .dispatch) →
    x.state.posted = .uploadFiles fileList obey :: rest → uploader.step x (.event .dispatch) = some y →
      y.state.log = .returned false :: x.state.log → y.stack = x.stack ∧
        y.state.uploader = x.state.uploader ∧ y.state.engines = x.state.engines ∧
          y.state.queue = x.state.queue ∧ y.state.items = x.state.items ∧ y.state.clients = x.state.clients

theorem Settled.append {i : ItemId} {log : List Output} (h : Settled i log) (new : List Output) :
    Settled i (new ++ log) :=
  h.imp (List.mem_append_right _) fun hd => by
    obtain ⟨items, hm, hi⟩ := hd
    exact ⟨items, List.mem_append_right _ hm, hi⟩

/-! ### An engine serves the requests -/

/-- What uploadFiles() still has to do. -/
def Call.request : Call → Prop
  | .addFile .. | .fileAdded _ | .filesAdded _ => True
  | _ => False

/-- While no item is being served, one is about to be enqueued, or the batch is over. -/
def Turn (x : Config) (a : Service ItemId) : Prop :=
  Unreporting x.stack ∧ (a.phase = .idle → ∃ path obey rest,
    x.stack = .addFile path obey :: rest ∧ path ∉ x.state.uploader.addedFiles) ∨
  a.phase = .idle ∧ ∃ error sent total rest, x.stack = .finished 0 error sent total :: rest ∧ Unreporting rest

structure Active (x : Config) (a : Service ItemId) : Prop where
  served : Served ⟨True, False⟩ Call.request 0 x a
  ordered : Ordered a
  engine : x.state.uploader.engine = some 0
  activated : x.state.uploader.activated = true
  running : x.state.quitting = false
  reported : ∀ e, (x.state.engines e).reported = true ↔ e = 0
  kept : ∀ e, .deleteEngine e ∉ x.state.posted
  unquit : ∀ cause, .quit cause ∉ x.state.log
  accepted : ∀ i obey, .accepted i obey ∈ x.state.log → i ∈ Service.enqueued a.trace
  turn : Turn x a

/-- quit() was called. -/
structure Ended (x : Config) : Prop where
  quit : ∃ cause, .quit cause ∈ x.state.log
  settled : QuitsSettled x.state.log

section Step
variable {a : Service ItemId}

theorem Served.not_request {R : Rules} {own : Call → Prop} {k : Call} {rest : List Call}
    (h : Served R own 0 ⟨s, k :: rest⟩ a) (hk : k.request) : live 0 a.phase = [] ∧ Served R own 0 ⟨s, rest⟩ a := by
  have hlive : live 0 a.phase = [] := by
    rcases h.cases.2 with hl | ⟨hl, -⟩
    · cases hp : a.phase with
      | handing | ending | echo | drained =>
        rw [hp] at hl
        cases hl
        exact hk.elim
      | idle | waiting | sending | stalled => rfl
    · exact hl
  refine ⟨hlive, h.serves, h.stands, ⟨rest, ?_, h.cases.1⟩, ?_⟩
  · rw [hlive]
    rfl
  · rw [h.counts]
    refine List.count_cons_of_ne ?_
    rintro rfl
    exact hk

/-- What is on the stack of an active engine. -/
theorem Active.top {k : Call} {rest : List Call} (h : Active ⟨s, k :: rest⟩ a) :
    k.request ∨ k.foreign = false := by
  rcases h.served.cases.2 with hk | ⟨-, hk | hk⟩
  · right
    cases hp : a.phase <;> rw [hp] at hk <;> cases hk <;> rfl
  · right
    cases k <;> first | rfl | exact hk.elim
  · exact .inl hk

/-- The engine goes on to serve. -/
theorem Active.goes_on {x y : Config} {labels : List Label} {a' : Service ItemId} (h : Active x a)
    (hrun : Service.Run a labels a') (hserved : Served ⟨True, False⟩ Call.request 0 y a')
    (hcalm : Calm x.state y.state)
    (hkept : ∀ e, .deleteEngine e ∈ y.state.posted → .deleteEngine e ∈ x.state.posted)
    (haccepted : ∀ i obey, .accepted i obey ∈ y.state.log →
      .accepted i obey ∈ x.state.log ∨ i ∈ Service.enqueued a'.trace) (hturn : Turn y a') : Active y a' where
  served := hserved
  ordered := hrun.invariant (I := Ordered) (P := fun _ => True) (fun _ _ _ hm _ h => hm.ordered h)
    (fun _ _ => trivial) h.ordered
  engine := hcalm.engine.trans h.engine
  activated := hcalm.activated.trans h.activated
  running := hcalm.quitting.trans h.running
  reported e := by rw [hcalm.reported e, h.reported e]
  kept e he := h.kept e (hkept e he)
  unquit cause hq := by
    obtain ⟨new, hlog, hnew⟩ := hcalm.log
    rw [hlog] at hq
    rcases List.mem_append.mp hq with hq | hq
    · have hcalm := hnew _ hq
      cases hcalm
    · exact h.unquit cause hq
  accepted i obey hi := (haccepted i obey hi).elim (fun hi => hrun.enqueued (h.accepted i obey hi)) id
  turn := hturn

/-- Between batches every accepted item is settled. -/
theorem Active.settled {x : Config} (h : Active x a) (hp : a.phase = .idle) {i : ItemId} {obey : Bool}
    (hi : .accepted i obey ∈ x.state.log) : Settled i x.state.log := by
  have hq : a.queued = [] := h.ordered.empty (by rw [hp]; rfl)
  rcases h.ordered.settled i (h.accepted i obey hi) with hm | hm | hm
  · rw [hq] at hm
    cases hm
  · rw [hp] at hm
    cases hm
  · rw [← h.served.serves.trace] at hm
    exact settled_marks hm

/-- A call that neither reports a batch nor enqueues an item runs while one is under way. -/
theorem Turn.underway {k : Call} {rest : List Call} (h : Turn ⟨s, k :: rest⟩ a) (hk : k.reports = false)
    (hadd : ∀ path obey, k = .addFile path obey → path ∈ s.uploader.addedFiles) :
    Unreporting rest ∧ a.phase ≠ .idle := by
  rcases h with ⟨hcalls, hidle⟩ | ⟨-, error, sent, total, rest', hstack, -⟩
  · refine ⟨fun k' hk' => hcalls k' (List.mem_cons_of_mem _ hk'), fun hp => ?_⟩
    obtain ⟨path, obey, rest', hstack, hpath⟩ := hidle hp
    obtain ⟨rfl, -⟩ := List.cons.inj hstack
    exact hpath (hadd path obey rfl)
  · obtain ⟨rfl, -⟩ := List.cons.inj hstack
    cases hk

theorem UploadQueue.enqueueNew_logged (file : Path) : .enqueued s.nextItem ∈ (enqueueNew file s).1.log := by
  unfold enqueueNew enqueue emitNextItem
  dsimp only
  split
  · split <;> simp [State.emit]
  · simp [State.emit]

/-- An item that comes is served or queued. -/
theorem not_idle_of_enqueued {labels : List Label} {a' : Service ItemId} (hr : Service.Run a labels a')
    (hl : labels = [.enqueue] ∨ labels = [.hand]) : a'.phase ≠ .idle := by
  rcases hl with rfl | rfl
  · cases hr with
    | cons hm hrest =>
      cases hrest
      cases hm with
      | enqueue hs =>
        intro hp
        simp [show a.phase = .idle from hp, Phase.serving] at hs
  · cases hr with
    | cons hm hrest =>
      cases hrest
      cases hm with
      | hand => simp

/-- The loop of uploadFiles() enqueues a file. -/
theorem Active.addFile_step {path : Path} {obey : Bool} {rest : List Call}
    (h : Active ⟨s, .addFile path obey :: rest⟩ a) (hu : Uploads s)
    (hspent : ∀ k ∈ Call.addFile path obey :: rest, k.Spent s) (hpath : path ∉ s.uploader.addedFiles) :
    ∃ labels a', Active (uploader.called (.addFile path obey) rest s) a' ∧
      Service.Run a labels a' ∧ .drop ∉ labels := by
  obtain ⟨hlive, hserved⟩ := h.served.not_request trivial
  obtain ⟨hrest, -⟩ | ⟨-, _, _, _, _, hstack, -⟩ := h.turn
  case inr => cases hstack
  have halike : Alike 0 s (s.emit (.accepted s.nextItem obey)) := .emit rfl
  obtain ⟨labels, a', hb, hlabels⟩ :=
    brings_enqueueNew (hserved.serves.alike halike) hserved.stands h.ordered hlive path
  have heq : exec (.addFile path obey) s =
      ((UploadQueue.enqueueNew path (s.emit (.accepted s.nextItem obey))).1,
        (UploadQueue.enqueueNew path (s.emit (.accepted s.nextItem obey))).2 ++ [.fileAdded path]) := by
    simp [exec, AutoUploader.addFile, hpath]
  have hadv : Advances ⟨True, False⟩ Call.request 0 ⟨s, .addFile path obey :: rest⟩ .run
      (uploader.called (.addFile path obey) rest s) a labels a' := by
    show Advances _ _ _ _ _ ⟨(exec (.addFile path obey) s).1, (exec (.addFile path obey) s).2 ++ rest⟩ ..
    rw [heq, List.append_assoc]
    refine (hb.after halike).advances (fun k hk => ?_) ?_ ?_
    · rcases List.mem_cons.mp hk with rfl | hk
      · exact .inr trivial
      · exact h.served.cases.1 k hk
    · rw [List.singleton_append, List.count_cons_of_ne (by simp)]
      exact hserved.counts
    · rcases hlabels with rfl | rfl <;> simp [Told]
  have hcalm : Calm s (exec (.addFile path obey) s).1 :=
    (undisturbing_exec hu (hspent _ (List.mem_cons_self ..)) (by simp) (by simp)).calm
  have hstep : uploader.step ⟨s, .addFile path obey :: rest⟩ .run =
      some (uploader.called (.addFile path obey) rest s) := rfl
  refine ⟨labels, a', h.goes_on hadv.run hadv.served hcalm ?_ ?_ ?_, hadv.run, ?_⟩
  · intro e hd
    replace hd : .deleteEngine e ∈ (exec (.addFile path obey) s).1.posted := hd
    rw [heq] at hd
    have happart : Apart (s.emit (.accepted s.nextItem obey)) _ := Apart.enqueueNew path
    exact happart.posted e hd
  · intro i obey' hi
    obtain ⟨new, hlog, hnew⟩ := log_grows hu hspent hstep
    rw [hlog] at hi
    rcases List.mem_append.mp hi with hi | hi
    · obtain ⟨-, rfl, -⟩ := hnew i obey' hi
      right
      rw [← hadv.served.serves.trace]
      apply enqueued_marks
      show .enqueued s.nextItem ∈ (exec (.addFile path obey) s).1.log
      rw [heq]
      exact UploadQueue.enqueueNew_logged path
    · exact .inl hi
  · refine .inl ⟨?_, fun hp => absurd hp (not_idle_of_enqueued hadv.run hlabels)⟩
    show Unreporting ((exec (.addFile path obey) s).2 ++ rest)
    rw [heq]
    refine ((Unreporting.enqueueNew path).append (by simp [Unreporting, Call.reports])).append ?_
    exact fun k hk => hrest k (List.mem_cons_of_mem _ hk)
  · rcases hlabels with rfl | rfl <;> simp

/-- uploadFiles() goes on. -/
theorem Active.request_step {k : Call} {rest : List Call} (h : Active ⟨s, k :: rest⟩ a) (hk : k.request)
    (hu : Uploads s) (hspent : ∀ k' ∈ k :: rest, k'.Spent s) : ∃ labels a',
      Active (uploader.called k rest s) a' ∧ Service.Run a labels a' ∧ .drop ∉ labels := by
  obtain ⟨hlive, hserved⟩ := h.served.not_request hk
  have hreports : k.reports = false := by
    cases k <;> first | rfl | exact hk.elim
  -- The call changes nothing that the service sees.
  have hstay {t : State} (heq : exec k s = (t, [])) (ht : Alike 0 s t) (he : t.engines 0 = s.engines 0)
      (hadd : ∀ path obey, k = .addFile path obey → path ∈ s.uploader.addedFiles)
      (hposted : t.posted = s.posted) (hlog : ∀ i obey, .accepted i obey ∈ t.log → .accepted i obey ∈ s.log) :
      ∃ labels a', Active (uploader.called k rest s) a' ∧ Service.Run a labels a' ∧ .drop ∉ labels := by
    obtain ⟨hrest, hne⟩ := h.turn.underway hreports hadd
    have hy : uploader.called k rest s = ⟨t, rest⟩ := by
      show (⟨(exec k s).1, (exec k s).2 ++ rest⟩ : Config) = _
      rw [heq]
      rfl
    have hcalm : Calm s (exec k s).1 := by
      refine (undisturbing_exec hu (hspent k (List.mem_cons_self ..)) ?_ ?_).calm
      · rintro rfl
        exact hk
      · rintro e error sent total rfl
        exact hk.elim
    rw [heq] at hcalm
    rw [hy]
    refine ⟨[], a, h.goes_on (.nil a) (hserved.alike ht he) hcalm (fun e hd => ?_) ?_ ?_, .nil a, by simp⟩
    · exact hposted ▸ hd
    · exact fun i obey hi => .inl (hlog i obey hi)
    · exact .inl ⟨hrest, fun hp => absurd hp hne⟩
  cases k with
  | addFile path obey =>
    by_cases hpath : path ∈ s.uploader.addedFiles
    · refine hstay (t := s) ?_ (.refl s) rfl ?_ rfl fun _ _ => id
      · simp [exec, AutoUploader.addFile, hpath]
      · rintro path' obey' hk'
        cases hk'
        exact hpath
    · exact h.addFile_step hu hspent hpath
  | fileAdded path =>
    exact hstay (t := AutoUploader.fileAdded path s) rfl {Alike.refl s with } rfl (by simp) rfl fun _ _ => id
  | filesAdded files =>
    refine hstay (t := AutoUploader.filesAdded files s) rfl ?_ ?_ (by simp) ?_ ?_
    all_goals unfold AutoUploader.filesAdded; dsimp only
    · split
      · exact (Alike.emit rfl).trans (.emit rfl)
      · exact .emit rfl
    · split <;> rfl
    · split <;> rfl
    · intro i obey hi
      split at hi <;> simpa using hi
  | _ => exact hk.elim

/-- A call of the engine, before the batch is reported. -/
theorem Active.call_step {k : Call} {rest : List Call} (h : Active ⟨s, k :: rest⟩ a) (hk : k.foreign = false)
    (hreports : k.reports = false) (hu : Uploads s) (hspent : ∀ k' ∈ k :: rest, k'.Spent s) : ∃ labels a',
      Active (uploader.called k rest s) a' ∧ Service.Run a labels a' ∧
        (.drop ∈ labels → Makes 0 ⟨s, k :: rest⟩ .run .drop) := by
  have hown : ¬k.request := by
    cases k <;> first | exact id | cases hk
  have hreported (e : EngineId) (error : ErrorType) (sent total : Nat)
      (he : k = .finished e error sent total) : (s.engines e).reported = false := by
    subst he
    cases hreports
  have htail : k ≠ .quitTail := by
    rintro rfl
    cases hk
  obtain ⟨hrest, hne⟩ := h.turn.underway hreports (by
    rintro path obey rfl
    cases hk)
  obtain ⟨labels, a', hadv, hmakes⟩ := served_run h.served h.ordered hown hreported fun _ => .inl trivial
  have hcalm := (undisturbing_exec hu (hspent k (List.mem_cons_self ..)) htail hreported).calm
  have hstep : uploader.step ⟨s, k :: rest⟩ .run = some (uploader.called k rest s) := rfl
  refine ⟨labels, a', h.goes_on hadv.run hadv.served hcalm ?_ ?_ ?_, hadv.run, hmakes _⟩
  · intro e he
    rcases mute_exec hk hreported with hm | ⟨e', t, rfl, hm, -, heq⟩
    · exact hm.posted e he
    · replace he : .deleteEngine e ∈ (exec (.queueDone e') s).1.posted := he
      rw [heq] at he
      exact hm.posted e he
  · intro i obey hi
    obtain ⟨new, hlog, hnew⟩ := log_grows hu hspent hstep
    rw [hlog] at hi
    rcases List.mem_append.mp hi with hi | hi
    · obtain ⟨-, -, path, rest', hstack, -⟩ := hnew i obey hi
      obtain ⟨rfl, -⟩ := List.cons.inj hstack
      cases hk
    · exact .inl hi
  · by_cases hdone : ∃ e, k = .queueDone e
    · obtain ⟨e, rfl⟩ := hdone
      obtain ⟨rfl, -⟩ := h.served.drained_of_queueDone hown
      exact .inr ⟨h.served.idle_of_reported hown hadv.served, _, _, _, rest, rfl, hrest⟩
    · refine .inl ⟨?_, fun hp => absurd hp (hadv.run.not_idle (fun hl => ?_) hne)⟩
      · exact (Unreporting.exec (fun e he => hdone ⟨e, he⟩) hk hreported).append hrest
      · obtain ⟨-, rest', hstack⟩ := hmakes _ hl
        exact hdone ⟨0, (List.cons.inj hstack).1⟩

/-- Nothing comes from outside but while a batch is under way. -/
theorem Turn.admits {ev : Event} {stack : List Call} (h : Turn ⟨s, stack⟩ a) (hg : Process ⟨s, stack⟩ (.event ev))
    (ha : admits ev stack = true) (hp : ev.passive = false) : Unreporting stack ∧ a.phase ≠ .idle := by
  have hfinished {e : EngineId} {error : ErrorType} {sent total : Nat} {rest : List Call}
      (hstack : stack = .finished e error sent total :: rest) : False := by
    subst hstack
    cases ev with
    | enqueue file => exact hg.1 file rfl
    | cancelAll e => exact hg.2 e rfl
    | environment | file | coreLocations | callUploadFiles | callQuit => cases hp
    | _ => cases ha
  rcases h with ⟨hcalls, hidle⟩ | ⟨-, error, sent, total, rest, hstack, -⟩
  · refine ⟨hcalls, fun hphase => ?_⟩
    obtain ⟨path, obey, rest, hstack, -⟩ := hidle hphase
    obtain rfl : stack = .addFile path obey :: rest := hstack
    rcases admits_cons ha with hpassive | ⟨e, signal, -, hk⟩ | ⟨e, error, sent, total, hk⟩
    · rw [hp] at hpassive
      cases hpassive
    · cases hk
    · cases hk
  · exact (hfinished hstack).elim

/-- A request is dispatched, whether it is refused or not. -/
theorem Active.asked {t : State} {calls : List Call} (h : Active ⟨s, []⟩ a) (ht : Alike 0 s t)
    (he : t.engines 0 = s.engines 0) (hcalm : Calm s t)
    (hposted : ∀ e, .deleteEngine e ∈ t.posted → .deleteEngine e ∈ s.posted)
    (hlog : ∀ i obey, .accepted i obey ∈ t.log → .accepted i obey ∈ s.log) (hcalls : ∀ k ∈ calls, k.request) :
    Active ⟨t, calls⟩ a := by
  have hfree : admits .quitTimer [] = true := rfl
  have hne : a.phase ≠ .idle := (h.turn.admits ⟨by simp, by simp⟩ hfree rfl).2
  have hlive : live 0 a.phase = [] := h.served.live_of_admits hfree rfl
  refine h.goes_on (.nil a) ⟨h.served.serves.alike ht, he ▸ h.served.stands, ⟨calls, ?_, ?_⟩, ?_⟩ hcalm hposted
    (fun i obey hi => .inl (hlog i obey hi)) (.inl ⟨fun k hk => ?_, fun hp => absurd hp hne⟩)
  · rw [hlive]
    rfl
  · exact fun k hk => .inr (hcalls k hk)
  · rw [h.served.counts]
    refine (List.count_eq_zero_of_not_mem fun hm => ?_).symm
    exact hcalls _ hm
  · have hr := hcalls k hk
    cases k <;> first | rfl | exact hr.elim

/-- The engine's own events, and the deletion of an item. -/
theorem Active.served_step {ev : Event} {stack : List Call} {r : State × List Call} (h : Active ⟨s, stack⟩ a)
    (hg : Process ⟨s, stack⟩ (.event ev)) (hu : Uploads s) (hspent : ∀ k ∈ stack, k.Spent s)
    (ha : admits ev stack = true) (hr : deliver ev s = some r) (hp : ev.passive = false) (hq : ev.quits = false)
    (hd : ev = .dispatch → ∃ i rest, s.posted = .deleteItem i :: rest) : ∃ labels a',
      Active ⟨r.1, r.2 ++ stack⟩ a' ∧ Service.Run a labels a' ∧ .drop ∉ labels := by
  obtain ⟨hcalls, hne⟩ := h.turn.admits hg ha hp
  obtain ⟨labels, a', hadv, hmakes⟩ := served_event h.served h.ordered hu ha hr hq hd
    fun e he => hg.2 e (he ▸ rfl)
  have hstep : uploader.step ⟨s, stack⟩ (.event ev) = some ⟨r.1, r.2 ++ stack⟩ := by
    simp [Reactor.step, uploader, ha, hr]
  have hundisturbed : Calm s r.1 ∧ Unreporting r.2 := by
    by_cases hdispatch : ev = .dispatch
    · subst hdispatch
      obtain ⟨i, rest, hposted⟩ := hd rfl
      simp only [deliver, dispatch, hposted, Option.some.injEq] at hr
      subst hr
      exact ⟨⟨rfl, rfl, rfl, rfl, fun _ => rfl, [], rfl, by simp⟩, .nil⟩
    · exact ⟨(undisturbing_deliver hu hr hdispatch hq).calm, Unreporting.event hr hdispatch hq⟩
  refine ⟨labels, a', h.goes_on hadv.run hadv.served hundisturbed.1 (mute_event hr hq hd).posted ?_ ?_,
    hadv.run, fun hl => ?_⟩
  · intro i obey hi
    obtain ⟨new, hlog, hnew⟩ := log_grows hu hspent hstep
    rw [hlog] at hi
    refine .inl ((List.mem_append.mp hi).resolve_left fun hi => ?_)
    obtain ⟨hact, -⟩ := hnew i obey hi
    cases hact
  · refine .inl ⟨hundisturbed.2.append hcalls, fun hp => absurd hp (hadv.run.not_idle (fun hl => ?_) hne)⟩
    obtain ⟨hact, -⟩ := hmakes _ hl
    cases hact
  · obtain ⟨hact, -⟩ := hmakes _ hl
    cases hact

theorem AutoUploader.uploadFiles_active (h : s.uploader.activated = true) (fileList : List Path) (obey : Bool) :
    uploadFiles fileList obey s = if fileList.isEmpty then (s.emit (.returned false), [])
      else if refused obey s.env then ({s with quitTimers := s.quitTimers + 1}.emit (.returned false), [])
      else (s, fileList.map (Call.addFile · obey) ++ [.filesAdded fileList.length]) := by
  simp [uploadFiles, activate_active h]

theorem AutoUploader.activate_log : (activate s).log = s.log := by
  unfold activate
  split <;> rfl

theorem AutoUploader.uploadFiles_accepted {fileList : List Path} {obey : Bool} (hne : fileList ≠ [])
    (hr : refused obey s.env = false) : uploadFiles fileList obey s =
      (activate s, fileList.map (Call.addFile · obey) ++ [.filesAdded fileList.length]) := by
  have henv : (activate s).env = s.env := by
    unfold activate
    split <;> rfl
  simp [uploadFiles, hne, henv, hr]

theorem request_of_uploadFiles (fileList : List Path) (obey : Bool) :
    ∀ k ∈ fileList.map (Call.addFile · obey) ++ [.filesAdded fileList.length], k.request := by
  intro k hk
  rcases List.mem_append.mp hk with hk | hk
  · obtain ⟨path, -, rfl⟩ := List.mem_map.mp hk
    trivial
  · rw [List.mem_singleton.mp hk]
    trivial

/-- A request is dispatched. -/
theorem Active.uploadFiles_step {fileList : List Path} {obey : Bool} {rest : List Posted}
    (h : Active ⟨s, []⟩ a) (hposted : s.posted = .uploadFiles fileList obey :: rest) :
    Active ⟨(AutoUploader.uploadFiles fileList obey {s with posted := rest}).1,
      (AutoUploader.uploadFiles fileList obey {s with posted := rest}).2⟩ a := by
  have halike : Alike 0 s {s with posted := rest} :=
    {Alike.refl s with posted := fun i hi => hposted ▸ List.mem_cons_of_mem _ hi}
  have hkept (e : EngineId) (he : .deleteEngine e ∈ rest) : .deleteEngine e ∈ s.posted :=
    hposted ▸ List.mem_cons_of_mem _ he
  have hreturned {t : State} (ht : Alike 0 s t) (he : t.engines = s.engines) (hu : t.uploader = s.uploader)
      (hquit : t.quitting = s.quitting) (hn : t.nextEngine = s.nextEngine) (hl : t.log = s.log)
      (hp : t.posted = rest) : Active ⟨t.emit (.returned false), []⟩ a := by
    refine h.asked (ht.trans (.emit rfl)) (congrFun he 0) ?_ ?_ ?_ (by simp)
    · refine ⟨congrArg Uploader.engine hu, congrArg Uploader.activated hu, hquit, hn, fun e => ?_,
        [.returned false], ?_, ?_⟩
      · exact congrArg Engine.reported (congrFun he e)
      · exact congrArg (Output.returned false :: ·) hl
      · simp [Output.calm]
    · exact fun e hd => hkept e (hp ▸ hd)
    · intro i obey hi
      rw [← hl]
      simpa using hi
  rw [AutoUploader.uploadFiles_active (by exact h.activated)]
  split
  · exact hreturned halike rfl rfl rfl rfl rfl rfl
  · split
    · exact hreturned {halike with } rfl rfl rfl rfl rfl rfl
    · exact h.asked halike rfl ⟨rfl, rfl, rfl, rfl, fun _ => rfl, [], rfl, by simp⟩ hkept (fun _ _ => id)
        (request_of_uploadFiles fileList obey)

/-- The outside world moves, or a request or a quit() is posted. -/
theorem Active.passive_step {ev : Event} {stack : List Call} {r : State × List Call} (h : Active ⟨s, stack⟩ a)
    (hr : deliver ev s = some r) (hp : ev.passive = true) : Active ⟨r.1, r.2 ++ stack⟩ a := by
  have hserved := (served_passive h.served hp hr).served
  have hstay (hcalls : r.2 = []) (hu : r.1.uploader = s.uploader) (hquit : r.1.quitting = s.quitting)
      (hn : r.1.nextEngine = s.nextEngine)
      (he : r.1.engines = s.engines) (hl : r.1.log = s.log)
      (hposted : ∀ e, .deleteEngine e ∈ r.1.posted → .deleteEngine e ∈ s.posted) :
      Active ⟨r.1, r.2 ++ stack⟩ a := by
    refine h.goes_on (.nil a) hserved ?_ hposted (fun i obey hi => .inl (hl ▸ hi)) ?_
    · refine ⟨congrArg Uploader.engine hu, congrArg Uploader.activated hu, hquit, hn, fun e => ?_, [], hl, by simp⟩
      exact congrArg Engine.reported (congrFun he e)
    · unfold Turn
      rw [hcalls, hu]
      exact h.turn
  cases ev with
  | callUploadFiles | callQuit =>
    cases hr
    exact hstay rfl rfl rfl rfl rfl rfl fun e he => by simpa using he
  | environment | file | coreLocations =>
    cases hr
    exact hstay rfl rfl rfl rfl rfl rfl fun _ => id
  | _ => cases hp

/-! ### The end of the batch -/

theorem QuitsSettled.append {new log : List Output} (h : QuitsSettled log)
    (hnew : ∀ i obey, .accepted i obey ∉ new) (hsettled : (∃ cause, .quit cause ∈ new) →
      ∀ i obey, .accepted i obey ∈ log → Settled i log) : QuitsSettled (new ++ log) := by
  intro post pre cause hlog i obey hi
  replace hi : .accepted i obey ∈ log := (List.mem_append.mp hi).resolve_left (hnew i obey)
  rcases List.append_eq_append_iff.mp hlog with ⟨post', -, hlog'⟩ | ⟨pre', hnew', hpre⟩
  · exact h post' pre cause hlog' i obey hi
  · cases pre' with
    | nil => exact h [] pre cause hpre.symm i obey hi
    | cons o pre' =>
      obtain ⟨rfl, rfl⟩ := List.cons.inj hpre
      have hquit : .quit cause ∈ new := hnew' ▸ List.mem_append_right _ (List.mem_cons_self ..)
      exact ⟨List.mem_append_right _ hi, (hsettled ⟨cause, hquit⟩ i obey hi).append pre'⟩

theorem quitsSettled_of_unquit {log : List Output} (h : ∀ cause, .quit cause ∉ log) : QuitsSettled log := by
  intro post pre cause hlog
  refine absurd ?_ (h cause)
  rw [hlog]
  exact List.mem_append_right _ (List.mem_cons_self ..)

/-- engineFinished() calls quit(). -/
theorem Active.finish_step {error : ErrorType} {sent total : Nat} {rest : List Call}
    (h : Active ⟨s, .finished 0 error sent total :: rest⟩ a) : a.phase = .idle ∧
      Ended (uploader.called (.finished 0 error sent total) rest s) := by
  have hidle : a.phase = .idle := by
    rcases h.turn with ⟨hcalls, -⟩ | ⟨hp, -⟩
    · have hk := hcalls _ (List.mem_cons_self ..)
      cases hk
    · exact hp
  have hreported : (s.engines 0).reported = true := (h.reported 0).mpr rfl
  have hengine : s.uploader.engine = some 0 := h.engine
  have hframe : Frame s (AutoUploader.notifyFinished sent total s) := AutoUploader.frame_notifyFinished sent total
  obtain ⟨new, hlog, hminor⟩ := hframe.log
  have hquit : (exec (.finished 0 error sent total) s).1.log =
      (.deleteLater 0 :: .quit .batchEnd :: new) ++ s.log := by
    have hengine' : (AutoUploader.notifyFinished sent total s).uploader.engine = some 0 := by
      rw [hframe.uploader]
      exact hengine
    simp [exec, hreported, AutoUploader.engineFinished, AutoUploader.askReason, hengine, AutoUploader.quit,
      hengine', AutoUploader.quitTail, AutoUploader.quitApplication, hlog]
  refine ⟨hidle, ⟨.batchEnd, ?_⟩, ?_⟩
  · show _ ∈ (exec (.finished 0 error sent total) s).1.log
    rw [hquit]
    simp
  · show QuitsSettled (exec (.finished 0 error sent total) s).1.log
    rw [hquit]
    refine (quitsSettled_of_unquit h.unquit).append (fun i obey hi => ?_) fun _ i obey hi => h.settled hidle hi
    have hi' : .accepted i obey ∈ new := by simpa using hi
    have hm := hminor _ hi'
    cases hm

end Step

theorem Ended.settles {x : Config} (h : Ended x) {i : ItemId} {obey : Bool}
    (hi : .accepted i obey ∈ x.state.log) : Settled i x.state.log := by
  obtain ⟨cause, hquit⟩ := h.quit
  obtain ⟨post, pre, hlog⟩ := List.append_of_mem hquit
  have hsettled := (h.settled post pre cause hlog i obey hi).2.append (post ++ [.quit cause])
  rw [hlog]
  simpa using hsettled

/-- After quit() no file is queued. -/
theorem Ended.step {x y : Config} {act : Action} (h : Ended x) (hg : Considerate x act)
    (hc : .quit .client ∉ x.state.log) (hu : Uploads x.state) (hspent : ∀ k ∈ x.stack, k.Spent x.state)
    (hs : uploader.step x act = some y) : Ended y := by
  obtain ⟨new, hlog, hnew⟩ := log_grows hu hspent hs
  obtain ⟨cause, hquit⟩ := h.quit
  refine ⟨⟨cause, hlog ▸ List.mem_append_right _ hquit⟩, ?_⟩
  rw [hlog]
  refine h.settled.append (fun i obey hi => ?_) fun _ i obey hi => h.settles hi
  obtain ⟨hact, -, path, rest, hstack, hpath⟩ := hnew i obey hi
  obtain ⟨-, hadd, -⟩ := hg.2.resolve_left hc
  exact hadd path obey rest hact hstack hpath cause hquit

/-! ### Before the first request -/

/-- There is no engine yet. -/
structure Unstarted (x : Config) : Prop where
  stack : x.stack = []
  engineless : x.state.uploader = ⟨none, false, []⟩
  queue : x.state.queue = ⟨[], false, 0, []⟩
  engines : ∀ e, (x.state.engines e).networkSession = none ∧ (x.state.engines e).currentItem = none ∧
    (x.state.engines e).reported = false
  nextEngine : x.state.nextEngine = 0
  nextClient : x.state.nextClient = 0
  quiet : ∀ c, (x.state.clients c).Quiet
  posted : ∀ m ∈ x.state.posted, m = .quit ∨ ∃ fileList obey, m = .uploadFiles fileList obey
  quitTimers : x.state.quitTimers = 0
  running : x.state.quitting = false
  log : ∀ o ∈ x.state.log, o = .returned false

theorem unstarted_blank (env : Environment) (files : Path → Option File) (coreLocations : List Path)
    (logWritable : Bool) : Unstarted ⟨blank env files coreLocations logWritable, []⟩ := by
  refine ⟨rfl, rfl, rfl, fun _ => ⟨rfl, rfl, rfl⟩, rfl, rfl, fun c => ?_, ?_, rfl, rfl, ?_⟩
  · constructor <;> simp [blank]
  · simp [blank]
  · simp [blank]

/-- The first request that is not refused makes an engine. -/
theorem Unstarted.activate {fileList : List Path} {obey : Bool} {rest : List Posted}
    (h : Unstarted ⟨s, []⟩) (hposted : s.posted = .uploadFiles fileList obey :: rest) (hne : fileList ≠ [])
    (hr : AutoUploader.refused obey s.env = false) :
    Active ⟨(AutoUploader.uploadFiles fileList obey {s with posted := rest}).1,
      (AutoUploader.uploadFiles fileList obey {s with posted := rest}).2⟩ Service.fresh := by
  have hactivate : AutoUploader.activate {s with posted := rest} = {s with
      engines := Function.update s.engines 0
        { state := .noConnection, currentItem := none, errorMessage := none, error := .noError,
          sentFiles := 0, networkSession := none, reported := true }
      nextEngine := 1
      queue := ⟨[], false, 0, [0]⟩
      uploader := ⟨some 0, true, []⟩
      posted := rest} := by
    have hu : s.uploader = ⟨none, false, []⟩ := h.engineless
    have hq : s.queue = ⟨[], false, 0, []⟩ := h.queue
    have hn : s.nextEngine = 0 := h.nextEngine
    rw [AutoUploader.activate_new (by simp [hu])]
    simp [hu, hq, hn]
  have hcalls := request_of_uploadFiles fileList obey
  have hkept (m : Posted) (hm : m ∈ rest) : m = .quit ∨ ∃ fileList obey, m = .uploadFiles fileList obey :=
    h.posted m (hposted ▸ List.mem_cons_of_mem _ hm)
  have hlog (o : Output) (ho : o ∈ s.log) : o = .returned false := h.log o ho
  rw [AutoUploader.uploadFiles_accepted hne (by exact hr), hactivate]
  refine ⟨⟨⟨rfl, fun e he => ?_, rfl, rfl, rfl, rfl, ?_, ?_, ?_, fun i hi => ?_, fun c _ => h.quiet c, ?_⟩, .inl rfl,
    ⟨_, rfl, fun k hk => .inr (hcalls k hk)⟩, ?_⟩, Service.ordered_fresh, rfl, rfl, h.running,
    fun e => ?_, fun e he => ?_, fun cause hq => ?_, fun i obey' hi => ?_, .inl ⟨fun k hk => ?_, fun _ => ?_⟩⟩
  · obtain ⟨hsession, hcurrent, -⟩ := h.engines e
    simpa [he] using ⟨hsession, hcurrent⟩
  · refine List.filterMap_eq_nil_iff.mpr fun o ho => ?_
    rw [hlog o ho]
    rfl
  · simp [Service.fresh]
  · simp [Service.fresh, Service.enqueued]
  · rcases hkept _ hi with hm | ⟨_, _, hm⟩ <;> cases hm
  · intro i hi
    simp at hi
  · refine (List.count_eq_zero_of_not_mem fun hm => ?_).symm
    exact hcalls _ hm
  · rcases eq_or_ne e 0 with rfl | he
    · simp
    · simpa [he] using (h.engines e).2.2
  · rcases hkept _ he with hm | ⟨_, _, hm⟩ <;> cases hm
  · have hm := hlog _ hq
    cases hm
  · have hm := hlog _ hi
    cases hm
  · have hk' := hcalls k hk
    cases k <;> first | rfl | exact hk'.elim
  · obtain ⟨path, fileList', rfl⟩ := List.exists_cons_of_ne_nil hne
    exact ⟨path, obey, _, rfl, by simp⟩

theorem Unstarted.step {x y : Config} {act : Action} (h : Unstarted x) (hg : Considerate x act)
    (hs : uploader.step x act = some y) : .quit .client ∈ y.state.log ∨ Unstarted y ∨ ∃ a, Active y a := by
  obtain ⟨s, stack⟩ := x
  obtain rfl : stack = [] := h.stack
  cases act with
  | run => cases hs
  | event ev =>
    obtain ⟨-, r, hr, rfl⟩ := uploader.step_event hs
    replace hr : deliver ev s = some r := hr
    have hdead {c : ClientId} {p : Bool} {slot : State × List Call} (hr : deliverReply c s p slot = some r) :
        False := by
      have hzero : s.nextClient = 0 := h.nextClient
      obtain ⟨hc, -⟩ := deliverReply_some hr
      simp [State.clientAlive, hzero] at hc
    have hposts (m : Posted) (hm : m = .quit ∨ ∃ fileList obey, m = .uploadFiles fileList obey) :
        Unstarted ⟨s.post m, []⟩ := by
      refine {h with posted := fun m' hm' => ?_}
      rcases List.mem_append.mp hm' with hm' | hm'
      · exact h.posted m' hm'
      · rw [List.mem_singleton.mp hm']
        exact hm
    cases ev with
    | enqueue file => exact absurd rfl (hg.1.1 file)
    | cancelAll e => exact absurd rfl (hg.1.2 e)
    | callUploadFiles fileList obey =>
      cases hr
      exact .inr (.inl (hposts _ (.inr ⟨fileList, obey, rfl⟩)))
    | callQuit =>
      cases hr
      exact .inr (.inl (hposts _ (.inl rfl)))
    | environment | file | coreLocations =>
      cases hr
      exact .inr (.inl {h with })
    | dispatch =>
      simp only [deliver, dispatch] at hr
      split at hr
      · cases hr
      · rename_i m rest hposted
        have hkept (m' : Posted) (hm : m' ∈ rest) := h.posted m' (hposted ▸ List.mem_cons_of_mem _ hm)
        rcases h.posted m (hposted ▸ List.mem_cons_self ..) with rfl | ⟨fileList, obey, rfl⟩
        · left
          have hengine : s.uploader.engine = none := congrArg Uploader.engine h.engineless
          cases hr
          simp [AutoUploader.quit, hengine, AutoUploader.quitApplication]
        · right
          cases hr
          by_cases hne : fileList = []
          · left
            subst hne
            refine {h with posted := hkept, log := fun o ho => ?_}
            rcases List.mem_cons.mp ho with rfl | ho
            · rfl
            · exact h.log o ho
          · right
            refine ⟨Service.fresh, ?_⟩
            rw [List.append_nil]
            refine h.activate hposted hne ?_
            by_contra hrefused
            have hquit : .quit .client ∉ s.log := fun hm => by cases h.log _ hm
            have hactive := (hg.2.resolve_left hquit).1 fileList obey rest rfl hposted hne (by simpa using hrefused)
            rw [h.engineless] at hactive
            cases hactive
    | quitTimer =>
      have hzero : s.quitTimers = 0 := h.quitTimers
      simp [deliver, hzero] at hr
    | exit =>
      have hrunning : s.quitting = false := h.running
      simp [deliver, hrunning] at hr
    | session e signal =>
      have hnone : (s.engines e).networkSession = none := (h.engines e).1
      simp [deliver, hnone] at hr
    | replyError | replyFinished | uploadProgress | sslErrors | timeout => exact (hdead hr).elim

/-! ### Every run -/

section Run
variable {x y : Config} {act : Action} {a : Service ItemId}

/-- quit() itself only speaks of quitting. -/
theorem quit_log (cause : Quitter) : ∃ new, (AutoUploader.quit cause s).1.log = new ++ .quit cause :: s.log ∧
    ∀ items, .dropped items ∉ new := by
  unfold AutoUploader.quit AutoUploader.quitTail AutoUploader.quitApplication
  dsimp only
  split
  · exact ⟨[], rfl, by simp⟩
  · rename_i e _
    split
    · exact ⟨[], rfl, by simp⟩
    · exact ⟨[.deleteLater e], rfl, by simp⟩

/-- The timer of a refused request finds no batch under way, so it does not come here; and
the process has not been told to quit. -/
theorem Active.not_quits {ev : Event} {r : State × List Call} (h : Active x a) (hg : Considerate x (.event ev))
    (hc : .quit .client ∉ x.state.log) (ha : admits ev x.stack = true) (hr : deliver ev x.state = some r) :
    ev.quits = false := by
  cases ev with
  | quitTimer =>
    exfalso
    obtain ⟨-, hne⟩ := h.turn.admits hg.1 ha rfl
    have hbusy : a.phase.busy = true := by
      have hserving := (live_eq_nil (h.served.live_of_admits ha rfl)).resolve_left hne
      cases hp : a.phase <;> simp_all [Phase.serving, Phase.busy]
    have hn := (hg.2.resolve_left hc).2.2 rfl
    rw [h.served.serves.notified, hbusy] at hn
    cases hn
  | exit =>
    simp only [deliver, h.running, Bool.false_and] at hr
    cases hr
  | _ => rfl

/-- A client calls quit(), the batch ends, or the engine goes on. -/
theorem Active.step (h : Active x a) (hg : Considerate x act) (hc : .quit .client ∉ x.state.log)
    (hu : Uploads x.state) (hspent : ∀ k ∈ x.stack, k.Spent x.state) (hs : uploader.step x act = some y) :
    (act = .event .dispatch ∧ ∃ rest, x.state.posted = .quit :: rest) ∨ a.phase = .idle ∧ Ended y ∨
      ∃ labels a', Active y a' ∧ Service.Run a labels a' ∧ (.drop ∈ labels → Makes 0 x act .drop) := by
  obtain ⟨s, stack⟩ := x
  cases act with
  | run =>
    right
    obtain ⟨k, rest, hstack, rfl⟩ := uploader.step_run hs
    obtain rfl : stack = k :: rest := hstack
    cases hreports : k.reports with
    | true =>
      left
      obtain ⟨hcalls, -⟩ | ⟨-, error, sent, total, rest', hstack, -⟩ := h.turn
      · have hk := hcalls k (List.mem_cons_self ..)
        rw [hreports] at hk
        cases hk
      · obtain ⟨rfl, rfl⟩ := List.cons.inj hstack
        exact h.finish_step
    | false =>
      right
      rcases h.top with hk | hk
      · obtain ⟨labels, a', hy, hrun, hl⟩ := h.request_step hk hu hspent
        exact ⟨labels, a', hy, hrun, fun hm => absurd hm hl⟩
      · exact h.call_step hk hreports hu hspent
  | event ev =>
    obtain ⟨ha, r, hr, rfl⟩ := uploader.step_event hs
    replace hr : deliver ev s = some r := hr
    have hgoes (hy : ∃ labels a', Active ⟨r.1, r.2 ++ stack⟩ a' ∧ Service.Run a labels a' ∧ .drop ∉ labels) :
        ∃ labels a', Active ⟨r.1, r.2 ++ stack⟩ a' ∧ Service.Run a labels a' ∧
          (.drop ∈ labels → Makes 0 ⟨s, stack⟩ (.event ev) .drop) := by
      obtain ⟨labels, a', hy, hrun, hl⟩ := hy
      exact ⟨labels, a', hy, hrun, fun hm => absurd hm hl⟩
    by_cases hp : ev.passive = true
    · exact .inr (.inr (hgoes ⟨[], a, h.passive_step hr hp, .nil a, by simp⟩))
    have hq : ev.quits = false := h.not_quits hg hc ha hr
    replace hp : ev.passive = false := by simpa using hp
    by_cases hd : ev = .dispatch
    · subst hd
      obtain rfl : stack = [] := by
        cases stack with
        | nil => rfl
        | cons k rest => cases ha
      cases hposted : s.posted with
      | nil => simp [deliver, dispatch, hposted] at hr
      | cons m rest =>
        cases m with
        | uploadFiles fileList obey =>
          right
          right
          simp only [deliver, dispatch, hposted, Option.some.injEq] at hr
          subst hr
          refine hgoes ⟨[], a, ?_, .nil a, by simp⟩
          rw [List.append_nil]
          exact h.uploadFiles_step hposted
        | quit => exact .inl ⟨rfl, rest, rfl⟩
        | deleteItem i =>
          exact .inr (.inr (hgoes (h.served_step hg.1 hu hspent ha hr hp hq fun _ => ⟨i, rest, hposted⟩)))
        | deleteEngine e => exact absurd (hposted ▸ List.mem_cons_self ..) (h.kept e)
    · exact .inr (.inr (hgoes (h.served_step hg.1 hu hspent ha hr hp hq fun he => absurd he hd)))

/-- Nothing but a lost session cancels an item. -/
theorem Active.cancels {i : ItemId} {obey : Bool} (h : Active x a) (hg : Considerate x act)
    (hc : .quit .client ∉ x.state.log) (hs : uploader.step x act = some y) (hi : .accepted i obey ∈ x.state.log)
    (hopen : ¬Settled i x.state.log) (hcancelled : (y.state.items i).status = .cancelled) :
    (x.state.items i).status = .cancelled ∨ LosesSession act := by
  obtain ⟨s, stack⟩ := x
  cases act with
  | run =>
    left
    obtain ⟨k, rest, hstack, rfl⟩ := uploader.step_run hs
    obtain rfl : stack = k :: rest := hstack
    refine Spares.exec ?_ ?_ i hcancelled
    · rintro e rfl
      rcases h.top with hk | hk
      · exact hk
      · cases hk
    · rintro e error sent total rfl
      exfalso
      rcases h.turn with ⟨hcalls, -⟩ | ⟨hp, -⟩
      · have hk := hcalls _ (List.mem_cons_self ..)
        cases hk
      · exact hopen (h.settled hp hi)
  | event ev =>
    by_cases hlost : LosesSession (.event ev)
    · exact .inr hlost
    left
    obtain ⟨ha, r, hr, rfl⟩ := uploader.step_event hs
    replace hr : deliver ev s = some r := hr
    refine Spares.event hr (h.not_quits hg hc ha hr) (fun e he => hg.1.2 e (he ▸ rfl)) ?_ i hcancelled
    rintro e signal rfl
    simp only [deliver, Option.ite_none_right_eq_some] at hr
    obtain rfl : e = 0 := h.served.serves.session_own hr.1
    cases signal with
    | opened => rfl
    | error m isOpen => exact absurd (.inr ⟨m, isOpen, rfl⟩) hlost
    | disconnected => exact absurd (.inl rfl) hlost

/-- Nothing but the end of a cancelled item drops others. -/
theorem Active.drops {new : List Output} {items : List ItemId} {i : ItemId} {obey : Bool} (h : Active x a)
    (hg : Considerate x act) (hc : .quit .client ∉ x.state.log) (hu : Uploads x.state)
    (hspent : ∀ k ∈ x.stack, k.Spent x.state) (hs : uploader.step x act = some y)
    (hlog : y.state.log = new ++ x.state.log) (hd : .dropped items ∈ new) (hi : .accepted i obey ∈ x.state.log)
    (hopen : ¬Settled i x.state.log) :
    ∃ e j rest, x.stack = .uploadFinished e j :: rest ∧ (x.state.items j).status = .cancelled := by
  rcases h.step hg hc hu hspent hs with ⟨rfl, rest, hposted⟩ | ⟨hp, -⟩ | ⟨labels, a', hy, hrun, hdrop⟩
  · exfalso
    obtain ⟨s, stack⟩ := x
    obtain ⟨-, r, hr, rfl⟩ := uploader.step_event hs
    replace hr : deliver .dispatch s = some r := hr
    dsimp only at hposted
    simp only [deliver, dispatch, hposted, Option.some.injEq] at hr
    subst hr
    obtain ⟨new', hlog', hnew'⟩ := quit_log .client (s := {s with posted := rest})
    have heq : new = new' ++ [.quit .client] := by
      have hboth := hlog.symm.trans hlog'
      rw [List.append_cons] at hboth
      exact List.append_cancel_right hboth
    rw [heq] at hd
    exact hnew' items (by simpa using hd)
  · exact absurd (h.settled hp hi) hopen
  · obtain ⟨marks', htrace, hmarks⟩ := hrun.marks
    have hnew : marks' = marks new := by
      have hboth : marks (new ++ x.state.log) = marks' ++ marks x.state.log := by
        rw [← hlog, hy.served.serves.trace, htrace, h.served.serves.trace]
      rw [marks_append] at hboth
      exact (List.append_cancel_right hboth).symm
    obtain ⟨-, j, rest, hstack, hj⟩ := hdrop (hmarks items (hnew ▸ List.mem_filterMap.mpr ⟨_, hd, rfl⟩))
    exact ⟨0, j, rest, hstack, hj⟩

/-- What a refusal leaves. -/
theorem refused_leaves {fileList : List Path} {obey : Bool} {rest : List Posted}
    (hg : Considerate x (.event .dispatch)) (hc : .quit .client ∉ x.state.log)
    (hposted : x.state.posted = .uploadFiles fileList obey :: rest)
    (hs : uploader.step x (.event .dispatch) = some y) (hlog : y.state.log = .returned false :: x.state.log) :
    y.stack = x.stack ∧ y.state.uploader = x.state.uploader ∧ y.state.engines = x.state.engines ∧
      y.state.queue = x.state.queue ∧ y.state.items = x.state.items ∧ y.state.clients = x.state.clients := by
  obtain ⟨s, stack⟩ := x
  obtain ⟨-, r, hr, rfl⟩ := uploader.step_event hs
  replace hr : deliver .dispatch s = some r := hr
  dsimp only at hposted hlog ⊢
  simp only [deliver, dispatch, hposted, Option.some.injEq] at hr
  by_cases hne : fileList = []
  · subst hne hr
    exact ⟨rfl, rfl, rfl, rfl, rfl, rfl⟩
  · cases hrefused : AutoUploader.refused obey s.env with
    | true =>
      have hactive := (hg.2.resolve_left hc).1 fileList obey rest rfl hposted hne hrefused
      rw [AutoUploader.uploadFiles_active (by exact hactive)] at hr
      simp only [List.isEmpty_iff, hne, hrefused, if_false, if_true] at hr
      subst hr
      exact ⟨rfl, rfl, rfl, rfl, rfl, rfl⟩
    | false =>
      rw [AutoUploader.uploadFiles_accepted hne (by exact hrefused)] at hr
      subst hr
      rw [AutoUploader.activate_log] at hlog
      exact absurd (congrArg List.length hlog) (by simp)

/-- The process waits for its first request, serves, or has called quit(). -/
theorem stage_of_reaches {env : Environment} {files : Path → Option File} {coreLocations : List Path}
    {logWritable : Bool} (hx : Reaches uploader Considerate ⟨blank env files coreLocations logWritable, []⟩ x) :
    .quit .client ∈ x.state.log ∨ Unstarted x ∨ (∃ a, Active x a) ∨ Ended x := by
  induction hx with
  | start => exact .inr (.inl (unstarted_blank ..))
  | @next x y act hx hg hs ih =>
    obtain ⟨hu, hspent⟩ := uploads_of_reaches hx
    by_cases hc : .quit .client ∈ x.state.log
    · obtain ⟨new, hlog, -⟩ := log_grows hu hspent hs
      exact .inl (hlog ▸ List.mem_append_right _ hc)
    rcases ih.resolve_left hc with hx | ⟨a, ha⟩ | hx
    · exact (hx.step hg hs).imp id (Or.imp id .inl)
    · rcases ha.step hg hc hu hspent hs with ⟨rfl, rest, hposted⟩ | ⟨-, hy⟩ | ⟨labels, a', hy, -⟩
      · left
        obtain ⟨s, stack⟩ := x
        obtain ⟨-, r, hr, rfl⟩ := uploader.step_event hs
        replace hr : deliver .dispatch s = some r := hr
        dsimp only at hposted
        simp only [deliver, dispatch, hposted, Option.some.injEq] at hr
        subst hr
        obtain ⟨new, hlog, -⟩ := quit_log .client (s := {s with posted := rest})
        show .quit .client ∈ (AutoUploader.quit .client {s with posted := rest}).1.log
        rw [hlog]
        simp
      · exact .inr (.inr (.inr hy))
      · exact .inr (.inr (.inl ⟨a', hy⟩))
    · exact .inr (.inr (.inr (hx.step hg hc hu hspent hs)))

/-- No refusal and no end of a batch harms an accepted item. -/
theorem requests_unharmed {env : Environment} {files : Path → Option File} {coreLocations : List Path}
    {logWritable : Bool} (hx : Reaches uploader Considerate ⟨blank env files coreLocations logWritable, []⟩ x)
    (hc : .quit .client ∉ x.state.log) : Unharmed Considerate x := by
  obtain ⟨hu, hspent⟩ := uploads_of_reaches hx
  have hstage := (stage_of_reaches hx).resolve_left hc
  -- While no engine serves, every accepted item is settled.
  have hserved {i : ItemId} {obey : Bool} (hi : .accepted i obey ∈ x.state.log) (hopen : ¬Settled i x.state.log) :
      ∃ a, Active x a := by
    rcases hstage with hx | ha | hx
    · have hm := hx.log _ hi
      cases hm
    · exact ha
    · exact absurd (hx.settles hi) hopen
  refine ⟨?_, fun act y i obey hg hs hi hopen hcancelled => ?_,
    fun act y new items i obey hg hs hlog hd _ hi hopen => ?_, fun fileList obey rest y hg hposted hs hlog => ?_⟩
  · rcases hstage with hx | ⟨a, ha⟩ | hx
    · refine quitsSettled_of_unquit fun cause hq => ?_
      have hm := hx.log _ hq
      cases hm
    · exact quitsSettled_of_unquit ha.unquit
    · exact hx.settled
  · obtain ⟨a, ha⟩ := hserved hi hopen
    exact ha.cancels hg hc hs hi hopen hcancelled
  · obtain ⟨a, ha⟩ := hserved hi hopen
    exact ha.drops hg hc hu hspent hs hlog hd hi hopen
  · exact refused_leaves hg hc hposted hs hlog

end Run

/-- What `Considerate` asks of a process whose clients do not quit. -/
def considerate (x : Config) : Action → Bool
  | .event (.enqueue _) | .event (.cancelAll _) => false
  | .event .dispatch => match x.state.posted with
    | .uploadFiles fileList obey :: _ =>
      fileList = [] || !AutoUploader.refused obey x.state.env || x.state.uploader.activated
    | _ => true
  | .event .quitTimer => !x.state.queue.notified
  | .run => match x.stack with
    | .addFile path _ :: _ => path ∈ x.state.uploader.addedFiles || x.state.log.all (!·.isQuit)
    | _ => true
  | _ => true

theorem considerate_sound (x : Config) (act : Action) (h : considerate x act = true) : Considerate x act := by
  refine ⟨⟨?_, ?_⟩, .inr ⟨?_, ?_, ?_⟩⟩
  · rintro file rfl
    cases h
  · rintro e rfl
    cases h
  · rintro fileList obey rest rfl hposted hne hrefused
    simpa [considerate, hposted, hne, hrefused] using h
  · rintro path obey rest rfl hstack hpath cause hquit
    simp only [considerate, hstack, hpath, decide_false, Bool.false_or, List.all_eq_true] at h
    have hno := h _ hquit
    cases hno
  · rintro rfl
    simpa [considerate] using h

/-- A request is refused while a report is being sent; its timer fires after the batch. -/
def refuseWhileSending : List Action := sendReport ++ [.event (.environment .mobile),
  .event (.callUploadFiles ["/b.rcore"] true), .event .dispatch]

def refusedWhileSending : Config := (uploader.run refuseWhileSending reportAtRest).get (by decide)

def quitAfterBatch : List Action := refuseWhileSending ++
  [.event (.replyFinished 0 ⟨true, some 7⟩), .run, .run, .run, .event .quitTimer]

def quitTwiceAfterBatch : Config := (uploader.run quitAfterBatch reportAtRest).get (by decide)

theorem requests_unharmed_refused : (.returned false ∈ quitTwiceAfterBatch.state.log ∧
    .quit .refusal ∈ quitTwiceAfterBatch.state.log ∧ .itemDone 0 ∈ quitTwiceAfterBatch.state.log) ∧
      Unharmed Considerate quitTwiceAfterBatch :=
  ⟨by decide, requests_unharmed (Reaches.of_run .start (Guarded.of_check considerate_sound (by decide))
    (Option.some_get (x := uploader.run quitAfterBatch reportAtRest) (by decide)).symm) (by decide)⟩

/-! ### What the code does when the timer fires before the upload has ended -/

def quitByRefusal : Config := (uploader.step refusedWhileSending (.event .quitTimer)).get (by decide)

/-- The refused request quits while the accepted item is being sent. -/
theorem refusal_harms : ∃ x, Reaches uploader Process reportAtRest x ∧ .quit .client ∉ x.state.log ∧
    ¬Unharmed Process x := by
  have hsending : Reaches uploader Process reportAtRest refusedWhileSending := by
    refine Reaches.of_run .start (Guarded.mono (fun _ _ h => h.1) (Guarded.of_check considerate_sound ?_))
      (Option.some_get (x := uploader.run refuseWhileSending reportAtRest) (by decide)).symm
    decide
  refine ⟨quitByRefusal, .next hsending ⟨by simp, by simp⟩ (Option.some_get (by decide)).symm, by decide, ?_⟩
  intro hunharmed
  have hlog : quitByRefusal.state.log = [] ++ .quit .refusal :: refusedWhileSending.state.log := by decide
  have hsettled := (hunharmed.quits _ _ _ hlog 0 false (by decide)).2
  have hsent : refusedWhileSending.state.log = [.returned false, .returned true, .progressNotified 1,
      .put 0 0 "/a.rcore" [1, 2], .startUpload 0, .nextItem 0, .enqueued 0, .accepted 0 false] := by decide
  rw [hsent] at hsettled
  simp [Settled] at hsettled

end CrashReporter.Upload
