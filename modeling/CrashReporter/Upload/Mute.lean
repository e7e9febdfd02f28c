import CrashReporter.Upload.Serves

/-! What has no say in the error of a batch.

An item that waits has no error of its own (`Silent`), a batch is finished by queueDone()
and by nothing else, and only quit() deletes an engine: every other function of the upload
is `Mute`. What the queue, the items and their clients do leaves the engines as they are,
too (`Apart`). -/
namespace CrashReporter.Upload
open Reactor

variable {s : State}

abbrev Errors := ErrorType × Option String

def Engine.errors (v : Engine) : Errors := (v.error, v.errorMessage)

/-- An item that waits has no error. -/
def State.Silent (s : State) : Prop := ∀ i, (s.items i).status = .waiting → (s.items i).errorString = none

theorem State.Silent.of_items {s' : State} (h : s.Silent) (hi : s'.items = s.items) : s'.Silent := by
  rw [Silent, hi]
  exact h

theorem State.Silent.setItem (h : s.Silent) {i : ItemId} {v : Item}
    (hv : v.status = .waiting → v.errorString = none) : (s.setItem i v).Silent := by
  intro j hj
  rcases eq_or_ne j i with rfl | hne
  · rw [State.setItem_items, Function.update_self] at hj ⊢
    exact hv hj
  · rw [State.setItem_items, Function.update_of_ne hne] at hj ⊢
    exact h j hj

/-- How often finished() was emitted. -/
def finishes (log : List Output) : Nat := log.countP fun o => match o with
  | .finished .. => true
  | _ => false

/-- What waits goes on without an error, no batch is finished, and no engine is going to
be deleted. -/
structure Mute (s s' : State) : Prop where
  silent : s.Silent → s'.Silent
  finishes : finishes s'.log = finishes s.log
  posted : ∀ e, .deleteEngine e ∈ s'.posted → .deleteEngine e ∈ s.posted

theorem Mute.refl (s : State) : Mute s s := ⟨id, rfl, fun _ => id⟩

theorem Mute.trans {s t u : State} (h : Mute s t) (h' : Mute t u) : Mute s u :=
  ⟨fun hs => h'.silent (h.silent hs), h'.finishes.trans h.finishes, fun e he => h.posted e (h'.posted e he)⟩

theorem Mute.of_eq {s' : State} (hi : s'.items = s.items) (hl : Upload.finishes s'.log = Upload.finishes s.log)
    (hp : s'.posted = s.posted) : Mute s s' := ⟨fun h => h.of_items hi, hl, fun _ he => hp ▸ he⟩

theorem Mute.stateChange (e : EngineId) (next : EngineState) : Mute s (UploadEngine.stateChange e next s) :=
  .of_eq rfl rfl rfl

theorem Mute.setSession (e : EngineId) (session : Option Session) :
    Mute s (NwSessionMgr.setSession e session s) := .of_eq rfl rfl rfl

theorem Mute.setErrorType (e : EngineId) (type : ErrorType) :
    Mute s (UploadEngine.setErrorType e type s) := by
  unfold UploadEngine.setErrorType
  split
  · exact .of_eq rfl rfl rfl
  · exact .refl s

theorem Mute.setErrorString (e : EngineId) (m : Option String) :
    Mute s (UploadEngine.setErrorString e m s) := by
  unfold UploadEngine.setErrorString
  split
  · exact .of_eq rfl rfl rfl
  · exact .refl s

/-- Besides, the engines stay as they are. -/
structure Apart (s s' : State) : Prop extends Mute s s' where
  engines : s'.engines = s.engines

namespace Apart

theorem refl (s : State) : Apart s s := ⟨.refl s, rfl⟩

theorem trans {s t u : State} (h : Apart s t) (h' : Apart t u) : Apart s u :=
  ⟨h.toMute.trans h'.toMute, h'.engines.trans h.engines⟩

theorem of_eq {s' : State} (he : s'.engines = s.engines) (hi : s'.items = s.items)
    (hl : Upload.finishes s'.log = Upload.finishes s.log) (hp : s'.posted = s.posted) : Apart s s' :=
  ⟨.of_eq hi hl hp, he⟩

/-- After a change that is neither of an engine nor of an item. -/
theorem after {t u : State} (h : Apart t u) (he : t.engines = s.engines) (hi : t.items = s.items)
    (hl : Upload.finishes t.log = Upload.finishes s.log) (hp : t.posted = s.posted) : Apart s u :=
  (of_eq he hi hl hp).trans h

theorem setItem {i : ItemId} {v : Item}
    (hv : s.Silent → v.status = .waiting → v.errorString = none) : Apart s (s.setItem i v) :=
  ⟨⟨fun h => h.setItem (hv h), rfl, fun _ => id⟩, rfl⟩

theorem setStatus {i : ItemId} {status : ItemStatus} (h : status ≠ .waiting) :
    Apart s (UploadItem.setStatus i status s) :=
  setItem fun _ hw => absurd hw h

/-! The item and its client -/

theorem disconnectHttp (i : ItemId) : Apart s (UploadItem.disconnectHttp i s) := by
  unfold UploadItem.disconnectHttp
  split
  · exact refl s
  · exact of_eq rfl rfl rfl rfl

theorem itemError (i : ItemId) (m : String) : Apart s (UploadItem.uploadError i m s).1 := by
  refine (disconnectHttp i).trans ?_
  unfold UploadItem.uploadError
  dsimp only
  split
  · refine ⟨⟨fun h j hj => ?_, rfl, fun _ => id⟩, rfl⟩
    rcases eq_or_ne j i with rfl | hne
    · simp [UploadItem.setStatus] at hj
    · simp only [UploadItem.setStatus, State.setItem_items, Function.update_of_ne hne] at hj ⊢
      exact h j hj
  · rename_i hc
    refine setItem fun _ hw => ?_
    have hcancelled : ((UploadItem.disconnectHttp i s).items i).status = .cancelled := by
      simpa using hc
    exact absurd (hw.symm.trans hcancelled) (by simp)

theorem clientFinished (c : ClientId) : Apart s (HttpClient.finished c s).1 := by
  unfold HttpClient.finished
  dsimp only
  split
  · exact Apart.after (t := s.emit (.clientFinished c)) (setStatus (by simp)) rfl rfl rfl rfl
  · exact of_eq rfl rfl rfl rfl

theorem clientError (c : ClientId) (m : String) : Apart s (HttpClient.uploadError c m s).1 := by
  unfold HttpClient.uploadError
  dsimp only
  split
  · exact (itemError _ m).after rfl rfl rfl rfl
  · exact of_eq rfl rfl rfl rfl

theorem handleError (c : ClientId) (m : String) : Apart s (HttpClient.handleError c m s).1 := by
  unfold HttpClient.handleError
  split
  · exact (clientError c m).after rfl rfl rfl rfl
  · exact refl s

theorem parseReply (c : ClientId) (answer : ServerReply) : Apart s (HttpClient.parseReply c answer s) := by
  unfold HttpClient.parseReply
  repeat' split
  all_goals exact of_eq rfl rfl rfl rfl

theorem removeFile (path : Path) : Apart s (HttpClient.removeFile path s) := by
  unfold HttpClient.removeFile
  split
  · exact refl s
  · exact of_eq rfl rfl rfl rfl

theorem handleFinished (c : ClientId) (answer : ServerReply) :
    Apart s (HttpClient.handleFinished c answer s).1 := by
  have hend {t : State} (h : Apart s t) (v : Client) :
      Apart s (HttpClient.finished c (t.setClient c v)).1 :=
    h.trans ((clientFinished c).after rfl rfl rfl rfl)
  have hread (v : Client) : Apart s (HttpClient.parseReply c answer (s.setClient c v)) :=
    (parseReply c answer).after rfl rfl rfl rfl
  unfold HttpClient.handleFinished
  dsimp only
  split
  · split
    · exact hend ((hread _).trans (removeFile _)) _
    · exact hend (hread _) _
  · apply hend
    exact of_eq rfl rfl rfl rfl

theorem cancelClient (c : ClientId) : Apart s (HttpClient.cancel c s).1 := by
  unfold HttpClient.cancel
  dsimp only
  split
  · exact (handleError c _).after rfl rfl rfl rfl
  · exact (handleFinished c _).after rfl rfl rfl rfl

theorem aborted (c : ClientId) : Apart s (HttpClient.aborted c s).1 :=
  (handleFinished c _).after rfl rfl rfl rfl

theorem cancelled (c : ClientId) : Apart s (HttpClient.cancelled c s).1 :=
  (handleFinished c _).after rfl rfl rfl rfl

theorem handleUploadProgress (c : ClientId) (sent total : Int) :
    Apart s (HttpClient.handleUploadProgress c sent total s) := by
  unfold HttpClient.handleUploadProgress
  dsimp only
  repeat' split
  all_goals exact of_eq rfl rfl rfl rfl

theorem handleSslErrors (c : ClientId) : Apart s (HttpClient.handleSslErrors c s) := by
  unfold HttpClient.handleSslErrors
  split
  · exact refl s
  · exact of_eq rfl rfl rfl rfl

theorem startUpload (i : ItemId) : Apart s (UploadItem.startUpload i s).1 := by
  have hitem (t : State) (v : Item) (ht : t.items = Function.update s.items i v)
      (hv : v.status ≠ .waiting) (hl : Upload.finishes t.log = Upload.finishes s.log)
      (hp : t.posted = s.posted) : Mute s t := by
    refine ⟨fun h => ?_, hl, fun _ he => hp ▸ he⟩
    have hset : (s.setItem i v).Silent := h.setItem fun hw => absurd hw hv
    exact hset.of_items ht
  refine ⟨?_, UploadItem.startUpload_engines i⟩
  cases hb : HttpClient.createPutRequest (s.items i).filepath s with
  | none =>
    rw [UploadItem.startUpload_failed i hb]
    exact hitem _ _ rfl (by simp) rfl rfl
  | some body =>
    rw [UploadItem.startUpload_sent i hb]
    exact hitem _ _ rfl (by simp) rfl rfl

theorem cancelItem (i : ItemId) : Apart s (UploadItem.cancel i s).1 := by
  have hstatus : Apart s (UploadItem.setStatus i .cancelled s) := setStatus (by simp)
  unfold UploadItem.cancel
  cases hh : ((UploadItem.setStatus i .cancelled s).items i).http with
  | none =>
    simp only [hh]
    split
    · exact hstatus
    · exact hstatus
  | some c =>
    simp only [hh]
    split
    · exact hstatus.trans (cancelClient c)
    · exact hstatus.trans (cancelClient c)

theorem cancelCurrent (e : EngineId) : Apart s (UploadEngine.cancelCurrent e s).1 := by
  unfold UploadEngine.cancelCurrent
  split
  · exact refl s
  · split
    · exact cancelItem _
    · exact of_eq rfl rfl rfl rfl

/-! The queue -/

theorem emitNextItem : Apart s (UploadQueue.emitNextItem s).1 := by
  unfold UploadQueue.emitNextItem
  split
  · exact of_eq rfl rfl rfl rfl
  · exact of_eq rfl rfl rfl rfl

theorem enqueueNew (file : Path) : Apart s (UploadQueue.enqueueNew file s).1 := by
  have hnew : Apart s (UploadQueue.newItem file s) := by
    refine ⟨⟨fun h j hj => ?_, rfl, fun _ => id⟩, rfl⟩
    rcases eq_or_ne j s.nextItem with rfl | hne
    · simp [UploadQueue.newItem]
    · simp only [UploadQueue.newItem, Function.update_of_ne hne] at hj ⊢
      exact h j hj
  refine hnew.trans ?_
  unfold UploadQueue.enqueueNew UploadQueue.enqueue
  dsimp only
  split
  · exact emitNextItem.after rfl rfl rfl rfl
  · exact of_eq rfl rfl rfl rfl

theorem clear : Apart s (UploadQueue.clear s) := by
  unfold UploadQueue.clear
  split
  · refine ⟨⟨fun h i hi => ?_, rfl, fun _ => id⟩, rfl⟩
    dsimp only [State.emit, State.setQueue] at hi ⊢
    split at hi
    · rename_i hm
      rw [if_pos hm]
      exact h i hi
    · rename_i hm
      rw [if_neg hm]
      exact h i hi
  · exact refl s

theorem markDone (i : ItemId) : Apart s (UploadItem.markDone i s).1 := by
  -- The item is going to be deleted, and no engine.
  have hpost {t : State} (he : t.engines = s.engines) (hi : t.items = s.items)
      (hl : Upload.finishes t.log = Upload.finishes s.log) (hp : t.posted = s.posted ++ [.deleteItem i]) :
      Apart s t := ⟨⟨fun h => h.of_items hi, hl, fun e hm => by simpa [hp] using hm⟩, he⟩
  cases hq : s.queue.uploadQueue with
  | nil =>
    rw [UploadItem.markDone_last i hq]
    exact hpost rfl rfl rfl rfl
  | cons j rest =>
    rw [UploadItem.markDone_next i hq]
    exact hpost rfl rfl rfl rfl

end Apart

/-! ### The engine: queueDone() alone finishes a batch -/

theorem mute_uploadFinished (e : EngineId) (i : ItemId) : Mute s (UploadEngine.uploadFinished e i s).1 := by
  have hset (m : Option String) : Mute s (UploadEngine.setErrorString e m
      (UploadEngine.setErrorType e .protocolError s)) :=
    (Mute.setErrorType e .protocolError).trans (.setErrorString e m)
  unfold UploadEngine.uploadFinished
  dsimp only
  refine Mute.trans ?_ (Apart.markDone i).toMute
  split
  · exact hset _
  · split
    · refine Mute.trans ?_ Apart.clear.toMute
      split
      · exact (hset _).trans (.stateChange e _)
      · exact hset _
    · exact .of_eq rfl rfl rfl

theorem mute_uploadItem (e : EngineId) (i : ItemId) : Mute s (UploadEngine.uploadItem e i s).1 := by
  have htake : Mute s (UploadEngine.take e i s) := by
    rw [UploadEngine.take_eq]
    refine ⟨fun h j hj => ?_, rfl, fun _ => id⟩
    rcases eq_or_ne j i with rfl | hne
    · simp only [Function.update_self] at hj ⊢
      exact h j hj
    · simp only [Function.update_of_ne hne] at hj ⊢
      exact h j hj
  rw [UploadEngine.uploadItem_eq]
  split
  · exact (htake.trans (.stateChange e _)).trans (Apart.startUpload i).toMute
  · exact htake.trans (.setSession e _)

theorem mute_sessionOpened (e : EngineId) (session : Option Session) :
    Mute s (UploadEngine.sessionOpened e (NwSessionMgr.setSession e session s)) := by
  have hset : Mute s (NwSessionMgr.setSession e session s) := .setSession e session
  unfold UploadEngine.sessionOpened
  split
  · split
    · exact hset
    · dsimp only
      split
      · exact (hset.trans (.stateChange e _)).trans (Apart.startUpload _).toMute
      · exact (hset.trans (.stateChange e _)).trans (.of_eq rfl rfl rfl)
  · exact hset

theorem mute_sessionDisconnected (e : EngineId) : Mute s (UploadEngine.sessionDisconnected e s).1 := by
  have hset (type : ErrorType) : Mute s (UploadEngine.cancelCurrent e (UploadEngine.setErrorType e type
      (UploadEngine.stateChange e .noConnection s))).1 :=
    ((Mute.stateChange e _).trans (.setErrorType e type)).trans (Apart.cancelCurrent e).toMute
  unfold UploadEngine.sessionDisconnected
  dsimp only
  split
  · exact hset _
  · exact hset _
  · exact .stateChange e _

theorem queueDone_finishes (e : EngineId) :
    finishes (UploadEngine.queueDone e s).1.log = finishes s.log + 1 := by
  have hemit {t : State} (ht : t.log = s.log) (error : ErrorType) (sent total : Nat) :
      finishes (UploadEngine.emitFinished e error sent total t).1.log = finishes s.log + 1 := by
    show finishes (.finished e error sent total :: t.log) = _
    rw [ht, finishes, List.countP_cons_of_pos (by rfl)]
    rfl
  unfold UploadEngine.queueDone NwSessionMgr.close
  dsimp only
  split
  · split <;> exact hemit rfl ..
  · exact hemit rfl ..

/-- Calls that only the uploader makes. -/
def Call.foreign : Call → Bool
  | .addFile .. | .fileAdded _ | .filesAdded _ | .cancelAll _ | .quitTail | .exited => true
  | _ => false

/-- A call either is no queueDone(), or finishes the batch with the errors of the engine. -/
theorem mute_exec {k : Call} (hk : k.foreign = false)
    (hreported : ∀ e error sent total, k = .finished e error sent total → (s.engines e).reported = false) :
    Mute s (exec k s).1 ∨ ∃ e t, k = .queueDone e ∧ Mute s t ∧ (t.engines e).errors = (s.engines e).errors ∧
      exec k s = UploadEngine.emitFinished e (t.engines e).error (t.engines e).sentFiles
        (UploadQueue.totalNumberOfItems t) t := by
  cases k with
  | uploadItem e i => exact .inl (mute_uploadItem e i)
  | uploadFinished e i => exact .inl (mute_uploadFinished e i)
  | queueDone e =>
    right
    show ∃ e' t, _ ∧ _ ∧ _ ∧ UploadEngine.queueDone e s = _
    unfold UploadEngine.queueDone
    dsimp only
    split
    · refine ⟨e, NwSessionMgr.close e (UploadEngine.stateChange e .closing s), rfl, ?_, ?_, rfl⟩
      · unfold NwSessionMgr.close
        split <;> exact .of_eq rfl rfl rfl
      · unfold NwSessionMgr.close
        split <;> simp [UploadEngine.stateChange, NwSessionMgr.setSession, Engine.errors]
    · exact ⟨e, s, rfl, .refl s, rfl, rfl⟩
  | finished e error sent total =>
    have hnone : exec (.finished e error sent total) s = (s, []) := by
      simp [exec, hreported e error sent total rfl]
    rw [hnone]
    exact .inl (.refl s)
  | sessionOpen e => exact .inl (.refl s)
  | sessionGone e => exact .inl (.of_eq rfl rfl rfl)
  | itemEnqueued => exact .inl (.of_eq rfl rfl rfl)
  | aborted c => exact .inl (Apart.aborted c).toMute
  | cancelled c => exact .inl (Apart.cancelled c).toMute
  | addFile | fileAdded | filesAdded | cancelAll | quitTail | exited => cases hk

theorem mute_event {ev : Event} {r : State × List Call} (hr : deliver ev s = some r) (hq : ev.quits = false)
    (hd : ev = .dispatch → ∃ i rest, s.posted = .deleteItem i :: rest) : Mute s r.1 := by
  cases ev with
  | enqueue file =>
    cases hr
    exact (Apart.enqueueNew file).toMute
  | cancelAll e =>
    cases hr
    exact (Apart.cancelCurrent e).toMute
  | dispatch =>
    obtain ⟨j, rest, hposted⟩ := hd rfl
    simp only [deliver, dispatch, hposted, Option.some.injEq] at hr
    subst hr
    refine ⟨fun h => State.Silent.setItem (s := {s with posted := rest}) h (h j), rfl, fun e he => ?_⟩
    rw [hposted]
    exact List.mem_cons_of_mem _ he
  | quitTimer | exit => cases hq
  | session e signal =>
    simp only [deliver, Option.ite_none_right_eq_some, Option.some.injEq] at hr
    obtain ⟨-, rfl⟩ := hr
    cases signal with
    | opened => exact mute_sessionOpened e _
    | error m isOpen =>
      exact ((Mute.setSession e _).trans (.setErrorString e (some m))).trans (mute_sessionDisconnected e)
    | disconnected => exact Mute.trans (.setSession e _) (mute_sessionDisconnected e)
  | replyError c m =>
    obtain ⟨-, -, rfl⟩ := deliverReply_some hr
    exact Mute.trans (t := s.setClient c {s.clients c with network := .failed}) (.of_eq rfl rfl rfl)
      (Apart.handleError c m).toMute
  | replyFinished c answer =>
    obtain ⟨-, -, rfl⟩ := deliverReply_some hr
    refine Mute.trans ?_ (Apart.handleFinished c answer).toMute
    split <;> exact .of_eq rfl rfl rfl
  | uploadProgress c sent total =>
    obtain ⟨-, -, rfl⟩ := deliverReply_some hr
    exact (Apart.handleUploadProgress c sent total).toMute
  | sslErrors c =>
    obtain ⟨-, -, rfl⟩ := deliverReply_some hr
    exact (Apart.handleSslErrors c).toMute
  | timeout c =>
    obtain ⟨-, -, rfl⟩ := deliverReply_some hr
    exact (Apart.cancelClient c).toMute
  | callUploadFiles | callQuit =>
    cases hr
    exact ⟨fun h => h.of_items rfl, rfl, fun e he => by simpa using he⟩
  | environment | file | coreLocations =>
    cases hr
    exact .of_eq rfl rfl rfl

end CrashReporter.Upload
