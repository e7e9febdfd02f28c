import CrashReporter.Upload.Offers
import CrashReporter.Upload.Verdict

/-! What only some steps do.

Only addFile() accepts a file, only queueDone() reports a batch, and an item is cancelled
by its session or through cancelAll() only. -/
namespace CrashReporter.Upload
open Reactor

variable {s : State}

/-! ### What a step adds to the log -/

/-- The log grows, and only a file that was not added before is accepted. -/
theorem log_grows {x y : Config} {act : Action} (hu : Uploads x.state) (hspent : ∀ k ∈ x.stack, k.Spent x.state)
    (hs : uploader.step x act = some y) : ∃ new, y.state.log = new ++ x.state.log ∧
      ∀ i obey, .accepted i obey ∈ new → act = .run ∧ i = x.state.nextItem ∧ ∃ path rest,
        x.stack = .addFile path obey :: rest ∧ path ∉ x.state.uploader.addedFiles := by
  obtain ⟨s, stack⟩ := x
  cases act with
  | run =>
    obtain ⟨k, rest, rfl, rfl⟩ := uploader.step_run hs
    obtain ⟨new, hlog, -, -, hacc⟩ := (offers_exec hu (hspent k (List.mem_cons_self ..))).log
    by_cases hk : ∃ path obey, k = .addFile path obey ∧ path ∈ s.uploader.addedFiles
    · obtain ⟨path, obey, rfl, hp⟩ := hk
      refine ⟨[], ?_, by simp⟩
      show (AutoUploader.addFile path obey s).1.log = _
      simp [AutoUploader.addFile, hp]
    · refine ⟨new, hlog, fun i obey hi => ?_⟩
      obtain ⟨hnext, -, htakes⟩ := hacc i obey hi
      cases k with
      | addFile path obey' =>
        obtain rfl : obey = obey' := htakes
        exact ⟨rfl, hnext, path, rest, rfl, fun hp => hk ⟨path, obey, rfl, hp⟩⟩
      | _ => exact htakes.elim
  | event ev =>
    obtain ⟨-, r, hr, rfl⟩ := uploader.step_event hs
    by_cases henv : ∃ env, ev = .environment env
    · obtain ⟨env, rfl⟩ := henv
      cases hr
      exact ⟨[], rfl, by simp⟩
    · rcases offers_deliver hu hr fun env he => henv ⟨env, he⟩ with ho | ⟨e, rest, -, -, rfl⟩
      · obtain ⟨new, hlog, -, -, hacc⟩ := ho.log
        exact ⟨new, hlog, fun i obey hi => (hacc i obey hi).2.2.elim⟩
      · exact ⟨[], rfl, by simp⟩

/-! ### Only queueDone() reports -/

def Call.reports : Call → Bool
  | .finished .. => true
  | _ => false

/-- These calls report no batch. -/
def Unreporting (calls : List Call) : Prop := ∀ k ∈ calls, k.reports = false

theorem Unreporting.nil : Unreporting [] := by simp [Unreporting]

theorem Unreporting.append {calls calls' : List Call} (h : Unreporting calls) (h' : Unreporting calls') :
    Unreporting (calls ++ calls') := fun k hk => (List.mem_append.mp hk).elim (h k) (h' k)

theorem Unreporting.map {ι : Type} {f : ι → Call} (h : ∀ j, (f j).reports = false) (l : List ι) :
    Unreporting (l.map f) := by
  intro k hk
  obtain ⟨j, -, rfl⟩ := List.mem_map.mp hk
  exact h j

namespace Unreporting

theorem uploadFinishedCalls (i : ItemId) : Unreporting (uploadFinishedCalls i s) := .map (fun _ => rfl) _

theorem clientFinished (c : ClientId) : Unreporting (HttpClient.finished c s).2 := by
  unfold HttpClient.finished
  dsimp only
  split
  · exact uploadFinishedCalls _
  · exact nil

theorem handleError (c : ClientId) (m : String) : Unreporting (HttpClient.handleError c m s).2 := by
  unfold HttpClient.handleError
  split
  · unfold HttpClient.uploadError
    dsimp only
    split
    · exact uploadFinishedCalls _
    · exact nil
  · exact nil

theorem handleFinished (c : ClientId) (answer : ServerReply) :
    Unreporting (HttpClient.handleFinished c answer s).2 := clientFinished c

theorem cancelClient (c : ClientId) : Unreporting (HttpClient.cancel c s).2 := by
  unfold HttpClient.cancel
  dsimp only
  split
  · exact (handleError c _).append (by simp [Unreporting, Call.reports])
  · exact handleFinished c _

theorem cancelItem (i : ItemId) : Unreporting (UploadItem.cancel i s).2 := by
  unfold UploadItem.cancel
  cases hh : ((UploadItem.setStatus i .cancelled s).items i).http with
  | none =>
    simp only [hh]
    split
    · exact nil.append (uploadFinishedCalls i)
    · exact nil
  | some c =>
    simp only [hh]
    split
    · exact (cancelClient c).append (uploadFinishedCalls i)
    · exact cancelClient c

theorem cancelCurrent (e : EngineId) : Unreporting (UploadEngine.cancelCurrent e s).2 := by
  unfold UploadEngine.cancelCurrent
  split
  · exact nil
  · split
    · exact cancelItem _
    · exact nil

theorem sessionDisconnected (e : EngineId) : Unreporting (UploadEngine.sessionDisconnected e s).2 := by
  unfold UploadEngine.sessionDisconnected
  dsimp only
  split
  · exact cancelCurrent e
  · exact cancelCurrent e
  · exact nil

theorem emitNextItem : Unreporting (UploadQueue.emitNextItem s).2 := by
  unfold UploadQueue.emitNextItem
  split
  · exact nil
  · exact .map (fun _ => rfl) _

theorem enqueueNew (file : Path) : Unreporting (UploadQueue.enqueueNew file s).2 := by
  unfold UploadQueue.enqueueNew UploadQueue.enqueue
  dsimp only
  split
  · exact emitNextItem.append (by simp [Unreporting, Call.reports])
  · simp [Unreporting, Call.reports]

theorem markDone (i : ItemId) : Unreporting (UploadItem.markDone i s).2 := by
  cases hq : s.queue.uploadQueue with
  | nil =>
    rw [UploadItem.markDone_last i hq]
    exact .map (fun _ => rfl) _
  | cons j rest =>
    rw [UploadItem.markDone_next i hq]
    exact .map (fun _ => rfl) _

theorem exec {k : Call} (hk : ∀ e, k ≠ .queueDone e) (hforeign : k.foreign = false)
    (hreported : ∀ e error sent total, k = .finished e error sent total → (s.engines e).reported = false) :
    Unreporting (exec k s).2 := by
  cases k with
  | uploadItem e i =>
    show Unreporting (UploadEngine.uploadItem e i s).2
    rw [UploadEngine.uploadItem_eq]
    split
    · exact nil
    · simp [Unreporting, Call.reports]
  | uploadFinished e i =>
    show Unreporting (UploadEngine.uploadFinished e i s).2
    exact markDone i
  | queueDone e => exact absurd rfl (hk e)
  | finished e error sent total =>
    have hnone : Upload.exec (.finished e error sent total) s = (s, []) := by
      simp [Upload.exec, hreported e error sent total rfl]
    rw [hnone]
    exact nil
  | sessionOpen | sessionGone | itemEnqueued => exact nil
  | aborted c => exact handleFinished c _
  | cancelled c => exact handleFinished c _
  | addFile | fileAdded | filesAdded | cancelAll | quitTail | exited => cases hforeign

theorem event {ev : Event} {r : State × List Call} (hr : deliver ev s = some r) (hd : ev ≠ .dispatch)
    (hq : ev.quits = false) : Unreporting r.2 := by
  cases ev with
  | enqueue file =>
    cases hr
    exact enqueueNew file
  | cancelAll e =>
    cases hr
    exact cancelCurrent e
  | dispatch => exact absurd rfl hd
  | quitTimer | exit => cases hq
  | session e signal =>
    simp only [deliver, Option.ite_none_right_eq_some, Option.some.injEq] at hr
    obtain ⟨-, rfl⟩ := hr
    cases signal with
    | opened => exact nil
    | error m isOpen => exact sessionDisconnected e
    | disconnected => exact (sessionDisconnected e).append (by simp [Unreporting, Call.reports])
  | replyError c m =>
    obtain ⟨-, -, rfl⟩ := deliverReply_some hr
    exact handleError c m
  | replyFinished c answer =>
    obtain ⟨-, -, rfl⟩ := deliverReply_some hr
    exact handleFinished c answer
  | uploadProgress | sslErrors =>
    obtain ⟨-, -, rfl⟩ := deliverReply_some hr
    exact nil
  | timeout c =>
    obtain ⟨-, -, rfl⟩ := deliverReply_some hr
    exact cancelClient c
  | callUploadFiles | callQuit | environment | file | coreLocations =>
    cases hr
    exact nil

end Unreporting

/-! ### Only cancel() of an item cancels it -/

/-- The end of the service leaves the items as they are. -/
theorem quitTail_items (s : State) : (AutoUploader.quitTail s).items = s.items := by
  unfold AutoUploader.quitTail
  cases s.uploader.engine with
  | none => rfl
  | some e => rfl

theorem quit_items (cause : Quitter) (s : State) : (AutoUploader.quit cause s).1.items = s.items := by
  unfold AutoUploader.quit
  dsimp only
  split
  · rfl
  · split
    · rfl
    · exact quitTail_items _

/-- No item is cancelled that was not before. -/
def Spares (s s' : State) : Prop := ∀ i, (s'.items i).status = .cancelled → (s.items i).status = .cancelled

namespace Spares

theorem refl (s : State) : Spares s s := fun _ => id

theorem trans {s t u : State} (h : Spares s t) (h' : Spares t u) : Spares s u := fun i hi => h i (h' i hi)

theorem of_items {s' : State} (h : s'.items = s.items) : Spares s s' := by
  intro i hi
  rwa [h] at hi

/-- After a change that is not of an item. -/
theorem after {t u : State} (h : Spares t u) (hi : t.items = s.items) : Spares s u := (of_items hi).trans h

theorem setItem {i : ItemId} {v : Item} (hv : v.status = .cancelled → (s.items i).status = .cancelled) :
    Spares s (s.setItem i v) := by
  intro j hj
  rcases eq_or_ne j i with rfl | hne
  · rw [State.setItem_items, Function.update_self] at hj
    exact hv hj
  · rwa [State.setItem_items, Function.update_of_ne hne] at hj

theorem setStatus {i : ItemId} {status : ItemStatus} (h : status ≠ .cancelled) :
    Spares s (UploadItem.setStatus i status s) := setItem fun hc => absurd hc h

theorem itemError (i : ItemId) (m : String) : Spares s (UploadItem.uploadError i m s).1 := by
  have hdisconnect : Spares s (UploadItem.disconnectHttp i s) := by
    unfold UploadItem.disconnectHttp
    split
    · exact refl s
    · exact of_items rfl
  have hmessage (t : State) : Spares t (t.setItem i {t.items i with errorString := some m}) := setItem id
  unfold UploadItem.uploadError
  dsimp only
  split
  · exact (hdisconnect.trans (hmessage _)).trans (setStatus (by simp))
  · exact hdisconnect.trans (hmessage _)

theorem clientFinished (c : ClientId) : Spares s (HttpClient.finished c s).1 := by
  unfold HttpClient.finished
  dsimp only
  split
  · exact Spares.after (t := s.emit (.clientFinished c)) (setStatus (by simp)) rfl
  · exact of_items rfl

theorem handleError (c : ClientId) (m : String) : Spares s (HttpClient.handleError c m s).1 := by
  unfold HttpClient.handleError HttpClient.uploadError
  dsimp only
  split
  · split
    · exact (itemError _ m).after rfl
    · exact of_items rfl
  · exact refl s

theorem handleFinished (c : ClientId) (answer : ServerReply) :
    Spares s (HttpClient.handleFinished c answer s).1 := by
  have hparse (t : State) : (HttpClient.parseReply c answer t).items = t.items := by
    unfold HttpClient.parseReply
    repeat' split
    all_goals rfl
  have hremove (path : Path) (t : State) : (HttpClient.removeFile path t).items = t.items := by
    unfold HttpClient.removeFile
    split <;> rfl
  have hend {t : State} (h : t.items = s.items) (v : Client) :
      Spares s (HttpClient.finished c (t.setClient c v)).1 := (clientFinished c).after h
  have hread (v : Client) : (HttpClient.parseReply c answer (s.setClient c v)).items = s.items := hparse _
  unfold HttpClient.handleFinished
  dsimp only
  split
  · split
    · exact hend ((hremove _ _).trans (hread _)) _
    · exact hend (hread _) _
  · apply hend
    rfl

theorem cancelClient (c : ClientId) : Spares s (HttpClient.cancel c s).1 := by
  unfold HttpClient.cancel
  dsimp only
  split
  · exact (handleError c _).after rfl
  · exact (handleFinished c _).after rfl

theorem startUpload (i : ItemId) : Spares s (UploadItem.startUpload i s).1 :=
  fun _ => UploadItem.startUpload_cancelled

theorem uploadItem (e : EngineId) (i : ItemId) : Spares s (UploadEngine.uploadItem e i s).1 := by
  have htake : Spares s (UploadEngine.take e i s) := by
    intro j hj
    rw [UploadEngine.take_eq] at hj
    rcases eq_or_ne j i with rfl | hne
    · simpa using hj
    · simpa [hne] using hj
  rw [UploadEngine.uploadItem_eq]
  split
  · exact htake.trans ((startUpload i).after rfl)
  · exact htake.trans (.of_items rfl)

theorem uploadFinished (e : EngineId) (i : ItemId) : Spares s (UploadEngine.uploadFinished e i s).1 := by
  have hset : (UploadEngine.setErrorString e (s.items i).errorString
      (UploadEngine.setErrorType e .protocolError s)).items = s.items :=
    ((Alike.setErrorType (e := e) _).trans (.setErrorString _)).items
  have hclear {t : State} (h : t.items = s.items) : Spares s (UploadQueue.clear t) :=
    (of_items h).trans Between.clear.cancels
  unfold UploadEngine.uploadFinished
  dsimp only
  refine Spares.trans ?_ (Between.markDone i).cancels
  split
  · exact of_items hset
  · split
    · split
      · exact hclear hset
      · exact hclear hset
    · exact of_items rfl

theorem enqueueNew (file : Path) : Spares s (UploadQueue.enqueueNew file s).1 := by
  have hemit {t : State} (h : t.items = (UploadQueue.newItem file s).items) :
      (UploadQueue.emitNextItem t).1.items = (UploadQueue.newItem file s).items := by
    unfold UploadQueue.emitNextItem
    split <;> exact h
  have hnew : (UploadQueue.enqueueNew file s).1.items = (UploadQueue.newItem file s).items := by
    unfold UploadQueue.enqueueNew UploadQueue.enqueue
    dsimp only
    split
    · exact hemit rfl
    · rfl
  intro j hj
  rw [hnew] at hj
  rcases eq_or_ne j s.nextItem with rfl | hne
  · simp [UploadQueue.newItem] at hj
  · simpa [UploadQueue.newItem, hne] using hj

theorem sessionOpened (e : EngineId) : Spares s (UploadEngine.sessionOpened e s) := by
  unfold UploadEngine.sessionOpened
  split
  · split
    · exact refl s
    · dsimp only
      split
      · exact (startUpload _).after rfl
      · exact of_items rfl
  · exact refl s

theorem exec {k : Call} (hk : ∀ e, k ≠ .cancelAll e)
    (hreported : ∀ e error sent total, k = .finished e error sent total → (s.engines e).reported = false) :
    Spares s (exec k s).1 := by
  cases k with
  | uploadItem e i => exact uploadItem e i
  | uploadFinished e i => exact uploadFinished e i
  | queueDone e =>
    show Spares s (UploadEngine.queueDone e s).1
    unfold UploadEngine.queueDone NwSessionMgr.close
    dsimp only
    repeat' split
    all_goals exact of_items rfl
  | finished e error sent total =>
    have hnone : Upload.exec (.finished e error sent total) s = (s, []) := by
      simp [Upload.exec, hreported e error sent total rfl]
    rw [hnone]
    exact refl s
  | sessionOpen | exited => exact refl s
  | sessionGone | itemEnqueued | fileAdded => exact of_items rfl
  | aborted c => exact (handleFinished c _).after rfl
  | cancelled c => exact (handleFinished c _).after rfl
  | addFile path obey =>
    show Spares s (AutoUploader.addFile path obey s).1
    unfold AutoUploader.addFile
    split
    · exact (enqueueNew path).after rfl
    · exact refl s
  | filesAdded files =>
    show Spares s (AutoUploader.filesAdded files s)
    unfold AutoUploader.filesAdded
    dsimp only
    split <;> exact of_items rfl
  | cancelAll e => exact absurd rfl (hk e)
  | quitTail => exact of_items (quitTail_items s)

/-- Requests and quit() cancel nothing at once. -/
theorem dispatch {r : State × List Call} (hr : deliver .dispatch s = some r) : Spares s r.1 := by
  have hactivate (t : State) : (AutoUploader.activate t).items = t.items := by
    unfold AutoUploader.activate
    split <;> rfl
  simp only [deliver, Upload.dispatch] at hr
  split at hr
  · cases hr
  · rename_i m rest hposted
    cases m with
    | uploadFiles fileList obey =>
      cases hr
      unfold AutoUploader.uploadFiles
      dsimp only
      split
      · exact of_items rfl
      · split
        · apply of_items
          exact hactivate _
        · apply of_items
          exact hactivate _
    | quit =>
      cases hr
      apply of_items
      exact quit_items _ _
    | deleteItem i =>
      cases hr
      exact Spares.after (t := {s with posted := rest}) (setItem id) rfl
    | deleteEngine e =>
      cases hr
      exact fun _ => id

/-- A session that opens, and everything around the engine. -/
theorem event {ev : Event} {r : State × List Call} (hr : deliver ev s = some r) (hq : ev.quits = false)
    (hcancel : ∀ e, ev ≠ .cancelAll e) (hlost : ∀ e signal, ev = .session e signal → signal = .opened) :
    Spares s r.1 := by
  cases ev with
  | enqueue file =>
    cases hr
    exact enqueueNew file
  | cancelAll e => exact absurd rfl (hcancel e)
  | dispatch => exact dispatch hr
  | quitTimer | exit => cases hq
  | session e signal =>
    obtain rfl := hlost e signal rfl
    simp only [deliver, Option.ite_none_right_eq_some, Option.some.injEq] at hr
    obtain ⟨-, rfl⟩ := hr
    exact (sessionOpened e).after rfl
  | replyError c m =>
    obtain ⟨-, -, rfl⟩ := deliverReply_some hr
    exact (handleError c m).after rfl
  | replyFinished c answer =>
    obtain ⟨-, -, rfl⟩ := deliverReply_some hr
    refine (handleFinished c answer).after ?_
    split <;> rfl
  | uploadProgress c sent total =>
    obtain ⟨-, -, rfl⟩ := deliverReply_some hr
    unfold HttpClient.handleUploadProgress
    dsimp only
    repeat' split
    all_goals exact of_items rfl
  | sslErrors c =>
    obtain ⟨-, -, rfl⟩ := deliverReply_some hr
    unfold HttpClient.handleSslErrors
    split <;> exact of_items rfl
  | timeout c =>
    obtain ⟨-, -, rfl⟩ := deliverReply_some hr
    exact cancelClient c
  | callUploadFiles | callQuit | environment | file | coreLocations =>
    cases hr
    exact of_items rfl

end Spares

end CrashReporter.Upload
