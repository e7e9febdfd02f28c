import CrashReporter.Upload.InFlight

/-! The end of the uploader.

`quit` cancels the uploads of an active engine and then goes on with its engine
pointer. It can do so safely when `cancelAll` comes back without the end of the
batch: then engineFinished() is not called in between, which would quit and clear
the pointer itself. -/
namespace CrashReporter.Upload
open Reactor

variable {s : State}

/-! ### What leaves the engine pointer alone -/

/-- Outputs that have nothing to do with `quit`. -/
def Output.calm : Output → Bool
  | .quit _ | .deleteLater _ => false
  | .fault f => f ≠ .nullEngine
  | _ => true

/-- The uploader keeps its engine, and every engine its listener. -/
structure Calm (s s' : State) : Prop where
  engine : s'.uploader.engine = s.uploader.engine
  activated : s'.uploader.activated = s.uploader.activated
  quitting : s'.quitting = s.quitting
  nextEngine : s'.nextEngine = s.nextEngine
  reported : ∀ e, (s'.engines e).reported = (s.engines e).reported
  log : ∃ new, s'.log = new ++ s.log ∧ ∀ o ∈ new, o.calm = true

namespace Calm

theorem refl (s : State) : Calm s s := ⟨rfl, rfl, rfl, rfl, fun _ => rfl, [], rfl, by simp⟩

theorem trans {s t u : State} (h : Calm s t) (h' : Calm t u) : Calm s u where
  engine := h'.engine.trans h.engine
  activated := h'.activated.trans h.activated
  quitting := h'.quitting.trans h.quitting
  nextEngine := h'.nextEngine.trans h.nextEngine
  reported e := (h'.reported e).trans (h.reported e)
  log := by
    obtain ⟨new, hl, hc⟩ := h.log
    obtain ⟨new', hl', hc'⟩ := h'.log
    refine ⟨new' ++ new, by rw [hl', hl, List.append_assoc], fun o ho => ?_⟩
    exact (List.mem_append.mp ho).elim (hc' o) (hc o)

theorem of_frame {s s' : State} (h : Frame s s') : Calm s s' where
  engine := by rw [h.uploader]
  activated := by rw [h.uploader]
  quitting := h.quitting
  nextEngine := h.nextEngine
  reported := h.reported
  log := by
    obtain ⟨new, hl, hm⟩ := h.log
    refine ⟨new, hl, fun o ho => ?_⟩
    have hmo := hm o ho
    cases o <;> simp_all [Output.minor, Output.calm]

theorem emit {o : Output} (h : o.calm = true) : Calm s (s.emit o) :=
  ⟨rfl, rfl, rfl, rfl, fun _ => rfl, [o], rfl, by simpa using h⟩

theorem setEngine {e : EngineId} {v : Engine} (h : v.reported = (s.engines e).reported) :
    Calm s (s.setEngine e v) := by
  refine ⟨rfl, rfl, rfl, rfl, fun e' => ?_, [], rfl, by simp⟩
  rcases eq_or_ne e' e with rfl | he
  · simpa using h
  · simp [he]

theorem emitNextItem : Calm s (UploadQueue.emitNextItem s).1 := by
  unfold UploadQueue.emitNextItem
  split
  · exact emit rfl
  · exact ⟨rfl, rfl, rfl, rfl, fun _ => rfl, [.nextItem _], rfl, by simp [Output.calm]⟩

theorem enqueueNew (path : Path) : Calm s (UploadQueue.enqueueNew path s).1 := by
  have hin (v : Queue) :
      Calm s (((UploadQueue.newItem path s).setQueue v).emit (.enqueued s.nextItem)) :=
    ⟨rfl, rfl, rfl, rfl, fun _ => rfl, [.enqueued s.nextItem], rfl, by simp [Output.calm]⟩
  unfold UploadQueue.enqueueNew UploadQueue.enqueue
  dsimp only
  split
  · exact (hin _).trans emitNextItem
  · exact hin _

theorem startUpload (i : ItemId) : Calm s (UploadItem.startUpload i s).1 := by
  cases hb : HttpClient.createPutRequest (s.items i).filepath s with
  | none =>
    rw [UploadItem.startUpload_failed i hb]
    exact ⟨rfl, rfl, rfl, rfl, fun _ => rfl, [.startUpload i], rfl, by simp [Output.calm]⟩
  | some body =>
    rw [UploadItem.startUpload_sent i hb]
    exact ⟨rfl, rfl, rfl, rfl, fun _ => rfl, [_, .startUpload i], rfl, by simp [Output.calm]⟩

theorem uploadItem (e : EngineId) (i : ItemId) : Calm s (UploadEngine.uploadItem e i s).1 := by
  have htake : Calm s (UploadEngine.take e i s) := by
    rw [UploadEngine.take_eq]
    refine ⟨rfl, rfl, rfl, rfl, fun e' => ?_, [], rfl, by simp⟩
    rcases eq_or_ne e' e with rfl | he
    · simp
    · simp [he]
  have hengine (v : Engine) (hv : v.reported = ((UploadEngine.take e i s).engines e).reported) :
      Calm s ((UploadEngine.take e i s).setEngine e v) := htake.trans (setEngine hv)
  rw [UploadEngine.uploadItem_eq]
  split
  · refine (hengine _ ?_).trans (startUpload i)
    rfl
  · refine hengine _ ?_
    rfl

theorem sessionOpened (e : EngineId) : Calm s (UploadEngine.sessionOpened e s) := by
  have hconnect : Calm s (UploadEngine.stateChange e .connected s) := by
    refine setEngine ?_
    rfl
  unfold UploadEngine.sessionOpened
  split
  · split
    · exact refl s
    · dsimp only
      split
      · exact hconnect.trans (startUpload _)
      · exact hconnect.trans (emit rfl)
  · exact refl s

theorem addFile (path : Path) (obey : Bool) : Calm s (AutoUploader.addFile path obey s).1 := by
  unfold AutoUploader.addFile
  split
  · exact (emit rfl).trans (enqueueNew path)
  · exact refl s

theorem removeFile (path : Path) : Calm s (HttpClient.removeFile path s) := by
  unfold HttpClient.removeFile
  split
  · exact refl s
  · exact ⟨rfl, rfl, rfl, rfl, fun _ => rfl, [.removed path], rfl, by simp [Output.calm]⟩

end Calm

/-- The step is calm, and no call of `quit` begins. -/
structure Undisturbing (s : State) (r : State × List Call) : Prop where
  calm : Calm s r.1
  calls : .quitTail ∉ r.2

theorem Undisturbing.of_minor {r : State × List Call} (h : Minor s r) : Undisturbing s r :=
  ⟨.of_frame h.frame, fun hk => h.tame _ hk⟩

theorem Undisturbing.of_calm {t : State} (h : Calm s t) : Undisturbing s (t, []) := ⟨h, by simp⟩

theorem Undisturbing.after {t : State} {r : State × List Call} (h : Calm s t)
    (h' : Undisturbing t r) : Undisturbing s r := ⟨h.trans h'.calm, h'.calls⟩

theorem quitTail_not_mem_emitNextItem : .quitTail ∉ (UploadQueue.emitNextItem s).2 := by
  unfold UploadQueue.emitNextItem
  split <;> simp

theorem quitTail_not_mem_enqueueNew (path : Path) :
    .quitTail ∉ (UploadQueue.enqueueNew path s).2 := by
  unfold UploadQueue.enqueueNew UploadQueue.enqueue
  dsimp only
  split
  · simpa using quitTail_not_mem_emitNextItem
  · simp

theorem quitTail_not_mem_uploadItem (e : EngineId) (i : ItemId) :
    .quitTail ∉ (UploadEngine.uploadItem e i s).2 := by
  rw [UploadEngine.uploadItem_eq]
  split <;> simp

/-- Every call but the end of a batch and the rest of `quit`. -/
theorem undisturbing_exec {k : Call} (hu : Uploads s) (hk : k.Spent s) (htail : k ≠ .quitTail)
    (hfinished : ∀ e error sent total, k = .finished e error sent total →
      (s.engines e).reported = false) : Undisturbing s (exec k s) := by
  have htame (ht : k.Tame s) : Undisturbing s (exec k s) := by
    rcases exec_tame ht hu.owned with hm | ⟨t, hf, heq⟩ | ⟨e, error, sent, total, rfl, heq⟩
    · exact .of_minor hm
    · rw [heq]
      exact ⟨(Calm.of_frame hf).trans .emitNextItem, quitTail_not_mem_emitNextItem⟩
    · have hn := hfinished e error sent total rfl
      simp only [exec, hn]
      exact .of_calm (.refl s)
  cases k with
  | uploadItem e i => exact ⟨.uploadItem e i, quitTail_not_mem_uploadItem e i⟩
  | addFile path obey =>
    refine ⟨.addFile path obey, ?_⟩
    dsimp only [exec, AutoUploader.addFile]
    split
    · simpa using quitTail_not_mem_enqueueNew path
    · simp
  | fileAdded path => exact .of_calm ⟨rfl, rfl, rfl, rfl, fun _ => rfl, [], rfl, by simp⟩
  | quitTail => exact absurd rfl htail
  | uploadFinished | queueDone | finished | sessionOpen | sessionGone | aborted | cancelled
  | itemEnqueued | filesAdded | cancelAll | exited => exact htame hk

/-- Every event but a dispatch and those that quit. -/
theorem undisturbing_deliver {ev : Event} {r : State × List Call} (hu : Uploads s)
    (hr : deliver ev s = some r) (hd : ev ≠ .dispatch) (hq : ev.quits = false) : Undisturbing s r := by
  have hplain (hp : ev.plain s = true) : Undisturbing s r :=
    .of_minor (deliver_plain hp hu.owned hu.running hr)
  cases ev with
  | enqueue file =>
    cases hr
    exact ⟨.enqueueNew file, quitTail_not_mem_enqueueNew file⟩
  | dispatch => exact absurd rfl hd
  | quitTimer | exit => cases hq
  | session e signal =>
    cases signal with
    | opened =>
      simp only [deliver, Option.ite_none_right_eq_some, Option.some.injEq] at hr
      obtain ⟨-, rfl⟩ := hr
      exact .of_calm ((Calm.of_frame (NwSessionMgr.frame_setSession e _)).trans (.sessionOpened e))
    | error | disconnected => exact hplain (by simp [Event.plain])
  | replyFinished c answer =>
    obtain ⟨t, hf, rfl | ⟨-, rfl⟩⟩ := replyFinished_cases hr
    · exact .after (.of_frame hf) (.of_minor (HttpClient.minor_finished c))
    · exact .after ((Calm.of_frame hf).trans (.removeFile _))
        (.of_minor (HttpClient.minor_finished c))
  | environment | file | coreLocations =>
    cases hr
    exact .of_calm ⟨rfl, rfl, rfl, rfl, fun _ => rfl, [], rfl, by simp⟩
  | cancelAll | callUploadFiles | callQuit | replyError | uploadProgress | sslErrors | timeout =>
    exact hplain rfl

/-! ### A cancel that lets the batch go on -/

/-- Cancelling the current item of the engine aborts no upload and reports no end
of a batch: there is no item, it has no upload any more, or its upload never
started and enough items are queued to go on with. -/
def CancelsQuietly (s : State) (e : EngineId) : Prop :=
  ∀ i, (s.engines e).currentItem = some i → (s.items i).alive = true →
    (s.items i).status ≠ .waiting ∧ ∀ c, (s.items i).http = some c → (s.clients c).reply = false ∧
      ((s.clients c).connected = true → i ∉ s.queue.uploadQueue ∧
        (s.items i).listeners.length ≤ s.queue.uploadQueue.length)

def Call.ends : Call → Bool
  | .uploadFinished .. => true
  | _ => false

/-- The calls that a quiet cancel leaves behind: uploads that finished without an
error, for each of which another item is queued, and what handing out those starts. -/
structure GoesOn (s : State) (above : List Call) : Prop where
  calls : ∀ k ∈ above, k.ends = true ∨ (∃ e i, k = .uploadItem e i) ∨ ∃ e, k = .sessionOpen e
  status : ∀ e i, .uploadFinished e i ∈ above → (s.items i).status = .finished
  queued : ∀ e i, .uploadFinished e i ∈ above → i ∉ s.queue.uploadQueue
  other : ∀ e i e' j, .uploadFinished e i ∈ above → .uploadItem e' j ∈ above → j ≠ i
  opening : ∀ e i e', .uploadFinished e i ∈ above → .sessionOpen e' ∈ above →
    (s.engines e').currentItem ≠ some i
  room : above.countP Call.ends ≤ s.queue.uploadQueue.length

namespace GoesOn

theorem tail {k : Call} {rest : List Call} (h : GoesOn s (k :: rest)) : GoesOn s rest where
  calls k' hk := h.calls k' (List.mem_cons_of_mem _ hk)
  status e i hk := h.status e i (List.mem_cons_of_mem _ hk)
  queued e i hk := h.queued e i (List.mem_cons_of_mem _ hk)
  other e i e' j hk hk' := h.other e i e' j (List.mem_cons_of_mem _ hk) (List.mem_cons_of_mem _ hk')
  opening e i e' hk hk' := h.opening e i e' (List.mem_cons_of_mem _ hk) (List.mem_cons_of_mem _ hk')
  room := Nat.le_trans (List.sublist_cons_self k rest).countP_le h.room

/-- Steps that touch none of the finished items, the queue or the engines at work. -/
theorem of_same {s' : State} {above : List Call} (h : GoesOn s above)
    (hs : ∀ e i, .uploadFinished e i ∈ above → (s'.items i).status = (s.items i).status)
    (hq : s'.queue.uploadQueue = s.queue.uploadQueue)
    (he : ∀ e, .sessionOpen e ∈ above →
      (s'.engines e).currentItem = (s.engines e).currentItem) : GoesOn s' above where
  calls := h.calls
  status e i hk := (hs e i hk).trans (h.status e i hk)
  queued := by rw [hq]; exact h.queued
  other := h.other
  opening e i e' hk hk' := by rw [he e' hk']; exact h.opening e i e' hk hk'
  room := by rw [hq]; exact h.room

end GoesOn

/-- The end of an item that finished without an error, with another one queued. -/
theorem UploadEngine.uploadFinished_next (e : EngineId) {i j : ItemId} {tail : List ItemId}
    (hs : (s.items i).status = .finished) (hq : s.queue.uploadQueue = j :: tail) :
    uploadFinished e i s = ({s with
      engines := Function.update s.engines e
        {s.engines e with sentFiles := (s.engines e).sentFiles + 1}
      posted := s.posted ++ [.deleteItem i]
      queue := {s.queue with uploadQueue := tail}
      log := .nextItem j :: .itemDone i :: s.log}, s.queue.engines.map (Call.uploadItem · j)) := by
  simp [uploadFinished, hs, UploadItem.markDone, UploadQueue.itemFinished, UploadQueue.emitNextItem, hq,
    State.emit, State.post, State.setQueue, State.setEngine]

theorem goesOn_uploadFinished {e : EngineId} {i : ItemId} {rest : List Call}
    (h : GoesOn s (.uploadFinished e i :: rest)) :
    GoesOn (UploadEngine.uploadFinished e i s).1 ((UploadEngine.uploadFinished e i s).2 ++ rest) := by
  have hroom : rest.countP Call.ends < s.queue.uploadQueue.length := by
    have := h.room
    rw [List.countP_cons_of_pos rfl] at this
    omega
  obtain ⟨j, tail, hq⟩ := List.exists_cons_of_length_pos (Nat.lt_of_le_of_lt (Nat.zero_le _) hroom)
  rw [UploadEngine.uploadFinished_next e (h.status e i (List.mem_cons_self ..)) hq]
  have hnew (k : Call) (hk : k ∈ s.queue.engines.map (Call.uploadItem · j)) : ∃ e', k = .uploadItem e' j := by
    obtain ⟨e', -, rfl⟩ := List.mem_map.mp hk
    exact ⟨e', rfl⟩
  have hends (e' : EngineId) (i' : ItemId)
      (hk : .uploadFinished e' i' ∈ s.queue.engines.map (Call.uploadItem · j) ++ rest) :
      .uploadFinished e' i' ∈ rest := by
    rcases List.mem_append.mp hk with hk | hk
    · obtain ⟨_, he⟩ := hnew _ hk
      cases he
    · exact hk
  refine ⟨fun k hk => ?_, fun e' i' hk => ?_, fun e' i' hk => ?_, fun e' i' e'' j' hk hk' => ?_,
    fun e' i' e'' hk hk' => ?_, ?_⟩
  · rcases List.mem_append.mp hk with hk | hk
    · obtain ⟨e', rfl⟩ := hnew k hk
      exact .inr (.inl ⟨e', j, rfl⟩)
    · exact h.tail.calls k hk
  · exact h.tail.status e' i' (hends e' i' hk)
  · have hi := h.tail.queued e' i' (hends e' i' hk)
    rw [hq] at hi
    exact fun hmem => hi (List.mem_cons_of_mem _ hmem)
  · have hi := h.tail.queued e' i' (hends e' i' hk)
    rcases List.mem_append.mp hk' with hk' | hk'
    · obtain ⟨_, he⟩ := hnew _ hk'
      cases he
      rintro rfl
      exact hi (hq ▸ List.mem_cons_self ..)
    · exact h.tail.other e' i' e'' j' (hends e' i' hk) hk'
  · have hopen : .sessionOpen e'' ∈ rest := by
      rcases List.mem_append.mp hk' with hk' | hk'
      · obtain ⟨_, he⟩ := hnew _ hk'
        cases he
      · exact hk'
    have ho := h.tail.opening e' i' e'' (hends e' i' hk) hopen
    rcases eq_or_ne e'' e with rfl | hne
    · simpa using ho
    · simpa [hne] using ho
  · have hzero : (s.queue.engines.map (Call.uploadItem · j)).countP Call.ends = 0 := by
      rw [List.countP_eq_zero]
      intro k hk
      obtain ⟨e', rfl⟩ := hnew k hk
      simp [Call.ends]
    rw [List.countP_append, hzero]
    rw [hq, List.length_cons] at hroom
    dsimp only
    omega

theorem UploadItem.startUpload_status {i j : ItemId} (h : j ≠ i) :
    ((startUpload i s).1.items j).status = (s.items j).status := by
  cases hb : HttpClient.createPutRequest (s.items i).filepath s with
  | none => simp [startUpload_failed i hb, h]
  | some body => simp [startUpload_sent i hb, h]

theorem UploadItem.startUpload_rest (i : ItemId) : (startUpload i s).1.queue = s.queue ∧
    (startUpload i s).1.engines = s.engines := by
  cases hb : HttpClient.createPutRequest (s.items i).filepath s with
  | none => simp [startUpload_failed i hb]
  | some body => simp [startUpload_sent i hb]

theorem goesOn_startUpload {i : ItemId} {above : List Call} (h : GoesOn s above)
    (hi : ∀ e, .uploadFinished e i ∉ above) : GoesOn (UploadItem.startUpload i s).1 above := by
  obtain ⟨hq, he⟩ := UploadItem.startUpload_rest (s := s) i
  refine h.of_same (fun e j hk => UploadItem.startUpload_status ?_) (by rw [hq]) (fun e _ => by rw [he])
  rintro rfl
  exact hi e hk

theorem goesOn_uploadItem {e : EngineId} {i : ItemId} {rest : List Call}
    (h : GoesOn s (.uploadItem e i :: rest)) :
    GoesOn (UploadEngine.uploadItem e i s).1 ((UploadEngine.uploadItem e i s).2 ++ rest) := by
  have hi (e' : EngineId) : .uploadFinished e' i ∉ rest := fun hk =>
    h.other e' i e i (List.mem_cons_of_mem _ hk) (List.mem_cons_self ..) rfl
  have htake (v : Engine) (hv : v.currentItem = some i) :
      GoesOn ((UploadEngine.take e i s).setEngine e v) rest := by
    rw [UploadEngine.take_eq]
    refine ⟨h.tail.calls, fun e' j hk => ?_, h.tail.queued, h.tail.other, fun e' j e'' hk hk' => ?_,
      h.tail.room⟩
    · have hj : j ≠ i := by
        rintro rfl
        exact hi e' hk
      simpa [hj] using h.tail.status e' j hk
    · rcases eq_or_ne e'' e with rfl | hne
      · rw [State.setEngine_engines, Function.update_self, hv]
        rintro ⟨⟩
        exact hi e' hk
      · simpa [hne] using h.tail.opening e' j e'' hk hk'
  rw [UploadEngine.uploadItem_eq]
  split
  · refine goesOn_startUpload (htake _ ?_) hi
    simp [UploadEngine.take_eq]
  · have ht : GoesOn (NwSessionMgr.setSession e (some ⟨false, true⟩) (UploadEngine.take e i s)) rest := by
      refine htake _ ?_
      simp [UploadEngine.take_eq]
    refine ⟨fun k hk => ?_, fun e' j hk => ?_, fun e' j hk => ?_, fun e' j e'' j' hk hk' => ?_,
      fun e' j e'' hk hk' => ?_, ?_⟩
    · rcases List.mem_cons.mp hk with rfl | hk
      · exact .inr (.inr ⟨e, rfl⟩)
      · exact ht.calls k hk
    · exact ht.status e' j (by simpa using hk)
    · exact ht.queued e' j (by simpa using hk)
    · exact ht.other e' j e'' j' (by simpa using hk) (by simpa using hk')
    · have hk : .uploadFinished e' j ∈ rest := by simpa using hk
      rcases List.mem_cons.mp hk' with he | hk'
      · cases he
        have hj : i ≠ j := by
          rintro rfl
          exact hi e' hk
        simpa [NwSessionMgr.setSession, UploadEngine.take_eq] using hj
      · exact ht.opening e' j e'' hk hk'
    · simpa [Call.ends] using ht.room

theorem goesOn_sessionOpened {e : EngineId} {rest : List Call}
    (h : GoesOn s (.sessionOpen e :: rest)) :
    GoesOn (UploadEngine.sessionOpened e s) (.sessionOpen e :: rest) := by
  have hconnect : GoesOn (UploadEngine.stateChange e .connected s) (.sessionOpen e :: rest) := by
    refine h.of_same (fun _ _ _ => rfl) rfl fun e' _ => ?_
    rcases eq_or_ne e' e with rfl | hne
    · simp [UploadEngine.stateChange]
    · simp [UploadEngine.stateChange, hne]
  unfold UploadEngine.sessionOpened
  split
  · split
    · exact h
    · rename_i i hi
      dsimp only
      split
      · refine goesOn_startUpload hconnect fun e' hk => ?_
        exact h.opening e' i e hk (List.mem_cons_self ..) hi
      · exact hconnect.of_same (fun _ _ _ => rfl) rfl fun _ _ => rfl
  · exact h

theorem GoesOn.nil (s : State) : GoesOn s [] := by constructor <;> simp

/-- The end of an upload that never started. -/
theorem goesOn_finished {c : ClientId} (h : (s.clients c).connected = true →
    (s.clients c).item ∉ s.queue.uploadQueue ∧
      (s.items (s.clients c).item).listeners.length ≤ s.queue.uploadQueue.length) :
    GoesOn (HttpClient.finished c s).1 (HttpClient.finished c s).2 := by
  unfold HttpClient.finished
  simp only [State.emit_clients]
  split
  · rename_i hc
    obtain ⟨hi, hlen⟩ := h hc
    generalize (s.clients c).item = i at hi hlen ⊢
    have hcalls : (UploadItem.emitUploadFinished i (s.emit (.clientFinished c))).2 =
        (s.items i).listeners.map (Call.uploadFinished · i) := by
      simp [UploadItem.emitUploadFinished, uploadFinishedCalls, UploadItem.setStatus]
    have hmem (k : Call) (hk : k ∈ (s.items i).listeners.map (Call.uploadFinished · i)) :
        ∃ e, k = .uploadFinished e i := by
      obtain ⟨e, -, rfl⟩ := List.mem_map.mp hk
      exact ⟨e, rfl⟩
    rw [hcalls]
    refine ⟨fun k hk => ?_, fun e j hk => ?_, fun e j hk => ?_, fun e j e' j' _ hk' => ?_,
      fun e j e' _ hk' => ?_, ?_⟩
    · obtain ⟨e, rfl⟩ := hmem k hk
      exact .inl rfl
    · obtain ⟨_, he⟩ := hmem _ hk
      cases he
      simp [UploadItem.emitUploadFinished, UploadItem.setStatus]
    · obtain ⟨_, he⟩ := hmem _ hk
      cases he
      exact hi
    · obtain ⟨_, he⟩ := hmem _ hk'
      cases he
    · obtain ⟨_, he⟩ := hmem _ hk'
      cases he
    · refine Nat.le_trans List.countP_le_length ?_
      rw [List.length_map]
      exact hlen
  · exact .nil _

theorem goesOn_cancelAll {e : EngineId} (hu : Uploads s) (h : CancelsQuietly s e) :
    GoesOn (UploadEngine.cancelAll e s).1 (UploadEngine.cancelAll e s).2 := by
  unfold UploadEngine.cancelAll UploadEngine.cancelCurrent
  split
  · exact .nil s
  · rename_i i hi
    split
    · rename_i halive
      obtain ⟨hstatus, hclient⟩ := h i hi halive
      unfold UploadItem.cancel
      dsimp only
      rw [if_neg hstatus]
      split
      · exact .nil _
      · rename_i c hc
        have hc : (s.items i).http = some c := by simpa [UploadItem.setStatus] using hc
        obtain ⟨hreply, hquiet⟩ := hclient c hc
        have hitem := (hu.owned i c hc).2
        have hgone : ((UploadItem.setStatus i .cancelled s).clients c).reply = false := hreply
        rw [HttpClient.cancel_idle c hgone, HttpClient.handleFinished_idle c _ (by simpa using hgone)]
        refine goesOn_finished fun hcon => ?_
        have hcon : (s.clients c).connected = true := by simpa [UploadItem.setStatus] using hcon
        simpa [UploadItem.setStatus, hitem] using hquiet hcon
    · exact .nil _

/-! ### Every run -/

/-- The step calls `quit`, as a client, as the timer of a refused request or in the destructor. -/
def CallsQuit (x : Config) (a : Action) : Prop :=
  (∃ ev, ev.quits = true ∧ a = .event ev) ∨ a = .event .dispatch ∧ ∃ rest, x.state.posted = .quit :: rest

/-- `quit` cancels only what it can cancel quietly, whether a client, a timer or the
destructor calls it, and no session is lost while it runs. -/
def QuietTeardown : Guard State Call Event := fun x a =>
  (∀ e, CallsQuit x a → x.state.uploader.engine = some e → x.state.uploader.activated = true →
    CancelsQuietly x.state e) ∧
  (.quitTail ∈ x.stack → ∀ e signal, a = .event (.session e signal) → signal = .opened)

def Output.isQuit : Output → Bool
  | .quit _ => true
  | _ => false

/-- The calls of `quit` that have returned. -/
def quitsReturned (x : Config) : Nat := x.state.log.countP Output.isQuit - x.stack.count .quitTail

/-- How far `quit` has come. -/
inductive Quitting (s : State) : List Call → Prop where
  | none {stack : List Call} :
    .quitTail ∉ stack → (s.uploader.activated = true ↔ s.uploader.engine.isSome = true) →
      Quitting s stack
  | cancels {e : EngineId} {below : List Call} :
    s.uploader.engine = some e → s.uploader.activated = false → CancelsQuietly s e →
      .quitTail ∉ below → Quitting s (.cancelAll e :: .quitTail :: below)
  | goesOn {e : EngineId} {above below : List Call} :
    s.uploader.engine = some e → s.uploader.activated = false → GoesOn s above →
      .quitTail ∉ below → Quitting s (above ++ .quitTail :: below)

/-- The pointer is the engine that reports to the uploader, and every other engine
is scheduled for deletion once. -/
structure Pointed (s : State) : Prop where
  reported : ∀ e, (s.engines e).reported = true ↔ s.uploader.engine = some e
  bound : ∀ e, s.uploader.engine = some e → e < s.nextEngine
  scheduled : ∀ e, s.log.count (.deleteLater e) =
    if e < s.nextEngine ∧ s.uploader.engine ≠ some e then 1 else 0
  safe : .fault .nullEngine ∉ s.log

theorem Calm.pointed {s' : State} (h : Calm s s') (hp : Pointed s) : Pointed s' where
  reported e := by
    rw [h.reported, h.engine]
    exact hp.reported e
  bound := by
    rw [h.engine, h.nextEngine]
    exact hp.bound
  scheduled e := by
    obtain ⟨new, hl, hc⟩ := h.log
    have hzero : new.count (.deleteLater e) = 0 := List.count_eq_zero.mpr fun hm => by
      simpa [Output.calm] using hc _ hm
    rw [h.engine, h.nextEngine, hl, List.count_append, hzero, Nat.zero_add]
    exact hp.scheduled e
  safe := by
    obtain ⟨new, hl, hc⟩ := h.log
    rw [hl, List.mem_append]
    rintro (hm | hm)
    · simpa [Output.calm] using hc _ hm
    · exact hp.safe hm

theorem Calm.countP_isQuit {s' : State} (h : Calm s s') :
    s'.log.countP Output.isQuit = s.log.countP Output.isQuit := by
  obtain ⟨new, hl, hc⟩ := h.log
  have hzero : new.countP Output.isQuit = 0 := List.countP_eq_zero.mpr fun o ho hq => by
    have := hc o ho
    cases o <;> simp_all [Output.isQuit, Output.calm]
  rw [hl, List.countP_append, hzero, Nat.zero_add]

theorem Pointed.quitTail {e : EngineId} (hp : Pointed s) (he : s.uploader.engine = some e) :
    Pointed (AutoUploader.quitTail s) ∧ (AutoUploader.quitTail s).uploader.engine = none ∧
      (AutoUploader.quitTail s).uploader.activated = s.uploader.activated ∧
      (AutoUploader.quitTail s).log = .deleteLater e :: s.log := by
  have heq : AutoUploader.quitTail s = {s with
      engines := Function.update s.engines e {s.engines e with reported := false}
      posted := s.posted ++ [.deleteEngine e]
      uploader := {s.uploader with engine := none}
      quitting := true
      log := .deleteLater e :: s.log} := by
    simp [AutoUploader.quitTail, he, AutoUploader.quitApplication, State.setEngine, State.post,
      State.emit, State.setUploader]
  rw [heq]
  refine ⟨⟨fun e' => ?_, by simp, fun e' => ?_, ?_⟩, rfl, rfl, rfl⟩
  · rcases eq_or_ne e' e with rfl | hne
    · simp
    · have hr := hp.reported e'
      rw [he, Option.some.injEq] at hr
      simp [hne, hr, hne.symm]
  · have hs := hp.scheduled e'
    rcases eq_or_ne e' e with rfl | hne
    · simpa [he, hp.bound e' he] using hs
    · simpa [he, hne, hne.symm] using hs
  · simpa using hp.safe

/-- `quit` returns at once, or begins with a cancel. -/
theorem Pointed.quit (hp : Pointed s) (cause : Quitter) :
    (Pointed (AutoUploader.quit cause s).1 ∧ (AutoUploader.quit cause s).2 = [] ∧
      (AutoUploader.quit cause s).1.uploader.engine = none ∧
      (AutoUploader.quit cause s).1.uploader.activated = s.uploader.activated ∧
      (s.uploader.activated = true → s.uploader.engine = none)) ∨
    ∃ e, s.uploader.engine = some e ∧ s.uploader.activated = true ∧
      AutoUploader.quit cause s = ({s with
        uploader := {s.uploader with activated := false}
        log := .quit cause :: s.log}, [.cancelAll e, .quitTail]) := by
  have hemit : Pointed (s.emit (.quit cause)) :=
    ⟨hp.reported, hp.bound, fun e => by simpa using hp.scheduled e, by simpa using hp.safe⟩
  cases he : s.uploader.engine with
  | none =>
    have heq : AutoUploader.quit cause s = ({s.emit (.quit cause) with quitting := true}, []) := by
      simp [AutoUploader.quit, he, AutoUploader.quitApplication]
    rw [heq]
    exact .inl ⟨⟨hemit.reported, hemit.bound, hemit.scheduled, hemit.safe⟩, rfl, he, rfl, fun _ => rfl⟩
  | some e =>
    cases ha : s.uploader.activated with
    | false =>
      have heq : AutoUploader.quit cause s = (AutoUploader.quitTail (s.emit (.quit cause)), []) := by
        simp [AutoUploader.quit, he, ha]
      obtain ⟨hp', hnone, hact, -⟩ := hemit.quitTail he
      rw [heq]
      exact .inl ⟨hp', rfl, hnone, hact.trans ha, by simp⟩
    | true =>
      refine .inr ⟨e, rfl, rfl, ?_⟩
      simp [AutoUploader.quit, he, ha, State.setUploader, State.emit]

/-- `quit` keeps what it needs, and leaves no engine when it returns. -/
structure Lands (x y : Config) : Prop where
  pointed : Pointed y.state
  quitting : Quitting y.state y.stack
  returned : quitsReturned x < quitsReturned y →
    y.state.uploader.engine = none ∧ y.state.uploader.activated = false

theorem Lands.of_gone {x y : Config} (hp : Pointed y.state) (htail : .quitTail ∉ y.stack)
    (hnone : y.state.uploader.engine = none) (hact : y.state.uploader.activated = false) :
    Lands x y := ⟨hp, .none htail (by simp [hnone, hact]), fun _ => ⟨hnone, hact⟩⟩

/-- A step that does not disturb `quit`, outside of it. -/
theorem Lands.of_undisturbing {stack rest : List Call} {r : State × List Call} (hp : Pointed s)
    (htail : .quitTail ∉ stack) (hiff : s.uploader.activated = true ↔ s.uploader.engine.isSome = true)
    (hrest : ∀ k ∈ rest, k ∈ stack) (h : Undisturbing s r) :
    Lands ⟨s, stack⟩ ⟨r.1, r.2 ++ rest⟩ := by
  have hn : .quitTail ∉ r.2 ++ rest := fun hk =>
    (List.mem_append.mp hk).elim h.calls fun hk => htail (hrest _ hk)
  refine ⟨h.calm.pointed hp, .none hn ?_, fun hlt => ?_⟩
  · rw [h.calm.activated, h.calm.engine]
    exact hiff
  · rw [quitsReturned, quitsReturned, h.calm.countP_isQuit, List.count_eq_zero.mpr hn,
      List.count_eq_zero.mpr htail] at hlt
    exact absurd hlt (Nat.lt_irrefl _)

/-- A step that does not disturb `quit`, while it waits for its cancel. -/
theorem Lands.of_goesOn {e : EngineId} {above above' below : List Call} {s' : State} (hp : Pointed s)
    (he : s.uploader.engine = some e) (ha : s.uploader.activated = false)
    (habove : .quitTail ∉ above) (hbelow : .quitTail ∉ below) (hc : Calm s s') (h : GoesOn s' above') :
    Lands ⟨s, above ++ .quitTail :: below⟩ ⟨s', above' ++ .quitTail :: below⟩ := by
  have hn : .quitTail ∉ above' := fun hk => by
    rcases h.calls _ hk with h | ⟨_, _, h⟩ | ⟨_, h⟩
    · simp [Call.ends] at h
    all_goals cases h
  refine ⟨hc.pointed hp, .goesOn (hc.engine.trans he) (hc.activated.trans ha) h hbelow, fun hlt => ?_⟩
  simp [quitsReturned, hc.countP_isQuit, List.count_eq_zero.mpr hn,
    List.count_eq_zero.mpr habove] at hlt

theorem Lands.of_quit {x : Config} {below : List Call} (hp : Pointed s)
    (hiff : s.uploader.activated = true ↔ s.uploader.engine.isSome = true) (hx : x.stack = [])
    (hlog : x.state.log = s.log) (cause : Quitter)
    (hquiet : ∀ e, s.uploader.engine = some e → s.uploader.activated = true → CancelsQuietly s e)
    (hbelow : .quitTail ∉ below) :
    Lands x ⟨(AutoUploader.quit cause s).1, (AutoUploader.quit cause s).2 ++ below⟩ := by
  rcases hp.quit cause with ⟨hp', hcalls, hnone, hact, hgone⟩ | ⟨e, he, ha, heq⟩
  · refine .of_gone hp' (by simpa [hcalls] using hbelow) hnone (hact.trans ?_)
    cases ha : s.uploader.activated with
    | false => rfl
    | true =>
      have := hiff.mp ha
      rw [hgone ha] at this
      cases this
  · rw [heq]
    refine ⟨⟨hp.reported, hp.bound, fun e => ?_, ?_⟩, .cancels he rfl (hquiet e he ha) hbelow, fun hlt => ?_⟩
    · simpa using hp.scheduled e
    · simpa using hp.safe
    · have hcount : (Output.quit cause :: s.log).countP Output.isQuit =
          s.log.countP Output.isQuit + 1 := List.countP_cons_of_pos rfl
      simp [quitsReturned, hx, hlog, hcount, List.count_eq_zero.mpr hbelow] at hlt

theorem Lands.of_engineFinished {e : EngineId} {x : Config} {rest : List Call} (hp : Pointed s)
    (he : s.uploader.engine = some e) (htail : .quitTail ∉ rest) (error : ErrorType) (sent total : Nat) :
    Lands x ⟨(AutoUploader.engineFinished error sent total s).1,
      (AutoUploader.engineFinished error sent total s).2 ++ rest⟩ := by
  have hask : AutoUploader.askReason error s = s := by simp [AutoUploader.askReason, he]
  have hcalm : Calm s (AutoUploader.notifyFinished sent total s) :=
    .of_frame (AutoUploader.frame_notifyFinished sent total)
  have ht : Pointed ((AutoUploader.notifyFinished sent total s).setUploader
      {(AutoUploader.notifyFinished sent total s).uploader with activated := false}) := by
    have := hcalm.pointed hp
    exact ⟨this.reported, this.bound, this.scheduled, this.safe⟩
  have heq : AutoUploader.engineFinished error sent total s =
      AutoUploader.quit .batchEnd ((AutoUploader.notifyFinished sent total s).setUploader
        {(AutoUploader.notifyFinished sent total s).uploader with activated := false}) := by
    rw [AutoUploader.engineFinished, hask]
  rcases ht.quit .batchEnd with ⟨hp', hcalls, hnone, hact, -⟩ | ⟨_, _, ha, _⟩
  · rw [heq, hcalls]
    exact .of_gone hp' htail hnone hact
  · cases ha

theorem Quitting.none_of_nil (h : Quitting s []) :
    s.uploader.activated = true ↔ s.uploader.engine.isSome = true := by
  generalize hl : ([] : List Call) = stack at h
  cases h with
  | none _ hiff => exact hiff
  | cancels => cases hl
  | goesOn => simp at hl

/-- A new batch has an engine of its own. -/
theorem Pointed.activate (hp : Pointed s)
    (hiff : s.uploader.activated = true ↔ s.uploader.engine.isSome = true) :
    Pointed (AutoUploader.activate s) ∧ (AutoUploader.activate s).log = s.log ∧
      ((AutoUploader.activate s).uploader.activated = true ↔
        (AutoUploader.activate s).uploader.engine.isSome = true) := by
  cases ha : s.uploader.activated with
  | true =>
    rw [AutoUploader.activate_active ha]
    exact ⟨hp, rfl, hiff⟩
  | false =>
    have hnone : s.uploader.engine = none := by
      simpa [ha] using hiff
    rw [AutoUploader.activate_new ha]
    refine ⟨⟨fun e => ?_, fun e he => ?_, fun e => ?_, hp.safe⟩, rfl, by simp⟩
    · have hr := hp.reported e
      rcases eq_or_ne e s.nextEngine with rfl | hne
      · simp
      · simpa [hne, hne.symm, hnone] using hr
    · cases he
      exact Nat.lt_succ_self _
    · have hs := hp.scheduled e
      rcases eq_or_ne e s.nextEngine with rfl | hne
      · simpa [hnone] using hs
      · have hlt : e < s.nextEngine + 1 ↔ e < s.nextEngine :=
          ⟨fun h => Nat.lt_of_le_of_ne (Nat.le_of_lt_succ h) hne, Nat.lt_succ_of_lt⟩
        simpa [hnone, hne.symm, hlt] using hs

theorem lands_uploadFiles (hp : Pointed s)
    (hiff : s.uploader.activated = true ↔ s.uploader.engine.isSome = true) (fileList : List Path)
    (obey : Bool) {x : Config} (hx : x.stack = []) (hlog : x.state.log = s.log) :
    Lands x ⟨(AutoUploader.uploadFiles fileList obey s).1,
      (AutoUploader.uploadFiles fileList obey s).2 ++ []⟩ := by
  have hlands {t : State} (hp : Pointed t)
      (hiff : t.uploader.activated = true ↔ t.uploader.engine.isSome = true) {calls : List Call}
      (htail : .quitTail ∉ calls) (hcount : t.log.countP Output.isQuit = s.log.countP Output.isQuit) :
      Lands x ⟨t, calls⟩ := by
    refine ⟨hp, .none htail hiff, fun hlt => ?_⟩
    simp [quitsReturned, hx, hlog, hcount, List.count_eq_zero.mpr htail] at hlt
  have hreturned {t : State} (hp : Pointed t) : Pointed (t.emit (.returned false)) :=
    (Calm.emit rfl).pointed hp
  obtain ⟨hpa, hla, hiffa⟩ := hp.activate hiff
  rw [List.append_nil]
  unfold AutoUploader.uploadFiles
  dsimp only
  split
  · refine hlands (hreturned hp) hiff (by simp) ?_
    simp [Output.isQuit]
  · split
    · refine hlands (hreturned (t := {AutoUploader.activate s with
        quitTimers := (AutoUploader.activate s).quitTimers + 1}) ?_) hiffa (by simp) ?_
      · exact ⟨hpa.reported, hpa.bound, hpa.scheduled, hpa.safe⟩
      · simp [Output.isQuit, hla]
    · exact hlands hpa hiffa (by simp) (by rw [hla])

/-- The rest of `quit` runs last. -/
theorem Quitting.quitTail {rest : List Call} (h : Quitting s (.quitTail :: rest)) :
    .quitTail ∉ rest ∧ s.uploader.activated = false ∧ ∃ e, s.uploader.engine = some e := by
  generalize hl : Call.quitTail :: rest = stack at h
  cases h with
  | none htail => exact absurd (hl ▸ List.mem_cons_self ..) htail
  | cancels => cases hl
  | @goesOn e above below he ha hgo hbelow =>
    cases above with
    | nil =>
      cases hl
      exact ⟨hbelow, ha, e, he⟩
    | cons k above =>
      cases hl
      rcases hgo.calls _ (List.mem_cons_self ..) with h | ⟨_, _, h⟩ | ⟨_, h⟩
      · cases h
      all_goals cases h

theorem lands_run {k : Call} {rest : List Call} (hu : Uploads s) (hk : k.Spent s) (hp : Pointed s)
    (hq : Quitting s (k :: rest)) : Lands ⟨s, k :: rest⟩ (uploader.called k rest s) := by
  have hcalled : uploader.called k rest s = ⟨(exec k s).1, (exec k s).2 ++ rest⟩ := rfl
  rw [hcalled]
  by_cases htail : k = .quitTail
  · subst htail
    obtain ⟨hrest, ha, e, he⟩ := hq.quitTail
    obtain ⟨hp', hnone, hact, -⟩ := hp.quitTail he
    exact .of_gone hp' (by simpa [exec] using hrest) hnone (hact.trans ha)
  · generalize hl : k :: rest = stack at hq
    cases hq with
    | none hstack hiff =>
      subst hl
      by_cases hfin : ∃ e error sent total, k = .finished e error sent total ∧
          (s.engines e).reported = true
      · obtain ⟨e, error, sent, total, rfl, hr⟩ := hfin
        have he : exec (.finished e error sent total) s =
            AutoUploader.engineFinished error sent total s := by simp [exec, hr]
        rw [he]
        exact .of_engineFinished hp ((hp.reported e).mp hr)
          (fun hm => hstack (List.mem_cons_of_mem _ hm)) error sent total
      · refine .of_undisturbing hp hstack hiff (fun k' hk' => List.mem_cons_of_mem _ hk')
          (undisturbing_exec hu hk htail fun e error sent total hf => ?_)
        simpa using fun hr => hfin ⟨e, error, sent, total, hf, hr⟩
    | @cancels e below he ha hquiet hbelow =>
      cases hl
      show Lands ⟨s, [.cancelAll e] ++ .quitTail :: below⟩ _
      exact .of_goesOn hp he ha (by simp) hbelow
        (undisturbing_exec hu hk (by simp) (by simp)).calm (goesOn_cancelAll hu hquiet)
    | @goesOn e above below he ha hgo hbelow =>
      cases above with
      | nil =>
        cases hl
        exact absurd rfl htail
      | cons k' above =>
        cases hl
        have hcalls := hgo.calls _ (List.mem_cons_self ..)
        have hn : .quitTail ∉ k :: above := fun hm => by
          rcases hgo.calls _ hm with h | ⟨_, _, h⟩ | ⟨_, h⟩
          · cases h
          all_goals cases h
        have hcalm : Calm s (exec k s).1 := by
          refine (undisturbing_exec hu hk htail fun e error sent total hf => ?_).calm
          subst hf
          simp [Call.ends] at hcalls
        have happend : (exec k s).2 ++ above.append (.quitTail :: below) =
            ((exec k s).2 ++ above) ++ .quitTail :: below := (List.append_assoc ..).symm
        rw [happend]
        refine .of_goesOn hp he ha hn hbelow hcalm ?_
        cases k with
        | uploadFinished e i => exact goesOn_uploadFinished hgo
        | uploadItem e i => exact goesOn_uploadItem hgo
        | sessionOpen e => exact hgo.tail
        | _ => simp [Call.ends] at hcalls

/-- Events that only reach the uploader later. -/
def Event.passive : Event → Bool
  | .environment _ | .file .. | .coreLocations .. | .callUploadFiles .. | .callQuit => true
  | _ => false

theorem deliver_passive {ev : Event} {r : State × List Call} (hp : ev.passive = true)
    (hr : deliver ev s = some r) : r.2 = [] ∧ r.1.items = s.items ∧ r.1.clients = s.clients ∧
      r.1.engines = s.engines ∧ r.1.queue = s.queue := by
  cases ev with
  | environment | file | coreLocations | callUploadFiles | callQuit =>
    cases hr
    exact ⟨rfl, rfl, rfl, rfl, rfl⟩
  | _ => cases hp

theorem admits_cons {ev : Event} {k : Call} {rest : List Call} (h : admits ev (k :: rest) = true) :
    ev.passive = true ∨ (∃ e signal, ev = .session e signal ∧ k = .sessionOpen e) ∨
      ∃ e error sent total, k = .finished e error sent total := by
  cases ev with
  | environment | file | coreLocations | callUploadFiles | callQuit => exact .inl rfl
  | session e signal =>
    cases k with
    | sessionOpen e' =>
      have he : e = e' := by simpa [admits] using h
      exact .inr (.inl ⟨e, signal, rfl, he ▸ rfl⟩)
    | _ => cases h
  | enqueue | cancelAll =>
    cases k with
    | finished e error sent total => exact .inr (.inr ⟨e, error, sent, total, rfl⟩)
    | _ => cases h
  | _ => cases h

/-- What may happen while `quit` waits for its cancel. -/
theorem goesOn_deliver {ev : Event} {above below : List Call} {r : State × List Call} (h : GoesOn s above)
    (ha : admits ev (above ++ .quitTail :: below) = true)
    (hopened : ∀ e signal, Reactor.Action.event ev = .event (.session e signal) → signal = .opened)
    (hr : deliver ev s = some r) : r.2 = [] ∧ GoesOn r.1 above := by
  have hpassive (hp : ev.passive = true) : r.2 = [] ∧ GoesOn r.1 above := by
    obtain ⟨hcalls, hitems, -, hengines, hqueue⟩ := deliver_passive hp hr
    exact ⟨hcalls, h.of_same (fun _ _ _ => by rw [hitems]) (by rw [hqueue]) fun _ _ => by rw [hengines]⟩
  cases above with
  | nil =>
    rcases admits_cons ha with hp | ⟨_, _, _, hk⟩ | ⟨_, _, _, _, hk⟩
    · exact hpassive hp
    all_goals cases hk
  | cons k above =>
    rcases admits_cons ha with hp | ⟨e, signal, rfl, rfl⟩ | ⟨e, error, sent, total, rfl⟩
    · exact hpassive hp
    · obtain rfl := hopened e signal rfl
      simp only [deliver, Option.ite_none_right_eq_some, Option.some.injEq] at hr
      obtain ⟨-, rfl⟩ := hr
      refine ⟨rfl, goesOn_sessionOpened (h.of_same (fun _ _ _ => rfl) rfl fun e' _ => ?_)⟩
      rcases eq_or_ne e' e with rfl | hne
      · simp [NwSessionMgr.setSession]
      · simp [NwSessionMgr.setSession, hne]
    · simpa [Call.ends] using h.calls _ (List.mem_cons_self ..)

theorem lands_event {ev : Event} {stack : List Call} {r : State × List Call} (hu : Uploads s)
    (hp : Pointed s) (hq : Quitting s stack) (hg : QuietTeardown ⟨s, stack⟩ (.event ev))
    (ha : admits ev stack = true) (hr : deliver ev s = some r) :
    Lands ⟨s, stack⟩ ⟨r.1, r.2 ++ stack⟩ := by
  by_cases hd : ev = .dispatch
  · subst hd
    cases stack with
    | cons k rest => cases ha
    | nil =>
      have hiff := hq.none_of_nil
      simp only [deliver, dispatch] at hr
      have hpop (posted : List Posted) : Pointed {s with posted := posted} :=
        ⟨hp.reported, hp.bound, hp.scheduled, hp.safe⟩
      split at hr
      · cases hr
      · rename_i m rest hposted
        cases m <;> obtain rfl := (Option.some.inj hr).symm
        · exact lands_uploadFiles (hpop rest) hiff _ _ rfl rfl
        · have hcalls : CallsQuit ⟨s, []⟩ (.event .dispatch) := .inr ⟨rfl, rest, hposted⟩
          exact .of_quit (x := ⟨s, []⟩) (hpop rest) hiff rfl rfl .client
            (fun e he hact => hg.1 e hcalls he hact) (by simp)
        all_goals
          refine .of_undisturbing hp (by simp) hiff (fun _ hk => hk) (.of_calm ?_)
          refine ⟨rfl, rfl, rfl, rfl, fun e => ?_, [], rfl, by simp⟩
        · rfl
        · rename_i e'
          rcases eq_or_ne e e' with rfl | hne
          · simp [State.deleteEngine]
          · simp [State.deleteEngine, hne]
  · by_cases hquits : ev.quits = true
    · have hquiet (e : EngineId) (he : s.uploader.engine = some e) (hact : s.uploader.activated = true) :
          CancelsQuietly s e := hg.1 e (.inl ⟨ev, hquits, rfl⟩) he hact
      have hnil : stack = [] := by
        cases stack with
        | nil => rfl
        | cons k rest =>
          cases ev with
          | quitTimer | exit => cases ha
          | _ => cases hquits
      subst hnil
      cases ev with
      | quitTimer =>
        simp only [deliver, Option.ite_none_right_eq_some, Option.some.injEq] at hr
        obtain ⟨-, rfl⟩ := hr
        have hset : Pointed {s with quitTimers := s.quitTimers - 1} :=
          ⟨hp.reported, hp.bound, hp.scheduled, hp.safe⟩
        exact .of_quit (x := ⟨s, []⟩) hset hq.none_of_nil rfl rfl .refusal hquiet (by simp)
      | exit =>
        simp only [deliver, Option.ite_none_right_eq_some, Option.some.injEq] at hr
        obtain ⟨-, rfl⟩ := hr
        rw [List.append_nil]
        exact .of_quit (x := ⟨s, []⟩) hp hq.none_of_nil rfl rfl .destructor hquiet (by simp)
      | _ => cases hquits
    · have hund := undisturbing_deliver hu hr hd (by simpa using hquits)
      cases hq with
      | none hstack hiff => exact .of_undisturbing hp hstack hiff (fun _ hk => hk) hund
      | @cancels e below he hact hquiet hbelow =>
        have hpass : ev.passive = true := by
          rcases admits_cons ha with h | ⟨_, _, _, h⟩ | ⟨_, _, _, _, h⟩
          · exact h
          all_goals cases h
        obtain ⟨hcalls, hitems, hclients, hengines, hqueue⟩ := deliver_passive hpass hr
        refine ⟨hund.calm.pointed hp, ?_, fun hlt => ?_⟩
        · rw [hcalls]
          refine .cancels (hund.calm.engine.trans he) (hund.calm.activated.trans hact) ?_ hbelow
          rw [CancelsQuietly, hitems, hclients, hengines, hqueue]
          exact hquiet
        · simp [quitsReturned, hund.calm.countP_isQuit, hcalls] at hlt
      | @goesOn e above below he hact hgo hbelow =>
        have hn : .quitTail ∉ above := fun hm => by
          rcases hgo.calls _ hm with h | ⟨_, _, h⟩ | ⟨_, h⟩
          · cases h
          all_goals cases h
        obtain ⟨hcalls, hgo'⟩ := goesOn_deliver hgo ha
          (hg.2 (List.mem_append_right _ (List.mem_cons_self ..))) hr
        rw [hcalls]
        exact .of_goesOn hp he hact hn hbelow hund.calm hgo'

theorem lands_of_reaches {env : Environment} {files : Path → Option File}
    {coreLocations : List Path} {logWritable : Bool} {x : Config}
    (hx : Reaches uploader QuietTeardown ⟨blank env files coreLocations logWritable, []⟩ x) :
    Pointed x.state ∧ Quitting x.state x.stack := by
  refine hx.invariant (I := fun x => Pointed x.state ∧ Quitting x.state x.stack) ?_ ?_ ?_
  · refine ⟨⟨?_, ?_, ?_, ?_⟩, .none ?_ ?_⟩ <;> simp [blank]
  · rintro s k rest hx - ⟨hp, hq⟩
    obtain ⟨hu, hs⟩ := uploads_of_reaches hx
    have hl := lands_run hu (hs k (List.mem_cons_self ..)) hp hq
    exact ⟨hl.pointed, hl.quitting⟩
  · rintro s stack ev r hx hg ha hr ⟨hp, hq⟩
    have hl := lands_event (uploads_of_reaches hx).1 hp hq hg ha hr
    exact ⟨hl.pointed, hl.quitting⟩

/-- `quit` never calls through a null pointer, every engine but the current one is
scheduled for deletion once, and no engine is left when `quit` returns. -/
theorem teardown_reentrant {env : Environment} {files : Path → Option File}
    {coreLocations : List Path} {logWritable : Bool} {x : Config}
    (hx : Reaches uploader QuietTeardown ⟨blank env files coreLocations logWritable, []⟩ x) :
    .fault .nullEngine ∉ x.state.log ∧
      (∀ e, x.state.log.count (.deleteLater e) =
        if e < x.state.nextEngine ∧ x.state.uploader.engine ≠ some e then 1 else 0) ∧
      ∀ a y, QuietTeardown x a → uploader.step x a = some y → quitsReturned x < quitsReturned y →
        y.state.uploader.engine = none ∧ y.state.uploader.activated = false := by
  obtain ⟨hp, hq⟩ := lands_of_reaches hx
  obtain ⟨hu, hspent⟩ := uploads_of_reaches hx
  refine ⟨hp.safe, hp.scheduled, fun a y hg hs => ?_⟩
  cases a with
  | run =>
    obtain ⟨k, rest, hstack, rfl⟩ := uploader.step_run hs
    have hl := lands_run hu (hspent k (hstack ▸ List.mem_cons_self ..)) hp (hstack ▸ hq)
    rw [← hstack] at hl
    exact hl.returned
  | event ev =>
    obtain ⟨ha, r, hr, rfl⟩ := uploader.step_event hs
    exact (lands_event hu hp hq hg ha hr).returned

/-- A report that has been sent, after the batch has ended. -/
def finishBatch : List Action := sendReport ++
  [.event (.replyFinished 0 ⟨true, some 7⟩), .run, .run, .run, .event .dispatch, .event .dispatch]

/-- And the process exits. -/
def exitAfterBatch : List Action := finishBatch ++ [.event .exit]

def exitedAfterBatch : Config := (uploader.run exitAfterBatch reportAtRest).get (by decide)

/-- The guard, computed for runs in which nobody calls `quit` while there is an engine. -/
def quietTeardown (x : Config) : Action → Bool
  | .event .quitTimer | .event .exit => x.state.uploader.engine.isNone
  | .event .dispatch => match x.state.posted with
    | .quit :: _ => x.state.uploader.engine.isNone
    | _ => true
  | .event (.session _ signal) => signal = .opened
  | _ => true

theorem quietTeardown_sound (x : Config) (a : Action) (h : quietTeardown x a = true) :
    QuietTeardown x a := by
  refine ⟨fun e ha he => ?_, fun _ e signal ha => ?_⟩
  · rcases ha with ⟨ev, hquits, rfl⟩ | ⟨rfl, rest, hposted⟩
    · cases ev with
      | quitTimer | exit => simp [quietTeardown, he] at h
      | _ => cases hquits
    · simp [quietTeardown, hposted, he] at h
  · subst ha
    simpa [quietTeardown] using h

/-- Both the end of the batch and the destructor have called `quit`. -/
theorem teardown_reentrant_sent : (.quit .batchEnd ∈ exitedAfterBatch.state.log ∧
    .quit .destructor ∈ exitedAfterBatch.state.log) ∧
      exitedAfterBatch.state.log.count (.deleteLater 0) = 1 ∧ .fault .nullEngine ∉ exitedAfterBatch.state.log := by
  obtain ⟨hsafe, hscheduled, -⟩ := teardown_reentrant (x := exitedAfterBatch) (Reaches.of_run .start
    (Guarded.of_check quietTeardown_sound (by decide))
    (Option.some_get (x := uploader.run exitAfterBatch reportAtRest) (by decide)).symm)
  exact ⟨by decide, (hscheduled 0).trans (by decide), hsafe⟩

/-! ### What the code does when `quit` comes during an upload -/

/-- The upload in progress is aborted, which ends the batch, which quits. -/
def quitWhileSending : List Action := sendReport ++
  [.event .callQuit, .event .dispatch, .run, .run, .run, .run, .run, .run, .run]

def quitTwice : Config := (uploader.run quitWhileSending reportAtRest).get (by decide)

/-- The outer `quit` goes on with the pointer that the inner one has cleared. -/
theorem quit_through_null : ∃ x, Reaches uploader (fun _ _ => True) reportAtRest x ∧
    .fault .nullEngine ∈ x.state.log := by
  refine ⟨quitTwice, Reaches.of_run .start ?_ (Option.some_get _).symm, by decide⟩
  exact Guarded.of_forall (P := fun _ => True) (fun _ _ => trivial) _

/-- Another batch begins after the process was told to quit, and is sending when it exits. -/
def exitWhileSending : List Action := finishBatch ++
  [.event (.file "/b.rcore" (some ⟨[3], true, none⟩)), .event (.callUploadFiles ["/b.rcore"] false),
    .event .dispatch, .run, .run, .run, .run, .run, .event .exit, .run, .run, .run, .run, .run, .run, .run]

def exitedWhileSending : Config := (uploader.run exitWhileSending reportAtRest).get (by decide)

/-- The `quit` of the destructor does the same. -/
theorem destructor_through_null : ∃ x, Reaches uploader (fun _ _ => True) reportAtRest x ∧
    .quit .client ∉ x.state.log ∧ .fault .nullEngine ∈ x.state.log := by
  refine ⟨exitedWhileSending, Reaches.of_run .start ?_ (Option.some_get _).symm, by decide, by decide⟩
  exact Guarded.of_forall (P := fun _ => True) (fun _ _ => trivial) _

end CrashReporter.Upload
