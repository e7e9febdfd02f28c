import CrashReporter.Upload.AutoUploader

/-! What the slots leave alone.

Only three things matter to a report: that it is taken into the queue, that an
upload of it is started, and that its file is removed. `Frame s s'` says that
nothing of the kind happened between two states. Most functions of the client, the
item, the queue and the engine are such steps (`Minor`); the few that are not are
treated where they are used. -/
namespace CrashReporter.Upload

/-- Outputs that take, start or remove nothing, and end nothing. -/
def Output.minor : Output → Bool
  | .updateProgress .. | .succeeded .. | .uploadLog .. | .clientError .. | .clientFinished ..
  | .itemDone .. | .dropped .. | .queueDone | .finished .. | .progressNotified ..
  | .failureNotified .. | .successNotified .. | .returned .. => true
  | .fault f => f ≠ .nullEngine && f ≠ .emptyQueue
  | _ => false

/-- The client has the same upload as before, or none any more. -/
structure Client.Keeps (v v' : Client) : Prop where
  item : v'.item = v.item
  upload : v'.reply = true → v.reply = true ∧ v'.network = v.network ∧
    v'.currentFile = v.currentFile ∧ v'.body = v.body

/-- The engine waits for a session only if it did so before, for the same item. -/
def Engine.Keeps (v v' : Engine) : Prop :=
  v'.state = .connecting → v.state = .connecting ∧ v'.currentItem = v.currentItem

structure Frame (s s' : State) : Prop where
  files : s'.files = s.files
  env : s'.env = s.env
  uploader : s'.uploader = s.uploader
  nextClient : s'.nextClient = s.nextClient
  nextItem : s'.nextItem = s.nextItem
  nextEngine : s'.nextEngine = s.nextEngine
  quitting : s'.quitting = s.quitting
  filepath : ∀ i, (s'.items i).filepath = (s.items i).filepath
  http : ∀ i, (s'.items i).http = (s.items i).http
  clients : ∀ c, (s.clients c).Keeps (s'.clients c)
  engines : ∀ e, (s.engines e).Keeps (s'.engines e)
  reported : ∀ e, (s'.engines e).reported = (s.engines e).reported
  connected : s'.queue.engines = s.queue.engines
  queued : s'.queue.uploadQueue = s.queue.uploadQueue ∨ s'.queue.uploadQueue = []
  log : ∃ new, s'.log = new ++ s.log ∧ ∀ o ∈ new, o.minor = true

theorem Client.Keeps.refl (v : Client) : v.Keeps v := ⟨rfl, fun h => ⟨h, rfl, rfl, rfl⟩⟩

theorem Client.Keeps.trans {u v w : Client} (h : u.Keeps v) (h' : v.Keeps w) : u.Keeps w := by
  refine ⟨h'.item.trans h.item, fun hw => ?_⟩
  obtain ⟨hv, hn, hf, hb⟩ := h'.upload hw
  obtain ⟨hu, hn', hf', hb'⟩ := h.upload hv
  exact ⟨hu, hn.trans hn', hf.trans hf', hb.trans hb'⟩

/-- A client without a reply has nothing to keep. -/
theorem Client.Keeps.of_idle {v v' : Client} (hi : v'.item = v.item) (hr : v'.reply = false) :
    v.Keeps v' := ⟨hi, fun h => absurd h (by simp [hr])⟩

theorem Engine.Keeps.refl (v : Engine) : v.Keeps v := fun h => ⟨h, rfl⟩

theorem Engine.Keeps.of_state {v v' : Engine} (h : v'.state ≠ .connecting) : v.Keeps v' :=
  fun h' => absurd h' h

theorem Engine.Keeps.of_eq {v v' : Engine} (h : v'.state = v.state)
    (hc : v'.currentItem = v.currentItem) : v.Keeps v' := fun h' => ⟨h ▸ h', hc⟩

namespace Frame

theorem refl (s : State) : Frame s s where
  files := rfl
  env := rfl
  uploader := rfl
  nextClient := rfl
  nextItem := rfl
  nextEngine := rfl
  quitting := rfl
  filepath _ := rfl
  http _ := rfl
  clients _ := .refl _
  engines _ := .refl _
  reported _ := rfl
  connected := rfl
  queued := .inl rfl
  log := ⟨[], rfl, by simp⟩

theorem trans {s t u : State} (h : Frame s t) (h' : Frame t u) : Frame s u where
  files := h'.files.trans h.files
  env := h'.env.trans h.env
  uploader := h'.uploader.trans h.uploader
  nextClient := h'.nextClient.trans h.nextClient
  nextItem := h'.nextItem.trans h.nextItem
  nextEngine := h'.nextEngine.trans h.nextEngine
  quitting := h'.quitting.trans h.quitting
  filepath i := (h'.filepath i).trans (h.filepath i)
  http i := (h'.http i).trans (h.http i)
  clients c := (h.clients c).trans (h'.clients c)
  engines e hc := by
    obtain ⟨ht, he⟩ := h'.engines e hc
    exact ⟨(h.engines e ht).1, he.trans (h.engines e ht).2⟩
  reported e := (h'.reported e).trans (h.reported e)
  connected := h'.connected.trans h.connected
  queued := h'.queued.elim (fun e => h.queued.imp (e.trans ·) (e.trans ·)) .inr
  log := by
    obtain ⟨new, hn, hm⟩ := h.log
    obtain ⟨new', hn', hm'⟩ := h'.log
    refine ⟨new' ++ new, by rw [hn', hn, List.append_assoc], fun o ho => ?_⟩
    exact (List.mem_append.mp ho).elim (hm' o) (hm o)

variable {s : State}

theorem setClient {c : ClientId} {v : Client} (h : (s.clients c).Keeps v) :
    Frame s (s.setClient c v) where
  __ := refl s
  clients c' := by
    rcases eq_or_ne c' c with rfl | hc
    · simpa using h
    · simpa [hc] using Client.Keeps.refl _

theorem setItem {i : ItemId} {v : Item} (hp : v.filepath = (s.items i).filepath)
    (hh : v.http = (s.items i).http) : Frame s (s.setItem i v) where
  __ := refl s
  filepath j := by
    rcases eq_or_ne j i with rfl | hj
    · simpa using hp
    · simp [hj]
  http j := by
    rcases eq_or_ne j i with rfl | hj
    · simpa using hh
    · simp [hj]

theorem setEngine {e : EngineId} {v : Engine} (h : (s.engines e).Keeps v)
    (hr : v.reported = (s.engines e).reported) : Frame s (s.setEngine e v) where
  __ := refl s
  reported e' := by
    rcases eq_or_ne e' e with rfl | he
    · simpa using hr
    · simp [he]
  engines e' := by
    rcases eq_or_ne e' e with rfl | he
    · simpa using h
    · simpa [he] using Engine.Keeps.refl _

theorem setQueue {v : Queue} (he : v.engines = s.queue.engines)
    (hq : v.uploadQueue = s.queue.uploadQueue ∨ v.uploadQueue = []) : Frame s (s.setQueue v) where
  __ := refl s
  connected := he
  queued := hq

theorem post (m : Posted) : Frame s (s.post m) := {refl s with }

theorem emit {o : Output} (h : o.minor = true) : Frame s (s.emit o) where
  __ := refl s
  log := ⟨[o], rfl, by simpa using h⟩

end Frame

theorem Client.Keeps.idle {v v' : Client} (h : v.Keeps v') (hr : v.reply = false) :
    v'.reply = false := by
  cases hr' : v'.reply
  · rfl
  · exact absurd (h.upload hr').1 (by simp [hr])

/-- A client with no reply any more. -/
def State.Idle (s : State) (c : ClientId) : Prop := c < s.nextClient ∧ (s.clients c).reply = false

theorem Frame.idle {s s' : State} (h : Frame s s') {c : ClientId} (hc : s.Idle c) : s'.Idle c :=
  ⟨h.nextClient ▸ hc.1, (h.clients c).idle hc.2⟩

/-- A pending call that starts nothing by itself: it enters a slot of an engine or
of the uploader, or goes on with a client that has no reply any more. -/
def Call.Tame (s : State) : Call → Prop
  | .uploadFinished .. | .queueDone .. | .finished .. | .sessionOpen .. | .sessionGone ..
  | .itemEnqueued | .filesAdded .. | .cancelAll .. | .exited => True
  | .aborted c | .cancelled c => s.Idle c
  | _ => False

/-- A pending call goes on with a client only when that has no reply any more. -/
def Call.Spent (s : State) : Call → Prop
  | .aborted c | .cancelled c => s.Idle c
  | _ => True

theorem Call.Tame.spent {s : State} {k : Call} (h : k.Tame s) : k.Spent s := by
  cases k with
  | aborted | cancelled => exact h
  | _ => trivial

theorem Call.Spent.mono {s s' : State} (h : ∀ c, s.Idle c → s'.Idle c) {k : Call}
    (hk : k.Spent s) : k.Spent s' := by
  cases k with
  | aborted c | cancelled c => exact h c hk
  | _ => trivial

/-- The clients of the items exist and are theirs. -/
def State.Owned (s : State) : Prop :=
  ∀ i c, (s.items i).http = some c → c < s.nextClient ∧ (s.clients c).item = i

theorem Frame.owned {s s' : State} (h : Frame s s') (ho : s.Owned) : s'.Owned := by
  intro i c hc
  obtain ⟨hlt, hi⟩ := ho i c (h.http i ▸ hc)
  exact ⟨h.nextClient ▸ hlt, (h.clients c).item.trans hi⟩

/-- A function whose effect is within the frame and whose calls start nothing. -/
structure Minor (s : State) (r : State × List Call) : Prop where
  frame : Frame s r.1
  tame : ∀ k ∈ r.2, k.Tame r.1

namespace Minor
variable {s t : State} {r : State × List Call}

theorem of_frame (h : Frame s t) : Minor s (t, []) := ⟨h, by simp⟩

theorem after (h : Frame s t) (h' : Minor t r) : Minor s r := ⟨h.trans h'.frame, h'.tame⟩

theorem append {calls : List Call} (h : Minor s r) (hc : ∀ k ∈ calls, k.Tame r.1) :
    Minor s (r.1, r.2 ++ calls) :=
  ⟨h.frame, fun k hk => (List.mem_append.mp hk).elim (h.tame k) (hc k)⟩

end Minor

variable {s : State}

/-! ### The item's slots and the client -/

theorem tame_uploadFinishedCalls (i : ItemId) (s t : State) :
    ∀ k ∈ uploadFinishedCalls i s, k.Tame t := by
  intro k hk
  obtain ⟨e, _, rfl⟩ := List.mem_map.mp hk
  trivial

namespace UploadItem

theorem frame_setStatus (i : ItemId) (status : ItemStatus) : Frame s (setStatus i status s) :=
  .setItem rfl rfl

theorem frame_disconnectHttp (i : ItemId) : Frame s (disconnectHttp i s) := by
  unfold disconnectHttp
  split
  · exact .refl s
  · exact .setClient ⟨rfl, fun h => ⟨h, rfl, rfl, rfl⟩⟩

theorem minor_uploadError (i : ItemId) (m : String) : Minor s (uploadError i m s) := by
  refine ⟨?_, tame_uploadFinishedCalls i _ _⟩
  unfold uploadError
  dsimp only
  refine (frame_disconnectHttp i).trans ?_
  split
  · refine .trans (.setItem ?_ ?_) (frame_setStatus i _) <;> rfl
  · refine .setItem ?_ ?_ <;> rfl

theorem minor_emitUploadFinished (i : ItemId) : Minor s (emitUploadFinished i s) :=
  ⟨frame_setStatus i _, tame_uploadFinishedCalls i _ _⟩

end UploadItem

namespace HttpClient

theorem minor_finished (c : ClientId) : Minor s (finished c s) := by
  unfold finished
  dsimp only
  split
  · exact .after (.emit rfl) (UploadItem.minor_emitUploadFinished _)
  · exact .of_frame (.emit rfl)

theorem minor_uploadError (c : ClientId) (m : String) : Minor s (uploadError c m s) := by
  unfold uploadError
  dsimp only
  split
  · exact .after (.emit rfl) (UploadItem.minor_uploadError _ _)
  · exact .of_frame (.emit rfl)

theorem minor_handleError (c : ClientId) (m : String) : Minor s (handleError c m s) := by
  unfold handleError
  split
  · exact Minor.after (t := s.setClient c {s.clients c with reply := false})
      (.setClient (.of_idle rfl rfl)) (minor_uploadError c m)
  · exact .of_frame (.refl _)

theorem frame_parseReply (c : ClientId) (answer : ServerReply) : Frame s (parseReply c answer s) := by
  unfold parseReply
  repeat' split
  all_goals first | exact .refl s | exact .emit rfl

/-- Without a reply nothing is read and nothing is removed. -/
theorem handleFinished_idle (c : ClientId) (answer : ServerReply) (h : (s.clients c).reply = false) :
    handleFinished c answer s =
      finished c (s.setClient c {s.clients c with connectionTimeout := false, clientState := .init}) := by
  simp [handleFinished, h, State.setClient]

theorem minor_handleFinished (c : ClientId) (answer : ServerReply)
    (h : (s.clients c).reply = false) : Minor s (handleFinished c answer s) := by
  rw [handleFinished_idle c answer h]
  refine .after (.setClient ?_) (minor_finished c)
  exact .of_idle rfl h

/-- A reply that Qt reports as failed is forgotten. -/
theorem handleError_reply (c : ClientId) (m : String) (h : (s.clients c).network = .failed) :
    ((handleError c m s).1.clients c).reply = false := by
  cases hr : (s.clients c).reply with
  | false => simp [handleError, hr]
  | true =>
    have heq : handleError c m s = uploadError c m (s.setClient c {s.clients c with reply := false}) := by
      simp [handleError, hr, h]
    have hk := (minor_uploadError c m (s := s.setClient c {s.clients c with reply := false})).frame.clients c
    rw [heq]
    cases hu : ((uploadError c m (s.setClient c {s.clients c with reply := false})).1.clients c).reply
    · rfl
    · exact absurd (hk.upload hu).1 (by simp)

/-- What Qt does to a reply does not matter once the client has forgotten it. -/
theorem frame_forget {c : ClientId} {v : Client} {t : State} (hv : v.item = (s.clients c).item)
    (h : Frame (s.setClient c v) t) (ht : (t.clients c).reply = false) : Frame s t where
  __ := h
  clients c' := by
    rcases eq_or_ne c' c with rfl | hc
    · refine .of_idle ?_ ht
      rw [(h.clients c').item]
      simpa using hv
    · simpa [hc] using h.clients c'

theorem cancel_reply (c : ClientId) (h : (s.clients c).reply = true) :
    cancel c s =
      ((handleError c abortMessage
          (s.setClient c {s.clients c with clientState := .aborting, network := .failed})).1,
        (handleError c abortMessage
          (s.setClient c {s.clients c with clientState := .aborting, network := .failed})).2 ++
            [.aborted c, .cancelled c]) := by
  simp [cancel, h, State.setClient]

theorem cancel_idle (c : ClientId) (h : (s.clients c).reply = false) :
    cancel c s = handleFinished c noAnswer (s.setClient c {s.clients c with clientState := .aborting}) := by
  simp [cancel, h]

theorem minor_cancel (c : ClientId) (hc : c < s.nextClient) : Minor s (cancel c s) := by
  cases hr : (s.clients c).reply with
  | false =>
    rw [cancel_idle c hr]
    exact Minor.after (t := s.setClient c {s.clients c with clientState := .aborting})
      (.setClient (.of_idle rfl hr)) (minor_handleFinished c noAnswer (by simpa using hr))
  | true =>
    rw [cancel_reply c hr]
    have hm := minor_handleError c abortMessage
      (s := s.setClient c {s.clients c with clientState := .aborting, network := .failed})
    have hgone := handleError_reply c abortMessage
      (s := s.setClient c {s.clients c with clientState := .aborting, network := .failed}) (by simp)
    refine Minor.append ⟨frame_forget ?_ hm.frame hgone, hm.tame⟩ ?_
    · rfl
    · have hidle : (handleError c abortMessage
          (s.setClient c {s.clients c with clientState := .aborting, network := .failed})).1.Idle c :=
        ⟨hm.frame.nextClient ▸ hc, hgone⟩
      simpa [Call.Tame] using hidle

theorem minor_aborted (c : ClientId) (h : (s.clients c).reply = false) : Minor s (aborted c s) := by
  refine Minor.after (t := s.setClient c {s.clients c with network := .finished}) (.setClient ?_) ?_
  · exact .of_idle rfl h
  · exact minor_handleFinished c noAnswer (by simpa using h)

theorem minor_cancelled (c : ClientId) : Minor s (cancelled c s) := by
  refine Minor.after (t := s.setClient c {s.clients c with reply := false}) (.setClient ?_) ?_
  · exact .of_idle rfl rfl
  · exact minor_handleFinished c noAnswer (by simp)

theorem removeFile_clients (path : Path) : (removeFile path s).clients = s.clients := by
  unfold removeFile
  split <;> rfl

theorem removeFile_nextClient (path : Path) : (removeFile path s).nextClient = s.nextClient := by
  unfold removeFile
  split <;> rfl

theorem removeFile_files (path : Path) : (removeFile path s).files path = none := by
  unfold removeFile
  split
  · assumption
  · simp [State.emit]

theorem removeFile_files_ne {path path' : Path} (h : path' ≠ path) :
    (removeFile path s).files path' = s.files path' := by
  unfold removeFile
  split
  · rfl
  · simp [State.emit, h]

theorem removeFile_setClient (path : Path) (c : ClientId) (v : Client) :
    removeFile path (s.setClient c v) = (removeFile path s).setClient c v := by
  unfold removeFile
  cases h : s.files path <;> simp [h, State.setClient, State.emit]

/-- The end of a reply: the client forgets it, and a reply that was still there
takes its file along. -/
theorem handleFinished_cases (c : ClientId) (answer : ServerReply) :
    ∃ t, Frame s t ∧ (t.clients c).reply = false ∧ (handleFinished c answer s = finished c t ∨
      (s.clients c).reply = true ∧
        handleFinished c answer s = finished c (removeFile (s.clients c).currentFile t)) := by
  cases hr : (s.clients c).reply with
  | false =>
    refine ⟨_, .setClient ?_, ?_, .inl (handleFinished_idle c answer hr)⟩
    · exact .of_idle rfl hr
    · simpa using hr
  | true =>
    have hstop : Frame s (s.setClient c {s.clients c with connectionTimeout := false}) :=
      .setClient ⟨rfl, fun h => ⟨h, rfl, rfl, rfl⟩⟩
    have hparse := frame_parseReply c answer (s := s.setClient c {s.clients c with connectionTimeout := false})
    have hu := hstop.trans hparse
    generalize hpu : parseReply c answer
      (s.setClient c {s.clients c with connectionTimeout := false}) = u at hu
    have hclients : u.clients = (s.setClient c {s.clients c with connectionTimeout := false}).clients := by
      rw [← hpu, parseReply]
      repeat' split
      all_goals rfl
    have hend : handleFinished c answer s = finished c
        ((if (u.clients c).deleteFileFlag then removeFile (u.clients c).currentFile u else u).setClient c
          {(if (u.clients c).deleteFileFlag then removeFile (u.clients c).currentFile u
            else u).clients c with reply := false, clientState := .init}) := by
      subst hpu
      unfold handleFinished
      dsimp only
      rw [if_pos (by simpa using hr)]
    have hfile : (u.clients c).currentFile = (s.clients c).currentFile := by simp [hclients]
    refine ⟨_, hu.trans (.setClient (c := c)
      (v := {u.clients c with reply := false, clientState := .init}) ?_), ?_, ?_⟩
    · exact .of_idle rfl rfl
    · simp
    · rw [hend, hfile]
      split
      · exact .inr ⟨rfl, by rw [removeFile_setClient, removeFile_clients]⟩
      · exact .inl rfl

theorem frame_handleUploadProgress (c : ClientId) (sent total : Int) :
    Frame s (handleUploadProgress c sent total s) := by
  have h1 : Frame s (s.setClient c {s.clients c with connectionTimeout := false}) :=
    .setClient ⟨rfl, fun h => ⟨h, rfl, rfl, rfl⟩⟩
  unfold handleUploadProgress
  dsimp only
  refine h1.trans ?_
  split
  · exact .refl _
  · split
    · split
      · refine .trans (.setClient ?_) (.emit rfl)
        exact ⟨rfl, fun h => ⟨h, rfl, rfl, rfl⟩⟩
      · exact .emit rfl
    · split
      · exact .setClient ⟨rfl, fun h => ⟨h, rfl, rfl, rfl⟩⟩
      · exact .refl _

theorem frame_handleSslErrors (c : ClientId) : Frame s (handleSslErrors c s) := by
  unfold handleSslErrors
  split
  · exact .refl s
  · exact .emit rfl

end HttpClient

namespace UploadItem

theorem minor_cancel (i : ItemId) (ho : s.Owned) : Minor s (cancel i s) := by
  have hset : Frame s (setStatus i .cancelled s) := frame_setStatus i _
  unfold cancel
  cases hh : ((setStatus i .cancelled s).items i).http with
  | none =>
    have hm : Minor s (setStatus i .cancelled s, []) := .of_frame hset
    simp only [hh]
    split
    · exact hm.append (tame_uploadFinishedCalls i _ _)
    · exact hm
  | some c =>
    have hm : Minor s (HttpClient.cancel c (setStatus i .cancelled s)) :=
      .after hset (HttpClient.minor_cancel c (hset.owned ho i c hh).1)
    simp only [hh]
    split
    · exact hm.append (tame_uploadFinishedCalls i _ _)
    · exact hm

end UploadItem

/-! ### The queue, the session and the engine -/

namespace UploadQueue

theorem frame_clear : Frame s (clear s) := by
  unfold clear
  split
  · refine .trans (t := s.setQueue {s.queue with uploadQueue := []}) (.setQueue rfl (.inr rfl)) ?_
    refine .trans (t := {s.setQueue {s.queue with uploadQueue := []} with
      items := fun i => if i ∈ s.queue.uploadQueue then {s.items i with alive := false}
        else s.items i}) ?_ (.emit rfl)
    refine {Frame.refl (s.setQueue {s.queue with uploadQueue := []}) with
      filepath := fun i => ?_, http := fun i => ?_}
    · dsimp only [State.setQueue]
      split <;> rfl
    · dsimp only [State.setQueue]
      split <;> rfl
  · exact .refl s

theorem frame_itemEnqueued : Frame s (itemEnqueued s) := .setQueue rfl (.inl rfl)

/-- The end of an item ends the batch, or hands out the next item. -/
theorem itemFinished_cases (i : ItemId) :
    Minor s (itemFinished i s) ∨ ∃ t, Frame s t ∧ itemFinished i s = emitNextItem t := by
  unfold itemFinished
  dsimp only
  split
  · refine .inl ⟨?_, fun k hk => ?_⟩
    · refine (Frame.post _).trans (.trans (.setQueue ?_ (.inl ?_)) (.emit rfl)) <;> rfl
    · obtain ⟨e, _, rfl⟩ := List.mem_map.mp hk
      trivial
  · exact .inr ⟨_, .post _, rfl⟩

end UploadQueue

theorem UploadQueue.enqueueNew_nextItem (path : Path) :
    (enqueueNew path s).1.nextItem = s.nextItem + 1 := by
  unfold enqueueNew enqueue emitNextItem
  dsimp only
  split
  · split <;> rfl
  · rfl

namespace NwSessionMgr

theorem frame_setSession (e : EngineId) (session : Option Session) :
    Frame s (setSession e session s) := .setEngine (.of_eq rfl rfl) rfl

theorem frame_close (e : EngineId) : Frame s (close e s) := by
  unfold close
  split
  · exact .refl s
  · exact frame_setSession e _

end NwSessionMgr

namespace UploadEngine

theorem frame_stateChange (e : EngineId) {next : EngineState} (h : next ≠ .connecting) :
    Frame s (stateChange e next s) := .setEngine (.of_state h) rfl

theorem frame_setErrorString (e : EngineId) (m : Option String) : Frame s (setErrorString e m s) := by
  unfold setErrorString
  split
  · exact .setEngine (.of_eq rfl rfl) rfl
  · exact .refl s

theorem frame_setErrorType (e : EngineId) (type : ErrorType) : Frame s (setErrorType e type s) := by
  unfold setErrorType
  split
  · exact .setEngine (.of_eq rfl rfl) rfl
  · exact .refl s

theorem minor_emitFinished (e : EngineId) (error : ErrorType) (sent total : Nat) :
    Minor s (emitFinished e error sent total s) := by
  refine ⟨.trans (.setEngine ?_ ?_) (.emit rfl), fun k hk => ?_⟩
  · exact .of_eq rfl rfl
  · rfl
  · rw [List.mem_singleton.mp hk]
    trivial

theorem minor_queueDone (e : EngineId) : Minor s (queueDone e s) := by
  unfold queueDone
  dsimp only
  split
  · exact .after ((frame_stateChange e (by decide)).trans (NwSessionMgr.frame_close e))
      (minor_emitFinished e _ _ _)
  · exact minor_emitFinished e _ _ _

/-- The slot for uploadFinished() passes on to markDone(). -/
theorem uploadFinished_markDone (e : EngineId) (i : ItemId) :
    ∃ t, Frame s t ∧ uploadFinished e i s = UploadItem.markDone i t := by
  have hfail : Frame s (setErrorString e (s.items i).errorString (setErrorType e .protocolError s)) :=
    (frame_setErrorType e _).trans (frame_setErrorString e _)
  unfold uploadFinished
  dsimp only
  split
  · exact ⟨_, hfail, rfl⟩
  · split
    · split
      · exact ⟨_, (hfail.trans (frame_stateChange e (by decide))).trans UploadQueue.frame_clear, rfl⟩
      · exact ⟨_, hfail.trans UploadQueue.frame_clear, rfl⟩
    · refine ⟨_, .setEngine ?_ ?_, rfl⟩
      · exact .of_eq rfl rfl
      · rfl

theorem uploadFinished_cases (e : EngineId) (i : ItemId) :
    Minor s (uploadFinished e i s) ∨
      ∃ t, Frame s t ∧ uploadFinished e i s = UploadQueue.emitNextItem t := by
  obtain ⟨t, ht, heq⟩ := uploadFinished_markDone (s := s) e i
  have hdone : Frame s (t.emit (.itemDone i)) := ht.trans (.emit rfl)
  rw [heq]
  rcases UploadQueue.itemFinished_cases (s := t.emit (.itemDone i)) i with hm | ⟨u, hu, hn⟩
  · exact .inl (.after hdone hm)
  · exact .inr ⟨u, hdone.trans hu, hn⟩

theorem minor_cancelCurrent (e : EngineId) (ho : s.Owned) : Minor s (cancelCurrent e s) := by
  unfold cancelCurrent
  split
  · exact .of_frame (.refl s)
  · split
    · exact UploadItem.minor_cancel _ ho
    · exact .of_frame (.emit rfl)

theorem minor_sessionDisconnected (e : EngineId) (ho : s.Owned) :
    Minor s (sessionDisconnected e s) := by
  have hs : Frame s (stateChange e .noConnection s) := frame_stateChange e (by decide)
  have herr (type : ErrorType) : Frame s (setErrorType e type (stateChange e .noConnection s)) :=
    hs.trans (frame_setErrorType e type)
  unfold sessionDisconnected
  dsimp only
  split
  · exact .after (herr _) (minor_cancelCurrent e ((herr _).owned ho))
  · exact .after (herr _) (minor_cancelCurrent e ((herr _).owned ho))
  · exact .of_frame hs

theorem minor_connectionError (e : EngineId) (m : String) (ho : s.Owned) :
    Minor s (connectionError e m s) :=
  .after (frame_setErrorString e _) (minor_sessionDisconnected e ((frame_setErrorString e _).owned ho))

end UploadEngine

theorem AutoUploader.frame_filesAdded (files : Nat) : Frame s (filesAdded files s) := by
  unfold filesAdded
  dsimp only
  split
  · exact .trans (.emit rfl) (.emit rfl)
  · exact .emit rfl

theorem AutoUploader.frame_notifyFinished (sent total : Nat) :
    Frame s (notifyFinished sent total s) := by
  have hcount (t : State) (n : Nat) : Frame t {t with uploadSuccessCount := n} := {Frame.refl t with }
  have hfail : Frame s (if total > sent then s.emit (.failureNotified (total - sent)) else s) := by
    split
    · exact .emit rfl
    · exact .refl s
  unfold notifyFinished
  split
  · dsimp only
    split
    · exact hfail.trans (.trans (.emit rfl) (hcount _ _))
    · exact hfail.trans (hcount _ _)
  · exact .refl s

/-! ### The start of an upload -/

/-- `startUpload` when the file can be read: the PUT is sent. -/
theorem UploadItem.startUpload_sent (i : ItemId) {body : Content}
    (h : HttpClient.createPutRequest (s.items i).filepath s = some body) :
    startUpload i s = ({s with
      clients := Function.update s.clients s.nextClient
        { item := i, currentFile := (s.items i).filepath, clientState := .connecting, reply := true,
          deleteFileFlag := true, connectionTimeout := true, network := .running, body := body,
          connected := true }
      nextClient := s.nextClient + 1
      items := Function.update s.items i {s.items i with http := some s.nextClient, status := .sending}
      log := .put s.nextClient i (s.items i).filepath body :: .startUpload i :: s.log}, true) := by
  have h' : HttpClient.createPutRequest (s.items i).filepath
      {s with
        clients := Function.update s.clients s.nextClient
          { item := i, currentFile := (s.items i).filepath, clientState := .init, reply := false,
            deleteFileFlag := true, connectionTimeout := false, network := .absent, body := [],
            connected := true }
        nextClient := s.nextClient + 1
        items := Function.update s.items i {s.items i with http := some s.nextClient}
        log := .startUpload i :: s.log} = some body := h
  simp [startUpload, newHttp, HttpClient.init, HttpClient.createRequest, setStatus, State.setClient,
    State.setItem, State.emit, h']

/-- `startUpload` when the file is missing or cannot be read: nothing is sent. -/
theorem UploadItem.startUpload_failed (i : ItemId)
    (h : HttpClient.createPutRequest (s.items i).filepath s = none) :
    startUpload i s = ({s with
      clients := Function.update s.clients s.nextClient
        { item := i, currentFile := (s.items i).filepath, clientState := .init, reply := false,
          deleteFileFlag := true, connectionTimeout := false, network := .absent, body := [],
          connected := true }
      nextClient := s.nextClient + 1
      items := Function.update s.items i {s.items i with http := some s.nextClient, status := .error}
      log := .startUpload i :: s.log}, false) := by
  have h' : HttpClient.createPutRequest (s.items i).filepath
      {s with
        clients := Function.update s.clients s.nextClient
          { item := i, currentFile := (s.items i).filepath, clientState := .init, reply := false,
            deleteFileFlag := true, connectionTimeout := false, network := .absent, body := [],
            connected := true }
        nextClient := s.nextClient + 1
        items := Function.update s.items i {s.items i with http := some s.nextClient}
        log := .startUpload i :: s.log} = none := h
  simp [startUpload, newHttp, HttpClient.init, HttpClient.createRequest, setStatus, State.setClient,
    State.setItem, State.emit, h']

theorem UploadItem.startUpload_files (i : ItemId) : (startUpload i s).1.files = s.files := by
  cases hb : HttpClient.createPutRequest (s.items i).filepath s with
  | none => rw [startUpload_failed i hb]
  | some body => rw [startUpload_sent i hb]

theorem UploadItem.startUpload_idle (i : ItemId) {c : ClientId} (hc : s.Idle c) :
    (startUpload i s).1.Idle c := by
  have hne : c ≠ s.nextClient := Nat.ne_of_lt hc.1
  cases hb : HttpClient.createPutRequest (s.items i).filepath s with
  | none =>
    rw [startUpload_failed i hb]
    exact ⟨Nat.lt_succ_of_lt hc.1, by simpa [hne] using hc.2⟩
  | some body =>
    rw [startUpload_sent i hb]
    exact ⟨Nat.lt_succ_of_lt hc.1, by simpa [hne] using hc.2⟩

/-- What decides whether `openSession` finds a connection. -/
def NwSessionMgr.ready (e : EngineId) (s : State) : Bool :=
  match (s.engines e).networkSession with
  | none => !s.env.connectionIsActive && s.env.developerModeIsActive
  | some session => session.isOpen

theorem NwSessionMgr.openSession_eq (e : EngineId) (s : State) :
    openSession e s = if ready e s then (s, true, [])
      else (setSession e (some ⟨false, true⟩) s, false, [.sessionOpen e]) := by
  rcases hn : (s.engines e).networkSession with _ | ⟨isOpen, requested⟩
  · simp [openSession, ready, hn]
  · cases isOpen <;> simp [openSession, ready, hn]

/-- The item is connected to the engine and becomes its current one. -/
def UploadEngine.take (e : EngineId) (item : ItemId) (s : State) : State :=
  let s := s.setItem item {s.items item with listeners := (s.items item).listeners ++ [e]}
  stateChange e .connecting (s.setEngine e {s.engines e with currentItem := some item})

theorem UploadEngine.take_eq (e : EngineId) (item : ItemId) (s : State) :
    take e item s = {s with
      items := Function.update s.items item
        {s.items item with listeners := (s.items item).listeners ++ [e]}
      engines := Function.update s.engines e
        {s.engines e with state := .connecting, currentItem := some item}} := by
  simp [take, stateChange, State.setEngine, State.setItem]

/-- A new item waits for a session, or its upload starts at once. -/
theorem UploadEngine.uploadItem_eq (e : EngineId) (item : ItemId) (s : State) :
    uploadItem e item s =
      if NwSessionMgr.ready e s then
        ((UploadItem.startUpload item (stateChange e .connected (take e item s))).1, [])
      else (NwSessionMgr.setSession e (some ⟨false, true⟩) (take e item s), [.sessionOpen e]) := by
  have hr : NwSessionMgr.ready e (take e item s) = NwSessionMgr.ready e s := by
    simp [take_eq, NwSessionMgr.ready]
  have hopen := NwSessionMgr.openSession_eq e (take e item s)
  rw [hr] at hopen
  unfold take at hopen
  unfold uploadItem
  dsimp only at hopen ⊢
  rw [hopen]
  cases NwSessionMgr.ready e s <;> rfl

theorem AutoUploader.activate_new (h : s.uploader.activated = false) : activate s = {s with
    engines := Function.update s.engines s.nextEngine
      { state := .noConnection, currentItem := none, errorMessage := none, error := .noError,
        sentFiles := 0, networkSession := none, reported := true }
    nextEngine := s.nextEngine + 1
    queue := {s.queue with engines := s.queue.engines ++ [s.nextEngine]}
    uploader := {s.uploader with engine := some s.nextEngine, activated := true}} := by
  simp [activate, h, UploadEngine.newEngine, State.setUploader, State.setEngine]

theorem AutoUploader.activate_active (h : s.uploader.activated = true) : activate s = s := by
  simp [activate, h]

/-! ### Calls and events within the frame -/

/-- A tame call stays within the frame, hands out the next item, or reports the end
of a batch to the uploader. -/
theorem exec_tame {k : Call} (hk : k.Tame s) (ho : s.Owned) :
    Minor s (exec k s) ∨ (∃ t, Frame s t ∧ exec k s = UploadQueue.emitNextItem t) ∨
      ∃ e error sent total, k = .finished e error sent total ∧
        exec k s = AutoUploader.engineFinished error sent total s := by
  cases k with
  | uploadFinished e i => exact (UploadEngine.uploadFinished_cases e i).imp id .inl
  | queueDone e => exact .inl (UploadEngine.minor_queueDone e)
  | finished e error sent total =>
    by_cases hr : (s.engines e).reported = true
    · exact .inr (.inr ⟨e, error, sent, total, rfl, by simp [exec, hr]⟩)
    · have hn : exec (.finished e error sent total) s = (s, []) := by simp [exec, hr]
      exact .inl (hn ▸ .of_frame (.refl s))
  | sessionOpen e => exact .inl (.of_frame (.refl s))
  | sessionGone e => exact .inl (.of_frame (NwSessionMgr.frame_setSession e none))
  | aborted c => exact .inl (HttpClient.minor_aborted c hk.2)
  | cancelled c => exact .inl (HttpClient.minor_cancelled c)
  | itemEnqueued => exact .inl (.of_frame UploadQueue.frame_itemEnqueued)
  | filesAdded files => exact .inl (.of_frame (AutoUploader.frame_filesAdded files))
  | cancelAll e => exact .inl (UploadEngine.minor_cancelCurrent e ho)
  | exited => exact .inl ⟨.refl s, fun k hk => by rw [List.mem_singleton.mp hk]; trivial⟩
  | uploadItem | addFile | fileAdded | quitTail => exact hk.elim

/-- Events that at most end an upload without success. -/
def Event.plain (s : State) : Event → Bool
  | .cancelAll _ | .callUploadFiles .. | .callQuit | .replyError .. | .uploadProgress ..
  | .sslErrors _ | .timeout _ => true
  | .session _ signal => signal ≠ .opened
  | .replyFinished c _ => (s.clients c).network ≠ .running
  | _ => false

theorem deliverReply_some {c : ClientId} {possible : Bool} {slot r : State × List Call}
    (h : deliverReply c s possible slot = some r) :
    s.clientAlive c = true ∧ possible = true ∧ r = slot := by
  simp only [deliverReply, Option.ite_none_right_eq_some, Bool.and_eq_true, Option.some.injEq] at h
  exact ⟨h.1.1, h.1.2, h.2.symm⟩

theorem deliver_plain {ev : Event} {r : State × List Call} (hp : ev.plain s = true) (ho : s.Owned)
    (hsent : ∀ c, (s.clients c).reply = true → (s.clients c).network = .running)
    (h : deliver ev s = some r) : Minor s r := by
  cases ev with
  | cancelAll e =>
    cases h
    exact UploadEngine.minor_cancelCurrent e ho
  | callUploadFiles | callQuit =>
    cases h
    exact .of_frame (.post _)
  | session e signal =>
    simp only [deliver, Option.ite_none_right_eq_some, Option.some.injEq] at h
    obtain ⟨-, rfl⟩ := h
    have hset (session : Option Session) : Frame s (NwSessionMgr.setSession e session s) :=
      NwSessionMgr.frame_setSession e session
    cases signal with
    | opened => simp [Event.plain] at hp
    | error m isOpen =>
      exact .after (hset _) (UploadEngine.minor_connectionError e m ((hset _).owned ho))
    | disconnected =>
      have hm := Minor.after (hset (some ⟨false, false⟩))
        (UploadEngine.minor_sessionDisconnected e ((hset _).owned ho))
      exact hm.append fun k hk => by rw [List.mem_singleton.mp hk]; trivial
  | replyError c m =>
    obtain ⟨-, -, rfl⟩ := deliverReply_some h
    have hm := HttpClient.minor_handleError c m (s := s.setClient c {s.clients c with network := .failed})
    refine ⟨HttpClient.frame_forget ?_ hm.frame ?_, hm.tame⟩
    · rfl
    · exact HttpClient.handleError_reply c m (by simp)
  | replyFinished c answer =>
    obtain ⟨-, -, rfl⟩ := deliverReply_some h
    have hn : (s.clients c).network ≠ .running := by simpa [Event.plain] using hp
    have hr : (s.clients c).reply = false := by
      cases hr : (s.clients c).reply
      · rfl
      · exact absurd (hsent c hr) hn
    rw [if_neg hn]
    refine Minor.after (t := s.setClient c {s.clients c with network := .finished}) (.setClient ?_) ?_
    · exact .of_idle rfl hr
    · exact HttpClient.minor_handleFinished c answer (by simpa using hr)
  | uploadProgress c =>
    obtain ⟨-, -, rfl⟩ := deliverReply_some h
    exact .of_frame (HttpClient.frame_handleUploadProgress c _ _)
  | sslErrors c =>
    obtain ⟨-, -, rfl⟩ := deliverReply_some h
    exact .of_frame (HttpClient.frame_handleSslErrors c)
  | timeout c =>
    obtain ⟨ha, -, rfl⟩ := deliverReply_some h
    simp only [State.clientAlive, Bool.and_eq_true, decide_eq_true_eq] at ha
    exact HttpClient.minor_cancel c ha.1
  | enqueue | dispatch | quitTimer | exit | environment | file | coreLocations => simp [Event.plain] at hp

end CrashReporter.Upload
