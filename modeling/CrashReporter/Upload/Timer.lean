import CrashReporter.Upload.InFlight

/-! What the connection timer can cancel.

A client starts its timer with the PUT, and stops it when the first progress of the upload
is reported and when the upload is over. In between its owner may cancel, which leaves the
timer running until abort() has reported the end of the reply. -/
namespace CrashReporter.Upload
open Reactor

variable {s t : State} {c : ClientId} {calls calls' : List Call}

/-- A percentage has been reported of the upload. -/
def State.Progressed (s : State) (c : ClientId) : Prop := ∃ done, .updateProgress c done ∈ s.log

/-- The timer is right, unless the upload is being aborted. -/
structure Timed (s : State) (calls : List Call) : Prop where
  unused : ∀ c, s.nextClient ≤ c → ¬ s.Progressed c
  answered : ∀ c, (s.clients c).network = .running → (s.clients c).reply = true ∧
    ((s.clients c).clientState = .connecting ∨ (s.clients c).clientState = .sending)
  unsent : ∀ c, (s.clients c).clientState = .connecting → ¬ s.Progressed c
  timer : ∀ c, .aborted c ∈ calls ∨
    ((s.clients c).connectionTimeout = true ↔ (s.clients c).clientState = .connecting)

/-- No client does anything, and no progress is reported. -/
structure Steady (s t : State) : Prop where
  clients : ∀ c, ∃ connected, t.clients c = {s.clients c with connected := connected}
  nextClient : t.nextClient = s.nextClient
  progress : ∀ c, t.Progressed c → s.Progressed c

namespace Steady

theorem refl (s : State) : Steady s s := ⟨fun _ => ⟨_, rfl⟩, rfl, fun _ => id⟩

theorem trans {u : State} (h : Steady s t) (h' : Steady t u) : Steady s u where
  clients c := by
    obtain ⟨_, ht⟩ := h.clients c
    obtain ⟨connected, hu⟩ := h'.clients c
    exact ⟨connected, by rw [hu, ht]⟩
  nextClient := h'.nextClient.trans h.nextClient
  progress c hc := h.progress c (h'.progress c hc)

/-- Steps that do not touch the clients. -/
theorem of_clients (h : t.clients = s.clients) (hn : t.nextClient = s.nextClient)
    (hl : ∀ c, t.Progressed c → s.Progressed c) : Steady s t :=
  ⟨fun c => ⟨(s.clients c).connected, by rw [h]⟩, hn, hl⟩

/-- Everything but the clients and the log. -/
theorem of_log (h : t.clients = s.clients) (hn : t.nextClient = s.nextClient) (hl : t.log = s.log) :
    Steady s t := by
  refine of_clients h hn fun c hc => ?_
  rwa [State.Progressed, hl] at hc

/-- One output that is not of progress. -/
theorem of_cons {o : Output} (h : t.clients = s.clients) (hn : t.nextClient = s.nextClient)
    (hl : t.log = o :: s.log) (ho : ∀ c done, o ≠ .updateProgress c done) : Steady s t := by
  refine of_clients h hn fun c hc => ?_
  obtain ⟨done, hc⟩ := hc
  rw [hl] at hc
  exact ⟨done, (List.mem_cons.mp hc).resolve_left (Ne.symm (ho c done))⟩

theorem emit {o : Output} (h : ∀ c done, o ≠ .updateProgress c done) : Steady s (s.emit o) :=
  of_cons rfl rfl rfl h

end Steady

namespace Timed

theorem mono (h : Timed s calls) (hsub : ∀ c, .aborted c ∈ calls → .aborted c ∈ calls') : Timed s calls' where
  unused := h.unused
  answered := h.answered
  unsent := h.unsent
  timer c := (h.timer c).imp_left (hsub c)

theorem append (h : Timed s calls) (new : List Call) : Timed s (new ++ calls) :=
  h.mono fun _ hc => List.mem_append_right _ hc

theorem steady (h : Timed s calls) (hst : Steady s t) : Timed t calls where
  unused c hc hp := h.unused c (hst.nextClient ▸ hc) (hst.progress c hp)
  answered c := by
    obtain ⟨_, ht⟩ := hst.clients c
    rw [ht]
    exact h.answered c
  unsent c hs hp := by
    obtain ⟨_, ht⟩ := hst.clients c
    rw [ht] at hs
    exact h.unsent c hs (hst.progress c hp)
  timer c := by
    obtain ⟨_, ht⟩ := hst.clients c
    rw [ht]
    exact h.timer c

/-- What a client may do: it does not go back to Connecting. -/
theorem setClient (h : Timed s calls) {v : Client}
    (hsub : ∀ c' ≠ c, .aborted c' ∈ calls → .aborted c' ∈ calls')
    (hanswered : v.network = .running →
      v.reply = true ∧ (v.clientState = .connecting ∨ v.clientState = .sending))
    (hunsent : v.clientState = .connecting → (s.clients c).clientState = .connecting)
    (htimer : .aborted c ∈ calls' ∨ (v.connectionTimeout = true ↔ v.clientState = .connecting)) :
    Timed (s.setClient c v) calls' where
  unused := h.unused
  answered c' := by
    rcases eq_or_ne c' c with rfl | hne
    · simpa using hanswered
    · rw [State.setClient_clients, Function.update_of_ne hne]
      exact h.answered c'
  unsent c' := by
    rcases eq_or_ne c' c with rfl | hne
    · rw [State.setClient_clients, Function.update_self]
      exact fun hs => h.unsent c' (hunsent hs)
    · rw [State.setClient_clients, Function.update_of_ne hne]
      exact h.unsent c'
  timer c' := by
    rcases eq_or_ne c' c with rfl | hne
    · simpa using htimer
    · rw [State.setClient_clients, Function.update_of_ne hne]
      exact (h.timer c').imp_left (hsub c' hne)

/-- Progress of a client that has got past Connecting. -/
theorem progress (h : Timed s calls) (hc : c < s.nextClient) (hs : (s.clients c).clientState ≠ .connecting)
    (done : Int) : Timed (s.emit (.updateProgress c done)) calls := by
  have hold {c' : ClientId} (hne : c' ≠ c) (hp : (s.emit (.updateProgress c done)).Progressed c') :
      s.Progressed c' := by
    obtain ⟨done', hp⟩ := hp
    exact ⟨done', (List.mem_cons.mp hp).resolve_left fun he => hne (Output.updateProgress.inj he).1⟩
  refine ⟨fun c' hc' hp => h.unused c' hc' (hold ?_ hp), h.answered,
    fun c' hs' hp => h.unsent c' hs' (hold ?_ hp), h.timer⟩
  · exact fun he => absurd hc (by simpa [he] using hc')
  · exact fun he => hs (he ▸ hs')

/-- A client that nobody knew of. -/
theorem newClient (h : Timed s calls) {v : Client} (hclients : t.clients = Function.update s.clients s.nextClient v)
    (hnext : t.nextClient = s.nextClient + 1) (hprogress : ∀ c, t.Progressed c → s.Progressed c)
    (hanswered : v.network = .running →
      v.reply = true ∧ (v.clientState = .connecting ∨ v.clientState = .sending))
    (htimer : v.connectionTimeout = true ↔ v.clientState = .connecting) : Timed t calls where
  unused c hc hp := h.unused c (Nat.le_of_succ_le (hnext.symm.le.trans hc)) (hprogress c hp)
  answered c := by
    rw [hclients]
    rcases eq_or_ne c s.nextClient with rfl | hne
    · rwa [Function.update_self]
    · rw [Function.update_of_ne hne]
      exact h.answered c
  unsent c hs hp := by
    rw [hclients] at hs
    rcases eq_or_ne c s.nextClient with rfl | hne
    · exact h.unused _ (Nat.le_refl _) (hprogress _ hp)
    · rw [Function.update_of_ne hne] at hs
      exact h.unsent c hs (hprogress c hp)
  timer c := by
    rw [hclients]
    rcases eq_or_ne c s.nextClient with rfl | hne
    · rw [Function.update_self]
      exact .inr htimer
    · rw [Function.update_of_ne hne]
      exact h.timer c

end Timed

/-! ### The client -/

namespace Steady

theorem disconnectHttp (i : ItemId) : Steady s (UploadItem.disconnectHttp i s) := by
  unfold UploadItem.disconnectHttp
  split
  · exact refl s
  · rename_i c _
    refine ⟨fun c' => ?_, rfl, fun _ => id⟩
    rcases eq_or_ne c' c with rfl | hne
    · exact ⟨false, by simp⟩
    · exact ⟨(s.clients c').connected, by simp [hne]⟩

theorem itemError (i : ItemId) (m : String) : Steady s (UploadItem.uploadError i m s).1 := by
  unfold UploadItem.uploadError
  dsimp only
  refine (disconnectHttp i).trans ?_
  split <;> exact of_log rfl rfl rfl

theorem clientError (c : ClientId) (m : String) : Steady s (HttpClient.uploadError c m s).1 := by
  have hemit : Steady s (s.emit (.clientError c m)) := emit nofun
  unfold HttpClient.uploadError
  dsimp only
  split
  · exact hemit.trans (itemError _ m)
  · exact hemit

theorem finished (c : ClientId) : Steady s (HttpClient.finished c s).1 := by
  have hemit : Steady s (s.emit (.clientFinished c)) := emit nofun
  unfold HttpClient.finished
  dsimp only
  split
  · exact hemit.trans (of_log rfl rfl rfl)
  · exact hemit

theorem parseReply (c : ClientId) (answer : ServerReply) : Steady s (HttpClient.parseReply c answer s) := by
  unfold HttpClient.parseReply
  repeat' split
  all_goals first | exact refl s | exact emit nofun

theorem removeFile (path : Path) : Steady s (HttpClient.removeFile path s) := by
  unfold HttpClient.removeFile
  split
  · exact refl s
  · exact of_cons rfl rfl rfl nofun

end Steady

namespace Timed

/-- The end of an upload stops the timer, whatever the client was doing. -/
theorem handleFinished (h : Timed s (.aborted c :: calls)) (hn : (s.clients c).network ≠ .running)
    (answer : ServerReply) : Timed (HttpClient.handleFinished c answer s).1 calls := by
  have hstop : Timed (s.setClient c {s.clients c with connectionTimeout := false}) (.aborted c :: calls) :=
    h.setClient (fun _ _ => id) (h.answered c) id (.inl (List.mem_cons_self ..))
  have hend {u : State} (hu : Steady (s.setClient c {s.clients c with connectionTimeout := false}) u) :
      Timed (HttpClient.finished c (u.setClient c {u.clients c with reply := false, clientState := .init})).1
        calls := by
    obtain ⟨_, hc⟩ := hu.clients c
    rw [State.setClient_clients, Function.update_self] at hc
    refine Timed.steady ((hstop.steady hu).setClient ?_ ?_ ?_ (.inr ?_)) (.finished c)
    · exact fun c' hne hmem => (List.mem_cons.mp hmem).resolve_left fun he => hne (Call.aborted.inj he)
    · rw [hc]
      exact fun hr => absurd hr hn
    · exact nofun
    · simp [hc]
  unfold HttpClient.handleFinished
  dsimp only
  split
  · split
    · exact hend ((Steady.parseReply c answer).trans (.removeFile _))
    · exact hend (.parseReply c answer)
  · exact hend (.refl _)

theorem handleError (h : Timed s calls) (hn : (s.clients c).network = .failed) (m : String) :
    Timed (HttpClient.handleError c m s).1 calls := by
  unfold HttpClient.handleError
  split
  · have hforget : Timed (s.setClient c {s.clients c with reply := false}) calls := by
      refine h.setClient (fun _ _ => id) ?_ id (h.timer c)
      simp [hn]
    exact hforget.steady (.clientError c m)
  · exact h

/-- A reply that is there is aborted, and reports its end. -/
theorem cancel (h : Timed s calls) (c : ClientId) :
    Timed (HttpClient.cancel c s).1 ((HttpClient.cancel c s).2 ++ calls) := by
  have hweak : Timed s (.aborted c :: calls) := h.append [_]
  cases hr : (s.clients c).reply with
  | false =>
    have hn : (s.clients c).network ≠ .running := fun hn => absurd (h.answered c hn).1 (by simp [hr])
    rw [HttpClient.cancel_idle c hr]
    have haborting : Timed (s.setClient c {s.clients c with clientState := .aborting}) (.aborted c :: calls) := by
      refine hweak.setClient (fun _ _ => id) ?_ nofun (.inl (List.mem_cons_self ..))
      exact fun hnr => absurd hnr hn
    exact (haborting.handleFinished (by simpa using hn) _).append _
  | true =>
    rw [HttpClient.cancel_reply c hr]
    have haborting : Timed (s.setClient c {s.clients c with clientState := .aborting, network := .failed})
        (.aborted c :: calls) := hweak.setClient (fun _ _ => id) nofun nofun (.inl (List.mem_cons_self ..))
    refine (haborting.handleError (c := c) (by simp) _).mono fun c' hc' => ?_
    rcases List.mem_cons.mp hc' with he | hc'
    · simp [he]
    · exact List.mem_append_right _ hc'

/-- The first progress stops the timer for good. -/
theorem handleUploadProgress (h : Timed s calls) (hc : c < s.nextClient) (hn : (s.clients c).network = .running)
    (sent total : Int) : Timed (HttpClient.handleUploadProgress c sent total s) calls := by
  obtain ⟨hreply, -⟩ := h.answered c hn
  have hsending :
      Timed (s.setClient c {s.clients c with connectionTimeout := false, clientState := .sending}) calls := by
    refine h.setClient (fun _ _ => id) (fun _ => ⟨hreply, .inr rfl⟩) nofun (.inr ?_)
    simp
  have heq : HttpClient.handleUploadProgress c sent total s =
      let s := s.setClient c {s.clients c with connectionTimeout := false, clientState := .sending}
      if total ≠ 0 then s.emit (.updateProgress c ((sent * 100).tdiv total)) else s := by
    by_cases hs : (s.clients c).clientState = .sending
    · simp [HttpClient.handleUploadProgress, hreply, hs]
    · simp [HttpClient.handleUploadProgress, hreply, hs, State.setClient]
  rw [heq]
  dsimp only
  split
  · exact hsending.progress hc (by simp) _
  · exact hsending

theorem handleSslErrors (h : Timed s calls) (c : ClientId) : Timed (HttpClient.handleSslErrors c s) calls := by
  unfold HttpClient.handleSslErrors
  split
  · exact h
  · exact h.steady (.emit nofun)

/-- A new client starts its timer when something is sent. -/
theorem startUpload (h : Timed s calls) (i : ItemId) : Timed (UploadItem.startUpload i s).1 calls := by
  cases hb : HttpClient.createPutRequest (s.items i).filepath s with
  | none =>
    rw [UploadItem.startUpload_failed i hb]
    refine h.newClient rfl rfl (fun c hc => ?_) nofun (by simp)
    simpa [State.Progressed] using hc
  | some body =>
    rw [UploadItem.startUpload_sent i hb]
    refine h.newClient rfl rfl (fun c hc => ?_) (fun _ => ⟨rfl, .inl rfl⟩) (by simp)
    simpa [State.Progressed] using hc

end Timed

/-! ### The item, the queue and the engine -/

namespace Steady

theorem emitNextItem : Steady s (UploadQueue.emitNextItem s).1 := by
  unfold UploadQueue.emitNextItem
  split
  · exact emit nofun
  · exact of_cons rfl rfl rfl nofun

theorem enqueueNew (file : Path) : Steady s (UploadQueue.enqueueNew file s).1 := by
  unfold UploadQueue.enqueueNew UploadQueue.enqueue
  dsimp only
  split
  · refine Steady.trans ?_ emitNextItem
    exact of_cons rfl rfl rfl nofun
  · exact of_cons rfl rfl rfl nofun

theorem markDone (i : ItemId) : Steady s (UploadItem.markDone i s).1 := by
  have hdone : Steady s ((s.emit (.itemDone i)).post (.deleteItem i)) := of_cons rfl rfl rfl nofun
  unfold UploadItem.markDone UploadQueue.itemFinished
  dsimp only
  split
  · exact hdone.trans (of_cons rfl rfl rfl nofun)
  · exact hdone.trans emitNextItem

theorem clear : Steady s (UploadQueue.clear s) := by
  unfold UploadQueue.clear
  split
  · exact of_cons rfl rfl rfl nofun
  · exact refl s

theorem setErrorString (e : EngineId) (m : Option String) : Steady s (UploadEngine.setErrorString e m s) := by
  unfold UploadEngine.setErrorString
  split
  · exact of_log rfl rfl rfl
  · exact refl s

theorem setErrorType (e : EngineId) (type : ErrorType) : Steady s (UploadEngine.setErrorType e type s) := by
  unfold UploadEngine.setErrorType
  split
  · exact of_log rfl rfl rfl
  · exact refl s

theorem uploadFinished (e : EngineId) (i : ItemId) : Steady s (UploadEngine.uploadFinished e i s).1 := by
  have hset (m : Option String) :
      Steady s (UploadEngine.setErrorString e m (UploadEngine.setErrorType e .protocolError s)) :=
    (setErrorType e _).trans (setErrorString e m)
  unfold UploadEngine.uploadFinished
  dsimp only
  refine Steady.trans ?_ (markDone i)
  split
  · exact hset _
  · split
    · refine Steady.trans ?_ clear
      split
      · exact (hset _).trans (of_log rfl rfl rfl)
      · exact hset _
    · exact of_log rfl rfl rfl

theorem queueDone (e : EngineId) : Steady s (UploadEngine.queueDone e s).1 := by
  have hclose : Steady s (NwSessionMgr.close e (UploadEngine.stateChange e .closing s)) := by
    unfold NwSessionMgr.close
    split <;> exact of_log rfl rfl rfl
  have hend (t : State) (error : ErrorType) (sent total : Nat) :
      Steady t (UploadEngine.emitFinished e error sent total t).1 := of_cons rfl rfl rfl nofun
  unfold UploadEngine.queueDone
  dsimp only
  split
  · exact hclose.trans (hend _ _ _ _)
  · exact hend _ _ _ _

theorem quitTail : Steady s (AutoUploader.quitTail s) := by
  unfold AutoUploader.quitTail AutoUploader.quitApplication
  split <;> exact of_cons rfl rfl rfl nofun

theorem quit (cause : Quitter) : Steady s (AutoUploader.quit cause s).1 := by
  unfold AutoUploader.quit
  dsimp only
  split
  · exact of_cons rfl rfl rfl nofun
  · split
    · exact of_cons rfl rfl rfl nofun
    · exact (emit (o := .quit cause) nofun).trans quitTail

theorem engineFinished (error : ErrorType) (sent total : Nat) :
    Steady s (AutoUploader.engineFinished error sent total s).1 := by
  have hask : Steady s (AutoUploader.askReason error s) := by
    unfold AutoUploader.askReason
    split
    · exact emit nofun
    · exact refl s
  have hfail (t : State) : Steady t (if total > sent then t.emit (.failureNotified (total - sent)) else t) := by
    split
    · exact emit nofun
    · exact refl t
  have hnotify (t : State) : Steady t (AutoUploader.notifyFinished sent total t) := by
    unfold AutoUploader.notifyFinished
    dsimp only
    split
    · have hu := hfail t
      generalize (if total > sent then t.emit (.failureNotified (total - sent)) else t) = u at hu
      split
      · exact hu.trans (of_cons rfl rfl rfl nofun)
      · exact hu.trans (of_log rfl rfl rfl)
    · exact refl t
  refine (hask.trans (hnotify _)).trans (Steady.trans ?_ (quit .batchEnd))
  exact of_log rfl rfl rfl

theorem uploadFiles (fileList : List Path) (obey : Bool) : Steady s (AutoUploader.uploadFiles fileList obey s).1 := by
  have hactivate : Steady s (AutoUploader.activate s) := by
    unfold AutoUploader.activate
    split
    · exact of_log rfl rfl rfl
    · exact refl s
  unfold AutoUploader.uploadFiles
  dsimp only
  split
  · exact emit nofun
  · split
    · exact hactivate.trans (of_cons rfl rfl rfl nofun)
    · exact hactivate

theorem addFile (path : Path) (obey : Bool) : Steady s (AutoUploader.addFile path obey s).1 := by
  unfold AutoUploader.addFile
  split
  · exact (emit (o := .accepted s.nextItem obey) nofun).trans (enqueueNew path)
  · exact refl s

theorem filesAdded (files : Nat) : Steady s (AutoUploader.filesAdded files s) := by
  unfold AutoUploader.filesAdded
  dsimp only
  split
  · exact (emit (o := .progressNotified files) nofun).trans (emit nofun)
  · exact emit nofun

end Steady

namespace Timed

theorem cancelItem (h : Timed s calls) (i : ItemId) :
    Timed (UploadItem.cancel i s).1 ((UploadItem.cancel i s).2 ++ calls) := by
  have hset : Timed (UploadItem.setStatus i .cancelled s) calls := h.steady (.of_log rfl rfl rfl)
  have hmore {r : State × List Call} (hr : Timed r.1 (r.2 ++ calls)) (new : List Call) :
      Timed r.1 ((r.2 ++ new) ++ calls) := by
    refine hr.mono fun c hc => ?_
    exact (List.mem_append.mp hc).elim (fun hc => List.mem_append_left _ (List.mem_append_left _ hc))
      (List.mem_append_right _)
  unfold UploadItem.cancel
  cases hh : ((UploadItem.setStatus i .cancelled s).items i).http with
  | none =>
    simp only [hh]
    split
    · exact hset.append _
    · exact hset
  | some c =>
    simp only [hh]
    split
    · exact hmore (hset.cancel c) _
    · exact hset.cancel c

theorem cancelCurrent (h : Timed s calls) (e : EngineId) :
    Timed (UploadEngine.cancelCurrent e s).1 ((UploadEngine.cancelCurrent e s).2 ++ calls) := by
  unfold UploadEngine.cancelCurrent
  split
  · exact h
  · split
    · exact h.cancelItem _
    · exact h.steady (.emit nofun)

theorem sessionDisconnected (h : Timed s calls) (e : EngineId) :
    Timed (UploadEngine.sessionDisconnected e s).1 ((UploadEngine.sessionDisconnected e s).2 ++ calls) := by
  have hlost : Timed (UploadEngine.stateChange e .noConnection s) calls := h.steady (.of_log rfl rfl rfl)
  have hset (type : ErrorType) :
      Timed (UploadEngine.setErrorType e type (UploadEngine.stateChange e .noConnection s)) calls :=
    hlost.steady (.setErrorType e type)
  unfold UploadEngine.sessionDisconnected
  dsimp only
  split
  · exact (hset _).cancelCurrent e
  · exact (hset _).cancelCurrent e
  · exact hlost

theorem uploadItem (h : Timed s calls) (e : EngineId) (i : ItemId) :
    Timed (UploadEngine.uploadItem e i s).1 calls := by
  have htake : Timed (UploadEngine.take e i s) calls := by
    rw [UploadEngine.take_eq]
    exact h.steady (.of_log rfl rfl rfl)
  have hset (v : Engine) : Timed ((UploadEngine.take e i s).setEngine e v) calls := htake.steady (.of_log rfl rfl rfl)
  rw [UploadEngine.uploadItem_eq]
  split
  · exact (hset _).startUpload i
  · exact hset _

theorem sessionOpened (h : Timed s calls) (e : EngineId) : Timed (UploadEngine.sessionOpened e s) calls := by
  have hset : Timed (UploadEngine.stateChange e .connected s) calls := h.steady (.of_log rfl rfl rfl)
  unfold UploadEngine.sessionOpened
  split
  · split
    · exact h
    · dsimp only
      split
      · exact hset.startUpload _
      · exact hset.steady (.emit nofun)
  · exact h

/-! ### One step -/

theorem exec {k : Call} {rest : List Call} (h : Timed s (k :: rest)) (hk : k.Spent s) :
    Timed (Upload.exec k s).1 ((Upload.exec k s).2 ++ rest) := by
  have hpop (hk : ∀ c, k ≠ .aborted c) : Timed s rest :=
    h.mono fun c hc => (List.mem_cons.mp hc).resolve_left (Ne.symm (hk c))
  have hsteady (hk : ∀ c, k ≠ .aborted c) (hst : Steady s (Upload.exec k s).1) :
      Timed (Upload.exec k s).1 ((Upload.exec k s).2 ++ rest) := ((hpop hk).steady hst).append _
  cases k with
  | uploadItem e i => exact ((hpop (by simp)).uploadItem e i).append _
  | uploadFinished e i => exact hsteady (by simp) (.uploadFinished e i)
  | queueDone e => exact hsteady (by simp) (.queueDone e)
  | finished e error sent total =>
    refine hsteady (by simp) ?_
    simp only [Upload.exec]
    split
    · exact .engineFinished error sent total
    · exact .refl s
  | sessionOpen | sessionGone | itemEnqueued | fileAdded => exact hsteady (by simp) (.of_log rfl rfl rfl)
  | aborted c =>
    have hreported : Timed (s.setClient c {s.clients c with network := .finished}) (.aborted c :: rest) :=
      h.setClient (fun _ _ => id) (by simp) id (.inl (List.mem_cons_self ..))
    exact (hreported.handleFinished (by simp) _).append _
  | cancelled c =>
    have hn : (s.clients c).network ≠ .running := fun hn => absurd (h.answered c hn).1 (by simp [hk.2])
    have hforgotten : Timed (s.setClient c {s.clients c with reply := false}) (.cancelled c :: rest) := by
      refine h.setClient (fun _ _ => id) ?_ id (h.timer c)
      exact fun hr => absurd hr hn
    have hpopped : Timed (s.setClient c {s.clients c with reply := false}) (.aborted c :: rest) :=
      hforgotten.mono fun c' hc' => List.mem_cons_of_mem _ ((List.mem_cons.mp hc').resolve_left (by simp))
    exact (hpopped.handleFinished (by simpa using hn) _).append _
  | addFile path obey => exact hsteady (by simp) (.addFile path obey)
  | filesAdded files => exact hsteady (by simp) (.filesAdded files)
  | cancelAll e => exact (hpop (by simp)).cancelCurrent e
  | quitTail => exact hsteady (by simp) .quitTail
  | exited => exact hsteady (by simp) (.refl s)

theorem dispatch {r : State × List Call} (h : Timed s calls) (hr : Upload.dispatch s = some r) :
    Timed r.1 (r.2 ++ calls) := by
  have hset (posted : List Posted) : Steady s {s with posted := posted} := .of_log rfl rfl rfl
  unfold Upload.dispatch at hr
  split at hr
  · cases hr
  · rename_i m rest _
    cases m with
    | uploadFiles fileList obey =>
      cases hr
      exact (h.steady ((hset rest).trans (.uploadFiles fileList obey))).append _
    | quit =>
      cases hr
      exact (h.steady ((hset rest).trans (.quit .client))).append _
    | deleteItem | deleteEngine =>
      cases hr
      exact h.steady (.of_log rfl rfl rfl)

theorem deliver {ev : Event} {r : State × List Call} (h : Timed s calls) (hr : Upload.deliver ev s = some r) :
    Timed r.1 (r.2 ++ calls) := by
  cases ev with
  | enqueue file =>
    cases hr
    exact (h.steady (.enqueueNew file)).append _
  | cancelAll e =>
    cases hr
    exact h.cancelCurrent e
  | dispatch => exact h.dispatch hr
  | quitTimer =>
    simp only [Upload.deliver, Option.ite_none_right_eq_some, Option.some.injEq] at hr
    obtain ⟨-, rfl⟩ := hr
    have hset : Timed {s with quitTimers := s.quitTimers - 1} calls := h.steady (.of_log rfl rfl rfl)
    exact (hset.steady (.quit _)).append _
  | exit =>
    simp only [Upload.deliver, Option.ite_none_right_eq_some, Option.some.injEq] at hr
    obtain ⟨-, rfl⟩ := hr
    rw [List.append_assoc]
    exact ((h.steady (.quit _)).append _).append _
  | session e signal =>
    simp only [Upload.deliver, Option.ite_none_right_eq_some, Option.some.injEq] at hr
    obtain ⟨-, rfl⟩ := hr
    have hset (session : Option Session) : Timed (NwSessionMgr.setSession e session s) calls :=
      h.steady (.of_log rfl rfl rfl)
    cases signal with
    | opened => exact (hset _).sessionOpened e
    | error m isOpen => exact ((hset _).steady (.setErrorString e _)).sessionDisconnected e
    | disconnected =>
      refine ((hset (some ⟨false, false⟩)).sessionDisconnected e).mono fun c hc => ?_
      exact (List.mem_append.mp hc).elim (fun hc => List.mem_append_left _ (List.mem_append_left _ hc))
        (List.mem_append_right _)
  | replyError c m =>
    obtain ⟨-, -, rfl⟩ := deliverReply_some hr
    have hfailed : Timed (s.setClient c {s.clients c with network := .failed}) calls :=
      h.setClient (fun _ _ => id) (by simp) id (h.timer c)
    exact (hfailed.handleError (by simp) m).append _
  | replyFinished c answer =>
    obtain ⟨-, -, rfl⟩ := deliverReply_some hr
    have hsucceeded : Timed (if (s.clients c).network = .running then s.emit (.succeeded c (s.clients c).item) else s)
        calls := by
      split
      · exact h.steady (.emit (by simp))
      · exact h
    have hreported := Timed.setClient (c := c) (v := {s.clients c with network := .finished})
      (hsucceeded.append [.aborted c]) (fun _ _ => id) (by simp) ?_ (.inl (List.mem_cons_self ..))
    · exact (hreported.handleFinished (by simp) answer).append _
    · split <;> exact id
  | uploadProgress c sent total =>
    obtain ⟨halive, hn, rfl⟩ := deliverReply_some hr
    have hknown : c < s.nextClient := of_decide_eq_true (Bool.and_eq_true_iff.mp halive).1
    exact h.handleUploadProgress hknown (of_decide_eq_true hn) sent total
  | sslErrors c =>
    obtain ⟨-, -, rfl⟩ := deliverReply_some hr
    exact h.handleSslErrors c
  | timeout c =>
    obtain ⟨-, -, rfl⟩ := deliverReply_some hr
    exact h.cancel c
  | callUploadFiles | callQuit | environment | file | coreLocations =>
    cases hr
    exact h.steady (.of_log rfl rfl rfl)

end Timed

/-! ### Every run -/

/-- The timer runs until the first progress or the end of an upload, and not after that. -/
structure TimerRight (s : State) (c : ClientId) : Prop where
  connecting : (s.clients c).connectionTimeout = true ↔ (s.clients c).clientState = .connecting
  /-- An upload that waits for its answer. -/
  sent : (s.clients c).network = .running →
    (s.clients c).clientState = .connecting ∨ (s.clients c).clientState = .sending
  progressed : s.Progressed c → (s.clients c).connectionTimeout = false

theorem Timed.timerRight (h : Timed s []) (c : ClientId) : TimerRight s c := by
  have htimer := (h.timer c).resolve_left nofun
  refine ⟨htimer, fun hn => (h.answered c hn).2, fun hp => ?_⟩
  cases ht : (s.clients c).connectionTimeout with
  | false => rfl
  | true => exact absurd hp (h.unsent c (htimer.mp ht))

section Runs
variable {G : Guard State Call Event} {env : Environment} {files : Path → Option File} {coreLocations : List Path}
  {logWritable : Bool} {x : Config}

theorem timed_of_reaches (hx : Reaches uploader G ⟨blank env files coreLocations logWritable, []⟩ x) :
    Timed x.state x.stack := by
  refine hx.invariant (I := fun x => Timed x.state x.stack) ?_ ?_ ?_
  · constructor <;> simp [blank, State.Progressed]
  · intro s k rest hreach _ h
    exact h.exec ((uploads_of_reaches hreach).2 k (List.mem_cons_self ..))
  · intro s stack e r _ _ _ hr h
    exact h.deliver hr

/-- **Whenever no slot is being run, a connection timer is running exactly while its client
is Connecting: an upload that waits for its answer is Connecting or Sending, and one that
has reported progress cannot be cancelled by the timer.** -/
theorem timer_until_progress (hx : Reaches uploader G ⟨blank env files coreLocations logWritable, []⟩ x)
    (hstack : x.stack = []) (c : ClientId) : TimerRight x.state c := by
  have h := timed_of_reaches hx
  rw [hstack] at h
  exact h.timerRight c

/-- Half of the report has arrived. -/
def sendHalf : List Action := sendReport ++ [.event (.uploadProgress 0 1 2)]

def halfSent : Config := (uploader.run sendHalf reportAtRest).get (by decide)

theorem timer_until_progress_half : .updateProgress 0 50 ∈ halfSent.state.log ∧ TimerRight halfSent.state 0 := by
  have hreach : Reaches uploader (fun _ _ => True) reportAtRest halfSent :=
    Reaches.of_run .start (Guarded.of_forall (P := fun _ => True) (fun _ _ => trivial) _) (Option.some_get _).symm
  exact ⟨by decide, timer_until_progress hreach (by decide) 0⟩

end Runs

end CrashReporter.Upload
