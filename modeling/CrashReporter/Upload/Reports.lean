import CrashReporter.Upload.Serves

/-! What clients, sessions and cancels do to the service.

A reply that ends, a timer that expires, a session that opens or is lost, and a cancel
by the owner: each ends the upload that is under way, or none. -/
namespace CrashReporter.Upload
open Reactor
open Service (Phase Mark Label Move Ordered)

variable {s : State}

section Functions
variable {R : Rules} {e : EngineId} {a : Service ItemId}

/-! ### The clients -/

/-- The slot of an error, when the item hears of it. -/
theorem HttpClient.handleError_holds {c : ClientId} {i : ItemId} (m : String)
    (hr : (s.clients c).reply = true) (hn : (s.clients c).network = .failed)
    (hc : (s.clients c).connected = true) (hi : (s.clients c).item = i)
    (hh : (s.items i).http = some c) : handleError c m s = ({s with
      clients := Function.update s.clients c {s.clients c with reply := false, connected := false}
      items := Function.update s.items i {s.items i with
        errorString := some m
        status := if (s.items i).status = .cancelled then .cancelled else .error}
      log := .clientError c m :: s.log}, uploadFinishedCalls i s) := by
  have hcalls (t : State) (hl : (t.items i).listeners = (s.items i).listeners) :
      uploadFinishedCalls i t = uploadFinishedCalls i s := by simp [uploadFinishedCalls, hl]
  by_cases hs : (s.items i).status = .cancelled
  · simp [handleError, hr, hn, uploadError, hc, hi, UploadItem.uploadError, UploadItem.disconnectHttp, hh,
      State.setClient, State.setItem, State.emit, hs, hcalls]
  · simp [handleError, hr, hn, uploadError, hc, hi, UploadItem.uploadError, UploadItem.disconnectHttp, hh,
      State.setClient, State.setItem, State.emit, UploadItem.setStatus, hs, hcalls]

/-- An upload that is aborted. -/
theorem HttpClient.cancel_holds {c : ClientId} {i : ItemId} (hr : (s.clients c).reply = true)
    (hc : (s.clients c).connected = true) (hi : (s.clients c).item = i)
    (hh : (s.items i).http = some c) : cancel c s = ({s with
      clients := Function.update s.clients c {s.clients c with
        clientState := .aborting
        network := .failed
        reply := false
        connected := false}
      items := Function.update s.items i {s.items i with
        errorString := some abortMessage
        status := if (s.items i).status = .cancelled then .cancelled else .error}
      log := .clientError c abortMessage :: s.log}, uploadFinishedCalls i s ++ [.aborted c, .cancelled c]) := by
  rw [cancel_reply c hr, handleError_holds (i := i)]
  · simp only [State.setClient, Function.update_self, Function.update_idem]
    rfl
  · simpa using hr
  · simp
  · simpa using hc
  · simpa using hi
  · simpa using hh

theorem HttpClient.handleFinished_detached {c : ClientId} (answer : ServerReply)
    (hr : (s.clients c).reply = false) (hc : (s.clients c).connected = false) :
    handleFinished c answer s = ((s.setClient c {s.clients c with
      connectionTimeout := false
      clientState := .init}).emit (.clientFinished c), []) := by
  rw [handleFinished_idle c answer hr]
  simp [finished, hc]

theorem HttpClient.cancel_detached {c : ClientId} (hr : (s.clients c).reply = false)
    (hc : (s.clients c).connected = false) : cancel c s = ((s.setClient c {s.clients c with
      connectionTimeout := false
      clientState := .init}).emit (.clientFinished c), []) := by
  rw [cancel_idle c hr, handleFinished_detached]
  · simp [State.setClient]
  · simpa using hr
  · simpa using hc

/-- What handleFinished() leaves of a client without a reply. -/
theorem Client.Quiet.reset {v : Client} (h : v.Quiet) :
    Client.Quiet {v with connectionTimeout := false, clientState := .init} :=
  ⟨h.reply, h.network, fun hv => ⟨rfl, (h.connected hv).2⟩⟩

theorem quiet_reset (h : ∀ c, (s.clients c).Quiet) (c c' : ClientId) : (Function.update s.clients c
    {s.clients c with connectionTimeout := false, clientState := .init} c').Quiet := by
  rcases eq_or_ne c' c with rfl | hne
  · simpa using (h c').reset
  · rw [Function.update_of_ne hne]
    exact h c'

/-- A client that has ended, and whose item does not hear of it, changes. -/
theorem brings_detached (h : Serves e s a) (hstands : Stands R (s.engines e) a.phase)
    (hlive : live e a.phase = []) {c : ClientId} {v : Client} (hc : (s.clients c).connected = false)
    (hv : v.Quiet) (hvc : v.connected = false) :
    Brings R e s a ((s.setClient c v).emit (.clientFinished c), []) [] a := by
  have hholds {i : ItemId} {c' : ClientId} {reply : Bool} (hh : s.Holds i c' reply) :
      State.Holds ((s.setClient c v).emit (.clientFinished c)) i c' reply := by
    have hne : c' ≠ c := by
      rintro rfl
      exact absurd hh.connected (by simp [hc])
    exact ⟨hh.http, by simpa [hne] using hh.reply, by simpa [hne] using hh.connected⟩
  have hdoing : Doing e ((s.setClient c v).emit (.clientFinished c)) a.phase := by
    have hd := h.doing
    cases hp : a.phase with
    | sending i =>
      rw [hp] at hd
      obtain ⟨⟨hk, hcur, ha, hl⟩, hs, c', hh⟩ := hd
      exact ⟨⟨hk, hcur, ha, hl⟩, hs, c', hholds hh⟩
    | stalled i =>
      rw [hp] at hd
      obtain ⟨⟨hk, hcur, ha, hl⟩, hs, c', hh⟩ := hd
      exact ⟨⟨hk, hcur, ha, hl⟩, hs, c', hholds hh⟩
    | idle =>
      rw [hp] at hd
      exact hd
    | waiting i =>
      rw [hp] at hd
      obtain ⟨⟨hk, hcur, ha, hl⟩, hrest⟩ := hd
      exact ⟨⟨hk, hcur, ha, hl⟩, hrest⟩
    | handing | ending | echo | drained => simp [hp, live] at hlive
  refine ⟨.nil a, ?_, hstands, ⟨[], by rw [hlive]; rfl, by simp⟩, rfl, fun c' hc' => ?_, fun i hi => .inl hi⟩
  · refine {h with
      fresh := fun i hi => (h.fresh i hi).same rfl (Nat.le_refl _)
      quiet := fun c' hc' => ?_
      doing := hdoing}
    rcases eq_or_ne c' c with rfl | hne
    · simpa using hv
    · simpa [hne] using h.quiet c' hc'
  · rcases eq_or_ne c' c with rfl | hne
    · exact ⟨hc'.1, by simpa using hv.reply, by simpa using hvc⟩
    · exact ⟨hc'.1, by simpa [hne] using hc'.2⟩

/-- The item that is served ends. -/
theorem Serves.ended (h : Serves e s a) (ho : Ordered a) {i : ItemId} (hi : a.phase.item = some i)
    (hh : s.Handles e i) {outcome : Outcome} {clients : ClientId → Client} {v : Item}
    {new : List Output} (halive : v.alive = true) (hlisteners : v.listeners = [e])
    (hstatus : v.status = .after outcome) (hquiet : ∀ c, (clients c).Quiet)
    {mark : List (Mark ItemId)} (hnew : marks new = mark) (henq : Service.enqueued mark = []) :
    Serves e {s with
      clients := clients
      items := Function.update s.items i v
      log := new ++ s.log} {a with phase := .ending i outcome, trace := mark ++ a.trace} := by
  have hbusy : a.phase.busy = true := by
    rw [← Phase.item_isSome, hi]
    rfl
  have hne {j : ItemId} (hj : j ∈ a.queued) : j ≠ i := fun he => ho.not_queued hi (he ▸ hj)
  have hknown : Service.enqueued (mark ++ a.trace) = Service.enqueued a.trace := by
    rw [Service.enqueued, List.filterMap_append]
    show Service.enqueued mark ++ Service.enqueued a.trace = _
    rw [henq, List.nil_append]
  refine {h with
    notified := h.notified.trans hbusy
    trace := ?_
    fresh := fun j hj => (h.fresh j hj).same (by simp [hne hj]) (Nat.le_refl _)
    known := fun j hj => h.known j (hknown ▸ hj)
    posted := fun j hj => ?_
    quiet := fun c _ => hquiet c
    doing := ⟨⟨hh.known, hh.current, by simpa using halive, by simpa using hlisteners⟩,
      by simpa using hstatus⟩}
  · rw [← hnew, ← h.trace]
    exact List.filterMap_append ..
  · obtain ⟨hk, hq, hn⟩ := h.posted j hj
    exact ⟨hk, hq, fun he => hn (hi.trans he)⟩

/-- The item that is served ends, and the engine is told. -/
theorem brings_ended (h : Serves e s a) (ho : Ordered a) {i : ItemId} (hi : a.phase.item = some i)
    (hh : s.Handles e i) (outcome : Outcome) (clients : ClientId → Client) (v : Item)
    (new : List Output) (tail : List Call) (halive : v.alive = true) (hlisteners : v.listeners = [e])
    (hstatus : v.status = .after outcome) (hquiet : ∀ c, (clients c).Quiet)
    {mark : List (Mark ItemId)} (hnew : marks new = mark) (henq : Service.enqueued mark = [])
    (hstands : Stands R (s.engines e) (.ending i outcome))
    (htail : ∀ k ∈ tail, ∃ c, (k = .aborted c ∨ k = .cancelled c) ∧ c < s.nextClient ∧
      (clients c).connected = false)
    (hdetached : ∀ c, s.Detached c → (clients c).connected = false) {label : Label}
    (hm : Move a label {a with phase := .ending i outcome, trace := mark ++ a.trace}) :
    Brings R e s a ({s with
      clients := clients
      items := Function.update s.items i v
      log := new ++ s.log}, .uploadFinished e i :: tail) [label]
      {a with phase := .ending i outcome, trace := mark ++ a.trace} := by
  refine ⟨hm.run, h.ended ho hi hh halive hlisteners hstatus hquiet hnew henq, hstands,
    ⟨tail, rfl, fun k hk => ?_⟩, ?_, fun c hc => ⟨hc.1, (hquiet c).reply, hdetached c hc⟩, fun j hj => ?_⟩
  · obtain ⟨c, hkc, hlt, hc⟩ := htail k hk
    rcases hkc with rfl | rfl
    · exact ⟨hlt, (hquiet c).reply, hc⟩
    · exact ⟨hlt, (hquiet c).reply, hc⟩
  · have hnone : .itemEnqueued ∉ Call.uploadFinished e i :: tail := by
      intro hmem
      rcases List.mem_cons.mp hmem with hmem | hmem
      · cases hmem
      · obtain ⟨c, hkc | hkc, -⟩ := htail _ hmem <;> cases hkc
    rw [List.count_eq_zero_of_not_mem hnone]
    rfl
  · dsimp only at hj
    rcases eq_or_ne j i with rfl | hne
    · rw [Function.update_self, hstatus] at hj
      cases outcome with
      | cancelled => exact .inr hstands
      | finished | failed => cases hj
    · rw [Function.update_of_ne hne] at hj
      exact .inl hj

/-- The client that is not quiet is that of the item being sent. -/
theorem Serves.sender (h : Serves e s a) {c : ClientId} (hc : ¬(s.clients c).Quiet) :
    ∃ i, a.phase = .sending i ∧ s.Handles e i ∧ (s.items i).status = .sending ∧ s.Holds i c true := by
  by_contra hno
  refine hc (h.quiet c fun i hp hh => hno ⟨i, hp, ?_⟩)
  have hd := h.doing
  rw [hp] at hd
  obtain ⟨hhandles, hs, c', hc'⟩ := hd
  obtain rfl : c = c' := Option.some.inj (hh.symm.trans hc'.http)
  exact ⟨hhandles, hs, hc'⟩

theorem Serves.quiet_update (h : Serves e s a) {i : ItemId} {c : ClientId} (hp : a.phase = .sending i)
    (hh : (s.items i).http = some c) {v : Client} (hv : v.Quiet) :
    ∀ c', (Function.update s.clients c v c').Quiet := by
  intro c'
  rcases eq_or_ne c' c with rfl | hne
  · simpa using hv
  · rw [Function.update_of_ne hne]
    refine h.quiet c' fun j hj hc' => hne ?_
    rw [hp] at hj
    cases hj
    exact Option.some.inj (hc'.symm.trans hh)

/-- A detached client is another one. -/
theorem detached_update {i : ItemId} {c : ClientId} {reply : Bool} (hh : s.Holds i c reply) (v : Client)
    {c' : ClientId} (hc' : s.Detached c') : (Function.update s.clients c v c').connected = false := by
  have hne : c' ≠ c := by
    rintro rfl
    exact absurd hc'.2.2 (by simp [hh.connected])
  rw [Function.update_of_ne hne]
  exact hc'.2.2

theorem uploadFinishedCalls_eq {i : ItemId} (h : s.Handles e i) :
    uploadFinishedCalls i s = [.uploadFinished e i] := by
  rw [uploadFinishedCalls, h.listeners]
  rfl

/-- Without a reply, only a connected client tells its item. -/
theorem HttpClient.cancel_answerless {i : ItemId} {c : ClientId} (hh : s.Holds i c false)
    (hi : (s.clients c).item = i) : cancel c s = ({s with
      clients := Function.update s.clients c {s.clients c with
        connectionTimeout := false
        clientState := .init}
      items := Function.update s.items i {s.items i with status := .finished}
      log := .clientFinished c :: s.log}, uploadFinishedCalls i s) := by
  rw [cancel_idle c hh.reply, handleFinished_idle]
  · simp [finished, hh.connected, UploadItem.emitUploadFinished, UploadItem.setStatus, hi, State.setClient,
      State.setItem, State.emit, uploadFinishedCalls]
  · simpa using hh.reply

/-! ### What a client reports -/

/-- The error of a reply that is being sent. -/
theorem HttpClient.handleError_sending (hu : s.Owned) {i : ItemId} {c : ClientId} (hh : s.Handles e i)
    (hs : (s.items i).status = .sending) (hc : s.Holds i c true) (m : String) :
    handleError c m (s.setClient c {s.clients c with network := .failed}) = ({s with
      clients := Function.update s.clients c {s.clients c with
        network := .failed
        reply := false
        connected := false}
      items := Function.update s.items i {s.items i with errorString := some m, status := .error}
      log := [.clientError c m] ++ s.log}, [.uploadFinished e i]) := by
  rw [handleError_holds (i := i), ← uploadFinishedCalls_eq hh]
  · simp [State.setClient, hs, uploadFinishedCalls]
  · simpa using hc.reply
  · simp
  · simpa using hc.connected
  · simpa using (hu i c hc.http).2
  · simpa using hc.http

/-- The abort of a reply that is being sent. -/
theorem HttpClient.cancel_sending (hu : s.Owned) {i : ItemId} {c : ClientId} (hh : s.Handles e i)
    (hs : (s.items i).status = .sending) (hc : s.Holds i c true) : cancel c s = ({s with
      clients := Function.update s.clients c {s.clients c with
        clientState := .aborting
        network := .failed
        reply := false
        connected := false}
      items := Function.update s.items i {s.items i with
        errorString := some abortMessage
        status := .error}
      log := [.clientError c abortMessage] ++ s.log},
      .uploadFinished e i :: [.aborted c, .cancelled c]) := by
  rw [cancel_holds hc.reply hc.connected (hu i c hc.http).2 hc.http, uploadFinishedCalls_eq hh]
  simp [hs]

theorem brings_replyError (h : Serves e s a) (hstands : Stands R (s.engines e) a.phase)
    (ho : Ordered a) (hu : s.Owned) (hzero : a.uncounted = 0) {c : ClientId} (m : String)
    (hn : (s.clients c).network = .running) : ∃ a', Brings R e s a
      (HttpClient.handleError c m (s.setClient c {s.clients c with network := .failed})) [.fail] a' := by
  obtain ⟨i, hp, hh, hs, hc⟩ := h.sender fun hq => hq.network hn
  rw [hp] at hstands
  rw [HttpClient.handleError_sending hu hh hs hc]
  refine ⟨_, brings_ended h ho (by rw [hp]; rfl) hh _ _ _ _ _ (by exact hh.alive) (by exact hh.listeners) rfl
    (h.quiet_update hp hc.http ?_) rfl rfl ?_ ?_ (fun _ => detached_update hc _) (.fail hp hzero)⟩
  · constructor <;> simp
  · show (s.engines e).state ≠ .noConnection
    rw [show (s.engines e).state = .connected from hstands]
    simp
  · simp

theorem brings_timeout (h : Serves e s a) (hstands : Stands R (s.engines e) a.phase)
    (ho : Ordered a) (hu : s.Owned) (hlive : live e a.phase = []) (hzero : a.uncounted = 0)
    {c : ClientId} (ht : (s.clients c).connectionTimeout = true) : ∃ labels a',
      Brings R e s a (HttpClient.cancel c s) labels a' ∧
        (labels = [] ∨ labels = [.fail] ∧ (s.clients c).reply = true) := by
  by_cases hq : (s.clients c).Quiet
  · have hc : (s.clients c).connected = false := hq.unconnected (.inl ht)
    rw [HttpClient.cancel_detached hq.reply hc]
    exact ⟨[], a, brings_detached h hstands hlive hc hq.reset hc, .inl rfl⟩
  · obtain ⟨i, hp, hh, hs, hc⟩ := h.sender hq
    rw [hp] at hstands
    rw [HttpClient.cancel_sending hu hh hs hc]
    refine ⟨_, _, brings_ended h ho (by rw [hp]; rfl) hh _ _ _ _ _ (by exact hh.alive) (by exact hh.listeners) rfl
      (h.quiet_update hp hc.http ?_) rfl rfl ?_ (fun k hk => ⟨c, ?_, (hu i c hc.http).1, ?_⟩)
      (fun _ => detached_update hc _) (.fail hp hzero), .inr ⟨rfl, hc.reply⟩⟩
    · constructor <;> simp
    · show (s.engines e).state ≠ .noConnection
      rw [show (s.engines e).state = .connected from hstands]
      simp
    · simpa using hk
    · simp

theorem HttpClient.parseReply_log (c : ClientId) (answer : ServerReply) :
    ∃ new, parseReply c answer s = {s with log := new ++ s.log} ∧ marks new = [] := by
  unfold parseReply
  repeat' split
  all_goals first | exact ⟨[], rfl, rfl⟩ | exact ⟨[_], rfl, rfl⟩

theorem HttpClient.removeFile_log (path : Path) :
    ∃ files new, removeFile path s = {s with files := files, log := new ++ s.log} ∧ marks new = [] := by
  unfold removeFile
  split
  · exact ⟨s.files, [], rfl, rfl⟩
  · exact ⟨_, [.removed path], rfl, rfl⟩

/-- A reply that ends well, when the item hears of it. -/
theorem HttpClient.handleFinished_holds {c : ClientId} {i : ItemId} (answer : ServerReply)
    (hr : (s.clients c).reply = true) (hc : (s.clients c).connected = true)
    (hi : (s.clients c).item = i) : ∃ files new, marks new = [] ∧ handleFinished c answer s = ({s with
      files := files
      clients := Function.update s.clients c {s.clients c with
        connectionTimeout := false
        reply := false
        clientState := .init}
      items := Function.update s.items i {s.items i with status := .finished}
      log := new ++ s.log}, uploadFinishedCalls i s) := by
  have hend {t : State} {files : Path → Option File} (new : List Output) (ht : t = {s with
      files := files
      clients := Function.update s.clients c {s.clients c with connectionTimeout := false}
      log := new ++ s.log}) : finished c
      (t.setClient c {t.clients c with reply := false, clientState := .init}) = ({s with
      files := files
      clients := Function.update s.clients c {s.clients c with
        connectionTimeout := false
        reply := false
        clientState := .init}
      items := Function.update s.items i {s.items i with status := .finished}
      log := .clientFinished c :: new ++ s.log}, uploadFinishedCalls i s) := by
    subst ht
    simp [finished, hc, hi, UploadItem.emitUploadFinished, UploadItem.setStatus, State.setClient,
      State.setItem, State.emit, uploadFinishedCalls]
  obtain ⟨new, hparse, hnew⟩ := parseReply_log (s := s.setClient c
    {s.clients c with connectionTimeout := false}) c answer
  unfold handleFinished
  dsimp only
  rw [if_pos (by simpa using hr), hparse]
  split
  · generalize hremove : removeFile _ _ = t
    obtain ⟨files, new', ht, hnew'⟩ := removeFile_log (s := {s.setClient c
      {s.clients c with connectionTimeout := false} with log := new ++ s.log})
      ((s.setClient c {s.clients c with connectionTimeout := false}).clients c).currentFile
    refine ⟨files, .clientFinished c :: (new' ++ new), ?_, hend (new' ++ new) ?_⟩
    · show marks (new' ++ new) = []
      rw [marks, List.filterMap_append]
      exact List.append_eq_nil_iff.mpr ⟨hnew', hnew⟩
    · rw [← hremove]
      refine ht.trans ?_
      simp [State.setClient]
  · exact ⟨s.files, .clientFinished c :: new, hnew, hend new rfl⟩

/-- A reply ends without an error while its item is being sent. -/
theorem HttpClient.handleFinished_sending (hu : s.Owned) {i : ItemId} {c : ClientId} (hh : s.Handles e i)
    (hc : s.Holds i c true) (answer : ServerReply) : ∃ files new, marks new = [.answered i] ∧
      handleFinished c answer ((s.emit (.succeeded c (s.clients c).item)).setClient c
        {s.clients c with network := .finished}) = ({s with
          files := files
          clients := Function.update s.clients c {s.clients c with
            network := .finished
            connectionTimeout := false
            reply := false
            clientState := .init}
          items := Function.update s.items i {s.items i with status := .finished}
          log := new ++ s.log}, [.uploadFinished e i]) := by
  have hitem : (s.clients c).item = i := (hu i c hc.http).2
  obtain ⟨files, new, hnew, heq⟩ := handleFinished_holds (i := i)
    (s := (s.emit (.succeeded c i)).setClient c {s.clients c with network := .finished}) (c := c) answer
    (by simpa using hc.reply) (by simpa using hc.connected) (by simpa using hitem)
  have hcalls : uploadFinishedCalls i ((s.emit (.succeeded c i)).setClient c
      {s.clients c with network := .finished}) = [.uploadFinished e i] :=
    uploadFinishedCalls_eq (s := s) hh
  refine ⟨files, new ++ [.succeeded c i], ?_, ?_⟩
  · rw [marks, List.filterMap_append]
    show marks new ++ _ = _
    rw [hnew]
    rfl
  · rw [hitem, heq, hcalls]
    simp [State.setClient, State.emit]

theorem brings_replySucceeded (h : Serves e s a) (ho : Ordered a) (hu : s.Owned)
    (hzero : a.uncounted = 0) {c : ClientId} (answer : ServerReply)
    (hn : (s.clients c).network = .running) : ∃ a', Brings R e s a
      (HttpClient.handleFinished c answer ((s.emit (.succeeded c (s.clients c).item)).setClient c
        {s.clients c with network := .finished})) [.answer] a' := by
  obtain ⟨i, hp, hh, -, hc⟩ := h.sender fun hq => hq.network hn
  obtain ⟨files, new, hnew, heq⟩ := HttpClient.handleFinished_sending hu hh hc answer
  have hfiles : Alike e s {s with files := files} := {Alike.refl s with }
  rw [heq]
  have hb := brings_ended (R := R) (h.alike hfiles) ho (by rw [hp]; rfl)
    ⟨hh.known, hh.current, hh.alive, hh.listeners⟩ .finished
    (Function.update s.clients c {s.clients c with
      network := .finished
      connectionTimeout := false
      reply := false
      clientState := .init})
    {s.items i with status := .finished} new [] hh.alive hh.listeners rfl
    (h.quiet_update hp hc.http ?_) hnew rfl trivial (by simp)
    (fun _ => detached_update hc _) (.answer hp hzero)
  · exact ⟨_, hb.after hfiles⟩
  · constructor <;> simp

/-- The end of a reply that has failed before. -/
theorem brings_replyEnded (h : Serves e s a) (hstands : Stands R (s.engines e) a.phase)
    (hlive : live e a.phase = []) (hrun : ∀ c, (s.clients c).reply = true → (s.clients c).network = .running)
    {c : ClientId} (answer : ServerReply) (hn : (s.clients c).network = .failed) :
    Brings R e s a (HttpClient.handleFinished c answer
      (s.setClient c {s.clients c with network := .finished})) [] a := by
  have hq : (s.clients c).Quiet := by
    by_contra hq
    obtain ⟨i, -, -, -, hc⟩ := h.sender hq
    rw [hrun c hc.reply] at hn
    cases hn
  have hc : (s.clients c).connected = false := hq.unconnected (.inr hn)
  rw [HttpClient.handleFinished_detached]
  · have hb := brings_detached h hstands hlive hc (v := {s.clients c with
      network := .finished
      connectionTimeout := false
      clientState := .init}) ⟨hq.reply, by simp, fun hv => absurd hv (by simp [hc])⟩ hc
    simpa [State.setClient] using hb
  · simpa using hq.reply
  · simpa using hc

/-- An upload goes on. -/
theorem brings_sending (h : Serves e s a) (hstands : Stands R (s.engines e) a.phase)
    {c : ClientId} (hn : (s.clients c).network = .running) {v : Client} (hr : v.reply = (s.clients c).reply)
    (hc : v.connected = (s.clients c).connected) {new : List Output} (hnew : marks new = []) :
    Brings R e s a ({s with
      clients := Function.update s.clients c v
      log := new ++ s.log}, []) [] a := by
  obtain ⟨i, hp, hh, hs, hi⟩ := h.sender fun hq => hq.network hn
  refine ⟨.nil a, ?_, hstands, ⟨[], by rw [hp]; rfl, by simp⟩, rfl, fun c' hc' => ?_, fun j hj => .inl hj⟩
  · refine {h with
      trace := ?_
      fresh := fun j hj => (h.fresh j hj).same rfl (Nat.le_refl _)
      quiet := fun c' hc' => ?_
      doing := ?_}
    · rw [← h.trace, marks, List.filterMap_append]
      show marks new ++ _ = _
      rw [hnew]
      rfl
    · have hne : c' ≠ c := fun he => hc' i hp (he ▸ hi.http)
      simpa [hne] using h.quiet c' hc'
    · rw [hp]
      refine ⟨⟨hh.known, hh.current, hh.alive, hh.listeners⟩, hs, c, hi.http, ?_, ?_⟩
      · simpa using hr.trans hi.reply
      · simpa using hc.trans hi.connected
  · have hne : c' ≠ c := by
      rintro rfl
      exact absurd hc'.2.1 (by simp [hi.reply])
    exact ⟨hc'.1, by simpa [hne] using hc'.2⟩

theorem HttpClient.handleUploadProgress_cases (c : ClientId) (sent total : Int)
    (hr : (s.clients c).reply = true) : ∃ v new, v.reply = (s.clients c).reply ∧
      v.connected = (s.clients c).connected ∧ marks new = [] ∧ handleUploadProgress c sent total s =
        {s with clients := Function.update s.clients c v, log := new ++ s.log} := by
  by_cases hs : (s.clients c).clientState = .sending
  · by_cases ht : total = 0
    · refine ⟨{s.clients c with connectionTimeout := false}, [], rfl, rfl, rfl, ?_⟩
      simp [handleUploadProgress, hr, hs, ht, State.setClient]
    · refine ⟨{s.clients c with connectionTimeout := false},
        [.updateProgress c ((sent * 100).tdiv total)], rfl, rfl, rfl, ?_⟩
      simp [handleUploadProgress, hr, hs, ht, State.setClient, State.emit]
  · by_cases ht : total = 0
    · refine ⟨{s.clients c with connectionTimeout := false, clientState := .sending}, [], rfl, rfl, rfl, ?_⟩
      simp [handleUploadProgress, hr, hs, ht, State.setClient]
    · refine ⟨{s.clients c with connectionTimeout := false, clientState := .sending},
        [.updateProgress c ((sent * 100).tdiv total)], rfl, rfl, rfl, ?_⟩
      simp [handleUploadProgress, hr, hs, ht, State.setClient, State.emit]

theorem brings_uploadProgress (h : Serves e s a) (hstands : Stands R (s.engines e) a.phase)
    {c : ClientId} (sent total : Int) (hn : (s.clients c).network = .running) :
    Brings R e s a (HttpClient.handleUploadProgress c sent total s, []) [] a := by
  obtain ⟨i, -, -, -, hi⟩ := h.sender fun hq => hq.network hn
  obtain ⟨v, new, hr, hc, hnew, heq⟩ := HttpClient.handleUploadProgress_cases c sent total hi.reply
  rw [heq]
  exact brings_sending h hstands hn hr hc hnew

/-! ### Cancelling -/

/-- The current item's client has no reply, and still reports to the item. -/
def State.Answerless (s : State) (e : EngineId) : Prop :=
  ∃ i c, (s.engines e).currentItem = some i ∧ (s.items i).alive = true ∧ s.Holds i c false

namespace UploadItem

theorem cancel_waiting {i : ItemId} (hs : (s.items i).status = .waiting)
    (hh : (s.items i).http = none) : cancel i s = ({s with
      items := Function.update s.items i {s.items i with status := .cancelled}},
      uploadFinishedCalls i s) := by
  simp [cancel, setStatus, hs, hh, State.setItem, uploadFinishedCalls]

/-- An item that does not wait any more leaves the rest to its client. -/
theorem cancel_started {i : ItemId} {c : ClientId} (hs : (s.items i).status ≠ .waiting)
    (hh : (s.items i).http = some c) :
    cancel i s = HttpClient.cancel c (setStatus i .cancelled s) := by
  simp [cancel, setStatus, hs, hh]

theorem cancel_sending (hu : s.Owned) {i : ItemId} {c : ClientId} (hh : s.Handles e i)
    (hs : (s.items i).status = .sending) (hc : s.Holds i c true) : cancel i s = ({s with
      clients := Function.update s.clients c {s.clients c with
        clientState := .aborting
        network := .failed
        reply := false
        connected := false}
      items := Function.update s.items i {s.items i with
        errorString := some HttpClient.abortMessage
        status := .cancelled}
      log := [.clientError c HttpClient.abortMessage] ++ s.log},
      .uploadFinished e i :: [.aborted c, .cancelled c]) := by
  rw [cancel_started (by simp [hs]) hc.http, HttpClient.cancel_holds (i := i)]
  · simp [setStatus, State.setItem, uploadFinishedCalls, hh.listeners]
  · exact hc.reply
  · exact hc.connected
  · exact (hu i c hc.http).2
  · simpa [setStatus] using hc.http

/-- The client of an item that has stalled has no reply to abort. -/
theorem cancel_stalled (hu : s.Owned) {i : ItemId} {c : ClientId} (hh : s.Handles e i)
    (hs : (s.items i).status = .error) (hc : s.Holds i c false) : cancel i s = ({s with
      clients := Function.update s.clients c {s.clients c with
        connectionTimeout := false
        clientState := .init}
      items := Function.update s.items i {s.items i with status := .finished}
      log := [.clientFinished c] ++ s.log}, [.uploadFinished e i]) := by
  rw [cancel_started (by simp [hs]) hc.http, HttpClient.cancel_answerless (i := i)]
  · simp [setStatus, State.setItem, uploadFinishedCalls, hh.listeners]
  · exact ⟨by simpa [setStatus] using hc.http, hc.reply, hc.connected⟩
  · exact (hu i c hc.http).2

end UploadItem

/-- Before the batch has counted the item, a cancel comes too early. -/
theorem cancel_move {i : ItemId} (hp : a.phase = .waiting i ∨ a.phase = .sending i) :
    ∃ label, Move a label {a with phase := .ending i .cancelled} ∧
      (label = .cancel ∨ label = .cut ∧ a.uncounted ≠ 0) := by
  by_cases hzero : a.uncounted = 0
  · exact ⟨.cancel, .cancel hp hzero, .inl rfl⟩
  · exact ⟨.cut, .cut hp hzero, .inr ⟨rfl, hzero⟩⟩

theorem brings_cancelWaiting (h : Serves e s a) (ho : Ordered a) {i : ItemId}
    (hp : a.phase = .waiting i) (hfree : R.byOwner ∨ (s.engines e).state = .noConnection) :
    ∃ label a', Brings R e s a (UploadItem.cancel i s) [label] a' ∧
      (label = .cancel ∨ label = .cut ∧ a.uncounted ≠ 0) := by
  have hd := h.doing
  rw [hp] at hd
  obtain ⟨hh, hs, hhttp⟩ := hd
  obtain ⟨label, hm, hlabel⟩ := cancel_move (.inl hp)
  rw [UploadItem.cancel_waiting hs hhttp, uploadFinishedCalls_eq hh]
  exact ⟨label, _, brings_ended h ho (by rw [hp]; rfl) hh .cancelled s.clients
    {s.items i with status := .cancelled} [] [] hh.alive hh.listeners rfl
    (fun c => h.quiet c (by simp [hp])) rfl rfl hfree (by simp) (fun c hc => hc.2.2) hm, hlabel⟩

theorem brings_cancelSending (h : Serves e s a) (ho : Ordered a) (hu : s.Owned) {i : ItemId}
    (hp : a.phase = .sending i) (hfree : R.byOwner ∨ (s.engines e).state = .noConnection) :
    ∃ label a', Brings R e s a (UploadItem.cancel i s) [label] a' ∧
      (label = .cancel ∨ label = .cut ∧ a.uncounted ≠ 0) := by
  have hd := h.doing
  rw [hp] at hd
  obtain ⟨hh, hs, c, hc⟩ := hd
  obtain ⟨label, hm, hlabel⟩ := cancel_move (.inr hp)
  rw [UploadItem.cancel_sending hu hh hs hc]
  refine ⟨label, _, brings_ended h ho (by rw [hp]; rfl) hh .cancelled _ _ _ _ (by exact hh.alive)
    (by exact hh.listeners) rfl (h.quiet_update hp hc.http ?_) rfl rfl hfree
    (fun k hk => ⟨c, ?_, (hu i c hc.http).1, ?_⟩) (fun _ => detached_update hc _) hm, hlabel⟩
  · constructor <;> simp
  · simpa using hk
  · simp

/-- An upload that has stalled ends when it is cancelled, as if it had finished. -/
theorem brings_cancelStalled (h : Serves e s a) (ho : Ordered a) (hu : s.Owned) {i : ItemId}
    (hp : a.phase = .stalled i) : ∃ a',
      Brings R e s a (UploadItem.cancel i s) [.abandon] a' ∧ s.Answerless e := by
  have hd := h.doing
  rw [hp] at hd
  obtain ⟨hh, hs, c, hc⟩ := hd
  rw [UploadItem.cancel_stalled hu hh hs hc]
  refine ⟨_, brings_ended h ho (by rw [hp]; rfl) hh .finished _ _ _ _ (by exact hh.alive)
    (by exact hh.listeners) rfl (quiet_reset (fun c' => h.quiet c' (by simp [hp])) c) rfl rfl trivial ?_
    (fun _ => detached_update hc _) (.abandon hp), i, c, hh.current, hh.alive, hc⟩
  simp

/-- Between batches the last item changes. -/
theorem Serves.revisit (h : Serves e s a) (hp : a.phase = .idle) (hq : a.queued = []) {i : ItemId}
    (hcurrent : (s.engines e).currentItem = some i) (clients : ClientId → Client) (v : Item)
    (new : List Output) {phase : Phase ItemId} (hlisteners : v.listeners = [e])
    (hquiet : ∀ c, (clients c).Quiet) (hnew : marks new = [])
    (hphase : phase = .idle ∧ v.status ≠ .waiting ∨ phase = .echo i ∧ v.status = .finished) :
    Serves e {s with
      clients := clients
      items := Function.update s.items i v
      log := new ++ s.log} {a with phase := phase} := by
  have hpast := h.doing
  rw [hp] at hpast
  have hbusy : phase.busy = false ∧ phase.item = none := by
    rcases hphase with ⟨rfl, -⟩ | ⟨rfl, -⟩ <;> exact ⟨rfl, rfl⟩
  refine {h with
    notified := h.notified.trans (by rw [hp, hbusy.1]; rfl)
    trace := ?_
    fresh := by simp [hq]
    posted := fun j hj => ⟨(h.posted j hj).1, (h.posted j hj).2.1, by simp [hbusy.2]⟩
    quiet := fun c _ => hquiet c
    doing := ?_}
  · rw [← h.trace, marks, List.filterMap_append]
    show marks new ++ _ = _
    rw [hnew]
    rfl
  · have hk : i < s.nextItem := (hpast i hcurrent).1
    rcases hphase with ⟨rfl, hs⟩ | ⟨rfl, hs⟩
    · intro j hj
      obtain rfl : i = j := Option.some.inj (hcurrent.symm.trans hj)
      exact ⟨hk, fun _ => by simpa using ⟨hs, hlisteners⟩⟩
    · exact ⟨hk, hcurrent, by simpa using hs, by simpa using hlisteners⟩

/-- The last item is cancelled, and ends once more when its client still reports to it. -/
theorem brings_cancelPast (h : Serves e s a) (hstands : Stands R (s.engines e) a.phase)
    (ho : Ordered a) (hu : s.Owned) (hp : a.phase = .idle)
    (hfree : R.byOwner ∨ (s.engines e).state = .noConnection) {i : ItemId}
    (hc : (s.engines e).currentItem = some i) (ha : (s.items i).alive = true) : ∃ labels a',
      Brings R e s a (UploadItem.cancel i s) labels a' ∧
        (labels = [] ∨ labels = [.echo] ∧ s.Answerless e) := by
  have hq : a.queued = [] := ho.empty (by rw [hp]; rfl)
  have hquiet (c : ClientId) : (s.clients c).Quiet := h.quiet c (by simp [hp])
  have hpast := h.doing
  rw [hp] at hpast hstands
  obtain ⟨hs, hl⟩ := (hpast i hc).2 ha
  have hsame : Service.Run a [] {a with phase := .idle} := by
    rw [← hp]
    exact .nil a
  cases hh : (s.items i).http with
  | none =>
    have hcancel : UploadItem.cancel i s = ({s with
        items := Function.update s.items i {s.items i with status := .cancelled}}, []) := by
      simp [UploadItem.cancel, UploadItem.setStatus, hs, hh, State.setItem]
    rw [hcancel]
    exact ⟨[], {a with phase := .idle}, ⟨hsame, h.revisit hp hq hc s.clients
      {s.items i with status := .cancelled} [] hl hquiet rfl (.inl ⟨rfl, by simp⟩), hstands,
      ⟨[], rfl, by simp⟩, rfl, fun _ => id, fun _ _ => .inr hfree⟩, .inl rfl⟩
  | some c =>
    rw [UploadItem.cancel_started hs hh]
    cases hconn : (s.clients c).connected with
    | true =>
      have hholds : s.Holds i c false := ⟨hh, (hquiet c).reply, hconn⟩
      have hcancel : HttpClient.cancel c (UploadItem.setStatus i .cancelled s) = ({s with
          clients := Function.update s.clients c {s.clients c with
            connectionTimeout := false
            clientState := .init}
          items := Function.update s.items i {s.items i with status := .finished}
          log := [.clientFinished c] ++ s.log}, [.uploadFinished e i]) := by
        rw [HttpClient.cancel_answerless (i := i)]
        · simp [UploadItem.setStatus, State.setItem, uploadFinishedCalls, hl]
        · exact ⟨by simpa [UploadItem.setStatus] using hh, hholds.reply, hconn⟩
        · exact (hu i c hh).2
      rw [hcancel]
      exact ⟨[.echo], _, ⟨(Move.echo i hp).run, h.revisit hp hq hc _ _ [.clientFinished c] hl
        (quiet_reset hquiet c) rfl (.inr ⟨rfl, rfl⟩), trivial, ⟨[], rfl, by simp⟩, rfl,
        fun c' hc' => ⟨hc'.1, (quiet_reset hquiet c c').reply, detached_update hholds _ hc'⟩,
        fun _ _ => .inr hfree⟩, .inr ⟨rfl, i, c, hc, ha, hholds⟩⟩
    | false =>
      have hcancel : HttpClient.cancel c (UploadItem.setStatus i .cancelled s) = ({s with
          clients := Function.update s.clients c {s.clients c with
            connectionTimeout := false
            clientState := .init}
          items := Function.update s.items i {s.items i with status := .cancelled}
          log := [.clientFinished c] ++ s.log}, []) := by
        rw [HttpClient.cancel_detached]
        · rfl
        · exact (hquiet c).reply
        · exact hconn
      have hdetached (c' : ClientId) (hc' : s.Detached c') : (Function.update s.clients c
          {s.clients c with connectionTimeout := false, clientState := .init} c').connected = false := by
        rcases eq_or_ne c' c with rfl | hne
        · simpa using hconn
        · rw [Function.update_of_ne hne]
          exact hc'.2.2
      rw [hcancel]
      exact ⟨[], {a with phase := .idle}, ⟨hsame, h.revisit hp hq hc _ _ [.clientFinished c] hl
        (quiet_reset hquiet c) rfl (.inl ⟨rfl, by simp⟩), hstands, ⟨[], rfl, by simp⟩, rfl,
        fun c' hc' => ⟨hc'.1, (quiet_reset hquiet c c').reply, hdetached c' hc'⟩,
        fun _ _ => .inr hfree⟩, .inl rfl⟩

/-- The moves of a cancel, and when they are made. -/
def Cancelling (e : EngineId) (s : State) (a : Service ItemId) : Label → Prop
  | .cancel => True
  | .cut => a.uncounted ≠ 0
  | .abandon | .echo => s.Answerless e
  | _ => False

theorem brings_cancelCurrent (h : Serves e s a)
    (hidle : a.phase = .idle → Stands R (s.engines e) a.phase) (ho : Ordered a) (hu : s.Owned)
    (hlive : live e a.phase = []) (hfree : R.byOwner ∨ (s.engines e).state = .noConnection) :
    ∃ labels a', Brings R e s a (UploadEngine.cancelCurrent e s) labels a' ∧
      ∀ l ∈ labels, Cancelling e s a l := by
  have hserved {i : ItemId} (hh : s.Handles e i) :
      UploadEngine.cancelCurrent e s = UploadItem.cancel i s := by
    simp [UploadEngine.cancelCurrent, hh.current, hh.alive]
  have hd := h.doing
  cases hp : a.phase with
  | idle =>
    cases hc : (s.engines e).currentItem with
    | none =>
      have heq : UploadEngine.cancelCurrent e s = (s, []) := by simp [UploadEngine.cancelCurrent, hc]
      rw [heq]
      exact ⟨[], a, .of_alike h (.refl s) (hidle hp) hlive (by simp) (by simp), by simp⟩
    | some i =>
      by_cases ha : (s.items i).alive = true
      · have heq : UploadEngine.cancelCurrent e s = UploadItem.cancel i s := by
          simp [UploadEngine.cancelCurrent, hc, ha]
        rw [heq]
        obtain ⟨labels, a', hb, hlabels⟩ := brings_cancelPast h (hidle hp) ho hu hp hfree hc ha
        refine ⟨labels, a', hb, fun l hl => ?_⟩
        rcases hlabels with rfl | ⟨rfl, hans⟩
        · cases hl
        · rw [List.mem_singleton.mp hl]
          exact hans
      · have heq : UploadEngine.cancelCurrent e s = (s.emit (.fault .deletedItem), []) := by
          simp [UploadEngine.cancelCurrent, hc, ha]
        rw [heq]
        exact ⟨[], a, .of_alike h (.emit rfl) (hidle hp) hlive (by simp) (by simp), by simp⟩
  | waiting i =>
    rw [hp] at hd
    rw [hserved hd.1]
    obtain ⟨label, a', hb, hlabel⟩ := brings_cancelWaiting h ho hp hfree
    refine ⟨[label], a', hb, fun l hl => ?_⟩
    rw [List.mem_singleton.mp hl]
    rcases hlabel with rfl | ⟨rfl, hne⟩
    · trivial
    · exact hne
  | sending i =>
    rw [hp] at hd
    rw [hserved hd.1]
    obtain ⟨label, a', hb, hlabel⟩ := brings_cancelSending h ho hu hp hfree
    refine ⟨[label], a', hb, fun l hl => ?_⟩
    rw [List.mem_singleton.mp hl]
    rcases hlabel with rfl | ⟨rfl, hne⟩
    · trivial
    · exact hne
  | stalled i =>
    rw [hp] at hd
    rw [hserved hd.1]
    obtain ⟨a', hb, hans⟩ := brings_cancelStalled (R := R) h ho hu hp
    refine ⟨[.abandon], a', hb, fun l hl => ?_⟩
    rw [List.mem_singleton.mp hl]
    exact hans
  | handing | ending | echo | drained => simp [hp, live] at hlive

/-! ### The session -/

theorem Brings.append {r : State × List Call} {labels : List Label} {a' : Service ItemId}
    (h : Brings R e s a r labels a') (calls : List Call) (hs : ∀ k ∈ calls, k.Settled e r.1)
    (hcount : .itemEnqueued ∉ calls) : Brings R e s a (r.1, r.2 ++ calls) labels a' := by
  obtain ⟨tail, hr, htail⟩ := h.calls
  refine {h with calls := ⟨tail ++ calls, ?_, fun k hk => ?_⟩, counts := ?_}
  · rw [hr, List.append_assoc]
  · exact (List.mem_append.mp hk).elim (htail k) (hs k)
  · rw [List.count_append, List.count_eq_zero_of_not_mem hcount]
    exact h.counts

theorem Alike.answerless {t : State} (h : Alike e s t) (ht : t.Answerless e) : s.Answerless e := by
  obtain ⟨i, c, hc, ha, hh, hr, hconn⟩ := ht
  rw [h.items] at ha hh
  rw [h.clients] at hr hconn
  exact ⟨i, c, h.current ▸ hc, ha, hh, hr, hconn⟩

theorem brings_sessionDisconnected (h : Serves e s a) (ho : Ordered a) (hu : s.Owned)
    (hlive : live e a.phase = [])
    (hidle : a.phase = .idle ↔ (s.engines e).state ≠ .connecting ∧ (s.engines e).state ≠ .connected) :
    ∃ labels a', Brings R e s a (UploadEngine.sessionDisconnected e s) labels a' ∧
      ∀ l ∈ labels, ((s.engines e).state = .connecting ∨ (s.engines e).state = .connected) ∧
        Cancelling e s a l := by
  have hchange : Alike e s (UploadEngine.stateChange e .noConnection s) := .stateChange _
  have hcancel (type : ErrorType) (hne : a.phase ≠ .idle) : ∃ labels a', Brings R e s a
      (UploadEngine.cancelCurrent e (UploadEngine.setErrorType e type
        (UploadEngine.stateChange e .noConnection s))) labels a' ∧ ∀ l ∈ labels, Cancelling e s a l := by
    have hs := hchange.trans (.setErrorType type)
    have hstate : ((UploadEngine.setErrorType e type
        (UploadEngine.stateChange e .noConnection s)).engines e).state = .noConnection := by
      unfold UploadEngine.setErrorType
      split <;> simp [UploadEngine.stateChange]
    obtain ⟨labels, a', hb, hlabels⟩ := brings_cancelCurrent (R := R) (h.alike hs)
      (fun hp => absurd hp hne) ho (hs.owned hu) hlive (.inr hstate)
    refine ⟨labels, a', hb.after hs, fun l hl => ?_⟩
    have hl' := hlabels l hl
    cases l with
    | abandon | echo => exact hs.answerless hl'
    | _ => exact hl'
  by_cases hc : (s.engines e).state = .connecting
  · obtain ⟨labels, a', hb, hlabels⟩ := hcancel .connectionNotAvailable fun hp => (hidle.mp hp).1 hc
    exact ⟨labels, a', by simpa [UploadEngine.sessionDisconnected, hc] using hb,
      fun l hl => ⟨.inl hc, hlabels l hl⟩⟩
  · by_cases hc' : (s.engines e).state = .connected
    · obtain ⟨labels, a', hb, hlabels⟩ := hcancel .connectionClosed fun hp => (hidle.mp hp).2 hc'
      exact ⟨labels, a', by simpa [UploadEngine.sessionDisconnected, hc'] using hb,
        fun l hl => ⟨.inr hc', hlabels l hl⟩⟩
    · have heq : UploadEngine.sessionDisconnected e s = (UploadEngine.stateChange e .noConnection s, []) := by
        cases hst : (s.engines e).state <;> simp_all [UploadEngine.sessionDisconnected]
      have hp : a.phase = .idle := hidle.mpr ⟨hc, hc'⟩
      rw [heq]
      refine ⟨[], a, .of_alike h hchange ?_ hlive (by simp) (by simp), by simp⟩
      rw [hp]
      exact .inl (by simp [UploadEngine.stateChange])

theorem brings_connectionLost (h : Serves e s a) (hstands : Stands R (s.engines e) a.phase)
    (ho : Ordered a) (hu : s.Owned) (hlive : live e a.phase = []) {t : State} (hs : Alike e s t)
    (hstate : (t.engines e).state = (s.engines e).state) :
    ∃ labels a', Brings R e s a (UploadEngine.sessionDisconnected e t) labels a' ∧
      ∀ l ∈ labels, ((s.engines e).state = .connecting ∨ (s.engines e).state = .connected) ∧
        Cancelling e s a l := by
  have hidle := (stands_cases hstands hlive).2
  rw [← hstate] at hidle
  obtain ⟨labels, a', hb, hlabels⟩ := brings_sessionDisconnected (R := R) (h.alike hs) ho (hs.owned hu) hlive hidle
  refine ⟨labels, a', hb.after hs, fun l hl => ?_⟩
  obtain ⟨hst, hl'⟩ := hlabels l hl
  rw [hstate] at hst
  refine ⟨hst, ?_⟩
  cases l with
  | abandon | echo => exact hs.answerless hl'
  | _ => exact hl'

end Functions

end CrashReporter.Upload
