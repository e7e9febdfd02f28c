import CrashReporter.Upload.Bookkeeping

/-! A client by itself.

Its owner calls initSession(), upload() and cancel() at any time, also from a slot of one of
its signals; Qt delivers the signals of the reply, and the connection timer. Each upload is
to end once. `cancel` ends it a second time: the reply that it aborts has reported its end
before. -/
namespace CrashReporter.Upload
open Reactor

inductive ClientEvent where
  | initSession (deleteAfterSending : Bool)
  | upload (file : Path)
  | cancel
  /-- The connection timer expires. -/
  | timeout
  | replyError (errorString : String)
  | replyFinished (answer : ServerReply)
  | uploadProgress (bytesSent bytesTotal : Int)
  | sslErrors
  | file (path : Path) (file : Option File)
  | coreLocations (paths : List Path) (logWritable : Bool)
deriving DecidableEq

/-- The reply has not reported its end. -/
def State.transmits (s : State) (c : ClientId) : Bool :=
  (s.clients c).network = .running || (s.clients c).network = .failed

/-- The owner starts no new session during an upload. -/
def clientDeliver (c : ClientId) (ev : ClientEvent) (s : State) : Option (State × List Call) :=
  match ev with
  | .initSession deleteAfterSending =>
    if s.transmits c then none else some (HttpClient.init c deleteAfterSending s, [])
  | .upload file => some ((HttpClient.createRequest c file s).1, [])
  | .cancel => some (HttpClient.cancel c s)
  | .timeout => if (s.clients c).connectionTimeout then some (HttpClient.cancel c s) else none
  | .replyError errorString =>
    if s.transmits c then
      some (HttpClient.handleError c errorString (s.setClient c {s.clients c with network := .failed}))
    else none
  | .replyFinished answer =>
    if s.transmits c then
      some (HttpClient.handleFinished c answer (s.setClient c {s.clients c with network := .finished}))
    else none
  | .uploadProgress bytesSent bytesTotal =>
    if s.transmits c then some (HttpClient.handleUploadProgress c bytesSent bytesTotal s, []) else none
  | .sslErrors =>
    if (s.clients c).network = .running then some (HttpClient.handleSslErrors c s, []) else none
  | .file path file => some ({s with files := Function.update s.files path file}, [])
  | .coreLocations paths logWritable =>
    some ({s with coreLocations := paths, uploadLogWritable := logWritable}, [])

/-- A client and its owner. -/
def clientAlone (c : ClientId) : Reactor State Call ClientEvent := ⟨exec, clientDeliver c, fun _ _ => true⟩

/-! ### Uploads -/

/-- What the client reports of an upload. -/
inductive Report where
  | error | finished
deriving DecidableEq

/-- The reports of each upload that was accepted, all latest first. A report belongs to
the last upload before it. -/
def uploads (c : ClientId) : List Output → List (List Report)
  | [] => []
  | .put c' _ _ _ :: log => if c' = c then [] :: uploads c log else uploads c log
  | .clientError c' _ :: log => if c' = c then (uploads c log).modifyHead (.error :: ·) else uploads c log
  | .clientFinished c' :: log => if c' = c then (uploads c log).modifyHead (.finished :: ·) else uploads c log
  | _ :: log => uploads c log

/-- An upload that ended once, with at most one error before. -/
def EndedOnce (reports : List Report) : Prop := reports = [.finished] ∨ reports = [.finished, .error]

/-- The client is ready for the next upload. -/
structure Client.Ready (v : Client) : Prop where
  state : v.clientState = .init
  reply : v.reply = false
  timer : v.connectionTimeout = false

/-- Each upload ends once: the last one when its reply has reported its end, and the others
before the next one starts. The client is ready then. -/
structure FinishesOnce (c : ClientId) (s : State) : Prop where
  earlier : ∀ reports ∈ (uploads c s.log).tail, EndedOnce reports
  last : ∀ reports ∈ (uploads c s.log).head?,
    ((s.clients c).network = .running ∧ reports = []) ∨
    ((s.clients c).network = .failed ∧ reports = [.error]) ∨
    ((s.clients c).network = .finished ∧ EndedOnce reports ∧ (s.clients c).Ready)

/-- A client that has just been created, with its signals not connected to an item. -/
structure NewClient (c : ClientId) (s : State) : Prop where
  state : (s.clients c).clientState = .none
  reply : (s.clients c).reply = false
  timer : (s.clients c).connectionTimeout = false
  network : (s.clients c).network = .absent
  connected : (s.clients c).connected = false
  uploads : uploads c s.log = []

/-- Neither the owner nor the connection timer calls cancel() once an upload was accepted. -/
def Uncancelled (c : ClientId) : Guard State Call ClientEvent := fun x a =>
  a = .event .cancel ∨ a = .event .timeout → uploads c x.state.log = []

/-! ### One handler -/

variable {s : State} {c : ClientId}

theorem uploads_bookkeeping {new : List Output} (h : ∀ o ∈ new, o.bookkeeping = true) (log : List Output) :
    uploads c (new ++ log) = uploads c log := by
  induction new with
  | nil => rfl
  | cons o rest ih =>
    have hrest := ih fun o ho => h o (List.mem_cons_of_mem _ ho)
    have ho := h o (List.mem_cons_self ..)
    cases o
    case uploadLog | removed | fault => exact hrest
    all_goals exact Bool.noConfusion ho

namespace HttpClient

theorem finished_alone (hc : (s.clients c).connected = false) : finished c s = (s.emit (.clientFinished c), []) := by
  simp [finished, hc]

theorem uploadError_alone (hc : (s.clients c).connected = false) (errorString : String) :
    uploadError c errorString s = (s.emit (.clientError c errorString), []) := by
  simp [uploadError, hc]

theorem handleError_alone (hc : (s.clients c).connected = false) (hr : (s.clients c).reply = true)
    (hn : (s.clients c).network = .failed) (errorString : String) : handleError c errorString s =
      ((s.setClient c {s.clients c with reply := false}).emit (.clientError c errorString), []) := by
  rw [handleError, if_pos (by simp [hr, hn]), uploadError_alone (by simpa using hc)]

/-- The end of a reply, or of an upload without one. -/
theorem handleFinished_alone (hc : (s.clients c).connected = false) (answer : ServerReply) :
    ∃ s', handleFinished c answer s = (s', []) ∧
      s'.clients c = {s.clients c with connectionTimeout := false, reply := false, clientState := .init} ∧
      uploads c s'.log = (uploads c s.log).modifyHead (.finished :: ·) := by
  cases hr : (s.clients c).reply with
  | false =>
    rw [handleFinished_idle c answer hr, finished_alone (by simpa using hc)]
    exact ⟨_, rfl, by simp [← hr], by simp [uploads]⟩
  | true =>
    obtain ⟨files, new, hconclude, -, hbook, -⟩ := conclude_outputs (s := stopTimer c s) (c := c) answer
      (by simpa [stopTimer] using hr)
    rw [handleFinished_reply answer hr, hconclude, finished_alone (by simpa [forget, stopTimer] using hc)]
    refine ⟨_, rfl, by simp [forget, stopTimer], ?_⟩
    simp [forget, stopTimer, uploads, uploads_bookkeeping hbook]

end HttpClient

/-! ### Without cancel() -/

/-- Where a client is between its uploads, as long as none was cancelled. -/
inductive ClientPhase (c : ClientId) (s : State) : Prop where
  | unused (network : (s.clients c).network = .absent) (reply : (s.clients c).reply = false)
    (timer : (s.clients c).connectionTimeout = false) (none : uploads c s.log = [])
  | running {earlier : List (List Report)} (network : (s.clients c).network = .running)
    (reply : (s.clients c).reply = true) (state : (s.clients c).clientState ≠ .init)
    (last : uploads c s.log = [] :: earlier) (ended : ∀ reports ∈ earlier, EndedOnce reports)
  | failed {earlier : List (List Report)} (network : (s.clients c).network = .failed)
    (reply : (s.clients c).reply = false) (state : (s.clients c).clientState ≠ .init)
    (last : uploads c s.log = [.error] :: earlier) (ended : ∀ reports ∈ earlier, EndedOnce reports)
  | ended (network : (s.clients c).network = .finished) (ready : (s.clients c).Ready)
    (some : uploads c s.log ≠ []) (ended : ∀ reports ∈ uploads c s.log, EndedOnce reports)

/-- A client whose signals reach nobody but its owner. -/
structure Solo (c : ClientId) (s : State) : Prop where
  connected : (s.clients c).connected = false
  phase : ClientPhase c s

namespace ClientPhase

theorem finishesOnce (h : ClientPhase c s) : FinishesOnce c s := by
  cases h with
  | unused _ _ _ hu =>
    refine ⟨?_, ?_⟩ <;> simp [hu]
  | running hn _ _ hu he =>
    refine ⟨by simpa [hu] using he, fun reports hr => .inl ⟨hn, ?_⟩⟩
    simpa [hu, eq_comm] using hr
  | failed hn _ _ hu he =>
    refine ⟨by simpa [hu] using he, fun reports hr => .inr (.inl ⟨hn, ?_⟩)⟩
    simpa [hu, eq_comm] using hr
  | ended hn hready _ he =>
    exact ⟨fun reports hr => he reports (List.mem_of_mem_tail hr),
      fun reports hr => .inr (.inr ⟨hn, he reports (List.mem_of_mem_head? hr), hready⟩)⟩

/-- Before an upload may start, the last one has ended. -/
theorem all_ended (h : ClientPhase c s) (hs : (s.clients c).clientState = .init) :
    ∀ reports ∈ uploads c s.log, EndedOnce reports := by
  cases h with
  | unused _ _ _ hu => simp [hu]
  | running _ _ hne => exact absurd hs hne
  | failed _ _ hne => exact absurd hs hne
  | ended _ _ _ he => exact he

/-- The file and the deletion of a client have no part in this. -/
theorem of_client {s' : State} (h : ClientPhase c s) (hl : uploads c s'.log = uploads c s.log)
    (hn : (s'.clients c).network = (s.clients c).network) (hr : (s'.clients c).reply = (s.clients c).reply)
    (ht : (s'.clients c).connectionTimeout = (s.clients c).connectionTimeout)
    (hs : (s'.clients c).clientState = (s.clients c).clientState) : ClientPhase c s' := by
  cases h with
  | unused hn' hr' ht' hu => exact .unused (hn.trans hn') (hr.trans hr') (ht.trans ht') (hl.trans hu)
  | running hn' hr' hne hu he => exact .running (hn.trans hn') (hr.trans hr') (hs ▸ hne) (hl.trans hu) he
  | failed hn' hr' hne hu he => exact .failed (hn.trans hn') (hr.trans hr') (hs ▸ hne) (hl.trans hu) he
  | ended hn' hready hu he =>
    exact .ended (hn.trans hn') ⟨hs.trans hready.state, hr.trans hready.reply, ht.trans hready.timer⟩
      (hl ▸ hu) (hl ▸ he)

end ClientPhase

namespace Solo

theorem initSession (h : Solo c s) (hn : s.transmits c = false) (deleteAfterSending : Bool) :
    Solo c (HttpClient.init c deleteAfterSending s) := by
  refine ⟨by simpa [HttpClient.init] using h.connected, ?_⟩
  cases h.phase with
  | unused hn' hr ht hu =>
    exact .unused (by simpa [HttpClient.init] using hn') (by simpa [HttpClient.init] using hr)
      (by simpa [HttpClient.init] using ht) hu
  | running hn' => simp [State.transmits, hn'] at hn
  | failed hn' => simp [State.transmits, hn'] at hn
  | ended hn' hready hu he =>
    refine .ended (by simpa [HttpClient.init] using hn') ⟨by simp [HttpClient.init], ?_, ?_⟩ hu he
    · simpa [HttpClient.init] using hready.reply
    · simpa [HttpClient.init] using hready.timer

/-- An upload that is refused changes nothing but the name of the file; one that is
accepted has nothing to report yet. -/
theorem upload (h : Solo c s) (file : Path) : Solo c (HttpClient.createRequest c file s).1 := by
  unfold HttpClient.createRequest
  split
  · exact h
  · rename_i hs
    have hinit : (s.clients c).clientState = .init := not_not.mp hs
    dsimp only
    split
    · refine ⟨by simpa using h.connected, h.phase.of_client rfl ?_ ?_ ?_ ?_⟩ <;> simp
    · refine ⟨by simpa using h.connected, .running ?_ ?_ ?_ ?_ (h.phase.all_ended hinit)⟩
      · simp
      · simp
      · simp
      · simp [uploads]

/-- cancel() before the first upload. -/
theorem cancel (h : Solo c s) (hu : uploads c s.log = []) :
    (HttpClient.cancel c s).2 = [] ∧ Solo c (HttpClient.cancel c s).1 := by
  have hphase := h.phase
  obtain ⟨hn, hr⟩ : (s.clients c).network = .absent ∧ (s.clients c).reply = false := by
    cases hphase with
    | unused hn hr => exact ⟨hn, hr⟩
    | running _ _ _ hl => simp [hu] at hl
    | failed _ _ _ hl => simp [hu] at hl
    | ended _ _ hne => exact absurd hu hne
  obtain ⟨s', heq, hclient, hreports⟩ := HttpClient.handleFinished_alone
    (s := s.setClient c {s.clients c with clientState := .aborting}) (c := c) (by simpa using h.connected)
    HttpClient.noAnswer
  rw [HttpClient.cancel_idle c hr, heq]
  refine ⟨rfl, by simpa [hclient] using h.connected, .unused ?_ ?_ ?_ ?_⟩
  · simpa [hclient] using hn
  · simp [hclient]
  · simp [hclient]
  · simpa [hu] using hreports

/-- error() of the reply. -/
theorem replyError (h : Solo c s) (ht : s.transmits c = true) (errorString : String) :
    (HttpClient.handleError c errorString (s.setClient c {s.clients c with network := .failed})).2 = [] ∧
      Solo c (HttpClient.handleError c errorString (s.setClient c {s.clients c with network := .failed})).1 := by
  cases h.phase with
  | unused hn => simp [State.transmits, hn] at ht
  | ended hn => simp [State.transmits, hn] at ht
  | running hn hr hs hu he =>
    rw [HttpClient.handleError_alone (by simpa using h.connected) (by simpa using hr) (by simp)]
    refine ⟨rfl, by simpa using h.connected, .failed (by simp) (by simp) (by simpa using hs) ?_ he⟩
    simp [uploads, hu]
  | failed hn hr hs hu he =>
    have heq : HttpClient.handleError c errorString (s.setClient c {s.clients c with network := .failed}) =
        (s.setClient c {s.clients c with network := .failed}, []) := by
      rw [HttpClient.handleError, if_neg (by simp [hr])]
    rw [heq]
    exact ⟨rfl, by simpa using h.connected, .failed (by simp) (by simpa using hr) (by simpa using hs) hu he⟩

/-- finished() of the reply. -/
theorem replyFinished (h : Solo c s) (ht : s.transmits c = true) (answer : ServerReply) :
    (HttpClient.handleFinished c answer (s.setClient c {s.clients c with network := .finished})).2 = [] ∧
      Solo c (HttpClient.handleFinished c answer (s.setClient c {s.clients c with network := .finished})).1 := by
  obtain ⟨s', heq, hclient, hreports⟩ := HttpClient.handleFinished_alone
    (s := s.setClient c {s.clients c with network := .finished}) (c := c) (by simpa using h.connected) answer
  have hended {reports : List Report} {earlier : List (List Report)} (hu : uploads c s.log = reports :: earlier)
      (hr : EndedOnce (.finished :: reports)) (he : ∀ reports ∈ earlier, EndedOnce reports) : Solo c s' := by
    have hnew : uploads c s'.log = (.finished :: reports) :: earlier := by simpa [hu] using hreports
    refine ⟨by simpa [hclient] using h.connected, .ended ?_ ⟨?_, ?_, ?_⟩ (by simp [hnew]) ?_⟩
    · simp [hclient]
    · simp [hclient]
    · simp [hclient]
    · simp [hclient]
    · rw [hnew]
      exact List.forall_mem_cons.mpr ⟨hr, he⟩
  rw [heq]
  refine ⟨rfl, ?_⟩
  cases h.phase with
  | unused hn => simp [State.transmits, hn] at ht
  | ended hn => simp [State.transmits, hn] at ht
  | running _ _ _ hu he => exact hended hu (.inl rfl) he
  | failed _ _ _ hu he => exact hended hu (.inr rfl) he

/-- Progress of a reply that is there. -/
theorem handleUploadProgress_reply (hr : (s.clients c).reply = true) (bytesSent bytesTotal : Int) :
    (HttpClient.handleUploadProgress c bytesSent bytesTotal s).clients c =
        {s.clients c with connectionTimeout := false, clientState := .sending} ∧
      uploads c (HttpClient.handleUploadProgress c bytesSent bytesTotal s).log = uploads c s.log := by
  by_cases hs : (s.clients c).clientState = .sending <;> by_cases ht : bytesTotal = 0 <;>
    simp [HttpClient.handleUploadProgress, hr, hs, ht, uploads]

theorem uploadProgress (h : Solo c s) (ht : s.transmits c = true) (bytesSent bytesTotal : Int) :
    Solo c (HttpClient.handleUploadProgress c bytesSent bytesTotal s) := by
  cases h.phase with
  | unused hn => simp [State.transmits, hn] at ht
  | ended hn => simp [State.transmits, hn] at ht
  | running hn hr hs hu he =>
    obtain ⟨hclient, hlog⟩ := handleUploadProgress_reply hr bytesSent bytesTotal
    refine ⟨by simpa [hclient] using h.connected, .running ?_ ?_ ?_ (hlog.trans hu) he⟩
    · simpa [hclient] using hn
    · simpa [hclient] using hr
    · simp [hclient]
  | failed hn hr hs hu he =>
    have heq : HttpClient.handleUploadProgress c bytesSent bytesTotal s =
        s.setClient c {s.clients c with connectionTimeout := false} := by
      simp [HttpClient.handleUploadProgress, hr]
    rw [heq]
    exact ⟨by simpa using h.connected, .failed (by simpa using hn) (by simpa using hr) (by simpa using hs) hu he⟩

theorem deliver (h : Solo c s) {ev : ClientEvent} {r : State × List Call} (hr : clientDeliver c ev s = some r)
    (hg : ev = .cancel ∨ ev = .timeout → uploads c s.log = []) : r.2 = [] ∧ Solo c r.1 := by
  cases ev with
  | initSession deleteAfterSending =>
    simp only [clientDeliver] at hr
    split at hr
    · cases hr
    · rename_i ht
      cases hr
      exact ⟨rfl, h.initSession (by simpa using ht) deleteAfterSending⟩
  | upload file =>
    cases hr
    exact ⟨rfl, h.upload file⟩
  | cancel =>
    cases hr
    exact h.cancel (hg (.inl rfl))
  | timeout =>
    simp only [clientDeliver] at hr
    split at hr
    · cases hr
      exact h.cancel (hg (.inr rfl))
    · cases hr
  | replyError errorString =>
    simp only [clientDeliver] at hr
    split at hr
    · rename_i ht
      cases hr
      exact h.replyError ht errorString
    · cases hr
  | replyFinished answer =>
    simp only [clientDeliver] at hr
    split at hr
    · rename_i ht
      cases hr
      exact h.replyFinished ht answer
    · cases hr
  | uploadProgress bytesSent bytesTotal =>
    simp only [clientDeliver] at hr
    split at hr
    · rename_i ht
      cases hr
      exact ⟨rfl, h.uploadProgress ht bytesSent bytesTotal⟩
    · cases hr
  | sslErrors =>
    simp only [clientDeliver] at hr
    split at hr
    · rename_i hn
      cases hr
      refine ⟨rfl, ?_⟩
      unfold HttpClient.handleSslErrors
      split
      · exact h
      · exact ⟨h.connected, h.phase.of_client rfl rfl rfl rfl rfl⟩
    · cases hr
  | file path file =>
    cases hr
    exact ⟨rfl, h.connected, h.phase.of_client rfl rfl rfl rfl rfl⟩
  | coreLocations paths logWritable =>
    cases hr
    exact ⟨rfl, h.connected, h.phase.of_client rfl rfl rfl rfl rfl⟩

end Solo

/-- Two ends of one upload are one too many. -/
theorem not_finishesOnce {reports : List Report} {earlier : List (List Report)}
    (hu : uploads c s.log = (.finished :: .finished :: reports) :: earlier) : ¬FinishesOnce c s := by
  intro h
  rcases h.last _ (by rw [hu]; rfl) with ⟨-, hr⟩ | ⟨-, hr⟩ | ⟨-, hr | hr, -⟩ <;> simp at hr

/-- The two calls that a cancel() makes when the client has a reply. -/
theorem drain_cancelled (hc : (s.clients c).connected = false) :
    ((clientAlone c).drain 2 ⟨s, [.aborted c, .cancelled c]⟩).stack = [] ∧
      uploads c ((clientAlone c).drain 2 ⟨s, [.aborted c, .cancelled c]⟩).state.log =
        (uploads c s.log).modifyHead fun reports => .finished :: .finished :: reports := by
  obtain ⟨t, haborted, hclient, hlog⟩ := HttpClient.handleFinished_alone
    (s := s.setClient c {s.clients c with network := .finished}) (c := c) (by simpa using hc) HttpClient.noAnswer
  obtain ⟨u, hcancelled, -, hlog'⟩ := HttpClient.handleFinished_alone
    (s := t.setClient c {t.clients c with reply := false}) (c := c) (by simpa [hclient] using hc) HttpClient.noAnswer
  have hdrain : (clientAlone c).drain 2 ⟨s, [.aborted c, .cancelled c]⟩ = ⟨u, []⟩ := by
    have haborted' : exec (.aborted c) s = (t, []) := haborted
    have hcancelled' : exec (.cancelled c) t = (u, []) := hcancelled
    simp [drain, called, clientAlone, haborted', hcancelled']
  rw [hdrain]
  refine ⟨rfl, ?_⟩
  dsimp only
  rw [hlog', State.setClient_log, hlog, State.setClient_log]
  cases uploads c s.log <;> rfl

/-- An upload that is cancelled is told to end twice. -/
theorem cancel_twice (hc : (s.clients c).connected = false) (hr : (s.clients c).reply = true)
    (hu : uploads c s.log ≠ []) :
    ((clientAlone c).drain 2 ⟨(HttpClient.cancel c s).1, (HttpClient.cancel c s).2⟩).stack = [] ∧
      ¬FinishesOnce c ((clientAlone c).drain 2 ⟨(HttpClient.cancel c s).1, (HttpClient.cancel c s).2⟩).state := by
  obtain ⟨reports, earlier, hu⟩ := List.exists_cons_of_ne_nil hu
  rw [HttpClient.cancel_reply c hr, HttpClient.handleError_alone (by simpa using hc) (by simpa using hr) (by simp),
    List.nil_append]
  obtain ⟨hstack, hreports⟩ := drain_cancelled (c := c)
    (s := ((s.setClient c {s.clients c with clientState := .aborting, network := .failed}).setClient c
      {(s.setClient c {s.clients c with clientState := .aborting, network := .failed}).clients c with
        reply := false}).emit (.clientError c HttpClient.abortMessage)) (by simpa using hc)
  refine ⟨hstack, @not_finishesOnce _ _ (.error :: reports) earlier ?_⟩
  simpa [uploads, hu] using hreports

/-- Nor does a cancel() go unnoticed that comes later. -/
theorem cancel_breaks (h : Solo c s) (hu : uploads c s.log ≠ []) :
    ∃ n, ((clientAlone c).drain n ⟨(HttpClient.cancel c s).1, (HttpClient.cancel c s).2⟩).stack = [] ∧
      ¬FinishesOnce c ((clientAlone c).drain n ⟨(HttpClient.cancel c s).1, (HttpClient.cancel c s).2⟩).state := by
  cases hr : (s.clients c).reply with
  | true => exact ⟨2, cancel_twice h.connected hr hu⟩
  | false =>
    obtain ⟨s', heq, hclient, hreports⟩ := HttpClient.handleFinished_alone
      (s := s.setClient c {s.clients c with clientState := .aborting}) (c := c) (by simpa using h.connected)
      HttpClient.noAnswer
    rw [HttpClient.cancel_idle c hr, heq]
    refine ⟨0, rfl, fun hf => ?_⟩
    change FinishesOnce c s' at hf
    rw [State.setClient_log] at hreports
    cases h.phase with
    | unused _ _ _ hnone => exact hu hnone
    | running _ hr' => simp [hr] at hr'
    | failed hn _ _ hlast =>
      rw [hlast] at hreports
      -- The reply has not reported its end.
      rcases hf.last _ (by rw [hreports]; rfl) with ⟨hn', -⟩ | ⟨-, hr'⟩ | ⟨hn', -⟩
      · simp [hclient, hn] at hn'
      · simp at hr'
      · simp [hclient, hn] at hn'
    | ended _ _ _ hended =>
      obtain ⟨reports, earlier, hlast⟩ := List.exists_cons_of_ne_nil hu
      rw [hlast] at hreports
      rcases hended reports (by simp [hlast]) with rfl | rfl
      · exact not_finishesOnce hreports hf
      · exact not_finishesOnce hreports hf

/-- Whatever a client's owner, its replies and its connection timer do: without cancel(),
each upload ends once; and once an upload was accepted, no cancel() leaves it so when it
has returned. -/
theorem finishes_once {s₀ : State} (h₀ : NewClient c s₀) {x : Config}
    (hx : Reaches (clientAlone c) (Uncancelled c) ⟨s₀, []⟩ x) :
    FinishesOnce c x.state ∧ ∀ ev r, ev = .cancel ∨ ev = .timeout → uploads c x.state.log ≠ [] →
      clientDeliver c ev x.state = some r →
        ∃ n, ((clientAlone c).drain n ⟨r.1, r.2 ++ x.stack⟩).stack = [] ∧
          ¬FinishesOnce c ((clientAlone c).drain n ⟨r.1, r.2 ++ x.stack⟩).state := by
  obtain ⟨hstack, halone⟩ : x.stack = [] ∧ Solo c x.state := by
    refine hx.invariant (I := fun x => x.stack = [] ∧ Solo c x.state) ?_ ?_ ?_
    · exact ⟨rfl, h₀.connected, .unused h₀.network h₀.reply h₀.timer h₀.uploads⟩
    · intro s k rest _ _ h
      cases h.1
    · intro s stack ev r _ hg _ hr h
      obtain ⟨hcalls, hr⟩ := h.2.deliver hr fun hev => hg (hev.imp (congrArg Action.event) (congrArg Action.event))
      have hstack : stack = [] := h.1
      exact ⟨by simp [hcalls, hstack], hr⟩
  refine ⟨halone.phase.finishesOnce, fun ev r hev hu hr => ?_⟩
  have hcancel : r = HttpClient.cancel c x.state := by
    rcases hev with rfl | rfl
    · exact (Option.some.inj hr).symm
    · simp only [clientDeliver] at hr
      split at hr
      · exact (Option.some.inj hr).symm
      · cases hr
  rw [hcancel, hstack, List.append_nil]
  exact cancel_breaks halone hu

/-- A client, and a file to upload. -/
def newClient : Config :=
  ⟨blank .usbCable (fun p => if p = "/a.rcore" then some ⟨[1, 2], true, none⟩ else none) ["/cores"] true, []⟩

/-- The upload of a file, and of the same file again when the first one fails. -/
def uploadTwice : List (Reactor.Action ClientEvent) :=
  [.event (.initSession false), .event (.upload "/a.rcore"), .event (.uploadProgress 1 2),
    .event (.replyError "reset"), .event (.replyFinished HttpClient.noAnswer), .event (.upload "/a.rcore"),
    .event (.replyFinished ⟨true, none⟩)]

/-- The guard, computed. -/
def uncancelled (c : ClientId) (x : Config) : Reactor.Action ClientEvent → Bool
  | .event .cancel | .event .timeout => (uploads c x.state.log).isEmpty
  | _ => true

theorem uncancelled_sound (c : ClientId) (x : Config) (a : Reactor.Action ClientEvent)
    (h : uncancelled c x a = true) : Uncancelled c x a := by
  rintro (rfl | rfl)
  · simpa [uncancelled] using h
  · simpa [uncancelled] using h

theorem newClient_new : NewClient 0 newClient.state := ⟨rfl, rfl, rfl, rfl, rfl, rfl⟩

theorem finishes_once_uploadTwice :
    FinishesOnce 0 (((clientAlone 0).run uploadTwice newClient).get (by decide)).state :=
  (finishes_once newClient_new (Reaches.of_run .start (Guarded.of_check (uncancelled_sound 0) (by decide))
    (Option.some_get (x := (clientAlone 0).run uploadTwice newClient) (by decide)).symm)).1

/-- The owner cancels an upload, and starts another one when it is told that the upload
has ended. -/
def uploadAfterCancel : List (Reactor.Action ClientEvent) :=
  [.event (.initSession false), .event (.upload "/a.rcore"), .event .cancel, .run, .event (.upload "/a.rcore"), .run]

/-- The second upload is told to end while its reply goes on, and the client has forgotten
the reply. -/
theorem upload_after_cancel : ∃ x : Config, (clientAlone 0).run uploadAfterCancel newClient = some x ∧
    uploads 0 x.state.log = [[.finished], [.finished, .error]] ∧ (x.state.clients 0).network = .running ∧
      (x.state.clients 0).reply = false ∧ ¬FinishesOnce 0 x.state := by
  refine ⟨((clientAlone 0).run uploadAfterCancel newClient).get (by decide), (Option.some_get _).symm, by decide,
    by decide, by decide, fun h => ?_⟩
  rcases h.last [.finished] (by decide) with ⟨-, hr⟩ | ⟨hn, -⟩ | ⟨hn, -⟩
  · cases hr
  · exact absurd hn (by decide)
  · exact absurd hn (by decide)

end CrashReporter.Upload
