import CrashReporter.Upload.Mute
import CrashReporter.Upload.Sequence

/-! The error a batch is reported with.

The engine keeps the first error type and the first message it is given. A failure gives
them piece by piece: the session reports, the item is cancelled, its reply is aborted and
reports an error of its own, and uploadFinished() of the item adds to what is there.
`failure` says which events are failures and what each of them reports, and `verdict`
what the engine's error is going to be once the item that is ending has reported:
`verdict_step` is all that a step does to it. -/
namespace CrashReporter.Upload
open Reactor
open Service (Phase Mark Label Move Ordered)

variable {s : State}

structure Failure where
  type : ErrorType
  /-- What it reports, in this order. -/
  messages : List String
deriving DecidableEq

section Failure
variable (e : EngineId) (s : State)

/-- What the cancel of the current item reports: an item that waits has nothing to say. -/
def abortMessages : List String :=
  match (s.engines e).currentItem with
  | none => []
  | some i => if (s.items i).status = .sending then [HttpClient.abortMessage] else []

/-- The session reports an error or its disconnection. -/
def sessionFailure (messages : List String) : Option Failure :=
  match (s.engines e).state with
  | .connecting => some ⟨.connectionNotAvailable, messages ++ abortMessages e s⟩
  | .connected => some ⟨.connectionClosed, messages ++ abortMessages e s⟩
  | _ => none

/-- The owner cancels an item that waits or is being sent. -/
def cancelFailure : Option Failure :=
  match (s.engines e).currentItem with
  | none => none
  | some i =>
    if (s.items i).status = .waiting ∨ (s.items i).status = .sending then
      some ⟨.protocolError, abortMessages e s⟩
    else none

end Failure

/-- The failures of uploads. -/
def failure (s : State) : Event → Option Failure
  | .session e (.error m _) => sessionFailure e s [m]
  | .session e .disconnected => sessionFailure e s []
  | .cancelAll e => cancelFailure e s
  | .replyError _ m => some ⟨.protocolError, [m]⟩
  | .timeout c => if (s.clients c).reply then some ⟨.protocolError, [HttpClient.abortMessage]⟩ else none
  | _ => none

theorem failure_type {ev : Event} {f : Failure} (h : failure s ev = some f) : f.type ≠ .noError := by
  have hsession {e : EngineId} {messages : List String} (h : sessionFailure e s messages = some f) :
      f.type ≠ .noError := by
    unfold sessionFailure at h
    split at h
    · cases h
      simp
    · cases h
      simp
    · cases h
  cases ev with
  | session e signal =>
    cases signal with
    | opened => cases h
    | error => exact hsession h
    | disconnected => exact hsession h
  | cancelAll e =>
    have hc : cancelFailure e s = some f := h
    unfold cancelFailure at hc
    split at hc
    · cases hc
    · split at hc
      · cases hc
        simp
      · cases hc
  | replyError =>
    cases h
    simp
  | timeout c =>
    have hc : (if (s.clients c).reply then some (⟨.protocolError, [HttpClient.abortMessage]⟩ : Failure)
      else none) = some f := h
    split at hc
    · cases hc
      simp
    · cases hc
  | _ => cases h

/-! ### First come, first kept -/

/-- Sets the type and the message unless they are set. -/
def blame (type : ErrorType) (messages : List String) (p : Errors) : Errors :=
  (if p.1 = .noError then type else p.1, p.2.or messages.head?)

def Failure.blame (f : Failure) : Errors → Errors := Upload.blame f.type f.messages

theorem blame_type {type : ErrorType} (h : type ≠ .noError) (messages : List String) (p : Errors) :
    (blame type messages p).1 ≠ .noError := by
  unfold blame
  split
  · exact h
  · assumption

theorem blame_blame {type type' : ErrorType} {messages messages' : List String} {p : Errors}
    (h : type ≠ .noError) :
    blame type' messages' (blame type messages p) = blame type (messages ++ messages') p := by
  have hne := blame_type h messages p
  unfold blame at hne ⊢
  rw [if_neg hne, Option.or_assoc, List.head?_append]

theorem setErrorType_errors (e : EngineId) (type : ErrorType) :
    ((UploadEngine.setErrorType e type s).engines e).errors = blame type [] (s.engines e).errors := by
  unfold UploadEngine.setErrorType blame Engine.errors
  split <;> simp

theorem setErrorString_errors (e : EngineId) (m : Option String) :
    ((UploadEngine.setErrorString e m s).engines e).errors =
      ((s.engines e).error, (s.engines e).errorMessage.or m) := by
  unfold UploadEngine.setErrorString Engine.errors
  cases hm : (s.engines e).errorMessage with
  | none => simp
  | some m' => simp [hm]

/-- The error of the engine, with what the item that is ending will add to it. -/
def verdict (x : Config) : Errors :=
  match x.stack with
  | .uploadFinished e i :: _ =>
    if (x.state.items i).status = .finished then (x.state.engines e).errors
    else blame .protocolError (x.state.items i).errorString.toList (x.state.engines e).errors
  | _ => (x.state.engines 0).errors

/-! ### One step -/

section Step
variable {R : Rules} {a : Service ItemId}

theorem verdict_plain {stack : List Call} (h : ∀ e i, .uploadFinished e i ∉ stack) :
    verdict ⟨s, stack⟩ = (s.engines 0).errors := by
  cases stack with
  | nil => rfl
  | cons k rest =>
    cases k with
    | uploadFinished e i => exact absurd (List.mem_cons_self ..) (h e i)
    | _ => rfl

theorem not_uploadFinished_of_settled {e : EngineId} {calls : List Call}
    (h : ∀ k ∈ calls, k.Settled e s ∨ False) (e' : EngineId) (i : ItemId) :
    .uploadFinished e' i ∉ calls := by
  intro hm
  rcases h _ hm with hk | hk
  · exact hk
  · exact hk

theorem uploadItem_errors (e : EngineId) (i : ItemId) (e' : EngineId) :
    ((UploadEngine.uploadItem e i s).1.engines e').errors = (s.engines e').errors := by
  rw [UploadEngine.uploadItem_eq]
  split
  · rw [UploadItem.startUpload_engines, UploadEngine.take_eq]
    rcases eq_or_ne e' e with rfl | hne
    · simp [UploadEngine.stateChange, Engine.errors]
    · simp [UploadEngine.stateChange, hne]
  · rw [UploadEngine.take_eq]
    rcases eq_or_ne e' e with rfl | hne
    · simp [NwSessionMgr.setSession, Engine.errors]
    · simp [NwSessionMgr.setSession, hne]

theorem queueDone_errors (e e' : EngineId) :
    ((UploadEngine.queueDone e s).1.engines e').errors = (s.engines e').errors := by
  unfold UploadEngine.queueDone UploadEngine.emitFinished NwSessionMgr.close
  dsimp only
  rcases eq_or_ne e' e with rfl | hne
  · split
    · split <;> simp [UploadEngine.stateChange, NwSessionMgr.setSession, Engine.errors, State.emit]
    · simp [Engine.errors, State.emit]
  · split
    · split <;> simp [UploadEngine.stateChange, NwSessionMgr.setSession, State.emit, hne]
    · simp [State.emit, hne]

theorem blame_protocol_errors (e : EngineId) (m : Option String) :
    ((UploadEngine.setErrorString e m (UploadEngine.setErrorType e .protocolError s)).engines e).errors =
      blame .protocolError m.toList (s.engines e).errors := by
  have htype := setErrorType_errors (s := s) e .protocolError
  have herror := congrArg Prod.fst htype
  have hmessage := congrArg Prod.snd htype
  simp only [Engine.errors, blame, List.head?_nil, Option.or_none] at herror hmessage
  rw [setErrorString_errors, herror, hmessage, blame, Option.head?_toList]
  rfl

/-- An upload that failed, or was cancelled, is blamed on the protocol. -/
theorem uploadFinished_errors {e : EngineId} {i : ItemId} {outcome : Outcome}
    (hs : (s.items i).status = .after outcome) :
    ((UploadEngine.uploadFinished e i s).1.engines e).errors =
      if (s.items i).status = .finished then (s.engines e).errors
      else blame .protocolError (s.items i).errorString.toList (s.engines e).errors := by
  rw [← blame_protocol_errors]
  unfold UploadEngine.uploadFinished
  dsimp only
  rw [(Apart.markDone i).engines]
  by_cases hf : (s.items i).status = .finished
  · simp [hf, Engine.errors]
  · have hfail : (s.items i).status = .error ∨ (s.items i).status = .cancelled := by
      cases outcome with
      | finished => exact absurd hs hf
      | failed => exact .inl hs
      | cancelled => exact .inr hs
    rw [if_neg hf, if_pos hfail]
    split
    · rfl
    · rw [Apart.clear.engines]
      split
      · simp [UploadEngine.stateChange, Engine.errors]
      · rfl

theorem calls_uploadItem (e : EngineId) (i : ItemId) (e' : EngineId) (j : ItemId) :
    .uploadFinished e' j ∉ (UploadEngine.uploadItem e i s).2 := by
  rw [UploadEngine.uploadItem_eq]
  split <;> simp

theorem calls_markDone (i : ItemId) (e : EngineId) (j : ItemId) :
    .uploadFinished e j ∉ (UploadItem.markDone i s).2 := by
  cases hq : s.queue.uploadQueue with
  | nil => simp [UploadItem.markDone_last i hq]
  | cons j rest => simp [UploadItem.markDone_next i hq]

theorem Served.not_foreign {k : Call} {rest : List Call}
    (h : Served R (fun _ => False) 0 ⟨s, k :: rest⟩ a) : k.foreign = false := by
  rcases h.cases.2 with hk | ⟨-, hk | hk⟩
  · cases hp : a.phase <;> rw [hp] at hk <;> cases hk <;> rfl
  · cases k <;> first | rfl | exact hk.elim
  · exact hk.elim

/-- The innermost call leaves the verdict as it is. -/
theorem verdict_run {x y : Config} (h : Engaged R x a) (hs : uploader.step x .run = some y) :
    verdict y = verdict x := by
  obtain ⟨k, rest, hx, rfl⟩ := uploader.step_run hs
  obtain ⟨s, stack⟩ := x
  obtain rfl : stack = k :: rest := hx
  obtain ⟨hrest, hk⟩ := h.served.cases
  have hcalled (hcalls : ∀ e i, .uploadFinished e i ∉ (exec k s).2)
      (herrors : ((exec k s).1.engines 0).errors = verdict ⟨s, k :: rest⟩) :
      verdict (uploader.called k rest s) = verdict ⟨s, k :: rest⟩ := by
    refine (verdict_plain fun e i hm => ?_).trans herrors
    rcases List.mem_append.mp hm with hm | hm
    · exact hcalls e i hm
    · exact not_uploadFinished_of_settled hrest e i hm
  have hd := h.served.serves.doing
  cases k with
  | uploadItem e i => exact hcalled (calls_uploadItem e i) (uploadItem_errors e i 0)
  | queueDone e =>
    exact hcalled (by simp [exec, UploadEngine.queueDone, UploadEngine.emitFinished]) (queueDone_errors e 0)
  | uploadFinished e i =>
    have hending : e = 0 ∧ ∃ outcome, (s.items i).status = .after outcome := by
      cases hp : a.phase with
      | ending j outcome =>
        rw [hp] at hk hd
        rcases hk with hk | hk
        · cases hk
          exact ⟨rfl, outcome, hd.2⟩
        · cases hk.1
      | echo j =>
        rw [hp] at hk hd
        rcases hk with hk | hk
        · cases hk
          exact ⟨rfl, .finished, hd.2.2.1⟩
        · cases hk.1
      | idle | handing | waiting | sending | stalled | drained =>
        rw [hp] at hk
        rcases hk with hk | ⟨-, hk | hk⟩
        · cases hk
        · exact hk.elim
        · exact hk.elim
    obtain ⟨rfl, outcome, hstatus⟩ := hending
    refine hcalled (fun e j => ?_) (uploadFinished_errors hstatus)
    show _ ∉ (UploadEngine.uploadFinished 0 i s).2
    exact calls_markDone i e j
  | finished e error sent total =>
    have hreported : (s.engines e).reported = false := h.unreported e
    have hnone : exec (.finished e error sent total) s = (s, []) := by simp [exec, hreported]
    refine hcalled ?_ ?_
    · simp [hnone]
    · rw [hnone]
      rfl
  | sessionOpen e => exact hcalled (by simp [exec]) rfl
  | sessionGone e =>
    refine hcalled (by simp [exec]) ?_
    show ((NwSessionMgr.setSession e none s).engines 0).errors = (s.engines 0).errors
    rcases eq_or_ne 0 e with rfl | hne
    · simp [NwSessionMgr.setSession, Engine.errors]
    · simp [NwSessionMgr.setSession, hne]
  | itemEnqueued => exact hcalled (by simp [exec]) rfl
  | aborted c =>
    have hc : s.Detached c := by
      rcases hk with hk | ⟨-, hk | hk⟩
      · cases hp : a.phase <;> simp [hp, live] at hk
      · exact hk
      · exact hk.elim
    refine hcalled ?_ (congrArg (fun engines => (engines 0).errors) (Apart.aborted c).engines)
    show ∀ e i, _ ∉ (HttpClient.aborted c s).2
    rw [HttpClient.aborted, HttpClient.handleFinished_detached _ (by simpa using hc.2.1) (by simpa using hc.2.2)]
    simp
  | cancelled c =>
    have hc : s.Detached c := by
      rcases hk with hk | ⟨-, hk | hk⟩
      · cases hp : a.phase <;> simp [hp, live] at hk
      · exact hk
      · exact hk.elim
    refine hcalled ?_ (congrArg (fun engines => (engines 0).errors) (Apart.cancelled c).engines)
    show ∀ e i, _ ∉ (HttpClient.cancelled c s).2
    rw [HttpClient.cancelled, HttpClient.handleFinished_detached _ (by simp) (by simpa using hc.2.2)]
    simp
  | addFile | fileAdded | filesAdded | cancelAll | quitTail | exited =>
    exact absurd h.served.not_foreign (by simp [Call.foreign])

/-- What a failure does to the verdict. -/
def blamed : Option Failure → Errors → Errors
  | none, p => p
  | some f, p => f.blame p

theorem verdict_passive {ev : Event} (stack : List Call) {r : State × List Call}
    (hp : ev.passive = true) (hr : deliver ev s = some r) :
    verdict ⟨r.1, r.2 ++ stack⟩ = verdict ⟨s, stack⟩ ∧ failure s ev = none := by
  obtain ⟨hcalls, hitems, -, hengines, -⟩ := deliver_passive hp hr
  refine ⟨?_, ?_⟩
  · rw [hcalls]
    simp only [verdict, hitems, hengines, List.nil_append]
  · cases ev <;> first | rfl | cases hp

/-- The item that ends is at the head of the calls. -/
theorem verdict_ending {r : State × List Call} {i : ItemId} {tail : List Call}
    (hr : r.2 = .uploadFinished 0 i :: tail) (hs : (r.1.items i).status ≠ .finished)
    (calls : List Call) : verdict ⟨r.1, r.2 ++ calls⟩ =
      blame .protocolError (r.1.items i).errorString.toList (r.1.engines 0).errors := by
  rw [hr]
  exact if_neg hs

/-- A cancel ends the item that waits or is being sent. -/
theorem cancelCurrent_ends (h : Serves 0 s a) (hu : s.Owned) {i : ItemId}
    (hp : a.phase = .waiting i ∨ a.phase = .sending i) : ∃ tail,
      (UploadEngine.cancelCurrent 0 s).2 = .uploadFinished 0 i :: tail ∧
        ((UploadEngine.cancelCurrent 0 s).1.items i).status = .cancelled ∧
          (s.Silent → ((UploadEngine.cancelCurrent 0 s).1.items i).errorString.toList = abortMessages 0 s) := by
  have hd := h.doing
  rcases hp with hp | hp
  · rw [hp] at hd
    obtain ⟨hh, hs, hhttp⟩ := hd
    rw [hh.cancelCurrent, UploadItem.cancel_waiting hs hhttp, uploadFinishedCalls_eq hh]
    refine ⟨[], rfl, by simp, fun hsilent => ?_⟩
    simp [abortMessages, hh.current, hs, hsilent i hs]
  · rw [hp] at hd
    obtain ⟨hh, hs, c, hc⟩ := hd
    rw [hh.cancelCurrent, UploadItem.cancel_sending hu hh hs hc]
    refine ⟨_, rfl, by simp, fun _ => ?_⟩
    simp [abortMessages, hh.current, hs]

/-- A cancel adds what the abort reports. -/
theorem verdict_cancel (h : Serves 0 s a) (hu : s.Owned) (hsilent : s.Silent) {i : ItemId}
    (hp : a.phase = .waiting i ∨ a.phase = .sending i) (calls : List Call) :
    verdict ⟨(UploadEngine.cancelCurrent 0 s).1, (UploadEngine.cancelCurrent 0 s).2 ++ calls⟩ =
      blame .protocolError (abortMessages 0 s) (s.engines 0).errors := by
  obtain ⟨tail, hcalls, hs, hmessages⟩ := cancelCurrent_ends h hu hp
  rw [verdict_ending hcalls (by simp [hs]), hmessages hsilent, (Apart.cancelCurrent 0).engines]

/-- A session that is lost cancels the current item, after the type of the loss is set. -/
theorem sessionDisconnected_lost {t : State} {messages : List String} {f : Failure}
    (hf : sessionFailure 0 s messages = some f) (hstate : (t.engines 0).state = (s.engines 0).state) :
    f.type ≠ .noError ∧ f.messages = messages ++ abortMessages 0 s ∧
      UploadEngine.sessionDisconnected 0 t = UploadEngine.cancelCurrent 0
        (UploadEngine.setErrorType 0 f.type (UploadEngine.stateChange 0 .noConnection t)) := by
  unfold sessionFailure at hf
  split at hf
  · cases hf
    refine ⟨by simp, rfl, ?_⟩
    simp [UploadEngine.sessionDisconnected, *]
  · cases hf
    refine ⟨by simp, rfl, ?_⟩
    simp [UploadEngine.sessionDisconnected, *]
  · cases hf

/-- The session is lost while an item waits or is being sent. -/
theorem verdict_lost (h : Serves 0 s a) (hu : s.Owned)
    (hsilent : s.Silent) {i : ItemId} (hp : a.phase = .waiting i ∨ a.phase = .sending i) {t : State}
    (ht : Alike 0 s t) (hstate : (t.engines 0).state = (s.engines 0).state) {messages : List String}
    (herrors : (t.engines 0).errors = ((s.engines 0).error, (s.engines 0).errorMessage.or messages.head?))
    {f : Failure} (hf : sessionFailure 0 s messages = some f) (calls : List Call) :
    verdict ⟨(UploadEngine.sessionDisconnected 0 t).1, (UploadEngine.sessionDisconnected 0 t).2 ++ calls⟩ =
      f.blame (s.engines 0).errors := by
  obtain ⟨hne, hmessages, heq⟩ := sessionDisconnected_lost hf hstate
  have hset : Alike 0 s (UploadEngine.setErrorType 0 f.type (UploadEngine.stateChange 0 .noConnection t)) :=
    (ht.trans (.stateChange _)).trans (.setErrorType f.type)
  have habort : abortMessages 0 (UploadEngine.setErrorType 0 f.type
      (UploadEngine.stateChange 0 .noConnection t)) = abortMessages 0 s := by
    simp only [abortMessages, hset.current, hset.items]
  -- What is set before the item is cancelled.
  have hbefore : ((UploadEngine.setErrorType 0 f.type
      (UploadEngine.stateChange 0 .noConnection t)).engines 0).errors =
      blame f.type messages (s.engines 0).errors := by
    have hkeep : ((UploadEngine.stateChange 0 .noConnection t).engines 0).errors = (t.engines 0).errors := by
      simp [UploadEngine.stateChange, Engine.errors]
    rw [setErrorType_errors, hkeep, herrors, blame, List.head?_nil, Option.or_none]
    rfl
  rw [heq, verdict_cancel (h.alike hset) (hset.owned hu) (hsilent.of_items hset.items) hp, habort, hbefore,
    blame_blame hne, Failure.blame, hmessages]

/-- While an item waits or is being sent, the loss of the session is a failure. -/
theorem sessionFailure_some (hstands : Stands R (s.engines 0) a.phase) {i : ItemId}
    (hp : a.phase = .waiting i ∨ a.phase = .sending i) (messages : List String) :
    ∃ f, sessionFailure 0 s messages = some f := by
  rcases hp with hp | hp
  · rw [hp] at hstands
    have hc : (s.engines 0).state = .connecting := hstands.1
    rw [sessionFailure, hc]
    exact ⟨_, rfl⟩
  · rw [hp] at hstands
    have hc : (s.engines 0).state = .connected := hstands
    rw [sessionFailure, hc]
    exact ⟨_, rfl⟩

/-- What the session manager keeps of a session before the engine hears of it. -/
theorem setSession_kept (session : Option Session) : Alike 0 s (NwSessionMgr.setSession 0 session s) ∧
    ((NwSessionMgr.setSession 0 session s).engines 0).state = (s.engines 0).state ∧
      ((NwSessionMgr.setSession 0 session s).engines 0).errors = (s.engines 0).errors := by
  refine ⟨.setSession _, ?_, ?_⟩ <;> simp [NwSessionMgr.setSession, Engine.errors]

theorem setErrorString_state (e : EngineId) (m : Option String) :
    ((UploadEngine.setErrorString e m s).engines e).state = (s.engines e).state := by
  unfold UploadEngine.setErrorString
  split <;> simp

/-- Nothing ends, and the engines stay. -/
theorem verdict_quiet {stack : List Call} {r : State × List Call} (hstack : ∀ e i, .uploadFinished e i ∉ stack)
    (hcalls : ∀ e i, .uploadFinished e i ∉ r.2) (he : r.1.engines = s.engines) :
    verdict ⟨r.1, r.2 ++ stack⟩ = verdict ⟨s, stack⟩ := by
  rw [verdict_plain hstack, ← he]
  refine verdict_plain fun e i hm => ?_
  rcases List.mem_append.mp hm with hm | hm
  · exact hcalls e i hm
  · exact hstack e i hm

/-- The stack has no end of an item while an event comes. -/
theorem Served.verdict_plain {stack : List Call} (h : Served R (fun _ => False) 0 ⟨s, stack⟩ a)
    (hlive : live 0 a.phase = []) : ∀ e i, .uploadFinished e i ∉ stack := by
  obtain ⟨tail, hstack, htail⟩ := h.calls
  dsimp only at hstack htail
  rw [hlive, List.nil_append] at hstack
  subst hstack
  exact not_uploadFinished_of_settled htail

/-- A session opens, and the item that waits for it starts. -/
theorem verdict_opened {stack : List Call} (hstack : ∀ e i, .uploadFinished e i ∉ stack) {session : Option Session} :
    verdict ⟨UploadEngine.sessionOpened 0 (NwSessionMgr.setSession 0 session s), stack⟩ =
      (s.engines 0).errors := by
  rw [verdict_plain hstack, ← (setSession_kept (s := s) session).2.2]
  show ((UploadEngine.sessionOpened 0 (NwSessionMgr.setSession 0 session s)).engines 0).errors = _
  unfold UploadEngine.sessionOpened
  split
  · split
    · rfl
    · dsimp only
      split
      · rw [UploadItem.startUpload_engines]
        simp [UploadEngine.stateChange, Engine.errors]
      · simp [UploadEngine.stateChange, Engine.errors]
  · rfl

/-- A signal of the session. If the item failed to start, the session opened. -/
theorem verdict_signal (h : Serves 0 s a) (hstands : Stands R (s.engines 0) a.phase) (hu : s.Owned)
    (hsilent : s.Silent) {signal : SessionSignal} {i : ItemId}
    (hp : a.phase = .waiting i ∨ a.phase = .sending i ∨ signal = .opened) {stack : List Call}
    (hstack : ∀ e i, .uploadFinished e i ∉ stack) :
    verdict ⟨(NwSessionMgr.signal 0 s signal).1, (NwSessionMgr.signal 0 s signal).2 ++ stack⟩ =
      blamed (failure s (.session 0 signal)) (s.engines 0).errors := by
  cases signal with
  | opened => exact verdict_opened hstack
  | error m isOpen =>
    have hp : a.phase = .waiting i ∨ a.phase = .sending i := by simpa using hp
    obtain ⟨f, hf⟩ := sessionFailure_some hstands hp [m]
    obtain ⟨halike, hstate, herrors⟩ := setSession_kept (s := s) (some ⟨isOpen, false⟩)
    show _ = blamed (sessionFailure 0 s [m]) _
    rw [hf]
    refine verdict_lost h hu hsilent hp (halike.trans (.setErrorString (some m))) ?_ ?_ hf stack
    · rw [setErrorString_state, hstate]
    · rw [setErrorString_errors]
      exact congrArg (fun p : Errors => (p.1, p.2.or (some m))) herrors
  | disconnected =>
    have hp : a.phase = .waiting i ∨ a.phase = .sending i := by simpa using hp
    obtain ⟨f, hf⟩ := sessionFailure_some hstands hp []
    obtain ⟨halike, hstate, herrors⟩ := setSession_kept (s := s) (some ⟨false, false⟩)
    show verdict ⟨_, (_ ++ [.sessionGone 0]) ++ stack⟩ = blamed (sessionFailure 0 s []) _
    rw [hf, List.append_assoc]
    refine verdict_lost h hu hsilent hp halike hstate ?_ hf (.sessionGone 0 :: stack)
    rw [herrors, List.head?_nil, Option.or_none]
    rfl

/-- An event that comes while an item waits or is being sent changes the verdict by what
it reports. If the item failed to start, that is so of events that cancel nothing. -/
theorem verdict_event {ev : Event} {stack : List Call} {r : State × List Call}
    (h : Engaged R ⟨s, stack⟩ a) (hsilent : s.Silent) (hg : Alone ⟨s, stack⟩ (.event ev))
    (hr : deliver ev s = some r) {i : ItemId} (hp : a.phase = .waiting i ∨ a.phase = .sending i ∨
      a.phase = .stalled i ∧ ¬Cancels 0 ⟨s, stack⟩ (.event ev)) :
    verdict ⟨r.1, r.2 ++ stack⟩ = blamed (failure s ev) (verdict ⟨s, stack⟩) := by
  by_cases hpassive : ev.passive = true
  · obtain ⟨hsame, hnone⟩ := verdict_passive stack hpassive hr
    rw [hsame, hnone]
    rfl
  have hserves : Serves 0 s a := h.served.serves
  have hstands : Stands R (s.engines 0) a.phase := h.served.stands
  have howned : s.Owned := h.uploads.owned
  have hlive : live 0 a.phase = [] := by rcases hp with hp | hp | ⟨hp, -⟩ <;> rw [hp] <;> rfl
  have hserved (hc : Cancels 0 ⟨s, stack⟩ (.event ev)) : a.phase = .waiting i ∨ a.phase = .sending i :=
    hp.imp id (Or.resolve_right · fun hs => hs.2 hc)
  have hstate : (s.engines 0).state = .connecting ∨ (s.engines 0).state = .connected := by
    rcases hp with hp | hp | ⟨hp, -⟩
    · rw [hp] at hstands
      exact .inl hstands.1
    · rw [hp] at hstands
      exact .inr hstands
    · rw [hp] at hstands
      exact .inr hstands
  have hplain := h.served.verdict_plain hlive
  have hbefore : verdict ⟨s, stack⟩ = (s.engines 0).errors := verdict_plain hplain
  have hsender {c : ClientId} (hq : ¬(s.clients c).Quiet) :
      ∃ i, s.Handles 0 i ∧ (s.items i).status = .sending ∧ s.Holds i c true := by
    obtain ⟨j, -, hh, hs, hc⟩ := hserves.sender hq
    exact ⟨j, hh, hs, hc⟩
  cases ev with
  | enqueue file =>
    cases hr
    refine verdict_quiet hplain ?_ (Apart.enqueueNew file).engines
    have hn : s.queue.notified = true :=
      hserves.notified.trans (by rcases hp with hp | hp | ⟨hp, -⟩ <;> rw [hp] <;> rfl)
    simp [UploadQueue.enqueueNew_busy file hn]
  | cancelAll e =>
    cases hr
    rcases eq_or_ne e 0 with rfl | he
    · have hp := hserved (.inl rfl)
      rw [UploadEngine.cancelAll, verdict_cancel hserves howned hsilent hp, hbefore]
      have hfailure : failure s (.cancelAll 0) = some ⟨.protocolError, abortMessages 0 s⟩ := by
        have hd := hserves.doing
        rcases hp with hp | hp <;> rw [hp] at hd <;>
          simp [failure, cancelFailure, hd.1.current, hd.2.1]
      rw [hfailure]
      rfl
    · have hnone : (s.engines e).currentItem = none := (hserves.others e he).2
      have hfailure : failure s (.cancelAll e) = none := by simp [failure, cancelFailure, hnone]
      rw [hfailure]
      refine verdict_quiet hplain ?_ ?_ <;> simp [UploadEngine.cancelAll, UploadEngine.cancelCurrent, hnone]
  | dispatch =>
    obtain ⟨j, rest, hposted⟩ := hg.2.2.2 rfl
    dsimp only at hposted
    simp only [deliver, dispatch, hposted, Option.some.injEq] at hr
    subst hr
    exact verdict_quiet hplain (by simp) rfl
  | quitTimer | exit => cases hg.2.2.1 _ rfl
  | session e signal =>
    simp only [deliver, Option.ite_none_right_eq_some, Option.some.injEq] at hr
    obtain ⟨hsome, rfl⟩ := hr
    obtain rfl : e = 0 := hserves.session_own hsome
    rw [hbefore]
    refine verdict_signal hserves hstands howned hsilent (i := i) ?_ hplain
    by_cases ho : signal = .opened
    · exact .inr (.inr ho)
    · refine (hserved (.inr (.inr ⟨hstate, ?_⟩))).imp id .inl
      cases signal with
      | opened => exact absurd rfl ho
      | error m isOpen => exact .inr ⟨m, isOpen, rfl⟩
      | disconnected => exact .inl rfl
  | replyError c m =>
    obtain ⟨-, hn, rfl⟩ := deliverReply_some hr
    obtain ⟨j, hh, hs, hc⟩ := hsender fun hq => hq.network (by simpa using hn)
    rw [HttpClient.handleError_sending howned hh hs hc, verdict_ending rfl (by simp), hbefore]
    simp [failure, blamed, Failure.blame]
  | replyFinished c answer =>
    obtain ⟨-, hn, rfl⟩ := deliverReply_some hr
    show _ = verdict ⟨s, stack⟩
    by_cases hrun : (s.clients c).network = .running
    · obtain ⟨j, hh, hs, hc⟩ := hsender fun hq => hq.network hrun
      obtain ⟨files, new, -, heq⟩ := HttpClient.handleFinished_sending howned hh hc answer
      rw [if_pos hrun, heq, hbefore]
      simp [verdict]
    · have hq : (s.clients c).Quiet := by
        by_contra hq
        obtain ⟨j, -, -, hc⟩ := hsender hq
        exact hrun (h.uploads.running c hc.reply)
      have hc : (s.clients c).connected = false := hq.unconnected (.inr (by simpa [hrun] using hn))
      rw [if_neg hrun]
      refine verdict_quiet hplain ?_ (Apart.handleFinished c answer).engines
      rw [HttpClient.handleFinished_detached _ (by simpa using hq.reply) (by simpa using hc)]
      simp
  | uploadProgress c sent total =>
    obtain ⟨-, hn, rfl⟩ := deliverReply_some hr
    exact verdict_quiet hplain (by simp) (Apart.handleUploadProgress c sent total).engines
  | sslErrors c =>
    obtain ⟨-, -, rfl⟩ := deliverReply_some hr
    exact verdict_quiet hplain (by simp) (Apart.handleSslErrors c).engines
  | timeout c =>
    obtain ⟨-, ht, rfl⟩ := deliverReply_some hr
    by_cases hq : (s.clients c).Quiet
    · have hc : (s.clients c).connected = false := hq.unconnected (.inl ht)
      have hfailure : failure s (.timeout c) = none := by simp [failure, hq.reply]
      rw [hfailure]
      refine verdict_quiet hplain ?_ (Apart.cancelClient c).engines
      simp [HttpClient.cancel_detached hq.reply hc]
    · obtain ⟨j, hh, hs, hc⟩ := hsender hq
      rw [HttpClient.cancel_sending howned hh hs hc, verdict_ending rfl (by simp), hbefore]
      simp [failure, hc.reply, blamed, Failure.blame]
  | environment | file | coreLocations | callUploadFiles | callQuit => exact absurd rfl hpassive

/-- A failure ends the item. Without a message it is one that waits. -/
theorem failure_ends {ev : Event} {r : State × List Call} (hserves : Serves 0 s a) (howned : s.Owned)
    (hr : deliver ev s = some r) {i : ItemId} (hp : a.phase = .waiting i ∨ a.phase = .sending i)
    {f : Failure} (hf : failure s ev = some f) : ∃ j tail, r.2 = .uploadFinished 0 j :: tail ∧
      (r.1.items j).status ≠ .finished ∧ (f.messages = [] → (r.1.items j).status = .cancelled) := by
  have hlost {t : State} (ht : Alike 0 s t) (hstate : (t.engines 0).state = (s.engines 0).state)
      {messages : List String} (hf : sessionFailure 0 s messages = some f) : ∃ tail,
      (UploadEngine.sessionDisconnected 0 t).2 = .uploadFinished 0 i :: tail ∧
        ((UploadEngine.sessionDisconnected 0 t).1.items i).status = .cancelled := by
    have hset := (ht.trans (.stateChange .noConnection)).trans (.setErrorType f.type)
    rw [(sessionDisconnected_lost hf hstate).2.2]
    obtain ⟨tail, hcalls, hs, -⟩ := cancelCurrent_ends (hserves.alike hset) (hset.owned howned) hp
    exact ⟨tail, hcalls, hs⟩
  cases ev with
  | session e signal =>
    simp only [deliver, Option.ite_none_right_eq_some, Option.some.injEq] at hr
    obtain ⟨hsome, rfl⟩ := hr
    obtain rfl : e = 0 := hserves.session_own hsome
    cases signal with
    | opened => cases hf
    | error m isOpen =>
      obtain ⟨halike, hstate, -⟩ := setSession_kept (s := s) (some ⟨isOpen, false⟩)
      obtain ⟨tail, hcalls, hs⟩ := hlost (halike.trans (.setErrorString (some m)))
        ((setErrorString_state 0 _).trans hstate) hf
      exact ⟨i, tail, hcalls, by simp [NwSessionMgr.signal, UploadEngine.connectionError, hs], fun _ => hs⟩
    | disconnected =>
      obtain ⟨halike, hstate, -⟩ := setSession_kept (s := s) (some ⟨false, false⟩)
      obtain ⟨tail, hcalls, hs⟩ := hlost halike hstate hf
      refine ⟨i, tail ++ [.sessionGone 0], ?_, by simp [NwSessionMgr.signal, hs], fun _ => hs⟩
      exact congrArg (· ++ [Call.sessionGone 0]) hcalls
  | cancelAll e =>
    cases hr
    obtain rfl : e = 0 := by
      by_contra he
      have hnone : (s.engines e).currentItem = none := (hserves.others e he).2
      have hc : cancelFailure e s = some f := hf
      simp [cancelFailure, hnone] at hc
    obtain ⟨tail, hcalls, hs, -⟩ := cancelCurrent_ends hserves howned hp
    exact ⟨i, tail, hcalls, by simp [UploadEngine.cancelAll, hs], fun _ => hs⟩
  | replyError c m =>
    obtain ⟨-, hn, rfl⟩ := deliverReply_some hr
    obtain ⟨j, -, hh, hs, hc⟩ := hserves.sender fun hq => hq.network (by simpa using hn)
    rw [HttpClient.handleError_sending howned hh hs hc]
    cases hf
    exact ⟨j, [], rfl, by simp, by simp⟩
  | timeout c =>
    obtain ⟨-, -, rfl⟩ := deliverReply_some hr
    have hf' : (if (s.clients c).reply then some (⟨.protocolError, [HttpClient.abortMessage]⟩ : Failure)
      else none) = some f := hf
    split at hf'
    · rename_i hreply
      have hq : ¬(s.clients c).Quiet := fun hq => by simp [hq.reply] at hreply
      obtain ⟨j, -, hh, hs, hc⟩ := hserves.sender hq
      rw [HttpClient.cancel_sending howned hh hs hc]
      cases hf'
      exact ⟨j, _, rfl, by simp, by simp⟩
    · cases hf'
  | _ => cases hf

/-- An item of a busy queue ends when its uploadFinished() is pending. -/
theorem Served.ending_of_stack {i : ItemId} {rest : List Call}
    (h : Served R (fun _ => False) 0 ⟨s, .uploadFinished 0 i :: rest⟩ a) (hn : s.queue.notified = true) :
    ∃ outcome, a.phase = .ending i outcome ∧ (s.items i).status = .after outcome := by
  have hbusy : a.phase.busy = true := h.serves.notified ▸ hn
  have hd := h.serves.doing
  cases hp : a.phase with
  | ending j outcome =>
    rw [hp] at hd
    rcases h.cases.2 with hk | ⟨hk, -⟩
    · rw [hp] at hk
      cases hk
      exact ⟨outcome, rfl, hd.2⟩
    · rw [hp] at hk
      cases hk
  | idle | echo | drained => simp [hp, Phase.busy] at hbusy
  | handing | waiting | sending | stalled =>
    rcases h.cases.2 with hk | ⟨-, hk | hk⟩
    · rw [hp] at hk
      cases hk
    · exact hk.elim
    · exact hk.elim

/-- queueDone() is reached when the queue was emptied. -/
theorem Served.drained_of_queueDone {own : Call → Prop} {e : EngineId} {rest : List Call}
    (h : Served R own 0 ⟨s, .queueDone e :: rest⟩ a) (hown : ¬own (.queueDone e)) :
    e = 0 ∧ a.phase = .drained := by
  rcases h.cases.2 with hk | ⟨-, hk | hk⟩
  · cases hp : a.phase with
    | drained =>
      rw [hp] at hk
      cases hk
      exact ⟨rfl, rfl⟩
    | idle | handing | waiting | sending | stalled | ending | echo => simp [hp, live] at hk
  · exact hk.elim
  · exact absurd hk hown

theorem queueDone_queue (e : EngineId) : (UploadEngine.queueDone e s).1.queue = s.queue := by
  unfold UploadEngine.queueDone UploadEngine.emitFinished NwSessionMgr.close
  dsimp only
  split
  · split <;> rfl
  · rfl

/-- When the batch is reported, nothing is being served. -/
theorem Served.idle_of_reported {own : Call → Prop} {rest : List Call} {a' : Service ItemId}
    (h : Served R own 0 ⟨s, .queueDone 0 :: rest⟩ a) (hown : ¬own (.queueDone 0))
    (h' : Served R own 0 (uploader.called (.queueDone 0) rest s) a') : a'.phase = .idle := by
  have hn : (UploadEngine.queueDone 0 s).1.queue.notified = a'.phase.busy := h'.serves.notified
  have hs : s.queue.notified = a.phase.busy := h.serves.notified
  rw [queueDone_queue, hs, (h.drained_of_queueDone hown).2] at hn
  rcases Served.cases (k := .finished 0 _ _ _) h' |>.2 with hk | ⟨hk, -⟩
  · cases hp : a'.phase <;> simp [hp, live] at hk
  · cases hp : a'.phase <;> simp [hp, live, Phase.busy] at hk hn ⊢

/-! ### A step of the engine -/

theorem Engaged.mute {x y : Config} {act : Action} (h : Engaged R x a) (hg : Alone x act)
    (hs : uploader.step x act = some y) : Mute x.state y.state ∨
      ∃ t, (∃ rest, x.stack = .queueDone 0 :: rest) ∧ act = .run ∧ Mute x.state t ∧
        (t.engines 0).errors = (x.state.engines 0).errors ∧
        y.state = (UploadEngine.emitFinished 0 (t.engines 0).error (t.engines 0).sentFiles
          (UploadQueue.totalNumberOfItems t) t).1 := by
  obtain ⟨s, stack⟩ := x
  cases act with
  | run =>
    obtain ⟨k, rest, rfl, rfl⟩ := uploader.step_run hs
    have hreported (e : EngineId) (error : ErrorType) (sent total : Nat)
        (_ : k = .finished e error sent total) : (s.engines e).reported = false := h.unreported e
    rcases mute_exec h.served.not_foreign hreported with hm | ⟨e, t, rfl, hm, herrors, heq⟩
    · exact .inl hm
    · obtain ⟨rfl, -⟩ := h.served.drained_of_queueDone id
      refine .inr ⟨t, ⟨rest, rfl⟩, rfl, hm, herrors, ?_⟩
      show (exec (.queueDone 0) s).1 = _
      rw [heq]
  | event ev =>
    obtain ⟨-, r, hr, rfl⟩ := uploader.step_event hs
    exact .inl (mute_event hr (hg.2.2.1 ev rfl) fun he => hg.2.2.2 (he ▸ rfl))

theorem Engaged.silent_step {x y : Config} {act : Action} (h : Engaged R x a) (hg : Alone x act)
    (hs : uploader.step x act = some y) (hsilent : x.state.Silent) : y.state.Silent := by
  rcases h.mute hg hs with hm | ⟨t, -, -, hm, -, hy⟩
  · exact hm.silent hsilent
  · rw [hy]
    exact (hm.silent hsilent).of_items rfl

/-! ### The end of the queue -/

/-- A cancelled item empties the queue, and the last item leaves it empty. -/
theorem uploadFinished_drains {e : EngineId} {i : ItemId}
    (h : (s.items i).status = .cancelled ∨ s.queue.uploadQueue = []) :
    (UploadEngine.uploadFinished e i s).2 = s.queue.engines.map Call.queueDone := by
  have hlast {t : State} (hq : t.queue.uploadQueue = []) (he : t.queue.engines = s.queue.engines) :
      (UploadItem.markDone i t).2 = s.queue.engines.map Call.queueDone := by
    rw [UploadItem.markDone_last i hq, he]
  have hclear {t : State} (ht : Alike e s t) : (UploadItem.markDone i (UploadQueue.clear t)).2 =
      s.queue.engines.map Call.queueDone := by
    have hengines : t.queue.engines = s.queue.engines := by rw [ht.queue]
    unfold UploadQueue.clear
    split
    · exact hlast rfl hengines
    · rename_i hn
      exact hlast (by simpa using hn) hengines
  have hset : Alike e s (UploadEngine.setErrorString e (s.items i).errorString
      (UploadEngine.setErrorType e .protocolError s)) := (Alike.setErrorType _).trans (.setErrorString _)
  unfold UploadEngine.uploadFinished
  dsimp only
  split
  · rename_i hs
    have hq := h.resolve_left (by simp [hs.1])
    exact hlast (by rw [hset.queue]; exact hq) (congrArg Queue.engines hset.queue)
  · split
    · split
      · exact hclear (hset.trans (.stateChange _))
      · exact hclear hset
    · rename_i hs
      exact hlast (h.resolve_left fun hc => hs (.inr hc)) rfl

end Step

end CrashReporter.Upload
