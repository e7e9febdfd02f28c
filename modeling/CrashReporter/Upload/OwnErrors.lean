import CrashReporter.Service.Batch
import CrashReporter.Upload.Counts
import CrashReporter.Upload.Verdict

/-! The errors of a batch are its own.

The engine keeps its errors, its session and its current item from one batch to the next.
`Renewed` says when that makes no difference: a batch begins without an error and without
a session that a new engine would not ask for, and nobody makes an item count that was not
sent. Then the verdict says whether there is still hope that every item is answered, and
the batch goes as with a new engine. -/
namespace CrashReporter.Upload
open Reactor
open Service (Phase Mark Label Move Ordered Traced Hopeful)

variable {s : State}

/-- A new engine in its place. -/
def State.renewed (s : State) : State := {s with
  engines := Function.update s.engines 0
    { state := .noConnection, currentItem := none, errorMessage := none, error := .noError,
      sentFiles := 0, networkSession := none, reported := false }}

/-- There is no session, or it is closed and a new one would be asked for as well. -/
def AsNew (s : State) : Prop := (s.engines 0).networkSession = none ∨
  NwSessionMgr.ready 0 s = false ∧ (!s.env.connectionIsActive && s.env.developerModeIsActive) = false

/-- The engine begins a batch as a new one would, with no call of its session pending. When
cancelAll() finds that the client of the item has no reply, the item is going to count as
sent: that is harmless in a batch with an error, and between batches without one. -/
def Renewed : Guard State Call Event := fun x act => Alone x act ∧
  (∀ file, act = .event (.enqueue file) → x.state.queue.notified = false →
    (x.state.engines 0).errors = (.noError, none) ∧ .sessionGone 0 ∉ x.stack ∧ .sessionOpen 0 ∉ x.stack) ∧
  (∀ i rest log, act = .run → x.stack = .uploadItem 0 i :: rest →
    x.state.log = .nextItem i :: .enqueued i :: log → AsNew x.state) ∧
  (act = .event (.cancelAll 0) → x.state.Answerless 0 →
    (x.state.queue.notified = false ↔ (x.state.engines 0).error = .noError))

/-- What a run within `G` shows of the errors. -/
structure OwnErrors (G : Guard State Call Event) (x : Config) : Prop where
  /-- finished() says NoError exactly when every item of the batch was answered. -/
  truthful : ∀ act y e error sent total, G x act → uploader.step x act = some y →
    y.state.log = .finished e error sent total :: x.state.log →
    ∃ before, marks x.state.log = .emptied :: before ∧ (error = .noError ↔ Service.AllAnswered before)
  /-- From the first item of a batch on, a new engine does and says the same. -/
  renewed : ∀ file as y, x.state.queue.notified = false →
    Guarded uploader G (.event (.enqueue file) :: as) x →
    uploader.run (.event (.enqueue file) :: as) x = some y →
    ∃ z, uploader.run (.event (.enqueue file) :: as) ⟨x.state.renewed, x.stack⟩ = some z ∧
      z.state.log = y.state.log ∧ (z.state.engines 0).errors = (y.state.engines 0).errors

/-! ### Hope -/

/-- The verdict is NoError while there is hope. -/
structure Judged (x : Config) (a : Service ItemId) : Prop where
  engaged : Engaged ⟨True, True⟩ x a
  traced : Traced a
  silent : x.state.Silent
  hope : a.phase ≠ .idle → ((verdict x).1 = .noError ↔ Hopeful a)

section Step
variable {R : Rules} {a : Service ItemId}

/-- Between batches the last item has nothing to blame when it is cancelled. -/
theorem verdict_cancelPast {stack : List Call} (h : Engaged R ⟨s, stack⟩ a) (hp : a.phase = .idle) :
    verdict ⟨(UploadEngine.cancelCurrent 0 s).1, (UploadEngine.cancelCurrent 0 s).2 ++ stack⟩ =
      (s.engines 0).errors := by
  have hplain := h.served.verdict_plain (by rw [hp]; rfl)
  have hserves : Serves 0 s a := h.served.serves
  have hpast := hserves.doing
  rw [hp] at hpast
  have hquiet (c : ClientId) : (s.clients c).Quiet := hserves.quiet c (by simp [hp])
  have hengines := (Apart.cancelCurrent 0 (s := s)).engines
  have hnone (hcalls : (UploadEngine.cancelCurrent 0 s).2 = []) :
      verdict ⟨(UploadEngine.cancelCurrent 0 s).1, (UploadEngine.cancelCurrent 0 s).2 ++ stack⟩ =
        (s.engines 0).errors := by
    rw [hcalls, List.nil_append, verdict_plain hplain, hengines]
  cases hc : (s.engines 0).currentItem with
  | none => exact hnone (by simp [UploadEngine.cancelCurrent, hc])
  | some i =>
    by_cases ha : (s.items i).alive = true
    · have heq : UploadEngine.cancelCurrent 0 s = UploadItem.cancel i s := by
        simp [UploadEngine.cancelCurrent, hc, ha]
      obtain ⟨hs, hl⟩ := (hpast i hc).2 ha
      cases hh : (s.items i).http with
      | none =>
        refine hnone ?_
        rw [heq]
        simp [UploadItem.cancel, UploadItem.setStatus, hs, hh]
      | some c =>
        have howner : (s.clients c).item = i := (h.uploads.owned i c hh).2
        cases hconn : (s.clients c).connected with
        | true =>
          have hholds : (UploadItem.setStatus i .cancelled s).Holds i c false :=
            ⟨by simpa [UploadItem.setStatus] using hh, (hquiet c).reply, hconn⟩
          have hcancel := (heq.trans (UploadItem.cancel_started hs hh)).trans
            (HttpClient.cancel_answerless hholds howner)
          rw [← hengines, hcancel]
          have hcalls : uploadFinishedCalls i (UploadItem.setStatus i .cancelled s) = [.uploadFinished 0 i] := by
            simp [uploadFinishedCalls, UploadItem.setStatus, hl]
          rw [hcalls]
          exact if_pos (by simp)
        | false =>
          refine hnone ?_
          rw [heq, UploadItem.cancel_started hs hh, HttpClient.cancel_detached
            (s := UploadItem.setStatus i .cancelled s) (hquiet c).reply hconn]
    · exact hnone (by simp [UploadEngine.cancelCurrent, hc, ha])

/-- Only an event fails an item, and only a cancel drops one. -/
theorem steady_of_told {x : Config} {act : Action} {l : Label} (hmakes : Makes 0 x act l)
    (htold : Told R 0 x act l) (hcancels : ¬Cancels 0 x act)
    (hfail : ∀ ev, act = .event ev → failure x.state ev = none) : l.steady = true ∨ l = .report := by
  cases l with
  | fail =>
    rcases hmakes with ⟨c, m, rfl⟩ | ⟨c, rfl, hreply⟩
    · cases hfail _ rfl
    · have hnone := hfail _ rfl
      simp [failure, hreply] at hnone
  | cancel => exact absurd htold hcancels
  | cut | abandon => exact absurd htold.1 hcancels
  | report => exact .inr rfl
  | _ => exact .inl rfl

theorem follows_of_told {x : Config} {act : Action} {l : Label} (hmakes : Makes 0 x act l)
    (htold : Told R 0 x act l) (hcancels : ¬Cancels 0 x act)
    (henqueue : ∀ file, act ≠ .event (.enqueue file)) : l.follows = true := by
  cases l with
  | hand =>
    obtain ⟨file, rfl⟩ := hmakes
    exact absurd rfl (henqueue file)
  | echo => exact absurd htold.1 hcancels
  | _ => rfl

theorem Engaged.not_cancels_run {x : Config} (h : Engaged R x a) : ¬Cancels 0 x .run := by
  rintro (he | ⟨⟨rest, hstack⟩, -⟩ | ⟨-, he | ⟨m, isOpen, he⟩⟩)
  · cases he
  · obtain ⟨s, stack⟩ := x
    obtain rfl : stack = .cancelAll 0 :: rest := hstack
    have hforeign := h.served.not_foreign
    cases hforeign
  · cases he
  · cases he

end Step

/-- The calls of the engine judge as before. -/
theorem Judged.run {x y : Config} {a : Service ItemId} (h : Judged x a) (hs : uploader.step x .run = some y)
    {labels : List Label} {a' : Service ItemId} (h' : Engaged ⟨True, True⟩ y a')
    (hadv : Advances ⟨True, True⟩ (fun _ => False) 0 x .run y a labels a')
    (hmakes : ∀ l ∈ labels, Makes 0 x .run l) (hne : a'.phase ≠ .idle) :
    (verdict y).1 = .noError ↔ Hopeful a' := by
  have hcancels : ¬Cancels 0 x .run := h.engaged.not_cancels_run
  have hfollows : a.phase ≠ .idle := fun hp => hne (hadv.run.idle (fun l hl =>
    follows_of_told (hmakes l hl) (hadv.told l hl) hcancels (by simp)) hp)
  by_cases hdone : ∃ rest, x.stack = .queueDone 0 :: rest
  · -- The batch is reported, and the engine is idle.
    exfalso
    obtain ⟨s, stack⟩ := x
    obtain ⟨rest, hstack⟩ := hdone
    obtain rfl : stack = .queueDone 0 :: rest := hstack
    obtain rfl : uploader.called (.queueDone 0) rest s = y := by simpa [Reactor.step] using hs
    exact hne (h.engaged.served.idle_of_reported id h'.served)
  · have hsteady (l : Label) (hl : l ∈ labels) : l.steady = true := by
      refine (steady_of_told (hmakes l hl) (hadv.told l hl) hcancels (by simp)).resolve_right ?_
      rintro rfl
      exact hdone (hmakes _ hl).2
    rw [verdict_run h.engaged hs, h.hope hfollows, hadv.run.hopeful_iff hsteady h.engaged.ordered h.traced]

/-! ### An event -/

section Event
variable {R : Rules} {a : Service ItemId} {ev : Event} {stack : List Call} {r : State × List Call}

/-- What fails is the session, or an upload that is being sent. -/
theorem cancels_or_sending (stack : List Call) (h : Serves 0 s a) (hr : deliver ev s = some r) {f : Failure}
    (hf : failure s ev = some f) : Cancels 0 ⟨s, stack⟩ (.event ev) ∨ ∃ i, a.phase = .sending i := by
  have hsession (messages : List String) (hf : sessionFailure 0 s messages = some f) :
      (s.engines 0).state = .connecting ∨ (s.engines 0).state = .connected := by
    unfold sessionFailure at hf
    split at hf
    · exact .inl ‹_›
    · exact .inr ‹_›
    · cases hf
  have hsending {c : ClientId} (hq : ¬(s.clients c).Quiet) : ∃ i, a.phase = .sending i := by
    obtain ⟨i, hp, -⟩ := h.sender hq
    exact ⟨i, hp⟩
  cases ev with
  | session e signal =>
    simp only [deliver, Option.ite_none_right_eq_some] at hr
    obtain rfl : e = 0 := h.session_own hr.1
    cases signal with
    | opened => cases hf
    | error m isOpen => exact .inl (.inr (.inr ⟨hsession [m] hf, .inr ⟨m, isOpen, rfl⟩⟩))
    | disconnected => exact .inl (.inr (.inr ⟨hsession [] hf, .inl rfl⟩))
  | cancelAll e =>
    left
    left
    rw [show e = 0 from ?_]
    by_contra he
    have hnone : (s.engines e).currentItem = none := (h.others e he).2
    have hc : cancelFailure e s = some f := hf
    simp [cancelFailure, hnone] at hc
  | replyError c m =>
    obtain ⟨-, hn, -⟩ := deliverReply_some hr
    exact .inr (hsending fun hq => hq.network (by simpa using hn))
  | timeout c =>
    right
    apply hsending (c := c)
    intro hq
    have hc : (if (s.clients c).reply then some (⟨.protocolError, [HttpClient.abortMessage]⟩ : Failure)
      else none) = some f := hf
    simp [hq.reply] at hc
  | _ => cases hf

/-- A cancel fails the item that waits or is being sent. -/
theorem failure_of_cancels {i : ItemId} (hh : s.Handles 0 i)
    (hst : (s.items i).status = .waiting ∨ (s.items i).status = .sending)
    (hc : Cancels 0 ⟨s, stack⟩ (.event ev)) : failure s ev ≠ none := by
  have hsession (hstate : (s.engines 0).state = .connecting ∨ (s.engines 0).state = .connected)
      (messages : List String) : sessionFailure 0 s messages ≠ none := by
    rcases hstate with hstate | hstate
    · simp [sessionFailure, hstate]
    · simp [sessionFailure, hstate]
  rcases hc with he | ⟨-, he⟩ | ⟨hstate, he | ⟨m, isOpen, he⟩⟩
  · cases he
    show cancelFailure 0 s ≠ none
    simp [cancelFailure, hh.current, hst]
  · cases he
  · cases he
    exact hsession hstate []
  · cases he
    exact hsession hstate [m]

/-- The client of an item that failed to start has no reply, and a cancel ends it as finished. -/
theorem stalled_ends (h : Engaged R ⟨s, stack⟩ a) {i : ItemId} (hp : a.phase = .stalled i)
    (hc : Cancels 0 ⟨s, stack⟩ (.event ev)) (hr : deliver ev s = some r) :
    (∃ tail, r.2 = .uploadFinished 0 i :: tail) ∧ (r.1.items i).status = .finished ∧
      r.1.queue = s.queue ∧ marks r.1.log = marks s.log ∧
      ((r.1.engines 0).error = .noError → ev = .cancelAll 0 ∧ s.Answerless 0 ∧ (s.engines 0).error = .noError) := by
  have hserves : Serves 0 s a := h.served.serves
  have hcancel {t : State} (ht : Alike 0 s t) : (UploadEngine.cancelCurrent 0 t).2 = [.uploadFinished 0 i] ∧
      ((UploadEngine.cancelCurrent 0 t).1.items i).status = .finished ∧
      (UploadEngine.cancelCurrent 0 t).1.queue = s.queue ∧
      marks (UploadEngine.cancelCurrent 0 t).1.log = marks s.log ∧
      (UploadEngine.cancelCurrent 0 t).1.engines = t.engines := by
    have hd := (hserves.alike ht).doing
    rw [hp] at hd
    obtain ⟨hh, hst, c, hholds⟩ := hd
    rw [hh.cancelCurrent, UploadItem.cancel_stalled (ht.owned h.uploads.owned) hh hst hholds]
    refine ⟨rfl, by simp, ht.queue, ?_, rfl⟩
    exact (List.filterMap_cons_none rfl).trans ht.marks
  have hlost {t : State} (ht : Alike 0 s t) (hconnected : (t.engines 0).state = .connected) :
      UploadEngine.sessionDisconnected 0 t = UploadEngine.cancelCurrent 0 (UploadEngine.setErrorType 0
        .connectionClosed (UploadEngine.stateChange 0 .noConnection t)) ∧
      Alike 0 s (UploadEngine.setErrorType 0 .connectionClosed (UploadEngine.stateChange 0 .noConnection t)) ∧
      ((UploadEngine.setErrorType 0 .connectionClosed
        (UploadEngine.stateChange 0 .noConnection t)).engines 0).error ≠ .noError := by
    refine ⟨?_, (ht.trans (.stateChange _)).trans (.setErrorType _), ?_⟩
    · simp [UploadEngine.sessionDisconnected, hconnected]
    · show ((UploadEngine.setErrorType 0 .connectionClosed
        (UploadEngine.stateChange 0 .noConnection t)).engines 0).errors.1 ≠ _
      rw [setErrorType_errors]
      exact blame_type (by simp) _ _
  have hstate : (s.engines 0).state = .connected := by
    have hstands := h.served.stands
    rw [hp] at hstands
    exact hstands
  rcases hc with he | ⟨-, he⟩ | ⟨-, he | ⟨m, isOpen, he⟩⟩
  · cases he
    cases hr
    obtain ⟨hcalls, hst, hqueue, hmarks, hengines⟩ := hcancel (.refl s)
    refine ⟨⟨[], hcalls⟩, hst, hqueue, hmarks, fun hnone => ⟨rfl, ?_, ?_⟩⟩
    · have hd := hserves.doing
      rw [hp] at hd
      obtain ⟨hh, -, c, hholds⟩ := hd
      exact ⟨i, c, hh.current, hh.alive, hholds⟩
    · rw [← hengines]
      exact hnone
  · cases he
  · cases he
    simp only [deliver, Option.ite_none_right_eq_some, Option.some.injEq] at hr
    obtain ⟨-, rfl⟩ := hr
    obtain ⟨halike, hkept, -⟩ := setSession_kept (s := s) (some ⟨false, false⟩)
    obtain ⟨heq, hset, hne⟩ := hlost halike (hkept.trans hstate)
    obtain ⟨hcalls, hst, hqueue, hmarks, hengines⟩ := hcancel hset
    rw [← hengines] at hne
    rw [← heq] at hcalls hst hqueue hmarks hne
    refine ⟨⟨[.sessionGone 0], ?_⟩, hst, hqueue, hmarks, fun hnone => absurd hnone hne⟩
    exact congrArg (· ++ [Call.sessionGone 0]) hcalls
  · cases he
    simp only [deliver, Option.ite_none_right_eq_some, Option.some.injEq] at hr
    obtain ⟨-, rfl⟩ := hr
    obtain ⟨halike, hkept, -⟩ := setSession_kept (s := s) (some ⟨isOpen, false⟩)
    obtain ⟨heq, hset, hne⟩ := hlost (halike.trans (.setErrorString (some m)))
      ((setErrorString_state 0 _).trans (hkept.trans hstate))
    obtain ⟨hcalls, hst, hqueue, hmarks, hengines⟩ := hcancel hset
    rw [← hengines] at hne
    rw [← heq] at hcalls hst hqueue hmarks hne
    exact ⟨⟨[], hcalls⟩, hst, hqueue, hmarks, fun hnone => absurd hnone hne⟩

/-- An item that ends and was not answered has failed. -/
theorem Served.ending_of_unfinished {i : ItemId} {rest : List Call}
    (h : Served R (fun _ => False) 0 ⟨s, .uploadFinished 0 i :: rest⟩ a)
    (hst : (s.items i).status ≠ .finished) : ∃ outcome, a.phase = .ending i outcome ∧ outcome ≠ .finished := by
  have hd := h.serves.doing
  have hk : live 0 a.phase = [.uploadFinished 0 i] := h.cases.2.resolve_right fun hk => hk.2.elim id id
  cases hp : a.phase with
  | ending j outcome =>
    rw [hp] at hk hd
    cases hk
    refine ⟨outcome, rfl, ?_⟩
    rintro rfl
    exact hst hd.2
  | echo j =>
    rw [hp] at hk hd
    cases hk
    exact absurd hd.2.2.1 hst
  | idle | handing | waiting | sending | stalled | drained =>
    rw [hp] at hk
    cases hk

end Event

/-- A failure takes the hope, and what fails nothing leaves it. -/
theorem Judged.serving {x y : Config} {a a' : Service ItemId} {ev : Event} (h : Judged x a)
    (hg : Renewed x (.event ev)) (hs : uploader.step x (.event ev) = some y)
    {labels : List Label} (h' : Engaged ⟨True, True⟩ y a')
    (hadv : Advances ⟨True, True⟩ (fun _ => False) 0 x (.event ev) y a labels a')
    (hmakes : ∀ l ∈ labels, Makes 0 x (.event ev) l) (hp : a.phase.serving = true) :
    (verdict y).1 = .noError ↔ Hopeful a' := by
  obtain ⟨s, stack⟩ := x
  obtain ⟨-, r, hr, rfl⟩ := uploader.step_event hs
  replace hr : deliver ev s = some r := hr
  obtain ⟨hengaged, htraced, hsilent, hope⟩ := h
  have hserves : Serves 0 s a := hengaged.served.serves
  have hd := hserves.doing
  have hidle : a.phase ≠ .idle := by
    intro hidle
    rw [hidle] at hp
    cases hp
  by_cases hstalled : ∃ i, a.phase = .stalled i ∧ Cancels 0 ⟨s, stack⟩ (.event ev)
  · -- The item that failed to start ends as finished, and there is an error already.
    obtain ⟨i, hstalled, hc⟩ := hstalled
    obtain ⟨⟨tail, hcalls⟩, hst, hqueue, hmarks, herror⟩ := stalled_ends hengaged hstalled hc hr
    have hn : s.queue.notified = true := by
      rw [hserves.notified, hstalled]
      rfl
    have hblamed : (verdict ⟨r.1, r.2 ++ stack⟩).1 ≠ .noError := by
      intro hnone
      have hverdict : verdict ⟨r.1, r.2 ++ stack⟩ = (r.1.engines 0).errors := by
        rw [hcalls]
        exact if_pos hst
      obtain ⟨rfl, hanswerless, hnone⟩ := herror (by rw [← hnone, hverdict]; rfl)
      have hfree := (hg.2.2.2 rfl hanswerless).mpr hnone
      rw [show s.queue.notified = false from hfree] at hn
      cases hn
    have hhopeless : ¬Hopeful a' := by
      have hserved' := h'.served
      rw [hcalls] at hserved'
      obtain ⟨outcome, hending, -⟩ := hserved'.ending_of_stack (hqueue ▸ hn)
      apply Service.not_hopeful_of_unanswered h'.ordered (hadv.run.traced hengaged.ordered htraced) hending
      rw [← h'.served.serves.trace, hmarks, hserves.trace]
      exact htraced.unanswered i (.inl (by rw [hstalled]; rfl))
    exact ⟨fun hnone => absurd hnone hblamed, fun hope => absurd hope hhopeless⟩
  have hphase : ∃ i, a.phase = .waiting i ∨ a.phase = .sending i ∨
      a.phase = .stalled i ∧ ¬Cancels 0 ⟨s, stack⟩ (.event ev) := by
    cases hp' : a.phase with
    | waiting i => exact ⟨i, .inl rfl⟩
    | sending i => exact ⟨i, .inr (.inl rfl)⟩
    | stalled i => exact ⟨i, .inr (.inr ⟨rfl, fun hc => hstalled ⟨i, hp', hc⟩⟩)⟩
    | idle | handing | ending | echo | drained => simp [hp', Phase.serving] at hp
  obtain ⟨i, hphase⟩ := hphase
  have hverdict := verdict_event hengaged hsilent hg.1 hr hphase
  cases hf : failure s ev with
  | none =>
    have hcancels : ¬Cancels 0 ⟨s, stack⟩ (.event ev) := by
      intro hc
      rcases hphase with hp | hp | ⟨-, hn⟩
      · rw [hp] at hd
        exact failure_of_cancels hd.1 (.inl hd.2.1) hc hf
      · rw [hp] at hd
        exact failure_of_cancels hd.1 (.inr hd.2.1) hc hf
      · exact hn hc
    have hsteady (l : Label) (hl : l ∈ labels) : l.steady = true := by
      refine (steady_of_told (hmakes l hl) (hadv.told l hl) hcancels ?_).resolve_right ?_
      · intro ev' he
        cases he
        exact hf
      · rintro rfl
        cases (hmakes _ hl).1
    rw [hverdict, hf, hadv.run.hopeful_iff hsteady hengaged.ordered htraced]
    exact hope hidle
  | some f =>
    have hserved : a.phase = .waiting i ∨ a.phase = .sending i := by
      refine hphase.imp id (Or.resolve_right · fun hstays => ?_)
      obtain ⟨hp, hn⟩ := hstays
      rcases cancels_or_sending stack hserves hr hf with hc | ⟨j, hj⟩
      · exact hn hc
      · rw [hp] at hj
        cases hj
    have hblamed : (verdict ⟨r.1, r.2 ++ stack⟩).1 ≠ .noError := by
      rw [hverdict, hf]
      exact blame_type (failure_type hf) _ _
    have hhopeless : ¬Hopeful a' := by
      obtain ⟨j, tail, hcalls, hst, -⟩ := failure_ends hserves hengaged.uploads.owned hr hserved hf
      have hserved' := h'.served
      rw [hcalls] at hserved'
      obtain ⟨outcome, hending, hne⟩ := hserved'.ending_of_unfinished hst
      exact Service.not_hopeful h'.ordered (hadv.run.traced hengaged.ordered htraced) hending hne
    exact ⟨fun hnone => absurd hnone hblamed, fun hope => absurd hope hhopeless⟩

/-- Between batches an item is enqueued, or the last one cancelled, without an error. -/
theorem Judged.idle {x y : Config} {a a' : Service ItemId} {ev : Event} (h : Judged x a)
    (hg : Renewed x (.event ev)) (hs : uploader.step x (.event ev) = some y)
    {labels : List Label} (hadv : Advances ⟨True, True⟩ (fun _ => False) 0 x (.event ev) y a labels a')
    (hmakes : ∀ l ∈ labels, Makes 0 x (.event ev) l) (hp : a.phase = .idle) (hne : a'.phase ≠ .idle) :
    (verdict y).1 = .noError ↔ Hopeful a' := by
  obtain ⟨s, stack⟩ := x
  obtain ⟨ha, r, hr, rfl⟩ := uploader.step_event hs
  replace hr : deliver ev s = some r := hr
  obtain ⟨hengaged, htraced, -, -⟩ := h
  have hserves : Serves 0 s a := hengaged.served.serves
  have hn : s.queue.notified = false := by
    rw [hserves.notified, hp]
    rfl
  have hbefore : Hopeful a := by
    apply Service.hopeful_of_empty
    rw [Service.course_eq (by simp [hp])]
    exact (htraced.idle (by rw [hp]; rfl) (by simp [hp])).2
  -- There is hope, and no error.
  have hboth (hsteady : ∀ l ∈ labels, l.steady = true) (hnone : (verdict ⟨r.1, r.2 ++ stack⟩).1 = .noError) :
      (verdict ⟨r.1, r.2 ++ stack⟩).1 = .noError ↔ Hopeful a' :=
    ⟨fun _ => (hadv.run.hopeful_iff hsteady hengaged.ordered htraced).mpr hbefore, fun _ => hnone⟩
  by_cases henqueue : ∃ file, ev = .enqueue file
  · obtain ⟨file, rfl⟩ := henqueue
    cases hr
    have hcancels : ¬Cancels 0 ⟨s, stack⟩ (.event (.enqueue file)) := by
      rintro (he | ⟨-, he⟩ | ⟨-, he | ⟨m, isOpen, he⟩⟩) <;> cases he
    refine hboth (fun l hl => ?_) ?_
    · refine (steady_of_told (hmakes l hl) (hadv.told l hl) hcancels ?_).resolve_right ?_
      · intro ev he
        cases he
        rfl
      · rintro rfl
        cases (hmakes _ hl).1
    · have hq : s.queue.uploadQueue = [] := by
        rw [hserves.queue]
        exact hengaged.ordered.empty (hp ▸ rfl)
      rw [verdict_plain, (Apart.enqueueNew file).engines]
      · exact congrArg Prod.fst (hg.2.1 file rfl hn).1
      · intro e i hm
        rw [UploadQueue.enqueueNew_first file hn hq, hserves.engines] at hm
        simp at hm
        exact hengaged.served.verdict_plain (by rw [hp]; rfl) e i hm
  by_cases hecho : .echo ∈ labels
  · obtain ⟨hc, hanswerless⟩ := hadv.told _ hecho
    have hcancel : ev = .cancelAll 0 := by
      rcases hc with he | ⟨-, he⟩ | ⟨hstate, -⟩
      · cases he
        rfl
      · cases he
      · have hstands : Stands ⟨True, True⟩ (s.engines 0) a.phase := hengaged.served.stands
        rw [hp] at hstands
        rcases hstands with hst | hst <;> simp [hst] at hstate
    subst hcancel
    cases hr
    have hnone : (s.engines 0).error = .noError := (hg.2.2.2 rfl hanswerless).mp hn
    refine hboth (fun l hl => ?_) ?_
    · refine (hadv.run.rest (hp ▸ rfl) (fun l hl => ?_) l hl).resolve_right ?_
      · rintro rfl
        obtain ⟨file, he⟩ := hmakes _ hl
        cases he
      · rintro rfl
        cases (hmakes _ hl).1
    · show (verdict ⟨(UploadEngine.cancelCurrent 0 s).1, (UploadEngine.cancelCurrent 0 s).2 ++ stack⟩).1 = _
      rw [verdict_cancelPast hengaged hp]
      exact hnone
  · exfalso
    refine hne (hadv.run.idle (fun l hl => ?_) hp)
    cases l with
    | hand =>
      obtain ⟨file, he⟩ := hmakes _ hl
      cases he
      exact absurd ⟨file, rfl⟩ henqueue
    | echo => exact absurd hl hecho
    | _ => rfl

theorem Judged.event {x y : Config} {a a' : Service ItemId} {ev : Event} (h : Judged x a)
    (hg : Renewed x (.event ev)) (hs : uploader.step x (.event ev) = some y)
    {labels : List Label} (h' : Engaged ⟨True, True⟩ y a')
    (hadv : Advances ⟨True, True⟩ (fun _ => False) 0 x (.event ev) y a labels a')
    (hmakes : ∀ l ∈ labels, Makes 0 x (.event ev) l) (hne : a'.phase ≠ .idle) :
    (verdict y).1 = .noError ↔ Hopeful a' := by
  by_cases hpassive : ev.passive = true
  · -- Only the environment changes.
    obtain ⟨s, stack⟩ := x
    obtain ⟨-, r, hr, rfl⟩ := uploader.step_event hs
    obtain ⟨hsame, hnone⟩ := verdict_passive stack hpassive hr
    have hcancels : ¬Cancels 0 ⟨s, stack⟩ (.event ev) := by
      rintro (he | ⟨-, he⟩ | ⟨-, he | ⟨m, isOpen, he⟩⟩) <;> cases he <;> cases hpassive
    have hfollows (l : Label) (hl : l ∈ labels) : l.follows = true := by
      refine follows_of_told (hmakes l hl) (hadv.told l hl) hcancels ?_
      intro file he
      cases he
      cases hpassive
    have hsteady (l : Label) (hl : l ∈ labels) : l.steady = true := by
      refine (steady_of_told (hmakes l hl) (hadv.told l hl) hcancels ?_).resolve_right ?_
      · intro ev' he
        cases he
        exact hnone
      · rintro rfl
        cases (hmakes _ hl).1
    rw [hsame, hadv.run.hopeful_iff hsteady h.engaged.ordered h.traced]
    exact h.hope fun hp => hne (hadv.run.idle hfollows hp)
  · have hlive := h.engaged.served.live_of_admits (uploader.step_event hs).1 (by simpa using hpassive)
    rcases live_eq_nil hlive with hp | hp
    · exact h.idle hg hs hadv hmakes hp hne
    · exact h.serving hg hs h' hadv hmakes hp

theorem Judged.step {x y : Config} {act : Action} {a : Service ItemId} (h : Judged x a)
    (hg : Renewed x act) (hs : uploader.step x act = some y) : ∃ a', Judged y a' := by
  obtain ⟨labels, a', h', hadv, hmakes⟩ := h.engaged.makes trivial hg.1 (fun _ _ => .inl trivial) hs
  refine ⟨a', h', hadv.run.traced h.engaged.ordered h.traced, h.engaged.silent_step hg.1 hs h.silent, ?_⟩
  intro hne
  cases act with
  | run => exact h.run hs h' hadv hmakes hne
  | event ev => exact h.event hg hs h' hadv hmakes hne

theorem judged_of_reaches {env : Environment} {files : Path → Option File} {coreLocations : List Path}
    {logWritable : Bool} {x : Config}
    (hx : Reaches uploader Renewed (attached env files coreLocations logWritable) x) : ∃ a, Judged x a := by
  induction hx with
  | start =>
    refine ⟨_, engaged_attached _ env files coreLocations logWritable, Service.traced_fresh, ?_, ?_⟩
    · exact fun _ _ => rfl
    · exact fun hp => absurd rfl hp
  | next _ hg hs ih =>
    obtain ⟨a, ha⟩ := ih
    exact ha.step hg hs

/-- NoError is reported exactly when there is hope left at the end. -/
theorem Judged.truthful {x y : Config} {act : Action} {a : Service ItemId} {e : EngineId} {error : ErrorType}
    {sent total : Nat} (h : Judged x a) (hg : Renewed x act) (hs : uploader.step x act = some y)
    (hlog : y.state.log = .finished e error sent total :: x.state.log) :
    ∃ before, marks x.state.log = .emptied :: before ∧ (error = .noError ↔ Service.AllAnswered before) := by
  have hone : finishes y.state.log = finishes x.state.log + 1 := by
    rw [hlog, finishes, List.countP_cons_of_pos (by rfl)]
    rfl
  rcases h.engaged.mute hg.1 hs with hm | ⟨t, ⟨rest, hstack⟩, -, -, herrors, hy⟩
  · have heq := hm.finishes
    omega
  · obtain ⟨s, stack⟩ := x
    obtain rfl : stack = .queueDone 0 :: rest := hstack
    obtain ⟨-, hp⟩ := h.engaged.served.drained_of_queueDone id
    have herror : error = (verdict ⟨s, .queueDone 0 :: rest⟩).1 := by
      rw [hy] at hlog
      have hhead := (List.cons.inj hlog).1
      injection hhead with _ herror
      exact herror.symm.trans (congrArg Prod.fst herrors)
    obtain ⟨before, htrace, hiff⟩ := h.traced.hopeful_drained h.engaged.ordered hp
    refine ⟨before, h.engaged.served.serves.trace.trans htrace, ?_⟩
    rw [herror, ← hiff]
    exact h.hope (by simp [hp])

/-! ### The same batch, with a new engine -/

/-- The engine differs from a new one in its state, its item and its session at most. -/
structure Begins (s : State) : Prop where
  errors : (s.engines 0).errors = (.noError, none)
  sent : (s.engines 0).sentFiles = 0
  reported : (s.engines 0).reported = false

/-- The first item of a batch makes the engine a new one. -/
theorem uploadItem_renewed (h : Begins s) (hn : AsNew s) (i : ItemId) :
    UploadEngine.uploadItem 0 i s.renewed = UploadEngine.uploadItem 0 i s := by
  have herror : (s.engines 0).error = .noError := congrArg Prod.fst h.errors
  have hmessage : (s.engines 0).errorMessage = none := congrArg Prod.snd h.errors
  have htake (session : Option Session) : NwSessionMgr.setSession 0 session (UploadEngine.take 0 i s.renewed) =
      NwSessionMgr.setSession 0 session (UploadEngine.take 0 i s) := by
    simp [NwSessionMgr.setSession, UploadEngine.take_eq, State.renewed, State.setEngine, herror, hmessage,
      h.sent, h.reported]
  have hready : NwSessionMgr.ready 0 s.renewed = NwSessionMgr.ready 0 s := by
    rcases hn with hn | ⟨hn, hno⟩
    · simp [NwSessionMgr.ready, State.renewed, hn]
    · rw [hn]
      simpa [NwSessionMgr.ready, State.renewed] using hno
  rw [UploadEngine.uploadItem_eq, UploadEngine.uploadItem_eq, hready, htake]
  by_cases hr : NwSessionMgr.ready 0 s = true
  · -- There never was a session.
    have hnone : (s.engines 0).networkSession = none := by
      rcases hn with hn | ⟨hn, -⟩
      · exact hn
      · simp [hn] at hr
    have hsame : UploadEngine.take 0 i s.renewed = UploadEngine.take 0 i s := by
      simp [UploadEngine.take_eq, State.renewed, herror, hmessage, h.sent, h.reported, hnone]
    rw [hsame]
  · rw [if_neg hr, if_neg hr]

/-- While the first item is handed out nothing else happens to the engine. -/
theorem renewed_run {as : List Action} {x y : Config} {i : ItemId} {rest : List Call} {log : List Output}
    (hbegins : Begins x.state) (hstack : x.stack = .uploadItem 0 i :: rest)
    (hlog : x.state.log = .nextItem i :: .enqueued i :: log) (hg : Guarded uploader Renewed as x)
    (hr : uploader.run as x = some y) : ∃ z, uploader.run as ⟨x.state.renewed, x.stack⟩ = some z ∧
      z.state.log = y.state.log ∧ (z.state.engines 0).errors = (y.state.engines 0).errors := by
  induction as generalizing x with
  | nil =>
    cases hr
    refine ⟨_, rfl, rfl, ?_⟩
    rw [hbegins.errors]
    simp [State.renewed, Engine.errors]
  | cons act as ih =>
    obtain ⟨u, hu, hrest⟩ := Option.bind_eq_some_iff.mp hr
    obtain ⟨s, stack⟩ := x
    obtain rfl : stack = .uploadItem 0 i :: rest := hstack
    have hnext {w : Config} (hw : uploader.step ⟨s.renewed, .uploadItem 0 i :: rest⟩ act = some w) :
        uploader.run (act :: as) ⟨s.renewed, .uploadItem 0 i :: rest⟩ = uploader.run as w := by
      show (uploader.step _ act).bind _ = _
      rw [hw]
      rfl
    cases act with
    | run =>
      have hn : AsNew s := hg.1.2.2.1 i rest log rfl rfl hlog
      refine ⟨y, ?_, rfl, rfl⟩
      rw [hnext (w := u) ?_]
      · exact hrest
      · rw [← hu]
        show some (⟨(UploadEngine.uploadItem 0 i s.renewed).1,
          (UploadEngine.uploadItem 0 i s.renewed).2 ++ rest⟩ : Config) = _
        rw [uploadItem_renewed hbegins hn]
        rfl
    | event ev =>
      have hgu := hg.2 u hu
      obtain ⟨ha, r, hr', rfl⟩ := uploader.step_event hu
      replace hr' : deliver ev s = some r := hr'
      have hpassive : ev.passive = true := by
        rcases admits_cons ha with hp | ⟨_, _, _, hk⟩ | ⟨_, _, _, _, hk⟩
        · exact hp
        · cases hk
        · cases hk
      obtain ⟨hcalls, -, -, hengines, -⟩ := deliver_passive hpassive hr'
      have hsame : r.1.log = s.log ∧ deliver ev s.renewed = some (r.1.renewed, r.2) := by
        cases ev with
        | environment | file | coreLocations | callUploadFiles | callQuit =>
          cases hr'
          exact ⟨rfl, rfl⟩
        | _ => cases hpassive
      have hbegins' : Begins r.1 := by
        refine ⟨?_, ?_, ?_⟩ <;> rw [hengines]
        · exact hbegins.errors
        · exact hbegins.sent
        · exact hbegins.reported
      have hstack' : r.2 ++ .uploadItem 0 i :: rest = .uploadItem 0 i :: rest := by rw [hcalls, List.nil_append]
      rw [hnext (w := ⟨r.1.renewed, r.2 ++ .uploadItem 0 i :: rest⟩)]
      · exact ih hbegins' hstack' (hsame.1.trans hlog) hgu hrest
      · simp only [Reactor.step]
        rw [if_pos ha]
        exact congrArg (Option.map _) hsame.2

theorem Judged.renewed {x y : Config} {a : Service ItemId} {file : Path} {as : List Action} (h : Judged x a)
    (hn : x.state.queue.notified = false) (hg : Guarded uploader Renewed (.event (.enqueue file) :: as) x)
    (hr : uploader.run (.event (.enqueue file) :: as) x = some y) :
    ∃ z, uploader.run (.event (.enqueue file) :: as) ⟨x.state.renewed, x.stack⟩ = some z ∧
      z.state.log = y.state.log ∧ (z.state.engines 0).errors = (y.state.engines 0).errors := by
  obtain ⟨u, hu, hrest⟩ := Option.bind_eq_some_iff.mp hr
  have herrors := (hg.1.2.1 file rfl hn).1
  have hgu := hg.2 u hu
  obtain ⟨s, stack⟩ := x
  obtain ⟨ha, r, hr', rfl⟩ := uploader.step_event hu
  cases hr'
  have hserves : Serves 0 s a := h.engaged.served.serves
  have hlive : live 0 a.phase = [] := h.engaged.served.live_of_admits ha rfl
  have hb : a.phase.busy = false := hserves.notified ▸ hn
  have hp : a.phase ≠ .drained := by
    intro hp
    rw [hp] at hlive
    cases hlive
  have hq : s.queue.uploadQueue = [] := by
    rw [hserves.queue]
    exact h.engaged.ordered.empty hb
  have hfirst := UploadQueue.enqueueNew_first file hn hq
  have hrenewed : UploadQueue.enqueueNew file s.renewed =
      ((UploadQueue.enqueueNew file s).1.renewed, (UploadQueue.enqueueNew file s).2) := by
    rw [hfirst, UploadQueue.enqueueNew_first (s := s.renewed) file hn hq]
    rfl
  have hengines := (Apart.enqueueNew file (s := s)).engines
  have hbegins : Begins (UploadQueue.enqueueNew file s).1 := by
    refine ⟨?_, ?_, ?_⟩ <;> rw [hengines]
    · exact herrors
    · rw [hserves.sent]
      exact (h.traced.idle hb hp).1
    · exact h.engaged.unreported 0
  have hstep : uploader.step ⟨s.renewed, stack⟩ (.event (.enqueue file)) =
      some ⟨(UploadQueue.enqueueNew file s).1.renewed, (UploadQueue.enqueueNew file s).2 ++ stack⟩ := by
    simp only [Reactor.step]
    rw [if_pos ha]
    exact congrArg (fun r : State × List Call => some (⟨r.1, r.2 ++ stack⟩ : Config)) hrenewed
  show ∃ z, (uploader.step ⟨s.renewed, stack⟩ _).bind _ = some z ∧ _
  rw [hstep]
  have hcalls : (UploadQueue.enqueueNew file s).2 ++ stack =
      .uploadItem 0 s.nextItem :: .itemEnqueued :: stack := by
    rw [hfirst, hserves.engines]
    rfl
  have hlog : (UploadQueue.enqueueNew file s).1.log =
      .nextItem s.nextItem :: .enqueued s.nextItem :: s.log := by
    rw [hfirst]
    rfl
  exact renewed_run hbegins hcalls hlog hgu hrest

/-- Within `Renewed`, NoError is reported exactly when every item of the batch was answered,
and a batch goes as with a new engine. -/
theorem errors_own {env : Environment} {files : Path → Option File} {coreLocations : List Path}
    {logWritable : Bool} {x : Config}
    (hx : Reaches uploader Renewed (attached env files coreLocations logWritable) x) :
    OwnErrors Renewed x := by
  obtain ⟨a, ha⟩ := judged_of_reaches hx
  constructor
  · intro act y e error sent total hg hs hlog
    exact ha.truthful hg hs hlog
  · intro file as y hn hg hr
    exact ha.renewed hn hg hr

/-- A batch that is sent and answered, and begins as a new engine's. -/
def beginsNew (x : Config) : Action → Bool
  | .event (.enqueue _) => x.stack.isEmpty && (x.state.engines 0).errors == (.noError, none)
  | .event (.replyFinished ..) => true
  | .run => (x.state.engines 0).networkSession.isNone && !x.stack.contains (.cancelAll 0)
  | _ => false

theorem renewed_of_beginsNew (x : Config) (act : Action) (h : beginsNew x act = true) : Renewed x act := by
  have hengine : ofEngine act = true := by
    cases act with
    | run => rfl
    | event ev => cases ev <;> first | rfl | cases h
  have hcancels : ¬Cancels 0 x act := by
    rintro (rfl | ⟨⟨rest, hstack⟩, rfl⟩ | ⟨-, rfl | ⟨m, isOpen, rfl⟩⟩)
    · cases h
    · simp [beginsNew, hstack] at h
    · cases h
    · cases h
  refine ⟨alone_of_ofEngine hengine, ?_, ?_, fun hc => absurd (.inl hc) hcancels⟩
  · rintro file rfl -
    obtain ⟨hstack, herrors⟩ : x.stack = [] ∧ (x.state.engines 0).errors = (.noError, none) := by
      simpa [beginsNew] using h
    simp [herrors, hstack]
  · rintro i rest log rfl - -
    have hnone := (Bool.and_eq_true_iff.mp h).1
    exact .inl (Option.isNone_iff_eq_none.mp hnone)

theorem errors_own_one : .finished 0 .noError 1 1 ∈ finishedOne.state.log ∧
    OwnErrors Renewed finishedOne := by
  refine ⟨by decide, errors_own (Reaches.of_run .start (Guarded.of_check renewed_of_beginsNew (by decide))
    (Option.some_get (x := uploader.run finishOne engineAtRest) (by decide)).symm)⟩

/-! ### What the engine keeps -/

/-- The upload fails, and the same report is uploaded in a batch of its own. -/
def failOnce : List Action := [.event (.enqueue "/a.rcore"), .run, .run, .event (.replyError 0 "Host unreachable"),
  .run, .run, .run, .event (.enqueue "/a.rcore"), .run, .run, .event (.replyFinished 1 ⟨true, some 7⟩), .run]

def failedOnce : Config := (uploader.run failOnce engineAtRest).get (by decide)

/-- Every item of the second batch is answered, and its error is that of the first. -/
theorem errors_kept : ∃ x, Reaches uploader Alone engineAtRest x ∧ ¬OwnErrors Alone x := by
  refine ⟨failedOnce, reaches_ofEngine failOnce (by decide) (Option.some_get _).symm, fun h => ?_⟩
  obtain ⟨before, hmarks, hiff⟩ := h.truthful .run
    ((uploader.step failedOnce .run).get (by decide)) 0 .protocolError 1 1 (alone_of_ofEngine rfl)
    (Option.some_get _).symm (by decide)
  have hbefore : before = (marks failedOnce.state.log).tail := by rw [hmarks]; rfl
  have hall : Service.AllAnswered before := by
    rw [hbefore]
    unfold Service.AllAnswered
    decide
  exact absurd (hiff.mpr hall) (by decide)

end CrashReporter.Upload
