import CrashReporter.Upload.Reports
import CrashReporter.Upload.Teardown

/-! The simulation: what a step of the program does are moves of the service.

`Served` relates a configuration to a `Service`: the objects by `Serves`, and the
pending calls, of which the first ends the phase when the phase ends in a call.
`served_run` and `served_event` are its two kinds of steps; `Told` says what a step
looks like when it makes a move that matters to somebody. -/
namespace CrashReporter.Upload
open Reactor
open Service (Phase Mark Label Move Ordered)

variable {s : State}

/-- `own` are calls of somebody else, which may be pending as well. -/
structure Served (R : Rules) (own : Call → Prop) (e : EngineId) (x : Config) (a : Service ItemId) :
    Prop where
  serves : Serves e x.state a
  stands : Stands R (x.state.engines e) a.phase
  calls : ∃ tail, x.stack = live e a.phase ++ tail ∧ ∀ k ∈ tail, k.Settled e x.state ∨ own k
  counts : a.uncounted = x.stack.count .itemEnqueued

/-- The step cancels the engine's current item. -/
def Cancels (e : EngineId) (x : Config) (act : Action) : Prop :=
  act = .event (.cancelAll e) ∨ (∃ rest, x.stack = .cancelAll e :: rest) ∧ act = .run ∨
    ((x.state.engines e).state = .connecting ∨ (x.state.engines e).state = .connected) ∧
      (act = .event (.session e .disconnected) ∨ ∃ m isOpen, act = .event (.session e (.error m isOpen)))

/-- What the step looks like in which a move is made. -/
def Told (R : Rules) (e : EngineId) (x : Config) (act : Action) : Label → Prop
  | .stall => ∃ i, Starts e x act i ∧
    HttpClient.createPutRequest (x.state.items i).filepath x.state = none
  | .cancel => Cancels e x act
  | .cut => Cancels e x act ∧ .itemEnqueued ∈ x.stack
  | .abandon | .echo => Cancels e x act ∧ x.state.Answerless e
  | .drop => R.byOwner ∨ (x.state.engines e).state = .noConnection
  | _ => True

/-- The steps in which a move can be made, for moves that only some make. -/
def Makes (e : EngineId) (x : Config) (act : Action) : Label → Prop
  | .enqueue | .hand => ∃ file, act = .event (.enqueue file)
  | .fail => (∃ c m, act = .event (.replyError c m)) ∨
    ∃ c, act = .event (.timeout c) ∧ (x.state.clients c).reply = true
  | .drop => act = .run ∧ ∃ i rest, x.stack = .uploadFinished e i :: rest ∧
    (x.state.items i).status = .cancelled
  | .report => act = .run ∧ ∃ rest, x.stack = .queueDone e :: rest
  | _ => True

/-- The step from `x` to `y`, seen by the service. -/
structure Advances (R : Rules) (own : Call → Prop) (e : EngineId) (x : Config) (act : Action)
    (y : Config) (a : Service ItemId) (labels : List Label) (a' : Service ItemId) : Prop where
  run : Service.Run a labels a'
  served : Served R own e y a'
  told : ∀ l ∈ labels, Told R e x act l
  cancels : ∀ i, (y.state.items i).status = .cancelled → (x.state.items i).status = .cancelled ∨
    R.byOwner ∨ (y.state.engines e).state = .noConnection

section Step
variable {R : Rules} {own : Call → Prop} {e : EngineId} {a : Service ItemId}

theorem Call.Settled.detached {s' : State} (h : ∀ c, s.Detached c → s'.Detached c) {k : Call}
    (hk : k.Settled e s) : k.Settled e s' := by
  cases k with
  | aborted c | cancelled c => exact h c hk
  | _ => exact hk

/-- What a function brings about, before the calls that were pending. -/
theorem Brings.advances {r : State × List Call} {labels : List Label} {a' : Service ItemId}
    (h : Brings R e s a r labels a') {stack rest : List Call} {act : Action}
    (hrest : ∀ k ∈ rest, k.Settled e s ∨ own k) (hcount : a.uncounted = rest.count .itemEnqueued)
    (htold : ∀ l ∈ labels, Told R e ⟨s, stack⟩ act l) :
    Advances R own e ⟨s, stack⟩ act ⟨r.1, r.2 ++ rest⟩ a labels a' := by
  obtain ⟨tail, hr, htail⟩ := h.calls
  refine ⟨h.run, ⟨h.serves, h.stands, ⟨tail ++ rest, ?_, fun k hk => ?_⟩, ?_⟩, htold, h.cancels⟩
  · rw [hr, List.append_assoc]
  · rcases List.mem_append.mp hk with hk | hk
    · exact .inl (htail k hk)
    · exact (hrest k hk).imp (.detached h.detached) id
  · rw [h.counts, List.count_append, ← hcount, Nat.add_comm]

/-- The calls behind the first one, and whether it ends the phase. -/
theorem Served.cases {k : Call} {rest : List Call} (h : Served R own e ⟨s, k :: rest⟩ a) :
    (∀ k ∈ rest, k.Settled e s ∨ own k) ∧
      (live e a.phase = [k] ∨ live e a.phase = [] ∧ (k.Settled e s ∨ own k)) := by
  obtain ⟨tail, hstack, htail⟩ := h.calls
  have hlive : live e a.phase = [] ∨ ∃ k', live e a.phase = [k'] := by
    cases a.phase with
    | handing i => exact .inr ⟨_, rfl⟩
    | ending i | echo i => exact .inr ⟨_, rfl⟩
    | drained => exact .inr ⟨_, rfl⟩
    | idle | waiting | sending | stalled => exact .inl rfl
  dsimp only at hstack htail
  rcases hlive with hl | ⟨k', hl⟩
  · rw [hl, List.nil_append] at hstack
    subst hstack
    exact ⟨fun k hk => htail k (List.mem_cons_of_mem _ hk), .inr ⟨hl, htail _ (List.mem_cons_self ..)⟩⟩
  · rw [hl, List.singleton_append] at hstack
    obtain ⟨rfl, rfl⟩ := List.cons.inj hstack
    exact ⟨htail, .inl hl⟩

/-- The call that ends a phase. -/
theorem served_live {k : Call} {rest : List Call} (h : Served R own e ⟨s, k :: rest⟩ a)
    (ho : Ordered a) (hlive : live e a.phase = [k]) : ∃ labels a',
      Advances R own e ⟨s, k :: rest⟩ .run (uploader.called k rest s) a labels a' ∧
        ∀ l ∈ labels, Makes e ⟨s, k :: rest⟩ .run l := by
  have hrest := h.cases.1
  have hcount : a.uncounted = rest.count .itemEnqueued := by
    rw [h.counts]
    refine List.count_cons_of_ne ?_
    rintro rfl
    cases hp : a.phase <;> simp [hp, live] at hlive
  cases hp : a.phase with
  | handing i =>
    rw [hp] at hlive
    cases hlive
    obtain ⟨labels, a', hb, hlabels⟩ := brings_uploadItem (R := R) h.serves ho hp
    refine ⟨labels, a', hb.advances hrest hcount fun l hl => ?_, fun l hl => ?_⟩
    · rcases hlabels l hl with rfl | rfl | ⟨rfl, hready, hfile⟩
      · trivial
      · trivial
      · exact ⟨i, .inl ⟨⟨rest, rfl⟩, rfl, hready⟩, hfile⟩
    · rcases hlabels l hl with rfl | rfl | ⟨rfl, -⟩ <;> trivial
  | ending i outcome =>
    rw [hp] at hlive
    cases hlive
    obtain ⟨label, a', hb, hlabel⟩ := brings_uploadFinished (R := R) h.serves h.stands ho hp
    refine ⟨[label], a', hb.advances hrest hcount fun l hl => ?_, fun l hl => ?_⟩
    · rw [List.mem_singleton.mp hl]
      rcases hlabel with rfl | rfl | ⟨rfl, hstate⟩
      · trivial
      · trivial
      · exact hstate
    · rw [List.mem_singleton.mp hl]
      rcases hlabel with rfl | rfl | ⟨rfl, -⟩
      · trivial
      · trivial
      · -- Only the end of a cancelled item drops the rest.
        refine ⟨rfl, i, rest, rfl, ?_⟩
        have hd := h.serves.doing
        cases hb.run with
        | cons hm _ =>
          cases hm with
          | drop hp' =>
            rw [hp'] at hd
            cases hp.symm.trans hp'
            exact hd.2
  | echo i =>
    rw [hp] at hlive
    cases hlive
    obtain ⟨a', hb⟩ := brings_echo (R := R) h.serves ho hp
    exact ⟨[.again], a', hb.advances hrest hcount (by simp [Told]), by simp [Makes]⟩
  | drained =>
    rw [hp] at hlive
    cases hlive
    obtain ⟨a', hb⟩ := brings_queueDone (R := R) h.serves hp
    exact ⟨[.report], a', hb.advances hrest hcount (by simp [Told]), by simp [Makes]⟩
  | idle | waiting | sending | stalled => simp [hp, live] at hlive

/-- The rest of enqueue() counts the item. -/
theorem served_count {rest : List Call} (h : Served R own e ⟨s, .itemEnqueued :: rest⟩ a)
    (hlive : live e a.phase = []) : ∃ labels a', Advances R own e ⟨s, .itemEnqueued :: rest⟩ .run
      (uploader.called .itemEnqueued rest s) a labels a' ∧
        ∀ l ∈ labels, Makes e ⟨s, .itemEnqueued :: rest⟩ .run l := by
  have hcount : a.uncounted = rest.count .itemEnqueued + 1 := by
    rw [h.counts, List.count_cons_self]
  have hs := h.serves
  refine ⟨[.count], _, ⟨(Move.count hcount).run, ⟨?_, h.stands, ⟨rest, ?_, h.cases.1⟩, rfl⟩,
    by simp [Told], fun i hi => .inl hi⟩, by simp [Makes]⟩
  · exact {hs with
      total := congrArg (· + 1) hs.total
      fresh := fun i hi => (hs.fresh i hi).same rfl (Nat.le_refl _)
      doing := hs.doing.same (fun _ _ => rfl) (Nat.le_refl _) rfl rfl}
  · show rest = live e a.phase ++ rest
    rw [hlive, List.nil_append]

/-- A call that ends no phase. -/
theorem served_settled {k : Call} {rest : List Call} (h : Served R own e ⟨s, k :: rest⟩ a)
    (hlive : live e a.phase = []) (hk : k.Settled e s)
    (hreported : ∀ e' error sent total, k = .finished e' error sent total →
      (s.engines e').reported = false)
    (hgone : k = .sessionGone e → R.lost ∨ (s.engines e).state ≠ .connecting) : ∃ labels a',
      Advances R own e ⟨s, k :: rest⟩ .run (uploader.called k rest s) a labels a' ∧
        ∀ l ∈ labels, Makes e ⟨s, k :: rest⟩ .run l := by
  by_cases hke : k = .itemEnqueued
  · subst hke
    exact served_count h hlive
  · have hcount : a.uncounted = rest.count .itemEnqueued := by
      rw [h.counts]
      exact List.count_cons_of_ne hke
    have hbrings (hb : Brings R e s a (exec k s) [] a) : ∃ labels a',
        Advances R own e ⟨s, k :: rest⟩ .run (uploader.called k rest s) a labels a' ∧
          ∀ l ∈ labels, Makes e ⟨s, k :: rest⟩ .run l :=
      ⟨[], a, hb.advances h.cases.1 hcount (by simp), by simp⟩
    cases k with
    | sessionOpen e' => exact hbrings (.of_alike h.serves (.refl s) h.stands hlive (by simp [exec]) (by simp [exec]))
    | sessionGone e' =>
      obtain rfl : e' = e := hk
      refine hbrings (.of_alike h.serves (.setSession none) ?_ hlive (by simp [exec]) (by simp [exec]))
      have hst := h.stands
      cases hp : a.phase with
      | waiting i =>
        dsimp only at hst
        rw [hp] at hst
        refine ⟨?_, .inl ((hgone rfl).resolve_right fun hne => hne hst.1)⟩
        simpa [exec, NwSessionMgr.sessionGone, NwSessionMgr.setSession] using hst.1
      | idle | sending | stalled | handing | echo | drained | ending =>
        rw [← hp]
        have hstands := hst.setSession (by simp [hp]) none
        simpa [exec, NwSessionMgr.sessionGone, NwSessionMgr.setSession] using hstands
    | finished e' error sent total =>
      have heq : exec (.finished e' error sent total) s = (s, []) := by
        simp [exec, hreported e' error sent total rfl]
      rw [heq] at hbrings
      exact hbrings (.of_alike h.serves (.refl s) h.stands hlive (by simp) (by simp))
    | aborted c =>
      obtain ⟨-, hr, hc⟩ := hk
      refine hbrings ?_
      show Brings R e s a (HttpClient.aborted c s) [] a
      rw [HttpClient.aborted, HttpClient.handleFinished_detached _ (by simpa using hr) (by simpa using hc)]
      simp only [State.setClient, Function.update_self, Function.update_idem]
      exact brings_detached h.serves h.stands hlive hc ⟨hr, by simp, fun hv => absurd hv (by simp [hc])⟩ hc
    | cancelled c =>
      obtain ⟨-, hr, hc⟩ := hk
      refine hbrings ?_
      have hquiet : (s.clients c).Quiet := by
        by_contra hq
        obtain ⟨i, -, -, -, hi⟩ := h.serves.sender hq
        exact absurd hi.connected (by simp [hc])
      show Brings R e s a (HttpClient.cancelled c s) [] a
      rw [HttpClient.cancelled, HttpClient.handleFinished_detached _ (by simp) (by simpa using hc)]
      simp only [State.setClient, Function.update_self, Function.update_idem]
      exact brings_detached h.serves h.stands hlive hc
        ⟨rfl, hquiet.network, fun hv => absurd hv (by simp [hc])⟩ hc
    | itemEnqueued => exact absurd rfl hke
    | uploadItem | uploadFinished | queueDone | addFile | fileAdded | filesAdded | cancelAll | quitTail
    | exited => exact hk.elim

/-- The innermost call runs. -/
theorem served_run {k : Call} {rest : List Call} (h : Served R own e ⟨s, k :: rest⟩ a)
    (ho : Ordered a) (hown : ¬own k)
    (hreported : ∀ e' error sent total, k = .finished e' error sent total →
      (s.engines e').reported = false)
    (hgone : k = .sessionGone e → R.lost ∨ (s.engines e).state ≠ .connecting) : ∃ labels a',
      Advances R own e ⟨s, k :: rest⟩ .run (uploader.called k rest s) a labels a' ∧
        ∀ l ∈ labels, Makes e ⟨s, k :: rest⟩ .run l := by
  rcases h.cases.2 with hlive | ⟨hlive, hk⟩
  · exact served_live h ho hlive
  · exact served_settled h hlive (hk.resolve_right hown) hreported hgone

/-- An event comes while no call is about to end the phase. -/
theorem Served.live_of_admits {ev : Event} {stack : List Call} (h : Served R own e ⟨s, stack⟩ a)
    (ha : admits ev stack = true) (hp : ev.passive = false) : live e a.phase = [] := by
  obtain ⟨tail, hstack, -⟩ := h.calls
  dsimp only at hstack
  cases hl : live e a.phase with
  | nil => rfl
  | cons k calls =>
    rw [hl, List.cons_append] at hstack
    subst hstack
    have hk : ∃ p : Phase ItemId, live e p = k :: calls := ⟨_, hl⟩
    rcases admits_cons ha with hpass | ⟨e', signal, -, rfl⟩ | ⟨e', error, sent, total, rfl⟩
    · rw [hp] at hpass
      cases hpass
    · obtain ⟨p, hk⟩ := hk
      cases p <;> simp [live] at hk
    · obtain ⟨p, hk⟩ := hk
      cases p <;> simp [live] at hk

/-- The two states differ only where the service does not look, and no call is made. -/
theorem Served.alike {s' : State} {stack : List Call} (h : Served R own e ⟨s, stack⟩ a)
    (hs : Alike e s s') (he : s'.engines e = s.engines e) : Served R own e ⟨s', stack⟩ a := by
  obtain ⟨tail, hstack, htail⟩ := h.calls
  refine ⟨h.serves.alike hs, he ▸ h.stands, ⟨tail, hstack, fun k hk => ?_⟩, h.counts⟩
  exact (htail k hk).imp (.detached fun c => hs.detached) id

/-- Events that the service does not see. -/
theorem served_passive {ev : Event} {stack : List Call} {r : State × List Call}
    (h : Served R own e ⟨s, stack⟩ a) (hp : ev.passive = true) (hr : deliver ev s = some r) :
    Advances R own e ⟨s, stack⟩ (.event ev) ⟨r.1, r.2 ++ stack⟩ a [] a := by
  have halike {s' : State} (hs : Alike e s s') (he : s'.engines e = s.engines e) :
      Advances R own e ⟨s, stack⟩ (.event ev) ⟨s', stack⟩ a [] a :=
    ⟨.nil a, h.alike hs he, by simp, fun i hi => .inl (hs.items ▸ hi)⟩
  have hpost (m : Posted) (hm : ∀ i, m ≠ .deleteItem i) : Alike e s (s.post m) := by
    refine {Alike.refl s with posted := fun i hi => ?_}
    have hi' : .deleteItem i ∈ s.posted ∨ .deleteItem i = m := by simpa using hi
    exact hi'.resolve_right fun he => hm i he.symm
  cases ev with
  | callUploadFiles fileList obey =>
    cases hr
    exact halike (hpost _ (by simp)) rfl
  | callQuit =>
    cases hr
    exact halike (hpost _ (by simp)) rfl
  | environment | file | coreLocations =>
    cases hr
    exact halike {Alike.refl s with } rfl
  | _ => cases hp

/-- The first posted event deletes an item that is done. -/
theorem served_deleteItem {i : ItemId} {rest : List Posted} (h : Served R own e ⟨s, []⟩ a)
    (hposted : s.posted = .deleteItem i :: rest) : Served R own e
      ⟨State.setItem {s with posted := rest} i {s.items i with alive := false}, []⟩ a := by
  have hs := h.serves
  have hlive : live e a.phase = [] := by
    obtain ⟨tail, hstack, -⟩ := h.calls
    exact (List.append_eq_nil_iff.mp hstack.symm).1
  obtain ⟨hk, hnq, hni⟩ := hs.posted i (hposted ▸ List.mem_cons_self ..)
  have hstatus (j : ItemId) : (Function.update s.items i {s.items i with alive := false} j).http =
      (s.items j).http := by
    rcases eq_or_ne j i with rfl | hne
    · simp
    · simp [hne]
  refine ⟨{hs with
    fresh := fun j hj => (hs.fresh j hj).same ?_ (Nat.le_refl _)
    posted := fun j hj => hs.posted j (hposted ▸ List.mem_cons_of_mem _ hj)
    quiet := fun c hc => hs.quiet c fun j hp => ?_
    doing := ?_}, h.stands, ?_, h.counts⟩
  · have hne : j ≠ i := fun he => hnq (he ▸ hj)
    simp [hne]
  · rw [← hstatus]
    exact hc j hp
  · have hd := hs.doing
    have hitem (j : ItemId) (hj : a.phase.item = some j) : (State.setItem {s with posted := rest} i
        {s.items i with alive := false}).items j = s.items j := by
      have hne : j ≠ i := fun he => hni (he ▸ hj)
      simp [hne]
    have hhandles {j : ItemId} (hj : a.phase.item = some j) (hh : s.Handles e j) :
        (State.setItem {s with posted := rest} i {s.items i with alive := false}).Handles e j :=
      ⟨hh.known, hh.current, by rw [hitem j hj]; exact hh.alive, by rw [hitem j hj]; exact hh.listeners⟩
    cases hp : a.phase with
    | idle =>
      rw [hp] at hd
      intro j hj
      obtain ⟨hk, hdone⟩ := hd j hj
      refine ⟨hk, fun ha => ?_⟩
      have hne : j ≠ i := by
        rintro rfl
        simp at ha
      simpa [hne] using hdone (by simpa [hne] using ha)
    | waiting j =>
      have hj : a.phase.item = some j := by rw [hp]; rfl
      rw [hp] at hd
      refine ⟨hhandles hj hd.1, ?_⟩
      rw [hitem j hj]
      exact hd.2
    | sending j | stalled j =>
      have hj : a.phase.item = some j := by rw [hp]; rfl
      rw [hp] at hd
      obtain ⟨hh, hst, c, hc⟩ := hd
      refine ⟨hhandles hj hh, ?_, c, ?_, hc.reply, hc.connected⟩
      · rw [hitem j hj]
        exact hst
      · rw [hitem j hj]
        exact hc.http
    | handing | ending | echo | drained => simp [hp, live] at hlive
  · obtain ⟨tail, hstack, -⟩ := h.calls
    exact ⟨[], by rw [hlive]; rfl, by simp⟩

/-- What an event brings about, before the calls that were pending. -/
theorem Served.advances {ev : Event} {stack : List Call} {r : State × List Call}
    (h : Served R own e ⟨s, stack⟩ a) (hlive : live e a.phase = []) {labels : List Label}
    {a' : Service ItemId} (hb : Brings R e s a r labels a')
    (htold : ∀ l ∈ labels, Told R e ⟨s, stack⟩ (.event ev) l) :
    Advances R own e ⟨s, stack⟩ (.event ev) ⟨r.1, r.2 ++ stack⟩ a labels a' := by
  refine hb.advances (fun k hk => ?_) h.counts htold
  obtain ⟨tail, hstack, htail⟩ := h.calls
  dsimp only at hstack htail
  rw [hlive, List.nil_append] at hstack
  exact htail k (hstack ▸ hk)

/-- A cancelling move in a step that cancels. -/
theorem told_of_cancelling {x : Config} {act : Action} (hx : Cancels e x act)
    (hcounts : a.uncounted = x.stack.count .itemEnqueued) {l : Label} (hl : Cancelling e x.state a l) :
    Told R e x act l := by
  cases l with
  | cancel => exact hx
  | cut =>
    refine ⟨hx, ?_⟩
    by_contra hno
    exact hl (hcounts.trans (List.count_eq_zero_of_not_mem hno))
  | abandon | echo => exact ⟨hx, hl⟩
  | _ => exact hl.elim

theorem makes_of_cancelling {x : Config} {act : Action} {l : Label} (hl : Cancelling e s a l) :
    Makes e x act l := by
  cases l with
  | cancel | cut | abandon | echo => trivial
  | _ => exact hl.elim

/-- A signal of the engine's session. -/
theorem served_session {signal : SessionSignal} {stack : List Call} (h : Served R own e ⟨s, stack⟩ a)
    (ho : Ordered a) (hu : s.Owned) (hlive : live e a.phase = []) : ∃ labels a',
      Advances R own e ⟨s, stack⟩ (.event (.session e signal))
        ⟨(NwSessionMgr.signal e s signal).1, (NwSessionMgr.signal e s signal).2 ++ stack⟩ a labels a' ∧
      ∀ l ∈ labels, Makes e ⟨s, stack⟩ (.event (.session e signal)) l := by
  have hset (session : Option Session) : Alike e s (NwSessionMgr.setSession e session s) := .setSession _
  have hstate (session : Option Session) :
      ((NwSessionMgr.setSession e session s).engines e).state = (s.engines e).state := by
    simp [NwSessionMgr.setSession]
  cases signal with
  | opened =>
    obtain ⟨labels, a', hb, hlabels⟩ :=
      brings_sessionOpened (R := R) h.serves h.stands ho hlive (some ⟨true, false⟩)
    refine ⟨labels, a', h.advances hlive hb fun l hl => ?_, fun l hl => ?_⟩
    · rcases hlabels l hl with rfl | ⟨rfl, hstate, i, hcurrent, hfile⟩
      · trivial
      · exact ⟨i, .inr ⟨rfl, hstate, hcurrent⟩, hfile⟩
    · rcases hlabels l hl with rfl | ⟨rfl, -⟩ <;> trivial
  | error m isOpen =>
    have hs := (hset (some ⟨isOpen, false⟩)).trans (.setErrorString (some m))
    have hstate' : ((UploadEngine.setErrorString e (some m)
        (NwSessionMgr.setSession e (some ⟨isOpen, false⟩) s)).engines e).state = (s.engines e).state := by
      rw [← hstate (some ⟨isOpen, false⟩), UploadEngine.setErrorString]
      split <;> simp
    obtain ⟨labels, a', hb, hlabels⟩ :=
      brings_connectionLost (R := R) h.serves h.stands ho hu hlive hs hstate'
    refine ⟨labels, a', h.advances hlive hb fun l hl => ?_,
      fun l hl => makes_of_cancelling (hlabels l hl).2⟩
    obtain ⟨hc, hl'⟩ := hlabels l hl
    exact told_of_cancelling (.inr (.inr ⟨hc, .inr ⟨m, isOpen, rfl⟩⟩)) h.counts hl'
  | disconnected =>
    obtain ⟨labels, a', hb, hlabels⟩ :=
      brings_connectionLost (R := R) h.serves h.stands ho hu hlive (hset (some ⟨false, false⟩)) (hstate _)
    refine ⟨labels, a', h.advances hlive (hb.append [.sessionGone e] ?_ ?_) fun l hl => ?_,
      fun l hl => makes_of_cancelling (hlabels l hl).2⟩
    · simp [Call.Settled]
    · simp
    · obtain ⟨hc, hl'⟩ := hlabels l hl
      exact told_of_cancelling (.inr (.inr ⟨hc, .inl rfl⟩)) h.counts hl'

/-- An event, other than those of the uploader. -/
theorem served_event {ev : Event} {stack : List Call} {r : State × List Call}
    (h : Served R own e ⟨s, stack⟩ a) (ho : Ordered a) (hu : Uploads s)
    (ha : admits ev stack = true) (hr : deliver ev s = some r) (hquit : ev.quits = false)
    (hdispatch : ev = .dispatch → ∃ i rest, s.posted = .deleteItem i :: rest)
    (hcancel : ∀ e', ev = .cancelAll e' → R.byOwner) : ∃ labels a',
      Advances R own e ⟨s, stack⟩ (.event ev) ⟨r.1, r.2 ++ stack⟩ a labels a' ∧
        ∀ l ∈ labels, Makes e ⟨s, stack⟩ (.event ev) l := by
  by_cases hp : ev.passive = true
  · exact ⟨[], a, served_passive h hp hr, by simp⟩
  have hlive : live e a.phase = [] := h.live_of_admits ha (by simpa using hp)
  have hnone (he : ∀ k rest, admits ev (k :: rest) = false) : a.uncounted = 0 := by
    rw [h.counts]
    cases stack with
    | nil => rfl
    | cons k rest => simp [he k rest] at ha
  cases ev with
  | enqueue file =>
    cases hr
    obtain ⟨labels, a', hb, hlabels⟩ := brings_enqueueNew h.serves h.stands ho hlive file
    refine ⟨labels, a', h.advances hlive hb fun l hl => ?_, fun l hl => ?_⟩
    · rcases hlabels with rfl | rfl <;> cases List.mem_singleton.mp hl <;> trivial
    · rcases hlabels with rfl | rfl <;> cases List.mem_singleton.mp hl <;> exact ⟨file, rfl⟩
  | cancelAll e' =>
    cases hr
    rcases eq_or_ne e' e with rfl | he
    · obtain ⟨labels, a', hb, hlabels⟩ := brings_cancelCurrent h.serves (fun _ => h.stands) ho hu.owned
        hlive (.inl (hcancel e' rfl))
      exact ⟨labels, a', h.advances hlive hb fun l hl =>
        told_of_cancelling (.inl rfl) h.counts (hlabels l hl), fun l hl => makes_of_cancelling (hlabels l hl)⟩
    · have hcurrent : (s.engines e').currentItem = none := (h.serves.others e' he).2
      have heq : UploadEngine.cancelAll e' s = (s, []) := by
        simp [UploadEngine.cancelAll, UploadEngine.cancelCurrent, hcurrent]
      rw [heq]
      exact ⟨[], a, ⟨.nil a, h, by simp, fun i hi => .inl hi⟩, by simp⟩
  | dispatch =>
    obtain ⟨i, rest, hposted⟩ := hdispatch rfl
    have hnil : stack = [] := by
      cases stack with
      | nil => rfl
      | cons k rest => simp [admits] at ha
    subst hnil
    simp only [deliver, dispatch, hposted, Option.some.injEq] at hr
    subst hr
    refine ⟨[], a, ⟨.nil a, served_deleteItem h hposted, by simp, fun j hj => .inl ?_⟩, by simp⟩
    rcases eq_or_ne j i with rfl | hne
    · simpa using hj
    · simpa [hne] using hj
  | quitTimer | exit => cases hquit
  | session e' signal =>
    simp only [deliver, Option.ite_none_right_eq_some, Option.some.injEq] at hr
    obtain ⟨hsome, rfl⟩ := hr
    obtain rfl : e' = e := h.serves.session_own hsome
    exact served_session h ho hu.owned hlive
  | replyError c m =>
    obtain ⟨-, hn, rfl⟩ := deliverReply_some hr
    obtain ⟨a', hb⟩ := brings_replyError (R := R) h.serves h.stands ho hu.owned
      (hnone fun k rest => rfl) m (by simpa using hn)
    exact ⟨[.fail], a', h.advances hlive hb (by simp [Told]), by simp [Makes]⟩
  | replyFinished c answer =>
    obtain ⟨-, hn, rfl⟩ := deliverReply_some hr
    by_cases hrun : (s.clients c).network = .running
    · rw [if_pos hrun]
      obtain ⟨a', hb⟩ := brings_replySucceeded (R := R) h.serves ho hu.owned (hnone fun k rest => rfl)
        answer hrun
      exact ⟨[.answer], a', h.advances hlive hb (by simp [Told]), by simp [Makes]⟩
    · rw [if_neg hrun]
      have hb := brings_replyEnded (R := R) h.serves h.stands hlive hu.running answer
        (show (s.clients c).network = .failed by simpa [hrun] using hn)
      exact ⟨[], a, h.advances hlive hb (by simp), by simp⟩
  | uploadProgress c sent total =>
    obtain ⟨-, hn, rfl⟩ := deliverReply_some hr
    have hb := brings_uploadProgress (R := R) h.serves h.stands sent total
      (show (s.clients c).network = .running by simpa using hn)
    exact ⟨[], a, h.advances hlive hb (by simp), by simp⟩
  | sslErrors c =>
    obtain ⟨-, -, rfl⟩ := deliverReply_some hr
    have hs : Alike e s (HttpClient.handleSslErrors c s) := by
      unfold HttpClient.handleSslErrors
      split
      · exact .refl s
      · exact .emit rfl
    have he : (HttpClient.handleSslErrors c s).engines e = s.engines e := by
      unfold HttpClient.handleSslErrors
      split <;> rfl
    exact ⟨[], a, ⟨.nil a, h.alike hs he, by simp, fun i hi => .inl (hs.items ▸ hi)⟩, by simp⟩
  | timeout c =>
    obtain ⟨-, ht, rfl⟩ := deliverReply_some hr
    obtain ⟨labels, a', hb, hlabels⟩ := brings_timeout (R := R) h.serves h.stands ho hu.owned hlive
      (hnone fun k rest => rfl) ht
    refine ⟨labels, a', h.advances hlive hb fun l hl => ?_, fun l hl => ?_⟩
    · rcases hlabels with rfl | ⟨rfl, -⟩
      · cases hl
      · cases List.mem_singleton.mp hl
        trivial
    · rcases hlabels with rfl | ⟨rfl, hreply⟩
      · cases hl
      · cases List.mem_singleton.mp hl
        exact .inr ⟨c, rfl, hreply⟩
  | environment | file | coreLocations | callUploadFiles | callQuit => simp [Event.passive] at hp

end Step

end CrashReporter.Upload
