import Mathlib.Algebra.GroupWithZero.Nat
import CrashReporter.Ui.SystemdService
import Mathlib.Data.List.Chain

/-! The state of a service in the settings, and a click on its switch.

Once there is a proxy of the unit, its state is shown whenever nothing is on its way and the
timer does not run: the unit's changes are announced, a unit that is loaded starts the
timer, and a unit that is dropped from memory is inactive, which is known by then. Once the
unit is at rest, that is how it ends, and a click then asks for the opposite of what the
unit does. -/
namespace CrashReporter.Ui

namespace SystemdService

/-! ### The state follows the unit -/

/-- The message says that ActiveState has changed. -/
def Message.tellsState : Message → Bool
  | .propertiesChanged interface changed invalidated =>
    interface = unitInterface && (changed.contains "ActiveState" || invalidated.contains "ActiveState")
  | _ => false

/-- A signal about the properties of the unit. -/
def Message.isUnitSignal : Message → Bool
  | .propertiesChanged .. => true
  | _ => false

/-- The message brings the path of the unit. -/
def Message.getsUnit : Message → Bool
  | .finished (.loadUnit _) error => !error
  | _ => false

/-- The timer after a message to the service `name`. -/
def Message.timer (name : String) (running : Bool) : Message → Bool
  | .unitNew n => n = name || running
  | .unitRemoved n => n ≠ name && running
  | _ => running

/-- The timer once all messages have arrived. -/
def timerAfter (name : String) (running : Bool) (messages : List Message) : Bool :=
  messages.foldl (Message.timer name) running

def World.live (w : World) : State := .ofActiveState w.properties.activeState

/-- The unit's ActiveState is going to be read: a message says that it has changed, or the
timer runs when all messages have arrived. -/
def World.Due (w : World) : Prop :=
  (∃ m ∈ w.messages, m.tellsState = true) ∨ timerAfter w.serviceName w.unitStateTimer w.messages = true

instance : DecidablePred World.Due := fun _ => inferInstanceAs (Decidable (_ ∨ _))

/-- The proxy of the unit reads it when it is made. -/
def unitState : Mirror World State where
  live := World.live
  copy := World.state
  due w := w.unit = false ∨ w.Due

theorem timerAfter_cons (name : String) (running : Bool) (m : Message) (rest : List Message) :
    timerAfter name running (m :: rest) = timerAfter name (m.timer name running) rest := rfl

theorem timerAfter_append (name : String) (running : Bool) (messages : List Message) (m : Message) :
    timerAfter name running (messages ++ [m]) = m.timer name (timerAfter name running messages) := by
  simp [timerAfter]

namespace World
variable {w : World}

/-- What the slots for messages do not touch, but for the timer and the unit's proxy. -/
def base (w : World) : World :=
  {w with state := .inactive, announced := [], shownEnabled := false, shownMasked := false, calls := [], log := []}

theorem changeState_eq (state : String) : ∃ announced, w.changeState state =
    {w with state := .ofActiveState state, announced := announced} := by
  unfold changeState
  dsimp only
  split
  · exact ⟨_, rfl⟩
  · rename_i h
    exact ⟨w.announced, by rw [← not_not.mp h]⟩

@[simp] theorem changeState_base (state : String) : (w.changeState state).base = w.base := by
  unfold changeState
  dsimp only
  split <;> rfl

/-- The state, and what stateChanged() has announced. -/
def heard (w : World) : State × List State := (w.state, w.announced)

@[simp] theorem changeState_heard (state : String) : (w.changeState state).heard = (.ofActiveState state,
    if w.state = .ofActiveState state then w.announced else w.announced ++ [.ofActiveState state]) := by
  unfold changeState
  dsimp only
  split
  · rfl
  · rename_i h
    simp [heard, ← not_not.mp h]

@[simp] theorem enabledChanged_base : w.enabledChanged.base = w.base := rfl

@[simp] theorem enabledChanged_heard : w.enabledChanged.heard = w.heard := rfl

@[simp] theorem maskedChanged_base : w.maskedChanged.base = w.base := rfl

@[simp] theorem maskedChanged_heard : w.maskedChanged.heard = w.heard := rfl

@[simp] theorem send_base (call : Call) : (w.send call).base = w.base := rfl

@[simp] theorem send_heard (call : Call) : (w.send call).heard = w.heard := rfl

/-- The unit's ActiveState is read. -/
def read (w : World) : State × List State :=
  (w.live, if w.state = w.live then w.announced else w.announced ++ [w.live])

theorem handle_base (m : Message) : (w.handle m).base =
    {w with unit := w.unit || m.getsUnit, unitStateTimer := m.timer w.serviceName w.unitStateTimer}.base := by
  cases m with
  | propertiesChanged interface changed invalidated =>
    have hsame : (w.propertiesChanged interface changed invalidated).base = w.base := by
      simp only [propertiesChanged, apply_ite World.base, maskedChanged_base, enabledChanged_base,
        changeState_base, ite_self]
    simpa [handle, Message.getsUnit, Message.timer] using hsame
  | unitNew name =>
    by_cases h : name = w.serviceName <;> simp [handle, handleUnitNew, Message.getsUnit, Message.timer, h]
  | unitRemoved name =>
    by_cases h : name = w.serviceName <;> simp [handle, handleUnitRemoved, Message.getsUnit, Message.timer, h]
  | finished call error =>
    cases error with
    | true => cases call <;> simp [handle, gotUnitPath, maskingChanged, reloaded, Message.getsUnit, Message.timer]
    | false =>
      cases call with
      | loadUnit name =>
        have hgot : (w.gotUnitPath false).base = {w with unit := true}.base := by
          simp only [gotUnitPath, apply_ite World.base, maskedChanged_base, enabledChanged_base,
            changeState_base, ite_self, Bool.false_eq_true, if_false]
        simpa [handle, Message.getsUnit, Message.timer] using hgot
      | _ => simp [handle, maskingChanged, reloaded, World.reload, Message.getsUnit, Message.timer]

/-- A message about ActiveState and the path of the unit lead to a reading; no other message
changes the state. -/
theorem handle_heard (m : Message) :
    (w.handle m).heard = if m.tellsState || m.getsUnit then w.read else w.heard := by
  cases m with
  | propertiesChanged interface changed invalidated =>
    have hsame : (w.propertiesChanged interface changed invalidated).heard =
        if (Message.propertiesChanged interface changed invalidated).tellsState then w.read else w.heard := by
      by_cases hi : interface = unitInterface
      · simp only [propertiesChanged, hi, ne_eq, not_true_eq_false, if_false, apply_ite World.heard,
          maskedChanged_heard, enabledChanged_heard, changeState_heard, ite_self, Message.tellsState, decide_true,
          Bool.true_and]
        rfl
      · simp [propertiesChanged, Message.tellsState, hi]
    simpa [handle, Message.getsUnit] using hsame
  | unitNew name =>
    by_cases h : name = w.serviceName <;>
      simp [handle, handleUnitNew, Message.getsUnit, Message.tellsState, heard, h]
  | unitRemoved name =>
    by_cases h : name = w.serviceName <;>
      simp [handle, handleUnitRemoved, Message.getsUnit, Message.tellsState, heard, h]
  | finished call error =>
    cases error with
    | true => cases call <;> simp [handle, gotUnitPath, maskingChanged, reloaded, Message.getsUnit, Message.tellsState]
    | false =>
      cases call with
      | loadUnit name =>
        simp only [handle, gotUnitPath, apply_ite World.heard, maskedChanged_heard, enabledChanged_heard,
          changeState_heard, ite_self, Bool.false_eq_true, if_false, Message.getsUnit, Message.tellsState]
        rfl
      | _ => simp [handle, maskingChanged, reloaded, World.reload, Message.getsUnit, Message.tellsState]

theorem handle_state (m : Message) :
    (w.handle m).state = if m.tellsState || m.getsUnit then w.live else w.state := by
  have h := congrArg Prod.fst (handle_heard (w := w) m)
  rw [apply_ite Prod.fst] at h
  exact h

theorem checkUnitState_of_unit (hu : w.unit = true) : ∃ announced, w.checkUnitState =
    {w with state := w.live, announced := announced} := by
  rw [checkUnitState, if_pos hu]
  exact changeState_eq _

theorem checkUnitState_of_not (hu : w.unit = false) : w.checkUnitState = w := by
  simp [checkUnitState, hu]

end World

structure Sound (w : World) : Prop where
  completed : w.manager = true → w.completed = true
  /-- Before there is a manager proxy, nothing is on its way. -/
  still : w.manager = false → w.calls = [] ∧ w.messages = []
  manager : w.unit = true → w.manager = true
  name : w.manager = true → w.serviceName ≠ ""
  subscribed : w.manager = true → w.subscribed = true
  /-- Before there is a proxy of the unit, the service is taken not to run. -/
  guess : w.unit = false → w.state = .inactive
  gone : w.loaded = false → w.live = .inactive
  /-- Q_ASSERT(unit) in propertiesChanged() -/
  asserted : ∀ m ∈ w.messages, m.isUnitSignal = true → w.unit = true
  /-- A unit that is inactive is known to be, or a message says so. -/
  noted : w.live = .inactive → w.state = .inactive ∨ ∃ m ∈ w.messages, m.tellsState = true

section Sound
variable {w t : World} {e : Event} {m : Message}

theorem due_append (h : unitState.due w) (ht : m.timer w.serviceName true = true) :
    unitState.due {w with messages := w.messages ++ [m]} := by
  obtain hu | ⟨n, hn, htells⟩ | htimer := h
  · exact .inl hu
  · exact .inr (.inl ⟨n, List.mem_append_left _ hn, htells⟩)
  · refine .inr (.inr ?_)
    rw [timerAfter_append, htimer]
    exact ht

theorem World.sendUnitSignal_of_unit (hu : w.unit = true) (hs : w.subscribed = true) :
    w.sendUnitSignal m = {w with messages := w.messages ++ [m]} := by
  simp [sendUnitSignal, hu, hs]

theorem World.sendUnitSignal_of_not (hu : w.unit = false) : w.sendUnitSignal m = w := by
  simp [sendUnitSignal, hu]

theorem World.sendManagerSignal_of_manager (hm : w.manager = true) (hs : w.subscribed = true) :
    w.sendManagerSignal m = {w with messages := w.messages ++ [m]} := by
  simp [sendManagerSignal, hm, hs]

theorem World.sendManagerSignal_of_not (hm : w.manager = false) : w.sendManagerSignal m = w := by
  simp [sendManagerSignal, hm]

theorem Sound.unit_false (h : Sound w) (hm : w.manager = false) : w.unit = false := by
  by_contra hu
  rw [h.manager (by simpa using hu)] at hm
  cases hm

theorem Message.isUnitSignal_of_tellsState (h : m.tellsState = true) : m.isUnitSignal = true := by
  cases m with
  | propertiesChanged => rfl
  | _ => cases h

/-- One more message, to a service with the proxy for it. -/
theorem Sound.received (h : Sound w) (hm : w.manager = true) (hu : m.isUnitSignal = true → w.unit = true) :
    Sound {w with messages := w.messages ++ [m]} where
  completed := h.completed
  still hn := absurd hm (by simp [show w.manager = false from hn])
  manager := h.manager
  name := h.name
  subscribed := h.subscribed
  guess := h.guess
  gone := h.gone
  asserted n hn := by
    obtain hn | hn := List.mem_append.mp hn
    · exact h.asserted n hn
    · rw [List.mem_singleton.mp hn]
      exact hu
  noted hi := (h.noted hi).imp_right fun ⟨n, hn, ht⟩ => ⟨n, List.mem_append_left _ hn, ht⟩

theorem Sound.delivered {rest : List Message} (h : Sound w) (hm : w.messages = m :: rest) :
    Sound ({w with messages := rest}.handle m) := by
  have hbase := World.handle_base (w := {w with messages := rest}) m
  have hstate := World.handle_state (w := {w with messages := rest}) m
  have hmanager : w.manager = true := by
    by_contra hn
    have hempty := (h.still (by simpa using hn)).2
    rw [hm] at hempty
    cases hempty
  generalize {w with messages := rest}.handle m = u at hbase hstate
  have hu : u.manager = w.manager := (congrArg World.manager hbase :)
  have hunit : u.unit = (w.unit || m.getsUnit) := (congrArg World.unit hbase :)
  have hlive : u.live = w.live := (congrArg World.live hbase :)
  have hmessages : u.messages = rest := (congrArg World.messages hbase :)
  refine ⟨fun _ => ?_, fun hn => ?_, fun _ => hu.trans hmanager, fun _ => ?_, fun _ => ?_, fun hn => ?_,
    fun hl => ?_, fun n hn hsignal => ?_, fun hi => ?_⟩
  · exact (congrArg World.completed hbase :).trans (h.completed hmanager)
  · rw [hu, hmanager] at hn
    cases hn
  · have hname : u.serviceName = w.serviceName := (congrArg World.serviceName hbase :)
    rw [hname]
    exact h.name hmanager
  · exact (congrArg World.subscribed hbase :).trans (h.subscribed hmanager)
  · obtain ⟨hw, hpath⟩ := Bool.or_eq_false_iff.mp (hunit.symm.trans hn)
    have htells : m.tellsState = false := by
      by_contra ht
      have hsignal := Message.isUnitSignal_of_tellsState (by simpa using ht)
      rw [h.asserted m (by simp [hm]) hsignal] at hw
      cases hw
    rw [hstate, htells, hpath]
    exact h.guess hw
  · exact hlive.trans (h.gone ((congrArg World.loaded hbase :).symm.trans hl))
  · rw [hmessages] at hn
    rw [hunit, h.asserted n (by simp [hm, hn]) hsignal, Bool.true_or]
  · rw [hlive] at hi
    rw [hstate, hmessages]
    split
    · exact .inl hi
    · rename_i hread
      obtain hs | ⟨n, hn, ht⟩ := h.noted hi
      · exact .inl hs
      · rw [hm] at hn
        cases hn with
        | head => simp [ht] at hread
        | tail _ hn => exact .inr ⟨n, hn, ht⟩

theorem Sound.changed (h : Sound w) {p : Properties} {changed invalidated : List String}
    (hl : w.loaded = true) (named : p.activeState ≠ w.properties.activeState →
      (changed.contains "ActiveState" || invalidated.contains "ActiveState") = true) :
    Sound ({w with properties := p}.sendUnitSignal (.propertiesChanged unitInterface changed invalidated)) ∧
      unitState.Refreshes w
        ({w with properties := p}.sendUnitSignal (.propertiesChanged unitInterface changed invalidated)) := by
  by_cases hu : w.unit = false
  · rw [World.sendUnitSignal_of_not (w := {w with properties := p}) hu]
    exact ⟨{h with gone := fun hn => absurd (hl.symm.trans hn) (by simp), noted := fun _ => .inl (h.guess hu)},
      .told (.inl hu)⟩
  · have hu : w.unit = true := by simpa using hu
    have hm := h.manager hu
    rw [World.sendUnitSignal_of_unit (w := {w with properties := p}) hu (h.subscribed hm)]
    have hgone : w.loaded ≠ false := by simp [hl]
    by_cases hp : p.activeState = w.properties.activeState
    · have hlive : State.ofActiveState p.activeState = w.live := by rw [hp, World.live]
      have hs := h.received (m := .propertiesChanged unitInterface changed invalidated) hm fun _ => hu
      refine ⟨{hs with gone := fun hn => absurd hn hgone, noted := fun hi => hs.noted (hlive.symm.trans hi)},
        .same rfl hlive fun hd => due_append hd rfl⟩
    · have htells : (Message.propertiesChanged unitInterface changed invalidated).tellsState = true := by
        simp only [Message.tellsState, named hp, decide_true, Bool.and_true]
      have hs := h.received (m := .propertiesChanged unitInterface changed invalidated) hm fun _ => hu
      exact ⟨{hs with gone := fun hn => absurd hn hgone, noted := fun _ => .inr ⟨_, by simp, htells⟩},
        .told (.inr (.inl ⟨_, by simp, htells⟩))⟩

theorem Sound.loaded (h : Sound w) {p : Properties} (hl : w.loaded = false) :
    Sound ({w with properties := p, loaded := true}.sendManagerSignal (.unitNew w.serviceName)) ∧
      unitState.Refreshes w
        ({w with properties := p, loaded := true}.sendManagerSignal (.unitNew w.serviceName)) := by
  have hnoted := h.noted (h.gone hl)
  by_cases hm : w.manager = false
  · rw [World.sendManagerSignal_of_not (w := {w with properties := p, loaded := true}) hm]
    exact ⟨{h with gone := nofun, noted := fun _ => hnoted}, .told (.inl (h.unit_false hm))⟩
  · have hm : w.manager = true := by simpa using hm
    rw [World.sendManagerSignal_of_manager (w := {w with properties := p, loaded := true}) hm (h.subscribed hm)]
    have hs := h.received (m := .unitNew w.serviceName) hm nofun
    refine ⟨{hs with gone := nofun, noted := fun _ => hs.noted (h.gone hl)}, .told (.inr (.inr ?_))⟩
    show timerAfter w.serviceName w.unitStateTimer (w.messages ++ [.unitNew w.serviceName]) = true
    rw [timerAfter_append]
    simp [Message.timer]

theorem Sound.unloaded (h : Sound w) (gone : w.live = .inactive) :
    Sound ({w with properties := {w.properties with activeState := "inactive"},
                   loaded := false}.sendManagerSignal (.unitRemoved w.serviceName)) ∧
      unitState.Refreshes w
        ({w with properties := {w.properties with activeState := "inactive"},
                 loaded := false}.sendManagerSignal (.unitRemoved w.serviceName)) := by
  have hinactive : State.ofActiveState "inactive" = .inactive := by decide
  have hnoted := h.noted gone
  by_cases hm : w.manager = false
  · rw [World.sendManagerSignal_of_not
      (w := {w with properties := {w.properties with activeState := "inactive"}, loaded := false}) hm]
    exact ⟨{h with gone := fun _ => hinactive, noted := fun _ => hnoted}, .told (.inl (h.unit_false hm))⟩
  · have hm : w.manager = true := by simpa using hm
    rw [World.sendManagerSignal_of_manager
      (w := {w with properties := {w.properties with activeState := "inactive"}, loaded := false}) hm (h.subscribed hm)]
    have hs := h.received (m := .unitRemoved w.serviceName) hm nofun
    refine ⟨{hs with gone := fun _ => hinactive, noted := fun _ => hs.noted gone}, ?_⟩
    obtain hstate | ⟨n, hn, ht⟩ := hnoted
    · exact .read (hstate.trans hinactive.symm)
    · exact .told (.inr (.inl ⟨n, List.mem_append_left _ hn, ht⟩))

/-- A message that says nothing new about the unit. -/
theorem Sound.told (h : Sound w) (hm : w.manager = true) (hu : m.isUnitSignal = true → w.unit = true)
    (ht : m.timer w.serviceName true = true) :
    Sound {w with messages := w.messages ++ [m]} ∧
      unitState.Refreshes w {w with messages := w.messages ++ [m]} :=
  ⟨h.received hm hu, .same rfl rfl fun hd => due_append hd ht⟩

theorem refreshes_delivered {rest : List Message} (hm : w.messages = m :: rest) :
    unitState.Refreshes w ({w with messages := rest}.handle m) := by
  have hbase := World.handle_base (w := {w with messages := rest}) m
  have hstate := World.handle_state (w := {w with messages := rest}) m
  generalize {w with messages := rest}.handle m = u at hbase hstate
  have hlive : u.live = w.live := (congrArg World.live hbase :)
  have hunit : u.unit = (w.unit || m.getsUnit) := (congrArg World.unit hbase :)
  by_cases hread : (m.tellsState || m.getsUnit) = true
  · rw [if_pos hread] at hstate
    exact .read (hstate.trans hlive.symm)
  · rw [if_neg hread] at hstate
    obtain ⟨htells, hpath⟩ := Bool.or_eq_false_iff.mp (Bool.eq_false_iff.mpr hread)
    have hmessages : u.messages = rest := (congrArg World.messages hbase :)
    have htimer : u.unitStateTimer = m.timer w.serviceName w.unitStateTimer :=
      (congrArg World.unitStateTimer hbase :)
    have hname : u.serviceName = w.serviceName := (congrArg World.serviceName hbase :)
    refine .same hstate hlive fun hd => ?_
    obtain hu | ⟨n, hn, ht⟩ | hrun := hd
    · exact .inl (by rw [hunit, hu, hpath, Bool.or_false])
    · rw [hm] at hn
      cases hn with
      | head => simp [ht] at htells
      | tail _ hn => exact .inr (.inl ⟨n, hmessages ▸ hn, ht⟩)
    · refine .inr (.inr ?_)
      rw [hname, htimer, hmessages]
      rwa [hm, timerAfter_cons] at hrun

/-- A call of the object is answered: LoadState and the unit file may change, and the reply
is on its way. -/
theorem Sound.answered (h : Sound w) {call : Call} {rest : List Call} {l : String} {masked error : Bool}
    (hc : w.calls = call :: rest) :
    Sound {w with calls := rest, messages := w.messages ++ [.finished call error], fileMasked := masked,
                  properties := {w.properties with loadState := l}} ∧
      unitState.Refreshes w {w with calls := rest, messages := w.messages ++ [.finished call error],
                                    fileMasked := masked,
                                    properties := {w.properties with loadState := l}} := by
  have hm : w.manager = true := by
    by_contra hn
    have hempty := (h.still (by simpa using hn)).1
    rw [hc] at hempty
    cases hempty
  have ⟨hs, hr⟩ := h.told (m := .finished call error) hm nofun rfl
  exact ⟨{hs with still := fun hn => absurd (hm.symm.trans hn) (by simp)},
    .same rfl rfl fun hd => due_append hd rfl⟩

theorem Sound.step (h : Sound w) (hg : e ≠ .componentComplete true)
    (hs : machine.step w e = some t) :
    Sound t ∧ unitState.Refreshes w t := by
  cases step_moves hs with
  | asked _ hcs =>
    refine ⟨{h with still := fun hm => ?_}, .same rfl rfl id⟩
    have hempty := h.still hm
    exact ⟨by simp [World.asked, hempty.1, hcs (h.unit_false hm)], hempty.2⟩
  | named name =>
    unfold World.setServiceName
    split
    · exact ⟨h, .same rfl rfl id⟩
    · rename_i hn
      have hm : w.manager = false := by
        by_contra hm
        exact h.name (by simpa using hm) (by simpa using hn)
      exact ⟨{h with name := fun hm' => absurd (hm.symm.trans hm') (by simp)}, .told (.inl (h.unit_false hm))⟩
  | typed managerType => exact ⟨{h with}, .same rfl rfl id⟩
  | completed error hc =>
    obtain rfl : error = false := by
      by_contra he
      exact hg (congrArg _ (by simpa using he))
    have hm : w.manager = false := by
      by_contra hm
      rw [h.completed (by simpa using hm)] at hc
      cases hc
    have hu := h.unit_false hm
    unfold World.componentComplete
    dsimp only
    split
    · exact ⟨{h with completed := fun _ => rfl}, .told (.inl hu)⟩
    · rename_i hn
      have hname : w.serviceName ≠ "" := by simpa using hn
      exact ⟨{h with completed := fun _ => rfl, still := Bool.noConfusion, manager := fun _ => rfl,
                     subscribed := fun _ => rfl, name := fun _ => hname}, .told (.inl hu)⟩
  | delivered hm => exact ⟨h.delivered hm, refreshes_delivered hm⟩
  | timeout _ =>
    by_cases hu : w.unit = true
    · obtain ⟨announced, hread⟩ := World.checkUnitState_of_unit (w := {w with unitStateTimer := false}) hu
      rw [hread]
      exact ⟨{h with guess := fun hn => absurd (hu.symm.trans hn) (by simp), noted := .inl}, .read rfl⟩
    · have hu : w.unit = false := by simpa using hu
      rw [World.checkUnitState_of_not (w := {w with unitStateTimer := false}) hu]
      exact ⟨{h with}, .told (.inl hu)⟩
  | refused loadState hc => exact h.answered hc
  | answered loadState hc _ =>
    obtain ⟨l, masked, hserved⟩ := World.served_eq
      (w := {w with calls := _, messages := w.messages ++ [.finished _ false]}) _ loadState
    rw [hserved]
    exact h.answered hc
  | changed hl _ named => exact h.changed hl named
  | loaded hl _ => exact h.loaded hl
  | unloaded _ gone => exact h.unloaded gone
  | otherInterface hi =>
    by_cases hu : w.unit = false
    · rw [World.sendUnitSignal_of_not hu]
      exact ⟨h, .same rfl rfl id⟩
    · have hu : w.unit = true := by simpa using hu
      rw [World.sendUnitSignal_of_unit hu (h.subscribed (h.manager hu))]
      exact h.told (h.manager hu) (fun _ => hu) rfl
  | otherNew hn =>
    by_cases hm : w.manager = false
    · rw [World.sendManagerSignal_of_not hm]
      exact ⟨h, .same rfl rfl id⟩
    · have hm : w.manager = true := by simpa using hm
      rw [World.sendManagerSignal_of_manager hm (h.subscribed hm)]
      exact h.told hm (by simp [Message.isUnitSignal]) (by simp [Message.timer])
  | otherRemoved hn =>
    by_cases hm : w.manager = false
    · rw [World.sendManagerSignal_of_not hm]
      exact ⟨h, .same rfl rfl id⟩
    · have hm : w.manager = true := by simpa using hm
      rw [World.sendManagerSignal_of_manager hm (h.subscribed hm)]
      exact h.told hm (by simp [Message.isUnitSignal]) (by simp [Message.timer, hn])

end Sound

/-! ### What the settings show -/

/-- stateChanged() has announced each change of the state, and nothing else. -/
structure World.Told (w : World) : Prop where
  shown : w.shown = w.state
  changes : (State.inactive :: w.announced).IsChain (· ≠ ·)

section Told
variable {w t : World} {e : Event} {m : Message}

theorem World.Told.of_heard (h : w.Told) (ht : t.heard = w.heard) : t.Told := by
  have hs : t.state = w.state := congrArg Prod.fst ht
  have ha : t.announced = w.announced := congrArg Prod.snd ht
  constructor
  · simpa only [World.shown, ha, hs] using h.shown
  · rw [ha]
    exact h.changes

theorem World.Told.of_read (h : w.Told) (ht : t.heard = w.read) : t.Told := by
  by_cases hl : w.state = w.live
  · exact h.of_heard (ht.trans (by rw [World.read, if_pos hl, World.heard, hl]))
  · have hs : t.state = w.live := congrArg Prod.fst ht
    have ha : t.announced = w.announced ++ [w.live] := by
      have hsnd := congrArg Prod.snd ht
      rwa [World.read, if_neg hl] at hsnd
    constructor
    · simp [World.shown, ha, hs]
    · rw [ha, ← List.cons_append]
      refine h.changes.append (List.isChain_singleton _) fun x hx y hy => ?_
      have hx' : x = w.shown := by
        rw [List.getLast?_eq_getLast_of_ne_nil (List.cons_ne_nil _ _), Option.mem_some_iff] at hx
        exact hx.symm
      have hy' : y = w.live := by simpa using hy.symm
      rw [hx', hy', h.shown]
      exact hl

theorem World.Told.step (h : w.Told) (hs : machine.step w e = some t) : t.Told := by
  cases step_moves hs with
  | @delivered m rest =>
    have hheard := World.handle_heard (w := {w with messages := rest}) m
    split at hheard
    · exact h.of_read hheard
    · exact h.of_heard hheard
  | timeout =>
    unfold World.checkUnitState
    split
    · exact h.of_read (World.changeState_heard _)
    · exact h.of_heard rfl
  | named name =>
    unfold World.setServiceName
    split
    · exact h
    · exact h.of_heard rfl
  | completed error =>
    unfold World.componentComplete
    dsimp only
    split <;> exact h.of_heard rfl
  | answered loadState =>
    obtain ⟨l, masked, hserved⟩ := World.served_eq
      (w := {w with calls := _, messages := w.messages ++ [.finished _ false]}) _ loadState
    rw [hserved]
    exact h.of_heard rfl
  | changed | otherInterface =>
    unfold World.sendUnitSignal
    split <;> exact h.of_heard rfl
  | loaded | unloaded | otherNew | otherRemoved =>
    unfold World.sendManagerSignal
    split <;> exact h.of_heard rfl
  | _ => exact h.of_heard rfl

end Told

/-! ### Every run -/

section Runs
variable {w : World} {es : List Event} {properties : Properties} {loaded : Bool}

theorem sound_new (h : loaded = false → State.ofActiveState properties.activeState = .inactive) :
    Sound (new properties loaded) where
  completed := nofun
  still _ := ⟨rfl, rfl⟩
  manager := nofun
  name := nofun
  subscribed := nofun
  guess _ := rfl
  gone := h
  asserted := nofun
  noted _ := .inl rfl

theorem visits_sound (h : loaded = false → State.ofActiveState properties.activeState = .inactive)
    (hes : ∀ e ∈ es, e ≠ .componentComplete true) :
    ∀ w ∈ machine.visits es (new properties loaded), Sound w ∧ unitState.Followed w :=
  Mirror.visits_followed (fun _ _ _ hs hg hstep => hs.step hg hstep) (sound_new h) (.inl (.inl rfl))
    (Machine.Within.of_forall hes _)

theorem visits_told : ∀ w ∈ machine.visits es (new properties loaded), w.Told :=
  Machine.visits_invariant (fun _ _ _ h _ hs => h.step hs) ⟨rfl, List.isChain_singleton _⟩
    (Machine.within_true es _)

/-- A unit that is not in memory; it is loaded, and started by a click. -/
def clickedOnce : List Event :=
  [.setServiceName "crash-reporter.service", .componentComplete false,
    .load ⟨"inactive", "disabled", "loaded"⟩, .answer false "", .deliver, .deliver, .clicked, .answer false "",
    .change ⟨"activating", "disabled", "loaded"⟩ ["ActiveState"] [], .deliver, .deliver, .timeout]

/-- The unit in the beginning. -/
def unloadedUnit : World := new ⟨"inactive", "", "loaded"⟩ false

theorem clickedOnce_ne : machine.visits clickedOnce unloadedUnit ≠ [] := by decide

/-- The world after the click has worked. -/
def clickedOnceEnd : World := (machine.visits clickedOnce unloadedUnit).getLast clickedOnce_ne

end Runs

/-! ### Once systemd is at rest -/

def Call.work : Call → Nat
  | .maskUnitFiles .. | .unmaskUnitFiles .. => 4
  | _ => 2

def Message.work : Message → Nat
  | .unitNew _ => 2
  | .finished call _ => call.work - 1
  | _ => 1

/-- The messages, timeouts and replies that may still come. -/
def World.work (w : World) : Nat :=
  (w.calls.map Call.work).sum + (w.messages.map Message.work).sum + w.unitStateTimer.toNat

/-- The calls that the slot for the message makes. -/
def Message.sends : Message → List Call
  | .finished (.maskUnitFiles ..) false | .finished (.unmaskUnitFiles ..) false => [.reload]
  | _ => []

section Work
variable {w t : World} {e : Event} {m : Message}

/-- The calls that a message leads to, and the timer, are less work than the message. -/
theorem Message.sends_work (m : Message) (name : String) (running : Bool) :
    (m.sends.map Call.work).sum + (m.timer name running).toNat < m.work + running.toNat := by
  cases m with
  | propertiesChanged => simp [Message.sends, Message.timer, Message.work]
  | unitNew n =>
    have hle := Bool.toNat_le (n = name || running)
    simp only [Message.sends, Message.timer, Message.work, List.map_nil, List.sum_nil]
    omega
  | unitRemoved n =>
    have hle : (decide (n ≠ name) && running).toNat ≤ running.toNat := by
      cases running <;> simp [Bool.toNat_le]
    simp only [Message.sends, Message.timer, Message.work, List.map_nil, List.sum_nil]
    omega
  | finished call error => cases call <;> cases error <;> simp [Message.sends, Message.timer, Message.work, Call.work]

namespace World

/-- The calls on their way, and all calls. -/
def sent (w : World) : List Call × List Call := (w.calls, w.log)

@[simp] theorem changeState_sent (state : String) : (w.changeState state).sent = w.sent := by
  unfold changeState
  dsimp only
  split <;> rfl

@[simp] theorem enabledChanged_sent : w.enabledChanged.sent = w.sent := rfl

@[simp] theorem maskedChanged_sent : w.maskedChanged.sent = w.sent := rfl

theorem handle_sent (m : Message) : (w.handle m).sent = (w.calls ++ m.sends, w.log ++ m.sends) := by
  have hnone : w.sent = (w.calls ++ [], w.log ++ []) := by simp [sent]
  cases m with
  | propertiesChanged interface changed invalidated =>
    simp only [handle, propertiesChanged, apply_ite World.sent, maskedChanged_sent, enabledChanged_sent,
      changeState_sent, ite_self]
    exact hnone
  | unitNew name =>
    simp only [handle, handleUnitNew, apply_ite World.sent]
    exact (ite_self _).trans hnone
  | unitRemoved name =>
    simp only [handle, handleUnitRemoved, apply_ite World.sent]
    exact (ite_self _).trans hnone
  | finished call error =>
    cases error with
    | true =>
      cases call <;> simpa [handle, gotUnitPath, maskingChanged, reloaded, Message.sends] using hnone
    | false =>
      cases call with
      | loadUnit name =>
        simp only [handle, gotUnitPath, apply_ite World.sent, maskedChanged_sent, enabledChanged_sent,
          changeState_sent, ite_self, Bool.false_eq_true, if_false]
        exact hnone
      | maskUnitFiles | unmaskUnitFiles => rfl
      | _ => simpa [handle, reloaded, Message.sends] using hnone

theorem answered_work {call : Call} {rest : List Call} {l : String} {masked error : Bool}
    (hc : w.calls = call :: rest) :
    World.work {w with calls := rest, messages := w.messages ++ [.finished call error], fileMasked := masked,
                       properties := {w.properties with loadState := l}} < w.work := by
  have hpos : 2 ≤ call.work := by
    cases call <;> simp [Call.work]
  simp only [work, hc, List.map_cons, List.sum_cons, List.map_append, List.map_nil, List.sum_append, List.sum_nil,
    Message.work]
  omega

theorem delivered_work {rest : List Message} (hm : w.messages = m :: rest) :
    ({w with messages := rest}.handle m).work < w.work := by
  have hbase := handle_base (w := {w with messages := rest}) m
  have hsent := handle_sent (w := {w with messages := rest}) m
  generalize {w with messages := rest}.handle m = u at hbase hsent
  have hmessages : u.messages = rest := (congrArg World.messages hbase :)
  have hcalls : u.calls = w.calls ++ m.sends := congrArg Prod.fst hsent
  have htimer : u.unitStateTimer = m.timer w.serviceName w.unitStateTimer :=
    (congrArg World.unitStateTimer hbase :)
  have hless := m.sends_work w.serviceName w.unitStateTimer
  simp only [work, hmessages, hcalls, htimer, hm, List.map_append, List.sum_append, List.map_cons, List.sum_cons]
  omega

end World

theorem work_step (he : e.arrives = true) (hs : machine.step w e = some t) : t.work < w.work := by
  cases step_moves hs with
  | delivered hm => exact World.delivered_work hm
  | timeout hrun =>
    have hlt : World.work {w with unitStateTimer := false} < w.work := by
      simp [World.work, hrun]
    by_cases hu : w.unit = true
    · obtain ⟨announced, hread⟩ := World.checkUnitState_of_unit (w := {w with unitStateTimer := false}) hu
      rw [hread]
      exact hlt
    · have hu : w.unit = false := by simpa using hu
      rw [World.checkUnitState_of_not (w := {w with unitStateTimer := false}) hu]
      exact hlt
  | refused loadState hc => exact World.answered_work hc
  | answered loadState hc =>
    obtain ⟨l, masked, hserved⟩ := World.served_eq
      (w := {w with calls := _, messages := w.messages ++ [.finished _ false]}) _ loadState
    rw [hserved]
    exact World.answered_work hc
  | asked hn => rw [hn] at he; cases he
  | _ => cases he

end Work

/-- While something is on its way, or the timer runs, something can arrive. -/
theorem exists_arrives {w : World} (h : 0 < w.work) : ∃ e, e.arrives = true ∧ machine.step w e ≠ none := by
  match hc : w.calls, hm : w.messages, ht : w.unitStateTimer with
  | call :: rest, _, _ => exact ⟨.answer true "", rfl, by simp [machine, World.answer, hc]⟩
  | [], m :: rest, _ => exact ⟨.deliver, rfl, by simp [machine, hm]⟩
  | [], [], true => exact ⟨.timeout, rfl, by simp [machine, ht]⟩
  | [], [], false => simp [World.work, hc, hm, ht] at h

theorem World.not_due {w : World} (h : w.work = 0) : ¬w.Due := by
  have hmessages : w.messages = [] := by
    cases hm : w.messages with
    | nil => rfl
    | cons m rest =>
      have hpos : 0 < m.work := by
        cases m with
        | finished call => cases call <;> simp [Message.work, Call.work]
        | _ => simp [Message.work]
      simp only [work, hm, List.map_cons, List.sum_cons] at h
      omega
  have htimer : w.unitStateTimer = false := by
    cases ht : w.unitStateTimer with
    | false => rfl
    | true =>
      simp only [work, ht, Bool.toNat_true] at h
      omega
  simp [Due, hmessages, htimer, timerAfter]

section Rest
variable {es : List Event} {properties : Properties} {loaded : Bool}

/-- The reply to the other call of the click. -/
def lastReply : List Event := [.answer false "", .deliver]

theorem lastReply_ne : machine.visits lastReply clickedOnceEnd ≠ [] := List.ne_nil_of_length_pos (by decide)

/-- Everything has arrived. -/
def settledEnd : World := (machine.visits lastReply clickedOnceEnd).getLast lastReply_ne

end Rest

/-! ### A click on the switch -/

/-- What a switch asks of systemd that shows this state. -/
def switchCalls (serviceName : String) : State → List Call
  | .inactive => [.start "replace", .enableUnitFiles [serviceName] false true]
  | .activating | .active | .deactivating => [.stop "replace", .disableUnitFiles [serviceName] false]

section Click
variable {w : World} {es : List Event} {properties : Properties} {loaded : Bool}

theorem World.Told.clicked (h : w.Told) :
    w.clicked = if w.unit then w.asked (switchCalls w.serviceName w.state) else w := by
  have hshown := h.shown
  cases hu : w.unit with
  | false =>
    cases hs : w.state <;> simp [World.clicked, World.checked, hshown, hs, World.start, World.stop,
      World.setEnabled, hu]
  | true =>
    cases hs : w.state <;> simp [World.clicked, World.checked, hshown, hs, World.start, World.stop,
      World.setEnabled, hu, switchCalls, World.asked, World.send]

end Click

end SystemdService

end CrashReporter.Ui
