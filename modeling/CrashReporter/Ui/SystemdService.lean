import CrashReporter.Mirror

/-! The switch of the settings for a systemd service.

`SystemdService` keeps the state of a unit as the properties of systemd had it when they
were last read. It reads them when the proxy of the unit is there, when systemd says that
they have changed, and a little while after a unit has been loaded. `machine` is the event
machine of the object, the unit at systemd, and the calls and messages between them, which
keep their order. What the settings show is what they read when the change of a property
was announced. -/
namespace CrashReporter.Ui

namespace SystemdService

inductive ManagerType where
  | systemManager | userManager
deriving DecidableEq

inductive State where
  | inactive | activating | active | deactivating
deriving DecidableEq

/-- The state for an ActiveState of systemd. -/
def State.ofActiveState (state : String) : State :=
  if state = "active" ∨ state = "reloading" then .active
  else if state = "activating" then .activating
  else if state = "deactivating" then .deactivating
  else .inactive -- "inactive", "failed", default

/-- Method calls to systemd. -/
inductive Call where
  | loadUnit (name : String)
  | start (mode : String)
  | stop (mode : String)
  | enableUnitFiles (files : List String) (runtime force : Bool)
  | disableUnitFiles (files : List String) (runtime : Bool)
  | maskUnitFiles (files : List String) (runtime force : Bool)
  | unmaskUnitFiles (files : List String) (runtime : Bool)
  | reload
deriving DecidableEq

/-- What systemd sends. -/
inductive Message where
  | propertiesChanged (interface : String) (changedProperties invalidatedProperties : List String)
  | unitNew (name : String)
  | unitRemoved (name : String)
  | finished (call : Call) (error : Bool)
deriving DecidableEq

def unitInterface : String := "org.freedesktop.systemd1.Unit"

/-- The properties of the unit at systemd. -/
structure Properties where
  activeState : String
  unitFileState : String
  loadState : String
deriving DecidableEq

structure World where
  serviceName : String
  managerType : ManagerType
  /-- Whether componentComplete() has run, and the proxies are there. -/
  completed : Bool
  manager : Bool
  unit : Bool
  state : State
  /-- The timer runs. -/
  unitStateTimer : Bool
  properties : Properties
  /-- systemd has the unit in memory, its unit file is masked, and its signals are sent here. -/
  loaded : Bool
  fileMasked : Bool
  subscribed : Bool
  /-- On their way to systemd, and from there. -/
  calls : List Call
  messages : List Message
  /-- All calls so far. -/
  log : List Call
  /-- What each stateChanged() has announced. -/
  announced : List State
  /-- What the last enabledChanged() and maskedChanged() have announced. -/
  shownEnabled : Bool
  shownMasked : Bool
deriving DecidableEq

namespace World

def send (call : Call) (w : World) : World := {w with calls := w.calls ++ [call], log := w.log ++ [call]}

def enabled (w : World) : Bool := w.unit && w.properties.unitFileState = "enabled"

def masked (w : World) : Bool := w.unit && w.properties.loadState = "masked"

def enabledChanged (w : World) : World := {w with shownEnabled := w.enabled}

def maskedChanged (w : World) : World := {w with shownMasked := w.masked}

def changeState (state : String) (w : World) : World :=
  let newState := State.ofActiveState state
  if w.state ≠ newState then {w with state := newState, announced := w.announced ++ [newState]} else w

/-- Its Reload() finds the LoadState that the unit has. -/
def initializeDBusInterface (subscribeError : Bool) (w : World) : World :=
  {w with manager := true, subscribed := !subscribeError}.send (.loadUnit w.serviceName)

def componentComplete (subscribeError : Bool) (w : World) : World :=
  let w := {w with completed := true}
  if w.serviceName.isEmpty then w else w.initializeDBusInterface subscribeError

def gotUnitPath (error : Bool) (w : World) : World :=
  if error then w
  else
    let w := {w with unit := true}.changeState w.properties.activeState
    let w := if w.enabled ≠ false then w.enabledChanged else w
    if w.masked ≠ false then w.maskedChanged else w

def propertiesChanged (interface : String) (changedProperties invalidatedProperties : List String)
    (w : World) : World :=
  if interface ≠ unitInterface then w
  else
    let w := if changedProperties.contains "ActiveState" || invalidatedProperties.contains "ActiveState" then
      w.changeState w.properties.activeState else w
    let w := if changedProperties.contains "UnitFileState" || invalidatedProperties.contains "UnitFileState" then
      w.enabledChanged else w
    if changedProperties.contains "LoadState" || invalidatedProperties.contains "LoadState" then
      w.maskedChanged else w

def handleUnitNew (name : String) (w : World) : World :=
  if name = w.serviceName then {w with unitStateTimer := true} else w

def handleUnitRemoved (name : String) (w : World) : World :=
  if name = w.serviceName then {w with unitStateTimer := false} else w

def checkUnitState (w : World) : World := if w.unit then w.changeState w.properties.activeState else w

def reload (w : World) : World := w.send .reload

def maskingChanged (error : Bool) (w : World) : World := if error then w else w.reload

def reloaded (error : Bool) (w : World) : World := if error then w else w.maskedChanged

/-- The slot for a message. -/
def handle : Message → World → World
  | .propertiesChanged interface changed invalidated, w => w.propertiesChanged interface changed invalidated
  | .unitNew name, w => w.handleUnitNew name
  | .unitRemoved name, w => w.handleUnitRemoved name
  | .finished (.loadUnit _) error, w => w.gotUnitPath error
  | .finished (.maskUnitFiles ..) error, w => w.maskingChanged error
  | .finished (.unmaskUnitFiles ..) error, w => w.maskingChanged error
  | .finished .reload error, w => w.reloaded error
  -- stateChanged() and unitFileStateChanged() only log an error.
  | .finished _ _, w => w

def setServiceName (serviceName : String) (w : World) : World :=
  if !w.serviceName.isEmpty then w else {w with serviceName := serviceName}

def setManagerType (managerType : ManagerType) (w : World) : World := {w with managerType := managerType}

def start (w : World) : World :=
  if !w.unit then w
  else if w.state = .active ∨ w.state = .activating then w
  else w.send (.start "replace")

def stop (w : World) : World :=
  if !w.unit then w
  else if w.state = .inactive then w
  else w.send (.stop "replace")

def setEnabled (state : Bool) (w : World) : World :=
  if !w.unit then w
  else if state then w.send (.enableUnitFiles [w.serviceName] false true)
  else w.send (.disableUnitFiles [w.serviceName] false)

def setMasked (state : Bool) (w : World) : World :=
  if w.masked = state then w
  else if !w.unit then w
  else if state then w.send (.maskUnitFiles [w.serviceName] false true)
  else w.send (.unmaskUnitFiles [w.serviceName] false)

/-! ### The switch -/

/-- The state that the settings show. -/
def shown (w : World) : State := (State.inactive :: w.announced).getLast (List.cons_ne_nil _ _)

def checked (w : World) : Bool := match w.shown with
  | .inactive => false
  | .activating | .deactivating | .active => true

/-- onClicked, with the serviceEnabled that crash-reporter.qml sets onAfterStateChange. -/
def clicked (w : World) : World :=
  let newState := !w.checked
  let w := if newState then w.start else w.stop
  w.setEnabled newState

end World

inductive Event where
  | setServiceName (serviceName : String)
  | setManagerType (managerType : ManagerType)
  | componentComplete (subscribeError : Bool)
  | start
  | stop
  | setEnabled (state : Bool)
  | setMasked (state : Bool)
  | clicked
  /-- The next message arrives. -/
  | deliver
  | timeout
  /-- systemd answers the next call; a reload finds the unit with this LoadState. -/
  | answer (error : Bool) (loadState : String)
  /-- The properties become these, and a signal is sent that names some of them. -/
  | change (properties : Properties) (changedProperties invalidatedProperties : List String)
  /-- systemd loads the unit, or drops it from memory. -/
  | load (properties : Properties)
  | unload
  /-- A signal about another unit, or another interface of this one. -/
  | other (m : Message)
deriving DecidableEq

namespace World

/-- Signals come once they have been subscribed to; those of the unit when its proxy is there. -/
def sendManagerSignal (m : Message) (w : World) : World :=
  if w.manager && w.subscribed then {w with messages := w.messages ++ [m]} else w

def sendUnitSignal (m : Message) (w : World) : World :=
  if w.unit && w.subscribed then {w with messages := w.messages ++ [m]} else w

/-- What a call does at systemd. LoadState follows the unit file when the unit files are
loaded again. -/
def served (call : Call) (loadState : String) (w : World) : World := match call with
  | .maskUnitFiles .. => {w with fileMasked := true}
  | .unmaskUnitFiles .. => {w with fileMasked := false}
  | .reload => {w with properties := {w.properties with loadState := loadState}}
  | _ => w

def answer (error : Bool) (loadState : String) (w : World) : Option World := match w.calls with
  | [] => none
  | call :: rest =>
    let w := {w with calls := rest, messages := w.messages ++ [.finished call error]}
    if error then some w
    else if call = .reload ∧ decide (loadState = "masked") ≠ w.fileMasked then none
    else some (w.served call loadState)

/-- systemd names ActiveState when it changes; LoadState does not change here. -/
def change (p : Properties) (changed invalidated : List String) (w : World) : Option World :=
  if !w.loaded then none
  else if p.loadState ≠ w.properties.loadState then none
  else if p.activeState ≠ w.properties.activeState ∧
      !(changed.contains "ActiveState" || invalidated.contains "ActiveState") then none
  else some ({w with properties := p}.sendUnitSignal (.propertiesChanged unitInterface changed invalidated))

def load (p : Properties) (w : World) : Option World :=
  if w.loaded then none
  else if p.loadState ≠ w.properties.loadState then none
  else some ({w with properties := p, loaded := true}.sendManagerSignal (.unitNew w.serviceName))

/-- Only a unit that is inactive, or has failed, is dropped. -/
def unload (w : World) : Option World :=
  if !w.loaded then none
  else if State.ofActiveState w.properties.activeState ≠ .inactive then none
  else some ({w with properties := {w.properties with activeState := "inactive"}, loaded := false}.sendManagerSignal
    (.unitRemoved w.serviceName))

def other (m : Message) (w : World) : Option World := match m with
  | .propertiesChanged interface _ _ => if interface = unitInterface then none else some (w.sendUnitSignal m)
  | .unitNew name | .unitRemoved name => if name = w.serviceName then none else some (w.sendManagerSignal m)
  | .finished .. => none

end World

def machine : Machine World Event where
  step w
    | .setServiceName serviceName => some (w.setServiceName serviceName)
    | .setManagerType managerType => some (w.setManagerType managerType)
    | .componentComplete subscribeError =>
      if w.completed then none else some (w.componentComplete subscribeError)
    | .start => some w.start
    | .stop => some w.stop
    | .setEnabled state => some (w.setEnabled state)
    | .setMasked state => some (w.setMasked state)
    | .clicked => some w.clicked
    | .deliver => match w.messages with
      | [] => none
      | m :: rest => some ({w with messages := rest}.handle m)
    | .timeout => if w.unitStateTimer then some {w with unitStateTimer := false}.checkUnitState else none
    | .answer error loadState => w.answer error loadState
    | .change p changed invalidated => w.change p changed invalidated
    | .load p => w.load p
    | .unload => w.unload
    | .other m => w.other m

/-- A new object; the unit is as systemd has it then. -/
def new (properties : Properties) (loaded : Bool) : World where
  serviceName := ""
  managerType := .userManager
  completed := false
  manager := false
  unit := false
  state := .inactive
  unitStateTimer := false
  properties := properties
  loaded := loaded
  fileMasked := properties.loadState = "masked"
  subscribed := false
  calls := []
  messages := []
  log := []
  announced := []
  shownEnabled := false
  shownMasked := false

/-! ### What an operation leaves alone -/

/-- The calls `cs` are sent, and nothing else happens. -/
def World.asked (cs : List Call) (w : World) : World := {w with calls := w.calls ++ cs, log := w.log ++ cs}

namespace World
variable {w : World}

theorem asked_nil : w.asked [] = w := by
  simp [asked]

theorem asked_asked (cs ds : List Call) : (w.asked cs).asked ds = w.asked (cs ++ ds) := by
  simp [asked]

theorem start_eq : ∃ cs, (w.unit = false → cs = []) ∧ w.start = w.asked cs := by
  unfold start
  split
  · exact ⟨[], fun _ => rfl, asked_nil.symm⟩
  · rename_i hu
    split
    · exact ⟨[], fun _ => rfl, asked_nil.symm⟩
    · exact ⟨_, fun h => absurd h (by simpa using hu), rfl⟩

theorem stop_eq : ∃ cs, (w.unit = false → cs = []) ∧ w.stop = w.asked cs := by
  unfold stop
  split
  · exact ⟨[], fun _ => rfl, asked_nil.symm⟩
  · rename_i hu
    split
    · exact ⟨[], fun _ => rfl, asked_nil.symm⟩
    · exact ⟨_, fun h => absurd h (by simpa using hu), rfl⟩

theorem setEnabled_eq (state : Bool) : ∃ cs, (w.unit = false → cs = []) ∧ w.setEnabled state = w.asked cs := by
  unfold setEnabled
  split
  · exact ⟨[], fun _ => rfl, asked_nil.symm⟩
  · rename_i hu
    split <;> exact ⟨_, fun h => absurd h (by simpa using hu), rfl⟩

theorem setMasked_eq (state : Bool) : ∃ cs, (w.unit = false → cs = []) ∧ w.setMasked state = w.asked cs := by
  unfold setMasked
  split
  · exact ⟨[], fun _ => rfl, asked_nil.symm⟩
  · split
    · exact ⟨[], fun _ => rfl, asked_nil.symm⟩
    · rename_i hu
      split <;> exact ⟨_, fun h => absurd h (by simpa using hu), rfl⟩

theorem clicked_eq : ∃ cs, (w.unit = false → cs = []) ∧ w.clicked = w.asked cs := by
  have hfirst : ∃ cs, (w.unit = false → cs = []) ∧ (if !w.checked then w.start else w.stop) = w.asked cs := by
    split
    · exact start_eq
    · exact stop_eq
  obtain ⟨cs, hc, hcs⟩ := hfirst
  obtain ⟨ds, hd, hds⟩ := setEnabled_eq (w := w.asked cs) (!w.checked)
  refine ⟨cs ++ ds, fun hu => by rw [hc hu, hd hu, List.nil_append], ?_⟩
  rw [← asked_asked, ← hds, ← hcs]
  rfl

/-- A call that is served changes the properties, but not ActiveState. -/
theorem served_eq (call : Call) (loadState : String) : ∃ l masked, w.served call loadState =
    {w with fileMasked := masked, properties := {w.properties with loadState := l}} := by
  cases call <;> exact ⟨_, _, rfl⟩

end World

/-- What is on its way arrives, or the timer expires. -/
def Event.arrives : Event → Bool
  | .deliver | .timeout | .answer .. => true
  | _ => false

/-- What an event can do. -/
inductive Moves (w : World) : Event → World → Prop where
  | asked {e : Event} {cs : List Call} (he : e.arrives = false) (h : w.unit = false → cs = []) :
    Moves w e (w.asked cs)
  | named (name : String) : Moves w (.setServiceName name) (w.setServiceName name)
  | typed (managerType : ManagerType) : Moves w (.setManagerType managerType) (w.setManagerType managerType)
  | completed (error : Bool) (h : w.completed = false) :
    Moves w (.componentComplete error) (w.componentComplete error)
  | delivered {m : Message} {rest : List Message} (h : w.messages = m :: rest) :
    Moves w .deliver ({w with messages := rest}.handle m)
  | timeout (h : w.unitStateTimer = true) : Moves w .timeout {w with unitStateTimer := false}.checkUnitState
  | refused {call : Call} {rest : List Call} (loadState : String) (h : w.calls = call :: rest) :
    Moves w (.answer true loadState) {w with calls := rest, messages := w.messages ++ [.finished call true]}
  | answered {call : Call} {rest : List Call} (loadState : String) (h : w.calls = call :: rest)
    (reload : call = .reload → decide (loadState = "masked") = w.fileMasked) :
    Moves w (.answer false loadState)
      ({w with calls := rest, messages := w.messages ++ [Message.finished call false]}.served call loadState)
  | changed {p : Properties} {changed invalidated : List String} (h : w.loaded = true)
    (loadState : p.loadState = w.properties.loadState) (named : p.activeState ≠ w.properties.activeState →
      (changed.contains "ActiveState" || invalidated.contains "ActiveState") = true) :
    Moves w (.change p changed invalidated)
      ({w with properties := p}.sendUnitSignal (.propertiesChanged unitInterface changed invalidated))
  | loaded {p : Properties} (h : w.loaded = false) (loadState : p.loadState = w.properties.loadState) :
    Moves w (.load p) ({w with properties := p, loaded := true}.sendManagerSignal (.unitNew w.serviceName))
  | unloaded (h : w.loaded = true) (gone : State.ofActiveState w.properties.activeState = .inactive) :
    Moves w .unload ({w with properties := {w.properties with activeState := "inactive"},
                             loaded := false}.sendManagerSignal (.unitRemoved w.serviceName))
  | otherInterface {interface : String} {changed invalidated : List String} (h : interface ≠ unitInterface) :
    Moves w (.other (.propertiesChanged interface changed invalidated))
      (w.sendUnitSignal (.propertiesChanged interface changed invalidated))
  | otherNew {name : String} (h : name ≠ w.serviceName) :
    Moves w (.other (.unitNew name)) (w.sendManagerSignal (.unitNew name))
  | otherRemoved {name : String} (h : name ≠ w.serviceName) :
    Moves w (.other (.unitRemoved name)) (w.sendManagerSignal (.unitRemoved name))

section Step
variable {w t : World} {e : Event}

theorem moves_of_asked {f : World → World} (he : e.arrives = false)
    (hf : ∃ cs, (w.unit = false → cs = []) ∧ f w = w.asked cs)
    (hs : some (f w) = some t) : Moves w e t := by
  obtain ⟨cs, hu, hcs⟩ := hf
  obtain rfl := Option.some.inj hs
  rw [hcs]
  exact .asked he hu

theorem step_moves (hs : machine.step w e = some t) : Moves w e t := by
  cases e with
  | setServiceName name =>
    obtain rfl := Option.some.inj hs
    exact .named name
  | setManagerType managerType =>
    obtain rfl := Option.some.inj hs
    exact .typed managerType
  | componentComplete error =>
    simp only [machine] at hs
    split at hs
    · cases hs
    · rename_i h
      obtain rfl := Option.some.inj hs
      exact .completed error (by simpa using h)
  | start => exact moves_of_asked rfl World.start_eq hs
  | stop => exact moves_of_asked rfl World.stop_eq hs
  | setEnabled state => exact moves_of_asked rfl (World.setEnabled_eq state) hs
  | setMasked state => exact moves_of_asked rfl (World.setMasked_eq state) hs
  | clicked => exact moves_of_asked rfl World.clicked_eq hs
  | deliver =>
    simp only [machine] at hs
    split at hs
    · cases hs
    · rename_i m rest h
      obtain rfl := Option.some.inj hs
      exact .delivered h
  | timeout =>
    simp only [machine] at hs
    split at hs
    · rename_i h
      obtain rfl := Option.some.inj hs
      exact .timeout h
    · cases hs
  | answer error loadState =>
    simp only [machine, World.answer] at hs
    split at hs
    · cases hs
    · rename_i call rest h
      cases error with
      | true =>
        obtain rfl := Option.some.inj hs
        exact .refused loadState h
      | false =>
        simp only [Bool.false_eq_true, if_false] at hs
        split at hs
        · cases hs
        · rename_i hmasked
          obtain rfl := Option.some.inj hs
          exact .answered loadState h fun hr => by_contra fun hne => hmasked ⟨hr, hne⟩
  | change p changed invalidated =>
    simp only [machine, World.change, Bool.not_eq_true'] at hs
    split at hs
    · cases hs
    · rename_i hl
      split at hs
      · cases hs
      · rename_i hload
        split at hs
        · cases hs
        · rename_i hnamed
          obtain rfl := Option.some.inj hs
          refine .changed (by simpa using hl) (by simpa using hload) fun hne => ?_
          by_contra hn
          exact hnamed ⟨hne, by simpa using hn⟩
  | load p =>
    simp only [machine, World.load] at hs
    split at hs
    · cases hs
    · rename_i hl
      split at hs
      · cases hs
      · rename_i hload
        obtain rfl := Option.some.inj hs
        exact .loaded (by simpa using hl) (by simpa using hload)
  | unload =>
    simp only [machine, World.unload, Bool.not_eq_true'] at hs
    split at hs
    · cases hs
    · rename_i hl
      split at hs
      · cases hs
      · rename_i hgone
        obtain rfl := Option.some.inj hs
        exact .unloaded (by simpa using hl) (by simpa using hgone)
  | other m =>
    cases m with
    | propertiesChanged interface changed invalidated =>
      simp only [machine, World.other] at hs
      split at hs
      · cases hs
      · rename_i h
        obtain rfl := Option.some.inj hs
        exact .otherInterface h
    | unitNew name =>
      simp only [machine, World.other] at hs
      split at hs
      · cases hs
      · rename_i h
        obtain rfl := Option.some.inj hs
        exact .otherNew h
    | unitRemoved name =>
      simp only [machine, World.other] at hs
      split at hs
      · cases hs
      · rename_i h
        obtain rfl := Option.some.inj hs
        exact .otherRemoved h
    | finished call error => cases hs

end Step

end SystemdService

end CrashReporter.Ui
