import CrashReporter.Upload.HttpClient

/-! `CReporterUploadQueue`, `CReporterNwSessionMgr` and `CReporterUploadEngine`.

The queue hands its items out one by one through nextItem() and says done() when
the last one is finished; an engine opens a network session for the item it gets
and starts the upload. Several engines may be connected to one queue: a signal
enters the slots of each, in the order they were connected. -/
namespace CrashReporter.Upload

/-! ### The queue -/

namespace UploadQueue

def emitNextItem (s : State) : State × List Call :=
  match s.queue.uploadQueue with
  | [] => (s.emit (.fault .emptyQueue), [])
  | item :: rest =>
    let s := (s.setQueue {s.queue with uploadQueue := rest}).emit (.nextItem item)
    (s, s.queue.engines.map (Call.uploadItem · item))

def enqueue (item : ItemId) (s : State) : State × List Call :=
  let s := (s.setQueue {s.queue with uploadQueue := s.queue.uploadQueue ++ [item]}).emit (.enqueued item)
  if !s.queue.notified then
    let (s, calls) := emitNextItem (s.setQueue {s.queue with nbrOfItems := 0, notified := true})
    (s, calls ++ [.itemEnqueued])
  else (s, [.itemEnqueued])

/-- The rest of `enqueue`. -/
def itemEnqueued (s : State) : State :=
  s.setQueue {s.queue with nbrOfItems := s.queue.nbrOfItems + 1}

/-- The slot of done() of an item. -/
def itemFinished (item : ItemId) (s : State) : State × List Call :=
  let s := s.post (.deleteItem item)
  if s.queue.uploadQueue.isEmpty then
    let s := (s.setQueue {s.queue with notified := false}).emit .queueDone
    (s, s.queue.engines.map Call.queueDone)
  else emitNextItem s

def totalNumberOfItems (s : State) : Nat := s.queue.nbrOfItems

/-- Deletes the items that have not been handed out. -/
def clear (s : State) : State :=
  if s.queue.uploadQueue.length ≠ 0 then
    let items := s.queue.uploadQueue
    let s := s.setQueue {s.queue with uploadQueue := []}
    {s with items := fun i => if i ∈ items then {s.items i with alive := false} else s.items i}.emit
      (.dropped items)
  else s

/-- `new CReporterUploadItem(file)`. -/
def newItem (file : Path) (s : State) : State :=
  {s with
    items := Function.update s.items s.nextItem
      { filepath := file, errorString := none, http := none, status := .waiting, listeners := [],
        alive := true }
    nextItem := s.nextItem + 1}

/-- `enqueue(new CReporterUploadItem(file))`. -/
def enqueueNew (file : Path) (s : State) : State × List Call :=
  enqueue s.nextItem (newItem file s)

end UploadQueue

/-- `CReporterUploadItem::markDone`. -/
def UploadItem.markDone (i : ItemId) (s : State) : State × List Call :=
  UploadQueue.itemFinished i (s.emit (.itemDone i))

/-! ### The network session of an engine -/

namespace NwSessionMgr

def setSession (e : EngineId) (session : Option Session) (s : State) : State :=
  s.setEngine e {s.engines e with networkSession := session}

/-- `open`: true when there is a connection already; otherwise a session has been
requested, and may report while `QNetworkSession::open` runs. -/
def openSession (e : EngineId) (s : State) : State × Bool × List Call :=
  match (s.engines e).networkSession with
  | none =>
    if !s.env.connectionIsActive && s.env.developerModeIsActive then (s, true, [])
    else (setSession e (some ⟨false, true⟩) s, false, [.sessionOpen e])
  | some session =>
    if session.isOpen then (s, true, [])
    else (setSession e (some {session with requested := true}) s, false, [.sessionOpen e])

def close (e : EngineId) (s : State) : State :=
  match (s.engines e).networkSession with
  | none => s
  | some session => setSession e (some {session with isOpen := false}) s

end NwSessionMgr

/-! ### The engine -/

namespace UploadEngine

def stateChange (e : EngineId) (nextState : EngineState) (s : State) : State :=
  s.setEngine e {s.engines e with state := nextState}

def setErrorString (e : EngineId) (message : Option String) (s : State) : State :=
  if (s.engines e).errorMessage.isNone then s.setEngine e {s.engines e with errorMessage := message}
  else s

def setErrorType (e : EngineId) (type : ErrorType) (s : State) : State :=
  if (s.engines e).error = .noError then s.setEngine e {s.engines e with error := type} else s

/-- `new CReporterUploadEngine(queue)`. -/
def newEngine (s : State) : State :=
  {s with
    engines := Function.update s.engines s.nextEngine
      { state := .noConnection, currentItem := none, errorMessage := none, error := .noError,
        sentFiles := 0, networkSession := none, reported := false }
    nextEngine := s.nextEngine + 1
    queue := {s.queue with engines := s.queue.engines ++ [s.nextEngine]}}

def uploadItem (e : EngineId) (item : ItemId) (s : State) : State × List Call :=
  let s := s.setItem item {s.items item with listeners := (s.items item).listeners ++ [e]}
  let s := s.setEngine e {s.engines e with currentItem := some item}
  let s := stateChange e .connecting s
  match NwSessionMgr.openSession e s with
  | (s, false, calls) => (s, calls)
  | (s, true, _) => ((UploadItem.startUpload item (stateChange e .connected s)).1, [])

def emitFinished (e : EngineId) (error : ErrorType) (sent total : Nat) (s : State) :
    State × List Call :=
  let s := s.setEngine e {s.engines e with sentFiles := 0}
  (s.emit (.finished e error sent total), [.finished e error sent total])

def queueDone (e : EngineId) (s : State) : State × List Call :=
  let s :=
    if (s.engines e).state ≠ .noConnection then NwSessionMgr.close e (stateChange e .closing s) else s
  emitFinished e (s.engines e).error (s.engines e).sentFiles (UploadQueue.totalNumberOfItems s) s

def uploadFinished (e : EngineId) (item : ItemId) (s : State) : State × List Call :=
  let status := (s.items item).status
  let s :=
    if status = .error ∧ (s.engines e).state ≠ .noConnection then
      -- Go on with the other files.
      setErrorString e (s.items item).errorString (setErrorType e .protocolError s)
    else if status = .error ∨ status = .cancelled then
      let s := setErrorString e (s.items item).errorString (setErrorType e .protocolError s)
      let s := if (s.engines e).state ≠ .noConnection then stateChange e .aborting s else s
      UploadQueue.clear s
    else s.setEngine e {s.engines e with sentFiles := (s.engines e).sentFiles + 1}
  UploadItem.markDone item s

/-- `currentItem->cancel()`. -/
def cancelCurrent (e : EngineId) (s : State) : State × List Call :=
  match (s.engines e).currentItem with
  | none => (s, [])
  | some item =>
    if (s.items item).alive then UploadItem.cancel item s else (s.emit (.fault .deletedItem), [])

def sessionOpened (e : EngineId) (s : State) : State :=
  if (s.engines e).state = .connecting then
    match (s.engines e).currentItem with
    | none => s
    | some item =>
      let s := stateChange e .connected s
      if (s.items item).alive then (UploadItem.startUpload item s).1
      else s.emit (.fault .deletedItem)
  else s

def sessionDisconnected (e : EngineId) (s : State) : State × List Call :=
  let oldState := (s.engines e).state
  let s := stateChange e .noConnection s
  match oldState with
  | .connecting => cancelCurrent e (setErrorType e .connectionNotAvailable s)
  | .connected => cancelCurrent e (setErrorType e .connectionClosed s)
  | _ => (s, [])

def connectionError (e : EngineId) (errorString : String) (s : State) : State × List Call :=
  sessionDisconnected e (setErrorString e (some errorString) s)

def cancelAll (e : EngineId) (s : State) : State × List Call := cancelCurrent e s

end UploadEngine

/-! ### Signals of the session -/

/-- What a `QNetworkSession` reports. -/
inductive SessionSignal where
  | opened
  /-- An error, after which the session may still be open. -/
  | error (errorString : String) (isOpen : Bool)
  | disconnected
deriving DecidableEq

namespace NwSessionMgr

/-- A signal of the engine's session, through the manager's slots. -/
def signal (e : EngineId) (s : State) : SessionSignal → State × List Call
  | .opened => (UploadEngine.sessionOpened e (setSession e (some ⟨true, false⟩) s), [])
  | .error errorString isOpen =>
    UploadEngine.connectionError e errorString (setSession e (some ⟨isOpen, false⟩) s)
  | .disconnected =>
    let (s, calls) := UploadEngine.sessionDisconnected e (setSession e (some ⟨false, false⟩) s)
    (s, calls ++ [.sessionGone e])

/-- The rest of networkStateChanged(Disconnected). -/
def sessionGone (e : EngineId) (s : State) : State := setSession e none s

end NwSessionMgr

end CrashReporter.Upload
