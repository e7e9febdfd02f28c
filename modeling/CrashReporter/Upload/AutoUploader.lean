import CrashReporter.Upload.Engine
import CrashReporter.Reactor

/-! `CReporterAutoUploader` and the process around it.

The D-Bus object creates an engine for a batch, queues the files it is sent, and
quits when the batch is over. `uploader` is the whole process as an event
machine: D-Bus calls and deferred deletions wait in the event queue of Qt and are
dispatched in the order they were posted; session, reply and timer signals, the
zero timers of refused requests included, come at any time in between. -/
namespace CrashReporter.Upload

namespace AutoUploader

/-- The checks of `uploadFiles` that end in a refusal. -/
def refused (obeyResourcesRestrictions : Bool) (env : Environment) : Bool :=
  obeyResourcesRestrictions && (!env.canUseNetworkConnection || env.shouldSavePower)

/-- The engine of a new batch. -/
def activate (s : State) : State :=
  if !s.uploader.activated then
    let e := s.nextEngine
    let s := UploadEngine.newEngine s
    let s := s.setUploader {s.uploader with engine := some e, activated := true}
    s.setEngine e {s.engines e with reported := true}
  else s

def uploadFiles (fileList : List Path) (obeyResourcesRestrictions : Bool) (s : State) :
    State × List Call :=
  if fileList.isEmpty then (s.emit (.returned false), [])
  else
    let s := activate s
    if refused obeyResourcesRestrictions s.env then
      ({s with quitTimers := s.quitTimers + 1}.emit (.returned false), [])
    else
      (s, fileList.map (Call.addFile · obeyResourcesRestrictions) ++ [.filesAdded fileList.length])

/-- The body of the loop. -/
def addFile (filename : Path) (obeyResourcesRestrictions : Bool) (s : State) : State × List Call :=
  if !s.uploader.addedFiles.contains filename then
    let (s, calls) := UploadQueue.enqueueNew filename
      (s.emit (.accepted s.nextItem obeyResourcesRestrictions))
    (s, calls ++ [.fileAdded filename])
  else (s, [])

def fileAdded (filename : Path) (s : State) : State :=
  s.setUploader {s.uploader with addedFiles := s.uploader.addedFiles ++ [filename]}

/-- `uploadFiles` after its loop. -/
def filesAdded (files : Nat) (s : State) : State :=
  let s := if s.env.settings.notificationsEnabled then s.emit (.progressNotified files) else s
  s.emit (.returned true)

/-- `qApp->quit()`. -/
def quitApplication (s : State) : State := {s with quitting := true}

/-- `quit` from "Deleting engine." on. -/
def quitTail (s : State) : State :=
  quitApplication <|
    match s.uploader.engine with
    | none => s.emit (.fault .nullEngine)
    | some e =>
      let s := s.setEngine e {s.engines e with reported := false}
      let s := (s.post (.deleteEngine e)).emit (.deleteLater e)
      s.setUploader {s.uploader with engine := none}

def quit (cause : Quitter) (s : State) : State × List Call :=
  let s := s.emit (.quit cause)
  match s.uploader.engine with
  | none => (quitApplication s, [])
  | some e =>
    if s.uploader.activated then
      (s.setUploader {s.uploader with activated := false}, [.cancelAll e, .quitTail])
    else (quitTail s, [])

/-- The notifications of `engineFinished`, and the count it stores. -/
def notifyFinished (sent total : Nat) (s : State) : State :=
  if s.env.settings.notificationsEnabled then
    let s := if total > sent then s.emit (.failureNotified (total - sent)) else s
    if sent > 0 then
      let sent := sent + s.uploadSuccessCount
      {s.emit (.successNotified sent) with uploadSuccessCount := sent}
    else {s with uploadSuccessCount := sent}
  else s

/-- The reason of a failure is asked of the engine. -/
def askReason (error : ErrorType) (s : State) : State :=
  if error ≠ .noError ∧ error ≠ .connectionNotAvailable ∧ s.uploader.engine = none then
    s.emit (.fault .nullEngine)
  else s

def engineFinished (error : ErrorType) (sent total : Nat) (s : State) : State × List Call :=
  let s := notifyFinished sent total (askReason error s)
  quit .batchEnd (s.setUploader {s.uploader with activated := false})

end AutoUploader

/-! ### The process -/

/-- What happens around the process. -/
inductive Event where
  /-- The owner of the queue enqueues a new item. -/
  | enqueue (file : Path)
  /-- The owner of an engine calls `cancelAll`. -/
  | cancelAll (e : EngineId)
  /-- A D-Bus call arrives. -/
  | callUploadFiles (fileList : List Path) (obeyResourcesRestrictions : Bool)
  | callQuit
  /-- The first posted event is dispatched. -/
  | dispatch
  /-- A timer set by a refused request fires. -/
  | quitTimer
  /-- exec() returns, and `~CReporterAutoUploader` runs. -/
  | exit
  | session (e : EngineId) (signal : SessionSignal)
  | replyError (c : ClientId) (errorString : String)
  | replyFinished (c : ClientId) (answer : ServerReply)
  | uploadProgress (c : ClientId) (bytesSent bytesTotal : Int)
  | sslErrors (c : ClientId)
  /-- The connection timer of a client expires. -/
  | timeout (c : ClientId)
  /-- The network, the battery or the settings change. -/
  | environment (env : Environment)
  /-- A file appears, changes, or is lost. -/
  | file (path : Path) (file : Option File)
  | coreLocations (paths : List Path) (logWritable : Bool)
deriving DecidableEq

/-- A call of `quit` that comes from the event loop, or after it. -/
def Event.quits : Event → Bool
  | .quitTimer | .exit => true
  | _ => false

namespace State

/-- The client has not been deleted with its item. -/
def clientAlive (s : State) (c : ClientId) : Bool :=
  c < s.nextClient && (s.items (s.clients c).item).alive

/-- The end of an engine: all its connections and its session go. -/
def deleteEngine (e : EngineId) (s : State) : State :=
  {s with
    engines := Function.update s.engines e
      {s.engines e with state := .noConnection, currentItem := none, networkSession := none}
    items := fun i => {s.items i with listeners := (s.items i).listeners.filter (· ≠ e)}
    queue := {s.queue with engines := s.queue.engines.filter (· ≠ e)}}

end State

def dispatch (s : State) : Option (State × List Call) :=
  match s.posted with
  | [] => none
  | m :: rest =>
    let s := {s with posted := rest}
    match m with
    | .uploadFiles fileList obey => some (AutoUploader.uploadFiles fileList obey s)
    | .quit => some (AutoUploader.quit .client s)
    | .deleteItem i => some (s.setItem i {s.items i with alive := false}, [])
    | .deleteEngine e => some (s.deleteEngine e, [])

/-- A signal of the reply of a client that still lives. -/
def deliverReply (c : ClientId) (s : State) (possible : Bool) (slot : State × List Call) :
    Option (State × List Call) :=
  if s.clientAlive c && possible then some slot else none

def deliver (ev : Event) (s : State) : Option (State × List Call) :=
  match ev with
  | .enqueue file => some (UploadQueue.enqueueNew file s)
  | .cancelAll e => some (UploadEngine.cancelAll e s)
  | .callUploadFiles fileList obey => some (s.post (.uploadFiles fileList obey), [])
  | .callQuit => some (s.post .quit, [])
  | .dispatch => dispatch s
  | .quitTimer =>
    if 0 < s.quitTimers then
      some (AutoUploader.quit .refusal {s with quitTimers := s.quitTimers - 1})
    else none
  | .exit =>
    -- Deferred deletions come before exec() returns; calls that still wait are never dispatched,
    -- as if they had not been made.
    if s.quitting && s.posted.isEmpty then
      let (s, calls) := AutoUploader.quit .destructor s
      some (s, calls ++ [.exited])
    else none
  | .session e signal =>
    if (s.engines e).networkSession.isSome then some (NwSessionMgr.signal e s signal) else none
  | .replyError c errorString =>
    deliverReply c s ((s.clients c).network = .running)
      (HttpClient.handleError c errorString (s.setClient c {s.clients c with network := .failed}))
  | .replyFinished c answer =>
    deliverReply c s ((s.clients c).network = .running || (s.clients c).network = .failed)
      (HttpClient.handleFinished c answer
        ((if (s.clients c).network = .running then s.emit (.succeeded c (s.clients c).item) else s)
          |>.setClient c {s.clients c with network := .finished}))
  | .uploadProgress c bytesSent bytesTotal =>
    deliverReply c s ((s.clients c).network = .running)
      (HttpClient.handleUploadProgress c bytesSent bytesTotal s, [])
  | .sslErrors c =>
    deliverReply c s ((s.clients c).network = .running) (HttpClient.handleSslErrors c s, [])
  | .timeout c => deliverReply c s (s.clients c).connectionTimeout (HttpClient.cancel c s)
  | .environment env => some ({s with env := env}, [])
  | .file path file => some ({s with files := Function.update s.files path file}, [])
  | .coreLocations paths logWritable =>
    some ({s with coreLocations := paths, uploadLogWritable := logWritable}, [])

def exec (call : Call) (s : State) : State × List Call :=
  match call with
  | .uploadItem e i => UploadEngine.uploadItem e i s
  | .uploadFinished e i => UploadEngine.uploadFinished e i s
  | .queueDone e => UploadEngine.queueDone e s
  | .finished e error sent total =>
    if (s.engines e).reported then AutoUploader.engineFinished error sent total s else (s, [])
  | .sessionOpen _ => (s, [])
  | .sessionGone e => (NwSessionMgr.sessionGone e s, [])
  | .aborted c => HttpClient.aborted c s
  | .cancelled c => HttpClient.cancelled c s
  | .itemEnqueued => (UploadQueue.itemEnqueued s, [])
  | .addFile path obey => AutoUploader.addFile path obey s
  | .fileAdded path => (AutoUploader.fileAdded path s, [])
  | .filesAdded files => (AutoUploader.filesAdded files s, [])
  | .cancelAll e => UploadEngine.cancelAll e s
  | .quitTail => (AutoUploader.quitTail s, [])
  | .exited => (s, [.exited])

/-- The outside world moves at any time. While `QNetworkSession::open` runs, its
session may report; while finished() of an engine is being delivered, its owner
may enqueue and cancel; everything else waits until no call is pending. -/
def admits (ev : Event) (stack : List Call) : Bool :=
  match ev, stack with
  | .environment _, _ | .file .., _ | .coreLocations .., _ => true
  | .callUploadFiles .., _ | .callQuit, _ => true
  | _, [] => true
  | .session e _, .sessionOpen e' :: _ => e = e'
  | .enqueue _, .finished .. :: _ | .cancelAll _, .finished .. :: _ => true
  | _, _ => false

/-- The uploader process. -/
def uploader : Reactor State Call Event := ⟨exec, deliver, admits⟩

abbrev Config := Reactor.Config State Call
abbrev Action := Reactor.Action Event

/-- Nothing has been created yet. -/
def blank (env : Environment) (files : Path → Option File) (coreLocations : List Path)
    (uploadLogWritable : Bool) : State where
  files := files
  env := env
  coreLocations := coreLocations
  uploadLogWritable := uploadLogWritable
  uploadSuccessCount := 0
  clients := fun _ =>
    { item := 0, currentFile := "", clientState := .none, reply := false, deleteFileFlag := false,
      connectionTimeout := false, network := .absent, body := [], connected := false }
  nextClient := 0
  items := fun _ =>
    { filepath := "", errorString := none, http := none, status := .waiting, listeners := [],
      alive := false }
  nextItem := 0
  engines := fun _ =>
    { state := .noConnection, currentItem := none, errorMessage := none, error := .noError,
      sentFiles := 0, networkSession := none, reported := false }
  nextEngine := 0
  queue := { uploadQueue := [], notified := false, nbrOfItems := 0, engines := [] }
  uploader := { engine := none, activated := false, addedFiles := [] }
  posted := []
  quitTimers := 0
  quitting := false
  log := []

/-- A report at rest, and a USB cable. -/
def reportAtRest : Config :=
  ⟨blank .usbCable (fun p => if p = "/a.rcore" then some ⟨[1, 2], true, none⟩ else none) ["/cores"] true, []⟩

def sendReport : List Action :=
  [.event (.callUploadFiles ["/a.rcore"] false), .event .dispatch, .run, .run, .run, .run, .run]

def sendingReport : Config := (uploader.run sendReport reportAtRest).get (by decide)

end CrashReporter.Upload
