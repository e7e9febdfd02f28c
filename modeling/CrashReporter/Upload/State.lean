import CrashReporter.Upload.World
import Mathlib.Logic.Function.Basic
import Mathlib.Tactic.Simps.Basic

/-! The objects of the uploader process.

HTTP clients, upload items, engines with their session managers, the queue and
the D-Bus object `CReporterAutoUploader`, each as the record of its members. An
object is named by the number it was created with. What Qt holds for an object is
kept beside it: the state of the network reply, of the session, of the timer, and
which signals are still connected. `State.log` lists what was done, latest first. -/
namespace CrashReporter.Upload

abbrev Path := String
abbrev Content := List UInt8
abbrev ClientId := Nat
abbrev ItemId := Nat
abbrev EngineId := Nat

/-- A file as `createPutRequest` finds it. -/
structure File where
  content : Content
  /-- It opens. -/
  readable : Bool
  /-- How many bytes a read yields that fails, or would be too large for a byte array. -/
  shortRead : Option Nat
deriving DecidableEq

/-- `QFile::readAll`, which does not tell a part from the whole. -/
def File.readAll (file : File) : Content :=
  match file.shortRead with
  | none => file.content
  | some n => file.content.take n

/-- `CReporterHttpClient::State`. -/
inductive ClientState where
  | none | init | connecting | sending | aborting
deriving DecidableEq

/-- A `QNetworkReply` as Qt drives it: a failed reply has emitted error() and not
yet finished(). -/
inductive Reply where
  | absent | running | failed | finished
deriving DecidableEq

/-- `CReporterHttpClientPrivate`, its reply, and its connections to the item. -/
structure Client where
  /-- The parent. -/
  item : ItemId
  currentFile : Path
  clientState : ClientState
  /-- `m_reply` is not null. -/
  reply : Bool
  deleteFileFlag : Bool
  /-- `m_connectionTimeout` is active. -/
  connectionTimeout : Bool
  network : Reply
  /-- What the PUT carries. -/
  body : Content
  /-- finished() and uploadError() reach the item. -/
  connected : Bool
deriving DecidableEq

/-- `CReporterUploadItem::ItemStatus`. -/
inductive ItemStatus where
  | waiting | sending | error | finished | cancelled
deriving DecidableEq

structure Item where
  filepath : Path
  /-- A null string is `none`. -/
  errorString : Option String
  http : Option ClientId
  status : ItemStatus
  /-- The engines whose uploadFinished() slot is connected, in order. -/
  listeners : List EngineId
  /-- Not deleted yet. -/
  alive : Bool
deriving DecidableEq

/-- `CReporterUploadEngine::ErrorType`. -/
inductive ErrorType where
  | noError | protocolError | connectionNotAvailable | connectionClosed
deriving DecidableEq

/-- `CReporterUploadEnginePrivate::State`. -/
inductive EngineState where
  | noConnection | connecting | connected | closing | aborting
deriving DecidableEq

/-- A `QNetworkSession`: requested since open() until it reports opened(), error()
or its disconnection. -/
structure Session where
  isOpen : Bool
  requested : Bool
deriving DecidableEq

structure Engine where
  state : EngineState
  currentItem : Option ItemId
  errorMessage : Option String
  error : ErrorType
  sentFiles : Nat
  networkSession : Option Session
  /-- finished() reaches `CReporterAutoUploader::engineFinished`. -/
  reported : Bool
deriving DecidableEq

structure Queue where
  uploadQueue : List ItemId
  notified : Bool
  nbrOfItems : Nat
  /-- The engines whose uploadItem() and queueDone() slots are connected, in order. -/
  engines : List EngineId
deriving DecidableEq

structure Uploader where
  engine : Option EngineId
  activated : Bool
  addedFiles : List Path
deriving DecidableEq

/-- Who called `CReporterAutoUploader::quit`: a D-Bus client, the timer set by a
refused request, engineFinished(), or the destructor. -/
inductive Quitter where
  | client | refusal | batchEnd | destructor
deriving DecidableEq

/-- An event posted to the event loop, dispatched in order. -/
inductive Posted where
  | uploadFiles (fileList : List Path) (obeyResourcesRestrictions : Bool)
  | quit
  | deleteItem (i : ItemId)
  | deleteEngine (e : EngineId)
deriving DecidableEq

/-- Steps outside the language: a call through a null engine pointer, the first
element of an empty list, a dequeue from an empty queue, a deleted item. -/
inductive Fault where
  | nullEngine | emptyCoreLocations | emptyQueue | deletedItem | nullReply
deriving DecidableEq

/-- What the process is seen to do. -/
inductive Output where
  | accepted (i : ItemId) (obeyResourcesRestrictions : Bool)
  | enqueued (i : ItemId)
  | nextItem (i : ItemId)
  | startUpload (i : ItemId)
  | put (c : ClientId) (i : ItemId) (path : Path) (body : Content)
  | updateProgress (c : ClientId) (done : Int)
  | succeeded (c : ClientId) (i : ItemId)
  | uploadLog (file : Path) (path : Path) (submissionId : Int)
  | removed (path : Path)
  | clientError (c : ClientId) (message : String)
  | clientFinished (c : ClientId)
  | itemDone (i : ItemId)
  | dropped (items : List ItemId)
  | queueDone
  | finished (e : EngineId) (error : ErrorType) (sent total : Nat)
  | progressNotified (files : Nat)
  | failureNotified (failures : Nat)
  | successNotified (sent : Nat)
  | quit (cause : Quitter)
  | deleteLater (e : EngineId)
  | returned (accepted : Bool)
  | fault (f : Fault)
deriving DecidableEq

/-- A call that has not run yet: a slot that a signal is going to enter, or the
rest of a function whose signal is being delivered. -/
inductive Call where
  /-- nextItem() of the queue, to an engine. -/
  | uploadItem (e : EngineId) (i : ItemId)
  /-- uploadFinished() of an item, to an engine. -/
  | uploadFinished (e : EngineId) (i : ItemId)
  /-- done() of the queue, to an engine. -/
  | queueDone (e : EngineId)
  /-- finished() of an engine, to its owner. -/
  | finished (e : EngineId) (error : ErrorType) (sent total : Nat)
  /-- `QNetworkSession::open` has not returned. -/
  | sessionOpen (e : EngineId)
  /-- networkStateChanged(Disconnected), after sessionDisconnected(). -/
  | sessionGone (e : EngineId)
  /-- abort(), after error(). -/
  | aborted (c : ClientId)
  /-- `CReporterHttpClientPrivate::cancel`, after abort(). -/
  | cancelled (c : ClientId)
  /-- enqueue(), after emitNextItem(). -/
  | itemEnqueued
  /-- One turn of the loop of uploadFiles(). -/
  | addFile (path : Path) (obeyResourcesRestrictions : Bool)
  | fileAdded (path : Path)
  /-- uploadFiles(), after its loop. -/
  | filesAdded (files : Nat)
  /-- Called by quit(), which goes on with `quitTail`. -/
  | cancelAll (e : EngineId)
  | quitTail
  /-- The object is destroyed, and the process has no event loop any more. -/
  | exited
deriving DecidableEq

structure State where
  files : Path → Option File
  env : Environment
  /-- `CReporterCoreRegistry::getCoreLocationPaths`. -/
  coreLocations : List Path
  uploadLogWritable : Bool
  uploadSuccessCount : Nat
  clients : ClientId → Client
  nextClient : ClientId
  items : ItemId → Item
  nextItem : ItemId
  engines : EngineId → Engine
  nextEngine : EngineId
  queue : Queue
  uploader : Uploader
  posted : List Posted
  /-- The single-shot timers set to call quit(). -/
  quitTimers : Nat
  /-- qApp->quit() was called. -/
  quitting : Bool
  log : List Output

namespace State

@[simps]
def setClient (s : State) (c : ClientId) (v : Client) : State :=
  {s with clients := Function.update s.clients c v}

@[simps]
def setItem (s : State) (i : ItemId) (v : Item) : State :=
  {s with items := Function.update s.items i v}

@[simps]
def setEngine (s : State) (e : EngineId) (v : Engine) : State :=
  {s with engines := Function.update s.engines e v}

@[simps]
def setQueue (s : State) (v : Queue) : State := {s with queue := v}

@[simps]
def setUploader (s : State) (v : Uploader) : State := {s with uploader := v}

@[simps]
def post (s : State) (m : Posted) : State := {s with posted := s.posted ++ [m]}

@[simps]
def emit (s : State) (o : Output) : State := {s with log := o :: s.log}

end State

end CrashReporter.Upload
