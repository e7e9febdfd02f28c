import CrashReporter.Upload.State

/-! `CReporterHttpClient` and `CReporterUploadItem`.

An item uploads its file through a client of its own; the client reports back
through finished() and uploadError(), and the item through uploadFinished(). A
function returns the new state and the slots that its signals enter next. -/
namespace CrashReporter.Upload

/-- What the server answered: whether the reply opens for reading, and the
`submission_id` of its body when that is a JSON object. -/
structure ServerReply where
  opens : Bool
  submissionId : Option Int
deriving DecidableEq

/-- The slots that `uploadFinished()` of an item enters. -/
def uploadFinishedCalls (i : ItemId) (s : State) : List Call :=
  (s.items i).listeners.map (Call.uploadFinished · i)

/-! ### Slots of the item -/

namespace UploadItem

def setStatus (i : ItemId) (status : ItemStatus) (s : State) : State :=
  s.setItem i {s.items i with status := status}

/-- Disconnects the item's client. -/
def disconnectHttp (i : ItemId) (s : State) : State :=
  match (s.items i).http with
  | none => s
  | some c => s.setClient c {s.clients c with connected := false}

def uploadError (i : ItemId) (errorString : String) (s : State) : State × List Call :=
  let s := disconnectHttp i s
  let s := s.setItem i {s.items i with errorString := some errorString}
  let s := if (s.items i).status ≠ .cancelled then setStatus i .error s else s
  (s, uploadFinishedCalls i s)

def emitUploadFinished (i : ItemId) (s : State) : State × List Call :=
  let s := setStatus i .finished s
  (s, uploadFinishedCalls i s)

end UploadItem

/-! ### The client -/

namespace HttpClient

/-- Qt's message for an aborted reply. -/
def abortMessage : String := "Operation canceled"

def init (c : ClientId) (deleteAfterSending : Bool) (s : State) : State :=
  s.setClient c {s.clients c with deleteFileFlag := deleteAfterSending, clientState := .init}

/-- `createPutRequest`: what can be read of the file, when it exists and opens. -/
def createPutRequest (path : Path) (s : State) : Option Content :=
  match s.files path with
  | none => none
  | some file => if file.readable then some file.readAll else none

def createRequest (c : ClientId) (file : Path) (s : State) : State × Bool :=
  if (s.clients c).clientState ≠ .init then (s, false)
  else
    let s := s.setClient c {s.clients c with currentFile := file}
    match createPutRequest file s with
    | none => (s, false)
    | some dataToSend =>
      let s := s.setClient c {s.clients c with
        reply := true
        network := .running
        body := dataToSend
        connectionTimeout := true
        clientState := .connecting}
      (s.emit (.put c (s.clients c).item file dataToSend), true)

/-- Emits finished(). -/
def finished (c : ClientId) (s : State) : State × List Call :=
  let s := s.emit (.clientFinished c)
  if (s.clients c).connected then UploadItem.emitUploadFinished (s.clients c).item s else (s, [])

/-- Emits uploadError(). -/
def uploadError (c : ClientId) (errorString : String) (s : State) : State × List Call :=
  let s := s.emit (.clientError c errorString)
  if (s.clients c).connected then UploadItem.uploadError (s.clients c).item errorString s
  else (s, [])

def handleError (c : ClientId) (errorString : String) (s : State) : State × List Call :=
  if (s.clients c).reply && (s.clients c).network = .failed then
    uploadError c errorString (s.setClient c {s.clients c with reply := false})
  else (s, [])

def parseReply (c : ClientId) (answer : ServerReply) (s : State) : State :=
  if !(s.clients c).reply then s
  else if !answer.opens then s
  else match answer.submissionId with
    | none => s
    | some submissionId =>
      if submissionId = 0 then s
      else match s.coreLocations with
        | [] => s.emit (.fault .emptyCoreLocations)
        | corePath :: _ =>
          if s.uploadLogWritable then
            s.emit (.uploadLog (corePath ++ "/uploadlog") (s.clients c).currentFile submissionId)
          else s

/-- `CReporterUtils::removeFile`. A file that is there can be removed. -/
def removeFile (path : Path) (s : State) : State :=
  match s.files path with
  | none => s
  | some _ => {s with files := Function.update s.files path none}.emit (.removed path)

def handleFinished (c : ClientId) (answer : ServerReply) (s : State) : State × List Call :=
  let s := s.setClient c {s.clients c with connectionTimeout := false}
  let s :=
    if (s.clients c).reply then
      -- Upload was successful.
      let s := parseReply c answer s
      if (s.clients c).deleteFileFlag then removeFile (s.clients c).currentFile s else s
    else s
  finished c (s.setClient c {s.clients c with reply := false, clientState := .init})

/-- A reply that is not there has nothing to read. -/
def noAnswer : ServerReply := ⟨false, none⟩

/-- abort() emits error() and finished() before it returns: the slots of error()
are entered at once, the rest follows. -/
def cancel (c : ClientId) (s : State) : State × List Call :=
  let s := s.setClient c {s.clients c with clientState := .aborting}
  if (s.clients c).reply then
    let (s, calls) := handleError c abortMessage (s.setClient c {s.clients c with network := .failed})
    (s, calls ++ [.aborted c, .cancelled c])
  else handleFinished c noAnswer s

/-- finished() of an aborted reply. -/
def aborted (c : ClientId) (s : State) : State × List Call :=
  handleFinished c noAnswer (s.setClient c {s.clients c with network := .finished})

/-- The rest of `cancel` after abort(). -/
def cancelled (c : ClientId) (s : State) : State × List Call :=
  handleFinished c noAnswer (s.setClient c {s.clients c with reply := false})

def handleUploadProgress (c : ClientId) (bytesSent bytesTotal : Int) (s : State) : State :=
  let s := s.setClient c {s.clients c with connectionTimeout := false}
  if !(s.clients c).reply then s
  else
    let s := if (s.clients c).clientState ≠ .sending then
        s.setClient c {s.clients c with clientState := .sending}
      else s
    if bytesTotal ≠ 0 then s.emit (.updateProgress c ((bytesSent * 100).tdiv bytesTotal)) else s

def handleSslErrors (c : ClientId) (s : State) : State :=
  if (s.clients c).reply then s else s.emit (.fault .nullReply)

end HttpClient

/-! ### The item -/

namespace UploadItem

/-- `new CReporterHttpClient(this)` with its signals connected. -/
def newHttp (i : ItemId) (s : State) : State :=
  {s with
    clients := Function.update s.clients s.nextClient
      { item := i, currentFile := "", clientState := .none, reply := false, deleteFileFlag := false,
        connectionTimeout := false, network := .absent, body := [], connected := true }
    nextClient := s.nextClient + 1
    items := Function.update s.items i {s.items i with http := some s.nextClient}}

def startUpload (i : ItemId) (s : State) : State × Bool :=
  let c := s.nextClient
  let s := (newHttp i s).emit (.startUpload i)
  match HttpClient.createRequest c (s.items i).filepath (HttpClient.init c true s) with
  | (s, true) => (setStatus i .sending s, true)
  | (s, false) => (setStatus i .error s, false)

def cancel (i : ItemId) (s : State) : State × List Call :=
  let previousStatus := (s.items i).status
  let s := setStatus i .cancelled s
  let (s, calls) := match (s.items i).http with
    | none => (s, [])
    | some c => HttpClient.cancel c s
  if previousStatus = .waiting then (s, calls ++ uploadFinishedCalls i s) else (s, calls)

end UploadItem

end CrashReporter.Upload
