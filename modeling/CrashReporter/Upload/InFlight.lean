import CrashReporter.Upload.Frame

/-! What the clients that hold a reply are doing.

`handleFinished` takes a reply that is still there for a success. `Uploads` is the
invariant behind that: a client that holds a reply is still sending, and every
function that ends an upload without success forgets the reply first. It holds in
every run of the process. -/
namespace CrashReporter.Upload
open Reactor

variable {s : State}

/-- What a client that holds a reply is doing. -/
structure Uploads (s : State) : Prop where
  owned : s.Owned
  running : ∀ c, (s.clients c).reply = true → (s.clients c).network = .running
  sent : ∀ c, (s.clients c).reply = true →
    .put c (s.clients c).item (s.clients c).currentFile (s.clients c).body ∈ s.log

/-- Reading the item's file yields all of it. -/
def State.ReadsWhole (s : State) (i : ItemId) : Prop :=
  ∀ file, s.files (s.items i).filepath = some file → file.readable = true → file.readAll = file.content

/-- What is being sent is what the file contains. -/
def Faithful (s : State) : Prop := ∀ c, (s.clients c).reply = true →
  ∀ file, s.files (s.clients c).currentFile = some file → file.content = (s.clients c).body

/-- Nothing is sent. -/
def Output.unsent : Output → Bool
  | .put .. => false
  | _ => true

/-- No upload changes between two states, and no file does. -/
structure Aside (s s' : State) : Prop where
  files : s'.files = s.files
  clients : s'.clients = s.clients
  nextClient : s'.nextClient = s.nextClient
  http : ∀ i, (s'.items i).http = (s.items i).http ∨ (s'.items i).http = none
  log : ∃ new, s'.log = new ++ s.log ∧ ∀ o ∈ new, o.unsent = true

theorem Aside.refl (s : State) : Aside s s := ⟨rfl, rfl, rfl, fun _ => .inl rfl, [], rfl, by simp⟩

theorem Aside.trans {s t u : State} (h : Aside s t) (h' : Aside t u) : Aside s u where
  files := h'.files.trans h.files
  clients := h'.clients.trans h.clients
  nextClient := h'.nextClient.trans h.nextClient
  http i := (h'.http i).elim (fun e => (h.http i).imp (e.trans ·) (e.trans ·)) .inr
  log := by
    obtain ⟨new, hl, hn⟩ := h.log
    obtain ⟨new', hl', hn'⟩ := h'.log
    refine ⟨new' ++ new, by rw [hl', hl, List.append_assoc], fun o ho => ?_⟩
    exact (List.mem_append.mp ho).elim (hn' o) (hn o)

/-- One more output. -/
theorem Aside.log_cons {s' : State} {o : Output} (ho : o.unsent = true) (h : s'.log = o :: s.log) :
    ∃ new, s'.log = new ++ s.log ∧ ∀ o ∈ new, o.unsent = true := ⟨[o], h, by simpa using ho⟩

theorem Aside.idle {s s' : State} (h : Aside s s') {c : ClientId} (hc : s.Idle c) : s'.Idle c := by
  rw [State.Idle, h.nextClient, h.clients]
  exact hc

theorem Aside.emit {o : Output} (ho : o.unsent = true) : Aside s (s.emit o) :=
  {Aside.refl s with log := log_cons ho rfl}

theorem Aside.newItem (file : Path) : Aside s (UploadQueue.newItem file s) where
  __ := Aside.refl s
  http i := by
    rcases eq_or_ne i s.nextItem with rfl | hi
    · exact .inr (by simp [UploadQueue.newItem])
    · exact .inl (by simp [UploadQueue.newItem, hi])

theorem Aside.emitNextItem : Aside s (UploadQueue.emitNextItem s).1 := by
  unfold UploadQueue.emitNextItem
  split
  · exact .emit rfl
  · exact {Aside.refl s with log := log_cons rfl rfl}

theorem Aside.enqueueNew (file : Path) : Aside s (UploadQueue.enqueueNew file s).1 := by
  refine (Aside.newItem file).trans ?_
  unfold UploadQueue.enqueueNew UploadQueue.enqueue
  dsimp only
  split
  · refine .trans ?_ Aside.emitNextItem
    exact {Aside.refl _ with log := log_cons rfl rfl}
  · exact {Aside.refl _ with log := log_cons rfl rfl}

namespace Uploads

theorem frame {s s' : State} (h : Uploads s) (hf : Frame s s') : Uploads s' where
  owned := hf.owned h.owned
  running c hc := by
    obtain ⟨hr, hn, -⟩ := (hf.clients c).upload hc
    rw [hn]
    exact h.running c hr
  sent c hc := by
    obtain ⟨hr, -, hp, hb⟩ := (hf.clients c).upload hc
    obtain ⟨new, hl, -⟩ := hf.log
    rw [hl, hp, hb, (hf.clients c).item]
    exact List.mem_append_right _ (h.sent c hr)

theorem aside {s s' : State} (h : Uploads s) (ha : Aside s s') : Uploads s' where
  owned i c hc := by
    rw [ha.nextClient, ha.clients]
    rcases ha.http i with hi | hi
    · exact h.owned i c (hi ▸ hc)
    · simp [hi] at hc
  running := by
    rw [ha.clients]
    exact h.running
  sent c hc := by
    rw [ha.clients] at hc ⊢
    obtain ⟨new, hl, -⟩ := ha.log
    rw [hl]
    exact List.mem_append_right _ (h.sent c hc)

theorem removeFile (h : Uploads s) (path : Path) : Uploads (HttpClient.removeFile path s) := by
  have hset : Uploads {s with files := Function.update s.files path none} :=
    ⟨h.owned, h.running, h.sent⟩
  unfold HttpClient.removeFile
  split
  · exact h
  · exact hset.aside (.emit rfl)

theorem startUpload (h : Uploads s) (i : ItemId) : Uploads (UploadItem.startUpload i s).1 := by
  have howned (status : ItemStatus) (v : Client) (hv : v.item = i) : ∀ j c, (Function.update s.items i
      {s.items i with http := some s.nextClient, status := status} j).http = some c →
      c < s.nextClient + 1 ∧ (Function.update s.clients s.nextClient v c).item = j := by
    intro j c hc
    rcases eq_or_ne j i with rfl | hj
    · simp only [Function.update_self, Option.some.injEq] at hc
      subst hc
      exact ⟨Nat.lt_succ_self _, by simpa using hv⟩
    · rw [Function.update_of_ne hj] at hc
      obtain ⟨hlt, hi⟩ := h.owned j c hc
      exact ⟨Nat.lt_succ_of_lt hlt, by simpa [Nat.ne_of_lt hlt] using hi⟩
  cases hb : HttpClient.createPutRequest (s.items i).filepath s with
  | none =>
    rw [UploadItem.startUpload_failed i hb]
    refine ⟨howned .error _ rfl, fun c hc => ?_, fun c hc => ?_⟩ <;> dsimp only at hc ⊢ <;>
      rcases eq_or_ne c s.nextClient with rfl | hne
    · simp at hc
    · simp only [Function.update_of_ne hne] at hc ⊢
      exact h.running c hc
    · simp at hc
    · simp only [Function.update_of_ne hne] at hc ⊢
      exact List.mem_cons_of_mem _ (h.sent c hc)
  | some body =>
    rw [UploadItem.startUpload_sent i hb]
    refine ⟨howned .sending _ rfl, fun c hc => ?_, fun c hc => ?_⟩ <;> dsimp only at hc ⊢ <;>
      rcases eq_or_ne c s.nextClient with rfl | hne
    · simp
    · simp only [Function.update_of_ne hne] at hc ⊢
      exact h.running c hc
    · simp
    · simp only [Function.update_of_ne hne] at hc ⊢
      exact List.mem_cons_of_mem _ (List.mem_cons_of_mem _ (h.sent c hc))

end Uploads

namespace Faithful

theorem frame {s s' : State} (h : Faithful s) (hf : Frame s s') : Faithful s' := by
  intro c hc file hfile
  obtain ⟨hr, -, hp, hb⟩ := (hf.clients c).upload hc
  rw [hf.files, hp] at hfile
  rw [hb]
  exact h c hr file hfile

theorem aside {s s' : State} (h : Faithful s) (ha : Aside s s') : Faithful s' := by
  unfold Faithful
  rw [ha.clients, ha.files]
  exact h

/-- The upload that starts sends what its file contains, if it can read all of it. -/
theorem startUpload (h : Faithful s) {i : ItemId} (hw : s.ReadsWhole i) :
    Faithful (UploadItem.startUpload i s).1 := by
  intro c hc file hf
  rw [UploadItem.startUpload_files] at hf
  cases hb : HttpClient.createPutRequest (s.items i).filepath s with
  | none =>
    rw [UploadItem.startUpload_failed i hb] at hc hf ⊢
    rcases eq_or_ne c s.nextClient with rfl | hne
    · simp at hc
    · simp only [Function.update_of_ne hne] at hc hf ⊢
      exact h c hc file hf
  | some body =>
    rw [UploadItem.startUpload_sent i hb] at hc hf ⊢
    rcases eq_or_ne c s.nextClient with rfl | hne
    · simp only [Function.update_self] at hf ⊢
      rw [HttpClient.createPutRequest, hf] at hb
      simp only [Option.ite_none_right_eq_some, Option.some.injEq] at hb
      exact (hw file hf hb.1).symm.trans hb.2
    · simp only [Function.update_of_ne hne] at hc hf ⊢
      exact h c hc file hf

end Faithful

/-! ### The uploader's own functions -/

theorem Aside.quitTail : Aside s (AutoUploader.quitTail s) := by
  unfold AutoUploader.quitTail AutoUploader.quitApplication
  split
  · exact (Aside.emit (o := .fault .nullEngine) rfl).trans {Aside.refl _ with }
  · rename_i e _
    exact (Aside.emit (o := .deleteLater e) rfl).trans {Aside.refl _ with }

theorem Aside.quit (cause : Quitter) : Aside s (AutoUploader.quit cause s).1 := by
  unfold AutoUploader.quit
  dsimp only
  split
  · exact {Aside.refl s with log := log_cons rfl rfl}
  · split
    · exact {Aside.refl s with log := log_cons rfl rfl}
    · exact (Aside.emit rfl).trans Aside.quitTail

theorem Aside.engineFinished (error : ErrorType) (sent total : Nat) :
    Aside s (AutoUploader.engineFinished error sent total s).1 := by
  have hask : Aside s (AutoUploader.askReason error s) := by
    unfold AutoUploader.askReason
    split
    · exact .emit rfl
    · exact .refl s
  have hnotify (t : State) : Aside t (AutoUploader.notifyFinished sent total t) := by
    have hcount (u : State) (n : Nat) : Aside u {u with uploadSuccessCount := n} := {Aside.refl u with }
    have hfail : Aside t (if total > sent then t.emit (.failureNotified (total - sent)) else t) := by
      split
      · exact .emit rfl
      · exact .refl t
    unfold AutoUploader.notifyFinished
    split
    · dsimp only
      split
      · exact hfail.trans (.trans (.emit rfl) (hcount _ _))
      · exact hfail.trans (hcount _ _)
    · exact .refl t
  refine (hask.trans (hnotify _)).trans (.trans ?_ (Aside.quit .batchEnd))
  exact {Aside.refl _ with }

theorem Aside.uploadFiles (fileList : List Path) (obey : Bool) :
    Aside s (AutoUploader.uploadFiles fileList obey s).1 := by
  have hactivate : Aside s (AutoUploader.activate s) := by
    unfold AutoUploader.activate
    split
    · exact {Aside.refl s with }
    · exact .refl s
  unfold AutoUploader.uploadFiles
  dsimp only
  split
  · exact .emit rfl
  · split
    · exact hactivate.trans {Aside.refl _ with log := log_cons rfl rfl}
    · exact hactivate

theorem Aside.addFile (path : Path) (obey : Bool) : Aside s (AutoUploader.addFile path obey s).1 := by
  unfold AutoUploader.addFile
  split
  · exact (Aside.emit rfl).trans (.enqueueNew path)
  · exact .refl s

/-! ### One step -/

/-- The step starts the upload of an item. -/
def Starts (e : EngineId) (x : Config) (act : Action) (i : ItemId) : Prop :=
  (∃ rest, x.stack = .uploadItem e i :: rest) ∧ act = .run ∧ NwSessionMgr.ready e x.state = true ∨
    act = .event (.session e .opened) ∧ (x.state.engines e).state = .connecting ∧
      (x.state.engines e).currentItem = some i

/-- A PUT is sent for an item that starts, of what can be read of its file. -/
def Sends (starts : ItemId → Prop) (s s' : State) : Prop :=
  ∀ c i path body, .put c i path body ∈ s'.log → .put c i path body ∈ s.log ∨ starts i ∧
    path = (s.items i).filepath ∧ ∃ file, s.files path = some file ∧ file.readable = true ∧ file.readAll = body

/-- What a call or an event leaves: the uploads it finds, and pending calls that do
not go on with a client still waiting for its reply. -/
structure Carries (starts : ItemId → Prop) (s : State) (r : State × List Call) : Prop where
  uploads : Uploads r.1
  idle : ∀ c, s.Idle c → r.1.Idle c
  spent : ∀ k ∈ r.2, k.Spent r.1
  sends : Sends starts s r.1

structure Continues (starts : ItemId → Prop) (s : State) (r : State × List Call) : Prop
    extends Carries starts s r where
  files : r.1.files = s.files
  faithful : (∀ i, starts i → s.ReadsWhole i) → Faithful s → Faithful r.1

section Starts
variable {starts : ItemId → Prop}

theorem Sends.of_log {s' : State} (new : List Output) (hl : s'.log = new ++ s.log)
    (hn : ∀ o ∈ new, o.unsent = true) : Sends starts s s' := by
  intro c i path body hp
  rw [hl, List.mem_append] at hp
  exact .inl (hp.resolve_left fun hp => by simpa [Output.unsent] using hn _ hp)

theorem Aside.sends {s' : State} (h : Aside s s') : Sends starts s s' := by
  obtain ⟨new, hl, hn⟩ := h.log
  exact .of_log _ hl hn

theorem Frame.sends {s' : State} (h : Frame s s') : Sends starts s s' := by
  obtain ⟨new, hl, hm⟩ := h.log
  refine .of_log _ hl fun o ho => ?_
  have hminor := hm o ho
  cases o <;> simp_all [Output.minor, Output.unsent]

theorem Sends.after {t u : State} (hst : Sends starts s t) (htu : Sends starts t u) (hf : t.files = s.files)
    (hp : ∀ i, (t.items i).filepath = (s.items i).filepath) : Sends starts s u := by
  intro c i path body hput
  obtain hput | ⟨hi, hpath, hfile⟩ := htu c i path body hput
  · exact hst c i path body hput
  · exact .inr ⟨hi, hpath.trans (hp i), by rwa [hf] at hfile⟩

theorem Continues.of_minor {r : State × List Call} (h : Uploads s) (hm : Minor s r) :
    Continues starts s r where
  uploads := h.frame hm.frame
  idle _ := hm.frame.idle
  spent k hk := (hm.tame k hk).spent
  sends := hm.frame.sends
  files := hm.frame.files
  faithful _ hf := hf.frame hm.frame

theorem Continues.of_aside {r : State × List Call} (h : Uploads s) (ha : Aside s r.1)
    (hs : ∀ k ∈ r.2, ∀ t, k.Spent t) : Continues starts s r where
  uploads := h.aside ha
  idle _ := ha.idle
  spent k hk := hs k hk _
  sends := ha.sends
  files := ha.files
  faithful _ hf := hf.aside ha

end Starts

theorem spent_emitNextItem : ∀ k ∈ (UploadQueue.emitNextItem s).2, ∀ t, k.Spent t := by
  intro k hk t
  unfold UploadQueue.emitNextItem at hk
  split at hk
  · simp at hk
  · obtain ⟨e, _, rfl⟩ := List.mem_map.mp hk
    trivial

theorem spent_enqueueNew (path : Path) : ∀ k ∈ (UploadQueue.enqueueNew path s).2, ∀ t, k.Spent t := by
  intro k hk t
  unfold UploadQueue.enqueueNew UploadQueue.enqueue at hk
  dsimp only at hk
  split at hk
  · rcases List.mem_append.mp hk with hk | hk
    · exact spent_emitNextItem k hk t
    · rw [List.mem_singleton.mp hk]
      trivial
  · rw [List.mem_singleton.mp hk]
    trivial

theorem spent_quit (cause : Quitter) : ∀ k ∈ (AutoUploader.quit cause s).2, ∀ t, k.Spent t := by
  intro k hk t
  unfold AutoUploader.quit at hk
  dsimp only at hk
  repeat' split at hk
  all_goals simp only [List.not_mem_nil, List.mem_cons, or_false] at hk
  rcases hk with rfl | rfl <;> trivial

theorem spent_uploadFiles (fileList : List Path) (obey : Bool) :
    ∀ k ∈ (AutoUploader.uploadFiles fileList obey s).2, ∀ t, k.Spent t := by
  intro k hk t
  unfold AutoUploader.uploadFiles at hk
  dsimp only at hk
  repeat' split at hk
  · simp at hk
  · simp at hk
  · rcases List.mem_append.mp hk with hk | hk
    · obtain ⟨path, _, rfl⟩ := List.mem_map.mp hk
      trivial
    · rw [List.mem_singleton.mp hk]
      trivial

theorem sends_startUpload (i : ItemId) : Sends (· = i) s (UploadItem.startUpload i s).1 := by
  cases hb : HttpClient.createPutRequest (s.items i).filepath s with
  | none =>
    rw [UploadItem.startUpload_failed i hb]
    exact .of_log [.startUpload i] rfl (by simp [Output.unsent])
  | some body =>
    rw [UploadItem.startUpload_sent i hb]
    intro c j path body' hp
    rcases List.mem_cons.mp hp with he | hp
    · cases he
      refine .inr ⟨rfl, rfl, ?_⟩
      unfold HttpClient.createPutRequest at hb
      split at hb
      · cases hb
      · rename_i file hfile
        simp only [Option.ite_none_right_eq_some, Option.some.injEq] at hb
        exact ⟨file, hfile, hb⟩
    · exact .inl ((List.mem_cons.mp hp).resolve_left (by simp))

theorem continues_startUpload (h : Uploads s) (i : ItemId) :
    Continues (· = i) s ((UploadItem.startUpload i s).1, []) where
  uploads := h.startUpload i
  idle _ := UploadItem.startUpload_idle i
  spent := by simp
  sends := sends_startUpload i
  files := UploadItem.startUpload_files i
  faithful hw hf := hf.startUpload (hw i rfl)

theorem Continues.after {starts : ItemId → Prop} {t : State} {r : State × List Call} (ha : Aside s t)
    (hp : ∀ i, (t.items i).filepath = (s.items i).filepath) (h : Continues starts t r) :
    Continues starts s r where
  uploads := h.uploads
  idle c hc := h.idle c (ha.idle hc)
  spent := h.spent
  sends := ha.sends.after h.sends ha.files hp
  files := h.files.trans ha.files
  faithful hw hf := h.faithful (fun i hi => by
    rw [State.ReadsWhole, ha.files, hp]
    exact hw i hi) (hf.aside ha)

theorem Continues.mono {starts starts' : ItemId → Prop} {r : State × List Call} (h : Continues starts s r)
    (hs : ∀ i, starts i → starts' i) : Continues starts' s r where
  __ := h
  sends c i path body hp := (h.sends c i path body hp).imp id fun ⟨hi, hfile⟩ => ⟨hs i hi, hfile⟩
  faithful hw := h.faithful fun i hi => hw i (hs i hi)

theorem continues_uploadItem (h : Uploads s) (e : EngineId) (i : ItemId) :
    Continues (fun j => j = i ∧ NwSessionMgr.ready e s = true) s (UploadEngine.uploadItem e i s) := by
  have ht (engines : EngineId → Engine) : Aside s {UploadEngine.take e i s with engines := engines} ∧
      ∀ j, ({UploadEngine.take e i s with engines := engines}.items j).filepath = (s.items j).filepath := by
    rw [UploadEngine.take_eq]
    refine ⟨{Aside.refl s with http := fun j => .inl ?_}, fun j => ?_⟩
    · rcases eq_or_ne j i with rfl | hj
      · simp
      · simp [hj]
    · rcases eq_or_ne j i with rfl | hj
      · simp
      · simp [hj]
  rw [UploadEngine.uploadItem_eq]
  split
  · rename_i hready
    exact .after (ht _).1 (ht _).2
      ((continues_startUpload (h.aside (ht _).1) i).mono fun j hj => ⟨hj, hready⟩)
  · exact .of_aside h (ht _).1 fun k hk t => by rw [List.mem_singleton.mp hk]; trivial

theorem continues_sessionOpened (h : Uploads s) (e : EngineId) :
    Continues (fun j => (s.engines e).state = .connecting ∧ (s.engines e).currentItem = some j) s
      (UploadEngine.sessionOpened e s, []) := by
  have hset (v : Engine) : Aside s (s.setEngine e v) := {Aside.refl s with }
  unfold UploadEngine.sessionOpened
  split
  · rename_i hstate
    split
    · exact .of_aside h (.refl s) (by simp)
    · rename_i i hi
      dsimp only
      split
      · exact .after (hset _) (fun _ => rfl)
          ((continues_startUpload (h.aside (hset _)) i).mono fun j hj => ⟨hstate, hj ▸ hi⟩)
      · exact .of_aside h ((hset _).trans (.emit rfl)) (by simp)
  · exact .of_aside h (.refl s) (by simp)

theorem continues_exec {k : Call} (rest : List Call) (h : Uploads s) (hk : k.Spent s) :
    Continues (fun i => ∃ e, Starts e ⟨s, k :: rest⟩ .run i) s (exec k s) := by
  have htame (ht : k.Tame s) : Continues (fun i => ∃ e, Starts e ⟨s, k :: rest⟩ .run i) s (exec k s) := by
    rcases exec_tame ht h.owned with hm | ⟨t, ht, heq⟩ | ⟨e, error, sent, total, -, heq⟩
    · exact .of_minor h hm
    · have hnext : Aside t (UploadQueue.emitNextItem t).1 := .emitNextItem
      rw [heq]
      exact {
        uploads := (h.frame ht).aside hnext
        idle := fun c hi => hnext.idle (ht.idle hi)
        spent := fun k hk => spent_emitNextItem k hk _
        sends := ht.sends.after hnext.sends ht.files ht.filepath
        files := hnext.files.trans ht.files
        faithful := fun _ hf => (hf.frame ht).aside hnext }
    · rw [heq]
      exact .of_aside h (.engineFinished ..) (spent_quit _)
  cases k with
  | uploadItem e i =>
    refine (continues_uploadItem h e i).mono fun j hj => ?_
    obtain ⟨rfl, hready⟩ := hj
    exact ⟨e, .inl ⟨⟨rest, rfl⟩, rfl, hready⟩⟩
  | addFile path obey =>
    refine .of_aside h (.addFile path obey) fun k hk t => ?_
    dsimp only [exec] at hk
    unfold AutoUploader.addFile at hk
    split at hk
    · rcases List.mem_append.mp hk with hk | hk
      · exact spent_enqueueNew path k hk t
      · rw [List.mem_singleton.mp hk]
        trivial
    · simp at hk
  | fileAdded path => exact .of_aside h {Aside.refl s with } (by simp [exec])
  | quitTail => exact .of_aside h Aside.quitTail (by simp [exec])
  | uploadFinished | queueDone | finished | sessionOpen | sessionGone | aborted | cancelled
  | itemEnqueued | filesAdded | cancelAll | exited => exact htame hk

/-- A reply that finishes takes at most the file it acknowledges along. -/
theorem replyFinished_cases {c : ClientId} {answer : ServerReply} {r : State × List Call}
    (h : deliver (.replyFinished c answer) s = some r) :
    ∃ t, Frame s t ∧ (r = HttpClient.finished c t ∨ (s.clients c).reply = true ∧
      r = HttpClient.finished c (HttpClient.removeFile (s.clients c).currentFile t)) := by
  obtain ⟨-, -, rfl⟩ := deliverReply_some h
  generalize hu : (if (s.clients c).network = .running then s.emit (.succeeded c (s.clients c).item)
    else s) = u
  have hsu : Frame s u := by
    rw [← hu]
    split
    · exact .emit rfl
    · exact .refl s
  have hclients : u.clients = s.clients := by
    rw [← hu]
    split <;> rfl
  obtain ⟨t, ht, hgone, hcases⟩ := HttpClient.handleFinished_cases c answer
    (s := u.setClient c {s.clients c with network := .finished})
  refine ⟨t, hsu.trans (HttpClient.frame_forget ?_ ht hgone), ?_⟩
  · rw [hclients]
  · simpa using hcases

theorem carries_replyFinished {starts : ItemId → Prop} {c : ClientId} {answer : ServerReply}
    {r : State × List Call} (h : Uploads s) (hr : deliver (.replyFinished c answer) s = some r) :
    Carries starts s r := by
  obtain ⟨t, ht, rfl | ⟨hreply, rfl⟩⟩ := replyFinished_cases hr
  · exact (Continues.of_minor h (.after ht (HttpClient.minor_finished c))).toCarries
  · have hminor := HttpClient.minor_finished c (s := HttpClient.removeFile (s.clients c).currentFile t)
    have hlog : Sends (fun _ => False) t (HttpClient.removeFile (s.clients c).currentFile t) := by
      unfold HttpClient.removeFile
      split
      · exact .of_log [] rfl (by simp)
      · exact .of_log [.removed _] rfl (by simp [Output.unsent])
    refine ⟨((h.frame ht).removeFile _).frame hminor.frame, fun c' hc => hminor.frame.idle ?_,
      fun k hk => (hminor.tame k hk).spent, ?_⟩
    · rw [State.Idle, HttpClient.removeFile_clients, HttpClient.removeFile_nextClient]
      exact ht.idle hc
    · intro c' i path body hput
      have hold {u v : State} (h : Sends (fun _ => False) u v) (hp : .put c' i path body ∈ v.log) :
          .put c' i path body ∈ u.log := (h c' i path body hp).resolve_right fun hi => hi.1
      exact .inl (hold ht.sends (hold hlog (hold hminor.frame.sends hput)))

/-- Only a finished reply and other processes touch the files. -/
theorem continues_deliver {ev : Event} (stack : List Call) {r : State × List Call} (h : Uploads s)
    (hr : deliver ev s = some r) : Continues (fun i => ∃ e, Starts e ⟨s, stack⟩ (.event ev) i) s r ∨
      (∃ c answer, ev = .replyFinished c answer) ∨ ∃ path file, ev = .file path file := by
  have hplain (hp : ev.plain s = true) : Continues (fun i => ∃ e, Starts e ⟨s, stack⟩ (.event ev) i) s r :=
    .of_minor h (deliver_plain hp h.owned h.running hr)
  cases ev with
  | enqueue file =>
    cases hr
    exact .inl (.of_aside h (.enqueueNew file) (spent_enqueueNew file))
  | dispatch =>
    refine .inl ?_
    simp only [deliver, dispatch] at hr
    have hset (posted : List Posted) : Aside s {s with posted := posted} := {Aside.refl s with }
    split at hr
    · simp at hr
    · split at hr <;> obtain rfl := (Option.some.inj hr).symm
      · exact .of_aside h ((hset _).trans (.uploadFiles ..)) (spent_uploadFiles _ _)
      · exact .of_aside h ((hset _).trans (.quit _)) (spent_quit _)
      · rename_i i _
        refine .of_aside h {Aside.refl s with http := fun j => .inl ?_} (by simp)
        rcases eq_or_ne j i with rfl | hj
        · simp
        · simp [hj]
      · exact .of_aside h {Aside.refl s with } (by simp)
  | quitTimer =>
    simp only [deliver, Option.ite_none_right_eq_some, Option.some.injEq] at hr
    obtain ⟨-, rfl⟩ := hr
    have hset : Aside s {s with quitTimers := s.quitTimers - 1} := {Aside.refl s with }
    exact .inl (.of_aside h (hset.trans (.quit _)) (spent_quit _))
  | exit =>
    simp only [deliver, Option.ite_none_right_eq_some, Option.some.injEq] at hr
    obtain ⟨-, rfl⟩ := hr
    refine .inl (.of_aside h (.quit _) fun k hk t => ?_)
    rcases List.mem_append.mp hk with hk | hk
    · exact spent_quit _ k hk t
    · rw [List.mem_singleton.mp hk]
      trivial
  | session e signal =>
    cases signal with
    | opened =>
      simp only [deliver, Option.ite_none_right_eq_some, Option.some.injEq] at hr
      obtain ⟨-, rfl⟩ := hr
      have hset : Aside s (NwSessionMgr.setSession e (some ⟨true, false⟩) s) := {Aside.refl s with }
      refine .inl (.after hset (fun _ => rfl) ((continues_sessionOpened (h.aside hset) e).mono fun i hi => ?_))
      simp only [NwSessionMgr.setSession, State.setEngine_engines, Function.update_self] at hi
      exact ⟨e, .inr ⟨rfl, hi⟩⟩
    | error | disconnected => exact .inl (hplain (by simp [Event.plain]))
  | replyFinished c answer => exact .inr (.inl ⟨c, answer, rfl⟩)
  | environment env =>
    cases hr
    exact .inl (.of_aside h {Aside.refl s with } (by simp))
  | file path file => exact .inr (.inr ⟨path, file, rfl⟩)
  | coreLocations =>
    cases hr
    exact .inl (.of_aside h {Aside.refl s with } (by simp))
  | cancelAll | callUploadFiles | callQuit | replyError | uploadProgress | sslErrors | timeout =>
    exact .inl (hplain rfl)

theorem carries_deliver {ev : Event} (stack : List Call) {r : State × List Call} (h : Uploads s)
    (hr : deliver ev s = some r) : Carries (fun i => ∃ e, Starts e ⟨s, stack⟩ (.event ev) i) s r := by
  rcases continues_deliver stack h hr with hc | ⟨c, answer, rfl⟩ | ⟨path, file, rfl⟩
  · exact hc.toCarries
  · exact carries_replyFinished h hr
  · cases hr
    exact ⟨⟨h.owned, h.running, h.sent⟩, fun c hc => hc, by simp, .of_log [] rfl (by simp)⟩

/-! ### Every run -/

/-- What one step leaves, and what it sends. -/
theorem carries_step {x y : Config} {a : Action} (hu : Uploads x.state)
    (hs : ∀ k ∈ x.stack, k.Spent x.state) (h : uploader.step x a = some y) :
    (Uploads y.state ∧ ∀ k ∈ y.stack, k.Spent y.state) ∧ Sends (fun i => ∃ e, Starts e x a i) x.state y.state := by
  obtain ⟨s, stack⟩ := x
  cases a with
  | run =>
    obtain ⟨k, rest, hk, rfl⟩ := uploader.step_run h
    dsimp only at hk
    subst hk
    have hc := continues_exec rest hu (hs k (List.mem_cons_self ..))
    refine ⟨⟨hc.uploads, fun k' hk' => ?_⟩, hc.sends⟩
    exact (List.mem_append.mp hk').elim (hc.spent k')
      fun hk' => (hs k' (List.mem_cons_of_mem _ hk')).mono hc.idle
  | event ev =>
    obtain ⟨-, r, hr, rfl⟩ := uploader.step_event h
    have hc := carries_deliver stack hu hr
    refine ⟨⟨hc.uploads, fun k hk => ?_⟩, hc.sends⟩
    exact (List.mem_append.mp hk).elim (hc.spent k) fun hk => (hs k hk).mono hc.idle

theorem uploads_blank (env : Environment) (files : Path → Option File) (coreLocations : List Path)
    (logWritable : Bool) : Uploads (blank env files coreLocations logWritable) := by
  constructor <;> simp [blank, State.Owned]

theorem uploads_of_reaches {G : Guard State Call Event} {env : Environment}
    {files : Path → Option File} {coreLocations : List Path} {logWritable : Bool} {x : Config}
    (hx : Reaches uploader G ⟨blank env files coreLocations logWritable, []⟩ x) :
    Uploads x.state ∧ ∀ k ∈ x.stack, k.Spent x.state := by
  induction hx with
  | start => exact ⟨uploads_blank .., by simp⟩
  | next _ _ hs ih => exact (carries_step ih.1 ih.2 hs).1

end CrashReporter.Upload
