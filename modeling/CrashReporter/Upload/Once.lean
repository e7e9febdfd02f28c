import CrashReporter.Upload.Offers
import Mathlib.Data.List.Pairwise

/-! Each report is sent at most once.

`addedFiles` keeps a path from being queued twice. That an item of the queue is not
started twice needs one engine on the queue: with two, each starts the item that
nextItem() hands out. A second engine comes to the queue when a request is
dispatched after the end of a batch and before the engine of that batch is gone. -/
namespace CrashReporter.Upload
open Reactor

variable {s : State}

/-- The queue is the process's own, and no request makes an engine while the queue
still has one. -/
def OneEngine : Guard State Call Event := fun x a => (∀ file, a ≠ .event (.enqueue file)) ∧
  (a = .event .dispatch → ∀ fileList obey rest, x.state.posted = .uploadFiles fileList obey :: rest →
    fileList ≠ [] → x.state.uploader.activated = false → x.state.queue.engines = [])

/-! ### Each item is held once -/

/-- One engine at most, and what is handed out, waits or was sent is so once. -/
structure Ledger (x : Config) : Prop where
  one : x.state.queue.engines.length ≤ 1
  attached : x.state.Attached
  serves : ∀ k ∈ x.stack, k.Attached x.state
  nodup : (handed x.stack + x.state.held).Nodup
  bound : ∀ i ∈ handed x.stack + x.state.held, i < x.state.nextItem

/-- A step keeps the ledger when what it is given is not yet in it. -/
theorem Ledger.step {given : Multiset ItemId} {takes : Bool → Prop} {attached asked : Prop}
    {stack rest : List Call} {r : State × List Call} (h : Ledger ⟨s, stack⟩)
    (ho : Offers given takes attached asked s r) (hatt : attached)
    (hone : r.1.queue.engines.length ≤ 1) (hrest : ∀ k ∈ rest, k ∈ stack)
    (hnodup : (given + (handed rest + s.held)).Nodup)
    (hbound : ∀ i ∈ given + (handed rest + s.held), i < r.1.nextItem) :
    Ledger ⟨r.1, r.2 ++ rest⟩ := by
  obtain ⟨ha, hle⟩ := ho.held hatt h.attached hone
  have hall : handed (r.2 ++ rest) + r.1.held ≤ given + (handed rest + s.held) := by
    rw [handed_append]
    calc handed r.2 + handed rest + r.1.held
        = handed rest + (handed r.2 + r.1.held) := by abel
      _ ≤ handed rest + (given + s.held) := add_le_add le_rfl hle
      _ = given + (handed rest + s.held) := by abel
  refine ⟨hone, ha, fun k hk => ?_, Multiset.nodup_of_le hall hnodup,
    fun i hi => hbound i (Multiset.mem_of_le hall hi)⟩
  cases k with
  | uploadItem e i =>
    rcases List.mem_append.mp hk with hk | hk
    · exact (ho.calls e i hk).1
    · exact ho.engines.subset (h.serves _ (hrest _ hk))
  | _ => trivial

/-- A call gives what it carries, or a new item for a new path. -/
theorem Call.gives_cases (k : Call) (s : State) : k.gives s = handed [k] ∨
    ∃ path obey, k = .addFile path obey ∧ path ∉ s.uploader.addedFiles := by
  cases k with
  | addFile path obey =>
    by_cases h : path ∈ s.uploader.addedFiles
    · exact .inl (by rw [gives, if_pos h]; rfl)
    · exact .inr ⟨path, obey, rfl, h⟩
  | _ => exact .inl rfl

theorem addFile_nextItem {path : Path} (h : path ∉ s.uploader.addedFiles) (obey : Bool) :
    (AutoUploader.addFile path obey s).1.nextItem = s.nextItem + 1 := by
  unfold AutoUploader.addFile
  rw [if_pos (by simpa using h)]
  exact UploadQueue.enqueueNew_nextItem path

theorem Ledger.exec {k : Call} {rest : List Call} (h : Ledger ⟨s, k :: rest⟩) (hu : Uploads s)
    (hk : k.Spent s) : Ledger ⟨(exec k s).1, (exec k s).2 ++ rest⟩ := by
  have ho := offers_exec hu hk
  have hall : handed [k] + (handed rest + s.held) = handed (k :: rest) + s.held := by
    rw [← add_assoc, ← handed_append]
    rfl
  have hone : (Upload.exec k s).1.queue.engines.length ≤ 1 := by
    rw [ho.unasked.resolve_left id]
    exact h.one
  rcases k.gives_cases s with hg | ⟨path, obey, rfl, hp⟩
  · refine h.step ho (h.serves k (List.mem_cons_self ..)) hone (fun k' hk' => List.mem_cons_of_mem _ hk')
      (by rw [hg, hall]; exact h.nodup) fun i hi => ?_
    rw [hg, hall] at hi
    exact Nat.lt_of_lt_of_le (h.bound i hi) ho.nextItem
  · have hg : (Call.addFile path obey).gives s = {s.nextItem} := by simp [Call.gives, hp]
    have hn : (Upload.exec (.addFile path obey) s).1.nextItem = s.nextItem + 1 :=
      addFile_nextItem hp obey
    refine h.step ho trivial hone (fun k' hk' => List.mem_cons_of_mem _ hk') ?_ fun i hi => ?_
    · rw [hg, Multiset.singleton_add]
      exact Multiset.nodup_cons.mpr ⟨fun hi => Nat.lt_irrefl _ (h.bound _ hi), h.nodup⟩
    · rw [hn]
      rcases Multiset.mem_add.mp hi with hi | hi
      · rw [hg] at hi
        exact Multiset.mem_singleton.mp hi ▸ Nat.lt_succ_self _
      · exact Nat.lt_succ_of_lt (h.bound i hi)

theorem Ledger.deleteEngine {e : EngineId} {posted : List Posted} (h : Ledger ⟨s, []⟩) :
    Ledger ⟨{s with posted := posted}.deleteEngine e, []⟩ := by
  have hlen : (s.queue.engines.filter (· ≠ e)).length ≤ 1 :=
    Nat.le_trans (List.length_filter_le _ _) h.one
  have hkeeps (e' : EngineId) : (s.engines e').Keeps
      (({s with posted := posted}.deleteEngine e).engines e') := by
    rcases eq_or_ne e' e with rfl | he
    · exact .of_state (by simp [State.deleteEngine])
    · simpa [State.deleteEngine, he] using Engine.Keeps.refl _
  have hle : ({s with posted := posted}.deleteEngine e).held ≤ s.held := by
    refine add_le_add le_rfl (Multiset.coe_le.mpr ?_)
    exact ((awaited_sublist hkeeps _).trans (List.filter_sublist.filterMap _)).subperm
  refine ⟨hlen, fun e' hc => ?_, by simp, Multiset.nodup_of_le (add_le_add le_rfl hle) h.nodup,
    fun i hi => h.bound i (Multiset.mem_of_le (add_le_add le_rfl hle) hi)⟩
  have hne : e' ≠ e := by
    rintro rfl
    simp [State.deleteEngine] at hc
  exact List.mem_filter.mpr ⟨h.attached e' (hkeeps e' hc).1, by simpa using hne⟩

/-- A request adds an engine only when the uploader is not active. -/
theorem uploadFiles_engines (fileList : List Path) (obey : Bool) (s : State) :
    (AutoUploader.uploadFiles fileList obey s).1.queue.engines = s.queue.engines ∨
      s.uploader.activated = false ∧ (AutoUploader.uploadFiles fileList obey s).1.queue.engines =
        s.queue.engines ++ [s.nextEngine] := by
  unfold AutoUploader.uploadFiles
  dsimp only
  split
  · exact .inl rfl
  · cases ha : s.uploader.activated with
    | true =>
      rw [AutoUploader.activate_active ha]
      exact .inl (by split <;> rfl)
    | false =>
      rw [AutoUploader.activate_new ha]
      exact .inr ⟨rfl, by split <;> rfl⟩

theorem Ledger.deliver {ev : Event} {stack : List Call} {r : State × List Call}
    (h : Ledger ⟨s, stack⟩) (hu : Uploads s) (hg : OneEngine ⟨s, stack⟩ (.event ev))
    (ha : admits ev stack = true) (hr : deliver ev s = some r) : Ledger ⟨r.1, r.2 ++ stack⟩ := by
  by_cases henv : ∃ env, ev = .environment env
  · obtain ⟨env, rfl⟩ := henv
    cases hr
    exact ⟨h.one, h.attached, h.serves, h.nodup, h.bound⟩
  rcases offers_deliver hu hr fun env he => henv ⟨env, he⟩ with ho | ⟨e, rest, rfl, -, rfl⟩
  · have hgive : ev.gives s = 0 := by
      cases ev with
      | enqueue file => exact absurd rfl (hg.1 file)
      | _ => rfl
    rw [hgive] at ho
    refine h.step ho trivial ?_ (fun k hk => hk) (by simpa using h.nodup) fun i hi => ?_
    · rcases ho.unasked with ⟨rfl, fileList, obey, rest, hposted, hne⟩ | he
      · have hnone := hg.2 rfl fileList obey rest hposted hne
        simp only [Upload.deliver, dispatch, hposted, Option.some.injEq] at hr
        subst hr
        rcases uploadFiles_engines fileList obey {s with posted := rest} with he | ⟨hact, he⟩ <;> rw [he]
        · exact h.one
        · simp [show s.queue.engines = [] from hnone hact]
      · rw [he]
        exact h.one
    · exact Nat.lt_of_lt_of_le (h.bound i (by simpa using hi)) ho.nextItem
  · cases stack with
    | nil => exact h.deleteEngine
    | cons k rest => simp [admits] at ha

/-! ### Items have different paths -/

/-- A turn of the loop over the files of a request. -/
def Call.requests : Call → Bool
  | .addFile .. => true
  | _ => false

/-- Every item has its own path, and no path is being added while files are still
to be looked up. -/
structure Paths (x : Config) : Prop where
  sent : ∀ c i path body, .put c i path body ∈ x.state.log → path = (x.state.items i).filepath
  added : ∀ i < x.state.nextItem, (x.state.items i).filepath ∈ x.state.uploader.addedFiles ∨
    .fileAdded (x.state.items i).filepath ∈ x.stack
  distinct : ∀ i < x.state.nextItem, ∀ j < x.state.nextItem,
    (x.state.items i).filepath = (x.state.items j).filepath → i = j
  order : x.stack.Pairwise fun k k' => k.requests = true → ∀ path, k' ≠ .fileAdded path

/-- A new item has the path it was made for, and nothing is sent. -/
theorem addFile_new {path : Path} (h : path ∉ s.uploader.addedFiles) (obey : Bool) :
    ((AutoUploader.addFile path obey s).1.items s.nextItem).filepath = path ∧
      (AutoUploader.addFile path obey s).1.log.filterMap Output.sentItem =
        s.log.filterMap Output.sentItem ∧
      .fileAdded path ∈ (AutoUploader.addFile path obey s).2 := by
  unfold AutoUploader.addFile UploadQueue.enqueueNew UploadQueue.enqueue UploadQueue.emitNextItem
  rw [if_pos (by simpa using h)]
  dsimp only
  split
  · split <;> simp [UploadQueue.newItem, List.filterMap_cons, Output.sentItem]
  · simp [UploadQueue.newItem, List.filterMap_cons, Output.sentItem]

theorem mem_held_of_put {c : ClientId} {i : ItemId} {path : Path} {body : Content}
    (h : .put c i path body ∈ s.log) : i ∈ s.held := by
  refine Multiset.mem_add.mpr (.inl (Multiset.mem_add.mpr (.inl ?_)))
  exact Multiset.mem_coe.mpr (List.mem_filterMap.mpr ⟨_, h, rfl⟩)

/-- A step that makes no item keeps the paths, when the paths being added stay. -/
theorem Paths.step {given : Multiset ItemId} {takes : Bool → Prop} {attached asked : Prop}
    {stack rest : List Call} {r : State × List Call} (h : Paths ⟨s, stack⟩)
    (hl' : Ledger ⟨r.1, r.2 ++ rest⟩) (ho : Offers given takes attached asked s r)
    (hnext : r.1.nextItem = s.nextItem)
    (hadded : ∀ path, .fileAdded path ∈ stack →
      path ∈ r.1.uploader.addedFiles ∨ .fileAdded path ∈ rest)
    (horder : (r.2 ++ rest).Pairwise fun k k' => k.requests = true → ∀ path, k' ≠ .fileAdded path) :
    Paths ⟨r.1, r.2 ++ rest⟩ := by
  have hpath (i : ItemId) (hi : i < r.1.nextItem) : (r.1.items i).filepath = (s.items i).filepath :=
    ho.filepath i (hnext ▸ hi)
  refine ⟨fun c i path body hput => ?_, fun i hi => ?_, fun i hi j hj he => ?_, horder⟩
  · have hi : i < r.1.nextItem := hl'.bound i (Multiset.mem_add.mpr (.inr (mem_held_of_put hput)))
    obtain ⟨new, hlog, -, hnew, -⟩ := ho.log
    rw [hpath i hi]
    rcases List.mem_append.mp (hlog ▸ hput) with hput | hput
    · exact hnew c i path body (hnext ▸ hi) hput
    · exact h.sent c i path body hput
  · rw [hpath i hi]
    rcases h.added i (hnext ▸ hi) with ha | ha
    · exact .inl (ho.added ha)
    · exact (hadded _ ha).imp id (List.mem_append_right _)
  · rw [hpath i hi, hpath j hj] at he
    exact h.distinct i (hnext ▸ hi) j (hnext ▸ hj) he

/-- Without requests among the calls made, the order of the pending calls stays. -/
theorem order_append {calls rest : List Call} (hc : ∀ k ∈ calls, k.requests = false)
    (h : rest.Pairwise fun k k' => k.requests = true → ∀ path, k' ≠ .fileAdded path) :
    (calls ++ rest).Pairwise fun k k' => k.requests = true → ∀ path, k' ≠ .fileAdded path := by
  refine List.pairwise_append.mpr ⟨?_, h, fun k hk k' _ hr => nomatch (hc k hk).symm.trans hr⟩
  exact List.pairwise_of_forall_mem_list fun k hk k' _ hr => nomatch (hc k hk).symm.trans hr

theorem Offers.no_requests {given : Multiset ItemId} {takes : Bool → Prop} {attached asked : Prop}
    {r : State × List Call} (ho : Offers given takes attached asked s r) (h : ¬ asked) :
    ∀ k ∈ r.2, k.requests = false := by
  intro k hk
  cases k with
  | addFile path obey => exact absurd (ho.requests path obey hk).1 h
  | _ => rfl

theorem Paths.exec {k : Call} {rest : List Call} (h : Paths ⟨s, k :: rest⟩)
    (hl : Ledger ⟨s, k :: rest⟩) (hu : Uploads s) (hk : k.Spent s) :
    Paths ⟨(Upload.exec k s).1, (Upload.exec k s).2 ++ rest⟩ := by
  have ho := offers_exec hu hk
  have hl' := hl.exec hu hk
  have horder := order_append (ho.no_requests id) (List.pairwise_cons.mp h.order).2
  rcases k.gives_cases s with hg | ⟨path, obey, rfl, hp⟩
  · have hnext : (Upload.exec k s).1.nextItem = s.nextItem := by
      refine ho.made.resolve_right fun hi => ?_
      have hi' : s.nextItem ∈ handed (k :: rest) + s.held := by
        rw [show k :: rest = [k] ++ rest from rfl, handed_append, ← hg]
        simp [hi]
      exact Nat.lt_irrefl _ (hl.bound _ hi')
    refine h.step hl' ho hnext (fun path hpath => ?_) horder
    rcases List.mem_cons.mp hpath with rfl | hpath
    · exact .inl (List.mem_append_right _ (List.mem_singleton_self _))
    · exact .inr hpath
  · obtain ⟨hpath, hsent, hadd⟩ := addFile_new hp obey
    have hnext : (Upload.exec (.addFile path obey) s).1.nextItem = s.nextItem + 1 :=
      addFile_nextItem hp obey
    -- No path is being added below a turn of the loop, so all are known.
    have hknown (i : ItemId) (hi : i < s.nextItem) :
        (s.items i).filepath ∈ s.uploader.addedFiles := by
      refine (h.added i hi).resolve_right fun hf => ?_
      rcases List.mem_cons.mp hf with hf | hf
      · cases hf
      · exact (List.pairwise_cons.mp h.order).1 _ hf rfl _ rfl
    have hold (i : ItemId) (hi : i < s.nextItem) := ho.filepath i hi
    have hsplit {i : ItemId} (hi : i < (Upload.exec (.addFile path obey) s).1.nextItem) :
        i < s.nextItem ∨ i = s.nextItem :=
      Nat.lt_succ_iff_lt_or_eq.mp (Nat.lt_of_lt_of_eq hi hnext)
    have hne {i : ItemId} (hi : i < s.nextItem) : (s.items i).filepath ≠ path := fun he =>
      hp (he ▸ hknown i hi)
    refine ⟨fun c i p body hput => ?_, fun i hi => ?_, fun i hi j hj he => ?_, horder⟩
    · -- Nothing is sent here, so the PUT was there before.
      obtain ⟨new, hlog, -, hnew, -⟩ := ho.log
      have hput' : .put c i p body ∈ s.log := by
        refine (List.mem_append.mp (hlog ▸ hput)).resolve_left fun hput => ?_
        have hnil : new.filterMap Output.sentItem = [] := by
          have hs : (new ++ s.log).filterMap Output.sentItem = s.log.filterMap Output.sentItem :=
            hlog ▸ hsent
          rw [List.filterMap_append] at hs
          exact List.append_left_eq_self.mp hs
        exact absurd (List.filterMap_eq_nil_iff.mp hnil _ hput) (by simp [Output.sentItem])
      have hi := hl.bound i (Multiset.mem_add.mpr (.inr (mem_held_of_put hput')))
      exact (h.sent c i p body hput').trans (hold i hi).symm
    · rcases hsplit hi with hi | rfl
      · exact .inl (ho.added (hold i hi ▸ hknown i hi))
      · exact .inr (List.mem_append_left _ (hpath.symm ▸ hadd))
    · rcases hsplit hi with hi | rfl <;> rcases hsplit hj with hj | rfl
      · exact h.distinct i hi j hj ((hold i hi).symm.trans (he.trans (hold j hj)))
      · exact absurd ((hold i hi).symm.trans (he.trans hpath)) (hne hi)
      · exact absurd ((hold j hj).symm.trans (he.symm.trans hpath)) (hne hj)
      · rfl

theorem Paths.deliver {ev : Event} {stack : List Call} {r : State × List Call}
    (h : Paths ⟨s, stack⟩) (hl : Ledger ⟨s, stack⟩) (hu : Uploads s)
    (hg : OneEngine ⟨s, stack⟩ (.event ev)) (ha : admits ev stack = true)
    (hr : deliver ev s = some r) : Paths ⟨r.1, r.2 ++ stack⟩ := by
  have hl' := hl.deliver hu hg ha hr
  by_cases henv : ∃ env, ev = .environment env
  · obtain ⟨env, rfl⟩ := henv
    cases hr
    exact ⟨h.sent, h.added, h.distinct, h.order⟩
  rcases offers_deliver hu hr fun env he => henv ⟨env, he⟩ with ho | ⟨e, rest, rfl, -, rfl⟩
  · have hgive : ev.gives s = 0 := by
      cases ev with
      | enqueue file => exact absurd rfl (hg.1 file)
      | _ => rfl
    have hnext : r.1.nextItem = s.nextItem := ho.made.resolve_right (by simp [hgive])
    refine h.step hl' ho hnext (fun path hpath => .inr hpath) ?_
    by_cases hasks : ev.asks s
    · obtain ⟨rfl, fileList, obey, rest, hposted, -⟩ := hasks
      have hnil : stack = [] := by
        cases stack with
        | nil => rfl
        | cons k rest => simp [admits] at ha
      simp only [Upload.deliver, dispatch, hposted, Option.some.injEq] at hr
      rw [hnil, List.append_nil, ← hr]
      refine List.pairwise_of_forall_mem_list fun k _ k' hk' _ path he => ?_
      subst he
      unfold AutoUploader.uploadFiles at hk'
      dsimp only at hk'
      repeat' split at hk'
      all_goals simp at hk'
    · exact order_append (ho.no_requests hasks) h.order
  · cases stack with
    | nil => exact ⟨h.sent, h.added, h.distinct, h.order⟩
    | cons k rest => simp [admits] at ha

/-! ### Every run -/

theorem ledger_of_reaches {env : Environment} {files : Path → Option File}
    {coreLocations : List Path} {logWritable : Bool} {x : Config}
    (hx : Reaches uploader OneEngine ⟨blank env files coreLocations logWritable, []⟩ x) :
    Ledger x ∧ Paths x := by
  refine hx.invariant (I := fun x => Ledger x ∧ Paths x) ?_ ?_ ?_
  · refine ⟨⟨?_, ?_, ?_, ?_, ?_⟩, ?_, ?_, ?_, ?_⟩ <;>
      simp [blank, State.Attached, State.held, handed]
  · rintro s k rest hx - ⟨hl, hp⟩
    obtain ⟨hu, hs⟩ := uploads_of_reaches hx
    have hk := hs k (List.mem_cons_self ..)
    exact ⟨hl.exec hu hk, hp.exec hl hu hk⟩
  · rintro s stack ev r hx hg ha hr ⟨hl, hp⟩
    have hu := (uploads_of_reaches hx).1
    exact ⟨hl.deliver hu hg ha hr, hp.deliver hl hu hg ha hr⟩

/-- A PUT of the path. -/
def Output.sends (path : Path) : Output → Bool
  | .put _ _ p _ => p = path
  | _ => false

/-- PUTs of one path carry one item, and no item is sent twice. -/
theorem length_sends_le {items : ItemId → Item} {n : ItemId} {log : List Output}
    (hnodup : (log.filterMap Output.sentItem).Nodup)
    (hbound : ∀ i ∈ log.filterMap Output.sentItem, i < n)
    (hsent : ∀ c i path body, .put c i path body ∈ log → path = (items i).filepath)
    (hdistinct : ∀ i < n, ∀ j < n, (items i).filepath = (items j).filepath → i = j) (path : Path) :
    (log.filter (Output.sends path)).length ≤ 1 := by
  have hsub := (List.filter_sublist (p := Output.sends path) (l := log)).filterMap Output.sentItem
  have hmem {o : Output} (ho : o ∈ log.filter (Output.sends path)) :
      ∃ i, o.sentItem = some i ∧ i < n ∧ (items i).filepath = path := by
    obtain ⟨ho, hs⟩ := List.mem_filter.mp ho
    cases o with
    | put c i p body =>
      refine ⟨i, rfl, hbound i (List.mem_filterMap.mpr ⟨_, ho, rfl⟩), ?_⟩
      rw [← hsent c i p body ho]
      simpa [Output.sends] using hs
    | _ => simp [Output.sends] at hs
  generalize log.filter (Output.sends path) = sends at hsub hmem
  rcases sends with _ | ⟨o, _ | ⟨o', rest⟩⟩
  · simp
  · simp
  · obtain ⟨i, hi, hin, hip⟩ := hmem (List.mem_cons_self ..)
    obtain ⟨j, hj, hjn, hjp⟩ := hmem (List.mem_cons_of_mem _ (List.mem_cons_self ..))
    have hd := hsub.nodup hnodup
    rw [List.filterMap_cons_some hi, List.filterMap_cons_some hj,
      hdistinct i hin j hjn (hip.trans hjp.symm)] at hd
    simp at hd

/-- Each path is sent at most once, and the queue has at most one engine. -/
theorem report_sent_once {env : Environment} {files : Path → Option File}
    {coreLocations : List Path} {logWritable : Bool} {x : Config}
    (hx : Reaches uploader OneEngine ⟨blank env files coreLocations logWritable, []⟩ x) :
    x.state.queue.engines.length ≤ 1 ∧
      ∀ path, (x.state.log.filter (Output.sends path)).length ≤ 1 := by
  obtain ⟨hl, hp⟩ := ledger_of_reaches hx
  have hle : (x.state.log.filterMap Output.sentItem : Multiset ItemId) ≤
      handed x.stack + x.state.held := by
    refine le_trans ?_ (Multiset.le_add_left _ _)
    exact (Multiset.le_add_right _ _).trans (Multiset.le_add_right _ _)
  refine ⟨hl.one, length_sends_le (Multiset.coe_nodup.mp (Multiset.nodup_of_le hle hl.nodup))
    (fun i hi => hl.bound i (Multiset.mem_of_le hle (Multiset.mem_coe.mpr hi))) hp.sent hp.distinct⟩

/-- The guard, computed. -/
def oneEngine (x : Config) : Action → Bool
  | .event (.enqueue _) => false
  | .event .dispatch => match x.state.posted with
    | .uploadFiles (_ :: _) _ :: _ => x.state.uploader.activated || x.state.queue.engines.isEmpty
    | _ => true
  | _ => true

theorem oneEngine_sound (x : Config) (a : Action) (h : oneEngine x a = true) : OneEngine x a := by
  refine ⟨fun file he => ?_, fun he fileList obey rest hposted hne hact => ?_⟩
  · subst he
    simp [oneEngine] at h
  · subst he
    obtain ⟨path, files, rfl⟩ := List.exists_cons_of_ne_nil hne
    simpa [oneEngine, hposted, hact] using h

def twoReports : Config :=
  ⟨blank .usbCable
    (fun p => if p = "/a.rcore" ∨ p = "/b.rcore" then some ⟨[1, 2], true, none⟩ else none) ["/cores"] true, []⟩

/-- A report is named twice, and once more when its engine is gone. -/
def nameThrice : List Action :=
  [.event (.callUploadFiles ["/a.rcore", "/a.rcore"] false), .event .dispatch,
    .run, .run, .run, .run, .run, .run, .event (.replyFinished 0 ⟨true, some 7⟩), .run, .run, .run,
    .event .dispatch, .event .dispatch,
    .event (.callUploadFiles ["/b.rcore", "/a.rcore"] false), .event .dispatch,
    .run, .run, .run, .run, .run, .run]

def namedThrice : Config := (uploader.run nameThrice twoReports).get (by decide)

/-- The second report is sent by the second engine, and the first not again. -/
theorem report_sent_once_small : namedThrice.state.queue.engines = [1] ∧
    (namedThrice.state.log.filter (Output.sends "/b.rcore")).length = 1 ∧
    (namedThrice.state.log.filter (Output.sends "/a.rcore")).length ≤ 1 :=
  ⟨by decide, by decide, (report_sent_once (Reaches.of_run .start
    (Guarded.of_check oneEngine_sound (by decide))
    (Option.some_get (x := uploader.run nameThrice twoReports) (by decide)).symm)).2 _⟩

/-! ### What the code does when a request comes at the end of a batch -/

/-- The second request is posted before the first report is acknowledged, and
dispatched before the first engine is deleted. -/
def requestAtBatchEnd : List Action := sendReport ++
  [.event (.callUploadFiles ["/b.rcore"] false), .event (.replyFinished 0 ⟨true, some 7⟩),
    .run, .run, .run, .event .dispatch, .run, .run, .run]

def sentTwice : Config := (uploader.run requestAtBatchEnd twoReports).get (by decide)

/-- Two engines are on the queue, and both send the second report. -/
theorem report_sent_twice : ∃ x path,
    Reaches uploader (fun _ a => ∀ file, a ≠ .event (.enqueue file)) twoReports x ∧
      x.state.queue.engines.length = 2 ∧ (x.state.log.filter (Output.sends path)).length = 2 := by
  refine ⟨sentTwice, "/b.rcore", ?_, by decide, by decide⟩
  refine Reaches.of_run .start (Guarded.of_forall ?_ _) (Option.some_get _).symm
  simp [requestAtBatchEnd, sendReport]

end CrashReporter.Upload
