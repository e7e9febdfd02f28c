import CrashReporter.Upload.InFlight
import Mathlib.Data.Multiset.OrderedMonoid
import Mathlib.Tactic.Abel

/-! Which items may start next.

An item may start while it waits in the queue or for the session of an engine, and
when it is being handed out. `Offers` says what one step does to these items: it
takes them from each other's place, and only `enqueue` adds one. `State.held`
counts them, together with the items already sent, so that an item which is held
once is sent at most once. -/
namespace CrashReporter.Upload
open Reactor

variable {s : State}

/-! ### Items that wait, are sent, or are handed out -/

/-- The item that waits for the session of an engine. -/
def Engine.awaits (v : Engine) : Option ItemId := if v.state = .connecting then v.currentItem else none

/-- An item that waits in the queue, or for the session of an engine. -/
def State.Waits (s : State) (i : ItemId) : Prop :=
  i ∈ s.queue.uploadQueue ∨ ∃ e, (s.engines e).awaits = some i

def Output.sentItem : Output → Option ItemId
  | .put _ i _ _ => some i
  | _ => none

/-- The items that were sent, and the ones that wait for an engine of the queue. -/
def State.held (s : State) : Multiset ItemId :=
  s.log.filterMap Output.sentItem + s.queue.uploadQueue +
    s.queue.engines.filterMap (fun e => (s.engines e).awaits)

def Call.item : Call → Option ItemId
  | .uploadItem _ i => some i
  | _ => none

/-- The items that pending calls hand out. -/
def handed (calls : List Call) : Multiset ItemId := calls.filterMap Call.item

/-- Only engines of the queue wait for a session. -/
def State.Attached (s : State) : Prop :=
  ∀ e, (s.engines e).state = .connecting → e ∈ s.queue.engines

theorem Engine.Keeps.awaits {v v' : Engine} (h : v.Keeps v') : v'.awaits = v.awaits ∨ v'.awaits = none := by
  unfold Engine.awaits
  split
  · rename_i hc
    obtain ⟨hv, hi⟩ := h hc
    exact .inl (by rw [if_pos hv, hi])
  · exact .inr rfl

theorem Frame.waits {s s' : State} (h : Frame s s') {i : ItemId} (hi : s'.Waits i) : s.Waits i := by
  rcases hi with hq | ⟨e, hi⟩
  · rcases h.queued with he | he
    · exact .inl (he ▸ hq)
    · simp [he] at hq
  · rcases (h.engines e).awaits with he | he
    · exact .inr ⟨e, he ▸ hi⟩
    · simp [he] at hi

theorem handed_append (calls calls' : List Call) :
    handed (calls ++ calls') = handed calls + handed calls' := by
  simp [handed]

/-- Engines that keep what they await, or let it go, await no more together. -/
theorem awaited_sublist {engines engines' : EngineId → Engine}
    (h : ∀ e, (engines e).Keeps (engines' e)) (es : List EngineId) :
    (es.filterMap fun e => (engines' e).awaits).Sublist (es.filterMap fun e => (engines e).awaits) := by
  induction es with
  | nil => exact .slnil
  | cons e rest ih =>
    rcases (h e).awaits with he | he <;> cases hv : (engines e).awaits <;>
      simp [he, hv, ih, ih.cons]

theorem State.Attached.keeps {s s' : State} (h : s.Attached)
    (hengines : ∀ e, (s.engines e).Keeps (s'.engines e)) (hqueue : s'.queue.engines = s.queue.engines) :
    s'.Attached := fun e hc => hqueue ▸ h e (hengines e hc).1

theorem held_le {s s' : State} (hqueue : s'.queue.uploadQueue = s.queue.uploadQueue ∨
      s'.queue.uploadQueue = [])
    (hengines : ∀ e, (s.engines e).Keeps (s'.engines e)) (hconn : s'.queue.engines = s.queue.engines)
    (hlog : s'.log.filterMap Output.sentItem = s.log.filterMap Output.sentItem) :
    s'.held ≤ s.held := by
  unfold State.held
  rw [hlog, hconn]
  refine add_le_add (add_le_add le_rfl ?_) (Multiset.coe_le.mpr (awaited_sublist hengines _).subperm)
  rcases hqueue with he | he
  · rw [he]
  · simp [he]

/-! ### What one step does -/

/-- Calls that hand out an item or go on with a request. -/
def Call.asks : Call → Bool
  | .uploadItem .. | .addFile .. => true
  | _ => false

theorem handed_of_asks {calls : List Call} (h : ∀ k ∈ calls, k.asks = false) : handed calls = 0 := by
  unfold handed
  rw [List.filterMap_eq_nil_iff.mpr ?_]
  · rfl
  · intro k hk
    have := h k hk
    cases k <;> first | rfl | simp [Call.asks] at this

/-- What a step does to the items that may start: besides those that wait it starts
and hands out only `given` ones, accepts a new one only when it `takes` one, and
goes on with a request only when it is `asked`. When the engine it serves is
`attached` and the queue has one engine at most, no item comes to be held twice. -/
structure Offers (given : Multiset ItemId) (takes : Bool → Prop) (attached asked : Prop) (s : State)
    (r : State × List Call) : Prop where
  env : r.1.env = s.env
  nextItem : s.nextItem ≤ r.1.nextItem
  made : r.1.nextItem = s.nextItem ∨ s.nextItem ∈ given
  added : s.uploader.addedFiles ⊆ r.1.uploader.addedFiles
  engines : s.queue.engines <+: r.1.queue.engines
  unasked : asked ∨ r.1.queue.engines = s.queue.engines
  filepath : ∀ i < s.nextItem, (r.1.items i).filepath = (s.items i).filepath
  waits : ∀ i, r.1.Waits i → s.Waits i ∨ i ∈ given
  calls : ∀ e i, .uploadItem e i ∈ r.2 → e ∈ r.1.queue.engines ∧ (s.Waits i ∨ i ∈ given)
  requests : ∀ path obey, .addFile path obey ∈ r.2 →
    asked ∧ (obey = true → s.env.canUseNetworkConnection = true)
  log : ∃ new, r.1.log = new ++ s.log ∧ (∀ i, .startUpload i ∈ new → s.Waits i ∨ i ∈ given) ∧
    (∀ c i path body, i < s.nextItem → .put c i path body ∈ new → path = (s.items i).filepath) ∧
    ∀ i obey, .accepted i obey ∈ new → i = s.nextItem ∧ i < r.1.nextItem ∧ takes obey
  held : attached → s.Attached → r.1.queue.engines.length ≤ 1 →
    r.1.Attached ∧ handed r.2 + r.1.held ≤ given + s.held

theorem eq_singleton_of_mem {es : List EngineId} {e : EngineId} (h : es.length ≤ 1) (he : e ∈ es) :
    es = [e] := by
  rcases es with _ | ⟨e', _ | ⟨e'', es⟩⟩
  · simp at he
  · rw [List.mem_singleton.mp he]
  · simp at h

/-- One engine gets the item. -/
theorem handed_le (i : ItemId) {es : List EngineId} (h : es.length ≤ 1) :
    handed (es.map (Call.uploadItem · i)) ≤ {i} := by
  rcases es with _ | ⟨e, _ | ⟨e', es⟩⟩
  · exact Multiset.zero_le _
  · exact le_rfl
  · simp at h

namespace Offers
variable {given : Multiset ItemId} {takes : Bool → Prop} {attached asked : Prop} {t : State}
  {r : State × List Call}

theorem asks_of_tame {k : Call} (h : k.Tame s) : k.asks = false := by
  cases k <;> first | rfl | exact h.elim

theorem sentItem_of_minor {new : List Output} (h : ∀ o ∈ new, o.minor = true) :
    new.filterMap Output.sentItem = [] := by
  refine List.filterMap_eq_nil_iff.mpr fun o ho => ?_
  have := h o ho
  cases o <;> first | rfl | simp [Output.minor] at this

theorem of_minor (h : Minor s r) : Offers given takes attached asked s r where
  env := h.frame.env
  nextItem := Nat.le_of_eq h.frame.nextItem.symm
  made := .inl h.frame.nextItem
  added := by rw [h.frame.uploader]; exact List.Subset.refl _
  engines := h.frame.connected ▸ List.prefix_rfl
  unasked := .inr h.frame.connected
  filepath i _ := h.frame.filepath i
  waits _ hi := .inl (h.frame.waits hi)
  calls e i hk := (h.tame _ hk).elim
  requests path obey hk := (h.tame _ hk).elim
  log := by
    obtain ⟨new, hl, hm⟩ := h.frame.log
    refine ⟨new, hl, fun i hi => ?_, fun c i path body _ hi => ?_, fun i obey hi => ?_⟩ <;>
      exact absurd (hm _ hi) (by simp [Output.minor])
  held _ ha _ := by
    obtain ⟨new, hl, hm⟩ := h.frame.log
    refine ⟨ha.keeps h.frame.engines h.frame.connected, ?_⟩
    rw [handed_of_asks fun k hk => asks_of_tame (h.tame k hk), zero_add]
    refine (held_le h.frame.queued h.frame.engines h.frame.connected ?_).trans (Multiset.le_add_left _ _)
    rw [hl, List.filterMap_append, sentItem_of_minor hm, List.nil_append]

/-- One after the other. -/
theorem comp {given' : Multiset ItemId} (h : Offers given takes attached asked s (t, []))
    (h' : Offers given' (fun _ => False) attached asked t r) :
    Offers (given + given') takes attached asked s r where
  env := h'.env.trans h.env
  nextItem := Nat.le_trans h.nextItem h'.nextItem
  made := by
    rcases h.made with he | hi
    · exact h'.made.imp (·.trans he) fun hi => Multiset.mem_add.mpr (.inr (he ▸ hi))
    · exact .inr (Multiset.mem_add.mpr (.inl hi))
  added := List.Subset.trans h.added h'.added
  engines := h.engines.trans h'.engines
  unasked := h'.unasked.elim .inl fun he' => h.unasked.imp_right (he'.trans ·)
  filepath i hi := (h'.filepath i (Nat.lt_of_lt_of_le hi h.nextItem)).trans (h.filepath i hi)
  waits i hi := by
    have := (h'.waits i hi).imp_left (h.waits i)
    grind
  calls e i hk := by
    have := (h'.calls e i hk).2.imp_left (h.waits i)
    exact ⟨(h'.calls e i hk).1, by grind⟩
  requests path obey hk := h.env ▸ h'.requests path obey hk
  log := by
    obtain ⟨new, hl, hs, hp, ha⟩ := h.log
    obtain ⟨new', hl', hs', hp', ha'⟩ := h'.log
    refine ⟨new' ++ new, by rw [hl', hl, List.append_assoc], fun i hi => ?_, fun c i path body hlt hi => ?_,
      fun i obey hi => ?_⟩
    · rcases List.mem_append.mp hi with hi | hi
      · have := (hs' i hi).imp_left (h.waits i)
        grind
      · have := hs i hi
        grind
    · rcases List.mem_append.mp hi with hi | hi
      · have hp := hp' c i path body (Nat.lt_of_lt_of_le hlt h.nextItem) hi
        exact hp.trans (h.filepath i hlt)
      · exact hp c i path body hlt hi
    · rcases List.mem_append.mp hi with hi | hi
      · exact (ha' i obey hi).2.2.elim
      · obtain ⟨he, hlt, htakes⟩ := ha i obey hi
        exact ⟨he, Nat.lt_of_lt_of_le hlt h'.nextItem, htakes⟩
  held hatt ha hone := by
    obtain ⟨ht, hle⟩ := h.held hatt ha (h'.engines.length_le.trans hone)
    obtain ⟨hr, hle'⟩ := h'.held hatt ht hone
    have hle0 : t.held ≤ given + s.held := by simpa [handed] using hle
    refine ⟨hr, hle'.trans ?_⟩
    rw [add_comm given given', add_assoc]
    exact add_le_add le_rfl hle0

theorem seq (h : Offers given takes attached asked s (t, []))
    (h' : Offers 0 (fun _ => False) attached asked t r) : Offers given takes attached asked s r := by
  simpa using h.comp h'

theorem after (h : Offers 0 takes attached asked s (t, []))
    (h' : Offers given (fun _ => False) attached asked t r) : Offers given takes attached asked s r := by
  simpa using h.comp h'

theorem append (h : Offers given takes attached asked s r) {calls : List Call}
    (hc : ∀ k ∈ calls, k.asks = false) : Offers given takes attached asked s (r.1, r.2 ++ calls) :=
  {h with
    calls := fun e i hk => (List.mem_append.mp hk).elim (h.calls e i) fun hk => nomatch hc _ hk
    requests := fun path obey hk =>
      (List.mem_append.mp hk).elim (h.requests path obey) fun hk => nomatch hc _ hk
    held := by
      rw [handed_append, handed_of_asks hc, add_zero]
      exact h.held}

/-- A step that hands out, takes in and starts nothing. -/
theorem of_same (henv : r.1.env = s.env) (hnext : r.1.nextItem = s.nextItem)
    (hadded : s.uploader.addedFiles ⊆ r.1.uploader.addedFiles) (hqueue : r.1.queue = s.queue)
    (hitems : ∀ i, (r.1.items i).filepath = (s.items i).filepath)
    (hengines : ∀ e, (s.engines e).Keeps (r.1.engines e)) (hcalls : ∀ k ∈ r.2, k.asks = false)
    (hlog : ∃ new, r.1.log = new ++ s.log ∧ new.filterMap Output.sentItem = [] ∧
      ∀ i obey, .startUpload i ∉ new ∧ .accepted i obey ∉ new) :
    Offers given takes attached asked s r where
  env := henv
  nextItem := Nat.le_of_eq hnext.symm
  made := .inl hnext
  added := hadded
  engines := hqueue ▸ List.prefix_rfl
  unasked := .inr (by rw [hqueue])
  filepath i _ := hitems i
  waits i hi := by
    rcases hi with hq | ⟨e, hi⟩
    · exact .inl (.inl (hqueue ▸ hq))
    · rcases (hengines e).awaits with he | he
      · exact .inl (.inr ⟨e, he ▸ hi⟩)
      · simp [he] at hi
  calls e i hk := nomatch hcalls _ hk
  requests path obey hk := nomatch hcalls _ hk
  log := by
    obtain ⟨new, hl, hput, hn⟩ := hlog
    refine ⟨new, hl, fun i hi => absurd hi (hn i true).1, fun c i path body _ hi => ?_,
      fun i obey hi => absurd hi (hn i obey).2⟩
    exact absurd (List.filterMap_eq_nil_iff.mp hput _ hi) (by simp [Output.sentItem])
  held _ ha _ := by
    obtain ⟨new, hl, hput, -⟩ := hlog
    refine ⟨ha.keeps hengines (by rw [hqueue]), ?_⟩
    rw [handed_of_asks hcalls, zero_add]
    refine (held_le (.inl (by rw [hqueue])) hengines (by rw [hqueue]) ?_).trans
      (Multiset.le_add_left _ _)
    rw [hl, List.filterMap_append, hput, List.nil_append]

theorem emitNextItem : Offers given takes attached asked s (UploadQueue.emitNextItem s) := by
  unfold UploadQueue.emitNextItem
  split
  · exact of_same rfl rfl (List.Subset.refl _) rfl (fun _ => rfl) (fun e => .refl _) (by simp)
      ⟨[.fault .emptyQueue], rfl, rfl, by simp⟩
  · rename_i i rest hq
    refine ⟨rfl, Nat.le_refl _, .inl rfl, List.Subset.refl _, List.prefix_rfl, .inr rfl, fun _ _ => rfl,
      fun j hj => .inl ?_, fun e j hk => ?_, by simp, ⟨[.nextItem i], rfl, by simp, by simp, by simp⟩,
      fun _ ha hone => ⟨ha, ?_⟩⟩
    · exact hj.imp (fun hj => hq ▸ List.mem_cons_of_mem _ hj) id
    · obtain ⟨e', he, heq⟩ := List.mem_map.mp hk
      cases heq
      exact ⟨he, .inl (.inl (hq ▸ List.mem_cons_self ..))⟩
    · refine le_trans ?_ (Multiset.le_add_left _ _)
      have hheld : s.held = {i} + (s.log.filterMap Output.sentItem + rest +
          (s.queue.engines.filterMap fun e => (s.engines e).awaits)) := by
        simp only [State.held, hq, ← Multiset.cons_coe, ← Multiset.singleton_add]
        abel
      rw [hheld]
      exact add_le_add (handed_le i hone) le_rfl

/-- The one function that makes an item. -/
theorem enqueueNew (path : Path) (hnew : s.nextItem ∈ given) :
    Offers given takes attached asked s (UploadQueue.enqueueNew path s) := by
  have hin (v : Queue) (hv : v.uploadQueue = s.queue.uploadQueue ++ [s.nextItem])
      (he : v.engines = s.queue.engines) : Offers given takes attached asked s
        (((UploadQueue.newItem path s).setQueue v).emit (.enqueued s.nextItem), []) := by
    refine ⟨rfl, Nat.le_succ _, .inr hnew, List.Subset.refl _, he ▸ List.prefix_rfl, .inr he, fun i hi => ?_,
      fun j hj => ?_, by simp, by simp, ⟨[.enqueued s.nextItem], rfl, by simp, by simp, by simp⟩,
      fun _ ha hone => ⟨?_, ?_⟩⟩
    · simp [UploadQueue.newItem, Nat.ne_of_lt hi]
    · rcases hj with hj | hj
      · rcases List.mem_append.mp (hv ▸ hj) with hj | hj
        · exact .inl (.inl hj)
        · exact .inr (List.mem_singleton.mp hj ▸ hnew)
      · exact .inl (.inr hj)
    · exact fun e hc => he ▸ ha e hc
    · show 0 + _ ≤ _
      rw [zero_add]
      have hheld : (((UploadQueue.newItem path s).setQueue v).emit (.enqueued s.nextItem)).held =
          {s.nextItem} + s.held := by
        show (s.log.filterMap Output.sentItem + v.uploadQueue +
          (v.engines.filterMap fun e => (s.engines e).awaits) : Multiset ItemId) = _
        rw [hv, he, ← Multiset.coe_add, Multiset.coe_singleton, State.held]
        abel
      exact hheld ▸ add_le_add (Multiset.singleton_le.mpr hnew) le_rfl
  unfold UploadQueue.enqueueNew UploadQueue.enqueue
  dsimp only
  split
  · refine Offers.append (Offers.seq (hin _ ?_ ?_) emitNextItem) ?_
    all_goals simp [UploadQueue.newItem, Call.asks]
  · refine Offers.append (hin _ ?_ ?_) ?_
    all_goals simp [UploadQueue.newItem, Call.asks]

/-- An upload starts for an item that is given, or that its engine waits with. -/
theorem startUpload {e : EngineId} {i : ItemId} {v : Engine} (hv : v.state ≠ .connecting)
    (hi : i ∈ given ∨ (s.engines e).awaits = some i) :
    Offers given takes attached asked s ((UploadItem.startUpload i (s.setEngine e v)).1, []) := by
  have hkeeps (e' : EngineId) : (s.engines e').Keeps ((s.setEngine e v).engines e') := by
    rcases eq_or_ne e' e with rfl | he
    · exact .of_state (by simpa using hv)
    · simpa [he] using Engine.Keeps.refl _
  have hwaits : s.Waits i ∨ i ∈ given := hi.elim .inr fun h => .inl (.inr ⟨e, h⟩)
  -- Sent or not, the item is no longer waited with.
  have hheld (ha : s.Attached) (hone : s.queue.engines.length ≤ 1) :
      {i} + (s.setEngine e v).held ≤ given + s.held := by
    rcases hi with hi | hi
    · exact add_le_add (Multiset.singleton_le.mpr hi) (held_le (.inl rfl) hkeeps rfl rfl)
    · have hc : (s.engines e).state = .connecting := by
        unfold Engine.awaits at hi
        exact (Option.ite_none_right_eq_some.mp hi).1
      have hes := eq_singleton_of_mem hone (ha e hc)
      have hvn : v.awaits = none := if_neg hv
      refine le_trans ?_ (Multiset.le_add_left _ _)
      simp only [State.held, State.setEngine_queue, State.setEngine_log, State.setEngine_engines, hes]
      simp [hi, hvn, add_comm]
  have hw (j : ItemId) (hj : (s.setEngine e v).Waits j) : s.Waits j := by
    refine hj.imp id fun ⟨e', hj⟩ => ⟨e', ?_⟩
    exact (hkeeps e').awaits.elim (fun h => h ▸ hj) fun h => nomatch h.symm.trans hj
  have hpath (j : ItemId) (http : Option ClientId) (status : ItemStatus) :
      (Function.update s.items i {s.items i with http := http, status := status} j).filepath =
        (s.items j).filepath := by
    rcases eq_or_ne j i with rfl | hj
    · simp
    · simp [hj]
  cases hb : HttpClient.createPutRequest ((s.setEngine e v).items i).filepath (s.setEngine e v) with
  | none =>
    rw [UploadItem.startUpload_failed i hb]
    refine ⟨rfl, Nat.le_refl _, .inl rfl, List.Subset.refl _, List.prefix_rfl, .inr rfl, fun j _ => hpath j _ _,
      fun j hj => .inl (hw j hj), by simp, by simp, ⟨[.startUpload i], rfl, by simpa using hwaits, by simp, by simp⟩,
      fun _ ha hone => ⟨ha.keeps hkeeps rfl, ?_⟩⟩
    refine le_trans ?_ (hheld ha hone)
    exact add_le_add (Multiset.zero_le _) le_rfl
  | some body =>
    rw [UploadItem.startUpload_sent i hb]
    refine ⟨rfl, Nat.le_refl _, .inl rfl, List.Subset.refl _, List.prefix_rfl, .inr rfl, fun j _ => hpath j _ _,
      fun j hj => .inl (hw j hj), by simp, by simp, ⟨[_, .startUpload i], rfl, by simpa using hwaits, ?_, by simp⟩,
      fun _ ha hone => ⟨ha.keeps hkeeps rfl, ?_⟩⟩
    · intro c j path b _ hj
      simp only [List.mem_cons, Output.put.injEq, reduceCtorEq, List.not_mem_nil, or_false] at hj
      rw [hj.2.2.1, hj.2.1]
      rfl
    · refine le_of_eq_of_le ?_ (hheld ha hone)
      show 0 + (((i :: s.log.filterMap Output.sentItem : List ItemId) : Multiset ItemId) + _ + _) = _
      rw [← Multiset.cons_coe, ← Multiset.singleton_add, zero_add, State.held, add_assoc, add_assoc,
        add_assoc]
      rfl

/-- An item that is given comes to wait for the session of its engine. -/
theorem awaitItem {e : EngineId} {i : ItemId} (hi : i ∈ given) (he : attached → e ∈ s.queue.engines)
    (v : Engine) (hv : v.currentItem = some i) :
    Offers given takes attached asked s (s.setEngine e v, []) := by
  have haw : v.awaits = some i ∨ v.awaits = none := by
    unfold Engine.awaits
    split
    · exact .inl hv
    · exact .inr rfl
  refine ⟨rfl, Nat.le_refl _, .inl rfl, List.Subset.refl _, List.prefix_rfl, .inr rfl, fun _ _ => rfl,
    fun j hj => ?_, by simp, by simp, ⟨[], rfl, by simp, by simp, by simp⟩, fun hatt ha hone => ⟨fun e' hc => ?_, ?_⟩⟩
  · rcases hj with hj | ⟨e', hj⟩
    · exact .inl (.inl hj)
    · rcases eq_or_ne e' e with rfl | hne
      · simp only [State.setEngine_engines, Function.update_self] at hj
        rcases haw with h | h <;> rw [h] at hj <;> cases hj
        exact .inr hi
      · exact .inl (.inr ⟨e', by simpa [hne] using hj⟩)
  · rcases eq_or_ne e' e with rfl | hne
    · exact he hatt
    · exact ha e' (by simpa [hne] using hc)
  · have hes := eq_singleton_of_mem hone (he hatt)
    simp only [State.setEngine_queue] at hes
    have hnew : ((s.setEngine e v).queue.engines.filterMap
        fun e' => ((s.setEngine e v).engines e').awaits : Multiset ItemId) ≤ given := by
      rcases haw with h | h <;> simp [hes, h, hi]
    calc 0 + (s.setEngine e v).held
        = (s.log.filterMap Output.sentItem + s.queue.uploadQueue) + _ := zero_add _
      _ ≤ (s.log.filterMap Output.sentItem + s.queue.uploadQueue) + given := add_le_add le_rfl hnew
      _ ≤ given + s.held := by
        rw [add_comm]
        exact add_le_add le_rfl (Multiset.le_add_right _ _)

theorem uploadItem (e : EngineId) (i : ItemId) (hi : i ∈ given) (he : attached → e ∈ s.queue.engines) :
    Offers given takes attached asked s (UploadEngine.uploadItem e i s) := by
  have hlisten (listeners : List EngineId) : Offers 0 takes attached asked s
      (s.setItem i {s.items i with listeners := listeners}, []) := by
    refine of_same rfl rfl (List.Subset.refl _) rfl (fun j => ?_) (fun _ => .refl _) (by simp) ⟨[], rfl, rfl, by simp⟩
    rcases eq_or_ne j i with rfl | hj
    · simp
    · simp [hj]
  rw [UploadEngine.uploadItem_eq]
  split
  · have hconnect : UploadEngine.stateChange e .connected (UploadEngine.take e i s) =
        (s.setItem i {s.items i with listeners := (s.items i).listeners ++ [e]}).setEngine e
          {s.engines e with currentItem := some i, state := .connected} := by
      simp [UploadEngine.take, UploadEngine.stateChange, State.setEngine, State.setItem]
    rw [hconnect]
    refine (hlisten _).after (startUpload ?_ (.inl hi))
    simp
  · have hwait : NwSessionMgr.setSession e (some ⟨false, true⟩) (UploadEngine.take e i s) =
        (s.setItem i {s.items i with listeners := (s.items i).listeners ++ [e]}).setEngine e
          {s.engines e with
            currentItem := some i, state := .connecting, networkSession := some ⟨false, true⟩} := by
      simp [UploadEngine.take, UploadEngine.stateChange, NwSessionMgr.setSession, State.setEngine,
        State.setItem]
    rw [hwait]
    refine Offers.append ((hlisten _).after (awaitItem hi ?_ _ rfl)) ?_
    · exact he
    · simp [Call.asks]

theorem sessionOpened (e : EngineId) :
    Offers given takes attached asked s (UploadEngine.sessionOpened e s, []) := by
  have hconnect : Offers given takes attached asked s (UploadEngine.stateChange e .connected s, []) :=
    of_minor (.of_frame (UploadEngine.frame_stateChange e (by decide)))
  unfold UploadEngine.sessionOpened
  split
  · rename_i hc
    split
    · exact of_minor (.of_frame (.refl s))
    · rename_i i hi
      dsimp only
      split
      · refine startUpload ?_ (.inr ?_)
        · simp
        · rw [Engine.awaits, if_pos hc, hi]
      · exact hconnect.seq (of_minor (.of_frame (.emit rfl)))
  · exact of_minor (.of_frame (.refl s))

theorem removeFile (path : Path) :
    Offers given takes attached asked s (HttpClient.removeFile path s, []) := by
  unfold HttpClient.removeFile
  split
  · exact of_minor (.of_frame (.refl s))
  · exact of_same rfl rfl (List.Subset.refl _) rfl (fun _ => rfl) (fun _ => .refl _) (by simp)
      ⟨[.removed path], rfl, rfl, by simp⟩

end Offers

/-! ### The uploader's own functions -/

section Uploader
variable {given : Multiset ItemId} {takes : Bool → Prop} {attached asked : Prop}

theorem offers_emit {o : Output} (hput : o.sentItem = none) (hstart : ∀ i, o ≠ .startUpload i)
    (hacc : ∀ i obey, o ≠ .accepted i obey) : Offers given takes attached asked s (s.emit o, []) := by
  refine .of_same rfl rfl (List.Subset.refl _) rfl (fun _ => rfl) (fun _ => .refl _) (by simp)
    ⟨[o], rfl, by simp [hput], fun i obey => ⟨?_, ?_⟩⟩
  · exact fun h => hstart i (List.mem_singleton.mp h).symm
  · exact fun h => hacc i obey (List.mem_singleton.mp h).symm

theorem offers_quitTail : Offers given takes attached asked s (AutoUploader.quitTail s, []) := by
  unfold AutoUploader.quitTail AutoUploader.quitApplication
  split
  · exact .of_same rfl rfl (List.Subset.refl _) rfl (fun _ => rfl) (fun _ => .refl _) (by simp)
      ⟨[.fault .nullEngine], rfl, rfl, by simp⟩
  · rename_i e _
    refine .of_same rfl rfl (List.Subset.refl _) rfl (fun _ => rfl) (fun e' => ?_) (by simp)
      ⟨[.deleteLater e], rfl, rfl, by simp⟩
    rcases eq_or_ne e' e with rfl | he
    · exact .of_eq (by simp) (by simp)
    · simpa [he] using Engine.Keeps.refl _

theorem offers_quit (cause : Quitter) : Offers given takes attached asked s (AutoUploader.quit cause s) := by
  have hemit : Offers given takes attached asked s (s.emit (.quit cause), []) :=
    offers_emit rfl (by simp) (by simp)
  unfold AutoUploader.quit
  dsimp only
  split
  · exact .of_same rfl rfl (List.Subset.refl _) rfl (fun _ => rfl) (fun _ => .refl _) (by simp)
      ⟨[.quit cause], rfl, rfl, by simp⟩
  · split
    · exact .of_same rfl rfl (List.Subset.refl _) rfl (fun _ => rfl) (fun _ => .refl _)
        (by simp [Call.asks]) ⟨[.quit cause], rfl, rfl, by simp⟩
    · exact hemit.seq offers_quitTail

theorem offers_engineFinished (error : ErrorType) (sent total : Nat) :
    Offers given takes attached asked s (AutoUploader.engineFinished error sent total s) := by
  have hask : Offers given takes attached asked s (AutoUploader.askReason error s, []) := by
    unfold AutoUploader.askReason
    split
    · exact offers_emit rfl (by simp) (by simp)
    · exact .of_minor (.of_frame (.refl s))
  have hnotify (t : State) :
      Offers 0 (fun _ => False) attached asked t (AutoUploader.notifyFinished sent total t, []) :=
    .of_minor (.of_frame (AutoUploader.frame_notifyFinished sent total))
  refine (hask.seq (hnotify _)).seq (Offers.seq ?_ (offers_quit .batchEnd))
  exact .of_same rfl rfl (List.Subset.refl _) rfl (fun _ => rfl) (fun _ => .refl _) (by simp)
    ⟨[], rfl, rfl, by simp⟩

/-- A second engine on the queue is the one case in which the queue gets longer. -/
theorem offers_activate (hasked : asked) :
    Offers given takes attached asked s (AutoUploader.activate s, []) := by
  cases ha : s.uploader.activated with
  | true =>
    rw [AutoUploader.activate_active ha]
    exact .of_minor (.of_frame (.refl s))
  | false =>
    rw [AutoUploader.activate_new ha]
    have hengine (e : EngineId) : (s.engines e).Keeps (Function.update s.engines s.nextEngine
        { state := .noConnection, currentItem := none, errorMessage := none, error := .noError,
          sentFiles := 0, networkSession := none, reported := true } e) := by
      rcases eq_or_ne e s.nextEngine with rfl | he
      · exact .of_state (by simp)
      · simpa [he] using Engine.Keeps.refl _
    refine ⟨rfl, Nat.le_refl _, .inl rfl, List.Subset.refl _, List.prefix_append _ _, .inl hasked, fun _ _ => rfl, ?_,
      by simp, by simp, ⟨[], rfl, by simp, by simp, by simp⟩, fun _ ha hone => ⟨?_, ?_⟩⟩
    · rintro j (hj | ⟨e, hj⟩)
      · exact .inl (.inl hj)
      · exact (hengine e).awaits.elim (fun h => .inl (.inr ⟨e, h ▸ hj⟩)) fun h => nomatch h.symm.trans hj
    · exact fun e hc => List.mem_append_left _ (ha e (hengine e hc).1)
    · -- With one engine at most, the queue had none before.
      have hnone : s.queue.engines = [] := by
        have hlen : (s.queue.engines ++ [s.nextEngine]).length ≤ 1 := hone
        rw [List.length_append] at hlen
        exact List.length_eq_zero_iff.mp (by simpa using hlen)
      refine le_trans ?_ (Multiset.le_add_left _ _)
      simp [State.held, hnone, Engine.awaits, handed]

theorem offers_uploadFiles (fileList : List Path) (obey : Bool) (hasked : fileList ≠ [] → asked) :
    Offers given takes attached asked s (AutoUploader.uploadFiles fileList obey s) := by
  unfold AutoUploader.uploadFiles
  dsimp only
  split
  · exact .of_minor (.of_frame (.emit rfl))
  · rename_i hne
    have hasked := hasked (by simpa using hne)
    have hactivate : Offers given takes attached asked s (AutoUploader.activate s, []) :=
      offers_activate hasked
    split
    · refine hactivate.seq (.of_same rfl rfl (List.Subset.refl _) rfl (fun _ => rfl) (fun _ => .refl _)
        (by simp) ?_)
      exact ⟨[.returned false], rfl, rfl, by simp⟩
    · rename_i hr
      have hhanded : handed (fileList.map (Call.addFile · obey) ++ [.filesAdded fileList.length]) = 0 := by
        have hnone : (fileList.map (Call.addFile · obey)).filterMap Call.item = [] := by
          simp [List.filterMap_map, Call.item]
        simp [handed, hnone, Call.item]
      refine {hactivate with
        calls := by simp, requests := fun path b hk => ⟨hasked, fun hb => ?_⟩
        held := hhanded ▸ hactivate.held}
      obtain ⟨path', -, heq⟩ := List.mem_map.mp ((List.mem_append.mp hk).resolve_right (by simp))
      cases heq
      subst hb
      rw [← hactivate.env]
      simp only [AutoUploader.refused, Bool.true_and, Bool.or_eq_true, Bool.not_eq_true', not_or] at hr
      simpa using hr.1

theorem offers_addFile (path : Path) (obey : Bool) (htakes : takes obey)
    (hnew : path ∉ s.uploader.addedFiles → s.nextItem ∈ given) :
    Offers given takes attached asked s (AutoUploader.addFile path obey s) := by
  unfold AutoUploader.addFile
  split
  · rename_i hpath
    have h : Offers given takes attached asked (s.emit (.accepted s.nextItem obey))
        (UploadQueue.enqueueNew path (s.emit (.accepted s.nextItem obey))) :=
      .enqueueNew path (hnew (by simpa using hpath))
    have hs : Offers given takes attached asked s
        (UploadQueue.enqueueNew path (s.emit (.accepted s.nextItem obey))) := by
      refine {h with log := ?_, held := h.held}
      obtain ⟨new, hl, hs, hp, ha⟩ := h.log
      refine ⟨new ++ [.accepted s.nextItem obey], by rw [hl, List.append_assoc]; rfl,
        fun i hi => hs i (by simpa using hi), fun c i path b hlt hi => hp c i path b hlt (by simpa using hi),
        fun i b hi => ?_⟩
      rcases List.mem_append.mp hi with hi | hi
      · exact ha i b hi
      · cases List.mem_singleton.mp hi
        refine ⟨rfl, ?_, htakes⟩
        rw [UploadQueue.enqueueNew_nextItem]
        exact Nat.lt_succ_self _
    exact hs.append (by simp [Call.asks])
  · exact .of_minor (.of_frame (.refl s))

end Uploader

/-! ### One step -/

/-- The items that a call may start or hand out though they do not wait. -/
def Call.gives (s : State) : Call → Multiset ItemId
  | .uploadItem _ i => {i}
  | .addFile path _ => if path ∈ s.uploader.addedFiles then 0 else {s.nextItem}
  | _ => 0

/-- Whether a call accepts an item, with or without restrictions. -/
def Call.takes : Call → Bool → Prop
  | .addFile _ obey, b => b = obey
  | _, _ => False

/-- The engine that a call serves is on the queue. -/
def Call.Attached (s : State) : Call → Prop
  | .uploadItem e _ => e ∈ s.queue.engines
  | _ => True

theorem offers_exec {k : Call} (hu : Uploads s) (hk : k.Spent s) :
    Offers (k.gives s) k.takes (k.Attached s) False s (exec k s) := by
  have htame (ht : k.Tame s) : Offers (k.gives s) k.takes (k.Attached s) False s (exec k s) := by
    rcases exec_tame ht hu.owned with hm | ⟨t, ht, heq⟩ | ⟨e, error, sent, total, -, heq⟩
    · exact .of_minor hm
    · rw [heq]
      exact (Offers.of_minor (.of_frame ht)).seq .emitNextItem
    · rw [heq]
      exact offers_engineFinished error sent total
  cases k with
  | uploadItem e i => exact .uploadItem e i (Multiset.mem_singleton_self i) id
  | addFile path obey => exact offers_addFile path obey rfl fun h => by simp [Call.gives, h]
  | fileAdded path =>
    exact .of_same rfl rfl (List.subset_append_left _ _) rfl (fun _ => rfl) (fun _ => .refl _)
      (by simp [exec]) ⟨[], rfl, rfl, by simp⟩
  | quitTail => exact offers_quitTail
  | uploadFinished | queueDone | finished | sessionOpen | sessionGone | aborted | cancelled
  | itemEnqueued | filesAdded | cancelAll | exited => exact htame hk

/-- An item put into the queue from outside. -/
def Event.gives (s : State) : Event → Multiset ItemId
  | .enqueue _ => {s.nextItem}
  | _ => 0

/-- The event dispatches a request with files. -/
def Event.asks (s : State) (ev : Event) : Prop := ev = .dispatch ∧
  ∃ fileList obey rest, s.posted = .uploadFiles fileList obey :: rest ∧ fileList ≠ []

/-- Events within the queue of the process; the end of an engine is not one. -/
theorem offers_deliver {ev : Event} {r : State × List Call} (hu : Uploads s)
    (hr : deliver ev s = some r) (henv : ∀ env, ev ≠ .environment env) :
    Offers (ev.gives s) (fun _ => False) True (ev.asks s) s r ∨
      ∃ e rest, ev = .dispatch ∧ s.posted = .deleteEngine e :: rest ∧
        r = ({s with posted := rest}.deleteEngine e, []) := by
  have hplain (hp : ev.plain s = true) : Offers (ev.gives s) (fun _ => False) True (ev.asks s) s r :=
    .of_minor (deliver_plain hp hu.owned hu.running hr)
  cases ev with
  | enqueue file =>
    cases hr
    exact .inl (.enqueueNew file (Multiset.mem_singleton_self _))
  | dispatch =>
    simp only [deliver, dispatch] at hr
    have hset (posted : List Posted) :
        Offers 0 (fun _ => False) True (Event.asks s .dispatch) s ({s with posted := posted}, []) :=
      .of_same rfl rfl (List.Subset.refl _) rfl (fun _ => rfl) (fun _ => .refl _) (by simp)
        ⟨[], rfl, rfl, by simp⟩
    split at hr
    · simp at hr
    · rename_i m rest hposted
      cases m <;> obtain rfl := (Option.some.inj hr).symm
      · exact .inl ((hset _).seq (offers_uploadFiles _ _ fun hne => ⟨rfl, _, _, _, hposted, hne⟩))
      · exact .inl ((hset _).seq (offers_quit _))
      · rename_i i
        refine .inl (.of_same rfl rfl (List.Subset.refl _) rfl (fun j => ?_) (fun _ => .refl _) (by simp)
          ⟨[], rfl, rfl, by simp⟩)
        rcases eq_or_ne j i with rfl | hj
        · simp
        · simp [hj]
      · exact .inr ⟨_, rest, rfl, hposted, rfl⟩
  | quitTimer =>
    simp only [deliver, Option.ite_none_right_eq_some, Option.some.injEq] at hr
    obtain ⟨-, rfl⟩ := hr
    have hset : Offers 0 (fun _ => False) True (Event.asks s .quitTimer) s
        ({s with quitTimers := s.quitTimers - 1}, []) :=
      .of_same rfl rfl (List.Subset.refl _) rfl (fun _ => rfl) (fun _ => .refl _) (by simp)
        ⟨[], rfl, rfl, by simp⟩
    exact .inl (hset.seq (offers_quit _))
  | exit =>
    simp only [deliver, Option.ite_none_right_eq_some, Option.some.injEq] at hr
    obtain ⟨-, rfl⟩ := hr
    exact .inl ((offers_quit _).append (by simp [Call.asks]))
  | session e signal =>
    cases signal with
    | opened =>
      simp only [deliver, Option.ite_none_right_eq_some, Option.some.injEq] at hr
      obtain ⟨-, rfl⟩ := hr
      have hset := Minor.of_frame (NwSessionMgr.frame_setSession e (some ⟨true, false⟩) (s := s))
      exact .inl ((Offers.of_minor hset).seq (.sessionOpened e))
    | error | disconnected => exact .inl (hplain (by simp [Event.plain]))
  | replyFinished c answer =>
    obtain ⟨t, ht, rfl | ⟨-, rfl⟩⟩ := replyFinished_cases hr
    · exact .inl (.of_minor (.after ht (HttpClient.minor_finished c)))
    · exact .inl (((Offers.of_minor (.of_frame ht)).seq (.removeFile _)).seq
        (.of_minor (HttpClient.minor_finished c)))
  | environment env => exact absurd rfl (henv env)
  | file | coreLocations =>
    cases hr
    exact .inl (.of_same rfl rfl (List.Subset.refl _) rfl (fun _ => rfl) (fun _ => .refl _) (by simp)
      ⟨[], rfl, rfl, by simp⟩)
  | cancelAll | callUploadFiles | callQuit | replyError | uploadProgress | sslErrors | timeout =>
    exact .inl (hplain rfl)

end CrashReporter.Upload
