import CrashReporter.Service

/-! The course of one batch.

Once its first item was handed out, a batch is under way until it is reported
(`Underway`). A cancel ends it: what is queued is never handed out (`Doomed`), and the
batch is reported once, unless something is enqueued or the last item is cancelled once
more (`Closing`). Until one of its items fails there is hope that all are answered, and
when the queue is emptied they were (`Hopeful`). -/
namespace CrashReporter.Service
variable {ι : Type} {s t : Service ι}

def HasReport (trace : List (Mark ι)) : Prop := ∃ sent total, .reported sent total ∈ trace

theorem HasReport.cons {trace : List (Mark ι)} (h : HasReport trace) (m : Mark ι) : HasReport (m :: trace) := by
  obtain ⟨sent, total, hm⟩ := h
  exact ⟨sent, total, List.mem_cons_of_mem _ hm⟩

theorem Move.hasReport {l : Label} (hm : Move s l t) (h : HasReport s.trace) : HasReport t.trace := by
  cases hm with
  | count | take | fail | cancel | cut | abandon | echo => exact h
  | enqueue | start | stall | answer | report => exact h.cons _
  | hand | next | last | again => exact (h.cons _).cons _
  | drop => exact ((h.cons _).cons _).cons _

/-- A batch is under way, or one has been reported. -/
def Underway (s : Service ι) : Prop :=
  (s.phase ≠ .idle ∧ ∀ i, s.phase ≠ .echo i) ∨ HasReport s.trace

theorem Move.underway {l : Label} (hm : Move s l t) (h : Underway s) : Underway t := by
  rcases h with ⟨hidle, hecho⟩ | h
  · cases hm with
    | enqueue | count => exact .inl ⟨hidle, hecho⟩
    | report => exact .inr ⟨_, _, List.mem_cons_self ..⟩
    | echo _ hp => exact absurd hp hidle
    | _ => exact .inl (by simp)
  · exact .inr (hm.hasReport h)

theorem Run.underway {labels : List Label} (hr : Run s labels t) (h : Underway s) : Underway t :=
  hr.invariant (P := fun _ => True) (fun _ _ _ hm _ h => hm.underway h) (fun _ _ => trivial) h

/-- A move adds marks, and only a drop drops items. -/
theorem Move.marks {l : Label} (hm : Move s l t) : ∃ new, t.trace = new ++ s.trace ∧
    ∀ items, .dropped items ∈ new → l = .drop := by
  cases hm with
  | count | take | fail | cancel | cut | abandon | echo => exact ⟨[], rfl, by simp⟩
  | enqueue | start | stall | answer | report => exact ⟨[_], rfl, by simp⟩
  | hand | next | last | again => exact ⟨[_, _], rfl, by simp⟩
  | drop => exact ⟨[_, _, _], rfl, fun _ _ => rfl⟩

theorem Run.marks {labels : List Label} (hr : Run s labels t) : ∃ new, t.trace = new ++ s.trace ∧
    ∀ items, .dropped items ∈ new → .drop ∈ labels := by
  induction hr with
  | nil => exact ⟨[], rfl, by simp⟩
  | cons hm _ ih =>
    obtain ⟨new, htrace, hdrop⟩ := hm.marks
    obtain ⟨new', htrace', hdrop'⟩ := ih
    refine ⟨new' ++ new, by rw [htrace', htrace, List.append_assoc], fun items hi => ?_⟩
    rcases List.mem_append.mp hi with hi | hi
    · exact List.mem_cons_of_mem _ (hdrop' items hi)
    · exact List.mem_cons.mpr (.inl (hdrop items hi).symm)

theorem Run.enqueued {labels : List Label} (hr : Run s labels t) {i : ι} (hi : i ∈ enqueued s.trace) :
    i ∈ enqueued t.trace := by
  obtain ⟨new, htrace, -⟩ := hr.marks
  rw [htrace, Service.enqueued, List.filterMap_append]
  exact List.mem_append_right _ hi

/-! ### After a cancel -/

/-- The item that ends was cancelled and these are queued, or they are not queued any
more and were never handed out. -/
def Doomed (items : List ι) (s : Service ι) : Prop :=
  (∃ i, s.phase = .ending i .cancelled) ∧ (∀ j ∈ items, j ∈ s.queued) ∨
    ∀ j ∈ items, j ∈ enqueued s.trace ∧ j ∉ s.queued ∧ j ∉ handed s.trace

theorem Ordered.not_handed (h : Ordered s) {j : ι} (hj : j ∈ s.queued) : j ∉ handed s.trace := by
  have hnodup := h.order.nodup h.nodup
  intro hm
  exact (List.nodup_append.mp hnodup).2.2 j (List.mem_reverse.mpr hj) j hm rfl

theorem Ordered.enqueued_of_queued (h : Ordered s) {j : ι} (hj : j ∈ s.queued) : j ∈ enqueued s.trace :=
  h.order.mem (List.mem_append_left _ (List.mem_reverse.mpr hj))

theorem Doomed.not_started {items : List ι} (h : Doomed items s) (ho : Ordered s) :
    ∀ j ∈ items, j ∉ started s.trace := by
  intro j hj hstarted
  have hhanded : j ∈ handed s.trace := ho.starts.mem (List.mem_append_right _ hstarted)
  rcases h with ⟨-, hqueued⟩ | hgone
  · exact ho.not_handed (hqueued j hj) hhanded
  · exact (hgone j hj).2.2 hhanded

theorem Move.doomed {l : Label} {items : List ι} (hm : Move s l t) (ho : Ordered s)
    (h : Doomed items s) : Doomed items t := by
  rcases h with ⟨⟨i, hp⟩, hqueued⟩ | hgone
  · -- The item ends: it is counted, or what is queued is dropped.
    cases hm with
    | count => exact .inl ⟨⟨i, hp⟩, hqueued⟩
    | next hp' hne =>
      rw [hp] at hp'
      cases hp'
      exact absurd rfl hne
    | last hp' hq =>
      refine .inr fun j hj => ?_
      have hnone := hqueued j hj
      rw [hq] at hnone
      cases hnone
    | drop =>
      refine .inr fun j hj => ⟨ho.enqueued_of_queued (hqueued j hj), by simp, ?_⟩
      exact ho.not_handed (hqueued j hj)
    | enqueue hs => simp [hp, Phase.serving] at hs
    | hand hp' | take hp' | start hp' | stall hp' | answer hp' | fail hp' | abandon hp' | echo _ hp'
    | again hp' | report hp' => simp [hp] at hp'
    | cancel hp' | cut hp' => simp [hp] at hp'
  · refine .inr fun j hj => ?_
    obtain ⟨henq, hnq, hnh⟩ := hgone j hj
    cases hm with
    | @enqueue i _ hi =>
      have hne : j ≠ i := fun he => hi (he ▸ henq)
      exact ⟨List.mem_cons_of_mem _ henq, by simp [hnq, hne], hnh⟩
    | @hand i _ hi =>
      have hne : j ≠ i := fun he => hi (he ▸ henq)
      refine ⟨List.mem_cons_of_mem _ henq, hnq, fun hm => ?_⟩
      exact (List.mem_cons.mp hm).elim hne hnh
    | @next i k _ rest _ _ hq =>
      have hne : j ≠ k := fun he => hnq (by rw [hq, he]; exact List.mem_cons_self ..)
      refine ⟨henq, fun hm => hnq (by rw [hq]; exact List.mem_cons_of_mem _ hm), fun hm => ?_⟩
      exact (List.mem_cons.mp hm).elim hne hnh
    | drop => exact ⟨henq, by simp, hnh⟩
    | _ => exact ⟨henq, hnq, hnh⟩

def Mark.isReported : Mark ι → Bool
  | reported .. => true
  | _ => false

def reports (trace : List (Mark ι)) : Nat := trace.countP Mark.isReported

theorem reports_cons {m : Mark ι} (h : m.isReported = false) (trace : List (Mark ι)) :
    reports (m :: trace) = reports trace := List.countP_cons_of_neg (by simp [h])

/-- The batch comes to its end: nothing is handed out in it any more. -/
def Phase.closing (queued : List ι) : Phase ι → Prop
  | ending _ outcome => outcome = .cancelled ∨ queued = []
  | drained => True
  | _ => False

/-- There were `n` reports before the batch that comes to its end, or has just been
reported. -/
def Closing (n : Nat) (s : Service ι) : Prop :=
  s.phase.closing s.queued ∧ reports s.trace = n ∨
    s.phase = .idle ∧ s.queued = [] ∧ reports s.trace = n + 1

/-- Moves that follow from a cancel by themselves. -/
def Label.follows : Label → Bool
  | hand | echo => false
  | _ => true

theorem Move.closing {l : Label} {n : Nat} (hm : Move s l t) (hl : l.follows = true) (ho : Ordered s)
    (h : Closing n s) : Closing n t := by
  rcases h with ⟨hc, hn⟩ | ⟨hp, hq, hn⟩
  · have hnot {p : Phase ι} (hp : s.phase = p) (hno : ¬p.closing s.queued) : False := by
      rw [hp] at hc
      exact hno hc
    cases hm with
    | count => exact .inl ⟨hc, hn⟩
    | @next i j outcome rest hp hne hq =>
      rw [hp] at hc
      rcases hc with hc | hc
      · exact absurd hc hne
      · rw [hq] at hc
        cases hc
    | last => exact .inl ⟨trivial, hn⟩
    | drop => exact .inl ⟨trivial, hn⟩
    | again => exact .inl ⟨trivial, hn⟩
    | report hp =>
      refine .inr ⟨rfl, ho.empty (by rw [hp]; rfl), ?_⟩
      show reports (_ :: s.trace) = _
      rw [reports, List.countP_cons_of_pos (by rfl)]
      exact congrArg (· + 1) hn
    | enqueue hs =>
      cases hp : s.phase with
      | waiting | sending | stalled => exact (hnot hp id).elim
      | idle | handing | ending | echo | drained => simp [hp, Phase.serving] at hs
    | take hp | start hp | stall hp | answer hp | fail hp | abandon hp => exact (hnot hp id).elim
    | cancel hp | cut hp => exact (hp.elim (hnot · id) (hnot · id)).elim
    | hand | echo => cases hl
  · cases hm with
    | count => exact .inr ⟨hp, hq, hn⟩
    | enqueue hs => simp [hp, Phase.serving] at hs
    | take hp' | start hp' | stall hp' | answer hp' | fail hp' | abandon hp' | next hp' | last hp' | drop hp'
    | again hp' | report hp' => simp [hp] at hp'
    | cancel hp' | cut hp' => simp [hp] at hp'
    | hand | echo => cases hl

theorem Run.doomed {labels : List Label} {items : List ι} (hr : Run s labels t) (ho : Ordered s)
    (h : Doomed items s) : Doomed items t :=
  (hr.invariant (I := fun s => Ordered s ∧ Doomed items s) (P := fun _ => True)
    (fun _ _ _ hm _ h => ⟨hm.ordered h.1, hm.doomed h.1 h.2⟩) (fun _ _ => trivial) ⟨ho, h⟩).2

theorem Run.closing {labels : List Label} {n : Nat} (hr : Run s labels t)
    (hl : ∀ l ∈ labels, l.follows = true) (ho : Ordered s) (h : Closing n s) : Closing n t :=
  (hr.invariant (I := fun s => Ordered s ∧ Closing n s) (P := fun l => l.follows = true)
    (fun _ _ _ hm hl h => ⟨hm.ordered h.1, hm.closing hl h.1 h.2⟩) hl ⟨ho, h⟩).2

/-! ### What becomes of the items of a batch -/

/-- What was done in the batch, until it is reported. -/
def course (s : Service ι) : List (Mark ι) :=
  match s.phase with
  | .drained => batch s.trace.tail
  | _ => batch s.trace

/-- Every item of the batch was answered, or still can be. -/
def Hopeful (s : Service ι) : Prop := ∀ i ∈ enqueued s.course,
  .answered i ∈ s.course ∨ i ∈ s.queued ∨ s.phase.unended = some i

theorem course_eq (hp : s.phase ≠ .drained) : s.course = batch s.trace := by
  unfold course
  split
  · rename_i h
    exact absurd h hp
  · rfl

/-- What the trace says of the items of a batch. -/
structure Traced (s : Service ι) : Prop where
  idle : s.phase.busy = false → s.phase ≠ .drained → s.sent = 0 ∧ enqueued (batch s.trace) = []
  drained : s.phase = .drained → ∃ before, s.trace = .emptied :: before
  batched : ∀ i, s.phase.item = some i ∨ i ∈ s.queued → i ∈ enqueued (batch s.trace)
  unanswered : ∀ i, s.phase.unended = some i ∨ i ∈ s.queued → .answered i ∉ s.trace
  known : ∀ i, .answered i ∈ s.trace → i ∈ enqueued s.trace
  failed : ∀ i outcome, s.phase = .ending i outcome → outcome ≠ .finished → .answered i ∉ s.trace

theorem traced_fresh : Traced (fresh : Service ι) where
  idle _ _ := ⟨rfl, rfl⟩
  drained hp := by cases hp
  batched i hi := by simp [fresh, Phase.item] at hi
  unanswered i hi := by simp [fresh]
  known i hi := by simp [fresh] at hi
  failed i outcome hp := by cases hp

/-- A plain mark neither enqueues, nor answers, nor empties. -/
theorem Mark.neutral {m : Mark ι} (hm : m.plain = true) (trace : List (Mark ι)) : m.enqueuedItem = none ∧
    m.isEmptied = false ∧ (∀ i, .answered i ∈ m :: trace ↔ .answered i ∈ trace) := by
  refine ⟨?_, ?_, fun i => ?_⟩
  · cases m <;> first | rfl | simp [Mark.plain] at hm
  · cases m <;> first | rfl | simp [Mark.plain] at hm
  · cases m <;> simp_all [Mark.plain]

namespace Traced

theorem go (h : Traced s) {phase : Phase ι} {queued : List ι} {total uncounted sent : Nat}
    (hb : phase.busy = true) (hitem : ∀ i, phase.item = some i ∨ i ∈ queued → s.phase.item = some i ∨ i ∈ s.queued)
    (hunended : ∀ i, phase.unended = some i ∨ i ∈ queued → s.phase.unended = some i ∨ i ∈ s.queued)
    (hfailed : ∀ i outcome, phase = .ending i outcome → outcome ≠ .finished → .answered i ∉ s.trace) :
    Traced ⟨phase, queued, total, uncounted, sent, s.trace⟩ where
  idle hn := absurd hb (by simp [show phase.busy = false from hn])
  drained hp := absurd hb (by simp [show phase = .drained from hp, Phase.busy])
  batched i hi := h.batched i (hitem i hi)
  unanswered i hi := h.unanswered i (hunended i hi)
  known := h.known
  failed := hfailed

/-- A plain mark comes to the trace of a batch that goes on. -/
theorem plain (h : Traced s) (hb : s.phase.busy = true) {m : Mark ι} (hm : m.plain = true) :
    Traced {s with trace := m :: s.trace} := by
  obtain ⟨henq, hempty, hans⟩ := Mark.neutral hm s.trace
  have hbat : enqueued (batch (m :: s.trace)) = enqueued (batch s.trace) := by
    rw [batch_cons hempty]
    exact List.filterMap_cons_none henq
  refine ⟨fun hn => ?_, fun hp => ?_, fun i hi => ?_, fun i hi => ?_, fun i hi => ?_, fun i outcome hp ho => ?_⟩
  · exact absurd hb (by simp [show s.phase.busy = false from hn])
  · exact absurd hb (by simp [show s.phase = .drained from hp, Phase.busy])
  · rw [hbat]
    exact h.batched i hi
  · rw [hans]
    exact h.unanswered i hi
  · rw [show enqueued (m :: s.trace) = enqueued s.trace from List.filterMap_cons_none henq]
    exact h.known i ((hans i).mp hi)
  · rw [hans]
    exact h.failed i outcome hp ho

/-- The batch comes to its end. -/
theorem finish (h : Traced s) (sent : Nat) : Traced {s with
    phase := .drained
    queued := []
    sent := sent
    trace := .emptied :: s.trace} where
  idle _ hn := absurd rfl hn
  drained _ := ⟨s.trace, rfl⟩
  batched i hi := by simp [Phase.item] at hi
  unanswered i hi := by simp [Phase.unended] at hi
  known i hi := h.known i (by simpa using hi)
  failed i outcome hp := by cases hp

end Traced

theorem Move.traced {l : Label} (hm : Move s l t) (ho : Ordered s) (h : Traced s) : Traced t := by
  -- A phase of a batch follows another one.
  have hgo {p : Phase ι} (hb : p.busy = true) (hitem : p.item = s.phase.item)
      (hun : p.unended = s.phase.unended ∨ p.unended = none)
      (hfail : ∀ i outcome, p = .ending i outcome → outcome ≠ .finished → .answered i ∉ s.trace)
      {total uncounted sent : Nat} : Traced ⟨p, s.queued, total, uncounted, sent, s.trace⟩ := by
    refine h.go hb (fun j hj => ?_) (fun j hj => ?_) hfail
    · rwa [hitem] at hj
    · rcases hun with hun | hun
      · rwa [hun] at hj
      · rw [hun] at hj
        exact .inr (hj.resolve_left (by simp))
  have hunanswered {i : ι} (hu : s.phase.unended = some i) : .answered i ∉ s.trace :=
    h.unanswered i (.inl hu)
  -- The item ends, and the batch with it.
  have hend {i : ι} {outcome : Outcome} (hp : s.phase = .ending i outcome) :
      Traced {s with trace := .done i :: s.trace} := h.plain (by rw [hp]; rfl) rfl
  have hnone (hb : s.phase.busy = false) : s.queued = [] := ho.empty hb
  cases hm with
  | @enqueue i hs hi =>
    have hb : s.phase.busy = true := by cases hp : s.phase <;> simp_all [Phase.serving, Phase.busy]
    have hne {j : ι} (ha : .answered j ∈ s.trace) : j ≠ i := fun he => hi (he ▸ h.known j ha)
    refine ⟨fun hn => ?_, fun hp => ?_, fun j hj => ?_, fun j hj => ?_, fun j hj => ?_, fun j outcome hp => ?_⟩
    · exact absurd hb (by simp [show s.phase.busy = false from hn])
    · exact absurd hb (by simp [show s.phase = .drained from hp, Phase.busy])
    · rw [batch_cons rfl]
      rcases hj with hj | hj
      · exact List.mem_cons_of_mem _ (h.batched j (.inl hj))
      · rcases List.mem_append.mp hj with hj | hj
        · exact List.mem_cons_of_mem _ (h.batched j (.inr hj))
        · rw [List.mem_singleton.mp hj]
          exact List.mem_cons_self ..
    · intro ha
      have ha' : .answered j ∈ s.trace := by simpa using ha
      rcases hj with hj | hj
      · exact h.unanswered j (.inl hj) ha'
      · rcases List.mem_append.mp hj with hj | hj
        · exact h.unanswered j (.inr hj) ha'
        · exact hne ha' (List.mem_singleton.mp hj)
    · exact List.mem_cons_of_mem _ (h.known j (by simpa using hj))
    · simpa using h.failed j outcome hp
  | @hand i hp hi =>
    have hq : s.queued = [] := hnone (by rw [hp]; rfl)
    have hone {j : ι} {p : Option ι} (hp : p = some i) (hj : p = some j ∨ j ∈ s.queued) : j = i := by
      subst hp
      simpa [hq, eq_comm] using hj
    refine ⟨fun hn => (by cases hn), fun hp => (by cases hp), fun j hj => ?_, fun j hj => ?_, fun j hj => ?_,
      fun j outcome hp => (by cases hp)⟩
    · rw [hone rfl hj, batch_cons rfl, batch_cons rfl]
      exact List.mem_cons_self ..
    · rw [hone rfl hj]
      intro ha
      exact hi (h.known i (by simpa using ha))
    · exact List.mem_cons_of_mem _ (h.known j (by simpa using hj))
  | count =>
    exact ⟨h.idle, h.drained, h.batched, h.unanswered, h.known, h.failed⟩
  | take hp => exact hgo rfl (by rw [hp]; rfl) (.inl (by rw [hp]; rfl)) fun _ _ hp => (by cases hp)
  | @start i hp | @stall i hp =>
    exact (h.plain (m := .started i) (by rw [hp]; rfl) rfl).go rfl (by rw [hp]; exact fun _ => id)
      (by rw [hp]; exact fun _ => id) fun _ _ hp => (by cases hp)
  | @answer i hp _ =>
    have hin : i ∈ enqueued (batch s.trace) := h.batched i (.inl (by rw [hp]; rfl))
    refine ⟨fun hn => (by cases hn), fun hp => (by cases hp), fun j hj => ?_, fun j hj => ?_, fun j hj => ?_,
      fun j outcome hp hne => ?_⟩
    · rw [batch_cons rfl]
      refine h.batched j (hj.imp (fun hj => ?_) id)
      rw [hp]
      exact hj
    · have hq : j ∈ s.queued := hj.resolve_left (by simp [Phase.unended])
      have hne : j ≠ i := fun he => ho.not_queued (by rw [hp]; rfl) (he ▸ hq)
      simpa [hne] using h.unanswered j (.inr hq)
    · have hcases : j = i ∨ .answered j ∈ s.trace := by simpa using hj
      rcases hcases with rfl | hj
      · exact ((List.takeWhile_sublist _).filterMap _).mem hin
      · exact h.known j hj
    · cases hp
      exact absurd rfl hne
  | @fail i hp _ =>
    refine hgo rfl (by rw [hp]; rfl) (.inr rfl) fun j outcome hj _ => ?_
    cases hj
    exact hunanswered (by rw [hp]; rfl)
  | @cancel i hp _ | @cut i hp _ =>
    have hu : s.phase.unended = some i := by rcases hp with hp | hp <;> rw [hp] <;> rfl
    refine hgo rfl (by rcases hp with hp | hp <;> rw [hp] <;> rfl) (.inr rfl) fun j outcome hj _ => ?_
    cases hj
    exact hunanswered hu
  | @abandon i hp =>
    refine hgo rfl (by rw [hp]; rfl) (.inr rfl) fun j outcome hj hne => ?_
    cases hj
    exact absurd rfl hne
  | @next i j outcome rest hp _ hq =>
    have hj : j ∈ s.queued := hq ▸ List.mem_cons_self ..
    have hrest {k : ι} (hk : some j = some k ∨ k ∈ rest) : k ∈ s.queued := by
      rcases hk with hk | hk
      · cases hk
        exact hj
      · exact hq ▸ List.mem_cons_of_mem _ hk
    exact ((hend hp).plain (m := .handed j) (by show s.phase.busy = _; rw [hp]; rfl) rfl).go rfl
      (fun k hk => .inr (hrest hk)) (fun k hk => .inr (hrest hk)) fun _ _ hp => (by cases hp)
  | @last i outcome hp hq =>
    have hfin := (hend hp).finish (s.sent + outcome.gain)
    rwa [← hq] at hfin
  | @drop i hp =>
    exact ((h.plain (m := .dropped s.queued) (by rw [hp]; rfl) rfl).plain (m := .done i)
      (by show s.phase.busy = _; rw [hp]; rfl) rfl).finish s.sent
  | echo i hp =>
    obtain ⟨hsent, hbatch⟩ := h.idle (by rw [hp]; rfl) (by simp [hp])
    have hq : s.queued = [] := hnone (by rw [hp]; rfl)
    refine ⟨fun _ _ => ⟨hsent, hbatch⟩, fun hp => (by cases hp), fun j hj => ?_, fun j hj => ?_, h.known,
      fun j outcome hp => (by cases hp)⟩
    · simp [hq, Phase.item] at hj
    · simp [hq, Phase.unended] at hj
  | @again i hp =>
    have hq : s.queued = [] := hnone (by rw [hp]; rfl)
    refine ⟨fun _ hn => absurd rfl hn, fun _ => ⟨_, rfl⟩, fun j hj => ?_, fun j hj => ?_, fun j hj => ?_,
      fun j outcome hp => (by cases hp)⟩
    · simp [hq, Phase.item] at hj
    · simp [hq, Phase.unended] at hj
    · exact h.known j (by simpa using hj)
  | report hp =>
    obtain ⟨before, htrace⟩ := h.drained hp
    have hq : s.queued = [] := hnone (by rw [hp]; rfl)
    refine ⟨fun _ _ => ⟨rfl, ?_⟩, fun hp => (by cases hp), fun j hj => ?_, fun j hj => ?_, fun j hj => ?_,
      fun j outcome hp => (by cases hp)⟩
    · dsimp only
      rw [htrace]
      rfl
    · simp [hq, Phase.item] at hj
    · simp [hq, Phase.unended] at hj
    · exact h.known j (by simpa using hj)

/-- Moves that leave the hope of a batch as it is. -/
def Label.steady : Label → Bool
  | fail | cancel | cut | abandon | report => false
  | _ => true

/-- The item that ends and was not answered never will be. -/
theorem not_hopeful_of_unanswered (ho : Ordered s) (h : Traced s) {i : ι} {outcome : Outcome}
    (hp : s.phase = .ending i outcome) (hn : .answered i ∉ s.trace) : ¬Hopeful s := by
  intro hope
  have hitem : s.phase.item = some i := by rw [hp]; rfl
  have hcourse : s.course = batch s.trace := course_eq (by simp [hp])
  rcases hope i (by rw [hcourse]; exact h.batched i (.inl hitem)) with ha | hq | hu
  · rw [hcourse] at ha
    exact hn (mem_of_mem_batch ha)
  · exact ho.not_queued hitem hq
  · rw [hp] at hu
    cases hu

theorem not_hopeful (ho : Ordered s) (h : Traced s) {i : ι} {outcome : Outcome}
    (hp : s.phase = .ending i outcome) (hne : outcome ≠ .finished) : ¬Hopeful s :=
  not_hopeful_of_unanswered ho h hp (h.failed i outcome hp hne)

theorem hopeful_of_empty (h : enqueued s.course = []) : Hopeful s := by
  intro i hi
  rw [h] at hi
  cases hi

theorem Move.hopeful_iff {l : Label} (hm : Move s l t) (hl : l.steady = true) (ho : Ordered s)
    (h : Traced s) : Hopeful t ↔ Hopeful s := by
  -- Between batches there is no item to hope for.
  have hidle {p : Phase ι} (hp : s.phase = p) (hb : p.busy = false) (hd : p ≠ .drained) :
      enqueued (batch s.trace) = [] ∧ Hopeful s := by
    have hnone := (h.idle (hp ▸ hb) (hp ▸ hd)).2
    refine ⟨hnone, hopeful_of_empty ?_⟩
    rwa [course_eq (hp ▸ hd)]
  have hplain (new : List (Mark ι)) (hnew : ∀ m ∈ new, m.plain = true) :
      enqueued (new ++ batch s.trace) = enqueued (batch s.trace) ∧
        ∀ i, .answered i ∈ new ++ batch s.trace ↔ .answered i ∈ batch s.trace := by
    induction new with
    | nil => exact ⟨rfl, fun _ => .rfl⟩
    | cons m new ih =>
      obtain ⟨henq, hans⟩ := ih fun m hm => hnew m (List.mem_cons_of_mem _ hm)
      obtain ⟨hnone, -, hm⟩ := Mark.neutral (hnew m (List.mem_cons_self ..)) (new ++ batch s.trace)
      refine ⟨(List.filterMap_cons_none hnone).trans henq, fun i => ?_⟩
      exact (hm i).trans (hans i)
  -- Plain marks, and the items that are queued or served stay the same.
  have hsame {t : Service ι} (new : List (Mark ι)) (hnew : ∀ m ∈ new, m.plain = true)
      (ht : t.course = new ++ batch s.trace) (hs : s.phase ≠ .drained)
      (hleft : ∀ i, i ∈ t.queued ∨ t.phase.unended = some i ↔ i ∈ s.queued ∨ s.phase.unended = some i) :
      Hopeful t ↔ Hopeful s := by
    obtain ⟨henq, hans⟩ := hplain new hnew
    unfold Hopeful
    rw [ht, henq, course_eq hs]
    refine forall_congr' fun i => forall_congr' fun _ => ?_
    rw [hans, hleft]
  cases hm with
  | @enqueue i hs hi =>
    have hnd : s.phase ≠ .drained := by rintro hp; simp [hp, Phase.serving] at hs
    unfold Hopeful
    rw [course_eq hnd, course_eq (s := {s with
      queued := s.queued ++ [i]
      uncounted := s.uncounted + 1
      trace := .enqueued i :: s.trace}) hnd, batch_cons rfl]
    constructor
    · intro hope j hj
      have hj' := hope j (List.mem_cons_of_mem _ hj)
      have hne : j ≠ i := by
        rintro rfl
        exact hi (((List.takeWhile_sublist _).filterMap _).mem hj)
      simpa [hne] using hj'
    · intro hope j hj
      rcases List.mem_cons.mp hj with rfl | hj
      · simp
      · have hj' := hope j hj
        simp only [List.mem_cons, reduceCtorEq, false_or, List.mem_append]
        exact hj'.imp id (Or.imp .inl id)
  | @hand i hp hi =>
    obtain ⟨hnone, hope⟩ := hidle hp rfl (by simp)
    refine ⟨fun _ => hope, fun _ j hj => ?_⟩
    rw [course_eq (by simp), batch_cons rfl, batch_cons rfl] at hj
    have hji : j ∈ i :: enqueued (batch s.trace) := hj
    rw [hnone] at hji
    cases List.mem_singleton.mp hji
    exact .inr (.inr rfl)
  | count =>
    exact Iff.rfl
  | take hp => exact hsame [] (by simp) (course_eq (by simp)) (by simp [hp]) (by simp [hp, Phase.unended])
  | @start i hp | @stall i hp =>
    refine hsame [.started i] (by simp [Mark.plain]) ?_ (by simp [hp]) (by simp [hp, Phase.unended])
    exact (course_eq (by simp)).trans (batch_cons rfl _)
  | @answer i hp _ =>
    have ht : course {s with phase := .ending i .finished, trace := .answered i :: s.trace} =
        .answered i :: batch s.trace := (course_eq (by simp)).trans (batch_cons rfl _)
    unfold Hopeful
    rw [ht, course_eq (by simp [hp]), hp]
    refine forall_congr' fun j => forall_congr' fun _ => ?_
    simp only [List.mem_cons, Mark.answered.injEq, Phase.unended, reduceCtorEq, or_false, Option.some.injEq]
    constructor
    · rintro ((rfl | ha) | hq)
      · exact .inr (.inr rfl)
      · exact .inl ha
      · exact .inr (.inl hq)
    · rintro (ha | hq | rfl)
      · exact .inl (.inr ha)
      · exact .inr hq
      · exact .inl (.inl rfl)
  | @next i j outcome rest hp _ hq =>
    refine hsame [.handed j, .done i] (by simp [Mark.plain]) ?_ (by simp [hp]) fun k => ?_
    · rw [course_eq (by simp), batch_cons rfl, batch_cons rfl]
      rfl
    · simp [hp, hq, Phase.unended, eq_comm, or_comm]
  | @last i outcome hp hq =>
    refine hsame [.done i] (by simp [Mark.plain]) ?_ (by simp [hp]) fun k => ?_
    · exact batch_cons rfl _
    · simp [hp, Phase.unended]
  | @drop i hp =>
    -- The item that was cancelled is hopeless, before and after.
    have hnot := not_hopeful ho h hp (by simp)
    refine ⟨fun hope => ?_, fun hope => absurd hope hnot⟩
    exfalso
    obtain ⟨henq, hans⟩ := hplain [.done i, .dropped s.queued] (by simp [Mark.plain])
    have ht : course {s with
        phase := .drained
        queued := []
        trace := .emptied :: .done i :: .dropped s.queued :: s.trace} =
        [.done i, .dropped s.queued] ++ batch s.trace := by
      show batch (.done i :: .dropped s.queued :: s.trace) = _
      rw [batch_cons rfl, batch_cons rfl]
      rfl
    unfold Hopeful at hope
    rw [ht, henq] at hope
    have hin : i ∈ enqueued (batch s.trace) := h.batched i (.inl (by rw [hp]; rfl))
    rcases hope i hin with ha | hq | hu
    · exact h.failed i _ hp (by simp) (mem_of_mem_batch ((hans i).mp ha))
    · cases hq
    · cases hu
  | echo i hp => 
    obtain ⟨hnone, hope⟩ := hidle hp rfl (by simp)
    refine ⟨fun _ => hope, fun _ => hopeful_of_empty ?_⟩
    rwa [course_eq (by simp)]
  | @again i hp =>
    obtain ⟨hnone, hope⟩ := hidle hp rfl (by simp)
    refine ⟨fun _ => hope, fun _ => hopeful_of_empty ?_⟩
    show enqueued (batch (.done i :: s.trace)) = []
    rw [batch_cons rfl]
    exact hnone
  | fail | cancel | cut | abandon | report => cases hl

theorem Run.traced {labels : List Label} (hr : Run s labels t) (ho : Ordered s) (h : Traced s) : Traced t :=
  (hr.invariant (I := fun s => Ordered s ∧ Traced s) (P := fun _ => True)
    (fun _ _ _ hm _ h => ⟨hm.ordered h.1, hm.traced h.1 h.2⟩) (fun _ _ => trivial) ⟨ho, h⟩).2

theorem Run.hopeful_iff {labels : List Label} (hr : Run s labels t) (hl : ∀ l ∈ labels, l.steady = true)
    (ho : Ordered s) (h : Traced s) : Hopeful t ↔ Hopeful s := by
  have hrun := hr.invariant (I := fun t => Ordered t ∧ Traced t ∧ (Hopeful t ↔ Hopeful s))
    (P := fun l => l.steady = true) (fun _ _ _ hm hl h => ?_) hl ⟨ho, h, .rfl⟩
  · exact hrun.2.2
  · obtain ⟨ho, ht, hiff⟩ := h
    exact ⟨hm.ordered ho, hm.traced ho ht, (hm.hopeful_iff hl ho ht).trans hiff⟩

/-- Between batches nothing begins but by handing out an item or by an echo. -/
theorem Run.idle {labels : List Label} (hr : Run s labels t) (hl : ∀ l ∈ labels, l.follows = true)
    (hs : s.phase = .idle) : t.phase = .idle := by
  refine hr.invariant (I := fun s => s.phase = .idle) (P := fun l => l.follows = true) ?_ hl hs
  intro s l t hm hl hp
  cases hm with
  | count => exact hp
  | report => rfl
  | enqueue hs => simp [hp, Phase.serving] at hs
  | take hp' | start hp' | stall hp' | answer hp' | fail hp' | abandon hp' | next hp' | last hp' | drop hp'
  | again hp' => simp [hp] at hp'
  | cancel hp' | cut hp' => simp [hp] at hp'
  | hand | echo => cases hl

/-- Without a report the batch goes on. -/
theorem Run.not_idle {labels : List Label} (hr : Run s labels t) (hl : .report ∉ labels)
    (hs : s.phase ≠ .idle) : t.phase ≠ .idle := by
  refine hr.invariant (I := fun s => s.phase ≠ .idle) (P := (· ≠ .report)) ?_ ?_ hs
  · intro s l t hm hne hs
    cases hm with
    | report => exact absurd rfl hne
    | enqueue | count => exact hs
    | _ => simp
  · rintro l hmem rfl
    exact hl hmem

/-- Between batches nothing fails. -/
theorem Run.rest {labels : List Label} (hr : Run s labels t) (hs : s.phase.busy = false)
    (hl : ∀ l ∈ labels, l ≠ .hand) : ∀ l ∈ labels, l.steady = true ∨ l = .report := by
  induction hr with
  | nil => simp
  | @cons s t u l labels hm hr ih =>
    have hnot {p : Phase ι} (hp : s.phase = p) (hb : p.busy = true) : False := by
      rw [hp, hb] at hs
      cases hs
    have hrest : (l.steady = true ∨ l = .report) ∧ t.phase.busy = false := by
      cases hm with
      | count => exact ⟨.inl rfl, hs⟩
      | echo => exact ⟨.inl rfl, rfl⟩
      | again => exact ⟨.inl rfl, rfl⟩
      | report => exact ⟨.inr rfl, rfl⟩
      | last | drop => exact ⟨.inl rfl, rfl⟩
      | hand => exact absurd rfl (hl _ (List.mem_cons_self ..))
      | enqueue hs' => cases hp : s.phase <;> simp_all [Phase.serving, Phase.busy]
      | take hp | start hp | stall hp | answer hp | fail hp | abandon hp | next hp => exact (hnot hp rfl).elim
      | cancel hp | cut hp => exact (hp.elim (hnot · rfl) (hnot · rfl)).elim
    intro l' hl'
    rcases List.mem_cons.mp hl' with rfl | hl'
    · exact hrest.1
    · exact ih hrest.2 (fun l hl'' => hl l (List.mem_cons_of_mem _ hl'')) l' hl'

/-- Every item of the batch was answered. -/
def AllAnswered (trace : List (Mark ι)) : Prop := ∀ i ∈ enqueued (batch trace), .answered i ∈ batch trace

/-- When the queue was emptied, the hope of a batch is decided. -/
theorem Traced.hopeful_drained (h : Traced s) (ho : Ordered s) (hp : s.phase = .drained) :
    ∃ before, s.trace = .emptied :: before ∧ (Hopeful s ↔ AllAnswered before) := by
  obtain ⟨before, htrace⟩ := h.drained hp
  have hq : s.queued = [] := ho.empty (by rw [hp]; rfl)
  have hcourse : s.course = batch before := by
    unfold course
    rw [hp, htrace]
    rfl
  refine ⟨before, htrace, ?_⟩
  unfold Hopeful AllAnswered
  rw [hcourse, hq, hp]
  simp [Phase.unended]

end CrashReporter.Service
