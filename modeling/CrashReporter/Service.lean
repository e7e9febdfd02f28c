import Mathlib.Data.List.Nodup

/-! A queue whose items are served one at a time.

Items are enqueued at any time. The first one is handed out at once, and each next one
when the service of the one before has ended; when none is left the queue is emptied,
and what was reached is reported. Serving an item may have to wait, may stall, and may
be cancelled, which drops what is still queued.

A `Service` is one moment of that: what is being served, what is queued, the counters,
and a trace of what was done, latest first. `Move` says what can happen next. -/
namespace CrashReporter

/-- How the service of an item ends. -/
inductive Outcome where
  | finished | failed | cancelled
deriving DecidableEq

/-- What it adds to the items that ended well. -/
def Outcome.gain : Outcome → Nat
  | .finished => 1
  | _ => 0

namespace Service

/-- What is being done. An echo is the end of an item that has ended before. -/
inductive Phase (ι : Type) where
  | idle
  | handing (i : ι)
  | waiting (i : ι)
  | sending (i : ι)
  | stalled (i : ι)
  | ending (i : ι) (outcome : Outcome)
  | echo (i : ι)
  | drained
deriving DecidableEq

inductive Mark (ι : Type) where
  | enqueued (i : ι)
  | handed (i : ι)
  | started (i : ι)
  | answered (i : ι)
  | done (i : ι)
  | dropped (items : List ι)
  | emptied
  /-- An item was taken out of an empty queue. -/
  | starved
  | reported (sent total : Nat)
deriving DecidableEq

inductive Label where
  | enqueue | hand | count | take | start | stall | answer | fail | cancel
  /-- The item is cancelled before the batch has counted it. -/
  | cut
  | abandon | next | last | drop | echo | again | report
deriving DecidableEq

end Service

open Service in
structure Service (ι : Type) where
  phase : Phase ι
  queued : List ι
  /-- The items counted in this batch. -/
  total : Nat
  /-- The items enqueued and not counted yet. -/
  uncounted : Nat
  /-- The items that ended well in this batch. -/
  sent : Nat
  trace : List (Mark ι)

namespace Service
variable {ι : Type}

namespace Phase

/-- An item is with the server. -/
def serving : Phase ι → Bool
  | waiting _ | sending _ | stalled _ => true
  | _ => false

/-- A batch is under way. -/
def busy : Phase ι → Bool
  | handing _ | waiting _ | sending _ | stalled _ | ending .. => true
  | _ => false

/-- The item handed out, until it is done. -/
def item : Phase ι → Option ι
  | handing i | waiting i | sending i | stalled i | ending i _ => some i
  | _ => none

/-- The item that was handed out and has not been started. -/
def unstarted : Phase ι → Option ι
  | handing i | waiting i => some i
  | _ => none

theorem item_isSome (p : Phase ι) : p.item.isSome = p.busy := by cases p <;> rfl

end Phase

/-! ### What a trace tells -/

def Mark.enqueuedItem : Mark ι → Option ι
  | enqueued i => some i
  | _ => none

def Mark.handedItem : Mark ι → Option ι
  | handed i => some i
  | _ => none

def Mark.startedItem : Mark ι → Option ι
  | started i => some i
  | _ => none

def enqueued (trace : List (Mark ι)) : List ι := trace.filterMap Mark.enqueuedItem

def handed (trace : List (Mark ι)) : List ι := trace.filterMap Mark.handedItem

def started (trace : List (Mark ι)) : List ι := trace.filterMap Mark.startedItem

/-- The item is done, or was dropped. -/
def Settled (i : ι) (trace : List (Mark ι)) : Prop :=
  .done i ∈ trace ∨ ∃ items, .dropped items ∈ trace ∧ i ∈ items

theorem Settled.cons {i : ι} {trace : List (Mark ι)} (h : Settled i trace) (m : Mark ι) :
    Settled i (m :: trace) :=
  h.imp (List.mem_cons_of_mem _) fun ⟨items, hm, hi⟩ => ⟨items, List.mem_cons_of_mem _ hm, hi⟩

/-! ### What can happen -/

inductive Move : Service ι → Label → Service ι → Prop where
  | enqueue {s : Service ι} {i : ι} : s.phase.serving = true → i ∉ enqueued s.trace →
    Move s .enqueue {s with
      queued := s.queued ++ [i]
      uncounted := s.uncounted + 1
      trace := .enqueued i :: s.trace}
  | hand {s : Service ι} {i : ι} : s.phase = .idle → i ∉ enqueued s.trace →
    Move s .hand {s with
      phase := .handing i
      total := 0
      uncounted := s.uncounted + 1
      trace := .handed i :: .enqueued i :: s.trace}
  | count {s : Service ι} {n : Nat} : s.uncounted = n + 1 →
    Move s .count {s with total := s.total + 1, uncounted := n}
  | take {s : Service ι} {i : ι} : s.phase = .handing i →
    Move s .take {s with phase := .waiting i}
  | start {s : Service ι} {i : ι} : s.phase = .waiting i →
    Move s .start {s with phase := .sending i, trace := .started i :: s.trace}
  | stall {s : Service ι} {i : ι} : s.phase = .waiting i →
    Move s .stall {s with phase := .stalled i, trace := .started i :: s.trace}
  | answer {s : Service ι} {i : ι} : s.phase = .sending i → s.uncounted = 0 →
    Move s .answer {s with phase := .ending i .finished, trace := .answered i :: s.trace}
  | fail {s : Service ι} {i : ι} : s.phase = .sending i → s.uncounted = 0 →
    Move s .fail {s with phase := .ending i .failed}
  | cancel {s : Service ι} {i : ι} : s.phase = .waiting i ∨ s.phase = .sending i → s.uncounted = 0 →
    Move s .cancel {s with phase := .ending i .cancelled}
  | cut {s : Service ι} {i : ι} : s.phase = .waiting i ∨ s.phase = .sending i → s.uncounted ≠ 0 →
    Move s .cut {s with phase := .ending i .cancelled}
  | abandon {s : Service ι} {i : ι} : s.phase = .stalled i →
    Move s .abandon {s with phase := .ending i .finished}
  | next {s : Service ι} {i j : ι} {outcome : Outcome} {rest : List ι} :
    s.phase = .ending i outcome → outcome ≠ .cancelled → s.queued = j :: rest →
    Move s .next {s with
      phase := .handing j
      queued := rest
      sent := s.sent + outcome.gain
      trace := .handed j :: .done i :: s.trace}
  | last {s : Service ι} {i : ι} {outcome : Outcome} :
    s.phase = .ending i outcome → s.queued = [] →
    Move s .last {s with
      phase := .drained
      sent := s.sent + outcome.gain
      trace := .emptied :: .done i :: s.trace}
  | drop {s : Service ι} {i : ι} : s.phase = .ending i .cancelled →
    Move s .drop {s with
      phase := .drained
      queued := []
      trace := .emptied :: .done i :: .dropped s.queued :: s.trace}
  | echo {s : Service ι} (i : ι) : s.phase = .idle →
    Move s .echo {s with phase := .echo i}
  | again {s : Service ι} {i : ι} : s.phase = .echo i →
    Move s .again {s with
      phase := .drained
      sent := s.sent + 1
      trace := .emptied :: .done i :: s.trace}
  | report {s : Service ι} : s.phase = .drained →
    Move s .report {s with phase := .idle, sent := 0, trace := .reported s.sent s.total :: s.trace}

/-- Moves one after the other, with what they are. -/
inductive Run : Service ι → List Label → Service ι → Prop where
  | nil (s : Service ι) : Run s [] s
  | cons {s t u : Service ι} {l : Label} {labels : List Label} :
    Move s l t → Run t labels u → Run s (l :: labels) u

theorem Move.run {s t : Service ι} {l : Label} (h : Move s l t) : Run s [l] t := .cons h (.nil t)

/-- What the allowed moves keep, runs of them keep. -/
theorem Run.invariant {I : Service ι → Prop} {P : Label → Prop}
    (keeps : ∀ s l t, Move s l t → P l → I s → I t) {s t : Service ι} {labels : List Label}
    (h : Run s labels t) (hP : ∀ l ∈ labels, P l) (hs : I s) : I t := by
  induction h with
  | nil => exact hs
  | cons hm _ ih =>
    apply ih
    · exact fun l hl => hP l (List.mem_cons_of_mem _ hl)
    · exact keeps _ _ _ hm (hP _ (List.mem_cons_self ..)) hs

/-- Without a move in which an item stalls, none has. -/
theorem Run.not_stalled {s t : Service ι} {labels : List Label} (h : Run s labels t)
    (hl : .stall ∉ labels) (hs : ∀ i, s.phase ≠ .stalled i) : ∀ i, t.phase ≠ .stalled i := by
  refine h.invariant (I := fun s => ∀ i, s.phase ≠ .stalled i) (P := (· ≠ .stall)) ?_ ?_ hs
  · intro s l t hm hne hs
    cases hm with
    | stall => exact absurd rfl hne
    | enqueue | count => exact hs
    | _ => simp
  · rintro l hmem rfl
    exact hl hmem

/-- Nothing has been done yet. -/
def fresh : Service ι := ⟨.idle, [], 0, 0, 0, []⟩

/-! ### Items are handed out in order, once -/

structure Ordered (s : Service ι) : Prop where
  empty : s.phase.busy = false → s.queued = []
  order : (s.queued.reverse ++ handed s.trace).Sublist (enqueued s.trace)
  nodup : (enqueued s.trace).Nodup
  starts : (s.phase.unstarted.toList ++ started s.trace).Sublist (handed s.trace)
  item : ∀ i, s.phase.item = some i → i ∈ handed s.trace
  settled : ∀ i ∈ enqueued s.trace, i ∈ s.queued ∨ s.phase.item = some i ∨ Settled i s.trace
  /-- The queue is emptied only when every item enqueued so far is settled. -/
  emptied : ∀ post pre, s.trace = post ++ .emptied :: pre → ∀ i ∈ enqueued pre, Settled i pre
  fed : .starved ∉ s.trace

/-- A trace that goes on without emptying the queue. -/
theorem emptied_cons {trace : List (Mark ι)} {m : Mark ι} (hm : m ≠ .emptied)
    (h : ∀ post pre, trace = post ++ .emptied :: pre → ∀ i ∈ enqueued pre, Settled i pre) :
    ∀ post pre, m :: trace = post ++ .emptied :: pre → ∀ i ∈ enqueued pre, Settled i pre := by
  intro post pre heq
  cases post with
  | nil => exact absurd (List.cons.inj heq).1 hm
  | cons _ post => exact h post pre (List.cons.inj heq).2

theorem emptied_emptied {trace : List (Mark ι)} (hsettled : ∀ i ∈ enqueued trace, Settled i trace)
    (h : ∀ post pre, trace = post ++ .emptied :: pre → ∀ i ∈ enqueued pre, Settled i pre) :
    ∀ post pre, .emptied :: trace = post ++ .emptied :: pre → ∀ i ∈ enqueued pre, Settled i pre := by
  intro post pre heq
  cases post with
  | nil => exact (List.cons.inj heq).2 ▸ hsettled
  | cons _ post => exact h post pre (List.cons.inj heq).2

namespace Ordered
variable {s : Service ι}

/-- Changes of what is being done, and of the counters, that leave the trace alone. -/
theorem of_phase (h : Ordered s) {phase : Phase ι} {total uncounted sent : Nat}
    (hbusy : phase.busy = s.phase.busy) (hitem : phase.item = s.phase.item)
    (hstart : phase.unstarted = none ∨ phase.unstarted = s.phase.unstarted) :
    Ordered ⟨phase, s.queued, total, uncounted, sent, s.trace⟩ where
  empty hb := h.empty (hbusy ▸ hb)
  order := h.order
  nodup := h.nodup
  starts := by
    rcases hstart with hn | hn
    · rw [hn]
      exact (List.sublist_append_right _ _).trans h.starts
    · rw [hn]
      exact h.starts
  item i hi := h.item i (hitem ▸ hi)
  settled i hi := by
    rw [hitem]
    exact h.settled i hi
  emptied := h.emptied
  fed := h.fed

/-- A mark that says nothing about the order. -/
theorem mark (h : Ordered s) {m : Mark ι} (he : m.enqueuedItem = none) (hh : m.handedItem = none)
    (hs : m.startedItem = none) (hm : m ≠ .emptied) (hf : m ≠ .starved) :
    Ordered {s with trace := m :: s.trace} := by
  have henq : enqueued (m :: s.trace) = enqueued s.trace := List.filterMap_cons_none he
  have hhand : handed (m :: s.trace) = handed s.trace := List.filterMap_cons_none hh
  have hstart : started (m :: s.trace) = started s.trace := List.filterMap_cons_none hs
  refine ⟨h.empty, ?_, ?_, ?_, ?_, ?_, emptied_cons hm h.emptied, ?_⟩
  · rw [henq, hhand]
    exact h.order
  · rw [henq]
    exact h.nodup
  · rw [hstart, hhand]
    exact h.starts
  · rw [hhand]
    exact h.item
  · rw [henq]
    exact fun i hi => (h.settled i hi).imp id (Or.imp id (Settled.cons · m))
  · exact fun hmem => (List.mem_cons.mp hmem).elim (fun he => hf he.symm) h.fed

/-- The waiting item is started. -/
theorem start (h : Ordered s) {i : ι} (hp : s.phase = .waiting i) {phase : Phase ι}
    (hbusy : phase.busy = true) (hitem : phase.item = some i) (hn : phase.unstarted = none) :
    Ordered {s with phase := phase, trace := .started i :: s.trace} where
  empty hb := absurd hb (by simp [hbusy])
  order := h.order
  nodup := h.nodup
  starts := by
    have hs := h.starts
    rw [hp] at hs
    rw [hn]
    exact hs
  item j hj := h.item j (by rw [hp]; exact hitem.symm.trans hj)
  settled j hj := by
    have hset := h.settled j hj
    rw [hp] at hset
    rw [hitem]
    exact hset.imp id (Or.imp id (Settled.cons · _))
  emptied := emptied_cons (by simp) h.emptied
  fed := by simpa using h.fed

/-- The next item is handed out. -/
theorem hand (h : Ordered s) {j : ι} {rest : List ι} (hq : s.queued = j :: rest)
    (hitem : ∀ i, s.phase.item = some i → Settled i s.trace) {sent : Nat} :
    Ordered {s with
      phase := .handing j
      queued := rest
      sent := sent
      trace := .handed j :: s.trace} where
  empty hb := absurd hb (by simp [Phase.busy])
  order := by
    have ho := h.order
    rw [hq, List.reverse_cons, List.append_assoc] at ho
    exact ho
  nodup := h.nodup
  starts := .cons_cons j ((List.sublist_append_right _ _).trans h.starts)
  item i hi := by
    cases hi
    exact List.mem_cons_self ..
  settled i hi := by
    rcases h.settled i hi with hm | hm | hm
    · rw [hq] at hm
      rcases List.mem_cons.mp hm with rfl | hm
      · exact .inr (.inl rfl)
      · exact .inl hm
    · exact .inr (.inr ((hitem i hm).cons _))
    · exact .inr (.inr (hm.cons _))
  emptied := emptied_cons (by simp) h.emptied
  fed := by simpa using h.fed

/-- A new item is put into the queue. -/
theorem enqueue (h : Ordered s) {i : ι} (hi : i ∉ enqueued s.trace) {uncounted : Nat}
    {phase : Phase ι} {total : Nat} (hbusy : phase.busy = true) (hitem : phase.item = s.phase.item)
    (hn : phase.unstarted = s.phase.unstarted) :
    Ordered ⟨phase, s.queued ++ [i], total, uncounted, s.sent, .enqueued i :: s.trace⟩ where
  empty hb := absurd hb (by simp [hbusy])
  order := by
    rw [List.reverse_append]
    exact h.order.cons_cons i
  nodup := List.nodup_cons.mpr ⟨hi, h.nodup⟩
  starts := by
    rw [hn]
    exact h.starts
  item j hj := h.item j (hitem ▸ hj)
  settled j hj := by
    rw [hitem]
    rcases List.mem_cons.mp hj with rfl | hj
    · exact .inl (List.mem_append_right _ (List.mem_singleton_self _))
    · exact (h.settled j hj).imp (List.mem_append_left _) (Or.imp id (Settled.cons · _))
  emptied := emptied_cons (by simp) h.emptied
  fed := by simpa using h.fed

/-- A new item is handed out at once when nothing is being done. -/
theorem first (h : Ordered s) (hp : s.phase = .idle) {i : ι} (hi : i ∉ enqueued s.trace)
    {total uncounted : Nat} :
    Ordered ⟨.handing i, s.queued, total, uncounted, s.sent, .handed i :: .enqueued i :: s.trace⟩ where
  empty hb := absurd hb (by simp [Phase.busy])
  order := by
    have ho := h.order
    rw [h.empty (by rw [hp]; rfl)] at ho ⊢
    exact ho.cons_cons i
  nodup := List.nodup_cons.mpr ⟨hi, h.nodup⟩
  starts := .cons_cons i ((List.sublist_append_right _ _).trans h.starts)
  item j hj := by
    cases hj
    exact List.mem_cons_self ..
  settled j hj := by
    rcases List.mem_cons.mp hj with rfl | hj
    · exact .inr (.inl rfl)
    · rcases h.settled j hj with hm | hm | hm
      · exact .inl hm
      · rw [hp] at hm
        cases hm
      · exact .inr (.inr ((hm.cons _).cons _))
  emptied := emptied_cons (by simp) (emptied_cons (by simp) h.emptied)
  fed := by simpa using h.fed

/-- The batch comes to its end when the last item is done. -/
theorem finish (h : Ordered s) (hq : s.queued = []) (hitem : ∀ i, s.phase.item = some i → Settled i s.trace)
    {sent : Nat} : Ordered {s with phase := .drained, sent := sent, trace := .emptied :: s.trace} := by
  have hset (i : ι) (hi : i ∈ enqueued s.trace) : Settled i s.trace := by
    rcases h.settled i hi with hm | hm | hm
    · simp [hq] at hm
    · exact hitem i hm
    · exact hm
  refine ⟨fun _ => hq, h.order, h.nodup, ?_, fun i hi => ?_, fun i hi => ?_,
    emptied_emptied hset h.emptied, ?_⟩
  · exact (List.sublist_append_right _ _).trans h.starts
  · cases hi
  · exact .inr (.inr ((hset i hi).cons _))
  · simpa using h.fed

/-- What is queued is dropped. -/
theorem drop (h : Ordered s) :
    Ordered {s with queued := [], trace := .dropped s.queued :: s.trace} where
  empty _ := rfl
  order := (List.sublist_append_right _ _).trans h.order
  nodup := h.nodup
  starts := h.starts
  item := h.item
  settled i hi := by
    rcases h.settled i hi with hm | hm | hm
    · exact .inr (.inr (.inr ⟨s.queued, List.mem_cons_self .., hm⟩))
    · exact .inr (.inl hm)
    · exact .inr (.inr (hm.cons _))
  emptied := emptied_cons (by simp) h.emptied
  fed := by simpa using h.fed

/-- The item handed out is not queued any more. -/
theorem not_queued (h : Ordered s) {i : ι} (hi : s.phase.item = some i) : i ∉ s.queued := by
  have hnodup := h.order.nodup h.nodup
  intro hq
  exact (List.nodup_append.mp hnodup).2.2 i (List.mem_reverse.mpr hq) i (h.item i hi) rfl

end Ordered

theorem ordered_fresh : Ordered (fresh : Service ι) where
  empty _ := rfl
  order := .slnil
  nodup := .nil
  starts := .slnil
  item i hi := by cases hi
  settled i hi := by cases hi
  emptied post pre htrace := by simp [fresh] at htrace
  fed := by simp [fresh]

theorem Move.ordered {s t : Service ι} {l : Label} (hm : Move s l t) (h : Ordered s) : Ordered t := by
  have hdone (i : ι) {s : Service ι} (h : Ordered s) : Ordered {s with trace := .done i :: s.trace} :=
    h.mark rfl rfl rfl (by simp) (by simp)
  have hsettled {p : Phase ι} {trace : List (Mark ι)} {i : ι} {outcome : Outcome}
      (hp : p = .ending i outcome) (j : ι) (hj : p.item = some j) : Settled j (.done i :: trace) := by
    subst hp
    cases hj
    exact .inl (List.mem_cons_self ..)
  cases hm with
  | @enqueue i hs hi =>
    have hb : s.phase.busy = true := by
      cases hp : s.phase <;> simp_all [Phase.serving, Phase.busy]
    exact h.enqueue hi hb rfl rfl
  | @hand i hp hi => exact h.first hp hi
  | count hn => exact h.of_phase rfl rfl (.inr rfl)
  | @take i hp => exact h.of_phase (by rw [hp]; rfl) (by rw [hp]; rfl) (.inr (by rw [hp]; rfl))
  | @start i hp => exact h.start hp rfl rfl rfl
  | @stall i hp => exact h.start hp rfl rfl rfl
  | @answer i hp _ =>
    have hmark : Ordered {s with trace := .answered i :: s.trace} := h.mark rfl rfl rfl (by simp) (by simp)
    exact hmark.of_phase (by rw [hp]; rfl) (by rw [hp]; rfl) (.inl rfl)
  | @fail i hp _ => exact h.of_phase (by rw [hp]; rfl) (by rw [hp]; rfl) (.inl rfl)
  | @cancel i hp _ | @cut i hp _ =>
    rcases hp with hp | hp
    all_goals exact h.of_phase (by rw [hp]; rfl) (by rw [hp]; rfl) (.inl rfl)
  | @abandon i hp => exact h.of_phase (by rw [hp]; rfl) (by rw [hp]; rfl) (.inl rfl)
  | @next i j outcome rest hp ho hq => exact (hdone i h).hand hq (hsettled hp)
  | @last i outcome hp hq => exact (hdone i h).finish hq (hsettled hp)
  | @drop i hp => exact (hdone i h.drop).finish rfl (hsettled hp)
  | echo i hp => exact h.of_phase (by rw [hp]; rfl) (by rw [hp]; rfl) (.inl rfl)
  | @again i hp =>
    refine (hdone i h).finish (h.empty (by rw [hp]; rfl)) fun j hj => ?_
    rw [show s.phase = _ from hp] at hj
    cases hj
  | report hp =>
    have hmark : Ordered {s with trace := .reported s.sent s.total :: s.trace} :=
      h.mark rfl rfl rfl (by simp) (by simp)
    exact hmark.of_phase (by rw [hp]; rfl) (by rw [hp]; rfl) (.inl rfl)

/-- The queue was emptied last only while the batch is not reported. -/
def Closed (s : Service ι) : Prop := ∀ pre, s.trace = .emptied :: pre → s.phase = .drained

theorem Move.closed {s t : Service ι} {l : Label} (hm : Move s l t) (h : Closed s) : Closed t := by
  intro pre htrace
  have hold (hp : s.phase ≠ .drained) (heq : s.trace = .emptied :: pre) : t.phase = .drained :=
    absurd (h pre heq) hp
  cases hm with
  | count => exact h pre htrace
  | last | drop | again => rfl
  | enqueue | hand | start | stall | answer | next | report => cases htrace
  | take hp | fail hp | abandon hp | echo _ hp => exact hold (by simp [hp]) htrace
  | cancel hp | cut hp => exact hold (by rcases hp with hp | hp <;> simp [hp]) htrace

/-! ### What is reported is true -/

def Mark.isEmptied : Mark ι → Bool
  | emptied => true
  | _ => false

/-- Marks that neither enqueue nor answer an item, and end nothing. -/
def Mark.plain : Mark ι → Bool
  | handed _ | started _ | done _ | dropped _ | starved => true
  | _ => false

/-- What was done since the queue was emptied last. -/
def batch (trace : List (Mark ι)) : List (Mark ι) := trace.takeWhile (!·.isEmptied)

theorem batch_cons {m : Mark ι} (h : m.isEmptied = false) (trace : List (Mark ι)) :
    batch (m :: trace) = m :: batch trace := by simp [batch, h]

theorem mem_of_mem_batch {trace : List (Mark ι)} {m : Mark ι} (h : m ∈ batch trace) : m ∈ trace :=
  (List.takeWhile_sublist _).mem h

section Truth
variable [DecidableEq ι]

/-- The items enqueued and answered. -/
def answeredCount (trace : List (Mark ι)) : Nat :=
  (enqueued trace).countP fun i => .answered i ∈ trace

/-- What the end under way will add. -/
def Phase.gain : Phase ι → Nat
  | ending _ outcome => outcome.gain
  | _ => 0

/-- The item has been handed out, and its service has not ended. -/
def Phase.unended : Phase ι → Option ι
  | handing i | waiting i | sending i | stalled i => some i
  | _ => none

/-- Every report gives the counts of the batch that was emptied before it. -/
def Reported (trace : List (Mark ι)) : Prop :=
  ∀ post pre sent total, trace = post ++ .reported sent total :: pre →
    ∃ before, pre = .emptied :: before ∧ total = (enqueued (batch before)).length ∧
      sent = answeredCount (batch before)

theorem Reported.cons {trace : List (Mark ι)} (h : Reported trace) {m : Mark ι}
    (hm : ∀ sent total, m ≠ .reported sent total) : Reported (m :: trace) := by
  intro post pre sent total heq
  cases post with
  | nil => exact absurd (List.cons.inj heq).1 (hm sent total)
  | cons _ post => exact h post pre sent total (List.cons.inj heq).2

theorem Reported.report {before : List (Mark ι)} {sent total : Nat}
    (h : Reported (.emptied :: before)) (htotal : total = (enqueued (batch before)).length)
    (hsent : sent = answeredCount (batch before)) :
    Reported (.reported sent total :: .emptied :: before) := by
  intro post pre sent' total' heq
  cases post with
  | nil =>
    obtain ⟨hm, hpre⟩ := List.cons.inj heq
    cases hm
    exact ⟨before, hpre.symm, htotal, hsent⟩
  | cons _ post => exact h post pre sent' total' (List.cons.inj heq).2

/-- Marks that neither enqueue nor answer are not counted. -/
theorem answeredCount_cons {m : Mark ι} (he : m.enqueuedItem = none) (ha : ∀ i, m ≠ .answered i)
    (trace : List (Mark ι)) : answeredCount (m :: trace) = answeredCount trace := by
  have henq : enqueued (m :: trace) = enqueued trace := List.filterMap_cons_none he
  rw [answeredCount, henq]
  refine List.countP_congr fun i _ => ?_
  simp [(ha i).symm]

theorem answeredCount_enqueued {i : ι} {trace : List (Mark ι)} (h : .answered i ∉ trace) :
    answeredCount (.enqueued i :: trace) = answeredCount trace := by
  show (i :: enqueued trace).countP _ = _
  rw [List.countP_cons_of_neg (by simpa using h)]
  exact List.countP_congr fun j _ => by simp

/-- One item more satisfies the predicate. -/
theorem countP_or_eq {l : List ι} (hl : l.Nodup) {i : ι} (hi : i ∈ l) {p q : ι → Bool}
    (hp : p i = false) (hq : ∀ j, q j = (p j || decide (j = i))) : l.countP q = l.countP p + 1 := by
  induction l with
  | nil => cases hi
  | cons a l ih =>
    obtain ⟨ha, hl⟩ := List.nodup_cons.mp hl
    rw [List.countP_cons, List.countP_cons]
    by_cases hai : a = i
    · subst hai
      have heq : l.countP q = l.countP p := by
        refine List.countP_congr fun j hj => ?_
        have hne : j ≠ a := fun he => ha (he ▸ hj)
        simp [hq, hne]
      simp [heq, hq, hp]
    · have hil : i ∈ l := (List.mem_cons.mp hi).resolve_left fun he => hai he.symm
      rw [ih hl hil, hq a]
      simp [hai]
      omega

theorem answeredCount_answered {i : ι} {trace : List (Mark ι)} (hnodup : (enqueued trace).Nodup)
    (hi : i ∈ enqueued trace) (h : .answered i ∉ trace) :
    answeredCount (.answered i :: trace) = answeredCount trace + 1 := by
  show (enqueued trace).countP _ = _
  refine countP_or_eq hnodup hi (by simpa using h) fun j => ?_
  simp [Bool.or_comm]

/-- The counters say what the trace says. -/
def Counted (s : Service ι) (trace : List (Mark ι)) : Prop :=
  s.total + s.uncounted = (enqueued (batch trace)).length ∧
    s.sent + s.phase.gain = answeredCount (batch trace)

structure Truthful (s : Service ι) : Prop where
  reports : Reported s.trace
  busy : s.phase.busy = true → Counted s s.trace
  drained : s.phase = .drained → ∃ before, s.trace = .emptied :: before ∧ Counted s before
  idle : s.phase = .idle → s.sent = 0 ∧ enqueued (batch s.trace) = []
  uncounted : s.phase.unended = none → s.uncounted = 0
  batched : ∀ i, s.phase.item = some i ∨ i ∈ s.queued → i ∈ enqueued (batch s.trace)
  unanswered : ∀ i, s.phase.unended = some i ∨ i ∈ s.queued → .answered i ∉ s.trace
  known : ∀ i, .answered i ∈ s.trace → i ∈ enqueued s.trace
  real : ∀ i, s.phase ≠ .echo i

/-- Moves that the counters follow. -/
def Label.honest : Label → Bool
  | cut | abandon | echo => false
  | _ => true

/-- What plain marks do not change. -/
structure SameCounts (trace trace' : List (Mark ι)) : Prop where
  enqueued : enqueued trace' = enqueued trace
  batched : Service.enqueued (batch trace') = Service.enqueued (batch trace)
  answered : answeredCount (batch trace') = answeredCount (batch trace)
  mem : ∀ i, .answered i ∈ trace' ↔ .answered i ∈ trace
  reported : Reported trace → Reported trace'

theorem SameCounts.plain (trace : List (Mark ι)) {new : List (Mark ι)} (h : ∀ m ∈ new, m.plain = true) :
    SameCounts trace (new ++ trace) := by
  induction new with
  | nil => exact ⟨rfl, rfl, rfl, fun _ => .rfl, id⟩
  | cons m new ih =>
    obtain ⟨henq, hbat, hans, hmem, hrep⟩ := ih fun m hm => h m (List.mem_cons_of_mem _ hm)
    have hm : m.plain = true := h m (List.mem_cons_self ..)
    have hnone : m.enqueuedItem = none := by cases m <;> first | rfl | simp [Mark.plain] at hm
    have hempty : m.isEmptied = false := by cases m <;> first | rfl | simp [Mark.plain] at hm
    have hne : ∀ i, m ≠ .answered i := by rintro i rfl; simp [Mark.plain] at hm
    have hnr : ∀ sent total, m ≠ .reported sent total := by
      rintro sent total rfl
      simp [Mark.plain] at hm
    refine ⟨?_, ?_, ?_, fun i => ?_, fun hr => (hrep hr).cons hnr⟩
    · exact (List.filterMap_cons_none hnone).trans henq
    · rw [List.cons_append, batch_cons hempty]
      exact (List.filterMap_cons_none hnone).trans hbat
    · rw [List.cons_append, batch_cons hempty, answeredCount_cons hnone hne, hans]
    · simp [(hne i).symm, hmem i]

namespace Truthful
variable {s t : Service ι}

/-- A batch goes on, and plain marks are added. -/
theorem serve (h : Truthful s) (hs : s.phase.busy = true) (ht : t.phase.busy = true)
    (new : List (Mark ι)) (htrace : t.trace = new ++ s.trace) (hnew : ∀ m ∈ new, m.plain = true)
    (htotal : t.total + t.uncounted = s.total + s.uncounted)
    (hsent : t.sent + t.phase.gain = s.sent + s.phase.gain)
    (huncounted : t.phase.unended = none → t.uncounted = 0)
    (hitem : ∀ i, t.phase.item = some i ∨ i ∈ t.queued → s.phase.item = some i ∨ i ∈ s.queued)
    (hunended : ∀ i, t.phase.unended = some i ∨ i ∈ t.queued →
      s.phase.unended = some i ∨ i ∈ s.queued) : Truthful t := by
  obtain ⟨henq, hbat, hans, hmem, hrep⟩ := SameCounts.plain s.trace hnew
  rw [← htrace] at henq hbat hans hmem hrep
  refine ⟨hrep h.reports, fun _ => ?_, fun hp => ?_, fun hp => ?_, huncounted, fun i hi => ?_,
    fun i hi => ?_, fun i hi => ?_, fun i hp => ?_⟩
  · rw [Counted, htotal, hsent, hbat, hans]
    exact h.busy hs
  · rw [hp] at ht
    cases ht
  · rw [hp] at ht
    cases ht
  · rw [hbat]
    exact h.batched i (hitem i hi)
  · rw [hmem]
    exact h.unanswered i (hunended i hi)
  · rw [henq]
    exact h.known i ((hmem i).mp hi)
  · rw [hp] at ht
    cases ht

/-- The batch ends, after plain marks. -/
theorem finish (h : Truthful s) (hs : s.phase.busy = true) (ht : t.phase = .drained)
    (hq : t.queued = []) (new : List (Mark ι)) (htrace : t.trace = .emptied :: (new ++ s.trace))
    (hnew : ∀ m ∈ new, m.plain = true) (htotal : t.total = s.total) (hu : t.uncounted = s.uncounted)
    (hsent : t.sent = s.sent + s.phase.gain) (huncounted : s.uncounted = 0) : Truthful t := by
  obtain ⟨henq, hbat, hans, hmem, hrep⟩ := SameCounts.plain s.trace hnew
  have hmem' (i : ι) : .answered i ∈ t.trace ↔ .answered i ∈ s.trace := by
    rw [htrace, ← hmem i]
    simp
  refine ⟨?_, fun hp => ?_, fun _ => ⟨new ++ s.trace, htrace, ?_⟩, fun hp => ?_, fun _ => ?_,
    fun i hi => ?_, fun i hi => ?_, fun i hi => ?_, fun i hp => ?_⟩
  · rw [htrace]
    exact (hrep h.reports).cons (by simp)
  · rw [ht] at hp
    cases hp
  · rw [Counted, hbat, hans, htotal, hu, hsent, ht]
    exact h.busy hs
  · rw [ht] at hp
    cases hp
  · exact hu.trans huncounted
  · simp [ht, hq, Phase.item] at hi
  · simp [ht, hq, Phase.unended] at hi
  · rw [htrace]
    show i ∈ enqueued (new ++ s.trace)
    rw [henq]
    exact h.known i ((hmem' i).mp hi)
  · rw [ht] at hp
    cases hp

theorem enqueue (h : Truthful s) (hs : s.phase.serving = true) {i : ι}
    (hi : i ∉ enqueued s.trace) : Truthful {s with
      queued := s.queued ++ [i]
      uncounted := s.uncounted + 1
      trace := .enqueued i :: s.trace} := by
  have hb : s.phase.busy = true := by cases hp : s.phase <;> simp_all [Phase.serving, Phase.busy]
  have hu : s.phase.unended ≠ none := by
    cases hp : s.phase <;> simp_all [Phase.serving, Phase.unended]
  have hna : .answered i ∉ s.trace := fun ha => hi (h.known i ha)
  have hbat : enqueued (batch (.enqueued i :: s.trace)) = i :: enqueued (batch s.trace) := rfl
  obtain ⟨htotal, hsent⟩ := h.busy hb
  refine ⟨h.reports.cons (by simp), fun _ => ⟨?_, ?_⟩, fun hp => ?_, fun hp => ?_,
    fun hn => absurd hn hu, fun j hj => ?_, fun j hj => ?_, fun j hj => ?_, h.real⟩
  · rw [hbat, List.length_cons, ← htotal]
    dsimp only
    omega
  · rw [batch_cons rfl, answeredCount_enqueued fun ha => hna (mem_of_mem_batch ha)]
    exact hsent
  · rw [show s.phase = _ from hp] at hb
    cases hb
  · rw [show s.phase = _ from hp] at hb
    cases hb
  · rw [hbat]
    rcases hj with hj | hj
    · exact List.mem_cons_of_mem _ (h.batched j (.inl hj))
    · rcases List.mem_append.mp hj with hj | hj
      · exact List.mem_cons_of_mem _ (h.batched j (.inr hj))
      · rw [List.mem_singleton.mp hj]
        exact List.mem_cons_self ..
  · have hold : .answered j ∉ s.trace := by
      rcases hj with hj | hj
      · exact h.unanswered j (.inl hj)
      · rcases List.mem_append.mp hj with hj | hj
        · exact h.unanswered j (.inr hj)
        · rw [List.mem_singleton.mp hj]
          exact hna
    simpa using hold
  · exact List.mem_cons_of_mem _ (h.known j (by simpa using hj))

theorem first (h : Truthful s) (ho : Ordered s) (hp : s.phase = .idle) {i : ι}
    (hi : i ∉ enqueued s.trace) : Truthful {s with
      phase := .handing i
      total := 0
      uncounted := s.uncounted + 1
      trace := .handed i :: .enqueued i :: s.trace} := by
  obtain ⟨hsent, hbatch⟩ := h.idle hp
  have hu : s.uncounted = 0 := h.uncounted (by rw [hp]; rfl)
  have hq : s.queued = [] := ho.empty (by rw [hp]; rfl)
  have hna : .answered i ∉ s.trace := fun ha => hi (h.known i ha)
  have hbat : enqueued (batch (.handed i :: .enqueued i :: s.trace)) = i :: enqueued (batch s.trace) := rfl
  have hone {p : Phase ι} (hp : p = .handing i) (j : ι) (hj : p.item = some j ∨ j ∈ s.queued) : j = i := by
    subst hp
    simpa [hq, Phase.item, eq_comm] using hj
  refine ⟨(h.reports.cons (by simp)).cons (by simp), fun _ => ⟨?_, ?_⟩, fun hp => (by cases hp),
    fun hp => (by cases hp), fun hn => (by cases hn), fun j hj => ?_, fun j hj => ?_, fun j hj => ?_,
    fun j hp => (by cases hp)⟩
  · rw [hbat, hbatch, hu]
    rfl
  · rw [batch_cons rfl, batch_cons rfl, answeredCount_cons rfl (by simp),
      answeredCount_enqueued fun ha => hna (mem_of_mem_batch ha), answeredCount, hbatch]
    exact hsent
  · rw [hone rfl j hj, hbat]
    exact List.mem_cons_self ..
  · rw [hone rfl j hj]
    simpa using hna
  · exact List.mem_cons_of_mem _ (h.known j (by simpa using hj))

theorem answer (h : Truthful s) (ho : Ordered s) {i : ι} (hp : s.phase = .sending i)
    (hu : s.uncounted = 0) :
    Truthful {s with phase := .ending i .finished, trace := .answered i :: s.trace} := by
  have hitem : s.phase.item = some i := by rw [hp]; rfl
  have hna : .answered i ∉ s.trace := h.unanswered i (.inl (by rw [hp]; rfl))
  have hin : i ∈ enqueued (batch s.trace) := h.batched i (.inl hitem)
  have hnodup : (enqueued (batch s.trace)).Nodup :=
    ((List.takeWhile_sublist _).filterMap _).nodup ho.nodup
  obtain ⟨htotal, hsent⟩ := h.busy (by rw [hp]; rfl)
  refine ⟨h.reports.cons (by simp), fun _ => ⟨htotal, ?_⟩, fun hp => (by cases hp),
    fun hp => (by cases hp), fun _ => hu, fun j hj => ?_, fun j hj => ?_, fun j hj => ?_,
    fun j hp => (by cases hp)⟩
  · rw [batch_cons rfl, answeredCount_answered hnodup hin fun ha => hna (mem_of_mem_batch ha), ← hsent, hp]
    rfl
  · refine h.batched j (hj.imp (fun hj => ?_) id)
    rw [hp]
    exact hj
  · have hq : j ∈ s.queued := hj.resolve_left (by simp [Phase.unended])
    have hne : j ≠ i := fun he => ho.not_queued hitem (he ▸ hq)
    simpa [hne] using h.unanswered j (.inr hq)
  · have hcases : j = i ∨ .answered j ∈ s.trace := by simpa using hj
    rcases hcases with rfl | hj
    · exact ((List.takeWhile_sublist _).filterMap _).mem hin
    · exact h.known j hj

theorem report (h : Truthful s) (ho : Ordered s) (hp : s.phase = .drained) : Truthful {s with
    phase := .idle
    sent := 0
    trace := .reported s.sent s.total :: s.trace} := by
  obtain ⟨before, htrace, htotal, hsent⟩ := h.drained hp
  have hu : s.uncounted = 0 := h.uncounted (by rw [hp]; rfl)
  have hq : s.queued = [] := ho.empty (by rw [hp]; rfl)
  refine ⟨?_, fun hb => (by cases hb), fun hp => (by cases hp), fun _ => ⟨rfl, ?_⟩, fun _ => hu,
    fun i hi => ?_, fun i hi => ?_, fun i hi => ?_, fun i hp => (by cases hp)⟩
  · have hrep := h.reports
    dsimp only
    rw [htrace] at hrep ⊢
    refine hrep.report ?_ ?_
    · rw [← htotal, hu, Nat.add_zero]
    · rw [← hsent, hp]
      rfl
  · dsimp only
    rw [htrace]
    rfl
  · simp [hq, Phase.item] at hi
  · simp [hq, Phase.unended] at hi
  · exact h.known i (by simpa using hi)

end Truthful

theorem truthful_fresh : Truthful (fresh : Service ι) where
  reports post pre sent total htrace := by simp [fresh] at htrace
  busy hb := by cases hb
  drained hp := by cases hp
  idle _ := ⟨rfl, rfl⟩
  uncounted _ := rfl
  batched i hi := by simp [fresh, Phase.item] at hi
  unanswered i hi := by simp [fresh]
  known i hi := by simp [fresh] at hi
  real i hp := by cases hp

theorem Move.truthful {s t : Service ι} {l : Label} (hm : Move s l t) (hl : l.honest = true)
    (ho : Ordered s) (h : Truthful s) : Truthful t := by
  cases hm with
  | enqueue hs hi => exact h.enqueue hs hi
  | hand hp hi => exact h.first ho hp hi
  | @count n hn =>
    have hb : s.phase.busy = true := by
      cases hp : s.phase with
      | handing | waiting | sending | stalled | ending => rfl
      | idle | echo | drained => exact absurd (h.uncounted (by rw [hp]; rfl)) (by omega)
    refine h.serve hb ?_ [] rfl (by simp) ?_ rfl (fun hu => ?_) (fun _ => id) fun _ => id
    · exact hb
    · dsimp only
      omega
    · exact absurd (h.uncounted hu) (by omega)
  | take hp =>
    have hb : s.phase.busy = true := by rw [hp]; rfl
    exact h.serve hb rfl [] rfl (by simp) rfl (by rw [hp]; rfl) (fun hu => by cases hu)
      (by rw [hp]; exact fun _ => id) (by rw [hp]; exact fun _ => id)
  | @start i hp | @stall i hp =>
    have hb : s.phase.busy = true := by rw [hp]; rfl
    exact h.serve hb rfl [.started i] rfl (by simp [Mark.plain]) rfl (by rw [hp]; rfl)
      (fun hu => by cases hu) (by rw [hp]; exact fun _ => id) (by rw [hp]; exact fun _ => id)
  | answer hp hu => exact h.answer ho hp hu
  | @fail i hp hu =>
    have hb : s.phase.busy = true := by rw [hp]; rfl
    exact h.serve hb rfl [] rfl (by simp) rfl (by rw [hp]; rfl) (fun _ => hu)
      (by rw [hp]; exact fun _ => id) fun k hk => .inr (hk.resolve_left (by simp [Phase.unended]))
  | @cancel i hp hu =>
    have hb : s.phase.busy = true := by rcases hp with hp | hp <;> rw [hp] <;> rfl
    have hitem : s.phase.item = some i := by rcases hp with hp | hp <;> rw [hp] <;> rfl
    have hgain : s.phase.gain = 0 := by rcases hp with hp | hp <;> rw [hp] <;> rfl
    exact h.serve hb rfl [] rfl (by simp) rfl (by rw [hgain]; rfl) (fun _ => hu)
      (by rw [hitem]; exact fun _ => id) fun k hk => .inr (hk.resolve_left (by simp [Phase.unended]))
  | @next i j outcome rest hp _ hq =>
    have hb : s.phase.busy = true := by rw [hp]; rfl
    have hj : j ∈ s.queued := hq ▸ List.mem_cons_self ..
    have hrest (k : ι) (hk : k ∈ rest) : k ∈ s.queued := hq ▸ List.mem_cons_of_mem _ hk
    refine h.serve hb rfl [.handed j, .done i] rfl (by simp [Mark.plain]) rfl ?_ ?_ ?_ ?_
    · rw [hp]
      rfl
    · exact fun hu => by cases hu
    · rintro k (hk | hk)
      · cases hk
        exact .inr hj
      · exact .inr (hrest k hk)
    · rintro k (hk | hk)
      · cases hk
        exact .inr hj
      · exact .inr (hrest k hk)
  | @last i outcome hp hq =>
    have hb : s.phase.busy = true := by rw [hp]; rfl
    exact h.finish hb rfl hq [.done i] rfl (by simp [Mark.plain]) rfl rfl (by rw [hp]; rfl)
      (h.uncounted (by rw [hp]; rfl))
  | @drop i hp =>
    have hb : s.phase.busy = true := by rw [hp]; rfl
    exact h.finish hb rfl rfl [.done i, .dropped s.queued] rfl (by simp [Mark.plain]) rfl rfl
      (by rw [hp]; rfl) (h.uncounted (by rw [hp]; rfl))
  | report hp => exact h.report ho hp
  | @again i hp => exact absurd hp (h.real i)
  | cut | abandon | echo => cases hl

end Truth

end Service
end CrashReporter
