import CrashReporter.Debounce
import CrashReporter.JournalSpy.Entries

/-! Which journal entries have logs collected.

An expression is hit by the entries that it is the first one to match, and each hit starts
its silent period anew. Along a run the expressions are debouncers, each with its own
hits. -/
namespace CrashReporter.JournalSpy
open Debounce

variable (hasMatch : Text → Bytes → Bool)

/-- The expression that an entry hits. -/
def firstMatch (rexps : List (Finset Field)) (journal : Option Entry) : Option Nat :=
  rexps.findIdx? (matchesFields hasMatch · journal)

/-- The current entry, after a turn. -/
def Turn.seen (t : Turn) (journal : Option Entry) : Option Entry := if 0 < t.result then some t.entry else journal

/-- The hits of expression `i`. -/
def hits (rexps : List (Finset Field)) (i : Nat) : Option Entry → List Turn → List Hit
  | _, [] => []
  | journal, t :: rest =>
    if firstMatch hasMatch rexps (t.seen journal) = some i then
      ⟨t.now, t.savePower⟩ :: hits rexps i (t.seen journal) rest
    else hits rexps i (t.seen journal) rest

/-- The turns of each batch, up to the first 0. -/
def handled (batches : List (List Turn)) : List Turn :=
  batches.flatMap fun batch => batch.takeWhile fun t => decide (t.result ≠ 0)

variable {hasMatch}

/-! ### One entry -/

theorem firstMatch_cons (rexp : Finset Field) (rest : List (Finset Field)) (journal : Option Entry) :
    firstMatch hasMatch (rexp :: rest) journal = if matchesFields hasMatch rexp journal then some 0
      else (firstMatch hasMatch rest journal).map (· + 1) := by
  simp [firstMatch, List.findIdx?_cons]

section Evaluate
variable {journal : Option Entry} {now : Int} {savePower : Bool} {e : Expression} {rest : List Expression}

theorem evaluate_hit (h : e.matches hasMatch journal = true) (i : Nat) :
    evaluate hasMatch journal now savePower i (e :: rest) = ({ e with lastHit := now } :: rest,
      if now - e.lastHit > silentPeriod ∧ savePower = false then [⟨i, submission e.name, now⟩] else []) := by
  rw [evaluate, if_pos h]
  generalize silentPeriod = gap
  by_cases hgap : now - e.lastHit > gap <;> cases savePower <;> simp [hgap]

theorem evaluate_miss (h : e.matches hasMatch journal = false) (i : Nat) :
    evaluate hasMatch journal now savePower i (e :: rest) =
      (e :: (evaluate hasMatch journal now savePower (i + 1) rest).1,
        (evaluate hasMatch journal now savePower (i + 1) rest).2) := by
  rw [evaluate, if_neg (Bool.eq_false_iff.mp h)]

theorem evaluate_rexps (i : Nat) (expressions : List Expression) :
    (evaluate hasMatch journal now savePower i expressions).1.map (·.rexp) = expressions.map (·.rexp) := by
  induction expressions generalizing i with
  | nil => rfl
  | cons e rest ih =>
    cases h : e.matches hasMatch journal with
    | true => simp [evaluate_hit h]
    | false => simp [evaluate_miss h, ih]

/-- The expression that is hit takes the time. -/
theorem evaluate_lastHit (i k : Nat) (expressions : List Expression) :
    ((evaluate hasMatch journal now savePower i expressions).1.map (·.lastHit)).getD k 0 =
      if firstMatch hasMatch (expressions.map (·.rexp)) journal = some k then now
      else (expressions.map (·.lastHit)).getD k 0 := by
  induction expressions generalizing i k with
  | nil => simp [evaluate, firstMatch]
  | cons e rest ih =>
    rw [List.map_cons, firstMatch_cons]
    cases h : e.matches hasMatch journal with
    | true =>
      have hmatch : matchesFields hasMatch e.rexp journal = true := h
      rw [evaluate_hit h, if_pos hmatch]
      cases k <;> simp
    | false =>
      have hmatch : ¬matchesFields hasMatch e.rexp journal = true := Bool.eq_false_iff.mp h
      rw [evaluate_miss h, if_neg hmatch]
      cases k with
      | zero => simp
      | succ k =>
        have hrest := ih (i + 1) k
        rw [List.getD_eq_getElem?_getD, List.getElem?_map] at hrest
        simp [hrest]

/-- It has logs collected when it was silent for long enough. -/
theorem evaluate_collections (i : Nat) (expressions : List Expression) :
    (evaluate hasMatch journal now savePower i expressions).2 =
      (firstMatch hasMatch (expressions.map (·.rexp)) journal).elim [] fun k =>
        if now - (expressions.map (·.lastHit)).getD k 0 > silentPeriod ∧ savePower = false then
          [⟨i + k, submission ((expressions.map (·.name)).getD k []), now⟩]
        else [] := by
  induction expressions generalizing i with
  | nil => rfl
  | cons e rest ih =>
    rw [List.map_cons, firstMatch_cons]
    cases h : e.matches hasMatch journal with
    | true =>
      have hmatch : matchesFields hasMatch e.rexp journal = true := h
      rw [evaluate_hit h, if_pos hmatch]
      rfl
    | false =>
      have hmatch : ¬matchesFields hasMatch e.rexp journal = true := Bool.eq_false_iff.mp h
      rw [evaluate_miss h, if_neg hmatch, ih]
      cases firstMatch hasMatch (rest.map (·.rexp)) journal with
      | none => rfl
      | some k => simp [Nat.add_comm, Nat.add_left_comm]

end Evaluate

namespace Spy

def rexps (s : Spy) : List (Finset Field) := s.expressions.map (·.rexp)

def lastHit (s : Spy) (i : Nat) : Int := (s.expressions.map (·.lastHit)).getD i 0

/-- When logs were collected for expression `i`. -/
def times (s : Spy) (i : Nat) : List Int := (s.collections.filter (·.expression = i)).map (·.time)

theorem turn_current (s : Spy) (t : Turn) : (s.turn hasMatch t).current = t.seen s.current := by
  unfold turn Turn.seen
  dsimp only
  split <;> rfl

theorem turn_expressions (s : Spy) (t : Turn) : (s.turn hasMatch t).expressions =
    (evaluate hasMatch (t.seen s.current) t.now t.savePower 0 s.expressions).1 := by
  unfold turn Turn.seen
  dsimp only
  split <;> rfl

theorem turn_collections (s : Spy) (t : Turn) : (s.turn hasMatch t).collections = s.collections ++
    (evaluate hasMatch (t.seen s.current) t.now t.savePower 0 s.expressions).2 := by
  unfold turn Turn.seen
  dsimp only
  split <;> rfl

theorem turn_rexps (s : Spy) (t : Turn) : (s.turn hasMatch t).rexps = s.rexps := by
  rw [rexps, turn_expressions, evaluate_rexps, rexps]

theorem turn_lastHit (s : Spy) (t : Turn) (i : Nat) :
    (s.turn hasMatch t).lastHit i = latest (s.lastHit i) (hits hasMatch s.rexps i s.current [t]) := by
  rw [lastHit, turn_expressions, evaluate_lastHit, hits]
  change (if firstMatch hasMatch s.rexps (t.seen s.current) = some i then _ else _) = _
  split <;> rfl

theorem turn_times (s : Spy) (t : Turn) (i : Nat) : (s.turn hasMatch t).times i =
    s.times i ++ passed silentPeriod (s.lastHit i) (hits hasMatch s.rexps i s.current [t]) := by
  rw [times, turn_collections, List.filter_append, List.map_append, evaluate_collections, hits, hits]
  congr 1
  change (((firstMatch hasMatch s.rexps (t.seen s.current)).elim [] fun k =>
    if t.now - s.lastHit k > silentPeriod ∧ t.savePower = false then [_] else []).filter _).map _ = _
  cases firstMatch hasMatch s.rexps (t.seen s.current) with
  | none => rfl
  | some k =>
    simp only [Option.elim_some, Nat.zero_add, Option.some.injEq]
    by_cases hk : k = i
    · subst hk
      rw [if_pos rfl, passed]
      split <;> simp [passed]
    · rw [if_neg hk]
      split <;> simp [passed, hk]

/-! ### Runs -/

theorem hits_cons (rexps : List (Finset Field)) (i : Nat) (journal : Option Entry) (t : Turn) (rest : List Turn) :
    hits hasMatch rexps i journal (t :: rest) =
      hits hasMatch rexps i journal [t] ++ hits hasMatch rexps i (t.seen journal) rest := by
  simp only [hits]
  split <;> rfl

theorem foldl_rexps (turns : List Turn) (s : Spy) : (turns.foldl (turn hasMatch) s).rexps = s.rexps := by
  induction turns generalizing s with
  | nil => rfl
  | cons t rest ih => exact (ih _).trans (turn_rexps s t)

/-- The hit timestamp of an expression is the one of its debouncer. -/
theorem foldl_lastHit (turns : List Turn) (s : Spy) (i : Nat) : (turns.foldl (turn hasMatch) s).lastHit i =
    latest (s.lastHit i) (hits hasMatch s.rexps i s.current turns) := by
  induction turns generalizing s with
  | nil => rfl
  | cons t rest ih =>
    rw [List.foldl_cons, ih, hits_cons, latest_append, turn_lastHit, turn_rexps, turn_current]

/-- Logs are collected when a hit passes the debouncer. -/
theorem foldl_times (turns : List Turn) (s : Spy) (i : Nat) : (turns.foldl (turn hasMatch) s).times i =
    s.times i ++ passed silentPeriod (s.lastHit i) (hits hasMatch s.rexps i s.current turns) := by
  induction turns generalizing s with
  | nil => simp [hits, passed]
  | cons t rest ih =>
    rw [List.foldl_cons, ih, hits_cons, passed_append, turn_times, turn_lastHit, turn_rexps, turn_current,
      List.append_assoc]

theorem run_eq (batches : List (List Turn)) (s : Spy) :
    s.run hasMatch batches = (handled batches).foldl (turn hasMatch) s := by
  induction batches generalizing s with
  | nil => rfl
  | cons batch rest ih =>
    rw [handled, List.flatMap_cons, List.foldl_append]
    exact (congrArg (run hasMatch rest) (congrArg Prod.fst (handleJournalEntries_eq batch s))).trans (ih _)

end Spy

/-! ### How often -/

theorem hits_sublist (rexps : List (Finset Field)) (i : Nat) (journal : Option Entry) (turns : List Turn) :
    ((hits hasMatch rexps i journal turns).map (·.time)).Sublist (turns.map (·.now)) := by
  induction turns generalizing journal with
  | nil => exact .slnil
  | cons t rest ih =>
    rw [hits]
    split
    · exact (ih _).cons_cons t.now
    · exact (ih _).cons t.now

theorem handled_sublist (batches : List (List Turn)) : (handled batches).Sublist batches.flatten := by
  induction batches with
  | nil => exact .slnil
  | cons batch rest ih => exact (List.takeWhile_sublist _).append ih

def day : Int := 24 * 60 * 60 * 1000

/-- As long as the clock does not go back, logs are collected for an expression at most
four times in a day. -/
theorem collections_per_day (expressions : List Expression) (batches : List (List Turn))
    (hclock : batches.flatten.Pairwise fun a b => a.now ≤ b.now) (i : Nat) (start : Int) :
    ((Spy.new expressions).run hasMatch batches |>.collections.filter fun c =>
      c.expression = i ∧ start ≤ c.time ∧ c.time ≤ start + day).length ≤ 4 := by
  set s := (Spy.new expressions).run hasMatch batches with hs
  have htimes : s.times i = passed silentPeriod ((Spy.new expressions).lastHit i)
      (hits hasMatch (Spy.new expressions).rexps i none (handled batches)) := by
    rw [hs, Spy.run_eq, Spy.foldl_times]
    rfl
  have hmono : (hits hasMatch (Spy.new expressions).rexps i none (handled batches)).Pairwise
      fun a b => a.time ≤ b.time := by
    have hsub := (@hits_sublist hasMatch (Spy.new expressions).rexps i none (handled batches)).trans
      ((handled_sublist batches).map _)
    exact List.pairwise_map.mp ((List.pairwise_map.mpr hclock).sublist hsub)
  have hspaced : (s.times i).Pairwise fun a b => silentPeriod < b - a := by
    rw [htimes]
    exact passed_spaced hmono
  have hfilter : ((s.collections.filter fun c => c.expression = i ∧ start ≤ c.time ∧ c.time ≤ start + day).map
      (·.time)) = (s.times i).filter fun t => start ≤ t ∧ t ≤ start + day := by
    rw [Spy.times, List.filter_map, List.filter_filter]
    congr 1
    refine List.filter_congr fun c _ => ?_
    by_cases hc : c.expression = i <;> simp [hc]
  have hlen := congrArg List.length hfilter
  rw [List.length_map] at hlen
  rw [hlen]
  have hday : day = (4 : Nat) * silentPeriod := by decide
  have hin : ∀ t ∈ (s.times i).filter fun t => start ≤ t ∧ t ≤ start + day,
      start ≤ t ∧ t ≤ start + (4 : Nat) * silentPeriod := by
    intro t ht
    rw [← hday]
    simpa using (List.mem_filter.mp ht).2
  exact spaced_length (by decide) (by decide) (hspaced.filter _) hin

/-- An entry of the kernel comes at `now`, with the battery full. -/
def kernelEntry (now : Int) : Turn := ⟨1, fun _ => some [], now, false⟩

/-- Of three entries in a day, the second one too early. -/
theorem collections_per_day_three :
    ((Spy.new [Spy.wlan]).run (fun _ _ => true)
      [[kernelEntry 100000000, kernelEntry 110000000], [kernelEntry 140000000]] |>.collections.filter fun c =>
        c.expression = 0 ∧ 100000000 ≤ c.time ∧ c.time ≤ 100000000 + day).length ≤ 4 :=
  collections_per_day [Spy.wlan] _ (by decide) 0 100000000

/-! ### Starvation -/

namespace Spy

/-- Logs were collected for expression `i` in the silent period before `now`. -/
def Recent (s : Spy) (i : Nat) (now : Int) : Prop :=
  ∃ c ∈ s.collections, c.expression = i ∧ now - silentPeriod ≤ c.time ∧ c.time ≤ now

/-- A turn has logs collected for expression `i`. -/
def Collects (hasMatch : Text → Bytes → Bool) (s : Spy) (t : Turn) (i : Nat) : Prop :=
  ∃ later, (s.turn hasMatch t).collections = s.collections ++ later ∧ ∃ c ∈ later, c.expression = i ∧ c.time = t.now

end Spy

section Starvation
variable (hasMatch : Text → Bytes → Bool) (expressions : List Expression)

/-- The spy, after some turns. -/
def spyAfter (before : List Turn) : Spy := before.foldl (Spy.turn hasMatch) (Spy.new expressions)

/-- The hits of expression `i` in some turns. -/
def hitsOf (i : Nat) (before : List Turn) : List Hit := hits hasMatch (expressions.map (·.rexp)) i none before

/-- An entry that matches an expression has logs collected for it, when power saving is off
and none were collected for it during the silent period before. -/
def Fed (batches : List (List Turn)) : Prop :=
  ∀ before t after, handled batches = before ++ t :: after → 0 < t.result → t.savePower = false →
    ∀ i e, expressions[i]? = some e → e.matches hasMatch (some t.entry) = true →
      ¬(spyAfter hasMatch expressions before).Recent i t.now →
        (spyAfter hasMatch expressions before).Collects hasMatch t i

/-- Each entry that matches an expression with power saving off hits it, more than the
silent period after the last hit; or else a hit in the silent period before has passed. -/
def Undisturbed (batches : List (List Turn)) : Prop :=
  ∀ before t after, handled batches = before ++ t :: after → 0 < t.result → t.savePower = false →
    ∀ i e, expressions[i]? = some e → e.matches hasMatch (some t.entry) = true →
      (firstMatch hasMatch (expressions.map (·.rexp)) (some t.entry) = some i ∧
        silentPeriod < t.now - latest e.lastHit (hitsOf hasMatch expressions i before)) ∨
      ∃ p ∈ passed silentPeriod e.lastHit (hitsOf hasMatch expressions i before),
        t.now - silentPeriod ≤ p ∧ p ≤ t.now

end Starvation

theorem collects_iff (s : Spy) (t : Turn) (i : Nat) : s.Collects hasMatch t i ↔
    firstMatch hasMatch s.rexps (t.seen s.current) = some i ∧
      silentPeriod < t.now - s.lastHit i ∧ t.savePower = false := by
  simp only [Spy.Collects, Spy.turn_collections, List.append_cancel_left_eq, exists_eq_left', evaluate_collections]
  change (∃ c ∈ (firstMatch hasMatch s.rexps (t.seen s.current)).elim [] fun k =>
    if t.now - s.lastHit k > silentPeriod ∧ t.savePower = false then [_] else [], _) ↔ _
  cases firstMatch hasMatch s.rexps (t.seen s.current) with
  | none => simp
  | some k =>
    simp only [Option.elim_some, Nat.zero_add, Option.some.injEq]
    constructor
    · rintro ⟨c, hc, rfl, -⟩
      split at hc
      · rename_i hpass
        obtain rfl := List.mem_singleton.mp hc
        exact ⟨rfl, hpass⟩
      · cases hc
    · rintro ⟨rfl, hpass⟩
      rw [if_pos hpass]
      exact ⟨_, List.mem_singleton_self _, rfl, rfl⟩

section Starvation
variable {expressions : List Expression} {i : Nat} {e : Expression}

theorem new_lastHit (he : expressions[i]? = some e) : (Spy.new expressions).lastHit i = e.lastHit := by
  simp [Spy.lastHit, Spy.new, List.getD_eq_getElem?_getD, he]

theorem spyAfter_lastHit (he : expressions[i]? = some e) (before : List Turn) :
    (spyAfter hasMatch expressions before).lastHit i = latest e.lastHit (hitsOf hasMatch expressions i before) := by
  rw [spyAfter, Spy.foldl_lastHit, new_lastHit he]
  rfl

theorem spyAfter_recent (he : expressions[i]? = some e) (before : List Turn) (now : Int) :
    (spyAfter hasMatch expressions before).Recent i now ↔
      ∃ p ∈ passed silentPeriod e.lastHit (hitsOf hasMatch expressions i before),
        now - silentPeriod ≤ p ∧ p ≤ now := by
  have htimes : (spyAfter hasMatch expressions before).times i =
      passed silentPeriod e.lastHit (hitsOf hasMatch expressions i before) := by
    rw [spyAfter, Spy.foldl_times, new_lastHit he]
    rfl
  rw [← htimes]
  simp [Spy.Recent, Spy.times, and_assoc]

/-- One entry. -/
theorem fed_turn_iff (he : expressions[i]? = some e) {t : Turn} (hentry : 0 < t.result)
    (hpower : t.savePower = false) (before : List Turn) :
    (¬(spyAfter hasMatch expressions before).Recent i t.now →
      (spyAfter hasMatch expressions before).Collects hasMatch t i) ↔
    (firstMatch hasMatch (expressions.map (·.rexp)) (some t.entry) = some i ∧
        silentPeriod < t.now - latest e.lastHit (hitsOf hasMatch expressions i before)) ∨
      ∃ p ∈ passed silentPeriod e.lastHit (hitsOf hasMatch expressions i before),
        t.now - silentPeriod ≤ p ∧ p ≤ t.now := by
  have hseen : t.seen (spyAfter hasMatch expressions before).current = some t.entry := if_pos hentry
  have hrexps : (spyAfter hasMatch expressions before).rexps = expressions.map (·.rexp) := Spy.foldl_rexps before _
  rw [collects_iff, hseen, hrexps, spyAfter_lastHit he, spyAfter_recent he, or_iff_not_imp_right]
  simp only [hpower, and_true]

end Starvation

/-- The expressions are fed when they are undisturbed, and in no other case. -/
theorem fed_iff (expressions : List Expression) (batches : List (List Turn)) :
    Fed hasMatch expressions batches ↔ Undisturbed hasMatch expressions batches := by
  constructor
  · intro h before t after heq hentry hpower i e he hmatch
    exact (fed_turn_iff he hentry hpower before).mp (h before t after heq hentry hpower i e he hmatch)
  · intro h before t after heq hentry hpower i e he hmatch
    exact (fed_turn_iff he hentry hpower before).mpr (h before t after heq hentry hpower i e he hmatch)

/-- Entries every five hours: logs are collected for the first one only. -/
theorem every_five_hours : ¬Fed (fun _ _ => true) [Spy.wlan]
    [[kernelEntry 36000000, kernelEntry 54000000, kernelEntry 72000000]] := by
  intro h
  have hquiet : ¬(spyAfter (fun _ _ => true) [Spy.wlan] [kernelEntry 36000000, kernelEntry 54000000]).Recent 0
      72000000 := by
    unfold Spy.Recent
    decide +kernel
  have hcollects := h [kernelEntry 36000000, kernelEntry 54000000] (kernelEntry 72000000) [] rfl (by decide) rfl 0
    Spy.wlan rfl (by decide) hquiet
  have hearly := (collects_iff _ _ _).mp hcollects
  exact absurd hearly.2.1 (by decide +kernel)

end CrashReporter.JournalSpy
