import CrashReporter.Monitor.DaemonMonitor
import CrashReporter.Monitor.Duplicates

/-! Which reports the monitor deletes.

A report is announced first and deleted later, if it is one too many; in between files come
and go. The counters of the handled list are reset, and wrap, but never get ahead of the
announcements. -/
namespace CrashReporter.Monitor
open Reactor

/-- The key by which a report is a duplicate, none without a crash. -/
def keyOf (path : Text) : Option Key := Arrival.key ⟨path, 0⟩

/-- A report of this key is announced. -/
def Output.announces (k : Key) : Output → Bool
  | .richCoreNotify path => keyOf path = some k
  | _ => false

/-- A report of this key is announced and has not been handled. -/
def Call.handles (k : Key) : Call → Bool
  | .richCoreFound path => keyOf path = some k
  | .updateCoreList => false

def announced (k : Key) (log : List Output) : Nat := log.countP (·.announces k)

def unhandled (k : Key) (stack : List Call) : Nat := stack.countP (·.handles k)

/-- The counter of a key. -/
def counter (k : Key) (handled : List HandledRichCore) : Int := ((entry k handled).map (·.count)).getD 0

/-- A report was deleted that had been announced, and at least `m` of its kind before it. -/
def Surplus (m : Int) (path : Text) (earlier : List Output) : Prop :=
  ∃ k : Key, keyOf path = some k ∧ k.2 ≠ sigquit ∧ .richCoreNotify path ∈ earlier ∧ m < announced k earlier

/-- Nothing but surplus reports has been deleted. -/
def OnlySurplus (m : Int) (log : List Output) : Prop :=
  ∀ path earlier, .removed path :: earlier <:+ log → Surplus m path earlier

/-- The maximum is never less than `m`. -/
def AtLeast (m : Int) : Guard State Call Event := fun _ a =>
  ∀ settings maximum, a = .event (.settings settings maximum) → m ≤ maximum

/-- The counters are not ahead of the announcements. -/
structure Accounted (m : Int) (s : State) (stack : List Call) : Prop where
  maximum : m ≤ s.autoDeleteMaxSimilarCores
  counted : ∀ k, counter k s.handledRichCores + unhandled k stack ≤ announced k s.log
  waiting : ∀ k, unhandled k stack ≤ announced k s.log
  range : ∀ k, -2 ^ 31 ≤ counter k s.handledRichCores
  found : ∀ path, .richCoreFound path ∈ stack → .richCoreNotify path ∈ s.log
  deleted : OnlySurplus m s.log

/-! ### One report -/

section Check
variable {maximum now : Int} {path : Text} {handled : List HandledRichCore} {k k' : Key}

theorem wrap_bounds (n : Int) :
    -2 ^ 31 ≤ HandledRichCore.wrap n ∧ (-2 ^ 31 ≤ n → HandledRichCore.wrap n ≤ n) := by
  unfold HandledRichCore.wrap
  constructor
  · have h := @Int.le_bmod n 4294967296 (by decide)
    omega
  · intro hn
    simp only [Int.bmod]
    omega

theorem again_count (e : HandledRichCore) (now : Int) (he : -2 ^ 31 ≤ e.count) :
    -2 ^ 31 ≤ (e.again now).count ∧ (e.again now).count ≤ max e.count 0 + 1 := by
  unfold HandledRichCore.again
  split
  · have h := wrap_bounds (0 + 1)
    refine ⟨h.1, ?_⟩
    have hle := h.2 (by decide)
    dsimp only
    omega
  · have h := wrap_bounds (e.count + 1)
    refine ⟨h.1, ?_⟩
    have hle := h.2 (by omega)
    dsimp only
    omega

/-- The first report of its kind. -/
theorem counter_append (he : entry k handled = none) :
    counter k' (handled ++ [⟨k.1, k.2, 1, now⟩]) = if k = k' then 1 else counter k' handled := by
  by_cases hk : k = k'
  · subst hk
    rw [if_pos rfl, counter, entry, List.find?_append, show handled.find? _ = none from he]
    simp [HandledRichCore.key]
  · rw [if_neg hk, counter, entry, List.find?_append]
    simp [counter, entry, HandledRichCore.key, hk]

/-- A report counts once for its own key, and is deleted when its counter is beyond the maximum. -/
theorem counter_check (hrange : ∀ k, -2 ^ 31 ≤ counter k handled) (maximum now : Int) (path : Text) :
    (∀ k, -2 ^ 31 ≤ counter k (checkForDuplicates maximum now path handled).2 ∧
      counter k (checkForDuplicates maximum now path handled).2 ≤
        if keyOf path = some k then max (counter k handled) 0 + 1 else counter k handled) ∧
    ((checkForDuplicates maximum now path handled).1 = true →
      ∃ k, keyOf path = some k ∧ maximum < counter k (checkForDuplicates maximum now path handled).2) := by
  cases hk : keyOf path with
  | none =>
    have hnone : checkForDuplicates maximum now path handled = (false, handled) :=
      checkForDuplicates_crashless (r := ⟨path, now⟩) hk
    rw [hnone]
    exact ⟨fun k => ⟨hrange k, by simp⟩, by simp⟩
  | some k =>
    rcases checkForDuplicates_crash (r := ⟨path, now⟩) handled maximum hk with
      ⟨he, heq⟩ | ⟨e, handled', he, heq, -, hentry, hothers⟩
    · have hzero : counter k handled = 0 := by rw [counter, he]; rfl
      rw [heq]
      refine ⟨fun k' => ?_, by simp⟩
      rw [counter_append he]
      by_cases hkk : k = k'
      · subst hkk
        rw [if_pos rfl, if_pos rfl, hzero]
        decide
      · rw [if_neg hkk, if_neg fun he => hkk (Option.some.inj he)]
        exact ⟨hrange k', Int.le_refl _⟩
    · have hold : counter k handled = e.count := by rw [counter, he]; rfl
      have hcount := again_count e now (hold ▸ hrange k)
      have hagain : counter k handled' = (e.again now).count := by rw [counter, hentry]; rfl
      rw [heq]
      refine ⟨fun k' => ?_, fun ht => ⟨k, rfl, ?_⟩⟩
      · by_cases hkk : k = k'
        · subst hkk
          rw [if_pos rfl, hagain, hold]
          exact hcount
        · have hsame : counter k' handled' = counter k' handled := by
            rw [counter, hothers k' (Ne.symm hkk)]
            rfl
          rw [if_neg fun he => hkk (Option.some.inj he), hsame]
          exact ⟨hrange k', Int.le_refl _⟩
      · rw [hagain]
        exact of_decide_eq_true ht

end Check

/-! ### The log -/

section Log
variable {m : Int} {k : Key} {log : List Output} {o : Output}

theorem OnlySurplus.cons (h : OnlySurplus m log) (ho : ∀ path, o = .removed path → Surplus m path log) :
    OnlySurplus m (o :: log) := by
  intro path earlier hs
  rcases List.suffix_cons_iff.mp hs with he | hs
  · obtain ⟨rfl, rfl⟩ := List.cons.inj he
    exact ho path rfl
  · exact h path earlier hs

theorem announced_cons (h : ∀ path, o ≠ .richCoreNotify path) : announced k (o :: log) = announced k log := by
  refine List.countP_cons_of_neg ?_
  cases o <;> first | exact fun hk => Bool.noConfusion hk | exact absurd rfl (h _)

theorem Surplus.cons {path : Text} (h : Surplus m path log) (ho : ∀ path, o ≠ .richCoreNotify path) :
    Surplus m path (o :: log) := by
  obtain ⟨k, hk, hq, hn, hm⟩ := h
  refine ⟨k, hk, hq, List.mem_cons_of_mem _ hn, ?_⟩
  rwa [announced_cons ho]

end Log

/-! ### One step -/

section Step
variable {m : Int} {s : State} {stack rest : List Call} {path : Text}

/-- An output that announces nothing, and deletes no report that is not surplus. -/
theorem Accounted.emit (h : Accounted m s stack) {o : Output} (hn : ∀ path, o ≠ .richCoreNotify path)
    (hr : ∀ path, o = .removed path → Surplus m path s.log) : Accounted m (s.emit o) stack where
  maximum := h.maximum
  counted k := by
    rw [State.emit, announced_cons hn]
    exact h.counted k
  waiting k := by
    rw [State.emit, announced_cons hn]
    exact h.waiting k
  range := h.range
  found path hp := List.mem_cons_of_mem _ (h.found path hp)
  deleted := h.deleted.cons hr

/-- Nothing that is counted changes. -/
theorem Accounted.of_same {s' : State} (h : Accounted m s stack) (hm : m ≤ s'.autoDeleteMaxSimilarCores)
    (hh : s'.handledRichCores = s.handledRichCores) (hl : s'.log = s.log) : Accounted m s' stack where
  maximum := hm
  counted k := by
    rw [hh, hl]
    exact h.counted k
  waiting k := by
    rw [hl]
    exact h.waiting k
  range := by
    rw [hh]
    exact h.range
  found := by
    rw [hl]
    exact h.found
  deleted := by
    rw [hl]
    exact h.deleted

theorem Accounted.publish (h : Accounted m s stack) (path appName : Text) (isUserTerminated : Bool) :
    Accounted m (publish path appName isUserTerminated s) stack := by
  unfold Monitor.publish
  split
  · dsimp only
    refine Accounted.emit ?_ nofun nofun
    exact h.of_same h.maximum rfl rfl
  · exact h

theorem Accounted.autoUpload (h : Accounted m s stack) (path appName : Text) (isUserTerminated : Bool) :
    Accounted m (autoUpload path appName isUserTerminated s) stack := by
  unfold Monitor.autoUpload
  split
  · exact h
  · dsimp only
    split
    · exact h.publish ..
    · exact (h.publish ..).emit nofun nofun

theorem Accounted.dropDuplicate (h : Accounted m s stack) (hs : Surplus m path s.log) (appName : Text) :
    Accounted m (dropDuplicate path appName s) stack := by
  have hdrop {t : State} (ht : Accounted m t stack) (hs : Surplus m path t.log) (dir : CoreDir) (pending : Nat) :
      Accounted m ({t with dir := dir, pending := pending}.emit (.removed path)) stack := by
    have hset : Accounted m {t with dir := dir, pending := pending} stack := ht.of_same ht.maximum rfl rfl
    refine hset.emit nofun fun path' he => ?_
    obtain rfl := Output.removed.inj he
    exact hs
  unfold Monitor.dropDuplicate
  dsimp only
  split
  · exact hdrop (h.emit (o := .crashedAgain appName) nofun nofun) (hs.cons nofun) _ _
  · exact hdrop h hs _ _

theorem keyOf_signal {k : Key} (h : keyOf path = some k) :
    k.2 = Text.toInt ((parseCrashInfoFromFilename path).getD 2 []) := by
  unfold keyOf Arrival.key at h
  split at h
  · obtain rfl := Option.some.inj h
    rfl
  · cases h

theorem unhandled_cons (k : Key) (path : Text) (rest : List Call) :
    unhandled k (.richCoreFound path :: rest) = unhandled k rest + if keyOf path = some k then 1 else 0 := by
  rw [unhandled, List.countP_cons]
  simp [Call.handles, unhandled]

/-- The call that handles a report takes its announcement, and counts it at most once. -/
theorem Accounted.handled (h : Accounted m s (.richCoreFound path :: rest)) {handled : List HandledRichCore}
    (hrange : ∀ k, -2 ^ 31 ≤ counter k handled)
    (hle : ∀ k, counter k handled ≤
      if keyOf path = some k then max (counter k s.handledRichCores) 0 + 1 else counter k s.handledRichCores) :
    Accounted m {s with handledRichCores := handled} rest := by
  have hcounts (k : Key) : counter k handled + unhandled k rest ≤ announced k s.log ∧
      unhandled k rest ≤ announced k s.log := by
    have hcounted := h.counted k
    have hwaiting := h.waiting k
    have hk := hle k
    rw [unhandled_cons] at hcounted hwaiting
    by_cases hp : keyOf path = some k
    · rw [if_pos hp] at hk hcounted hwaiting
      omega
    · rw [if_neg hp] at hk hcounted hwaiting
      omega
  exact ⟨h.maximum, fun k => (hcounts k).1, fun k => (hcounts k).2, hrange,
    fun path hp => h.found path (List.mem_cons_of_mem _ hp), h.deleted⟩

theorem Accounted.richCoreFound (h : Accounted m s (.richCoreFound path :: rest)) :
    Accounted m (richCoreFound path s) rest := by
  have hfound : .richCoreNotify path ∈ s.log := h.found path (List.mem_cons_self ..)
  have hcheck := counter_check h.range s.autoDeleteMaxSimilarCores s.now path
  unfold Monitor.richCoreFound
  extract_lets details isUserTerminated appName checked t
  have hchecked : Accounted m t rest ∧ (checked.1 = true → Surplus m path t.log) := by
    by_cases hc : (!isUserTerminated && s.settings.autoDeleteDuplicates) = true
    · have hchecked : checked =
          checkForDuplicates s.autoDeleteMaxSimilarCores s.now path s.handledRichCores := if_pos hc
      have ht : Accounted m t rest := by
        refine h.handled ?_ ?_
        · rw [hchecked]
          exact fun k => (hcheck.1 k).1
        · rw [hchecked]
          exact fun k => (hcheck.1 k).2
      refine ⟨ht, fun hdup => ?_⟩
      rw [hchecked] at hdup
      obtain ⟨k, hk, hmax⟩ := hcheck.2 hdup
      refine ⟨k, hk, ?_, hfound, ?_⟩
      · rw [keyOf_signal hk]
        intro hq
        have hterminated : isUserTerminated = true := decide_eq_true hq
        rw [hterminated] at hc
        cases hc
      · have hcounted := ht.counted k
        have hmaximum := h.maximum
        have hcounter : counter k t.handledRichCores = counter k
          (checkForDuplicates s.autoDeleteMaxSimilarCores s.now path s.handledRichCores).2 := by rw [← hchecked]
        have hlog : t.log = s.log := rfl
        omega
    · have hchecked : checked = (false, s.handledRichCores) := if_neg hc
      refine ⟨h.handled ?_ ?_, ?_⟩
      · rw [hchecked]
        exact h.range
      · intro k
        have hsame : counter k checked.2 = counter k s.handledRichCores := by rw [hchecked]
        split <;> omega
      · rw [hchecked]
        exact nofun
  split
  · rename_i hdup
    exact hchecked.1.dropDuplicate (hchecked.2 hdup) _
  · exact hchecked.1.autoUpload ..

/-- A call that handles no report comes or goes. -/
theorem unhandled_updateCoreList (k : Key) (stack : List Call) :
    unhandled k (.updateCoreList :: stack) = unhandled k stack := by
  simp [unhandled, Call.handles]

theorem Accounted.of_stack {stack' : List Call} (h : Accounted m s stack)
    (hu : ∀ k, unhandled k stack' = unhandled k stack)
    (hf : ∀ path, .richCoreFound path ∈ stack' → .richCoreFound path ∈ stack) : Accounted m s stack' where
  __ := h
  counted k := by
    rw [hu]
    exact h.counted k
  waiting k := by
    rw [hu]
    exact h.waiting k
  found path hp := h.found path (hf path hp)

/-- A new report is announced, and is to be handled. -/
theorem Accounted.handleDirectoryChanged (h : Accounted m s stack) (listing : List Text) :
    Accounted m (handleDirectoryChanged listing s).1 ((handleDirectoryChanged listing s).2 ++ stack) := by
  unfold Monitor.handleDirectoryChanged
  split
  · exact h.of_stack (fun k => unhandled_updateCoreList k stack) fun path hp =>
      (List.mem_cons.mp hp).resolve_left nofun
  · rename_i filePath dir _
    have hannounced (k : Key) : announced k (.richCoreNotify filePath :: s.log) =
        announced k s.log + if keyOf filePath = some k then 1 else 0 := by
      rw [announced, List.countP_cons]
      simp [Output.announces, announced]
    have hunhandled (k : Key) : unhandled k ([.richCoreFound filePath] ++ stack) =
        unhandled k stack + if keyOf filePath = some k then 1 else 0 := unhandled_cons k filePath stack
    refine ⟨h.maximum, fun k => ?_, fun k => ?_, h.range, fun path hp => ?_, h.deleted.cons nofun⟩
    · have hcounted := h.counted k
      show counter k s.handledRichCores + _ ≤ (announced k (_ :: s.log) : Int)
      rw [hunhandled, hannounced]
      omega
    · have hwaiting := h.waiting k
      rw [hunhandled, State.emit, hannounced]
      omega
    · rcases List.mem_cons.mp hp with he | hp
      · rw [Call.richCoreFound.inj he]
        exact List.mem_cons_self ..
      · exact List.mem_cons_of_mem _ (h.found path hp)

end Step

/-! ### Every run -/

section Runs
variable {m : Int} {directory : Text} {files : List Text} {settings : Settings} {env : Upload.Environment}
  {now maximum : Int} {x : Config}

theorem accounted_of_reaches (hm : m ≤ maximum)
    (hx : Reaches monitor (AtLeast m) ⟨watching directory files settings env now maximum, []⟩ x) :
    Accounted m x.state x.stack := by
  refine hx.invariant (I := fun x => Accounted m x.state x.stack) ?_ ?_ ?_
  · refine ⟨hm, fun k => ?_, fun k => ?_, fun k => ?_, nofun, ?_⟩
    · exact Int.le_refl _
    · exact Nat.le_refl _
    · have hzero : counter k [] = 0 := rfl
      exact hzero ▸ Int.le_of_lt (by decide)
    · exact fun path earlier hs => absurd (List.suffix_nil.mp hs) nofun
  · intro s k rest _ _ h
    cases k with
    | updateCoreList =>
      have hpopped := h.of_stack (fun k => (unhandled_updateCoreList k rest).symm) fun path => List.mem_cons_of_mem _
      exact hpopped.of_same h.maximum rfl rfl
    | richCoreFound path => exact h.richCoreFound
  · intro s stack ev r _ hg _ hr h
    cases ev with
    | create name merged =>
      simp only [monitor, deliver, Option.ite_none_left_eq_some, Option.some.injEq] at hr
      obtain ⟨-, rfl⟩ := hr
      refine Accounted.emit ?_ (by simp) (by simp)
      exact h.of_same h.maximum rfl rfl
    | delete name merged =>
      simp only [monitor, deliver, Option.ite_none_right_eq_some, Option.some.injEq] at hr
      obtain ⟨-, rfl⟩ := hr
      refine Accounted.emit ?_ (by simp) (by simp)
      exact h.of_same h.maximum rfl rfl
    | directoryChanged listing =>
      simp only [monitor, deliver, Option.ite_none_right_eq_some, Option.some.injEq] at hr
      obtain ⟨-, rfl⟩ := hr
      refine Accounted.handleDirectoryChanged ?_ listing
      exact h.of_same h.maximum rfl rfl
    | settings settings maximum =>
      cases hr
      exact h.of_same (hg settings maximum rfl) rfl rfl
    | environment | clock | removal =>
      cases hr
      exact h.of_same h.maximum rfl rfl

/-- **The monitor deletes nothing but surplus reports: a deleted report includes a crash that
was not SIGQUIT, it was announced, and more reports of its application and signal had been
announced than the least maximum there has been.** -/
theorem only_surplus_deleted (hm : m ≤ maximum)
    (hx : Reaches monitor (AtLeast m) ⟨watching directory files settings env now maximum, []⟩ x) :
    OnlySurplus m x.state.log := (accounted_of_reaches hm hx).deleted

end Runs

/-- A directory with no reports, of which one of a kind is kept. -/
def oneKept : Config := ⟨watching "/cores".toList [] ⟨true, true, false⟩ .wlan 0 1, []⟩

def firstAgain : Text := "a-1-11-2.rcore".toList

/-- An application crashes twice. -/
def crashTwice : List Action := announceFirst ++
  [.event (.create firstAgain false), .event (.directoryChanged [first, firstAgain]), .run]

def crashedTwice : Config := (monitor.run crashTwice oneKept).get (by decide +kernel)

theorem only_surplus_deleted_twice : .removed ("/cores/".toList ++ firstAgain) ∈ crashedTwice.state.log ∧
    OnlySurplus 1 crashedTwice.state.log := by
  refine ⟨by decide +kernel, only_surplus_deleted (m := 1) (Int.le_refl 1) (Reaches.of_run .start ?_
    (Option.some_get (x := monitor.run crashTwice oneKept) (by decide +kernel)).symm)⟩
  refine Guarded.of_forall (P := fun a : Action => ∀ settings (maximum : Int),
    a = .event (.settings settings maximum) → 1 ≤ maximum) (fun a ha => ?_) _
  have hnone : ∀ b ∈ crashTwice, ∀ settings (maximum : Int), b ≠ .event (.settings settings maximum) := by
    intro b hb
    simp only [crashTwice, announceFirst, List.cons_append, List.nil_append, List.mem_cons, List.not_mem_nil,
      or_false] at hb
    rcases hb with rfl | rfl | rfl | rfl | rfl | rfl <;> exact nofun
  exact fun settings maximum he => absurd he (hnone a ha settings maximum)

end CrashReporter.Monitor
