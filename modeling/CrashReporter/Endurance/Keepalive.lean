import CrashReporter.Endurance.CollectDaemon

/-! When `endurance-collect-daemon` keeps the CPU awake.

The daemon asks MCE to keep the CPU awake when a heartbeat comes, again each time the
keepalive timer expires, and to stop when the collection is over. The descriptors are
those of the last select(), whatever an earlier branch of the turn has done since. -/
namespace CrashReporter.Endurance

namespace Daemon

/-- The keepalive timer is disarmed, and what MCE was told last, if anything, is to stop. -/
def MaySleep (d : Daemon) : Prop := d.keepaliveTimer = 0 ∧ d.requests.head? ≠ some .start

/-- The CPU is kept awake for a collection only. -/
def AwakeForWork (d : Daemon) : Prop := ¬d.ChildRunning → d.MaySleep

variable {d d' m : Daemon}

theorem Idle.not_childRunning (h : d.Idle) : ¬d.ChildRunning := by
  obtain ⟨-, hr, he⟩ := h
  rintro (hrun | ⟨hend, -⟩)
  · exact hrun hr
  · exact hend he

theorem Collecting.childRunning (h : d.Collecting) : d.ChildRunning := by
  obtain ⟨pid, -, ⟨hr, -⟩ | ⟨-, he, hs⟩⟩ := h
  · exact .inl (by simp [hr])
  · exact .inr ⟨by simp [he], hs⟩

theorem Lost.not_childRunning (h : d.Lost) : ¬d.ChildRunning := by
  obtain ⟨-, hr, he, -⟩ := h
  rintro (hrun | ⟨hend, -⟩)
  · exact hrun hr
  · exact hend he

/-! ### The branches of a turn -/

theorem heartbeat_timer (fork : Option Pid) : (d.heartbeat fork).keepaliveTimer = keepaliveSeconds := rfl

theorem childExit_maySleep {iphbWait : Bool} (h : d.childExit iphbWait = some m) : m.MaySleep := by
  cases iphbWait with
  | false => simp [childExit] at h
  | true =>
    obtain rfl := Option.some.inj h
    exact ⟨rfl, by simp [setTimer]⟩

/-- The last branch: an expired timer asks for another time. -/
theorem kept_maySleep {ready : FdSet} (k : Bool) :
    ({(if k then m.sendKeepalive else m) with fdset := ready} : Daemon).MaySleep ↔ k = false ∧ m.MaySleep := by
  cases k with
  | false => simp [MaySleep]
  | true => simp [MaySleep, sendKeepalive]

end Daemon

section Turns
variable {d d' : Daemon} {t : Turn}
open Daemon

/-- A turn that serves the exit of a collection. -/
theorem turn_exit (h : d.Idle ∨ d.Collecting) (hc : d.fdset.childexitfd = true) (hs : d.turn t = some d') :
    d'.Idle ∧ (d'.MaySleep ↔ d.fdset.keepalivefd = false) := by
  obtain ⟨m, ready, hm, rfl⟩ := turn_some hs
  rw [if_pos hc] at hm
  have hw : (d.beaten t).wait.running = [] ∧ (d.beaten t).wait.ended = [] := by
    obtain hidle | hcoll := h
    · exact beaten_childless hidle t
    · exact wait_collecting (beaten_collecting hcoll t)
  refine ⟨(kept_idle _ (childExit_idle hw hm)).1, ?_⟩
  rw [kept_maySleep]
  exact and_iff_left (childExit_maySleep hm)

/-- Any other turn goes from the heartbeat to the keepalive timer. -/
theorem turn_other (hc : d.fdset.childexitfd = false) (hs : d.turn t = some d') : ∃ ready,
    d' = {(if d.fdset.keepalivefd then (d.beaten t).sendKeepalive else d.beaten t) with fdset := ready} := by
  obtain ⟨m, ready, hm, rfl⟩ := turn_some hs
  rw [if_neg (by simp [hc])] at hm
  obtain rfl := Option.some.inj hm
  exact ⟨ready, rfl⟩

end Turns

/-! ### Every turn -/

/-- The keepalive timer is not ready when the exit of a collection is served; and when no
collection is under way, a heartbeat starts one, or neither the heartbeat nor the timer is
ready. -/
def Quiet (d : Daemon) : Event → Prop
  | .turn t =>
    if d.fdset.childexitfd then d.fdset.keepalivefd = false
    else d.childPid = 0 → if d.fdset.iphbfd then t.fork ≠ none else d.fdset.keepalivefd = false
  | .childEnds _ => True

/-- What holds at every top of the loop, as long as the turns are quiet. -/
structure Orderly (d : Daemon) : Prop where
  children : d.Idle ∨ d.Collecting
  awake : d.AwakeForWork

section Turns
variable {d d' : Daemon} {t : Turn}
open Daemon

theorem orderly_of_collecting (h : d.Collecting) : Orderly d := ⟨.inr h, fun hn => absurd h.childRunning hn⟩

theorem Orderly.turn_quiet (h : Orderly d) (hg : Quiet d (.turn t)) (hs : d.turn t = some d') : Orderly d' := by
  cases hc : d.fdset.childexitfd with
  | true =>
    obtain ⟨hidle, hsleep⟩ := turn_exit h.children hc hs
    simp only [Quiet, hc, if_true] at hg
    exact ⟨.inl hidle, fun _ => hsleep.mpr hg⟩
  | false =>
    obtain ⟨ready, rfl⟩ := turn_other hc hs
    obtain hidle | hcoll := h.children
    · simp only [Quiet, hc, hidle.1, Bool.false_eq_true, if_false, true_implies] at hg
      cases hb : d.fdset.iphbfd with
      | true =>
        -- The heartbeat has started a collection.
        rw [hb, if_pos rfl] at hg
        obtain ⟨pid, hpid⟩ := Option.ne_none_iff_exists'.mp hg
        refine orderly_of_collecting (kept_collecting _ ?_)
        rw [beaten, if_pos hb, hpid]
        exact heartbeat_idle hidle pid
      | false =>
        rw [hb, if_neg Bool.false_ne_true] at hg
        have hbeaten : d.beaten t = d := by rw [beaten, if_neg (by simp [hb])]
        rw [hbeaten, hg]
        exact ⟨.inl hidle, fun _ => h.awake hidle.not_childRunning⟩
    · exact orderly_of_collecting (kept_collecting _ (beaten_collecting hcoll t))

/-- A turn that is not quiet keeps the CPU awake, with no collection running. -/
theorem Orderly.turn_loud (h : Orderly d) (hg : ¬Quiet d (.turn t)) (hs : d.turn t = some d') :
    ¬d'.AwakeForWork := by
  cases hc : d.fdset.childexitfd with
  | true =>
    obtain ⟨hidle, hsleep⟩ := turn_exit h.children hc hs
    simp only [Quiet, hc, if_true] at hg
    exact fun hawake => hg (hsleep.mp (hawake hidle.not_childRunning))
  | false =>
    obtain ⟨ready, rfl⟩ := turn_other hc hs
    simp only [Quiet, hc, Bool.false_eq_true, if_false, Classical.not_imp] at hg
    obtain ⟨hp, hg⟩ := hg
    have hidle : d.Idle := h.children.resolve_right fun hcoll => hcoll.childPid_ne hp
    cases hb : d.fdset.iphbfd with
    | true =>
      -- fork() has failed, and the timer is armed.
      rw [hb, if_pos rfl, not_not] at hg
      have hbeaten : d.beaten t = d.heartbeat none := by rw [beaten, if_pos hb, hg]
      rw [hbeaten]
      intro hawake
      have hsleep := (kept_maySleep _).mp (hawake (kept_lost _ (heartbeat_fails hidle)).not_childRunning)
      exact absurd (hsleep.2.1.symm.trans (heartbeat_timer none)) (by decide)
    | false =>
      rw [hb, if_neg Bool.false_ne_true] at hg
      have hbeaten : d.beaten t = d := by rw [beaten, if_neg (by simp [hb])]
      rw [hbeaten]
      intro hawake
      have hchildless : ¬({(if d.fdset.keepalivefd then d.sendKeepalive else d) with
          fdset := ready} : Daemon).ChildRunning := by
        cases d.fdset.keepalivefd <;> exact hidle.not_childRunning
      exact hg ((kept_maySleep _).mp (hawake hchildless)).1

end Turns

theorem started_orderly : Orderly Daemon.started :=
  ⟨.inl ⟨rfl, rfl, rfl⟩, fun _ => ⟨rfl, nofun⟩⟩

/-- **At every loop top the CPU is kept awake for a collection only, exactly when every
turn is quiet.** -/
theorem awake_for_work (es : List Event) :
    (∀ d ∈ Daemon.started :: daemon.visits es Daemon.started, d.AwakeForWork) ↔
      daemon.Within Quiet es Daemon.started := by
  rw [List.forall_mem_cons, and_iff_right started_orderly.awake]
  refine Machine.visits_iff_within (I := Orderly) ?_ ?_ started_orderly
  · intro d e d' h hg hs
    have horderly : Orderly d' := by
      cases e with
      | turn t => exact h.turn_quiet hg hs
      | childEnds pid => exact orderly_of_collecting (childEnds_collecting h.children hs)
    exact ⟨horderly, horderly.awake⟩
  · intro d e d' h hg hs
    cases e with
    | turn t => exact h.turn_loud hg hs
    | childEnds pid => exact absurd trivial hg

/-- A collection of two keepalive periods: its exit and the timer are served in one turn. -/
def exitWithTimer : List Event :=
  let started : Turn := ⟨some ⟨1, by decide⟩, true, some ⟨false, false, false, true⟩⟩
  let kept : Turn := ⟨none, true, some ⟨false, false, true, true⟩⟩
  let ended : Turn := ⟨none, true, some ⟨false, false, false, false⟩⟩
  [.turn started, .childEnds ⟨1, by decide⟩, .turn kept, .turn ended]

/-- The timer's request to stay awake follows the one to stop. -/
theorem awake_after_exit : ¬∀ es, ∀ d ∈ Daemon.started :: daemon.visits es Daemon.started, d.AwakeForWork := by
  intro h
  let d : Daemon := {Daemon.started with
    armed := true
    fdset := ⟨false, false, false, false⟩
    requests := [.start, .stop, .start, .start]}
  have hd : d.AwakeForWork := h exitWithTimer d (by decide)
  have hidle : d.Idle := ⟨rfl, rfl, rfl⟩
  exact (hd hidle.not_childRunning).2 rfl

end CrashReporter.Endurance
