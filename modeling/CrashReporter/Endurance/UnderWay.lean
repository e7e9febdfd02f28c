import CrashReporter.Endurance.CollectDaemon

/-! The collection that `endurance-collect-daemon` has under way.

A heartbeat, a failed fork() or a SIGCHLD that nobody sent may come at any time. There is
one collection at a time all the same, and the CPU is kept awake until it is over. -/
namespace CrashReporter.Endurance

namespace Daemon

/-- The keepalive timer runs, and MCE was last told to keep the CPU awake. -/
def KeptAwake (d : Daemon) : Prop := d.keepaliveTimer = keepaliveSeconds ∧ d.requests.head? = some .start

def Childless (d : Daemon) : Prop := d.running = [] ∧ d.ended = []

/-- No collection is under way, or one for which the CPU is kept awake. -/
inductive UnderWay (d : Daemon) : Prop where
  | none (h : d.Childless)
  | one (h : d.Collecting) (awake : d.KeptAwake)

variable {d d' m : Daemon}

theorem Childless.of_idle (h : d.Idle) : d.Childless := h.2

/-- While `childPid` is not 0, a heartbeat starts nothing. -/
theorem heartbeat_pending (h : d.childPid ≠ 0) (hc : d.Childless) (fork : Option Pid) :
    (d.heartbeat fork).Childless := by
  simpa [heartbeat, invokeEnduranceCollect, sendKeepalive, setTimer, Childless, h] using hc

theorem heartbeat_keptAwake (fork : Option Pid) : (d.heartbeat fork).KeptAwake := by
  cases fork with
  | none =>
    by_cases h : d.childPid = 0 <;> simp [heartbeat, invokeEnduranceCollect, sendKeepalive, setTimer, KeptAwake, h]
  | some pid =>
    by_cases h : d.childPid = 0 <;> simp [heartbeat, invokeEnduranceCollect, sendKeepalive, setTimer, KeptAwake, h]

/-- The first branch of a turn starts at most one collection. -/
theorem UnderWay.beaten (h : d.UnderWay) (t : Turn) : (d.beaten t).UnderWay := by
  by_cases hb : d.fdset.iphbfd = true
  · rw [Daemon.beaten, if_pos hb]
    cases h with
    | none hc =>
      by_cases hp : d.childPid = 0
      · have hidle : d.Idle := ⟨hp, hc⟩
        cases hf : t.fork with
        | none => exact .none ⟨(heartbeat_fails hidle).2.1, (heartbeat_fails hidle).2.2.1⟩
        | some pid => exact .one (heartbeat_idle hidle pid) (heartbeat_keptAwake _)
      · exact .none (heartbeat_pending hp hc t.fork)
    | one hc => exact .one (heartbeat_collecting hc t.fork) (heartbeat_keptAwake _)
  · rwa [Daemon.beaten, if_neg hb]

/-- After the exit of a collection there is none, whether there was one or not. -/
theorem UnderWay.wait (h : d.UnderWay) : d.wait.Childless := by
  cases h with
  | none hc => exact wait_childless hc.1 hc.2
  | one hc => exact wait_collecting hc

theorem UnderWay.childExit {iphbWait : Bool} (h : d.UnderWay) (hs : d.childExit iphbWait = some d') :
    d'.UnderWay := .none (.of_idle (childExit_idle h.wait hs).1)

/-- The last branch only asks to keep the CPU awake once more. -/
theorem UnderWay.kept {ready : FdSet} (k : Bool) (h : m.UnderWay) :
    ({(if k then m.sendKeepalive else m) with fdset := ready} : Daemon).UnderWay := by
  cases h with
  | none hc => exact .none (by cases k <;> exact hc)
  | one hc hawake =>
    refine .one (kept_collecting k hc) ?_
    cases k with
    | true => exact ⟨hawake.1, rfl⟩
    | false => exact hawake

theorem UnderWay.turn {t : Turn} (h : d.UnderWay) (hs : d.turn t = some d') : d'.UnderWay := by
  obtain ⟨m, ready, hm, rfl⟩ := turn_some hs
  have hbeaten := h.beaten t
  by_cases hc : d.fdset.childexitfd = true
  · rw [if_pos hc] at hm
    exact (hbeaten.childExit hm).kept _
  · rw [if_neg hc] at hm
    obtain rfl := Option.some.inj hm
    exact hbeaten.kept _

theorem UnderWay.childEnds {pid : Pid} (h : d.UnderWay) (hs : d.childEnds pid = some d') : d'.UnderWay := by
  have hdaemon : d'.keepaliveTimer = d.keepaliveTimer ∧ d'.requests = d.requests ∧ pid ∈ d.running := by
    unfold Daemon.childEnds at hs
    split at hs
    · rename_i hrun
      obtain rfl := Option.some.inj hs
      exact ⟨rfl, rfl, List.contains_iff_mem.mp hrun⟩
    · cases hs
  obtain ⟨htimer, hrequests, hmem⟩ := hdaemon
  cases h with
  | none hc =>
    rw [hc.1] at hmem
    cases hmem
  | one hc hawake =>
    refine .one (childEnds_collecting (.inr hc) hs) ?_
    rw [KeptAwake, htimer, hrequests]
    exact hawake

end Daemon

open Daemon

/-- **There is one collection at a time, in every run, the one that `childPid` names, and
until it is waited for the CPU is kept awake.** -/
theorem collections_kept_awake (es : List Event) : ∀ d ∈ Daemon.started :: daemon.visits es Daemon.started,
    (d.running ++ d.ended).length ≤ 1 ∧ ∀ pid ∈ d.running ++ d.ended, d.childPid = pid ∧ d.KeptAwake := by
  have hstarted : Daemon.started.UnderWay := .none ⟨rfl, rfl⟩
  have hvisits : ∀ d ∈ daemon.visits es Daemon.started, d.UnderWay := by
    refine Machine.visits_invariant (G := fun _ _ => True) ?_ hstarted (Machine.within_true es _)
    intro d e d' h _ hs
    cases e with
    | turn t => exact h.turn hs
    | childEnds pid => exact h.childEnds hs
  intro d hd
  have h : d.UnderWay := List.forall_mem_cons.mpr ⟨hstarted, hvisits⟩ d hd
  cases h with
  | none hc =>
    obtain ⟨hr, he⟩ := hc
    simp [hr, he]
  | one hc hawake =>
    obtain ⟨child, hp, ⟨hr, he⟩ | ⟨hr, he, -⟩⟩ := hc <;> simp [hr, he, hp, hawake]

/-- A heartbeat comes while a collection runs, and then a SIGCHLD that nobody sent: it is
waited for, and the next heartbeat starts another one. -/
def strayExit : List Event :=
  let beat (n : Nat) ready : Turn := ⟨some ⟨(n + 1 : Nat), Int.natCast_succ_pos n⟩, true, some ready⟩
  [.turn (beat 0 ⟨true, false, false, false⟩), .turn (beat 1 ⟨false, false, true, false⟩),
    .turn (beat 2 ⟨true, false, false, true⟩), .turn (beat 3 ⟨false, false, false, true⟩)]

theorem strayExit_ne : daemon.visits strayExit Daemon.started ≠ [] := List.ne_nil_of_length_pos (by decide)

theorem collections_kept_awake_strayExit : let d := (daemon.visits strayExit Daemon.started).getLast strayExit_ne
    d.running = [⟨4, by decide⟩] ∧ d.childPid = 4 ∧ d.KeptAwake := by
  have hrunning : ((daemon.visits strayExit Daemon.started).getLast strayExit_ne).running = [⟨4, by decide⟩] := by
    decide
  have h := (collections_kept_awake strayExit _ (List.mem_cons_of_mem _ (List.getLast_mem strayExit_ne))).2
  exact ⟨hrunning, h ⟨4, by decide⟩ (by simp [hrunning])⟩

end CrashReporter.Endurance
