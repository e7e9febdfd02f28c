import CrashReporter.Machine

/-! `endurance-collect-daemon`, from one top of its main loop to the next.

A turn of the loop serves the descriptors that the last select() found ready, in a
fixed order: the heartbeat, the exit of the collection, the signals that end the
program, the keepalive timer. What the system decides comes with the turn: whether
fork() and iphb_wait() succeed, and what the next select() reports. The daemon is
woken next by the SIGCHLD of a collection or by a heartbeat it has asked for. -/
namespace CrashReporter.Endurance

/-- `fdset`, as select() leaves it. -/
structure FdSet where
  iphbfd : Bool
  sigfd : Bool
  childexitfd : Bool
  keepalivefd : Bool
deriving DecidableEq

/-- The CPU keepalive requests to MCE. -/
inductive Keepalive where
  | start | stop
deriving DecidableEq

/-- A process id. -/
abbrev Pid := {pid : Int // 0 < pid}

structure Daemon where
  /-- The collection that was started, 0 for none; what fork() returned. -/
  childPid : Int
  /-- The collections that run, and those that have ended and were not waited for. -/
  running : List Pid
  ended : List Pid
  /-- A SIGCHLD waits at `childexitfd`. -/
  sigchld : Bool
  /-- A heartbeat was asked of iphb_wait() and has not been taken yet. -/
  armed : Bool
  /-- The period of `keepalivefd` in seconds, 0 when it is disarmed. -/
  keepaliveTimer : Nat
  fdset : FdSet
  /-- What MCE was sent, latest first. -/
  requests : List Keepalive
deriving DecidableEq

def keepaliveSeconds : Nat := 30

namespace Daemon

def setTimer (seconds : Nat) (d : Daemon) : Daemon := {d with keepaliveTimer := seconds}

def sendKeepalive (d : Daemon) : Daemon := {d with requests := .start :: d.requests}

/-- `fork` is the child, when there is one. -/
def invokeEnduranceCollect (fork : Option Pid) (d : Daemon) : Daemon :=
  if d.childPid ≠ 0 then d
  else match fork with
    | none => {d with childPid := -1}
    | some pid => {d with childPid := pid, running := d.running ++ [pid]}

/-- The heartbeat is there. -/
def heartbeat (fork : Option Pid) (d : Daemon) : Daemon :=
  let d := (d.sendKeepalive.invokeEnduranceCollect fork).setTimer keepaliveSeconds
  {d with armed := false}

/-- `wait(NULL)`: takes a child that has ended, waits for one that runs, and fails
when there is none. -/
def wait (d : Daemon) : Daemon :=
  match d.ended, d.running with
  | _ :: rest, _ => {d with ended := rest}
  | [], _ :: rest => {d with running := rest, sigchld := true}
  | [], [] => d

/-- The collection is over; the loop ends when iphb_wait() fails. -/
def childExit (iphbWait : Bool) (d : Daemon) : Option Daemon :=
  let d := {d.wait with childPid := 0}.setTimer 0
  let d := {d with sigchld := false, requests := .stop :: d.requests}
  if iphbWait then some {d with armed := true} else none

end Daemon

/-- What the system decides in one turn of the loop. -/
structure Turn where
  fork : Option Pid
  /-- iphb_wait() succeeds. -/
  iphbWait : Bool
  /-- What select() reports, none when it fails. -/
  select : Option FdSet
deriving DecidableEq

/-- One turn, none when it leaves the loop. -/
def Daemon.turn (t : Turn) (d : Daemon) : Option Daemon :=
  let fdset := d.fdset
  let d := if fdset.iphbfd then d.heartbeat t.fork else d
  (if fdset.childexitfd then d.childExit t.iphbWait else some d).bind fun d =>
    if fdset.sigfd then none
    else
      let d := if fdset.keepalivefd then d.sendKeepalive else d
      t.select.map fun ready => {d with fdset := ready}

inductive Event where
  | turn (t : Turn)
  /-- A collection ends. -/
  | childEnds (pid : Pid)
deriving DecidableEq

def Daemon.childEnds (pid : Pid) (d : Daemon) : Option Daemon :=
  if d.running.contains pid then
    some {d with running := d.running.erase pid, ended := d.ended ++ [pid], sigchld := true}
  else none

/-- The daemon at the tops of its loop. -/
def daemon : Machine Daemon Event where
  step d
    | .turn t => d.turn t
    | .childEnds pid => d.childEnds pid

/-- The first time at the top: the loop begins with a heartbeat. -/
def Daemon.started : Daemon where
  childPid := 0
  running := []
  ended := []
  sigchld := false
  armed := false
  keepaliveTimer := 0
  fdset := ⟨true, false, false, false⟩
  requests := []

/-! ### The next wake-up -/

namespace Daemon

/-- A collection runs, or has ended and its SIGCHLD is pending. -/
def ChildRunning (d : Daemon) : Prop := d.running ≠ [] ∨ d.ended ≠ [] ∧ d.sigchld = true

def NextWakeUp (d : Daemon) : Prop := d.ChildRunning ∨ d.armed = true

/-- No collection was started that is not over. -/
def Idle (d : Daemon) : Prop := d.childPid = 0 ∧ d.running = [] ∧ d.ended = []

/-- One collection is under way, the one that `childPid` names. -/
def Collecting (d : Daemon) : Prop := ∃ pid : Pid, d.childPid = pid ∧
  (d.running = [pid] ∧ d.ended = [] ∨ d.running = [] ∧ d.ended = [pid] ∧ d.sigchld = true)

/-- fork() has failed, and nothing will wake the daemon up. -/
def Lost (d : Daemon) : Prop := d.childPid = -1 ∧ d.running = [] ∧ d.ended = [] ∧ d.armed = false

/-- A heartbeat is asked for or there, or a collection is under way. -/
def Awaited (d : Daemon) : Prop := d.Idle ∧ (d.armed = true ∨ d.fdset.iphbfd = true) ∨ d.Collecting

variable {d d' : Daemon}

theorem Collecting.nextWakeUp (h : d.Collecting) : d.NextWakeUp := by
  obtain ⟨pid, -, ⟨hr, -⟩ | ⟨-, he, hs⟩⟩ := h
  · exact .inl (.inl (by simp [hr]))
  · exact .inl (.inr ⟨by simp [he], hs⟩)

theorem Collecting.childPid_ne (h : d.Collecting) : d.childPid ≠ 0 := by
  obtain ⟨⟨pid, hpos⟩, hp, -⟩ := h
  rw [hp]
  exact Int.ne_of_gt hpos

theorem Lost.not_nextWakeUp (h : d.Lost) : ¬ d.NextWakeUp := by
  obtain ⟨-, hr, he, ha⟩ := h
  rintro ((hrun | ⟨hend, -⟩) | harmed)
  · exact hrun hr
  · exact hend he
  · simp [ha] at harmed

/-! ### The branches of a turn -/

theorem heartbeat_idle (h : d.Idle) (pid : Pid) : (d.heartbeat (some pid)).Collecting := by
  obtain ⟨hp, hr, he⟩ := h
  refine ⟨pid, ?_, .inl ⟨?_, ?_⟩⟩
  all_goals simp [heartbeat, invokeEnduranceCollect, sendKeepalive, setTimer, hp, hr, he]

theorem heartbeat_fails (h : d.Idle) : (d.heartbeat none).Lost := by
  obtain ⟨hp, hr, he⟩ := h
  simp [heartbeat, invokeEnduranceCollect, sendKeepalive, setTimer, Lost, hp, hr, he]

/-- The previous collection is still running: no new one. -/
theorem heartbeat_collecting (h : d.Collecting) (fork : Option Pid) : (d.heartbeat fork).Collecting := by
  have hsame : d.sendKeepalive.invokeEnduranceCollect fork = d.sendKeepalive := if_pos h.childPid_ne
  unfold heartbeat
  rw [hsame]
  exact h

theorem wait_collecting (h : d.Collecting) : d.wait.running = [] ∧ d.wait.ended = [] := by
  obtain ⟨pid, -, ⟨hr, he⟩ | ⟨hr, he, -⟩⟩ := h
  · simp [wait, hr, he]
  · simp [wait, hr, he]

theorem wait_childless (hr : d.running = []) (he : d.ended = []) :
    d.wait.running = [] ∧ d.wait.ended = [] := by
  simp [wait, hr, he]

/-- After the exit of a collection there is none, and a heartbeat is asked for. -/
theorem childExit_idle {iphbWait : Bool} (hw : d.wait.running = [] ∧ d.wait.ended = [])
    (h : d.childExit iphbWait = some d') : d'.Idle ∧ d'.armed = true := by
  cases iphbWait with
  | false => simp [childExit] at h
  | true =>
    obtain rfl := Option.some.inj h
    exact ⟨⟨rfl, hw.1, hw.2⟩, rfl⟩

/-- The turn after its first branch. -/
def beaten (t : Turn) (d : Daemon) : Daemon := if d.fdset.iphbfd then d.heartbeat t.fork else d

/-- A turn that comes back to the top has gone through its four branches. -/
theorem turn_some {t : Turn} (h : d.turn t = some d') : ∃ m ready,
    (if d.fdset.childexitfd then (d.beaten t).childExit t.iphbWait else some (d.beaten t)) = some m ∧
      d' = {(if d.fdset.keepalivefd then m.sendKeepalive else m) with fdset := ready} := by
  obtain ⟨m, hm, hrest⟩ := Option.bind_eq_some_iff.mp h
  by_cases hsig : d.fdset.sigfd = true
  · simp [hsig] at hrest
  · rw [if_neg hsig] at hrest
    obtain ⟨ready, -, hd⟩ := Option.map_eq_some_iff.mp hrest
    exact ⟨m, ready, hm, hd.symm⟩

/-- The keepalive timer and select() have no part in what wakes the daemon. -/
theorem kept_idle {m : Daemon} {ready : FdSet} (k : Bool) (h : m.Idle ∧ m.armed = true) :
    ({(if k then m.sendKeepalive else m) with fdset := ready} : Daemon).Idle ∧
      ({(if k then m.sendKeepalive else m) with fdset := ready} : Daemon).armed = true := by
  cases k <;> exact h

theorem kept_collecting {m : Daemon} {ready : FdSet} (k : Bool) (h : m.Collecting) :
    ({(if k then m.sendKeepalive else m) with fdset := ready} : Daemon).Collecting := by
  cases k <;> exact h

theorem kept_lost {m : Daemon} {ready : FdSet} (k : Bool) (h : m.Lost) :
    ({(if k then m.sendKeepalive else m) with fdset := ready} : Daemon).Lost := by
  cases k <;> exact h

end Daemon

/-! ### Every turn -/

/-- When a heartbeat starts a collection and fork() fails, SIGCHLD is served in the same
turn. -/
def ForkCovered (d : Daemon) : Event → Prop
  | .turn t => d.fdset.iphbfd = true → d.childPid = 0 → t.fork = none → d.fdset.childexitfd = true
  | .childEnds _ => True

section Turns
variable {d d' : Daemon} {t : Turn}
open Daemon

theorem beaten_childless (h : d.Idle) (t : Turn) :
    (d.beaten t).wait.running = [] ∧ (d.beaten t).wait.ended = [] := by
  by_cases hb : d.fdset.iphbfd = true
  · rw [beaten, if_pos hb]
    cases hf : t.fork with
    | none => exact wait_childless (heartbeat_fails h).2.1 (heartbeat_fails h).2.2.1
    | some pid => exact wait_collecting (heartbeat_idle h pid)
  · rw [beaten, if_neg hb]
    exact wait_childless h.2.1 h.2.2

theorem beaten_collecting (h : d.Collecting) (t : Turn) : (d.beaten t).Collecting := by
  by_cases hb : d.fdset.iphbfd = true
  · rw [beaten, if_pos hb]
    exact heartbeat_collecting h t.fork
  · rwa [beaten, if_neg hb]

theorem turn_collecting (h : d.Collecting) (hs : d.turn t = some d') :
    d'.Idle ∧ d'.armed = true ∨ d'.Collecting := by
  obtain ⟨m, ready, hm, rfl⟩ := turn_some hs
  by_cases hc : d.fdset.childexitfd = true
  · rw [if_pos hc] at hm
    exact .inl (kept_idle _ (childExit_idle (wait_collecting (beaten_collecting h t)) hm))
  · rw [if_neg hc] at hm
    obtain rfl := Option.some.inj hm
    exact .inr (kept_collecting _ (beaten_collecting h t))

theorem turn_idle (h : d.Idle) (hdue : d.armed = true ∨ d.fdset.iphbfd = true)
    (hg : ForkCovered d (.turn t)) (hs : d.turn t = some d') :
    d'.Idle ∧ d'.armed = true ∨ d'.Collecting := by
  obtain ⟨m, ready, hm, rfl⟩ := turn_some hs
  by_cases hc : d.fdset.childexitfd = true
  · rw [if_pos hc] at hm
    exact .inl (kept_idle _ (childExit_idle (beaten_childless h t) hm))
  · rw [if_neg hc] at hm
    obtain rfl := Option.some.inj hm
    by_cases hb : d.fdset.iphbfd = true
    · cases hf : t.fork with
      | none => exact absurd (hg hb h.1 hf) hc
      | some pid =>
        refine .inr (kept_collecting _ ?_)
        rw [beaten, if_pos hb, hf]
        exact heartbeat_idle h pid
    · refine .inl (kept_idle _ ?_)
      rw [beaten, if_neg hb]
      exact ⟨h, hdue.resolve_right hb⟩

/-- A fork() that fails with nothing to cover it leaves the daemon asleep for good. -/
theorem turn_lost (h : d.Awaited) (hg : ¬ ForkCovered d (.turn t)) (hs : d.turn t = some d') :
    d'.Lost := by
  simp only [ForkCovered, Classical.not_imp] at hg
  obtain ⟨hb, hp, hf, hc⟩ := hg
  obtain ⟨hidle, -⟩ | hcoll := h
  · obtain ⟨m, ready, hm, rfl⟩ := turn_some hs
    rw [if_neg hc] at hm
    obtain rfl := Option.some.inj hm
    refine kept_lost _ ?_
    rw [beaten, if_pos hb, hf]
    exact heartbeat_fails hidle
  · exact absurd hp hcoll.childPid_ne

/-- The collection that ends is the one under way. -/
theorem childEnds_collecting {pid : Pid} (h : d.Idle ∨ d.Collecting) (hs : d.childEnds pid = some d') :
    d'.Collecting := by
  unfold childEnds at hs
  split at hs
  · rename_i hrun
    have hmem : pid ∈ d.running := List.contains_iff_mem.mp hrun
    obtain rfl := Option.some.inj hs
    obtain ⟨-, hr, -⟩ | ⟨child, hp, ⟨hr, he⟩ | ⟨hr, -⟩⟩ := h
    · rw [hr] at hmem
      cases hmem
    · rw [hr] at hmem
      obtain rfl := List.mem_singleton.mp hmem
      exact ⟨pid, hp, .inr ⟨by simp [hr], by simp [he], rfl⟩⟩
    · rw [hr] at hmem
      cases hmem
  · cases hs

end Turns

theorem Daemon.started_awaited : Daemon.started.Awaited := .inl ⟨⟨rfl, rfl, rfl⟩, .inr rfl⟩

/-- **At every loop top after the first heartbeat the daemon will be woken, exactly when
no fork() fails uncovered**: then a collection is under way or a heartbeat asked for. -/
theorem next_wakeUp (es : List Event) :
    (∀ d ∈ daemon.visits es Daemon.started, d.NextWakeUp) ↔
      daemon.Within ForkCovered es Daemon.started := by
  refine Machine.visits_iff_within (I := Daemon.Awaited) ?_ ?_ Daemon.started_awaited
  · intro d e d' h hg hs
    have hnext : d'.Idle ∧ d'.armed = true ∨ d'.Collecting := by
      cases e with
      | turn t =>
        obtain ⟨hidle, hdue⟩ | hc := h
        · exact turn_idle hidle hdue hg hs
        · exact turn_collecting hc hs
      | childEnds pid => exact .inr (childEnds_collecting (h.imp_left And.left) hs)
    obtain ⟨hidle, harmed⟩ | hc := hnext
    · exact ⟨.inl ⟨hidle, .inl harmed⟩, .inr harmed⟩
    · exact ⟨.inr hc, hc.nextWakeUp⟩
  · intro d e d' h hg hs
    cases e with
    | turn t => exact (turn_lost h hg hs).not_nextWakeUp
    | childEnds pid => exact absurd trivial hg

/-- The first heartbeat cannot fork: nothing is ready any more, and nothing will be. -/
theorem first_fork_fails : ¬ ∀ es, ∀ d ∈ daemon.visits es Daemon.started, d.NextWakeUp := by
  intro h
  let quiet : FdSet := ⟨false, false, false, false⟩
  have hd := h [.turn ⟨none, true, some quiet⟩]
    {Daemon.started with
      childPid := -1
      keepaliveTimer := 30
      fdset := quiet
      requests := [.start]} (by decide)
  exact absurd hd (by rintro ((hr | ⟨he, -⟩) | ha) <;> simp_all [Daemon.started])

end CrashReporter.Endurance
