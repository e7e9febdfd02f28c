import Mathlib.Data.UInt
import CrashReporter.Settings.NotificationIds
import CrashReporter.Board
import CrashReporter.Machine

/-! The notifications that stay, one of each kind.

The daemon's monitor, the storage usage monitor and the uploader publish them, and each
program starts with the id that was saved last, so as to replace what is shown. The
notification server chooses the ids. It reports what was closed to whoever runs then, and
a `Notification` may forget its id at that. -/
namespace CrashReporter.Ui.Notifications

structure World where
  board : Board SavedId UInt32
  /-- The file of `CReporterSavedState`. -/
  state : CReporterSavedState
  /-- `replacesId()` of the notification, while its program has one. -/
  object : SavedId → Option UInt32
  /-- Signals closed() that have not arrived. -/
  closing : List UInt32

namespace World

def replacesId (n : SavedId) (w : World) : UInt32 := (w.object n).getD 0

/-- What the next publication will replace. -/
def current (w : World) (n : SavedId) : UInt32 := (w.object n).getD (n.read w.state)

/-- `setReplacesId` of a new notification. -/
def create (n : SavedId) (w : World) : World :=
  {w with object := Function.update w.object n (some (n.read w.state))}

def destroy (n : SavedId) (w : World) : World := {w with object := Function.update w.object n none}

def publish (n : SavedId) (id : UInt32) (w : World) : Option World :=
  if w.board.Answers (w.replacesId n) id then
    some {w with board := w.board.post n id, object := Function.update w.object n (some id)}
  else none

def close (n : SavedId) (forgets : Bool) (w : World) : World :=
  if w.replacesId n = 0 then w
  else {w with
    board := w.board.remove (w.replacesId n)
    closing := w.replacesId n :: w.closing
    object := if forgets then Function.update w.object n (some 0) else w.object}

/-- Saves `replacesId()`. -/
def save (n : SavedId) (w : World) : World := {w with state := w.state.access (.write n (w.replacesId n))}

/-- The rest of a run of the storage usage monitor that finds its limit reached. -/
def checkStorageUsage (id : UInt32) (w : World) : Option World :=
  ((w.create .storageUsage).publish .storageUsage id).map fun w => (w.save .storageUsage).destroy .storageUsage

/-- The part of `engineFinished` for the notifications enabled. -/
def engineFinished (sent total : Int32) (success failed : UInt32) (forgets : Bool) (w : World) : Option World :=
  (if sent < total then w.publish .uploadFailed failed else some (w.close .uploadFailed forgets)).bind fun w =>
    (if 0 < sent then w.publish .uploadSuccess success else some w).map fun w =>
      let sent := if 0 < sent then sent + w.state.uploadSuccessCount else sent
      let w := (w.save .uploadSuccess).save .uploadFailed
      {w with state := w.state.access (.setUploadSuccessCount sent)}

end World

inductive Event where
  | monitorCreated
  /-- The monitor is destroyed while the daemon runs. -/
  | monitorDestroyed
  /-- The daemon exits. Its saved state has been freed when the monitor saves its id. -/
  | daemonExited
  /-- `handleDirectoryChanged` publishes, and the server answers. -/
  | reportNotified (id : UInt32)
  | storageReported (id : UInt32)
  | uploaderStarted
  | engineFinished (sent total : Int32) (success failed : UInt32) (forgets : Bool)
  | uploaderEnded
  /-- The user closes a notification. -/
  | dismissed (id : UInt32)
  /-- closed() arrives. -/
  | closed (id : UInt32) (forgets : Bool)
  /-- The file is read again. -/
  | restart
deriving DecidableEq

def machine : Machine World Event where
  step w
    | .monitorCreated => if w.object .crash = none then some (w.create .crash) else none
    | .monitorDestroyed => if w.object .crash = none then none else some ((w.save .crash).destroy .crash)
    | .daemonExited => if w.object .crash = none then none else some (w.destroy .crash)
    | .reportNotified id => if w.object .crash = none then none else w.publish .crash id
    | .storageReported id => if w.object .storageUsage = none then w.checkStorageUsage id else none
    | .uploaderStarted =>
      if w.object .uploadSuccess = none ∧ w.object .uploadFailed = none then
        some ((w.create .uploadSuccess).create .uploadFailed)
      else none
    | .engineFinished sent total success failed forgets =>
      if w.object .uploadSuccess = none ∨ w.object .uploadFailed = none then none
      else w.engineFinished sent total success failed forgets
    | .uploaderEnded => some ((w.destroy .uploadSuccess).destroy .uploadFailed)
    | .dismissed id =>
      if w.board.shown.any (·.1 = id) then some {w with board := w.board.remove id, closing := id :: w.closing}
      else none
    | .closed id forgets =>
      if id ∈ w.closing then
        some {w with
          closing := w.closing.erase id
          object := fun n => if forgets ∧ w.object n = some id then some 0 else w.object n}
      else none
    | .restart => some {w with state := w.state.access .restart}

/-- Nothing has been saved yet. -/
def installed : World := ⟨⟨[], []⟩, ⟨⟨fun _ => .invalid⟩⟩, fun _ => none, []⟩

/-! ### One operation -/

/-- What is shown is what the next publication replaces, and so it will be for the next
program, but for the kinds whose id is not saved. -/
structure Tidy (unsaved : Set SavedId) (w : World) : Prop where
  plain : w.state.Plain
  referred : w.board.Referred w.current
  saved : ∀ n : SavedId, n.read w.state ≠ 0 → (n.read w.state, n) ∈ w.board.given
  stored : ∀ x ∈ w.board.shown, x.2 ∉ unsaved → x.1 = x.2.read w.state

section Operations
variable {w t : World} {n : SavedId} {id : UInt32} {U V : Set SavedId}

theorem current_of_object (h : w.object n = some id) : w.current n = id := by
  rw [World.current, h, Option.getD_some]

theorem replacesId_of_object (h : w.object n = some id) : w.replacesId n = id := by
  rw [World.replacesId, h, Option.getD_some]

namespace Tidy

theorem mono (h : Tidy U w) (hsub : ∀ x ∈ w.board.shown, x.2 ∈ U → x.2 ∈ V ∨ x.1 = x.2.read w.state) :
    Tidy V w where
  __ := h
  stored x hx hV := by
    by_cases hU : x.2 ∈ U
    · exact (hsub x hx hU).resolve_left hV
    · exact h.stored x hx hU

/-- An access that reads the same of every id. -/
theorem access (h : Tidy U w) {a : Access} (ha : ∀ n, a.stores n = none) :
    Tidy U {w with state := w.state.access a} := by
  have hread (n : SavedId) : n.read (w.state.access a) = n.read w.state := by
    rw [CReporterSavedState.read_access h.plain, ha, Option.getD_none]
  have hcurrent : World.current {w with state := w.state.access a} = w.current := by
    funext n
    rw [World.current, World.current, hread]
  refine ⟨h.plain.access a, ?_, fun n => ?_, fun x hx hU => ?_⟩
  · rw [hcurrent]
    exact h.referred
  · rw [hread]
    exact h.saved n
  · rw [hread]
    exact h.stored x hx hU

/-- Objects that refer to what is shown, or to nothing. -/
theorem objects (h : Tidy U w) {object : SavedId → Option UInt32}
    (hshown : ∀ x ∈ w.board.shown, (object x.2).getD (x.2.read w.state) = w.current x.2)
    (hknown : ∀ n id, object n = some id → id ≠ 0 → (id, n) ∈ w.board.given) :
    Tidy U {w with object := object} where
  plain := h.plain
  referred := by
    refine h.referred.redirect hshown fun n hn => ?_
    cases ho : object n with
    | none =>
      simp only [World.current, ho, Option.getD_none] at hn ⊢
      exact h.saved n hn
    | some id =>
      simp only [World.current, ho, Option.getD_some] at hn ⊢
      exact hknown n id ho hn
  saved := h.saved
  stored := h.stored

theorem known (h : Tidy U w) (ho : w.object n = some id) (hid : id ≠ 0) : (id, n) ∈ w.board.given := by
  have hknown := h.referred.known n
  rw [current_of_object ho] at hknown
  exact hknown hid

/-- A program starts, and its notification has none yet. -/
theorem create (h : Tidy U w) (hn : w.object n = none) : Tidy U (w.create n) := by
  refine h.objects (fun x _ => ?_) fun m id hm hid => ?_
  · by_cases hx : x.2 = n
    · rw [World.current, hx, hn, Function.update_self, Option.getD_some, Option.getD_none]
    · rw [Function.update_of_ne hx, World.current]
  · by_cases hm' : m = n
    · subst hm'
      rw [Function.update_self] at hm
      obtain rfl := Option.some.inj hm
      exact h.saved m hid
    · rw [Function.update_of_ne hm'] at hm
      exact h.known hm hid

/-- A program ends that has saved its id, or shows nothing. -/
theorem destroy (h : Tidy U w) (hn : n ∉ U) : Tidy U (w.destroy n) := by
  refine h.objects (fun x hx => ?_) fun m id hm hid => ?_
  · by_cases hxn : x.2 = n
    · subst hxn
      rw [Function.update_self, Option.getD_none, ← h.stored x hx hn]
      exact (h.referred.shown x hx).2
    · rw [Function.update_of_ne hxn, World.current]
  · by_cases hm' : m = n
    · subst hm'
      rw [Function.update_self] at hm
      cases hm
    · rw [Function.update_of_ne hm'] at hm
      exact h.known hm hid

theorem publish (h : Tidy U w) (ho : (w.object n).isSome = true) (hp : w.publish n id = some t) :
    Tidy (insert n U) t ∧ t.object = Function.update w.object n (some id) := by
  obtain ⟨old, ho⟩ := Option.isSome_iff_exists.mp ho
  simp only [World.publish, replacesId_of_object ho, Option.ite_none_right_eq_some, Option.some.injEq] at hp
  obtain ⟨ha, rfl⟩ := hp
  rw [← current_of_object ho] at ha
  have hcurrent : World.current {w with board := w.board.post n id, object := Function.update w.object n (some id)} =
      Function.update w.current n id := by
    funext m
    by_cases hm : m = n
    · subst hm
      simp [World.current]
    · simp [World.current, hm]
  refine ⟨⟨h.plain, ?_, fun m hm => List.mem_cons_of_mem _ (h.saved m hm), fun x hx hU => ?_⟩, rfl⟩
  · rw [hcurrent]
    exact h.referred.post ha
  · rcases List.mem_cons.mp hx with rfl | hx
    · exact absurd (Set.mem_insert n U) hU
    · exact h.stored x (List.mem_of_mem_filter hx) fun hmem => hU (Set.mem_insert_of_mem n hmem)

theorem remove (h : Tidy U w) (id : UInt32) (closing : List UInt32) :
    Tidy U {w with board := w.board.remove id, closing := closing} where
  plain := h.plain
  referred := h.referred.remove id
  saved := h.saved
  stored x hx := h.stored x (List.mem_of_mem_filter hx)

/-- A notification that refers to nothing that is shown may forget its id. -/
theorem forget (h : Tidy U w) (hgone : ∀ x ∈ w.board.shown, x.2 ≠ n) :
    Tidy U {w with object := Function.update w.object n (some 0)} := by
  refine h.objects (fun x hx => ?_) fun m id hm hid => ?_
  · rw [Function.update_of_ne (hgone x hx), World.current]
  · by_cases hm' : m = n
    · subst hm'
      rw [Function.update_self] at hm
      exact absurd (Option.some.inj hm).symm hid
    · rw [Function.update_of_ne hm'] at hm
      exact h.known hm hid

theorem close (h : Tidy U w) (ho : w.object n = some id) (forgets : Bool) : Tidy U (w.close n forgets) := by
  rw [World.close, replacesId_of_object ho]
  split
  · exact h
  · have hremoved := h.remove id (id :: w.closing)
    cases forgets with
    | false => exact hremoved
    | true =>
      refine hremoved.forget fun x hx hxn => ?_
      obtain ⟨hmem, hid⟩ := List.mem_filter.mp hx
      have hcurrent := (h.referred.shown x hmem).2
      rw [hxn, current_of_object ho] at hcurrent
      exact of_decide_eq_true hid hcurrent

/-- What is saved is the id of what is shown. -/
theorem save (h : Tidy U w) (ho : w.object n = some id) : Tidy (U \ {n}) (w.save n) := by
  have hread (m : SavedId) : m.read (w.state.access (.write n id)) = if n = m then id else m.read w.state := by
    rw [CReporterSavedState.read_access h.plain, Access.stores]
    split <;> rfl
  have hcurrent : World.current (w.save n) = w.current := by
    funext m
    rw [World.current, World.current, World.save, replacesId_of_object ho]
    by_cases hm : n = m
    · subst hm
      rw [ho, Option.getD_some, Option.getD_some]
    · rw [hread, if_neg hm]
  refine ⟨h.plain.access _, ?_, fun m => ?_, fun x hx hU => ?_⟩
  · rw [hcurrent]
    exact h.referred
  · simp only [World.save, replacesId_of_object ho, hread]
    split
    · rename_i hm
      subst hm
      exact h.known ho
    · exact h.saved m
  · simp only [World.save, replacesId_of_object ho, hread]
    split
    · rename_i hm
      rw [(h.referred.shown x hx).2, ← hm, current_of_object ho]
    · rename_i hm
      exact h.stored x hx fun hmem => hU ⟨hmem, fun he => hm he.symm⟩

theorem weaken (h : Tidy U w) (hsub : U ⊆ V) : Tidy V w := h.mono fun _ _ hU => .inl (hsub hU)

theorem checkStorageUsage (h : Tidy U w) (hn : w.object .storageUsage = none)
    (hs : w.checkStorageUsage id = some t) : Tidy U t := by
  obtain ⟨u, hp, rfl⟩ := Option.map_eq_some_iff.mp hs
  obtain ⟨hu, ho⟩ := (h.create hn).publish (by simp [World.create]) hp
  have hobject : u.object .storageUsage = some id := by rw [ho, Function.update_self]
  have hsaved := hu.save hobject
  refine (hsaved.destroy fun hmem => hmem.2 rfl).weaken ?_
  rintro n ⟨hn, hne⟩
  exact hn.resolve_left hne

theorem engineFinished {sent total : Int32} {success failed : UInt32} {forgets : Bool} (h : Tidy U w)
    (hsuccess : (w.object .uploadSuccess).isSome = true) (hfailed : (w.object .uploadFailed).isSome = true)
    (hs : w.engineFinished sent total success failed forgets = some t) : Tidy U t := by
  obtain ⟨w₁, h₁, hs⟩ := Option.bind_eq_some_iff.mp hs
  obtain ⟨w₂, h₂, rfl⟩ := Option.map_eq_some_iff.mp hs
  -- The failures, published or closed.
  have hfirst : Tidy (insert .uploadFailed U) w₁ ∧ (w₁.object .uploadFailed).isSome = true ∧
      (w₁.object .uploadSuccess).isSome = true := by
    split at h₁
    · obtain ⟨ht, ho⟩ := h.publish hfailed h₁
      refine ⟨ht, ?_, ?_⟩ <;> simp [ho, hsuccess]
    · obtain ⟨old, ho⟩ := Option.isSome_iff_exists.mp hfailed
      obtain rfl := Option.some.inj h₁
      refine ⟨(h.close ho forgets).weaken (Set.subset_insert ..), ?_⟩
      rw [World.close]
      cases forgets <;> split <;> simp [hsuccess, hfailed]
  obtain ⟨ht₁, hf₁, hs₁⟩ := hfirst
  -- The successes.
  have hsecond : Tidy (insert .uploadSuccess (insert .uploadFailed U)) w₂ ∧
      (w₂.object .uploadFailed).isSome = true ∧ (w₂.object .uploadSuccess).isSome = true := by
    split at h₂
    · obtain ⟨ht, ho⟩ := ht₁.publish hs₁ h₂
      refine ⟨ht, ?_, ?_⟩ <;> simp [ho, hf₁]
    · obtain rfl := Option.some.inj h₂
      exact ⟨ht₁.weaken (Set.subset_insert ..), hf₁, hs₁⟩
  obtain ⟨ht₂, hf₂, hs₂⟩ := hsecond
  obtain ⟨idSuccess, hs₂⟩ := Option.isSome_iff_exists.mp hs₂
  obtain ⟨idFailed, hf₂⟩ := Option.isSome_iff_exists.mp hf₂
  refine (((ht₂.save hs₂).save (n := .uploadFailed) hf₂).weaken ?_).access fun n => rfl
  rintro n ⟨⟨hn, hne⟩, hne'⟩
  exact (hn.resolve_left hne).resolve_left hne'

end Tidy

end Operations

/-! ### Every run -/

/-- The daemon does not exit with a notification whose id is not saved, and no `Notification`
forgets the id of what is shown again when closed() arrives. -/
def Kept (w : World) : Event → Prop
  | .daemonExited => ∀ x ∈ w.board.shown, x.2 = .crash → x.1 = SavedId.crash.read w.state
  | .closed id forgets => forgets = true → ∀ n, w.object n = some id → ∀ x ∈ w.board.shown, x.1 ≠ id
  | _ => True

/-- There is at most one notification of each kind, and the next one replaces it. -/
structure Replaced (w : World) : Prop where
  one : ∀ n : SavedId, (w.board.shown.filter (·.2 = n)).length ≤ 1
  next : ∀ x ∈ w.board.shown, x.1 = w.current x.2

theorem Tidy.replaced {w : World} {U : Set SavedId} (h : Tidy U w) : Replaced w :=
  ⟨h.referred.one, fun x hx => (h.referred.shown x hx).2⟩

section Runs
variable {w t : World} {e : Event}

theorem Tidy.step (h : Tidy {.crash} w) (hg : Kept w e) (hs : machine.step w e = some t) : Tidy {.crash} t := by
  cases e with
  | monitorCreated =>
    obtain ⟨hn, hs⟩ := Option.ite_none_right_eq_some.mp hs
    cases hs
    exact h.create hn
  | monitorDestroyed =>
    obtain ⟨hn, hs⟩ := Option.ite_none_left_eq_some.mp hs
    cases hs
    obtain ⟨id, ho⟩ := Option.ne_none_iff_exists'.mp hn
    exact ((h.save ho).destroy fun hmem => hmem.2 rfl).weaken Set.sdiff_subset
  | daemonExited =>
    obtain ⟨-, hs⟩ := Option.ite_none_left_eq_some.mp hs
    cases hs
    have hsaved : Tidy ∅ w := h.mono fun x hx hcrash => .inr ?_
    · exact (hsaved.destroy (Set.notMem_empty _)).weaken (Set.empty_subset _)
    · have hx2 : x.2 = .crash := hcrash
      rw [hx2]
      exact hg x hx hx2
  | reportNotified id =>
    obtain ⟨hn, hs⟩ := Option.ite_none_left_eq_some.mp hs
    have ht := (h.publish (Option.isSome_iff_ne_none.mpr hn) hs).1
    rwa [Set.insert_eq_of_mem (Set.mem_singleton _)] at ht
  | storageReported id =>
    obtain ⟨hn, hs⟩ := Option.ite_none_right_eq_some.mp hs
    exact h.checkStorageUsage hn hs
  | uploaderStarted =>
    obtain ⟨⟨hsuccess, hfailed⟩, hs⟩ := Option.ite_none_right_eq_some.mp hs
    cases hs
    refine (h.create hsuccess).create ?_
    simpa [World.create] using hfailed
  | engineFinished sent total success failed forgets =>
    obtain ⟨hn, hs⟩ := Option.ite_none_left_eq_some.mp hs
    obtain ⟨hsuccess, hfailed⟩ := not_or.mp hn
    exact h.engineFinished (Option.isSome_iff_ne_none.mpr hsuccess) (Option.isSome_iff_ne_none.mpr hfailed) hs
  | uploaderEnded =>
    cases hs
    exact (h.destroy (by simp)).destroy (by simp)
  | dismissed id =>
    obtain ⟨-, hs⟩ := Option.ite_none_right_eq_some.mp hs
    cases hs
    exact h.remove id _
  | closed id forgets =>
    obtain ⟨-, hs⟩ := Option.ite_none_right_eq_some.mp hs
    cases hs
    have ht : Tidy {.crash}
        {w with object := fun n => if forgets ∧ w.object n = some id then some 0 else w.object n} := by
      refine h.objects (fun x hx => ?_) fun n id' ho hid => ?_
      · split
        · rename_i hf
          have hcurrent := (h.referred.shown x hx).2
          rw [current_of_object hf.2] at hcurrent
          exact absurd hcurrent (hg hf.1 x.2 hf.2 x hx)
        · rfl
      · split at ho
        · exact absurd (Option.some.inj ho).symm hid
        · exact h.known ho hid
    exact ⟨ht.plain, ht.referred, ht.saved, ht.stored⟩
  | restart =>
    cases hs
    exact h.access fun n => rfl

/-- Any other step leaves a notification that the next one does not replace. -/
theorem Tidy.unkept (h : Tidy {.crash} w) (hg : ¬ Kept w e) (hs : machine.step w e = some t) : ¬ Replaced t := by
  intro hr
  cases e with
  | daemonExited =>
    obtain ⟨-, hs⟩ := Option.ite_none_left_eq_some.mp hs
    cases hs
    refine hg fun x hx hcrash => ?_
    rw [hr.next x hx, World.current, hcrash]
    simp [World.destroy]
  | closed id forgets =>
    obtain ⟨-, hs⟩ := Option.ite_none_right_eq_some.mp hs
    cases hs
    refine hg fun hf n ho x hx hid => ?_
    obtain ⟨hne, hcurrent⟩ := h.referred.shown x hx
    -- The id was given for one kind only.
    have hx2 : x.2 = n := by
      have hgiven := h.referred.known x.2 (hcurrent ▸ hne)
      exact h.referred.owner _ hgiven _ (h.known ho (hid ▸ hne)) (hcurrent.symm.trans hid)
    have hforgot := hr.next x hx
    rw [World.current, hx2] at hforgot
    simp only [hf, ho, and_self, if_true, Option.getD_some] at hforgot
    exact hne hforgot
  | monitorCreated | monitorDestroyed | reportNotified | storageReported | uploaderStarted | engineFinished
  | uploaderEnded | dismissed | restart => exact hg trivial

theorem tidy_installed : Tidy {.crash} installed := by
  have hread (n : SavedId) : n.read installed.state = 0 := by cases n <;> decide
  refine ⟨fun n b => nofun, ⟨List.nodup_nil, nofun, nofun, fun n hn => ?_⟩,
    fun n hn => absurd (hread n) hn, nofun⟩
  exact absurd (hread n) hn

/-- **Along exactly the runs that lose no id of what is shown, there is never more than one
notification of a kind, and the next one of its kind replaces it.** -/
theorem notifications_replaced (es : List Event) :
    (∀ w ∈ machine.visits es installed, Replaced w) ↔ machine.Within Kept es installed := by
  refine Machine.visits_iff_within (I := Tidy {.crash}) ?_ ?_ tidy_installed
  · intro w e t h hg hs
    have ht := h.step hg hs
    exact ⟨ht, ht.replaced⟩
  · exact fun w e t h hg hs => h.unkept hg hs

end Runs

/-- The daemon is restarted while a notification is shown: the next crash shows another one. -/
example : (machine.visits [.monitorCreated, .reportNotified 1, .daemonExited, .restart, .monitorCreated,
    .reportNotified 2] installed).map (·.board.shown) =
      [[], [(1, .crash)], [(1, .crash)], [(1, .crash)], [(1, .crash)], [(2, .crash), (1, .crash)]] := by decide

end CrashReporter.Ui.Notifications
