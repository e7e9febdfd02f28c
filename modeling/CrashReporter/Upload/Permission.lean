import CrashReporter.Upload.Offers

/-! A restricted upload starts on a connection it may use.

`uploadFiles` checks the connection when the request comes; the items start later.
What is checked once still holds then if no change of the network, of USB or of the
settings takes the permission away while a restricted item waits. -/
namespace CrashReporter.Upload
open Reactor

variable {s : State}

/-- An item that may start next. -/
def MayStart (x : Config) (i : ItemId) : Prop := x.state.Waits i ∨ ∃ e, .uploadItem e i ∈ x.stack

/-- A restricted request is being queued, or a restricted item may start. -/
def RestrictedWaits (x : Config) : Prop :=
  (∃ path, .addFile path true ∈ x.stack) ∨ ∃ i, .accepted i true ∈ x.state.log ∧ MayStart x i

/-- While a restricted item waits, no change takes the permission away. -/
def PermissionKept : Guard State Call Event := fun x a => ∀ env, a = .event (.environment env) →
  RestrictedWaits x → env.canUseNetworkConnection = true

/-- What is accepted is known by its number, and restricted items wait only while
they are permitted. -/
structure Permitted (x : Config) : Prop where
  accepted : ∀ i obey, .accepted i obey ∈ x.state.log → i < x.state.nextItem
  permitted : RestrictedWaits x → x.state.env.canUseNetworkConnection = true

/-- A step gives out only items that its call carries, and accepts only what its
call was asked for; or it is the end of an engine. -/
theorem offers_step {G : Guard State Call Event} {env : Environment} {files : Path → Option File}
    {coreLocations : List Path} {logWritable : Bool} {x y : Config} {a : Action}
    (hx : Reaches uploader G ⟨blank env files coreLocations logWritable, []⟩ x)
    (hs : uploader.step x a = some y) (henv : ∀ env, a ≠ .event (.environment env)) :
    (∃ given takes attached asked calls rest,
      Offers given takes attached asked x.state (y.state, calls) ∧ y.stack = calls ++ rest ∧
      (∀ k ∈ rest, k ∈ x.stack) ∧
      (∀ i ∈ given, i = x.state.nextItem ∨ ∃ e, .uploadItem e i ∈ x.stack) ∧
      (takes true → ∃ path, .addFile path true ∈ x.stack)) ∨
    ∃ e posted, y = ⟨{x.state with posted := posted}.deleteEngine e, x.stack⟩ := by
  obtain ⟨hu, hspent⟩ := uploads_of_reaches hx
  cases a with
  | run =>
    obtain ⟨k, rest, hk, rfl⟩ := uploader.step_run hs
    refine .inl ⟨_, _, _, _, _, rest, offers_exec hu (hspent k (hk ▸ List.mem_cons_self ..)), rfl,
      fun k' hk' => hk ▸ List.mem_cons_of_mem _ hk', fun i hi => ?_, fun ht => ?_⟩
    · cases k with
      | uploadItem e j =>
        obtain rfl := Multiset.mem_singleton.mp hi
        exact .inr ⟨e, hk ▸ List.mem_cons_self ..⟩
      | addFile path obey =>
        by_cases hp : path ∈ x.state.uploader.addedFiles <;>
          simp only [Call.gives, hp, if_true, if_false] at hi
        · simp at hi
        · exact .inl (Multiset.mem_singleton.mp hi)
      | _ => simp [Call.gives] at hi
    · cases k with
      | addFile path obey =>
        obtain rfl : true = obey := ht
        exact ⟨path, hk ▸ List.mem_cons_self ..⟩
      | _ => exact ht.elim
  | event ev =>
    obtain ⟨-, r, hr, rfl⟩ := uploader.step_event hs
    rcases offers_deliver hu hr fun env he => henv env (he ▸ rfl) with ho | ⟨e, rest, -, -, rfl⟩
    · refine .inl ⟨_, _, _, _, _, x.stack, ho, rfl, fun k hk => hk, fun i hi => ?_, False.elim⟩
      cases ev with
      | enqueue => exact .inl (Multiset.mem_singleton.mp hi)
      | _ => simp [Event.gives] at hi
    · exact .inr ⟨e, rest, rfl⟩

theorem waits_deleteEngine {e : EngineId} {i : ItemId} (h : (s.deleteEngine e).Waits i) : s.Waits i := by
  refine h.imp id fun ⟨e', hi⟩ => ⟨e', ?_⟩
  rcases eq_or_ne e' e with rfl | he
  · simp [State.deleteEngine, Engine.awaits] at hi
  · simpa [State.deleteEngine, he] using hi

/-- A restricted item that a step may start or keep was waiting, or being requested. -/
theorem Offers.restricted {given : Multiset ItemId} {takes : Bool → Prop} {attached asked : Prop}
    {stack : List Call} {r : State × List Call} (ho : Offers given takes attached asked s r)
    (h : Permitted ⟨s, stack⟩)
    (hgiven : ∀ i ∈ given, i = s.nextItem ∨ ∃ e, .uploadItem e i ∈ stack)
    (htakes : takes true → ∃ path, .addFile path true ∈ stack) {i : ItemId}
    (hacc : .accepted i true ∈ r.1.log) (hi : s.Waits i ∨ i ∈ given ∨ ∃ e, .uploadItem e i ∈ stack) :
    RestrictedWaits ⟨s, stack⟩ := by
  obtain ⟨new, hl, -, -, hnew⟩ := ho.log
  rcases List.mem_append.mp (hl ▸ hacc) with hacc | hacc
  · exact .inl (htakes (hnew i true hacc).2.2)
  · -- An item accepted before is not the one that is new now.
    have hne : i ≠ s.nextItem := Nat.ne_of_lt (h.accepted i true hacc)
    refine .inr ⟨i, hacc, ?_⟩
    rcases hi with hi | hi | hi
    · exact .inl hi
    · exact .inr ((hgiven i hi).resolve_left hne)
    · exact .inr hi

theorem permitted_of_reaches {env : Environment} {files : Path → Option File}
    {coreLocations : List Path} {logWritable : Bool} {x : Config}
    (hx : Reaches uploader PermissionKept ⟨blank env files coreLocations logWritable, []⟩ x) :
    Permitted x := by
  induction hx with
  | start => exact ⟨by simp [blank], by simp [RestrictedWaits, MayStart, State.Waits, blank]⟩
  | @next x y a hx hg hs h =>
    by_cases henv : ∃ env, a = .event (.environment env)
    · obtain ⟨env, rfl⟩ := henv
      obtain ⟨-, r, hr, rfl⟩ := uploader.step_event hs
      cases hr
      exact ⟨h.accepted, hg env rfl⟩
    · rcases offers_step hx hs fun env he => henv ⟨env, he⟩ with
        ⟨given, takes, attached, asked, calls, rest, ho, hy, hrest, hgiven, htakes⟩ | ⟨e, posted, rfl⟩
      · obtain ⟨new, hl, -, -, hnew⟩ := ho.log
        refine ⟨fun i obey hi => ?_, fun hw => ?_⟩
        · rcases List.mem_append.mp (hl ▸ hi) with hi | hi
          · exact (hnew i obey hi).2.1
          · exact Nat.lt_of_lt_of_le (h.accepted i obey hi) ho.nextItem
        · rw [show y.state.env = x.state.env from ho.env]
          rcases hw with ⟨path, hp⟩ | ⟨i, hi, hm⟩
          · rcases List.mem_append.mp (hy ▸ hp) with hp | hp
            · exact (ho.requests path true hp).2 rfl
            · exact h.permitted (.inl ⟨path, hrest _ hp⟩)
          · refine h.permitted (ho.restricted h hgiven htakes hi ?_)
            rcases hm with hm | ⟨e, hm⟩
            · exact (ho.waits i hm).imp id .inl
            · rcases List.mem_append.mp (hy ▸ hm) with hm | hm
              · exact (ho.calls e i hm).2.imp id .inl
              · exact .inr (.inr ⟨e, hrest _ hm⟩)
      · refine ⟨h.accepted, fun hw => h.permitted (hw.imp id ?_)⟩
        rintro ⟨i, hi, hm⟩
        exact ⟨i, hi, hm.imp waits_deleteEngine id⟩

/-- A restricted upload starts only while it may use the connection. -/
theorem restricted_starts_permitted {env : Environment} {files : Path → Option File}
    {coreLocations : List Path} {logWritable : Bool} {x y : Config} {a : Action} {i : ItemId}
    {new : List Output}
    (hx : Reaches uploader PermissionKept ⟨blank env files coreLocations logWritable, []⟩ x)
    (hs : uploader.step x a = some y) (hlog : y.state.log = new ++ x.state.log)
    (hstart : .startUpload i ∈ new) (hacc : .accepted i true ∈ y.state.log) :
    x.state.env.canUseNetworkConnection = true := by
  have h := permitted_of_reaches hx
  by_cases henv : ∃ env, a = .event (.environment env)
  · obtain ⟨env, rfl⟩ := henv
    obtain ⟨-, r, hr, rfl⟩ := uploader.step_event hs
    cases hr
    have hnil : new = [] := by simpa using hlog
    simp [hnil] at hstart
  · rcases offers_step hx hs fun env he => henv ⟨env, he⟩ with
      ⟨given, takes, attached, asked, calls, rest, ho, -, -, hgiven, htakes⟩ | ⟨e, posted, rfl⟩
    · obtain ⟨new', hl, hstarts, -⟩ := ho.log
      obtain rfl : new = new' := List.append_cancel_right (hlog.symm.trans hl)
      exact h.permitted (ho.restricted h hgiven htakes hacc ((hstarts i hstart).imp id .inl))
    · have hnil : new = [] := by simpa [State.deleteEngine] using hlog
      simp [hnil] at hstart

/-- A report at rest on WLAN. -/
def restingOnWlan : Config :=
  ⟨blank .wlan (fun p => if p = "/a.rcore" then some ⟨[1, 2], true, none⟩ else none) ["/cores"] true, []⟩

/-- A restricted request, and its item waits for a session. -/
def requestRestricted : List Action :=
  [.event (.callUploadFiles ["/a.rcore"] true), .event .dispatch, .run, .run, .run, .run, .run, .run]

def waitingOnWlan : Config := (uploader.run requestRestricted restingOnWlan).get (by decide)

/-- The session of the first engine opens. -/
def sessionOpens : Action := .event (.session 0 .opened)

def startedOnWlan : Config := (uploader.step waitingOnWlan sessionOpens).get (by decide)

theorem restricted_starts_permitted_wlan :
    waitingOnWlan.state.env.canUseNetworkConnection = true := by
  have hreach : Reaches uploader PermissionKept restingOnWlan waitingOnWlan := by
    refine Reaches.of_run .start (Guarded.mono ?_ (Guarded.of_forall
      (P := fun a => ∀ env, a ≠ .event (.environment env)) ?_ _)) (Option.some_get _).symm
    · exact fun x a ha env he => absurd he (ha env)
    · simp [requestRestricted]
  exact restricted_starts_permitted (i := 0) (a := sessionOpens) (y := startedOnWlan) hreach
    (Option.some_get _).symm
    (show startedOnWlan.state.log = [.put 0 0 "/a.rcore" [1, 2], .startUpload 0] ++
      waitingOnWlan.state.log by decide) (by decide) (by decide)

/-! ### What the code does when the connection changes -/

/-- Mobile data is not allowed at any time. -/
def MobileDataOff : Guard State Call Event := fun _ a =>
  ∀ env, a = .event (.environment env) → env.settings.allowMobileData = false

/-- WLAN is lost before the session opens on mobile data. -/
def loseWlan : List Action := requestRestricted ++ [.event (.environment .mobile)]

def waitingOnMobile : Config := (uploader.run loseWlan restingOnWlan).get (by decide)

def startedOnMobile : Config := (uploader.step waitingOnMobile sessionOpens).get (by decide)

/-- The restricted item starts on mobile data all the same. -/
theorem restricted_starts_on_mobile : ∃ x y a i new,
    restingOnWlan.state.env.settings.allowMobileData = false ∧
    Reaches uploader MobileDataOff restingOnWlan x ∧ uploader.step x a = some y ∧
    y.state.log = new ++ x.state.log ∧ .startUpload i ∈ new ∧ .accepted i true ∈ y.state.log ∧
    x.state.env.canUseNetworkConnection = false := by
  refine ⟨waitingOnMobile, startedOnMobile, sessionOpens, 0,
    [.put 0 0 "/a.rcore" [1, 2], .startUpload 0], rfl, ?_, (Option.some_get _).symm, ?_, ?_, ?_, ?_⟩
  · refine Reaches.of_run .start (Guarded.of_forall ?_ _) (Option.some_get _).symm
    simp [loseWlan, requestRestricted, Environment.mobile, Environment.wlan, Environment.usbCable]
  all_goals decide

end CrashReporter.Upload
