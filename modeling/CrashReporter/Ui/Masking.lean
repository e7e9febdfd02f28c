import CrashReporter.Ui.ServiceState

/-! Masking a unit from the settings.

MaskUnitFiles and UnmaskUnitFiles change the unit file, and LoadState follows with the next
Reload; systemd does not announce that. So the object asks for a Reload when it has the
reply, and announces the change itself when that is done. -/
namespace CrashReporter.Ui

namespace SystemdService

/-- Whether the unit file is masked after a call. -/
def Call.masks (file : Bool) : Call → Bool
  | .maskUnitFiles .. => true
  | .unmaskUnitFiles .. => false
  | _ => file

def maskedBy (file : Bool) (calls : List Call) : Bool := calls.foldl Call.masks file

theorem maskedBy_append (file : Bool) (calls calls' : List Call) :
    maskedBy file (calls ++ calls') = maskedBy (maskedBy file calls) calls' :=
  List.foldl_append

/-- A call fails. -/
def Event.fails : Event → Bool
  | .answer error _ => error
  | _ => false

/-- `file` says whether the unit file was masked in the beginning. -/
structure Masking (file : Bool) (w : World) : Prop where
  guess : w.unit = false → w.shownMasked = false
  /-- What is shown is right, or the reply to a Reload is on its way. -/
  shown : w.shownMasked = w.masked ∨ Message.finished .reload false ∈ w.messages
  /-- LoadState is that of the unit file, or a Reload follows. -/
  loaded : decide (w.properties.loadState = "masked") = w.fileMasked ∨ Call.reload ∈ w.calls ∨
    ∃ m ∈ w.messages, Call.reload ∈ m.sends
  asked : maskedBy w.fileMasked w.calls = maskedBy file w.log

section Masking
variable {w t : World} {e : Event} {m : Message} {file : Bool}

theorem World.changeState_shownMasked (state : String) : (w.changeState state).shownMasked = w.shownMasked := by
  unfold changeState
  dsimp only
  split <;> rfl

/-- A slot announces masked() as it is, or leaves alone what is shown. -/
theorem World.handle_shownMasked (m : Message) :
    (w.handle m).shownMasked = (w.handle m).masked ∨ (w.handle m).shownMasked = w.shownMasked ∧
      m ≠ .finished .reload false ∧ (m.getsUnit = true → (w.handle m).masked = false) := by
  cases m with
  | propertiesChanged interface changed invalidated =>
    simp only [handle, propertiesChanged]
    split
    · exact .inr ⟨rfl, by simp, by simp [Message.getsUnit]⟩
    · split
      · exact .inl rfl
      · refine .inr ⟨?_, by simp, by simp [Message.getsUnit]⟩
        split <;> split <;> first | rfl | exact changeState_shownMasked _
  | unitNew name =>
    refine .inr ⟨?_, by simp, by simp [Message.getsUnit]⟩
    simp only [handle, handleUnitNew]
    split <;> rfl
  | unitRemoved name =>
    refine .inr ⟨?_, by simp, by simp [Message.getsUnit]⟩
    simp only [handle, handleUnitRemoved]
    split <;> rfl
  | finished call error =>
    cases error with
    | true =>
      refine .inr ⟨?_, by simp, by cases call <;> simp [Message.getsUnit]⟩
      cases call <;> rfl
    | false =>
      cases call with
      | reload => exact .inl rfl
      | loadUnit name =>
        have hlast (u : World) (hu : u.shownMasked = w.shownMasked) :
            let v := if u.masked ≠ false then u.maskedChanged else u
            v.shownMasked = v.masked ∨ v.shownMasked = w.shownMasked ∧
              Message.finished (.loadUnit name) false ≠ .finished .reload false ∧
                ((Message.finished (.loadUnit name) false).getsUnit = true → v.masked = false) := by
          by_cases hm : u.masked = false
          · simp [hm, hu]
          · exact .inl (by simp [hm]; rfl)
        refine hlast _ ?_
        split <;> exact changeState_shownMasked _
      | _ => exact .inr ⟨rfl, by simp, by simp [Message.getsUnit]⟩

theorem Masking.delivered {rest : List Message} (h : Masking file w) (hm : w.messages = m :: rest) :
    Masking file ({w with messages := rest}.handle m) := by
  have hbase := World.handle_base (w := {w with messages := rest}) m
  have hsent := World.handle_sent (w := {w with messages := rest}) m
  have hshown := World.handle_shownMasked (w := {w with messages := rest}) m
  generalize {w with messages := rest}.handle m = u at hbase hsent hshown
  have hunit : u.unit = (w.unit || m.getsUnit) := (congrArg World.unit hbase :)
  have hproperties : u.properties = w.properties := (congrArg World.properties hbase :)
  have hfile : u.fileMasked = w.fileMasked := (congrArg World.fileMasked hbase :)
  have hmessages : u.messages = rest := (congrArg World.messages hbase :)
  have hcalls : u.calls = w.calls ++ m.sends := congrArg Prod.fst hsent
  have hlog : u.log = w.log ++ m.sends := congrArg Prod.snd hsent
  have hmasked : u.masked = (u.unit && decide (w.properties.loadState = "masked")) := by
    rw [World.masked, hproperties]
  constructor
  · intro hn
    obtain ⟨hw, -⟩ := Bool.or_eq_false_iff.mp (hunit.symm.trans hn)
    obtain heq | ⟨heq, -⟩ := hshown
    · rw [heq, hmasked, hn, Bool.false_and]
    · exact heq.trans (h.guess hw)
  · obtain heq | ⟨heq, hne, hget⟩ := hshown
    · exact .inl heq
    · by_cases hw : w.unit = true
      · rw [hw, Bool.true_or] at hunit
        refine h.shown.imp (fun hs => ?_) fun hr => ?_
        · rw [heq, hmasked, hunit, ← hw]
          exact hs
        · rw [hm] at hr
          rw [hmessages]
          exact (List.mem_cons.mp hr).resolve_left fun hr => hne hr.symm
      · have hw : w.unit = false := by simpa using hw
        have hnot : u.masked = false := by
          cases hg : m.getsUnit with
          | true => exact hget hg
          | false => rw [hmasked, hunit, hw, hg, Bool.or_false, Bool.false_and]
        exact .inl (heq.trans ((h.guess hw).trans hnot.symm))
  · rw [hproperties, hfile, hcalls, hmessages]
    obtain hl | hl | ⟨n, hn, hr⟩ := h.loaded
    · exact .inl hl
    · exact .inr (.inl (List.mem_append_left _ hl))
    · rw [hm] at hn
      cases hn with
      | head => exact .inr (.inl (List.mem_append_right _ hr))
      | tail _ hn => exact .inr (.inr ⟨n, hn, hr⟩)
  · rw [hfile, hcalls, hlog, maskedBy_append, maskedBy_append, h.asked]

theorem Masking.answered {call : Call} {rest : List Call} {loadState : String} (h : Masking file w)
    (hc : w.calls = call :: rest) (hr : call = .reload → decide (loadState = "masked") = w.fileMasked) :
    Masking file
      ({w with calls := rest, messages := w.messages ++ [Message.finished call false]}.served call loadState) := by
  have hasked : maskedBy (call.masks w.fileMasked) rest = maskedBy file w.log := by
    have h := h.asked
    rwa [hc] at h
  have hshown : w.shownMasked = w.masked ∨ Message.finished .reload false ∈ w.messages ++ [.finished call false] :=
    h.shown.imp_right (List.mem_append_left _)
  have hloaded (hne : call ≠ .reload) :
      decide (w.properties.loadState = "masked") = w.fileMasked ∨ Call.reload ∈ rest ∨
      ∃ m ∈ w.messages ++ [.finished call false], Call.reload ∈ m.sends := by
    refine h.loaded.imp_right (Or.imp (fun hm => ?_) fun ⟨m, hm, hs⟩ => ⟨m, List.mem_append_left _ hm, hs⟩)
    rw [hc] at hm
    exact (List.mem_cons.mp hm).resolve_left hne.symm
  cases call with
  | reload => exact ⟨h.guess, .inr (by simp [World.served]), .inl (hr rfl), hasked⟩
  | maskUnitFiles | unmaskUnitFiles =>
    exact ⟨h.guess, hshown,
      .inr (.inr ⟨_, List.mem_append_right _ (List.mem_singleton_self _), by simp [Message.sends]⟩),
      hasked⟩
  | _ => exact ⟨h.guess, hshown, hloaded (by simp), hasked⟩

/-- The unit's properties change, but not LoadState, and a message may come. -/
theorem Masking.received {properties : Properties} {loaded : Bool} {messages : List Message} (h : Masking file w)
    (hp : properties.loadState = w.properties.loadState) (hm : w.messages ⊆ messages) :
    Masking file {w with properties := properties, loaded := loaded, messages := messages} where
  guess := h.guess
  shown := by
    refine h.shown.imp (fun hs => ?_) fun hr => hm hr
    simpa only [World.masked, hp] using hs
  loaded := by
    rw [hp]
    exact h.loaded.imp_right (Or.imp_right fun ⟨m, hmem, hs⟩ => ⟨m, hm hmem, hs⟩)
  asked := h.asked

theorem Masking.step (h : Masking file w) (hg : e.fails = false) (hs : machine.step w e = some t) :
    Masking file t := by
  have hreceived (p : Properties) (loaded : Bool) {m : Message} (hp : p.loadState = w.properties.loadState) :
      Masking file ({w with properties := p, loaded := loaded}.sendManagerSignal m) ∧
        Masking file ({w with properties := p, loaded := loaded}.sendUnitSignal m) := by
    unfold World.sendManagerSignal World.sendUnitSignal
    constructor
    all_goals
      split
      · exact h.received hp (List.subset_append_left _ _)
      · exact h.received hp (List.Subset.refl _)
  cases step_moves hs with
  | asked _ hcs =>
    refine ⟨h.guess, h.shown, h.loaded.imp_right (Or.imp_left (List.mem_append_left _)), ?_⟩
    show maskedBy w.fileMasked (w.calls ++ _) = maskedBy file (w.log ++ _)
    rw [maskedBy_append, maskedBy_append, h.asked]
  | named name =>
    unfold World.setServiceName
    split
    · exact h
    · exact ⟨h.guess, h.shown, h.loaded, h.asked⟩
  | typed => exact ⟨h.guess, h.shown, h.loaded, h.asked⟩
  | completed error =>
    unfold World.componentComplete
    dsimp only
    split
    · exact ⟨h.guess, h.shown, h.loaded, h.asked⟩
    · refine ⟨h.guess, h.shown, h.loaded.imp_right (Or.imp_left (List.mem_append_left _)), ?_⟩
      show maskedBy w.fileMasked (w.calls ++ [_]) = maskedBy file (w.log ++ [_])
      rw [maskedBy_append, maskedBy_append, h.asked]
  | delivered hm => exact h.delivered hm
  | timeout =>
    by_cases hu : w.unit = true
    · obtain ⟨announced, hread⟩ := World.checkUnitState_of_unit (w := {w with unitStateTimer := false}) hu
      rw [hread]
      exact ⟨h.guess, h.shown, h.loaded, h.asked⟩
    · have hu : w.unit = false := by simpa using hu
      rw [World.checkUnitState_of_not (w := {w with unitStateTimer := false}) hu]
      exact ⟨h.guess, h.shown, h.loaded, h.asked⟩
  | refused => cases hg
  | answered loadState hc hr => exact h.answered hc hr
  | changed _ hp => exact (hreceived _ _ hp).2
  | loaded _ hp => exact (hreceived _ _ hp).1
  | unloaded => exact (hreceived {w.properties with activeState := "inactive"} false rfl).1
  | otherInterface => exact (hreceived w.properties w.loaded rfl).2
  | otherNew | otherRemoved => exact (hreceived w.properties w.loaded rfl).1

/-- When all calls are answered and all messages have arrived, the unit file is masked as the last
call asks that was made for it, LoadState says so, and so do the settings. -/
theorem masking_settles (properties : Properties) (loaded : Bool) {es : List Event}
    (hes : ∀ e ∈ es, e.fails = false) :
    ∀ w ∈ machine.visits es (new properties loaded), w.calls = [] → w.messages = [] →
      w.fileMasked = maskedBy (decide (properties.loadState = "masked")) w.log ∧
        decide (w.properties.loadState = "masked") = w.fileMasked ∧
          w.shownMasked = (w.unit && w.fileMasked) := by
  intro w hv hcalls hmessages
  have hnew : Masking (decide (properties.loadState = "masked")) (new properties loaded) :=
    ⟨fun _ => rfl, .inl rfl, .inl rfl, rfl⟩
  have h := Machine.visits_invariant (fun _ _ _ h hg hs => Masking.step h hg hs) hnew
    (Machine.Within.of_forall hes _) w hv
  have hasked := h.asked
  have hloaded := h.loaded
  have hshown := h.shown
  simp only [hcalls, hmessages, List.not_mem_nil, false_and, exists_false, or_false] at hasked hloaded hshown
  exact ⟨hasked, hloaded, by rw [hshown, World.masked, hloaded]⟩

/-- The unit is masked; a request to unmask it that comes before the Reload is dropped. -/
def maskedOnce : List Event :=
  [.setServiceName "crash-reporter.service", .componentComplete false, .answer false "", .deliver, .setMasked true,
    .answer false "", .setMasked false, .deliver, .answer false "masked", .deliver]

theorem maskedOnce_ne : machine.visits maskedOnce (new ⟨"inactive", "disabled", "loaded"⟩ true) ≠ [] := by decide

def maskedOnceEnd : World :=
  (machine.visits maskedOnce (new ⟨"inactive", "disabled", "loaded"⟩ true)).getLast maskedOnce_ne

theorem masking_settles_maskedOnce : maskedOnceEnd.shownMasked = true ∧
    maskedOnceEnd.fileMasked = maskedBy false maskedOnceEnd.log ∧
      decide (maskedOnceEnd.properties.loadState = "masked") = maskedOnceEnd.fileMasked ∧
        maskedOnceEnd.shownMasked = (maskedOnceEnd.unit && maskedOnceEnd.fileMasked) :=
  ⟨by decide, masking_settles ⟨"inactive", "disabled", "loaded"⟩ true (by decide) _ (List.getLast_mem maskedOnce_ne)
    (by decide) (by decide)⟩

end Masking

end SystemdService

end CrashReporter.Ui
