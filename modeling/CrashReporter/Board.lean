import Mathlib.Data.List.Nodup
import Mathlib.Data.Set.Function

/-! Boards of notices that replace each other.

A notice of some kind is posted under an id. Who posts it names the id of the notice to be
replaced, and the board keeps that id; without one it gives an id that it never gave
before. `Referred` says that each kind is referred to by the id it was posted under last,
and so is on the board at most once: it is what posting and removing keep. -/
namespace CrashReporter

/-- What is on the board, and every id that was given, with the kinds. -/
structure Board (κ ι : Type) where
  shown : List (ι × κ)
  given : List (ι × κ)

namespace Board
variable {κ ι : Type} [Zero ι]

/-- What the board may answer to a post that replaces `old`. -/
def Answers (b : Board κ ι) (old id : ι) : Prop :=
  (old = 0 → id ≠ 0 ∧ ∀ x ∈ b.given, x.1 ≠ id) ∧ (old ≠ 0 → id = old)

instance [DecidableEq ι] (b : Board κ ι) (old id : ι) : Decidable (b.Answers old id) :=
  inferInstanceAs (Decidable (_ ∧ _))

def post [DecidableEq ι] (k : κ) (id : ι) (b : Board κ ι) : Board κ ι :=
  ⟨(id, k) :: b.shown.filter (·.1 ≠ id), (id, k) :: b.given⟩

def remove [DecidableEq ι] (id : ι) (b : Board κ ι) : Board κ ι := {b with shown := b.shown.filter (·.1 ≠ id)}

/-- Each kind is referred to by an id that was given for it, and no notice is on the board
under another one. -/
structure Referred (b : Board κ ι) (ref : κ → ι) : Prop where
  nodup : b.shown.Nodup
  shown : ∀ x ∈ b.shown, x.1 ≠ 0 ∧ x.1 = ref x.2
  owner : ∀ x ∈ b.given, ∀ y ∈ b.given, x.1 = y.1 → x.2 = y.2
  known : ∀ k, ref k ≠ 0 → (ref k, k) ∈ b.given

variable {b : Board κ ι} {ref ref' : κ → ι} {k : κ} {id : ι}

namespace Referred

theorem one [DecidableEq κ] (h : b.Referred ref) (k : κ) : (b.shown.filter (·.2 = k)).length ≤ 1 := by
  have hall : ∀ x ∈ b.shown.filter (·.2 = k), x = (ref k, k) := by
    intro x hx
    obtain ⟨hmem, hk⟩ := List.mem_filter.mp hx
    obtain rfl := of_decide_eq_true hk
    exact Prod.ext (h.shown x hmem).2 rfl
  have hnodup := h.nodup.filter (·.2 = k)
  rw [List.eq_replicate_of_mem hall] at hnodup
  exact List.nodup_replicate.mp hnodup

/-- An id that may be given was never given for another kind. -/
theorem kind_of_answers (h : b.Referred ref) (ha : b.Answers (ref k) id) : ∀ x ∈ b.given, x.1 = id → x.2 = k := by
  intro x hx hid
  by_cases hold : ref k = 0
  · exact absurd hid ((ha.1 hold).2 x hx)
  · exact h.owner x hx _ (h.known k hold) (hid.trans (ha.2 hold))

/-- Nothing of the kind stays beside a new notice. -/
theorem kind_of_stays (h : b.Referred ref) (ha : b.Answers (ref k) id) {x : ι × κ} (hx : x ∈ b.shown)
    (hid : x.1 ≠ id) : x.2 ≠ k := by
  rintro rfl
  obtain ⟨hne, hx⟩ := h.shown x hx
  by_cases hold : ref x.2 = 0
  · exact hne (hx.trans hold)
  · exact hid (hx.trans (ha.2 hold).symm)

theorem ne_zero_of_answers (ha : b.Answers (ref k) id) : id ≠ 0 := by
  by_cases hold : ref k = 0
  · exact (ha.1 hold).1
  · exact ha.2 hold ▸ hold

theorem post [DecidableEq κ] [DecidableEq ι] (h : b.Referred ref) (ha : b.Answers (ref k) id) :
    (b.post k id).Referred (Function.update ref k id) where
  nodup := by
    refine List.nodup_cons.mpr ⟨fun hx => ?_, h.nodup.filter _⟩
    exact of_decide_eq_true (List.mem_filter.mp hx).2 rfl
  shown x hx := by
    rcases List.mem_cons.mp hx with rfl | hx
    · refine ⟨ne_zero_of_answers ha, ?_⟩
      simp
    · obtain ⟨hmem, hid⟩ := List.mem_filter.mp hx
      rw [Function.update_of_ne (h.kind_of_stays ha hmem (of_decide_eq_true hid))]
      exact h.shown x hmem
  owner x hx y hy hxy := by
    rcases List.mem_cons.mp hx with rfl | hx
    · rcases List.mem_cons.mp hy with rfl | hy
      · rfl
      · exact (h.kind_of_answers ha y hy hxy.symm).symm
    · rcases List.mem_cons.mp hy with rfl | hy
      · exact h.kind_of_answers ha x hx hxy
      · exact h.owner x hx y hy hxy
  known k' hk' := by
    by_cases he : k' = k
    · subst he
      rw [Function.update_self]
      exact List.mem_cons_self ..
    · rw [Function.update_of_ne he] at hk' ⊢
      exact List.mem_cons_of_mem _ (h.known k' hk')

theorem remove [DecidableEq ι] (h : b.Referred ref) (id : ι) : (b.remove id).Referred ref where
  nodup := h.nodup.filter _
  shown x hx := h.shown x (List.mem_of_mem_filter hx)
  owner := h.owner
  known := h.known

/-- What refers to a notice on the board stays, and what refers to none may change. -/
theorem redirect (h : b.Referred ref) (hshown : ∀ x ∈ b.shown, ref' x.2 = ref x.2)
    (hknown : ∀ k, ref' k ≠ 0 → (ref' k, k) ∈ b.given) : b.Referred ref' where
  nodup := h.nodup
  shown x hx := by
    rw [hshown x hx]
    exact h.shown x hx
  owner := h.owner
  known := hknown

end Referred

end Board

end CrashReporter
