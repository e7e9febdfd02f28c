import Mathlib.Data.List.Flatten

/-! Lists cut into sections.

`split p` cuts a list before each element that is a header. A reader that looks for its
first header with `p`, and behind it for those with `q` only, gets `sections p q`: when
each header of `q` is one of `p`, cutting its sections once more gives those of `p`. -/
namespace CrashReporter
namespace Sections
variable {α β : Type}

/-- A header and what is below it. -/
abbrev Section (α : Type) := α × List α

/-- What comes before the first header, and the sections. -/
def split (p : α → Bool) : List α → List α × List (Section α)
  | [] => ([], [])
  | a :: rest =>
    let (front, later) := split p rest
    if p a then ([], (a, front) :: later) else (a :: front, later)

def sections (p q : α → Bool) : List α → List (Section α)
  | [] => []
  | a :: rest => if p a then (a, (split q rest).1) :: (split q rest).2 else sections p q rest

/-- A section, cut before the headers in it. -/
def parts (p : α → Bool) (s : Section α) : List (Section α) :=
  (s.1, (split p s.2).1) :: (split p s.2).2

variable {p q : α → Bool}

theorem split_header {a : α} (h : p a = true) (rest : List α) :
    split p (a :: rest) = ([], (a, (split p rest).1) :: (split p rest).2) := by simp [split, h]

theorem split_other {a : α} (h : p a = false) (rest : List α) :
    split p (a :: rest) = (a :: (split p rest).1, (split p rest).2) := by simp [split, h]

/-- Nothing is lost, and nothing changes its place. -/
theorem split_flatten (p : α → Bool) (l : List α) :
    (split p l).1 ++ (split p l).2.flatMap (fun s => s.1 :: s.2) = l := by
  induction l with
  | nil => rfl
  | cons a rest ih =>
    cases h : p a with
    | true => simpa [split_header h] using ih
    | false => simpa [split_other h] using ih

/-- There is no header before the first one. -/
theorem split_front (p : α → Bool) (l : List α) : ∀ a ∈ (split p l).1, p a = false := by
  induction l with
  | nil => simp [split]
  | cons a rest ih =>
    cases h : p a with
    | true => simp [split_header h]
    | false => simpa [split_other h, h] using ih

/-- A section begins with a header. -/
theorem mem_split {l : List α} {s : Section α} (h : s ∈ (split p l).2) : s.1 ∈ l ∧ p s.1 = true := by
  induction l with
  | nil => cases h
  | cons a rest ih =>
    cases hp : p a with
    | true =>
      rw [split_header hp] at h
      obtain rfl | h := List.mem_cons.mp h
      · exact ⟨List.mem_cons_self .., hp⟩
      · exact ⟨List.mem_cons_of_mem _ (ih h).1, (ih h).2⟩
    | false =>
      rw [split_other hp] at h
      exact ⟨List.mem_cons_of_mem _ (ih h).1, (ih h).2⟩

theorem mem_sections {l : List α} {s : Section α} (h : s ∈ sections p q l) :
    s.1 ∈ l ∧ (p s.1 = true ∨ q s.1 = true) := by
  induction l with
  | nil => cases h
  | cons a rest ih =>
    rw [sections] at h
    split at h
    · rename_i hp
      obtain rfl | h := List.mem_cons.mp h
      · exact ⟨List.mem_cons_self .., .inl hp⟩
      · exact ⟨List.mem_cons_of_mem _ (mem_split h).1, .inr (mem_split h).2⟩
    · exact ⟨List.mem_cons_of_mem _ (ih h).1, (ih h).2⟩

/-- Cutting at some of the headers first makes no difference. -/
theorem split_split (hqp : ∀ a, q a = true → p a = true) (l : List α) :
    split p l = ((split p (split q l).1).1,
      (split p (split q l).1).2 ++ (split q l).2.flatMap (parts p)) := by
  induction l with
  | nil => rfl
  | cons a rest ih =>
    cases hq : q a with
    | true =>
      rw [split_header hq, split_header (hqp a hq), ih]
      simp [split, parts]
    | false =>
      rw [split_other hq]
      cases hp : p a with
      | true =>
        rw [split_header hp, split_header hp, ih]
        simp
      | false =>
        rw [split_other hp, split_other hp, ih]

theorem sections_parts (hqp : ∀ a, q a = true → p a = true) (l : List α) :
    (split p l).2 = (sections p q l).flatMap (parts p) := by
  induction l with
  | nil => rfl
  | cons a rest ih =>
    cases hp : p a with
    | true =>
      rw [split_header hp, split_split hqp rest]
      simp [sections, hp, parts]
    | false =>
      rw [split_other hp]
      simpa [sections, hp] using ih

/-- The elements below a header that are no headers, in order. -/
theorem parts_filterMap {f : α → Option β} (s : Section α) (h : ∀ a ∈ s.2, p a = true → f a = none) :
    s.2.filterMap f = (parts p s).flatMap fun part => part.2.filterMap f := by
  obtain ⟨header, l⟩ := s
  simp only [parts, List.flatMap_cons]
  dsimp only at h
  induction l with
  | nil => rfl
  | cons a rest ih =>
    have hrest := ih fun b hb => h b (List.mem_cons_of_mem _ hb)
    cases hp : p a with
    | true =>
      rw [split_header hp, List.filterMap_cons_none (h a (List.mem_cons_self ..) hp), hrest]
      simp
    | false =>
      rw [split_other hp]
      cases hf : f a with
      | none => rw [List.filterMap_cons_none hf, List.filterMap_cons_none hf, hrest]
      | some b => rw [List.filterMap_cons_some hf, List.filterMap_cons_some hf, hrest, List.cons_append]

/-- Lists that are put together from pieces of the same lengths are the same piece by piece. -/
theorem flatMap_inj {f g : α → List β} {l : List α} (hlen : ∀ a ∈ l, (f a).length = (g a).length)
    (h : l.flatMap f = l.flatMap g) : ∀ a ∈ l, f a = g a := by
  induction l with
  | nil => simp
  | cons a rest ih =>
    rw [List.flatMap_cons, List.flatMap_cons] at h
    obtain ⟨hhead, htail⟩ := List.append_inj h (hlen a (List.mem_cons_self ..))
    exact List.forall_mem_cons.mpr ⟨hhead, ih (fun b hb => hlen b (List.mem_cons_of_mem _ hb)) htail⟩

/-- Pieces that are no longer than the others, and together as long, are as long each. -/
theorem length_eq_of_flatMap {f g : α → List β} {l : List α} (hle : ∀ a ∈ l, (f a).length ≤ (g a).length)
    (h : (l.flatMap f).length = (l.flatMap g).length) : ∀ a ∈ l, (f a).length = (g a).length := by
  have hsum : ∀ l : List α, (∀ a ∈ l, (f a).length ≤ (g a).length) →
      (l.flatMap f).length ≤ (l.flatMap g).length := by
    intro l hle
    induction l with
    | nil => exact Nat.le_refl _
    | cons a rest ih =>
      have hhead := hle a (List.mem_cons_self ..)
      have htail := ih fun b hb => hle b (List.mem_cons_of_mem _ hb)
      rw [List.flatMap_cons, List.flatMap_cons, List.length_append, List.length_append]
      omega
  induction l with
  | nil => simp
  | cons a rest ih =>
    have hhead := hle a (List.mem_cons_self ..)
    have htail := hsum rest fun b hb => hle b (List.mem_cons_of_mem _ hb)
    rw [List.flatMap_cons, List.flatMap_cons, List.length_append, List.length_append] at h
    refine List.forall_mem_cons.mpr ⟨by omega, ih (fun b hb => hle b (List.mem_cons_of_mem _ hb)) ?_⟩
    omega

end Sections

end CrashReporter
