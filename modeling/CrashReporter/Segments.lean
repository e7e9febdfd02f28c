import Mathlib.Data.List.Basic

/-! Paths of segments.

A segment leads on, stays where it is, or leads up. `normalize` leaves out the segments
that stay, and each segment that leads on with the one that leads up again; what leads up
at the beginning is left. `normalize_eq_self` tells which paths it leaves alone. -/
namespace CrashReporter
namespace Segments
variable {α : Type} (stays up : α → Bool)

/-- One segment more, behind those entered so far, latest first. -/
def enter (entered : List α) (a : α) : List α :=
  if stays a then entered
  else if up a then match entered with
    | [] => [a]
    | last :: rest => if up last then a :: last :: rest else rest
  else a :: entered

def normalize (path : List α) : List α := (path.foldl (enter stays up) []).reverse

/-- A segment that leads on. -/
def Leads (a : α) : Prop := stays a = false ∧ up a = false

/-- A segment makes the path longer, or leaves no more of it than there was. -/
theorem enter_cases (entered : List α) (a : α) : enter stays up entered a = a :: entered ∨
    (enter stays up entered a).length ≤ entered.length := by
  unfold enter
  cases stays a with
  | true => simp
  | false =>
    cases up a with
    | false => simp
    | true =>
      cases entered with
      | nil => simp
      | cons last rest => cases h : up last <;> simp [h]

theorem length_foldl_enter (path entered : List α) :
    (path.foldl (enter stays up) entered).length ≤ path.length + entered.length := by
  induction path generalizing entered with
  | nil => simp
  | cons a rest ih =>
    have hrest := ih (enter stays up entered a)
    have hlen : (enter stays up entered a).length ≤ entered.length + 1 := by
      obtain heq | hle := enter_cases stays up entered a
      · simp [heq]
      · omega
    simp only [List.foldl_cons, List.length_cons]
    omega

variable {stays up} {entered : List α} {a : α}

/-- A path is left alone when each of its segments makes it longer. -/
theorem foldl_enter_cons (rest : List α) :
    (a :: rest).foldl (enter stays up) entered = (a :: rest).reverse ++ entered ↔
      enter stays up entered a = a :: entered ∧
        rest.foldl (enter stays up) (a :: entered) = rest.reverse ++ a :: entered := by
  rw [List.foldl_cons, List.reverse_cons, List.append_assoc, List.singleton_append]
  obtain heq | hle := enter_cases stays up entered a
  · rw [heq, and_iff_right rfl]
  · refine ⟨fun h => ?_, fun h => by rw [h.1, h.2]⟩
    have hlen := congrArg List.length h
    have hmax := length_foldl_enter stays up rest (enter stays up entered a)
    rw [List.length_append, List.length_reverse, List.length_cons] at hlen
    omega

/-- Behind a segment that leads on, every other one has to lead on. -/
theorem foldl_enter_below (ha : up a = false) (path : List α) :
    path.foldl (enter stays up) (a :: entered) = path.reverse ++ a :: entered ↔ ∀ b ∈ path, Leads stays up b := by
  induction path generalizing a entered with
  | nil => simp
  | cons b rest ih =>
    rw [foldl_enter_cons, List.forall_mem_cons]
    have hb : enter stays up (a :: entered) b = b :: a :: entered ↔ Leads stays up b := by
      unfold enter Leads
      cases stays b with
      | true => simp
      | false =>
        have hne : entered ≠ b :: a :: entered := fun heq => by
          have hlen := congrArg List.length heq
          simp only [List.length_cons] at hlen
          omega
        cases up b <;> simp [ha, hne]
    rw [hb]
    exact and_congr_right fun hleads => ih hleads.2

/-- What leads up at the beginning is left. -/
theorem foldl_enter_front (hdisj : ∀ a, up a = true → stays a = false) (hup : ∀ b ∈ entered, up b = true)
    (path : List α) : path.foldl (enter stays up) entered = path.reverse ++ entered ↔
      ∀ b ∈ path.dropWhile up, Leads stays up b := by
  induction path generalizing entered with
  | nil => simp
  | cons b rest ih =>
    rw [foldl_enter_cons]
    cases hb : up b with
    | true =>
      have henter : enter stays up entered b = b :: entered := by
        cases entered with
        | nil => simp [enter, hb, hdisj b hb]
        | cons last rest => simp [enter, hb, hdisj b hb, hup last]
      rw [List.dropWhile_cons_of_pos hb, and_iff_right henter]
      exact ih (List.forall_mem_cons.mpr ⟨hb, hup⟩)
    | false =>
      have henter : enter stays up entered b = b :: entered ↔ Leads stays up b := by
        unfold enter Leads
        cases stays b <;> simp [hb]
      rw [List.dropWhile_cons_of_neg (by simp [hb]), henter, foldl_enter_below hb, List.forall_mem_cons]

/-- A path is normal when its segments lead on, but for those that lead up at its beginning. -/
theorem normalize_eq_self (hdisj : ∀ a, up a = true → stays a = false) (path : List α) :
    normalize stays up path = path ↔ ∀ a ∈ path.dropWhile up, Leads stays up a := by
  have hfront : path.foldl (enter stays up) [] = path.reverse ++ [] ↔ ∀ a ∈ path.dropWhile up, Leads stays up a :=
    foldl_enter_front hdisj (List.forall_mem_nil _) path
  rw [List.append_nil] at hfront
  rw [← hfront, normalize]
  exact List.reverse_eq_iff

theorem mem_enter {b : α} (h : a ∈ enter stays up entered b) : a = b ∨ a ∈ entered := by
  unfold enter at h
  split at h
  · exact .inr h
  · split at h
    · split at h
      · exact List.mem_cons.mp h
      · split at h
        · exact List.mem_cons.mp h
        · exact .inr (List.mem_cons_of_mem _ h)
    · exact List.mem_cons.mp h

theorem mem_foldl_enter {path : List α} (h : a ∈ path.foldl (enter stays up) entered) : a ∈ path ∨ a ∈ entered := by
  induction path generalizing entered with
  | nil => exact .inr h
  | cons b rest ih =>
    obtain hr | he := ih h
    · exact .inl (List.mem_cons_of_mem _ hr)
    · obtain rfl | hm := mem_enter he
      · exact .inl (List.mem_cons_self ..)
      · exact .inr hm

/-- Nothing is added. -/
theorem mem_normalize {path : List α} (h : a ∈ normalize stays up path) : a ∈ path :=
  (mem_foldl_enter (List.mem_reverse.mp h)).resolve_right List.not_mem_nil

end Segments

end CrashReporter
