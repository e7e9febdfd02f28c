import Mathlib.Data.List.DropRight
import Mathlib.Data.List.Infix

/-! Text, as the string class of the code handles it.

Positions are integers: -1 says that nothing was found, and a negative position to
remove from counts from the end. A text is the list of its characters. -/
namespace CrashReporter

abbrev Text := List Char

namespace Text

def lowerCase (t : Text) : Text := t.map Char.toLower

section Positions
variable {α : Type} [DecidableEq α]

/-- The position of the last `c`, or -1. -/
def lastIndexOf (c : α) : List α → Int
  | [] => -1
  | x :: rest =>
    let i := lastIndexOf c rest
    if 0 ≤ i then i + 1 else if x = c then 0 else -1

/-- The last `n` characters; everything when there are not so many, or `n` is
negative. -/
def right (n : Int) (l : List α) : List α :=
  if n < 0 ∨ (l.length : Int) ≤ n then l else l.drop (l.length - n.toNat)

/-- Removes `len` characters from `pos` on, in place. -/
def remove (pos len : Int) (l : List α) : List α :=
  let pos := if pos < 0 then pos + l.length else pos
  if pos < 0 ∨ (l.length : Int) ≤ pos then l
  else l.take pos.toNat ++ l.drop (pos.toNat + len.toNat)

theorem lastIndexOf_of_not_mem {c : α} {l : List α} (h : c ∉ l) : lastIndexOf c l = -1 := by
  induction l with
  | nil => rfl
  | cons x rest ih =>
    have hrest := ih fun hm => h (List.mem_cons_of_mem _ hm)
    have hx : x ≠ c := fun hx => h (hx ▸ List.mem_cons_self ..)
    simp [lastIndexOf, hrest, hx]

/-- The last `c` is the one with no other behind it. -/
theorem lastIndexOf_append {c : α} {t : List α} (l : List α) (h : c ∉ t) :
    lastIndexOf c (l ++ c :: t) = l.length := by
  induction l with
  | nil => simp [lastIndexOf, lastIndexOf_of_not_mem h]
  | cons x rest ih =>
    have hpos : (0 : Int) ≤ rest.length := Int.natCast_nonneg _
    simp [lastIndexOf, ih, hpos]

omit [DecidableEq α] in
theorem exists_last_split {c : α} {l : List α} (h : c ∈ l) :
    ∃ front back, l = front ++ c :: back ∧ c ∉ back := by
  obtain ⟨back, front, heq, hback⟩ := List.eq_append_cons_of_mem (List.mem_reverse.mpr h)
  refine ⟨front.reverse, back.reverse, ?_, fun hm => hback (List.mem_reverse.mp hm)⟩
  rw [← List.reverse_reverse l, heq]
  simp

omit [DecidableEq α] in
theorem right_append (l t : List α) : right t.length (l ++ t) = t := by
  unfold right
  split
  · rename_i h
    have hl : l.length = 0 := by
      rw [List.length_append] at h
      omega
    simp [List.length_eq_zero_iff.mp hl]
  · simp

/-- What is behind the last `c`. -/
theorem right_lastIndexOf {c : α} {t : List α} (l : List α) (h : c ∉ t) :
    right ((l ++ c :: t).length - (lastIndexOf c (l ++ c :: t) + 1)) (l ++ c :: t) = t := by
  have hlen : ((l ++ c :: t).length : Int) - (l.length + 1) = t.length := by
    rw [List.length_append, List.length_cons]
    omega
  have hright := right_append (l ++ [c]) t
  rw [lastIndexOf_append l h, hlen]
  simpa using hright

omit [DecidableEq α] in
theorem remove_of_lt {pos : Nat} {l : List α} (h : pos < l.length) (len : Int) :
    remove pos len l = l.take pos ++ l.drop (pos + len.toNat) := by
  have hpos : ¬ (pos : Int) < 0 := by omega
  have hin : ¬ (l.length : Int) ≤ pos := by omega
  simp [remove, hpos, hin]

omit [DecidableEq α] in
theorem remove_append {l t : List α} {len : Int} (h : (t.length : Int) ≤ len) (hne : t ≠ []) :
    remove l.length len (l ++ t) = l := by
  have hlen : 0 < t.length := List.length_pos_iff.mpr hne
  have hlong : t.length ≤ len.toNat := by omega
  rw [remove_of_lt (by rw [List.length_append]; omega), List.take_left, List.drop_append]
  simp [hlong]

omit [DecidableEq α] in
/-- Removing what was not found takes the last character away. -/
theorem remove_last (l : List α) {len : Int} (h : 0 < len) : remove (-1) len l = l.dropLast := by
  rcases l.eq_nil_or_concat with rfl | ⟨l, x, rfl⟩
  · simp [remove]
  · have hpos : (-1 : Int) + (l.concat x).length = l.length := by
      rw [List.length_concat]
      omega
    have heq : remove (-1) len (l.concat x) = remove l.length len (l.concat x) := by
      have hn : ¬ (l.length : Int) < 0 := by omega
      simp only [remove, hpos, hn, if_false, show (-1 : Int) < 0 by decide, if_true]
    rw [heq, List.concat_eq_append, remove_append (by simpa [Int.lt_iff_add_one_le] using h) (by simp)]
    simp

omit [DecidableEq α] in
theorem length_remove_le (pos len : Int) (l : List α) : (remove pos len l).length ≤ l.length := by
  unfold remove
  generalize (if pos < 0 then pos + (l.length : Int) else pos) = p
  dsimp only
  split
  · exact Nat.le_refl _
  · rw [List.length_append, List.length_take, List.length_drop]
    omega

end Positions

/-! ### Numbers -/

/-- The value of a string of decimal digits. -/
def digitsValue (digits : Text) : Nat :=
  digits.foldl (fun n c => 10 * n + (c.toNat - '0'.toNat)) 0

/-- `QChar::isSpace`. -/
def isSpace (c : Char) : Bool :=
  let n := c.toNat
  0x09 ≤ n && n ≤ 0x0D || 0x2000 ≤ n && n ≤ 0x200A ||
    [0x20, 0x85, 0xA0, 0x1680, 0x2028, 0x2029, 0x202F, 0x205F, 0x3000].contains n

def trimmed (t : Text) : Text := (t.dropWhile isSpace).rdropWhile isSpace

/-- A sign, and what follows it. -/
def signed : Text → Bool × Text
  | '-' :: digits => (true, digits)
  | '+' :: digits => (false, digits)
  | digits => (false, digits)

/-- An `int` in decimal notation; 0 when the text is none, or does not fit. -/
def toInt (t : Text) : Int :=
  let (negative, digits) := signed (trimmed t)
  if digits.isEmpty || !digits.all Char.isDigit then 0
  else
    let value : Int := if negative then -(digitsValue digits : Int) else digitsValue digits
    if -2147483648 ≤ value ∧ value ≤ 2147483647 then value else 0

theorem isSpace_of_isDigit {c : Char} (h : c.isDigit = true) : isSpace c = false := by
  have hdigit : 48 ≤ c.toNat ∧ c.toNat ≤ 57 := by
    simp only [Char.isDigit, Bool.and_eq_true, decide_eq_true_eq] at h
    exact h
  simp only [isSpace, List.contains_eq_mem, List.mem_cons, List.not_mem_nil, or_false, Bool.or_eq_false_iff,
    Bool.and_eq_false_iff, decide_eq_false_iff_not]
  omega

theorem trimmed_of_digits {t : Text} (h : ∀ c ∈ t, c.isDigit = true) : trimmed t = t := by
  have hw (c : Char) (hc : c ∈ t) : ¬ isSpace c = true := by
    simp [isSpace_of_isDigit (h c hc)]
  have hfront : t.dropWhile isSpace = t := by
    cases t with
    | nil => rfl
    | cons c rest => simp [isSpace_of_isDigit (h c (List.mem_cons_self ..))]
  rw [trimmed, hfront, List.rdropWhile_eq_self_iff]
  exact fun hne => hw _ (List.getLast_mem hne)

theorem signed_of_digit {c : Char} (h : c.isDigit = true) (rest : Text) :
    signed (c :: rest) = (false, c :: rest) := by
  unfold signed
  split
  · rename_i heq
    cases heq
    exact absurd h (by decide)
  · rename_i heq
    cases heq
    exact absurd h (by decide)
  · rfl

theorem toInt_of_digits {t : Text} (h : ∀ c ∈ t, c.isDigit = true) :
    toInt t = if digitsValue t ≤ 2147483647 then (digitsValue t : Int) else 0 := by
  cases t with
  | nil => rfl
  | cons c rest =>
    have hfits : (digitsValue (c :: rest) : Int) ≤ 2147483647 ↔ digitsValue (c :: rest) ≤ 2147483647 := by
      omega
    simp [toInt, trimmed_of_digits h, signed_of_digit (h c (List.mem_cons_self ..)),
      List.all_eq_true.mpr h, hfits]

end Text

end CrashReporter
