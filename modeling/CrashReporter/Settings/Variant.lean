import CrashReporter.Text
import Mathlib.Algebra.Ring.Int.Defs
import Mathlib.Logic.Function.Basic

/-! The values of `QSettings`.

A setter stores a typed value; what was read from a file is text. `Variant` is what a
key holds, with the conversions of `QVariant` and the comparison that
`CReporterSettingsBase::setValue` makes. -/
namespace CrashReporter
open Text

namespace Text

/-- An integer in decimal notation, when it fits in 64 bits. -/
def toLongLong (t : Text) : Option Int :=
  let (negative, digits) := signed (trimmed t)
  if digits.isEmpty || !digits.all Char.isDigit then none
  else
    let value : Int := if negative then -(digitsValue digits : Int) else digitsValue digits
    if -2 ^ 63 ≤ value ∧ value < 2 ^ 63 then some value else none

/-- The decimal notation of an integer. -/
def decimal (n : Int) : Text :=
  if n < 0 then '-' :: Nat.toDigits 10 n.natAbs else Nat.toDigits 10 n.natAbs

theorem digitsValue_toDigits (n : Nat) : digitsValue (Nat.toDigits 10 n) = n :=
  Nat.ofDigitChars_ten_toDigits

theorem isDigit_toDigits {n : Nat} : ∀ c ∈ Nat.toDigits 10 n, c.isDigit = true :=
  fun _ hc => Nat.isDigit_of_mem_toDigits (by decide) (by decide) hc

theorem trimmed_minus {digits : Text} (h : ∀ c ∈ digits, c.isDigit = true) :
    trimmed ('-' :: digits) = '-' :: digits := by
  have hfront : ('-' :: digits).dropWhile isSpace = '-' :: digits := rfl
  rw [trimmed, hfront, List.rdropWhile_eq_self_iff]
  intro hne
  rcases List.mem_cons.mp (List.getLast_mem hne) with he | hd
  · rw [he]
    decide
  · rw [isSpace_of_isDigit (h _ hd)]
    decide

theorem signed_trimmed_decimal (n : Int) :
    signed (trimmed (decimal n)) = (decide (n < 0), Nat.toDigits 10 n.natAbs) := by
  unfold decimal
  split
  · rename_i hn
    rw [trimmed_minus isDigit_toDigits, signed, decide_eq_true hn]
  · rename_i hn
    rw [trimmed_of_digits isDigit_toDigits, decide_eq_false hn]
    cases hd : Nat.toDigits 10 n.natAbs with
    | nil => exact absurd hd Nat.toDigits_ne_nil
    | cons c rest =>
      exact signed_of_digit (isDigit_toDigits (n := n.natAbs) c (hd ▸ List.mem_cons_self ..)) rest

/-- What was written is read back. -/
theorem toLongLong_decimal {n : Int} (hl : -2 ^ 63 ≤ n) (hu : n < 2 ^ 63) :
    toLongLong (decimal n) = some n := by
  have hvalue : (if decide (n < 0) = true then -(n.natAbs : Int) else (n.natAbs : Int)) = n := by
    by_cases hn : n < 0
    · rw [if_pos (decide_eq_true hn)]
      omega
    · rw [if_neg (by simpa using hn)]
      omega
  have hne : (Nat.toDigits 10 n.natAbs).isEmpty = false := by
    simp [Nat.toDigits_ne_nil]
  simp only [toLongLong, signed_trimmed_decimal, digitsValue_toDigits, hvalue, hne,
    List.all_eq_true.mpr isDigit_toDigits, Bool.not_true, Bool.or_false, Bool.false_eq_true,
    if_false]
  exact if_pos ⟨hl, hu⟩

end Text

/-- What a setter passes on. -/
inductive Value where
  | bool (b : Bool)
  | int (n : Int32)
  | uint (n : UInt32)
deriving DecidableEq

namespace Value

def number : Value → Int
  | .bool b => b.toNat
  | .int n => n.toInt
  | .uint n => n.toNat

def toText : Value → Text
  | .bool true => "true".toList
  | .bool false => "false".toList
  | .int n => decimal n.toInt
  | .uint n => decimal n.toNat

theorem number_bounds (v : Value) : -2 ^ 63 ≤ v.number ∧ v.number < 2 ^ 63 := by
  cases v with
  | bool b => cases b <;> simp [number]
  | int n =>
    have hl := n.le_toInt
    have hu := n.toInt_lt
    simp only [number]
    omega
  | uint n =>
    have hu := n.toNat_lt
    simp only [number]
    omega

end Value

/-- What a key holds. -/
inductive Variant where
  /-- The key is absent. -/
  | invalid
  /-- Read from the settings file. -/
  | text (t : Text)
  | value (v : Value)
deriving DecidableEq

namespace Variant

def toBool : Variant → Bool
  | .invalid => false
  | .text t => !(["", "0", "false"].map String.toList).contains (lowerCase t)
  | .value v => v.number ≠ 0

/-- The number, when there is one. A number is cut off to 32 bits. -/
def toInt? : Variant → Option Int32
  | .invalid => none
  | .text t => (toLongLong t).map Int32.ofInt
  | .value v => some (Int32.ofInt v.number)

def toInt (v : Variant) : Int32 := v.toInt?.getD 0

/-- `QVariant::operator==`: the value is converted to the type of the variant. -/
def equals : Variant → Value → Bool
  | .invalid, _ => false
  | .text t, v => t = v.toText
  | .value w, v => w.number = v.number

/-- Written to the settings file and read again. -/
def reread : Variant → Variant
  | .value v => .text v.toText
  | v => v

theorem toBool_of_equals {v : Variant} {b : Bool} (h : v.equals (.bool b) = true) : v.toBool = b := by
  cases v with
  | invalid => exact absurd h (by simp [equals])
  | text t =>
    obtain rfl : t = (Value.bool b).toText := of_decide_eq_true h
    cases b <;> decide
  | value w =>
    have hw : w.number = b.toNat := of_decide_eq_true h
    cases b <;> simp [toBool, hw]

theorem toInt_of_equals {v : Variant} {n : Int32} (h : v.equals (.int n) = true) : v.toInt = n := by
  cases v with
  | invalid => exact absurd h (by simp [equals])
  | text t =>
    obtain rfl : t = decimal n.toInt := of_decide_eq_true h
    have hb := (Value.int n).number_bounds
    simp only [Value.number] at hb
    simp [toInt, toInt?, toLongLong_decimal hb.1 hb.2]
  | value w =>
    have hw : w.number = n.toInt := of_decide_eq_true h
    simp [toInt, toInt?, hw]

/-- An integer survives the settings file. -/
theorem toInt?_reread (n : Int32) : (Variant.value (.int n)).reread.toInt? = some n := by
  have hb := (Value.int n).number_bounds
  simp only [Value.number] at hb
  simp [reread, Value.toText, toInt?, toLongLong_decimal hb.1 hb.2]

end Variant

/-! ### `CReporterSettingsBase` -/

/-- The values of `QSettings`, by key. -/
structure SettingsBase where
  values : String → Variant

namespace SettingsBase

def value (key : String) (defaultValue : Value) (s : SettingsBase) : Variant :=
  match s.values key with
  | .invalid => .value defaultValue
  | v => v

/-- Stores the value; true when it differs from the old one. -/
def setValue (key : String) (value : Value) (s : SettingsBase) : SettingsBase × Bool :=
  (⟨Function.update s.values key (.value value)⟩, !(s.values key).equals value)

/-- Another process reads the settings file. -/
def reread (s : SettingsBase) : SettingsBase := ⟨fun key => (s.values key).reread⟩

variable {s : SettingsBase} {key key' : String} {v d : Value}

@[simp] theorem value_setValue : (s.setValue key v).1.value key d = .value v := by
  simp [value, setValue]

theorem value_setValue_of_ne (h : key' ≠ key) :
    (s.setValue key v).1.value key' d = s.value key' d := by
  simp [value, setValue, h]

/-- An equal value is there already, not the default. -/
theorem value_of_equals (h : (s.values key).equals v = true) : s.value key d = s.values key := by
  unfold value
  split
  · rename_i hi
    rw [hi] at h
    exact absurd h (by simp [Variant.equals])
  · rfl

end SettingsBase

end CrashReporter
