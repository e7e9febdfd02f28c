import Mathlib.Data.List.DropRight

/-! Byte strings, and the character classes of the C locale. -/
namespace CrashReporter

abbrev Bytes := List UInt8

namespace Bytes

/-- A text of ASCII characters. -/
def ascii (s : String) : Bytes := s.toList.map fun c => UInt8.ofNat c.toNat

/-- What ASCII characters are decoded to. -/
def latin (bytes : Bytes) : List Char := bytes.map fun c => Char.ofNat c.toNat

def isAlnum (c : UInt8) : Bool :=
  (48 ≤ c && c ≤ 57) || (65 ≤ c && c ≤ 90) || (97 ≤ c && c ≤ 122)

/-- Tab to carriage return, and blank. -/
def isSpace (c : UInt8) : Bool := (9 ≤ c && c ≤ 13) || c = 32

/-- The decimal digits of a number. -/
def decimal (n : Nat) : Bytes := (Nat.toDigits 10 n).map fun c => UInt8.ofNat c.toNat

theorem isAlnum_decimal {n : Nat} {c : UInt8} (h : c ∈ decimal n) : isAlnum c = true := by
  obtain ⟨d, hd, rfl⟩ := List.mem_map.mp h
  have hdigit := Nat.isDigit_of_mem_toDigits (by decide) (by decide) hd
  simp only [Char.isDigit, Bool.and_eq_true, decide_eq_true_eq, ge_iff_le, UInt32.le_iff_toNat_le] at hdigit
  have hlow : 48 ≤ d.toNat := hdigit.1
  have hhigh : d.toNat ≤ 57 := hdigit.2
  have hall : ∀ k : Fin 10, isAlnum (UInt8.ofNat (48 + k)) = true := by decide
  have hd := hall ⟨d.toNat - 48, by omega⟩
  rwa [show 48 + (d.toNat - 48) = d.toNat by omega] at hd

end Bytes

end CrashReporter
