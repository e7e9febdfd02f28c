import CrashReporter.Bytes
import CrashReporter.Text
import Mathlib.Data.Finset.Insert

/-! The configuration of the journal spy.

Two loops read the file. The outer one looks for the header of a pattern in the trimmed
line; the inner one reads the fields of the pattern, and stops where the next character
of the file is the semicolon of a header. A header that is indented is one to the outer
loop only. -/
namespace CrashReporter.JournalSpy
open Bytes

/-- A journal field, and the regular expression for its value. -/
abbrev Field := Text × Text

structure Expression where
  name : Text
  /-- A hash has no order, and each journal field once. -/
  rexp : Finset Field
  lastHit : Int
deriving DecidableEq

/-- A line with the newline that ends it, and what is left of the file. -/
def readLine : Bytes → Bytes × Bytes
  | [] => ([], [])
  | c :: rest => if c = 10 then ([c], rest) else (c :: (readLine rest).1, (readLine rest).2)

def trimmed (line : Bytes) : Bytes := (line.dropWhile isSpace).rdropWhile isSpace

theorem readLine_length (io : Bytes) : (readLine io).1.length + (readLine io).2.length = io.length := by
  induction io with
  | nil => rfl
  | cons c rest ih =>
    unfold readLine
    split
    · simp [Nat.add_comm]
    · simp only [List.length_cons]
      omega

theorem readLine_lt (c : UInt8) (rest : Bytes) : (readLine (c :: rest)).2.length < (c :: rest).length := by
  have hlen := readLine_length rest
  unfold readLine
  split
  · simp
  · simp only [List.length_cons]
    omega

section Parser
variable (decode : Bytes → Text) (valid : Text → Bool)

/-- What a line adds to the fields read so far. -/
def addLine (rexp : Finset Field) (line : Bytes) : Finset Field :=
  let line := trimmed line
  if line = [] ∨ line.head? = some 35 then rexp
  else if 61 ∉ line then rexp
  else
    let separator := line.idxOf 61
    let journalField := decode (line.take separator)
    if ∃ f ∈ rexp, f.1 = journalField then rexp
    else
      let pattern := decode (line.drop (separator + 1))
      if valid pattern then insert (journalField, pattern) rexp else rexp

/-- The loop of `parsePattern`: it only peeks at the character it stops at. -/
def readFields (rexp : Finset Field) : Bytes → Finset Field × Bytes
  | [] => (rexp, [])
  | nextChar :: rest =>
    if nextChar = 59 then (rexp, nextChar :: rest)
    else readFields (addLine decode valid rexp (readLine (nextChar :: rest)).1) (readLine (nextChar :: rest)).2
termination_by io => io.length
decreasing_by exact readLine_lt nextChar rest

/-- What `parsePattern` appends to the expressions. -/
def parsePattern (name : Text) (io : Bytes) : List Expression × Bytes :=
  let (rexp, io) := readFields decode valid ∅ io
  (if rexp = ∅ then [] else [{ name := name, rexp := rexp, lastHit := 0 }], io)

theorem readFields_length (rexp : Finset Field) (io : Bytes) :
    (readFields decode valid rexp io).2.length ≤ io.length := by
  induction rexp, io using readFields.induct decode valid with
  | case1 rexp => simp [readFields]
  | case2 rexp rest => simp [readFields]
  | case3 rexp c rest hc ih =>
    rw [readFields, if_neg hc]
    exact Nat.le_of_lt (Nat.lt_of_le_of_lt ih (readLine_lt c rest))

/-- `file` is the content of the file; it is empty when the file does not open. -/
def loadExpressions : Bytes → List Expression
  | [] => []
  | c :: rest =>
    let line := trimmed (readLine (c :: rest)).1
    if line.head? = some 59 then
      let parsed := parsePattern decode valid (decode (line.drop 1)) (readLine (c :: rest)).2
      parsed.1 ++ loadExpressions parsed.2
    else loadExpressions (readLine (c :: rest)).2
termination_by file => file.length
decreasing_by
  · exact Nat.lt_of_le_of_lt (readFields_length decode valid ∅ _) (readLine_lt c rest)
  · exact readLine_lt c rest

end Parser

end CrashReporter.JournalSpy
