import CrashReporter.JournalSpy.Config

/-! The journal spy.

When there is something new in the journal, `handleJournalEntries` steps to the next entry
as long as this gives anything but 0, and compares the current entry with the expressions
each time. An error, a negative result, leaves the current entry as it is. -/
namespace CrashReporter.JournalSpy

/-- The data of each field of an entry, as `FIELD=value`; none where getting it fails. -/
abbrev Entry := Text → Option Bytes

/-- What the loop meets: the result of `sd_journal_next`, the entry that it steps to when it
is positive, the time and the state of the battery. -/
structure Turn where
  result : Int
  entry : Entry
  now : Int
  savePower : Bool

structure Collection where
  /-- Which of the expressions. -/
  expression : Nat
  submission : Text
  time : Int
deriving DecidableEq

structure Spy where
  expressions : List Expression
  current : Option Entry
  /-- How many entries were read. -/
  position : Nat
  /-- The position of the current entry, each time it was compared with the expressions. -/
  evaluated : List Nat
  collections : List Collection

namespace Spy

def new (expressions : List Expression) : Spy := ⟨expressions, none, 0, [], []⟩

end Spy

/-- The name that the logs are collected under. -/
def submission (name : Text) : Text := "JournalSpy-".toList ++ name

def silentPeriod : Int := 6 * 60 * 60 * 1000

section Matching
variable (hasMatch : Text → Bytes → Bool)

def matchesFields (rexp : Finset Field) (journal : Option Entry) : Bool :=
  decide (∀ f ∈ rexp, ((journal.bind (· f.1)).map fun data =>
    -- Cut off "FIELD=" at the beginning.
    hasMatch f.2 (data.drop (f.1.length + 1))).getD false = true)

def Expression.matches (e : Expression) (journal : Option Entry) : Bool := matchesFields hasMatch e.rexp journal

/-- The loop over the expressions, from number `i` on. -/
def evaluate (journal : Option Entry) (now : Int) (savePower : Bool) (i : Nat) :
    List Expression → List Expression × List Collection
  | [] => ([], [])
  | e :: rest =>
    if e.matches hasMatch journal then
      let previousHit := e.lastHit
      let e := { e with lastHit := now }
      let collections :=
        if e.lastHit - previousHit > silentPeriod then
          if savePower then [] else [⟨i, submission e.name, now⟩]
        else []
      (e :: rest, collections)
    else
      let (rest, collections) := evaluate journal now savePower (i + 1) rest
      (e :: rest, collections)

namespace Spy

/-- `sd_journal_next` with a result other than 0, and the body of the loop. -/
def turn (s : Spy) (t : Turn) : Spy :=
  let s := if 0 < t.result then { s with current := some t.entry, position := s.position + 1 } else s
  let (expressions, collections) := evaluate hasMatch s.current t.now t.savePower 0 s.expressions
  { s with
    expressions := expressions
    evaluated := s.evaluated ++ [s.position]
    collections := s.collections ++ collections }

/-- The loop, and whether it ended. -/
def handleJournalEntries : List Turn → Spy → Spy × Bool
  | [], s => (s, false)
  | t :: rest, s => if t.result = 0 then (s, true) else handleJournalEntries rest (s.turn hasMatch t)

/-- One batch after the other. -/
def run (batches : List (List Turn)) (s : Spy) : Spy :=
  batches.foldl (fun s batch => (s.handleJournalEntries hasMatch batch).1) s

end Spy

end Matching

end CrashReporter.JournalSpy
