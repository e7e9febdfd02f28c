import CrashReporter.Bytes

/-! `rich-core-helper`, which any user may run as root.

It takes one label, checks its characters, and gives a shell of root the command that
makes a report under this label. The label may be of any length; the command is put
together in 128 bytes, and what does not fit is cut off. -/
namespace CrashReporter.RichCore
open Bytes

/-- What may stand in a label. -/
def allowed (c : UInt8) : Bool := isAlnum c || c = 95 || c = 45

/-- `snprintf`: the last of `size` bytes ends the string. -/
def snprintf (size : Nat) (text : Bytes) : Bytes := text.take (size - 1)

inductive Outcome where
  | usage
  | invalidLabel (label : Bytes)
  /-- `/bin/env -i /bin/bash -c command`, as root. -/
  | exec (command : Bytes)
deriving DecidableEq

def dumper : Bytes := ascii "/usr/sbin/rich-core-dumper"

def nameOption (label : Bytes) : Bytes := ascii "--name=" ++ label

def signalOption (randomid : Nat) : Bytes := ascii "--signal=" ++ decimal randomid

/-- The command in full. -/
def dumperCommand (label : Bytes) (randomid : Nat) : Bytes :=
  dumper ++ 32 :: (nameOption label ++ 32 :: signalOption randomid)

/-- `randomid` is what rand() returns, which is not negative. -/
def main (argv : List Bytes) (randomid : Nat) : Outcome :=
  match argv with
  | [_, label] =>
    if label.length = 0 then .invalidLabel label
    else if label.any (!allowed ·) then .invalidLabel label
    else .exec (snprintf 128 (dumperCommand label randomid))
  | _ => .usage

/-! ### The shell -/

/-- A character that is part of a word, and nothing else to the shell. -/
def plain (c : UInt8) : Bool := allowed c || c = 47 || c = 61

/-- The words of a command that has nothing but words and blanks in it. -/
def shellWords (command : Bytes) : Option (List Bytes) :=
  if command.all fun c => plain c || c = 32 then some ((command.splitOn 32).filter (· ≠ [])) else none

/-- The command runs the dumper with a label that was checked and the number, both complete. -/
def Intended (argv : List Bytes) (randomid : Nat) (command : Bytes) : Prop :=
  ∃ program label, argv = [program, label] ∧ label ≠ [] ∧ (∀ c ∈ label, allowed c = true) ∧
    command = dumperCommand label randomid ∧
      shellWords command = some [dumper, nameOption label, signalOption randomid]

theorem plain_of_allowed {c : UInt8} (h : allowed c = true) : plain c = true := by simp [plain, h]

theorem plain_dumper : ∀ c ∈ dumper, plain c = true := List.all_eq_true.mp (by decide)

theorem plain_nameOption {label : Bytes} (h : ∀ c ∈ label, allowed c = true) :
    ∀ c ∈ nameOption label, plain c = true := by
  have hname : ∀ c ∈ ascii "--name=", plain c = true := List.all_eq_true.mp (by decide)
  exact List.forall_mem_append.mpr ⟨hname, fun c hc => plain_of_allowed (h c hc)⟩

theorem plain_signalOption (randomid : Nat) : ∀ c ∈ signalOption randomid, plain c = true := by
  have hsignal : ∀ c ∈ ascii "--signal=", plain c = true := List.all_eq_true.mp (by decide)
  refine List.forall_mem_append.mpr ⟨hsignal, fun c hc => plain_of_allowed ?_⟩
  simp [allowed, isAlnum_decimal hc]

/-- The shell finds nothing but words in the command, cut off or not. -/
theorem plain_dumperCommand {label : Bytes} (h : ∀ c ∈ label, allowed c = true) (randomid : Nat) :
    ∀ c ∈ dumperCommand label randomid, (plain c || c = 32) = true := by
  have hword {word : Bytes} (hw : ∀ c ∈ word, plain c = true) : ∀ c ∈ word, (plain c || c = 32) = true :=
    fun c hc => by simp [hw c hc]
  refine List.forall_mem_append.mpr ⟨hword plain_dumper, List.forall_mem_cons.mpr ⟨rfl, ?_⟩⟩
  refine List.forall_mem_append.mpr ⟨hword (plain_nameOption h), List.forall_mem_cons.mpr ⟨rfl, ?_⟩⟩
  exact hword (plain_signalOption randomid)

/-- Words with blanks between them. -/
theorem shellWords_intercalate {words : List Bytes} (hne : words ≠ [])
    (hwords : ∀ word ∈ words, ∀ c ∈ word, plain c = true)
    (hall : ∀ c ∈ [32].intercalate words, (plain c || c = 32) = true) :
    shellWords ([32].intercalate words) = some (words.filter (· ≠ [])) := by
  have hblank : ∀ word ∈ words, 32 ∉ word := fun word hw hm => absurd (hwords word hw 32 hm) (by decide)
  unfold shellWords
  rw [if_pos (List.all_eq_true.mpr hall), List.splitOn_intercalate _ hblank hne]

/-- The command in full is three words. -/
theorem shellWords_dumperCommand {label : Bytes} (h : ∀ c ∈ label, allowed c = true) (randomid : Nat) :
    shellWords (dumperCommand label randomid) = some [dumper, nameOption label, signalOption randomid] := by
  have hwords : dumperCommand label randomid = [32].intercalate [dumper, nameOption label, signalOption randomid] := by
    simp [dumperCommand, List.intercalate]
  have hall := plain_dumperCommand h randomid
  rw [hwords] at hall ⊢
  rw [shellWords_intercalate (by simp) ?_ hall]
  · simp [dumper, nameOption, signalOption, ascii]
  · simp only [List.mem_cons, List.not_mem_nil, or_false, forall_eq_or_imp, forall_eq]
    exact ⟨plain_dumper, plain_nameOption h, plain_signalOption randomid⟩

theorem length_dumperCommand (label : Bytes) (randomid : Nat) :
    (dumperCommand label randomid).length = 44 + (label.length + (decimal randomid).length) := by
  have hdumper : dumper.length = 26 := by decide
  have hname : (ascii "--name=").length = 7 := by decide
  have hsignal : (ascii "--signal=").length = 9 := by decide
  simp only [dumperCommand, nameOption, signalOption, List.length_append, List.length_cons, hdumper, hname, hsignal]
  omega

/-- A command is run for one label that passes the check, and is cut off after 127 bytes. -/
theorem main_exec {argv : List Bytes} {randomid : Nat} {command : Bytes} :
    main argv randomid = .exec command ↔ ∃ program label, argv = [program, label] ∧ label ≠ [] ∧
      (∀ c ∈ label, allowed c = true) ∧ command = (dumperCommand label randomid).take 127 := by
  constructor
  · intro h
    unfold main at h
    split at h
    · rename_i program label
      split at h
      · cases h
      · split at h
        · cases h
        · rename_i hne hall
          cases h
          refine ⟨program, label, rfl, by simpa using hne, ?_, rfl⟩
          simpa using hall
    · cases h
  · rintro ⟨program, label, rfl, hne, hall, rfl⟩
    have hany : label.any (!allowed ·) = false := by simpa using hall
    simp [main, hne, hany, snprintf]

/-- Even a command that is cut off is nothing but words. -/
theorem exec_plain {argv : List Bytes} {randomid : Nat} {command : Bytes}
    (h : main argv randomid = .exec command) : ∀ c ∈ command, (plain c || c = 32) = true := by
  obtain ⟨program, label, -, -, hall, rfl⟩ := main_exec.mp h
  exact fun c hc => plain_dumperCommand hall randomid c (List.mem_of_mem_take hc)

/-- The dumper is given the label, cut off after 93 characters. -/
theorem shellWords_exec {program label command : Bytes} {randomid : Nat}
    (h : main [program, label] randomid = .exec command) :
    ∃ rest, shellWords command = some (dumper :: nameOption (label.take 93) :: rest) := by
  have hplain := exec_plain h
  obtain ⟨_, _, heq, -, hall, rfl⟩ := main_exec.mp h
  cases heq
  have hname : ∀ c ∈ nameOption (label.take 93), plain c = true :=
    plain_nameOption fun c hc => hall c (List.mem_of_mem_take hc)
  have hcut : (dumperCommand label randomid).take 127 =
      dumper ++ 32 :: (nameOption (label.take 93) ++ (32 :: signalOption randomid).take (93 - label.length)) := by
    have hdumper : dumper.length = 26 := by decide
    have hoption : (ascii "--name=").length = 7 := by decide
    rw [dumperCommand, List.take_append, hdumper, List.take_of_length_le (by simp [hdumper]), List.take_succ_cons,
      List.take_append, nameOption, List.take_append, hoption, List.take_of_length_le (by simp [hoption]),
      List.length_append, hoption, nameOption, Nat.sub_add_eq]
  -- Of the other option there is a part, or nothing.
  obtain ⟨words, hwords, heq⟩ : ∃ words : List Bytes, (∀ word ∈ words, ∀ c ∈ word, plain c = true) ∧
      dumper ++ 32 :: (nameOption (label.take 93) ++ (32 :: signalOption randomid).take (93 - label.length)) =
        [32].intercalate (dumper :: nameOption (label.take 93) :: words) := by
    cases 93 - label.length with
    | zero => exact ⟨[], by simp, by simp [List.intercalate]⟩
    | succ m =>
      refine ⟨[(signalOption randomid).take m], ?_, by simp [List.intercalate]⟩
      rw [List.forall_mem_singleton]
      exact fun c hc => plain_signalOption randomid c (List.mem_of_mem_take hc)
  rw [hcut, heq] at hplain ⊢
  refine ⟨words.filter (· ≠ []), ?_⟩
  rw [shellWords_intercalate (by simp) ?_ hplain]
  · simp [dumper, nameOption, ascii]
  · exact List.forall_mem_cons.mpr ⟨plain_dumper, List.forall_mem_cons.mpr ⟨hname, hwords⟩⟩

/-- The helper runs the intended command, if any, when a label that passes the check has
at most 83 characters together with the digits of the number. -/
theorem runs_intended_iff (argv : List Bytes) (randomid : Nat) :
    (∀ command, main argv randomid = .exec command → Intended argv randomid command) ↔
      ∀ program label, argv = [program, label] → label ≠ [] → (∀ c ∈ label, allowed c = true) →
        label.length + (decimal randomid).length ≤ 83 := by
  constructor
  · rintro h program label rfl hne hall
    obtain ⟨_, _, heq, -, -, hfull, -⟩ := h _ (main_exec.mpr ⟨program, label, rfl, hne, hall, rfl⟩)
    cases heq
    have hlen := congrArg List.length hfull
    rw [List.length_take, length_dumperCommand] at hlen
    omega
  · intro h command hexec
    obtain ⟨program, label, rfl, hne, hall, rfl⟩ := main_exec.mp hexec
    have hfull : (dumperCommand label randomid).take 127 = dumperCommand label randomid := by
      have hle := h program label rfl hne hall
      refine List.take_of_length_le ?_
      rw [length_dumperCommand]
      omega
    rw [hfull]
    exact ⟨program, label, rfl, hne, hall, rfl, shellWords_dumperCommand hall randomid⟩

/-- Of a label of 94 characters the last one is lost, and the signal with it. -/
theorem long_label_cut : ∃ command, main [ascii "rich-core-helper", List.replicate 94 97] 42 = .exec command ∧
    ¬Intended [ascii "rich-core-helper", List.replicate 94 97] 42 command ∧
      shellWords command = some [dumper, nameOption (List.replicate 93 97)] := by
  refine ⟨_, rfl, ?_, by decide⟩
  rintro ⟨_, _, heq, -, -, hfull, -⟩
  cases heq
  exact absurd hfull (by decide)

end CrashReporter.RichCore
