import CrashReporter.JournalSpy.Collections
import CrashReporter.JournalSpy.Grammar
import CrashReporter.Monitor.FileName
import CrashReporter.RichCore.Helper

/-! From a header of the configuration to the report that is made.

The spy puts `JournalSpy-` in front of the name that it has read in the header, and runs
`rich-core-helper` with it. What the configuration says about names is checked there, by
bytes, and by nobody before. -/
namespace CrashReporter.JournalSpy
open Bytes RichCore Sections

/-- A string as an argument of a process: in UTF-8, and ended by a zero. -/
def argument (t : Text) : Bytes := (t.flatMap String.utf8EncodeChar).takeWhile (· ≠ 0)

/-- The arguments of the helper. -/
def invokeLogCollection (label : Text) : List Bytes := [ascii "/usr/libexec/rich-core-helper", argument label]

/-- What may stand in the name of a pattern. -/
def inName (c : Char) : Bool := c.isAlphanum || c = '_' || c = '-'

/-! ### Names as bytes -/

section Encoding
variable {c : Char} {t : Text}

theorem toNat_ofNat_of_lt {n : Nat} (h : n < 256) : (UInt8.ofNat n).toNat = n :=
  UInt8.toNat_ofNat_of_lt h

/-- Only an ASCII character has a byte below 128. -/
theorem utf8EncodeChar_low {b : UInt8} (hb : b ∈ String.utf8EncodeChar c) (hlow : b.toNat < 128) :
    c.toNat < 128 ∧ b = UInt8.ofNat c.toNat := by
  have hhigh {m k : Nat} (hk : 128 ≤ k) (hm : m + k < 256) : ¬(UInt8.ofNat (m + k)).toNat < 128 := by
    rw [toNat_ofNat_of_lt hm]
    omega
  unfold String.utf8EncodeChar at hb
  extract_lets v at hb
  split at hb
  · rename_i hv
    obtain rfl := List.mem_singleton.mp hb
    exact ⟨by simpa [v] using Nat.lt_succ_of_le hv, rfl⟩
  · exfalso
    split at hb
    · simp only [List.mem_cons, List.not_mem_nil, or_false] at hb
      obtain rfl | rfl := hb <;> exact hhigh (by omega) (by omega) hlow
    · split at hb
      · simp only [List.mem_cons, List.not_mem_nil, or_false] at hb
        obtain rfl | rfl | rfl := hb <;> exact hhigh (by omega) (by omega) hlow
      · simp only [List.mem_cons, List.not_mem_nil, or_false] at hb
        obtain rfl | rfl | rfl | rfl := hb <;> exact hhigh (by omega) (by omega) hlow

theorem utf8EncodeChar_ascii (h : c.toNat < 128) : String.utf8EncodeChar c = [UInt8.ofNat c.toNat] := by
  have hle : c.val.toNat ≤ 127 := Nat.le_of_lt_succ h
  exact if_pos hle

theorem allowed_byte (h : c.toNat < 128) : allowed (UInt8.ofNat c.toNat) = inName c := by
  have hall : ∀ n : Fin 128, allowed (UInt8.ofNat n) = inName (Char.ofNat n) := by decide
  have hc := hall ⟨c.toNat, h⟩
  rwa [Char.ofNat_toNat] at hc

theorem toNat_lt_of_inName (h : inName c = true) : c.toNat < 128 := by
  have hle {n : UInt32} (hn : n.toNat < 128) (h : c.val ≤ n) : c.toNat < 128 :=
    Nat.lt_of_le_of_lt (UInt32.le_iff_toNat_le.mp h) hn
  simp only [inName, Bool.or_eq_true, decide_eq_true_eq] at h
  obtain (h | rfl) | rfl := h
  · obtain (h | h) | h := (Bool.or_eq_true_iff.mp h).imp_left Bool.or_eq_true_iff.mp
    · exact hle (n := 'Z'.val) (by decide) (of_decide_eq_true h).2
    · exact hle (n := 'z'.val) (by decide) (of_decide_eq_true (Bool.and_eq_true_iff.mp h).2)
    · exact hle (n := '9'.val) (by decide) (of_decide_eq_true (Bool.and_eq_true_iff.mp h).2)
  · decide
  · decide

theorem toNat_lt_of_allowed {b : UInt8} (h : allowed b = true) : b.toNat < 128 := by
  simp only [allowed, isAlnum, Bool.or_eq_true, Bool.and_eq_true, decide_eq_true_eq, UInt8.le_iff_toNat_le] at h
  obtain (((⟨-, h⟩ | ⟨-, h⟩) | ⟨-, h⟩) | rfl) | rfl := h
  · exact Nat.lt_of_le_of_lt h (by decide)
  · exact Nat.lt_of_le_of_lt h (by decide)
  · exact Nat.lt_of_le_of_lt h (by decide)
  · decide
  · decide

/-- A string without a zero is passed on as a whole. -/
theorem argument_eq (hz : Char.ofNat 0 ∉ t) : argument t = t.flatMap String.utf8EncodeChar := by
  refine List.takeWhile_eq_self_iff.mpr fun b hb => ?_
  obtain ⟨c, hc, hbyte⟩ := List.mem_flatMap.mp hb
  refine decide_eq_true fun hzero => hz ?_
  obtain ⟨hlow, heq⟩ := utf8EncodeChar_low hbyte (by simp [hzero])
  have hnat : c.toNat = 0 := by
    have hbytes := congrArg UInt8.toNat (heq.symm.trans hzero)
    rwa [toNat_ofNat_of_lt (by omega)] at hbytes
  rwa [← hnat, Char.ofNat_toNat]

/-- The helper allows the bytes of a string when its characters may stand in a name. -/
theorem allowed_argument_iff (hz : Char.ofNat 0 ∉ t) :
    (∀ b ∈ argument t, allowed b = true) ↔ ∀ c ∈ t, inName c = true := by
  rw [argument_eq hz]
  constructor
  · intro h c hc
    obtain ⟨b, hb⟩ := List.exists_mem_of_ne_nil _ (String.utf8EncodeChar_ne_nil (c := c))
    have hallowed := h b (List.mem_flatMap_of_mem hc hb)
    obtain ⟨hlow, rfl⟩ := utf8EncodeChar_low hb (toNat_lt_of_allowed hallowed)
    rwa [allowed_byte hlow] at hallowed
  · intro h b hb
    obtain ⟨c, hc, hbyte⟩ := List.mem_flatMap.mp hb
    have hlow := toNat_lt_of_inName (h c hc)
    rw [utf8EncodeChar_ascii hlow] at hbyte
    obtain rfl := List.mem_singleton.mp hbyte
    rw [allowed_byte hlow]
    exact h c hc

theorem length_argument (hz : Char.ofNat 0 ∉ t) (h : ∀ c ∈ t, inName c = true) :
    (argument t).length = t.length := by
  rw [argument_eq hz]
  clear hz
  induction t with
  | nil => rfl
  | cons c rest ih =>
    obtain ⟨hc, hrest⟩ := List.forall_mem_cons.mp h
    rw [List.flatMap_cons, List.length_append, ih hrest, utf8EncodeChar_ascii (toNat_lt_of_inName hc)]
    exact Nat.add_comm ..

end Encoding

/-! ### The names in a run -/

section Names
variable {hasMatch : Text → Bytes → Bool}

def Spy.names (s : Spy) : List Text := s.expressions.map (·.name)

theorem evaluate_names {journal : Option Entry} {now : Int} {savePower : Bool} (i : Nat)
    (expressions : List Expression) :
    (evaluate hasMatch journal now savePower i expressions).1.map (·.name) = expressions.map (·.name) := by
  induction expressions generalizing i with
  | nil => rfl
  | cons e rest ih =>
    cases h : e.matches hasMatch journal with
    | true => simp [evaluate_hit h]
    | false => simp [evaluate_miss h, ih]

theorem evaluate_named {journal : Option Entry} {now : Int} {savePower : Bool} (i : Nat)
    (expressions : List Expression) :
    ∀ c ∈ (evaluate hasMatch journal now savePower i expressions).2, ∃ e ∈ expressions,
      c.submission = submission e.name := by
  induction expressions generalizing i with
  | nil => exact nofun
  | cons e rest ih =>
    cases h : e.matches hasMatch journal with
    | true =>
      intro c hc
      rw [evaluate_hit h] at hc
      refine ⟨e, List.mem_cons_self .., ?_⟩
      dsimp only at hc
      split at hc
      · rw [List.mem_singleton.mp hc]
      · cases hc
    | false =>
      intro c hc
      rw [evaluate_miss h] at hc
      obtain ⟨e', he', hname⟩ := ih (i + 1) c hc
      exact ⟨e', List.mem_cons_of_mem _ he', hname⟩

/-- Logs are collected under the name of a pattern. -/
def Spy.Named (names : List Text) (s : Spy) : Prop :=
  s.names = names ∧ ∀ c ∈ s.collections, ∃ name ∈ names, c.submission = submission name

theorem Spy.Named.turn {names : List Text} {s : Spy} (h : s.Named names) (t : Turn) :
    (s.turn hasMatch t).Named names := by
  refine ⟨?_, fun c hc => ?_⟩
  · rw [Spy.names, turn_expressions, evaluate_names]
    exact h.1
  · rw [turn_collections] at hc
    obtain hc | hc := List.mem_append.mp hc
    · exact h.2 c hc
    · obtain ⟨e, he, hname⟩ := evaluate_named 0 s.expressions c hc
      exact ⟨e.name, h.1 ▸ List.mem_map_of_mem he, hname⟩

theorem Spy.Named.run {names : List Text} {s : Spy} (h : s.Named names) (batches : List (List Turn)) :
    (s.run hasMatch batches).Named names := by
  rw [Spy.run_eq]
  generalize handled batches = turns
  induction turns generalizing s with
  | nil => exact h
  | cons t rest ih => exact ih (h.turn t)

end Names

section Headers
variable {decode : Bytes → Text} {valid : Text → Bool}

/-- The name of an expression is read in a header. -/
theorem name_of_header {file : Bytes} {e : Expression} (h : e ∈ loadExpressions decode valid file) :
    ∃ line ∈ lines file, isHeader line = true ∧ e.name = headerName decode line := by
  rw [loadExpressions_sections] at h
  obtain ⟨s, hs, he⟩ := List.mem_flatMap.mp h
  obtain ⟨hline, hheader⟩ := mem_sections hs
  refine ⟨s.1, hline, hheader.elim id (isHeader_of_flush _), ?_⟩
  unfold pattern at he
  split at he
  · cases he
  · rw [List.mem_singleton.mp he]

end Headers

/-! ### The report -/

/-- The name has the characters that the configuration allows, and there is room for it. -/
structure Reportable (name : Text) : Prop where
  characters : ∀ c ∈ name, inName c = true
  fits : name.length ≤ 82

/-- The dumper is given this label as one argument. -/
def Given (label command : Bytes) : Prop :=
  ∃ rest, shellWords command = some (dumper :: nameOption label :: rest)

section Report
variable {name : Text}

theorem submission_eq (name : Text) : submission name = "JournalSpy-".toList ++ name := rfl

theorem inName_submission : (∀ c ∈ submission name, inName c = true) ↔ ∀ c ∈ name, inName c = true := by
  have hstart : ∀ c ∈ "JournalSpy-".toList, inName c = true := List.all_eq_true.mp (by decide)
  rw [submission_eq, List.forall_mem_append, and_iff_right hstart]

theorem zero_notMem_submission (hz : Char.ofNat 0 ∉ name) : Char.ofNat 0 ∉ submission name := by
  have hstart : Char.ofNat 0 ∉ "JournalSpy-".toList := by decide
  rw [submission_eq, List.mem_append]
  exact not_or.mpr ⟨hstart, hz⟩

theorem length_submission (hz : Char.ofNat 0 ∉ name) (h : ∀ c ∈ name, inName c = true) :
    (argument (submission name)).length = 11 + name.length := by
  rw [length_argument (zero_notMem_submission hz) (inName_submission.mpr h), submission_eq, List.length_append]
  rfl

/-- The helper gives the dumper a label that passes the check and has room, and no other. -/
theorem main_given_iff (program label : Bytes) (randomid : Nat) :
    (∃ command, RichCore.main [program, label] randomid = .exec command ∧ Given label command) ↔
      label ≠ [] ∧ (∀ b ∈ label, allowed b = true) ∧ label.length ≤ 93 := by
  constructor
  · rintro ⟨command, hexec, rest, hgiven⟩
    obtain ⟨rest', hcut⟩ := shellWords_exec hexec
    obtain ⟨_, _, heq, hne, hall, -⟩ := main_exec.mp hexec
    cases heq
    refine ⟨hne, hall, ?_⟩
    have hwords := (Option.some.inj (hgiven.symm.trans hcut))
    have hlabel : label = label.take 93 := List.append_cancel_left (List.cons.inj (List.cons.inj hwords).2).1
    have hlength := congrArg List.length hlabel
    rw [List.length_take] at hlength
    omega
  · rintro ⟨hne, hall, hroom⟩
    have hexec : RichCore.main [program, label] randomid = .exec _ :=
      main_exec.mpr ⟨program, label, rfl, hne, hall, rfl⟩
    obtain ⟨rest, hgiven⟩ := shellWords_exec hexec
    rw [List.take_of_length_le hroom] at hgiven
    exact ⟨_, hexec, rest, hgiven⟩

theorem submission_given_iff (hz : Char.ofNat 0 ∉ name) (randomid : Nat) :
    (∃ command, RichCore.main (invokeLogCollection (submission name)) randomid = .exec command ∧
      Given (argument (submission name)) command) ↔ Reportable name := by
  have hallowed := allowed_argument_iff (zero_notMem_submission hz)
  rw [inName_submission] at hallowed
  rw [invokeLogCollection, main_given_iff, hallowed]
  constructor
  · rintro ⟨-, hname, hroom⟩
    rw [length_submission hz hname] at hroom
    exact ⟨hname, by omega⟩
  · rintro ⟨hname, hfits⟩
    have hlength := length_submission hz hname
    exact ⟨List.ne_nil_of_length_pos (by omega), hname, by omega⟩

/-- A report whose path has the label in it, or as much as was left of it, is not taken for one
of a crash. -/
theorem label_crashless {path : Text} (hz : Char.ofNat 0 ∉ name)
    (h : latin ((argument (submission name)).take 93) <:+: path) : Monitor.reportIncludesCrash path = false := by
  have hstart : latin (ascii "JournalSpy") = "JournalSpy".toList := by decide
  have hargument : argument (submission name) = ascii "JournalSpy-" ++ name.flatMap String.utf8EncodeChar := by
    rw [argument_eq (zero_notMem_submission hz), submission_eq, List.flatMap_append]
    rfl
  have hstarts : ascii "JournalSpy" <+: (argument (submission name)).take 93 := by
    rw [hargument]
    exact ⟨_, rfl⟩
  have hinfix : "JournalSpy".toList <:+: path := by
    rw [← hstart]
    exact (hstarts.map _).isInfix.trans h
  have hmem : "JournalSpy".toList ∈ Monitor.crashlessPrefixes := by decide
  simp only [Monitor.reportIncludesCrash, Bool.not_eq_false', List.any_eq_true, decide_eq_true_eq]
  exact ⟨_, hmem, hinfix⟩

end Report

/-- **Whatever the configuration and the journal hold, logs are collected under the name in
a header. The dumper is given this name, whole and as one argument, exactly when it is
reportable; and whatever the helper runs, root's shell gets nothing but words, and a report
with the label that the dumper is given, cut off or not, is never deleted as a duplicate.** -/
theorem collections_reported (decode : Bytes → Text) (hdecode : ∀ bytes, Char.ofNat 0 ∉ decode bytes)
    (valid : Text → Bool) (hasMatch : Text → Bytes → Bool) (file : Bytes) (batches : List (List Turn))
    (randomid : Nat) :
    ∀ c ∈ ((Spy.new (loadExpressions decode valid file)).run hasMatch batches).collections,
      ∃ line ∈ lines file, isHeader line = true ∧ c.submission = submission (headerName decode line) ∧
        ((∃ command, RichCore.main (invokeLogCollection c.submission) randomid = .exec command ∧
          Given (argument c.submission) command) ↔ Reportable (headerName decode line)) ∧
        ∀ command, RichCore.main (invokeLogCollection c.submission) randomid = .exec command →
          (∀ b ∈ command, (plain b || b = 32) = true) ∧
            ∃ label, Given label command ∧ label <+: argument c.submission ∧
              ∀ path, latin label <:+: path → ∀ maximum now handled,
                Monitor.checkForDuplicates maximum now path handled = (false, handled) := by
  intro c hc
  have hnamed : (Spy.new (loadExpressions decode valid file)).Named
      ((loadExpressions decode valid file).map (·.name)) := ⟨rfl, nofun⟩
  obtain ⟨name, hname, hsubmission⟩ := (hnamed.run batches).2 c hc
  obtain ⟨e, he, rfl⟩ := List.mem_map.mp hname
  obtain ⟨line, hline, hheader, hheaderName⟩ := name_of_header he
  rw [hheaderName] at hsubmission
  refine ⟨line, hline, hheader, hsubmission, ?_, fun command hexec => ⟨exec_plain hexec, ?_⟩⟩
  · rw [hsubmission]
    exact submission_given_iff (hdecode _) randomid
  · refine ⟨(argument c.submission).take 93, shellWords_exec hexec, List.take_prefix .., ?_⟩
    intro path hpath maximum now handled
    rw [hsubmission] at hpath
    simp [Monitor.checkForDuplicates, label_crashless (hdecode _) hpath]

/-- A decoder that stops at a zero. -/
def plainText (bytes : Bytes) : Text := latin (bytes.takeWhile (· ≠ 0))

theorem zero_notMem_plainText (bytes : Bytes) : Char.ofNat 0 ∉ plainText bytes := by
  have hall : ∀ n : Fin 256, Char.ofNat n = Char.ofNat 0 → n = 0 := by decide +kernel
  intro hmem
  obtain ⟨b, hb, hzero⟩ := List.mem_map.mp hmem
  have hn := hall ⟨b.toNat, b.toNat_lt⟩ hzero
  have hne := List.mem_takeWhile_imp hb
  refine absurd (UInt8.toNat_inj.mp ?_) (of_decide_eq_true hne)
  simpa using congrArg Fin.val hn

/-- The second pattern has a blank in its name. -/
def twoPatterns : Bytes := ascii ";wlan\nA=x\n;log in\nB=x\n"

/-- An entry for each of them. -/
def twoEntries : List (List Turn) :=
  let entry (field : Text) : Entry := fun f => if f = field then some [] else none
  [[⟨1, entry ['A'], silentPeriod + 1, false⟩, ⟨1, entry ['B'], silentPeriod + 2, false⟩]]

def twoFound : Spy :=
  (Spy.new (loadExpressions plainText (fun _ => true) twoPatterns)).run (fun _ _ => true) twoEntries

theorem collections_reported_wlan : twoFound.collections.map (·.submission) =
      ["JournalSpy-wlan".toList, "JournalSpy-log in".toList] ∧
    ∃ c ∈ twoFound.collections, ∃ command, RichCore.main (invokeLogCollection c.submission) 7 = .exec command ∧
      Given (argument c.submission) command := by
  have hfound : twoFound.collections = [⟨0, submission "wlan".toList, silentPeriod + 1⟩,
      ⟨1, submission "log in".toList, silentPeriod + 2⟩] := by
    rw [twoFound, loadExpressions_sections]
    decide +kernel
  have hc : ⟨0, submission "wlan".toList, silentPeriod + 1⟩ ∈ twoFound.collections := by
    rw [hfound]
    exact List.mem_cons_self ..
  obtain ⟨line, -, -, hsubmission, hgiven, -⟩ :=
    collections_reported plainText zero_notMem_plainText (fun _ => true) (fun _ _ => true) twoPatterns twoEntries 7 _ hc
  have hname : headerName plainText line = "wlan".toList := (List.append_cancel_left hsubmission).symm
  rw [hname] at hgiven
  refine ⟨?_, _, hc, hgiven.mpr ⟨List.all_eq_true.mp (by decide), by decide⟩⟩
  rw [hfound]
  decide +kernel

end CrashReporter.JournalSpy
