import CrashReporter.Text

/-! The names of report files.

A report lies in its core directory as application-hwid-signal-pid.rcore, with .lzo
behind it when it is compressed. `parseCrashInfoFromFilename` takes the fields off the
end of the base name one by one, as an application may have dashes in its name; the
base name, though, is what comes before the first dot. -/
namespace CrashReporter.Monitor
open Text

/-! ### `QFileInfo` -/

def fileName (filePath : Text) : Text :=
  right (filePath.length - (lastIndexOf '/' filePath + 1)) filePath

/-- The file name up to its first dot. -/
def baseName (filePath : Text) : Text := (fileName filePath).takeWhile (· ≠ '.')

/-! ### `CReporterUtils` -/

/-- Finds the last dash, extracts what is behind it, and removes both. -/
def takeField (baseName : Text) : Text × Text :=
  let searchIndex := lastIndexOf '-' baseName
  let field := right (baseName.length - (searchIndex + 1)) baseName
  (remove searchIndex (field.length + 1) baseName, field)

/-- Application name, hardware id, signal number and process id. -/
def parseCrashInfoFromFilename (filePath : Text) : List Text :=
  let (baseName, pid) := takeField (baseName filePath)
  let (baseName, signum) := takeField baseName
  let (baseName, hwid) := takeField baseName
  [baseName, hwid, signum, pid]

/-- What the names of reports without a crash contain. -/
def crashlessPrefixes : List Text :=
  ["Quickie", "Endurance", "PowerExcess", "OneshotFailure", "HWreboot", "HWSMPL", "OverheatShutdown",
    "JournalSpy"].map String.toList

def reportIncludesCrash (fileName : Text) : Bool := !crashlessPrefixes.any (· <:+: fileName)

/-! ### `CReporterHandledRichCore` -/

/-- Times are in milliseconds. -/
structure HandledRichCore where
  binaryName : Text
  signalNumber : Int
  count : Int
  lastCountReset : Int
deriving DecidableEq

namespace HandledRichCore

def new (filePath : Text) (now : Int) : HandledRichCore :=
  let rCoreInfo := parseCrashInfoFromFilename filePath
  { binaryName := rCoreInfo.getD 0 [], signalNumber := toInt (rCoreInfo.getD 2 []), count := 0,
    lastCountReset := now }

/-- `operator==`. -/
def same (handled other : HandledRichCore) : Bool :=
  handled.binaryName = other.binaryName && handled.signalNumber = other.signalNumber

def day : Int := 24 * 60 * 60 * 1000

/-- The value of an `int`, which wraps. -/
def wrap (n : Int) : Int := n.bmod 4294967296

/-- One more report like this one. -/
def again (handled : HandledRichCore) (now : Int) : HandledRichCore :=
  let handled :=
    if handled.lastCountReset + day < now then {handled with count := 0, lastCountReset := now}
    else handled
  {handled with count := wrap (handled.count + 1)}

end HandledRichCore

/-- The loop of `checkForDuplicates`: whether the maximum is exceeded, and the list
with the count of the first report like `rCore`, when there is one. -/
def findDuplicate (autoDeleteMaxSimilarCores now : Int) (rCore : HandledRichCore) :
    List HandledRichCore → Option (Bool × List HandledRichCore)
  | [] => none
  | handled :: rest =>
    if handled.same rCore then
      some ((handled.again now).count > autoDeleteMaxSimilarCores, handled.again now :: rest)
    else (findDuplicate autoDeleteMaxSimilarCores now rCore rest).map fun r => (r.1, handled :: r.2)

def checkForDuplicates (autoDeleteMaxSimilarCores now : Int) (path : Text)
    (handledRichCores : List HandledRichCore) : Bool × List HandledRichCore :=
  if !reportIncludesCrash path then (false, handledRichCores)
  else
    let rCore := HandledRichCore.new path now
    match findDuplicate autoDeleteMaxSimilarCores now rCore handledRichCores with
    | some r => r
    | none => (false, handledRichCores ++ [{rCore with count := rCore.count + 1}])

/-! ### The fields of a base name -/

/-- A text without a dash is a field, and loses its last character. -/
theorem takeField_of_not_mem {t : Text} (h : '-' ∉ t) : takeField t = (t.dropLast, t) := by
  have hwhole : right (t.length - (-1 + 1)) t = t := by simp [right]
  unfold takeField
  dsimp only
  rw [lastIndexOf_of_not_mem h, hwhole, remove_last t (by omega)]

theorem takeField_append (l : Text) {t : Text} (h : '-' ∉ t) : takeField (l ++ '-' :: t) = (l, t) := by
  have hfield := right_lastIndexOf l h
  unfold takeField
  dsimp only
  rw [hfield, lastIndexOf_append l h, remove_append (by simp) (by simp)]

theorem length_takeField_le (t : Text) : (takeField t).1.length ≤ t.length :=
  length_remove_le _ _ t

/-! ### The names that the decoder undoes -/

/-- What a report is named after. -/
structure Report where
  directory : Text
  application : Text
  hwid : Text
  signal : Text
  pid : Text
  named : application ≠ []
  application_slash : '/' ∉ application
  hwid_dash : '-' ∉ hwid
  hwid_dot : '.' ∉ hwid
  signal_digits : ∀ c ∈ signal, c.isDigit = true
  pid_digits : ∀ c ∈ pid, c.isDigit = true

namespace Report
variable (r : Report)

def suffix (compressed : Bool) : Text := if compressed then ".rcore.lzo".toList else ".rcore".toList

def name : Text := r.application ++ '-' :: (r.hwid ++ '-' :: (r.signal ++ '-' :: r.pid))

def path (compressed : Bool) : Text := r.directory ++ '/' :: (r.name ++ suffix compressed)

def signalNumber : Nat := digitsValue r.signal

/-- The signal is a positive `int`. -/
def SignalFits : Prop := 0 < r.signalNumber ∧ r.signalNumber ≤ 2147483647

theorem not_mem_digits {digits : Text} {c : Char} (h : ∀ c ∈ digits, c.isDigit = true)
    (hc : c.isDigit = false) : c ∉ digits := by
  intro hm
  rw [h c hm] at hc
  cases hc

theorem fileName_append (l : Text) {t : Text} (h : '/' ∉ t) : fileName (l ++ '/' :: t) = t :=
  right_lastIndexOf l h

theorem suffix_eq (compressed : Bool) :
    ∃ rest, suffix compressed = '.' :: rest ∧ '/' ∉ suffix compressed := by
  cases compressed
  · exact ⟨"rcore".toList, by decide, by decide⟩
  · exact ⟨"rcore.lzo".toList, by decide, by decide⟩

theorem takeWhile_dot {t : Text} (h : '.' ∉ t) (compressed : Bool) :
    (t ++ suffix compressed).takeWhile (· ≠ '.') = t := by
  obtain ⟨rest, hs, -⟩ := suffix_eq compressed
  have hne : ∀ c ∈ t, decide (c ≠ '.') = true := by
    intro c hc
    simpa using fun he : c = '.' => h (he ▸ hc)
  rw [hs, List.takeWhile_append_of_pos hne]
  simp

theorem parse_of_base {filePath front : Text}
    (hbase : baseName filePath = front ++ '-' :: (r.signal ++ '-' :: r.pid)) :
    parseCrashInfoFromFilename filePath =
      [(takeField front).1, (takeField front).2, r.signal, r.pid] := by
  have hpid := takeField_append (front ++ '-' :: r.signal) (not_mem_digits r.pid_digits (c := '-') rfl)
  have hsignal := takeField_append front (not_mem_digits r.signal_digits (c := '-') rfl)
  rw [List.append_assoc, List.cons_append] at hpid
  simp only [parseCrashInfoFromFilename, hbase, hpid, hsignal]

/-- What the file is called, when the directory is what it should be. -/
theorem fileName_path (hh : '/' ∉ r.hwid) (compressed : Bool) :
    fileName (r.path compressed) = r.name ++ suffix compressed := by
  obtain ⟨-, -, hsuffix⟩ := suffix_eq compressed
  refine fileName_append r.directory fun hm => ?_
  simp only [name, List.mem_append, List.mem_cons] at hm
  rcases hm with (hm | hm | hm | hm | hm | hm | hm) | hm
  · exact r.application_slash hm
  · exact absurd hm (by decide)
  · exact hh hm
  · exact absurd hm (by decide)
  · exact not_mem_digits r.signal_digits rfl hm
  · exact absurd hm (by decide)
  · exact not_mem_digits r.pid_digits rfl hm
  · exact hsuffix hm

theorem not_mem_tail {hwid : Text} (hh : '.' ∉ hwid) : '.' ∉ hwid ++ '-' :: (r.signal ++ '-' :: r.pid) := by
  intro hm
  simp only [List.mem_append, List.mem_cons] at hm
  rcases hm with hm | hm | hm | hm | hm
  · exact hh hm
  · exact absurd hm (by decide)
  · exact not_mem_digits r.signal_digits rfl hm
  · exact absurd hm (by decide)
  · exact not_mem_digits r.pid_digits rfl hm

/-- Without a dot in the name of the application, the fields come back. -/
theorem parse_path (ha : '.' ∉ r.application) (hh : '/' ∉ r.hwid) (compressed : Bool) :
    parseCrashInfoFromFilename (r.path compressed) = [r.application, r.hwid, r.signal, r.pid] := by
  have hdot : '.' ∉ r.name := by
    simp only [name, List.mem_append, List.mem_cons, not_or]
    exact ⟨ha, by decide, by simpa using r.not_mem_tail r.hwid_dot⟩
  have hbase : baseName (r.path compressed) =
      (r.application ++ '-' :: r.hwid) ++ '-' :: (r.signal ++ '-' :: r.pid) := by
    rw [baseName, r.fileName_path hh, takeWhile_dot hdot]
    simp [name]
  rw [r.parse_of_base hbase, takeField_append r.application r.hwid_dash]

/-- With a dot, what comes back is shorter than the name of the application. -/
theorem parse_path_dotted (ha : '.' ∈ r.application) (hh : '/' ∉ r.hwid) (compressed : Bool) :
    parseCrashInfoFromFilename (r.path compressed) ≠ [r.application, r.hwid, r.signal, r.pid] := by
  obtain ⟨front, back, heq, hfront⟩ := List.eq_append_cons_of_mem ha
  have hne : ∀ c ∈ front, decide (c ≠ '.') = true := by
    intro c hc
    simpa using fun he : c = '.' => hfront (he ▸ hc)
  have hbase : baseName (r.path compressed) = front := by
    rw [baseName, r.fileName_path hh, name, heq]
    simp only [List.append_assoc, List.cons_append]
    rw [List.takeWhile_append_of_pos hne]
    simp
  have hlen : front.length < r.application.length := by
    rw [heq, List.length_append, List.length_cons]
    omega
  intro h
  have h0 := congrArg (fun l => (l.getD 0 []).length) h
  simp only [parseCrashInfoFromFilename, hbase, List.getD_cons_zero] at h0
  have h1 := length_takeField_le front
  have h2 := length_takeField_le (takeField front).1
  have h3 := length_takeField_le (takeField (takeField front).1).1
  omega

/-- With a slash in the hardware id, what comes back for it has none. -/
theorem parse_path_slashed (hh : '/' ∈ r.hwid) (compressed : Bool) :
    parseCrashInfoFromFilename (r.path compressed) ≠ [r.application, r.hwid, r.signal, r.pid] := by
  obtain ⟨front, back, heq, hback⟩ := exists_last_split hh
  obtain ⟨-, -, hsuffix⟩ := suffix_eq compressed
  have hslash : '/' ∉ back ++ '-' :: (r.signal ++ '-' :: r.pid) ++ suffix compressed := by
    intro hm
    simp only [List.mem_append, List.mem_cons] at hm
    rcases hm with (hm | hm | hm | hm | hm) | hm
    · exact hback hm
    · exact absurd hm (by decide)
    · exact not_mem_digits r.signal_digits rfl hm
    · exact absurd hm (by decide)
    · exact not_mem_digits r.pid_digits rfl hm
    · exact hsuffix hm
  have hpath : r.path compressed = (r.directory ++ '/' :: (r.application ++ '-' :: front)) ++
      '/' :: (back ++ '-' :: (r.signal ++ '-' :: r.pid) ++ suffix compressed) := by
    simp [path, name, heq]
  have hdot : '.' ∉ back := fun hm => r.hwid_dot (heq ▸ List.mem_append_right _ (List.mem_cons_of_mem _ hm))
  have hdash : '-' ∉ back := fun hm => r.hwid_dash (heq ▸ List.mem_append_right _ (List.mem_cons_of_mem _ hm))
  have hbase : baseName (r.path compressed) = back ++ '-' :: (r.signal ++ '-' :: r.pid) := by
    rw [baseName, hpath, fileName_append _ hslash, takeWhile_dot (r.not_mem_tail hdot)]
  rw [r.parse_of_base hbase, takeField_of_not_mem hdash]
  intro h
  have hwid : back = r.hwid := by simpa using congrArg (fun l => l.getD 1 []) h
  exact hback (hwid ▸ hh)

end Report

/-! ### Reports that are told apart -/

/-- The decoder gives back what the report was named after. -/
def Decoded (r : Report) : Prop := ∀ compressed,
  parseCrashInfoFromFilename (r.path compressed) = [r.application, r.hwid, r.signal, r.pid]

theorem decoded_iff (r : Report) : Decoded r ↔ '.' ∉ r.application ∧ '/' ∉ r.hwid := by
  constructor
  · intro h
    by_cases hh : '/' ∈ r.hwid
    · exact absurd (h true) (r.parse_path_slashed hh true)
    · exact ⟨fun ha => r.parse_path_dotted ha hh true (h true), hh⟩
  · rintro ⟨ha, hh⟩ compressed
    exact r.parse_path ha hh compressed

/-- The second report never counts as a duplicate of the first, nor is deleted
because of it. -/
def ToldApart (r r' : Report) : Prop := ∀ compressed compressed' now seen count reset,
  let handled : HandledRichCore :=
    {HandledRichCore.new (r.path compressed) seen with count := count, lastCountReset := reset}
  handled.same (HandledRichCore.new (r'.path compressed') now) = false ∧
    ∀ autoDeleteMaxSimilarCores before after,
      (checkForDuplicates autoDeleteMaxSimilarCores now (r'.path compressed')
        (before ++ handled :: after)).1 =
      (checkForDuplicates autoDeleteMaxSimilarCores now (r'.path compressed') (before ++ after)).1

theorem findDuplicate_append {handled rCore : HandledRichCore} (h : handled.same rCore = false)
    (maximum now : Int) (before after : List HandledRichCore) :
    (findDuplicate maximum now rCore (before ++ handled :: after)).map Prod.fst =
      (findDuplicate maximum now rCore (before ++ after)).map Prod.fst := by
  have hmap (o : Option (Bool × List HandledRichCore)) (first : HandledRichCore) :
      (o.map fun r => (r.1, first :: r.2)).map Prod.fst = o.map Prod.fst := by
    rw [Option.map_map]
    rfl
  induction before with
  | nil => simp only [List.nil_append, findDuplicate, h, Bool.false_eq_true, if_false, hmap]
  | cons first before ih =>
    simp only [List.cons_append, findDuplicate]
    split
    · rfl
    · rw [hmap, hmap, ih]

theorem checkForDuplicates_fst (maximum now : Int) (path : Text) (handled : List HandledRichCore) :
    (checkForDuplicates maximum now path handled).1 = (reportIncludesCrash path &&
      ((findDuplicate maximum now (HandledRichCore.new path now) handled).map Prod.fst).getD false) := by
  unfold checkForDuplicates
  cases reportIncludesCrash path with
  | false => rfl
  | true => cases hf : findDuplicate maximum now (HandledRichCore.new path now) handled <;> simp [hf]

theorem new_of_decoded {r : Report} (h : Decoded r) (compressed : Bool) (now : Int) :
    HandledRichCore.new (r.path compressed) now = ⟨r.application, toInt r.signal, 0, now⟩ := by
  simp [HandledRichCore.new, h compressed]

theorem toldApart_iff {r r' : Report} (h : Decoded r) (h' : Decoded r') :
    ToldApart r r' ↔ r.application = r'.application → toInt r.signal ≠ toInt r'.signal := by
  constructor
  · intro ht ha hs
    have hsame := (ht true true 0 0 0 0).1
    simp [HandledRichCore.same, new_of_decoded h, new_of_decoded h', ha, hs] at hsame
  · intro hne compressed compressed' now seen count reset
    have hsame : ({HandledRichCore.new (r.path compressed) seen with
        count := count, lastCountReset := reset}).same
          (HandledRichCore.new (r'.path compressed') now) = false := by
      simpa [HandledRichCore.same, new_of_decoded h, new_of_decoded h'] using hne
    refine ⟨hsame, fun maximum before after => ?_⟩
    rw [checkForDuplicates_fst, checkForDuplicates_fst, findDuplicate_append hsame]

/-- Two signals are the same `int` when neither fits, or they are the same. -/
theorem toInt_signal_ne_iff (r r' : Report) : toInt r.signal ≠ toInt r'.signal ↔
    r.signalNumber ≠ r'.signalNumber ∧ (r.SignalFits ∨ r'.SignalFits) := by
  simp only [toInt_of_digits r.signal_digits, toInt_of_digits r'.signal_digits, Report.SignalFits,
    Report.signalNumber]
  split <;> split <;> omega

/-- Reports come back as they were named, and are told apart, when no application has
a dot in its name, no hardware id a slash, and of two signals of one application one
is a positive `int`. -/
theorem reports_told_apart_iff (r r' : Report) :
    (Decoded r ∧ Decoded r' ∧
      (r.application ≠ r'.application ∨ r.signalNumber ≠ r'.signalNumber →
        ToldApart r r' ∧ ToldApart r' r)) ↔
    ('.' ∉ r.application ∧ '/' ∉ r.hwid) ∧ ('.' ∉ r'.application ∧ '/' ∉ r'.hwid) ∧
      (r.application = r'.application → r.signalNumber ≠ r'.signalNumber →
        r.SignalFits ∨ r'.SignalFits) := by
  rw [decoded_iff, decoded_iff]
  refine and_congr_right fun hr => and_congr_right fun hr' => ?_
  have h := (decoded_iff r).mpr hr
  have h' := (decoded_iff r').mpr hr'
  rw [toldApart_iff h h', toldApart_iff h' h, ne_comm (a := toInt r'.signal), toInt_signal_ne_iff]
  constructor
  · intro ht ha hs
    exact ((ht (.inr hs)).1 ha).2
  · intro hfits hne
    refine ⟨fun ha => ?_, fun ha => ?_⟩
    · have hs := hne.resolve_left (not_not_intro ha)
      exact ⟨hs, hfits ha hs⟩
    · have hs := hne.resolve_left (not_not_intro ha.symm)
      exact ⟨hs, hfits ha.symm hs⟩

/-! ### What the code does with a dot in a name -/

/-- The report of an application with a dot in its name. -/
def dotted (application : String) (h : application.toList ≠ [] ∧ '/' ∉ application.toList) : Report where
  directory := "/media/mmc1/core-dumps".toList
  application := application.toList
  hwid := "1234".toList
  signal := "11".toList
  pid := "4321".toList
  named := h.1
  application_slash := h.2
  hwid_dash := by decide
  hwid_dot := by decide
  signal_digits := List.all_eq_true.mp (show "11".toList.all Char.isDigit = true by decide)
  pid_digits := List.all_eq_true.mp (show "4321".toList.all Char.isDigit = true by decide)

def launch : Report := dotted "test.launch" (by decide)

def daemon : Report := dotted "test.daemon" (by decide)

/-- The name, the hardware id and the signal come back as pieces of one word, and a
crash of another application counts as a duplicate. -/
theorem dotted_names_confused :
    parseCrashInfoFromFilename (launch.path true) = ["t", "te", "tes", "test"].map String.toList ∧
    launch.application ≠ daemon.application ∧ ¬ ToldApart launch daemon := by
  refine ⟨by decide +kernel, by decide +kernel, fun h => ?_⟩
  exact absurd (h true true 0 0 1 0).1 (by decide +kernel)

end CrashReporter.Monitor
