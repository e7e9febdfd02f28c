import CrashReporter.Monitor.FileName
import Mathlib.Data.List.Perm.Basic

/-! `CReporterCoreDir`: which reports of a core directory are known.

`checkDirectoryForCores` goes through the directory until it meets a report that it
does not know yet. The order in which a directory lists its files is not the
program's: it comes as `listing`, a permutation of the files that the name filters
let through. -/
namespace CrashReporter.Monitor
open Text

/-- `endsWith`, whatever the case. -/
def endsWith (suffix t : Text) : Bool := lowerCase suffix <:+ lowerCase t

def coreSuffixRcore : Text := "rcore".toList
def coreSuffixRcoreLzo : Text := "rcore.lzo".toList

def validateCore (path : Text) : Bool := endsWith coreSuffixRcoreLzo path || endsWith coreSuffixRcore path

/-- `QDir::Files` leaves hidden files out. -/
def hidden (name : Text) : Bool := name.head? = some '.'

/-- The filters *.rcore and *.rcore.lzo. -/
def matchesFilters (name : Text) : Bool :=
  endsWith ".rcore".toList name || endsWith ".rcore.lzo".toList name

/-- What iterating over a directory shows. -/
def listed (name : Text) : Bool := !hidden name && matchesFilters name

def filePathIn (directory name : Text) : Text := directory ++ '/' :: name

/-- The directory of the file system and what is known of it. -/
structure CoreDir where
  directory : Text
  /-- The names of the files that are there. -/
  files : List Text
  coresAtDirectory : List Text
deriving DecidableEq

theorem filePathIn_inj {directory name name' : Text} :
    filePathIn directory name = filePathIn directory name' ↔ name = name' := by
  simp [filePathIn]

namespace CoreDir

def filePath (d : CoreDir) (name : Text) : Text := filePathIn d.directory name

/-- The order in which the directory is gone through. -/
def lists (d : CoreDir) (listing : List Text) : Bool := listing.isPerm (d.files.filter listed)

/-- `checkDirectoryForCores`, up to the refresh when there is nothing new. -/
def checkDirectoryForCores (d : CoreDir) (listing : List Text) : Option (Text × CoreDir) :=
  (listing.find? fun name => !d.coresAtDirectory.contains name && validateCore name).map fun name =>
    (d.filePath name, {d with coresAtDirectory := d.coresAtDirectory ++ [name]})

def updateCoreList (d : CoreDir) : CoreDir := {d with coresAtDirectory := d.files.filter listed}

def collectAllCoreFilesAtLocation (d : CoreDir) : List Text :=
  ((d.files.filter listed).map d.filePath).filter validateCore

def create (d : CoreDir) (name : Text) : CoreDir := {d with files := d.files ++ [name]}

/-- Removes the file with this path, if it is there. -/
def removeFile (d : CoreDir) (path : Text) : CoreDir :=
  {d with files := d.files.filter fun name => d.filePath name ≠ path}

variable {d : CoreDir}

theorem mem_of_lists {listing : List Text} (h : d.lists listing = true) (name : Text) :
    name ∈ listing ↔ name ∈ d.files ∧ listed name = true := by
  rw [(List.isPerm_iff.mp h).mem_iff, List.mem_filter]

/-- Every suffix of the filters ends in one of the suffixes of a report. -/
theorem validateCore_of_listed {name : Text} (h : listed name = true) : validateCore name = true := by
  have hsuffix (suffix : Text) {longer : Text} (hs : suffix <:+ longer) (he : endsWith longer name = true) :
      endsWith suffix name = true := by
    simp only [endsWith, decide_eq_true_eq] at he ⊢
    exact (hs.map Char.toLower).trans he
  simp only [listed, matchesFilters, Bool.and_eq_true, Bool.or_eq_true] at h
  rcases h.2 with he | he
  · simp [validateCore, hsuffix coreSuffixRcore (by decide) he]
  · simp [validateCore, hsuffix coreSuffixRcoreLzo (by decide) he]

theorem validateCore_filePathIn (directory : Text) {name : Text} (h : validateCore name = true) :
    validateCore (filePathIn directory name) = true := by
  have hsuffix (suffix : Text) (hs : endsWith suffix name = true) :
      endsWith suffix (filePathIn directory name) = true := by
    simp only [endsWith, decide_eq_true_eq] at hs ⊢
    apply hs.trans
    apply List.IsSuffix.map
    exact ⟨directory ++ ['/'], by simp [filePathIn]⟩
  simp only [validateCore, Bool.or_eq_true] at h ⊢
  exact h.imp (hsuffix _) (hsuffix _)

/-- A scan finds the listed files. -/
theorem collect_eq : d.collectAllCoreFilesAtLocation = (d.files.filter listed).map d.filePath := by
  apply List.filter_eq_self.mpr
  intro path hpath
  obtain ⟨name, hname, rfl⟩ := List.mem_map.mp hpath
  exact validateCore_filePathIn d.directory (validateCore_of_listed (List.mem_filter.mp hname).2)

/-- A check finds a listed file that is not known, and knows it from then on. -/
theorem checkDirectoryForCores_some {listing : List Text} (hl : d.lists listing = true) {path : Text}
    {d' : CoreDir} (h : d.checkDirectoryForCores listing = some (path, d')) :
    ∃ name, path = d.filePath name ∧ name ∈ d.files ∧ listed name = true ∧
      name ∉ d.coresAtDirectory ∧ d' = {d with coresAtDirectory := d.coresAtDirectory ++ [name]} := by
  obtain ⟨name, hf, heq⟩ := Option.map_eq_some_iff.mp h
  cases heq
  have hmem := (mem_of_lists hl name).mp (List.mem_of_find?_eq_some hf)
  have hp := List.find?_some hf
  simp only [Bool.and_eq_true, Bool.not_eq_true', List.contains_eq_mem, decide_eq_false_iff_not] at hp
  exact ⟨name, rfl, hmem.1, hmem.2, hp.1, rfl⟩

/-- A check that finds nothing knows all that is listed. -/
theorem checkDirectoryForCores_none {listing : List Text} (hl : d.lists listing = true)
    (h : d.checkDirectoryForCores listing = none) {name : Text} (hn : name ∈ d.files)
    (hlisted : listed name = true) : name ∈ d.coresAtDirectory := by
  have hnone := List.find?_eq_none.mp (Option.map_eq_none_iff.mp h) name
    ((mem_of_lists hl name).mpr ⟨hn, hlisted⟩)
  simpa [validateCore_of_listed hlisted] using hnone

end CoreDir

end CrashReporter.Monitor
