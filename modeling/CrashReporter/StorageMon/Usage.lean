import CrashReporter.Monitor.Locations
import CrashReporter.Settings.SavedState
import Mathlib.Algebra.BigOperators.Ring.Finset
import Mathlib.Algebra.Order.BigOperators.Group.Finset

/-! The storage usage monitor.

It adds up the sizes of all reports and tells the user when they have reached a limit.
The limit is an `int` and is shifted as one, while the sum has 64 bits; and each core
directory of the registry is gone through, so that a report counts twice when two of them
are the same. -/
namespace CrashReporter.StorageMon
open Text Monitor

/-! ### The reports on disk -/

/-- Directories by the paths that lead to them, and the sizes of the files in them. -/
structure Disk where
  inode : Text → Nat
  names : Nat → List Text
  size : Nat → Text → Nat
  nodup : ∀ i, (names i).Nodup
  named : ∀ i, ∀ name ∈ names i, '/' ∉ name
  size_lt : ∀ i name, size i name < 2 ^ 63

/-- `QFileInfo::path`, of a path with a directory. -/
def parent (filePath : Text) : Text := filePath.take (lastIndexOf '/' filePath).toNat

namespace Disk
variable (disk : Disk)

def coreDir (directory : Text) : CoreDir := ⟨directory, disk.names (disk.inode directory), []⟩

/-- `QFileInfo::size`. -/
def fileSize (filePath : Text) : Int64 :=
  .ofNat (disk.size (disk.inode (parent filePath)) (fileName filePath))

/-- The reports in a directory. -/
def reports (i : Nat) : List Text := (disk.names i).filter listed

def bytes (i : Nat) : Nat := ∑ name ∈ (disk.reports i).toFinset, disk.size i name

/-- The sizes of all reports in the core directories, each report once. -/
def stored (directories : List Text) : Nat := ∑ i ∈ (directories.map disk.inode).toFinset, disk.bytes i

/-- The same for each core directory, whether it is another one or not. -/
def scanned (directories : List Text) : Nat := (directories.map fun d => disk.bytes (disk.inode d)).sum

end Disk

/-! ### `Application` -/

/-- `toInt` of a string, when `ok`. -/
def toInt? (t : Text) : Option Int32 :=
  (toLongLong t).bind fun n => if (Int32.ofInt n).toInt = n then some (.ofInt n) else none

def defaultSizeLimitMb : Int32 := 100

def parseArguments (positionalArguments : List Text) : Option Int32 :=
  match positionalArguments with
  | [] => some defaultSizeLimitMb
  | first :: _ => (toInt? first).filter fun sizeLimitMb => 0 < sizeLimitMb

structure Notification where
  replacesId : UInt32
  /-- The number in the text. -/
  mebibytes : Int32

def collectAllCoreFiles (directories : List Text) (disk : Disk) : List Text :=
  directories.flatMap fun d => (disk.coreDir d).collectAllCoreFilesAtLocation

def totalSize (directories : List Text) (disk : Disk) : Int64 :=
  (collectAllCoreFiles directories disk).foldl (fun totalSize coreFile => totalSize + disk.fileSize coreFile) 0

/-- `publish` is the id that a notification gets when it is published. -/
def checkStorageUsage (sizeLimitMb : Int32) (directories : List Text) (disk : Disk)
    (publish : Notification → UInt32) (state : CReporterSavedState) : Option Notification × CReporterSavedState :=
  let totalSize := totalSize directories disk
  if totalSize < (sizeLimitMb <<< 20).toInt64 then (none, state)
  else
    let notification : Notification := ⟨state.storageUsageNotificationId, (totalSize >>> 20).toInt32⟩
    (some notification, (state.setStorageUsageNotificationId (publish notification)).1)

/-! ### The sum -/

/-- A sum of 64-bit integers is off by a multiple of 2^64. -/
theorem toInt_foldl_add {α : Type} (f : α → Int64) (l : List α) (n : Int64) :
    (l.foldl (fun total a => total + f a) n).toInt = (n.toInt + (l.map fun a => (f a).toInt).sum).bmod (2 ^ 64) := by
  induction l generalizing n with
  | nil =>
    rw [List.map_nil, List.sum_nil, Int.add_zero]
    exact (Int64.toInt_bmod n).symm
  | cons a rest ih =>
    rw [List.foldl_cons, ih, Int64.toInt_add, Int.bmod_add_bmod, List.map_cons, List.sum_cons, Int.add_assoc]

theorem parent_filePathIn (directory : Text) {name : Text} (h : '/' ∉ name) :
    parent (filePathIn directory name) = directory := by
  rw [parent, filePathIn, lastIndexOf_append directory h]
  exact List.take_left

namespace Disk
variable (disk : Disk)

theorem mem_reports {i : Nat} {name : Text} : name ∈ disk.reports i ↔ name ∈ disk.names i ∧ listed name = true :=
  List.mem_filter

theorem fileSize_filePathIn (directory : Text) {name : Text} (h : '/' ∉ name) :
    (disk.fileSize (filePathIn directory name)).toInt = disk.size (disk.inode directory) name := by
  have hname : fileName (filePathIn directory name) = name := Report.fileName_append directory h
  rw [fileSize, parent_filePathIn directory h, hname]
  exact Int64.toInt_ofNat_of_lt (disk.size_lt _ _)

/-- The scan of a core directory finds its reports. -/
theorem collect_coreDir (directory : Text) : (disk.coreDir directory).collectAllCoreFilesAtLocation =
    (disk.reports (disk.inode directory)).map (filePathIn directory) := CoreDir.collect_eq

theorem sum_coreDir (directory : Text) :
    ((disk.coreDir directory).collectAllCoreFilesAtLocation.map fun path => (disk.fileSize path).toInt).sum =
      disk.bytes (disk.inode directory) := by
  have hsize : ∀ name ∈ disk.reports (disk.inode directory),
      (disk.fileSize (filePathIn directory name)).toInt = (disk.size (disk.inode directory) name : Int) := by
    intro name hname
    have hmem := (disk.mem_reports.mp hname).1
    exact disk.fileSize_filePathIn directory (disk.named _ name hmem)
  have hnodup : (disk.reports (disk.inode directory)).Nodup := (disk.nodup _).filter _
  rw [disk.collect_coreDir, List.map_map, bytes, List.sum_toFinset _ hnodup, Nat.cast_list_sum, List.map_map]
  exact congrArg List.sum (List.map_congr_left hsize)

/-- A report is stored once, and scanned as often as the registry has its directory. -/
theorem scanned_eq (directories : List Text) : disk.scanned directories =
    ∑ i ∈ (directories.map disk.inode).toFinset, (directories.map disk.inode).count i * disk.bytes i := by
  have hcount := Finset.sum_list_map_count (directories.map disk.inode) disk.bytes
  simp only [List.map_map, nsmul_eq_mul, Nat.cast_id] at hcount
  exact hcount

theorem stored_le_scanned (directories : List Text) : disk.stored directories ≤ disk.scanned directories := by
  rw [scanned_eq]
  apply Finset.sum_le_sum
  intro i hi
  have hpos : 0 < (directories.map disk.inode).count i := List.count_pos_iff.mpr (List.mem_toFinset.mp hi)
  exact Nat.le_mul_of_pos_left _ hpos

theorem scanned_le (directories : List Text) :
    disk.scanned directories ≤ directories.length * disk.stored directories := by
  rw [scanned_eq, stored, Finset.mul_sum]
  apply Finset.sum_le_sum
  intro i _
  apply Nat.mul_le_mul_right
  calc (directories.map disk.inode).count i ≤ (directories.map disk.inode).length := List.count_le_length
    _ = directories.length := List.length_map ..

theorem scanned_of_nodup {directories : List Text} (h : (directories.map disk.inode).Nodup) :
    disk.scanned directories = disk.stored directories := by
  rw [stored, List.sum_toFinset _ h, List.map_map]
  rfl

end Disk

theorem toInt_totalSize (directories : List Text) (disk : Disk) :
    (totalSize directories disk).toInt = (disk.scanned directories : Int).bmod (2 ^ 64) := by
  have hsum : ((collectAllCoreFiles directories disk).map fun path => (disk.fileSize path).toInt).sum =
      disk.scanned directories := by
    induction directories with
    | nil => rfl
    | cons directory rest ih =>
      simp only [collectAllCoreFiles, Disk.scanned] at ih ⊢
      rw [List.flatMap_cons, List.map_append, List.sum_append, ih, disk.sum_coreDir, List.map_cons, List.sum_cons,
        Nat.cast_add]
  rw [totalSize, toInt_foldl_add, hsum, Int64.toInt_zero, Int.zero_add]

/-! ### The limit -/

/-- The limit in bytes has 32 bits: those of the limit above the twelfth are lost. -/
theorem toInt_shiftLeft (n : Int32) : (n <<< 20).toInt = n.toInt.bmod 4096 * 2 ^ 20 := by
  have hshift : (n <<< 20).toInt = (n.toBitVec <<< 20).toInt := rfl
  have hn : n.toInt = (n.toBitVec.toNat : Int).bmod (2 ^ 32) := BitVec.toInt_eq_toNat_bmod _
  rw [hshift, BitVec.toInt_shiftLeft, hn, Int.bmod_def, Int.bmod_def, Int.bmod_def, Nat.shiftLeft_eq]
  push_cast
  omega

theorem parseArguments_pos {positionalArguments : List Text} {sizeLimitMb : Int32}
    (h : parseArguments positionalArguments = some sizeLimitMb) : 0 < sizeLimitMb.toInt := by
  cases positionalArguments with
  | nil =>
    cases h
    decide
  | cons first rest =>
    have hpos := (Option.filter_eq_some_iff.mp h).2
    exact Int32.lt_iff_toInt_lt.mp (of_decide_eq_true hpos)

theorem length_createCoreLocationRegistry (mmc internalMmc : Text) :
    (createCoreLocationRegistry [mmc, internalMmc]).length ≤ 2 := by
  rw [createCoreLocationRegistry, List.length_map, mountpoints]
  split
  · decide
  · exact List.length_filter_le _ [mmc, internalMmc]

/-- What is published depends on two numbers. -/
theorem alarm_iff (sizeLimitMb : Int32) (directories : List Text) (disk : Disk)
    (publish : Notification → UInt32) (state : CReporterSavedState) :
    (checkStorageUsage sizeLimitMb directories disk publish state).1.isSome = true ↔
      sizeLimitMb.toInt.bmod 4096 * 2 ^ 20 ≤ (disk.scanned directories : Int).bmod (2 ^ 64) := by
  have hlt : totalSize directories disk < (sizeLimitMb <<< 20).toInt64 ↔
      (disk.scanned directories : Int).bmod (2 ^ 64) < sizeLimitMb.toInt.bmod 4096 * 2 ^ 20 := by
    rw [Int64.lt_iff_toInt_lt, Int32.toInt_toInt64, toInt_totalSize, toInt_shiftLeft]
  rw [← Int.not_lt, ← hlt]
  simp only [checkStorageUsage]
  split
  · rename_i h
    simp [h]
  · rename_i h
    simp [h]

/-- With a limit below two gibibytes and directories of their own, the alarm is right. -/
theorem alarm_below_two_gibibytes {sizeLimitMb : Int32} {directories : List Text} {disk : Disk}
    (hpos : 0 < sizeLimitMb.toInt) (hsmall : sizeLimitMb.toInt < 2048)
    (hdirectories : (directories.map disk.inode).Nodup) (hsum : disk.stored directories < 2 ^ 63)
    (publish : Notification → UInt32) (state : CReporterSavedState) :
    (checkStorageUsage sizeLimitMb directories disk publish state).1.isSome = true ↔
      sizeLimitMb.toInt * 2 ^ 20 ≤ disk.stored directories := by
  have hlimit : sizeLimitMb.toInt.bmod 4096 = sizeLimitMb.toInt := by
    apply Int.bmod_eq_of_le <;> omega
  have hstored : (disk.stored directories : Int).bmod (2 ^ 64) = disk.stored directories := by
    apply Int.bmod_eq_of_le <;> omega
  rw [alarm_iff, disk.scanned_of_nodup hdirectories, hlimit, hstored]

/-- The alarm is right when what is scanned is below the limit of 32 bits whenever the
reports are below the limit, and a sum that 64 bits do not hold comes out as one that
reaches it; and in no other case. -/
theorem alarm_at_limit_iff {positionalArguments : List Text} {sizeLimitMb : Int32}
    (h : parseArguments positionalArguments = some sizeLimitMb) (mmc internalMmc : Text) (disk : Disk)
    (publish : Notification → UInt32) (state : CReporterSavedState) :
    let directories := createCoreLocationRegistry [mmc, internalMmc]
    ((checkStorageUsage sizeLimitMb directories disk publish state).1.isSome = true ↔
      sizeLimitMb.toInt * 2 ^ 20 ≤ disk.stored directories) ↔
    (disk.stored directories < sizeLimitMb.toInt * 2 ^ 20 →
      disk.scanned directories < sizeLimitMb.toInt.bmod 4096 * 2 ^ 20) ∧
    (2 ^ 63 ≤ disk.scanned directories →
      sizeLimitMb.toInt.bmod 4096 * 2 ^ 20 ≤ (disk.scanned directories : Int).bmod (2 ^ 64)) := by
  intro directories
  have hpos := parseArguments_pos h
  have hmax := sizeLimitMb.toInt_lt
  have hstored := disk.stored_le_scanned directories
  have hscanned : disk.scanned directories ≤ 2 * disk.stored directories :=
    (disk.scanned_le directories).trans (Nat.mul_le_mul_right _ (length_createCoreLocationRegistry mmc internalMmc))
  have hlimit : sizeLimitMb.toInt.bmod 4096 ≤ sizeLimitMb.toInt := by
    rw [Int.bmod_def]
    omega
  rw [alarm_iff]
  by_cases hbig : 2 ^ 63 ≤ disk.scanned directories
  · -- The reports have more bytes than any limit.
    have hreached : sizeLimitMb.toInt * 2 ^ 20 ≤ disk.stored directories := by omega
    have hnot : ¬(disk.stored directories : Int) < sizeLimitMb.toInt * 2 ^ 20 := by omega
    constructor
    · intro halarm
      exact ⟨fun hbelow => absurd hbelow hnot, fun _ => halarm.mpr hreached⟩
    · intro hright
      exact iff_of_true (hright.2 hbig) hreached
  · have hsum : (disk.scanned directories : Int).bmod (2 ^ 64) = disk.scanned directories := by
      apply Int.bmod_eq_of_le <;> omega
    rw [hsum]
    omega

/-- A disk with one report. -/
def oneReport : Disk where
  inode directory := if directory = "/var/cache/core-dumps".toList then 1 else 0
  names i := if i = 1 then ["test-1234-11-4321.rcore.lzo".toList] else []
  size _ _ := 4096
  nodup i := by split <;> simp
  named i := by
    split
    · decide
    · simp
  size_lt _ _ := by decide

theorem oneReport_default : (checkStorageUsage 100 (createCoreLocationRegistry [[], []]) oneReport (fun _ => 1)
    ⟨⟨fun _ => .invalid⟩⟩).1.isSome = true ↔
      (100 : Int32).toInt * 2 ^ 20 ≤ oneReport.stored (createCoreLocationRegistry [[], []]) :=
  (alarm_at_limit_iff (show parseArguments [] = some 100 from rfl) [] [] oneReport (fun _ => 1)
    ⟨⟨fun _ => .invalid⟩⟩).mpr (by decide +kernel)

/-- Two gibibytes are negative as an `int`: one report exceeds them. -/
theorem alarm_below_limit : parseArguments ["2048".toList] = some 2048 ∧
    ¬((checkStorageUsage 2048 (createCoreLocationRegistry [[], []]) oneReport (fun _ => 1)
      ⟨⟨fun _ => .invalid⟩⟩).1.isSome = true ↔
        (2048 : Int32).toInt * 2 ^ 20 ≤ oneReport.stored (createCoreLocationRegistry [[], []])) := by
  decide +kernel

end CrashReporter.StorageMon
