import CrashReporter.Blocks
import CrashReporter.Bytes

/-! The snapshots in an endurance package.

The script writes them as a tar archive of its own making: the header that tar makes for
each file, the file, and zeros up to whole blocks. Of a file that fills its blocks
already, though, the zeros are a whole block more, and a blank block ends the archive. -/
namespace CrashReporter.Endurance
open Blocks
open Bytes (ascii)

/-- A file under its name, and the content. -/
abbrev File := Bytes × Bytes

/-- A directory as `ls` lists it. -/
inductive Entry where
  | file (file : File)
  | directory (entries : List Entry)

/-- What `tar cf - | head -c 512` writes, and tar reads. -/
abbrev Tar := Codec UInt8 Bytes 512 0

section Pack
variable (T : Tar)

/-- `_section_endurance_snapshot_pack_single`. The name it takes for that of a compressed
file is quoted, and has no slash in it. -/
def packSingle (file : File) : Bytes :=
  T.write file.1 file.2.length ++ file.2 ++ List.replicate (512 - file.2.length % 512) 0

mutual

def packEntry : Entry → Bytes
  | .file file => packSingle T file
  | .directory entries => packDir entries

/-- `_section_endurance_snapshot_pack_dir`. -/
def packDir : List Entry → Bytes
  | [] => []
  | entry :: rest => packEntry entry ++ packDir rest

end

end Pack

mutual

def Entry.files : Entry → List File
  | .file file => [file]
  | .directory entries => files entries

/-- The files of a directory, in order. -/
def files : List Entry → List File
  | [] => []
  | entry :: rest => entry.files ++ files rest

end

/-- The content fills its blocks. -/
def Full (file : File) : Prop := file.2.length % 512 = 0

instance : DecidablePred Full := fun file => decEq (file.2.length % 512) 0

section Unpack
variable {T : Tar}

mutual

theorem packEntry_eq : ∀ entry : Entry, packEntry T entry = entry.files.flatMap (packSingle T)
  | .file file => by simp [packEntry, Entry.files]
  | .directory entries => by simpa [packEntry, Entry.files] using packDir_eq entries

theorem packDir_eq : ∀ entries : List Entry, packDir T entries = (files entries).flatMap (packSingle T)
  | [] => rfl
  | entry :: rest => by rw [packDir, files, List.flatMap_append, packEntry_eq entry, packDir_eq rest]

end

/-- A file that fills its blocks is the last one that is read. -/
theorem unpack_full {file : File} (h : T.Fits file.1 file.2.length) (hf : Full file) (rest : Bytes) :
    unpack T (packSingle T file ++ rest) = some [file] := by
  have hpad : missing 512 file.2.length = 0 := by simp [missing, show file.2.length % 512 = 0 from hf]
  have hsplit : packSingle T file ++ rest = T.write file.1 file.2.length ++ (file.2 ++
      (List.replicate (missing 512 file.2.length) 0 ++ (List.replicate 512 0 ++ rest))) := by
    rw [hpad, packSingle, show file.2.length % 512 = 0 from hf]
    simp only [Nat.sub_zero, List.append_assoc, List.replicate_zero, List.nil_append]
  rw [hsplit, unpack_record T h, unpack_blank]
  rfl

theorem unpack_unfilled {file : File} (h : T.Fits file.1 file.2.length) (hf : ¬Full file) (rest : Bytes) :
    unpack T (packSingle T file ++ rest) = (unpack T rest).map (file :: ·) := by
  have hpad : missing 512 file.2.length = 512 - file.2.length % 512 := by
    have hpos : file.2.length % 512 ≠ 0 := hf
    unfold missing
    omega
  have hsplit : packSingle T file ++ rest = T.write file.1 file.2.length ++ (file.2 ++
      (List.replicate (missing 512 file.2.length) 0 ++ rest)) := by
    rw [hpad, packSingle]
    simp only [List.append_assoc]
  rw [hsplit, unpack_record T h]

/-- The files are read up to the first one that fills its blocks. -/
theorem unpack_pack (fs : List File) (h : ∀ file ∈ fs, T.Fits file.1 file.2.length) :
    unpack T (fs.flatMap (packSingle T)) =
      some (fs.takeWhile (¬Full ·) ++ (fs.dropWhile (¬Full ·)).head?.toList) := by
  induction fs with
  | nil => exact unpack_nil T
  | cons file rest ih =>
    have hfile := h file (List.mem_cons_self ..)
    rw [List.flatMap_cons]
    by_cases hf : Full file
    · rw [unpack_full hfile hf]
      simp [hf]
    · rw [unpack_unfilled hfile hf, ih fun f hm => h f (List.mem_cons_of_mem _ hm)]
      simp [hf]

end Unpack

theorem upToFirst_eq_self {P : File → Prop} [DecidablePred P] (fs : List File) :
    fs.takeWhile (¬P ·) ++ (fs.dropWhile (¬P ·)).head?.toList = fs ↔ ∀ file ∈ fs.dropLast, ¬P file := by
  induction fs with
  | nil => simp
  | cons file rest ih =>
    by_cases hf : P file
    · cases rest <;> simp [hf]
    · cases rest with
      | nil => simp [hf]
      | cons next rest => simpa [hf] using ih

/-- The archive is read back when no file but the last fills its blocks. -/
theorem archive_read_back (T : Tar) (entries : List Entry)
    (h : ∀ file ∈ files entries, T.Fits file.1 file.2.length) :
    unpack T (packDir T entries) = some (files entries) ↔ ∀ file ∈ (files entries).dropLast, ¬Full file := by
  rw [packDir_eq, unpack_pack _ h, Option.some.injEq, upToFirst_eq_self]

/-! ### The header of tar -/

/-- The last octal digits of `n`, as characters. -/
def octal : Nat → Nat → Bytes
  | 0, _ => []
  | digits + 1, n => octal digits (n / 8) ++ [UInt8.ofNat (48 + n % 8)]

def ofOctal (digits : Bytes) : Nat := digits.foldl (fun n digit => 8 * n + (digit.toNat - 48)) 0

@[simp] theorem length_octal (digits n : Nat) : (octal digits n).length = digits := by
  induction digits generalizing n with
  | zero => rfl
  | succ digits ih => simp [octal, ih]

theorem ofOctal_octal {digits n : Nat} (h : n < 8 ^ digits) : ofOctal (octal digits n) = n := by
  induction digits generalizing n with
  | zero => simpa [octal, ofOctal, eq_comm] using h
  | succ digits ih =>
    have hdiv : n / 8 < 8 ^ digits := Nat.div_lt_of_lt_mul (by rwa [Nat.mul_comm, ← Nat.pow_succ])
    have hlt : 48 + n % 8 < 2 ^ 8 := by omega
    have hdigit : (UInt8.ofNat (48 + n % 8)).toNat = 48 + n % 8 := UInt8.toNat_ofNat_of_lt' hlt
    have hrest := ih hdiv
    rw [ofOctal] at hrest ⊢
    rw [octal, List.foldl_append, hrest]
    simp only [List.foldl_cons, List.foldl_nil, hdigit]
    omega

/-- `text` filled up with zeros. -/
def field (length : Nat) (text : Bytes) : Bytes := text ++ List.replicate (length - text.length) 0

theorem length_field {length : Nat} {text : Bytes} (h : text.length ≤ length) :
    (field length text).length = length := by
  simp [field, h]

/-- Mode, user and group: a file of root. -/
def ownerFields : Bytes := field 8 (ascii "0000644") ++ field 8 (ascii "0000000") ++ field 8 (ascii "0000000")

/-- What comes behind the checksum: an ordinary file. -/
def typeFields : Bytes :=
  field 101 (ascii "0") ++ ascii "ustar  " ++ [0] ++ field 32 (ascii "root") ++ field 215 (ascii "root")

/-- The end of the size, the time of the last change, the checksum and what is behind it. -/
def afterSize (sum : Nat) : Bytes :=
  0 :: (field 12 (octal 11 0) ++ (octal 6 sum ++ [0, 32] ++ typeFields))

/-- The sum of all bytes, with blanks in place of the checksum. -/
def checksum (before : Bytes) : Nat := ((before ++ List.replicate 8 32 ++ typeFields).map UInt8.toNat).sum

def header (name : Bytes) (size : Nat) : Bytes :=
  let before := field 100 name ++ (ownerFields ++ (field 12 (octal 11 size) ++ field 12 (octal 11 0)))
  before ++ (octal 6 (checksum before) ++ [0, 32] ++ typeFields)

def readHeader (block : Bytes) : Option (Bytes × Nat) :=
  some ((block.take 100).takeWhile (· ≠ 0), ofOctal ((block.drop 124).take 11))

/-- Where the name and the size are. -/
theorem header_eq (name : Bytes) (size : Nat) : ∃ sum,
    header name size = field 100 name ++ (ownerFields ++ (octal 11 size ++ afterSize sum)) := by
  have hsize : field 12 (octal 11 size) = octal 11 size ++ [0] := by simp [field]
  refine ⟨checksum (field 100 name ++ (ownerFields ++ (field 12 (octal 11 size) ++ field 12 (octal 11 0)))), ?_⟩
  simp only [header, afterSize, hsize, List.append_assoc, List.cons_append, List.nil_append]

theorem length_typeFields : typeFields.length = 356 := by
  have htype : (field 101 (ascii "0")).length = 101 := length_field (by decide)
  have huser : (field 32 (ascii "root")).length = 32 := length_field (by decide)
  have hgroup : (field 215 (ascii "root")).length = 215 := length_field (by decide)
  have hmagic : (ascii "ustar  ").length = 7 := by decide
  rw [typeFields, List.length_append, List.length_append, List.length_append, List.length_append, htype, hmagic,
    huser, hgroup]
  rfl

theorem length_afterSize (sum : Nat) : (afterSize sum).length = 377 := by
  have htime : (field 12 (octal 11 0)).length = 12 := length_field (by simp)
  simp [afterSize, length_typeFields, htime]

theorem length_header {name : Bytes} (hn : name.length ≤ 100) (size : Nat) :
    (header name size).length = 512 := by
  obtain ⟨sum, heq⟩ := header_eq name size
  have howner : ownerFields.length = 24 := by decide
  rw [heq, List.length_append, List.length_append, List.length_append, length_field hn, howner, length_octal,
    length_afterSize]

theorem header_ne_zero (name : Bytes) (size : Nat) : header name size ≠ List.replicate 512 0 := by
  obtain ⟨sum, heq⟩ := header_eq name size
  intro hzero
  have hm : (48 : UInt8) ∈ header name size := by simp [heq, ownerFields, field, ascii]
  rw [hzero] at hm
  exact absurd (List.eq_of_mem_replicate hm) (by decide)

theorem readHeader_header {name : Bytes} {size : Nat} (hn : name.length ≤ 100) (h0 : 0 ∉ name)
    (hs : size < 8 ^ 11) : readHeader (header name size) = some (name, size) := by
  obtain ⟨sum, heq⟩ := header_eq name size
  have howner : (field 100 name ++ ownerFields).length = 124 := by
    rw [List.length_append, length_field hn]
    rfl
  have hname : ((header name size).take 100).takeWhile (· ≠ 0) = name := by
    have hpos (b : UInt8) (hb : b ∈ name) : decide (b ≠ 0) = true :=
      decide_eq_true fun (hb0 : b = 0) => h0 (hb0 ▸ hb)
    rw [heq, List.take_left' (length_field hn), field, List.takeWhile_append_of_pos hpos]
    cases 100 - name.length <;> simp [List.replicate_succ]
  have hsize : ofOctal (((header name size).drop 124).take 11) = size := by
    rw [heq, ← List.append_assoc, List.drop_left' howner, List.take_left' (length_octal 11 size),
      ofOctal_octal hs]
  rw [readHeader, hname, hsize]

/-- Names of up to 100 bytes, and sizes of up to eleven octal digits. -/
def ustar : Tar where
  write := header
  read := readHeader
  Fits name size := name.length ≤ 100 ∧ 0 ∉ name ∧ size < 8 ^ 11
  length_write _ size h := length_header h.1 size
  write_ne_blank name size _ := header_ne_zero name size
  read_write _ _ h := readHeader_header h.1 h.2.1 h.2.2

def uptime : File := (ascii "001/uptime", ascii "12.5")

def noModules : File := (ascii "001/modules", [])

theorem archive_read_back_two : (∀ file ∈ [uptime, noModules], ustar.Fits file.1 file.2.length) ∧
    unpack ustar (packDir ustar [.directory [.file uptime, .file noModules]]) = some [uptime, noModules] := by
  have hfits : ∀ file ∈ [uptime, noModules], ustar.Fits file.1 file.2.length := by
    simp only [ustar]
    decide
  exact ⟨hfits, (archive_read_back ustar [.directory [.file uptime, .file noModules]] hfits).mpr (by decide)⟩

/-- Nothing is read behind an empty file. -/
theorem empty_file_ends : (∀ file ∈ [noModules, uptime], ustar.Fits file.1 file.2.length) ∧
    unpack ustar (packDir ustar [.directory [.file noModules, .file uptime]]) ≠ some [noModules, uptime] := by
  have hfits : ∀ file ∈ [noModules, uptime], ustar.Fits file.1 file.2.length := by
    simp only [ustar]
    decide
  refine ⟨hfits, ?_⟩
  rw [packDir_eq, show files [.directory [.file noModules, .file uptime]] = [noModules, uptime] from rfl,
    unpack_pack _ hfits]
  decide

end CrashReporter.Endurance
