import CrashReporter.Monitor.FileName
import CrashReporter.RowChange

/-! The reports that the settings show as waiting for their upload.

`PendingUploadsModel` is given the list of all report files each time a core directory
changes. It removes the rows whose file is gone, and inserts a row for each new file, the
newest first. -/
namespace CrashReporter.Ui
open Monitor (parseCrashInfoFromFilename)
open RowChange

structure Item where
  applicationName : Text
  pid : Int
  signal : Text
  filePath : Text
  dateCreated : Int
deriving DecidableEq

namespace PendingUploadsModel

/-- The first loop of `setData`, from row `i` on: the rows that stay, the rows removed, and
what is left of the new list. -/
def removeGone (i : Nat) : List Item → List Text → List Item × List (RowChange Item) × List Text
  | [], newData => ([], [], newData)
  | row :: rest, newData =>
    if newData.contains row.filePath then
      -- We already have that item.
      let (rows, changes, left) := removeGone (i + 1) rest (newData.erase row.filePath)
      (row :: rows, changes, left)
    else
      let (rows, changes, left) := removeGone i rest newData
      (rows, removed i :: changes, left)

variable (strsignal : Int → Text)

def newItem (filePath : Text) (dateCreated : Int) : Item :=
  let info := parseCrashInfoFromFilename filePath
  { applicationName := info.getD 0 []
    pid := Text.toInt (info.getD 3 [])
    signal := strsignal (Text.toInt (info.getD 2 []))
    filePath := filePath
    dateCreated := dateCreated }

/-- The second loop: the `n`th file inserted was created at `created n`. -/
def insertNew (created : Nat → Int) : List Text → List Item → List Item × List (RowChange Item)
  | [], contents => (contents, [])
  | filePath :: rest, contents =>
    let item := newItem strsignal filePath (created 0)
    let i := contents.findIdx fun row => item.dateCreated > row.dateCreated
    let (contents, changes) := insertNew (fun n => created (n + 1)) rest (contents.insertIdx i item)
    (contents, inserted i item :: changes)

def setData (created : Nat → Int) (data : List Text) (contents : List Item) :
    List Item × List (RowChange Item) :=
  let (contents, removals, newData) := removeGone 0 contents data
  if newData.isEmpty then (contents, removals)
  else
    let (contents, insertions) := insertNew strsignal created newData contents
    (contents, removals ++ insertions)

end PendingUploadsModel

/-! ### `CrashReporterAdapter` -/

inductive Output where
  | reportsToUploadChanged
  /-- A notification of the model. -/
  | rows (change : RowChange Item)

/-- The notifications of the model. -/
def changes (outputs : List Output) : List (RowChange Item) := outputs.filterMap fun o => match o with
  | .reportsToUploadChanged => none
  | .rows change => some change

structure Adapter where
  reportsToUpload : Nat
  pendingUploadsModel : List Item
  /-- In the order in which they were emitted. -/
  outputs : List Output

namespace Adapter
variable (strsignal : Int → Text)

/-- The files found, and when those were created that are inserted. -/
structure Update where
  coreFiles : List Text
  created : Nat → Int

def updateCoreDirectoryModels (u : Update) (a : Adapter) : Adapter :=
  let signals := if u.coreFiles.length ≠ a.reportsToUpload then [.reportsToUploadChanged] else []
  let (contents, changes) := PendingUploadsModel.setData strsignal u.created u.coreFiles a.pendingUploadsModel
  { reportsToUpload := u.coreFiles.length
    pendingUploadsModel := contents
    outputs := a.outputs ++ signals ++ changes.map .rows }

/-- The adapter after some updates. -/
def run (updates : List Update) : Adapter :=
  updates.foldl (fun a u => updateCoreDirectoryModels strsignal u a) ⟨0, [], []⟩

end Adapter

/-- Newest first. -/
def Sorted (rows : List Item) : Prop := rows.Pairwise fun a b => b.dateCreated ≤ a.dateCreated

/-- The rows of new files, with the dates read for them. -/
def newItems (strsignal : Int → Text) (created : Nat → Int) (data : List Text) : List Item :=
  data.mapIdx fun n filePath => PendingUploadsModel.newItem strsignal filePath (created n)

/-- One update of the rows to the files found. -/
structure Follows (strsignal : Int → Text) (u : Adapter.Update) (before after : Adapter) : Prop where
  files : (after.pendingUploadsModel.map (·.filePath)).Perm u.coreFiles
  /-- By the dates that were read when the rows were inserted. -/
  sorted : Sorted after.pendingUploadsModel
  /-- The rows whose file is still there stay as they are, in their order: of each path as
  many as there were before, and as there are now. All others are new. -/
  kept : ∃ (kept : List Item) (newData : List Text), kept.Sublist before.pendingUploadsModel ∧
    kept.Sublist after.pendingUploadsModel ∧
      (∀ path, (kept.map (·.filePath)).count path =
        min ((before.pendingUploadsModel.map (·.filePath)).count path) (u.coreFiles.count path)) ∧
        after.pendingUploadsModel.Perm (kept ++ newItems strsignal u.created newData)
  /-- The notifications of this update lead an observer from the rows before to those after it. -/
  observed : ∃ outputs, after.outputs = before.outputs ++ outputs ∧
    replay (changes outputs) before.pendingUploadsModel = some after.pendingUploadsModel
  reportsToUpload : after.reportsToUpload = after.pendingUploadsModel.length

namespace PendingUploadsModel

theorem removeGone_kept (i : Nat) (rows : List Item) (data : List Text) :
    (removeGone i rows data).1.Sublist rows ∧ ∀ path, ((removeGone i rows data).1.map (·.filePath)).count path =
      min ((rows.map (·.filePath)).count path) (data.count path) := by
  induction rows generalizing i data with
  | nil => exact ⟨.slnil, fun path => by simp [removeGone]⟩
  | cons row rest ih =>
    by_cases h : row.filePath ∈ data
    · obtain ⟨hsub, hcount⟩ := ih (i + 1) (data.erase row.filePath)
      simp only [removeGone, List.contains_iff_mem, h, if_true, List.map_cons]
      refine ⟨hsub.cons_cons row, fun path => ?_⟩
      rcases eq_or_ne path row.filePath with rfl | hne
      · have hpos := List.count_pos_iff.mpr h
        rw [List.count_cons_self, List.count_cons_self, hcount, List.count_erase_self]
        omega
      · rw [List.count_cons_of_ne hne.symm, List.count_cons_of_ne hne.symm, hcount,
          List.count_erase_of_ne hne]
    · obtain ⟨hsub, hcount⟩ := ih i data
      simp only [removeGone, List.contains_iff_mem, h, if_false, List.map_cons]
      refine ⟨hsub.cons row, fun path => ?_⟩
      rcases eq_or_ne path row.filePath with rfl | hne
      · rw [hcount, List.count_eq_zero_of_not_mem h, Nat.min_zero, Nat.min_zero]
      · rw [List.count_cons_of_ne hne.symm, hcount]

/-- The rows that stay and the files that are left make up the new list. -/
theorem removeGone_perm (i : Nat) (rows : List Item) (data : List Text) :
    ((removeGone i rows data).1.map (·.filePath) ++ (removeGone i rows data).2.2).Perm data := by
  induction rows generalizing i data with
  | nil => exact .refl _
  | cons row rest ih =>
    by_cases h : row.filePath ∈ data
    · simp only [removeGone, List.contains_iff_mem, h, if_true]
      exact ((ih (i + 1) (data.erase row.filePath)).cons _).trans (List.perm_cons_erase h).symm
    · simp only [removeGone, List.contains_iff_mem, h, if_false]
      exact ih i data

/-- Each row is removed where it is at that moment, behind the `before` rows that stay. -/
theorem removeGone_observed (before rows : List Item) (data : List Text) :
    replay (removeGone before.length rows data).2.1 (before ++ rows) =
      some (before ++ (removeGone before.length rows data).1) := by
  induction rows generalizing before data with
  | nil => rfl
  | cons row rest ih =>
    by_cases h : row.filePath ∈ data
    · have hrest := ih (before ++ [row]) (data.erase row.filePath)
      simp only [List.length_append, List.length_singleton, List.append_assoc, List.singleton_append] at hrest
      simp only [removeGone, List.contains_iff_mem, h, if_true]
      exact hrest
    · simp only [removeGone, List.contains_iff_mem, h, if_false]
      rw [replay_removed]
      exact ih before data

theorem newItems_cons (strsignal : Int → Text) (created : Nat → Int) (filePath : Text) (rest : List Text) :
    newItems strsignal created (filePath :: rest) =
      newItem strsignal filePath (created 0) :: newItems strsignal (fun n => created (n + 1)) rest :=
  List.mapIdx_cons ..

theorem newItems_filePath (strsignal : Int → Text) (created : Nat → Int) (data : List Text) :
    (newItems strsignal created data).map (·.filePath) = data := by
  induction data generalizing created with
  | nil => rfl
  | cons filePath rest ih =>
    rw [newItems_cons, List.map_cons, ih]
    rfl

theorem insertNew_spec (strsignal : Int → Text) (created : Nat → Int) (data : List Text) (contents : List Item) :
    replay (insertNew strsignal created data contents).2 contents =
        some (insertNew strsignal created data contents).1 ∧
      contents.Sublist (insertNew strsignal created data contents).1 ∧
        (insertNew strsignal created data contents).1.Perm (contents ++ newItems strsignal created data) ∧
          (Sorted contents → Sorted (insertNew strsignal created data contents).1) := by
  induction data generalizing created contents with
  | nil => exact ⟨rfl, .refl _, by simp [insertNew, newItems], id⟩
  | cons filePath rest ih =>
    let item := newItem strsignal filePath (created 0)
    let i := contents.findIdx fun row => decide (item.dateCreated > row.dateCreated)
    have hi : i ≤ contents.length := List.findIdx_le_length
    obtain ⟨hreplay, hsub, hperm, hsorted⟩ := ih (fun n => created (n + 1)) (contents.insertIdx i item)
    refine ⟨?_, (List.sublist_insertIdx contents i item).trans hsub, ?_, fun h => hsorted ?_⟩
    · exact (replay_inserted hi item _).trans hreplay
    · have hinsert : (contents.insertIdx i item).Perm (item :: contents) := List.perm_insertIdx item contents hi
      rw [newItems_cons]
      exact (hperm.trans (hinsert.append_right _)).trans List.perm_middle.symm
    · have htrans (a b c : Item) (hab : b.dateCreated ≤ a.dateCreated) (hbc : c.dateCreated ≤ b.dateCreated) :
          c.dateCreated ≤ a.dateCreated := Int.le_trans hbc hab
      refine pairwise_insertIdx_findIdx htrans ?_ ?_ h
      · intro row hrow
        have hlt : item.dateCreated > row.dateCreated := of_decide_eq_true hrow
        exact Int.le_of_lt hlt
      · intro row hrow
        exact Int.not_lt.mp (of_decide_eq_false hrow)

/-- The two loops of setData(); nothing is inserted when no file is left. -/
theorem setData_eq (strsignal : Int → Text) (created : Nat → Int) (data : List Text) (contents : List Item) :
    setData strsignal created data contents =
      let gone := removeGone 0 contents data
      let new := insertNew strsignal created gone.2.2 gone.1
      (new.1, gone.2.1 ++ new.2) := by
  unfold setData
  dsimp only
  split
  · rename_i h
    rw [List.isEmpty_iff.mp h]
    simp [insertNew]
  · rfl

end PendingUploadsModel

section Run
variable (strsignal : Int → Text)

theorem changes_rows (l : List (RowChange Item)) : changes (l.map .rows) = l := by
  induction l with
  | nil => rfl
  | cons change rest ih => exact congrArg _ ih

/-- An update makes the rows follow the files, whatever they were before. -/
theorem Adapter.update_follows (u : Update) {a : Adapter} (h : Sorted a.pendingUploadsModel) :
    Follows strsignal u a (a.updateCoreDirectoryModels strsignal u) := by
  let gone := PendingUploadsModel.removeGone 0 a.pendingUploadsModel u.coreFiles
  let new := PendingUploadsModel.insertNew strsignal u.created gone.2.2 gone.1
  let signals : List Output := if u.coreFiles.length ≠ a.reportsToUpload then [.reportsToUploadChanged] else []
  have heq : a.updateCoreDirectoryModels strsignal u =
      ⟨u.coreFiles.length, new.1, a.outputs ++ signals ++ (gone.2.1 ++ new.2).map .rows⟩ := by
    unfold updateCoreDirectoryModels
    rw [PendingUploadsModel.setData_eq]
  obtain ⟨hsub, hcount⟩ := PendingUploadsModel.removeGone_kept 0 a.pendingUploadsModel u.coreFiles
  obtain ⟨hreplay, hsub', hperm, hsorted⟩ :=
    PendingUploadsModel.insertNew_spec strsignal u.created gone.2.2 gone.1
  have hfiles : (new.1.map (·.filePath)).Perm u.coreFiles := by
    have hnew := hperm.map (·.filePath)
    rw [List.map_append, PendingUploadsModel.newItems_filePath] at hnew
    exact hnew.trans (PendingUploadsModel.removeGone_perm 0 a.pendingUploadsModel u.coreFiles)
  rw [heq]
  refine ⟨hfiles, hsorted (h.sublist hsub), ⟨gone.1, gone.2.2, hsub, hsub', hcount, hperm⟩, ?_, ?_⟩
  · refine ⟨signals ++ (gone.2.1 ++ new.2).map .rows, List.append_assoc .., ?_⟩
    have hsignals : changes signals = [] := by
      unfold signals
      split <;> rfl
    have hgone := PendingUploadsModel.removeGone_observed [] a.pendingUploadsModel u.coreFiles
    rw [changes, List.filterMap_append, ← changes, ← changes, hsignals, changes_rows, List.nil_append,
      replay_append, show replay gone.2.1 a.pendingUploadsModel = _ from hgone]
    exact hreplay
  · simpa using hfiles.length_eq.symm

theorem Adapter.run_append (updates : List Update) (u : Update) :
    run strsignal (updates ++ [u]) = (run strsignal updates).updateCoreDirectoryModels strsignal u := by
  simp [run]

theorem Adapter.run_sorted (updates : List Update) : Sorted (run strsignal updates).pendingUploadsModel := by
  induction updates using List.reverseRecOn with
  | nil => exact .nil
  | append_singleton updates u ih =>
    rw [run_append]
    exact (update_follows strsignal u ih).sorted

end Run

end CrashReporter.Ui
