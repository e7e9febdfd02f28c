import CrashReporter.JournalSpy.Config
import CrashReporter.Sections
import Mathlib.Data.Finset.Lattice.Lemmas

/-! What `loadExpressions` accepts.

The grammar knows one kind of header. The parser does not find an indented one below
another header: its fields then go to the pattern above it. -/
namespace CrashReporter.JournalSpy
open Bytes Sections

section Parser
variable (decode : Bytes → Text) (valid : Text → Bool)

/-- The lines of a file, each with its newline. -/
def lines : Bytes → List Bytes
  | [] => []
  | c :: rest =>
    if c = 10 then [c] :: lines rest
    else match lines rest with
      | [] => [[c]]
      | line :: later => (c :: line) :: later

/-- A line that opens a pattern. -/
def isHeader (line : Bytes) : Bool := (trimmed line).head? = some 59

def headerName (line : Bytes) : Text := decode ((trimmed line).drop 1)

/-- The field that a line is, by itself. -/
def fieldOf (line : Bytes) : Option Field :=
  let line := trimmed line
  if line = [] ∨ line.head? = some 35 ∨ 61 ∉ line then none
  else
    let field := (decode (line.takeWhile (· ≠ 61)), decode ((line.dropWhile (· ≠ 61)).drop 1))
    if valid field.2 then some field else none

/-- Without those that repeat an earlier one. -/
def firsts : List Field → List Field
  | [] => []
  | f :: rest => f :: (firsts rest).filter (·.1 ≠ f.1)

def fields (lines : List Bytes) : Finset Field := (firsts (lines.filterMap (fieldOf decode valid))).toFinset

/-- The pattern of a section, if it has a field. -/
def pattern (s : Section Bytes) : List Expression :=
  if fields decode valid s.2 = ∅ then []
  else [{ name := headerName decode s.1, rexp := fields decode valid s.2, lastHit := 0 }]

/-- The patterns of a file. -/
def patterns (file : Bytes) : List Expression := (split isHeader (lines file)).2.flatMap (pattern decode valid)

/-! ### Lines -/

theorem lines_flatten (file : Bytes) : (lines file).flatten = file := by
  induction file with
  | nil => rfl
  | cons c rest ih =>
    unfold lines
    split
    · simp [ih]
    · split
      · rename_i h
        rw [h] at ih
        simpa using ih
      · rename_i h
        rw [h] at ih
        simpa using ih

/-- Reading gives one line after the other. -/
theorem lines_readLine (c : UInt8) (rest : Bytes) :
    lines (c :: rest) = (readLine (c :: rest)).1 :: lines (readLine (c :: rest)).2 := by
  induction rest generalizing c with
  | nil => by_cases hc : c = 10 <;> simp [lines, readLine, hc]
  | cons d rest ih =>
    by_cases hc : c = 10
    · simp [lines, readLine, hc]
    · have hread : readLine (c :: d :: rest) = (c :: (readLine (d :: rest)).1, (readLine (d :: rest)).2) := by
        rw [readLine, if_neg hc]
      rw [lines, if_neg hc, ih d, hread]

/-- The character that is peeked at is the first one of the next line. -/
theorem readLine_head (c : UInt8) (rest : Bytes) : (readLine (c :: rest)).1.head? = some c := by
  unfold readLine
  split <;> rfl

/-- A semicolon in the first column. -/
def flush (line : Bytes) : Bool := line.head? = some 59

theorem isHeader_of_flush (line : Bytes) (h : flush line = true) : isHeader line = true := by
  obtain ⟨rest, rfl⟩ : ∃ rest, line = 59 :: rest := by simpa [flush, List.head?_eq_some_iff] using h
  have hblank : isSpace 59 = false := by decide
  have hfront : (59 :: rest).dropWhile isSpace = 59 :: rest := by simp [hblank]
  have hback : ∃ rest', (59 :: rest).rdropWhile isSpace = 59 :: rest' := by
    have hpre := List.rdropWhile_prefix isSpace (59 :: rest)
    cases hr : (59 :: rest).rdropWhile isSpace with
    | nil => exact absurd (List.rdropWhile_eq_nil_iff.mp hr 59 (List.mem_cons_self ..)) (by simp [hblank])
    | cons d rest' =>
      rw [hr] at hpre
      exact ⟨rest', by rw [(List.cons_prefix_cons.mp hpre).1]⟩
  obtain ⟨rest', hback⟩ := hback
  simp [isHeader, trimmed, hfront, hback]

/-! ### Fields -/

theorem firsts_eq_nil {l : List Field} : firsts l = [] ↔ l = [] := by cases l <;> simp [firsts]

/-- A line adds the field that it is, unless there is one of the same name. -/
theorem addLine_eq (rexp : Finset Field) (line : Bytes) : addLine decode valid rexp line =
    match fieldOf decode valid line with
    | none => rexp
    | some field => if ∃ f ∈ rexp, f.1 = field.1 then rexp else insert field rexp := by
  unfold addLine fieldOf
  generalize trimmed line = line
  by_cases hskip : line = [] ∨ line.head? = some 35
  · have hnone : line = [] ∨ line.head? = some 35 ∨ 61 ∉ line := hskip.imp_right Or.inl
    simp [hskip, hnone]
  · by_cases hmem : 61 ∈ line
    · have hsome : ¬(line = [] ∨ line.head? = some 35 ∨ 61 ∉ line) := by
        rintro (h | h | h)
        · exact hskip (.inl h)
        · exact hskip (.inr h)
        · exact h hmem
      obtain ⟨name, expr, rfl, hname⟩ := List.eq_append_cons_of_mem hmem
      have hne : ∀ c ∈ name, decide (c ≠ 61) = true := fun c hc => by
        simpa using fun heq : c = 61 => hname (heq ▸ hc)
      have hidx : (name ++ 61 :: expr).idxOf 61 = name.length := by
        rw [List.idxOf_append_of_notMem hname, List.idxOf_cons_self, Nat.add_zero]
      have htake : (name ++ 61 :: expr).takeWhile (· ≠ 61) = name := by
        rw [List.takeWhile_append_of_pos hne]
        simp
      have hdrop : (name ++ 61 :: expr).dropWhile (· ≠ 61) = 61 :: expr := by
        rw [List.dropWhile_append_of_pos hne]
        simp
      have hname' : (name ++ 61 :: expr).take name.length = name := List.take_left
      rw [if_neg hskip, if_neg (not_not_intro hmem), if_neg hsome, hidx, htake, hdrop]
      dsimp only
      rw [hname']
      by_cases hv : valid (decode expr) = true <;> simp [hv]
    · simp [hskip, hmem]

theorem foldl_addLine (ls : List Bytes) (rexp : Finset Field) : ls.foldl (addLine decode valid) rexp =
    rexp ∪ ((firsts (ls.filterMap (fieldOf decode valid))).filter fun f => ¬∃ g ∈ rexp, g.1 = f.1).toFinset := by
  induction ls generalizing rexp with
  | nil => simp [firsts]
  | cons line rest ih =>
    have hadd := addLine_eq decode valid rexp line
    rw [List.foldl_cons, ih]
    cases hf : fieldOf decode valid line with
    | none =>
      rw [hf] at hadd
      rw [List.filterMap_cons_none hf, hadd]
    | some field =>
      rw [hf] at hadd
      dsimp only at hadd
      rw [List.filterMap_cons_some hf, firsts]
      by_cases hrep : ∃ g ∈ rexp, g.1 = field.1
      · rw [if_pos hrep] at hadd
        rw [hadd, List.filter_cons_of_neg (by simpa using hrep), List.filter_filter]
        congr 2
        refine List.filter_congr fun f _ => ?_
        by_cases hsame : f.1 = field.1 <;> simp [hsame, hrep]
      · rw [if_neg hrep] at hadd
        rw [hadd, List.filter_cons_of_pos (by simpa using hrep), List.filter_filter, List.toFinset_cons,
          Finset.insert_union, Finset.union_insert]
        congr 3
        refine List.filter_congr fun f _ => ?_
        by_cases hsame : f.1 = field.1 <;> simp [hsame, eq_comm (a := field.1)]

/-- Read one after the other, the lines give their fields. -/
theorem foldl_fields (ls : List Bytes) : ls.foldl (addLine decode valid) ∅ = fields decode valid ls := by
  rw [foldl_addLine, fields]
  simp

/-! ### Patterns -/

/-- A pattern takes the lines before the next semicolon in the first column. -/
theorem readFields_split (rexp : Finset Field) (io : Bytes) :
    (readFields decode valid rexp io).1 = (split flush (lines io)).1.foldl (addLine decode valid) rexp ∧
      split flush (lines (readFields decode valid rexp io).2) = ([], (split flush (lines io)).2) := by
  induction rexp, io using readFields.induct decode valid with
  | case1 rexp => simp [readFields, lines, split]
  | case2 rexp rest =>
    have hflush : flush (readLine (59 :: rest)).1 = true := by simp [flush, readLine_head]
    rw [readFields, if_pos rfl, lines_readLine, split_header hflush]
    exact ⟨rfl, rfl⟩
  | case3 rexp c rest hc ih =>
    have hflush : flush (readLine (c :: rest)).1 = false := by simp [flush, readLine_head, hc]
    rw [readFields, if_neg hc, lines_readLine, split_other hflush]
    exact ih

theorem parsePattern_fst (header io : Bytes) : (parsePattern decode valid (headerName decode header) io).1 =
    pattern decode valid (header, (split flush (lines io)).1) := by
  simp only [parsePattern, pattern, (readFields_split decode valid ∅ io).1, foldl_fields]

theorem loadExpressions_other {c : UInt8} {rest : Bytes} (h : isHeader (readLine (c :: rest)).1 = false) :
    loadExpressions decode valid (c :: rest) = loadExpressions decode valid (readLine (c :: rest)).2 := by
  have hhead : ¬(trimmed (readLine (c :: rest)).1).head? = some 59 := by simpa [isHeader] using h
  rw [loadExpressions]
  exact if_neg hhead

theorem loadExpressions_header {c : UInt8} {rest : Bytes} (h : isHeader (readLine (c :: rest)).1 = true) :
    loadExpressions decode valid (c :: rest) =
      pattern decode valid ((readLine (c :: rest)).1, (split flush (lines (readLine (c :: rest)).2)).1) ++
        loadExpressions decode valid (readFields decode valid ∅ (readLine (c :: rest)).2).2 := by
  have hhead : (trimmed (readLine (c :: rest)).1).head? = some 59 := by simpa [isHeader] using h
  rw [loadExpressions, ← parsePattern_fst]
  exact if_pos hhead

theorem loadExpressions_split {file : Bytes} {ss : List (Section Bytes)}
    (h : split flush (lines file) = ([], ss)) :
    loadExpressions decode valid file = ss.flatMap (pattern decode valid) := by
  induction ss generalizing file with
  | nil =>
    have hfile := lines_flatten file
    rw [← split_flatten flush (lines file), h] at hfile
    obtain rfl : [] = file := hfile
    simp [loadExpressions]
  | cons s ss ih =>
    cases file with
    | nil => cases h
    | cons c rest =>
      rw [lines_readLine] at h
      cases hflush : flush (readLine (c :: rest)).1 with
      | false =>
        rw [split_other hflush] at h
        cases h
      | true =>
        rw [split_header hflush] at h
        cases h
        have hrest := (readFields_split decode valid ∅ (readLine (c :: rest)).2).2
        rw [loadExpressions_header decode valid (isHeader_of_flush _ hflush), ih hrest, List.flatMap_cons]

/-- The parser takes each of its sections for one pattern. -/
theorem loadExpressions_sections (file : Bytes) : loadExpressions decode valid file =
    (sections isHeader flush (lines file)).flatMap (pattern decode valid) := by
  induction hn : file.length using Nat.strongRecOn generalizing file with
  | ind n ih =>
    cases file with
    | nil => simp [loadExpressions, lines, sections]
    | cons c rest =>
      rw [lines_readLine, sections]
      cases hheader : isHeader (readLine (c :: rest)).1 with
      | false => exact (loadExpressions_other decode valid hheader).trans (ih _ (hn ▸ readLine_lt c rest) _ rfl)
      | true =>
        have hrest := (readFields_split decode valid ∅ (readLine (c :: rest)).2).2
        rw [loadExpressions_header decode valid hheader, loadExpressions_split decode valid hrest]
        rfl

/-- The grammar takes each part of a section for one pattern. -/
theorem patterns_sections (file : Bytes) : patterns decode valid file =
    (sections isHeader flush (lines file)).flatMap fun s => (parts isHeader s).flatMap (pattern decode valid) := by
  rw [patterns, sections_parts isHeader_of_flush, List.flatMap_assoc]

/-! ### Sections that are one pattern -/

/-- A line below the header is a field. -/
def hasFields (s : Section Bytes) : Bool := s.2.any fun line => (fieldOf decode valid line).isSome

/-- A section of the parser that is one pattern to the grammar as well, or none. -/
structure Single (s : Section Bytes) : Prop where
  /-- No indented header is a field by its text. -/
  headers : ∀ line ∈ s.2, isHeader line = true → fieldOf decode valid line = none
  /-- The fields are below one of the headers, -/
  single : ((parts isHeader s).filter (hasFields decode valid)).length ≤ 1
  /-- and this one has the name of the first one. -/
  named : ∀ part ∈ parts isHeader s, hasFields decode valid part = true →
    headerName decode part.1 = headerName decode s.1

variable {decode valid}

theorem firsts_subset (l : List Field) : firsts l ⊆ l := by
  induction l with
  | nil => exact List.Subset.refl _
  | cons f rest ih =>
    refine List.cons_subset_cons f fun g hg => ih ?_
    exact List.mem_of_mem_filter hg

/-- A field that is left out repeats the name of one that is not. -/
theorem exists_firsts {l : List Field} {f : Field} (hf : f ∈ l) : ∃ g ∈ firsts l, g.1 = f.1 := by
  induction l with
  | nil => cases hf
  | cons f' rest ih =>
    by_cases hname : f'.1 = f.1
    · exact ⟨f', List.mem_cons_self .., hname⟩
    · obtain ⟨g, hg, hgf⟩ := ih (List.mem_of_ne_of_mem (fun heq => hname (heq ▸ rfl)) hf)
      refine ⟨g, List.mem_cons_of_mem _ (List.mem_filter.mpr ⟨hg, ?_⟩), hgf⟩
      simpa [hgf] using Ne.symm hname

theorem hasFields_eq_false {s : Section Bytes} :
    hasFields decode valid s = false ↔ s.2.filterMap (fieldOf decode valid) = [] := by
  simp [hasFields, List.filterMap_eq_nil_iff]

theorem pattern_eq_nil {s : Section Bytes} (h : hasFields decode valid s = false) :
    pattern decode valid s = [] := by
  simp [pattern, fields, hasFields_eq_false.mp h, firsts]

theorem pattern_eq {s : Section Bytes} (h : hasFields decode valid s = true) : pattern decode valid s =
    [{ name := headerName decode s.1, rexp := fields decode valid s.2, lastHit := 0 }] := by
  have hne : fields decode valid s.2 ≠ ∅ := by
    rw [fields, Ne, List.toFinset_eq_empty_iff, firsts_eq_nil, ← hasFields_eq_false, h]
    exact Bool.noConfusion
  simp [pattern, hne]

theorem length_flatMap_pattern (l : List (Section Bytes)) :
    (l.flatMap (pattern decode valid)).length = (l.filter (hasFields decode valid)).length := by
  induction l with
  | nil => rfl
  | cons s rest ih =>
    cases h : hasFields decode valid s with
    | true => simp [pattern_eq h, h, ih, Nat.add_comm]
    | false => simp [pattern_eq_nil h, h, ih]

theorem hasFields_parts {s : Section Bytes}
    (h : ∀ line ∈ s.2, isHeader line = true → fieldOf decode valid line = none) :
    hasFields decode valid s = (parts isHeader s).any (hasFields decode valid) := by
  rw [Bool.eq_iff_iff, ← not_iff_not]
  simp only [Bool.not_eq_true, hasFields_eq_false, parts_filterMap s h, List.flatMap_eq_nil_iff, List.any_eq_false]

/-- Such a section is the same to both. -/
theorem Single.pattern_eq {s : Section Bytes} (h : Single decode valid s) :
    pattern decode valid s = (parts isHeader s).flatMap (pattern decode valid) := by
  have hfields := parts_filterMap s h.headers
  have hany := hasFields_parts h.headers
  have hone := h.single
  cases hfilter : (parts isHeader s).filter (hasFields decode valid) with
  | nil =>
    have hnone : ∀ part ∈ parts isHeader s, hasFields decode valid part = false := by
      simpa using List.filter_eq_nil_iff.mp hfilter
    have hs : hasFields decode valid s = false := by
      rw [hany, List.any_eq_false.mpr (by simpa using hnone)]
    rw [pattern_eq_nil hs]
    exact (List.flatMap_eq_nil_iff.mpr fun part hpart => pattern_eq_nil (hnone part hpart)).symm
  | cons part others =>
    rw [hfilter] at hone
    obtain rfl : others = [] := List.length_eq_zero_iff.mp (Nat.le_zero.mp (Nat.le_of_succ_le_succ hone))
    obtain ⟨before, after, hparts, hbefore, hpart, hafter⟩ := List.filter_eq_cons_iff.mp hfilter
    have hmem : part ∈ parts isHeader s := by simp [hparts]
    have hs : hasFields decode valid s = true := hany.trans (List.any_eq_true.mpr ⟨part, hmem, hpart⟩)
    have hfront (t : Section Bytes) (ht : t ∈ before) : hasFields decode valid t = false := by
      simpa using hbefore t ht
    have hback (t : Section Bytes) (ht : t ∈ after) : hasFields decode valid t = false := by
      simpa using List.filter_eq_nil_iff.mp hafter t ht
    have hsame : s.2.filterMap (fieldOf decode valid) = part.2.filterMap (fieldOf decode valid) := by
      rw [hfields, hparts, List.flatMap_append, List.flatMap_cons,
        List.flatMap_eq_nil_iff.mpr fun t ht => hasFields_eq_false.mp (hfront t ht),
        List.flatMap_eq_nil_iff.mpr fun t ht => hasFields_eq_false.mp (hback t ht)]
      simp
    rw [hparts, List.flatMap_append, List.flatMap_cons,
      List.flatMap_eq_nil_iff.mpr fun t ht => pattern_eq_nil (hfront t ht),
      List.flatMap_eq_nil_iff.mpr fun t ht => pattern_eq_nil (hback t ht),
      JournalSpy.pattern_eq hs, JournalSpy.pattern_eq hpart, h.named part hmem hpart, fields, fields, hsame]
    rfl

/-- A section that is the same to both is one pattern, when its headers are no fields. -/
theorem single_of_pattern_eq {s : Section Bytes}
    (hheaders : ∀ line ∈ s.2, isHeader line = true → fieldOf decode valid line = none)
    (h : pattern decode valid s = (parts isHeader s).flatMap (pattern decode valid)) : Single decode valid s := by
  refine ⟨hheaders, ?_, fun part hpart hfields => ?_⟩
  · rw [← length_flatMap_pattern, ← h]
    unfold pattern
    split <;> simp
  · have hmem : ({ name := headerName decode part.1, rexp := fields decode valid part.2, lastHit := 0 } : Expression) ∈
        pattern decode valid s := by
      rw [h]
      exact List.mem_flatMap.mpr ⟨part, hpart, by simp [pattern_eq hfields]⟩
    unfold pattern at hmem
    split at hmem
    · cases hmem
    · exact congrArg Expression.name (List.mem_singleton.mp hmem)

/-! ### Files -/

theorem split_below (p : Bytes → Bool) (l : List Bytes) : ∀ s ∈ (split p l).2, ∀ line ∈ s.2, p line = false := by
  induction l with
  | nil => simp [split]
  | cons a rest ih =>
    cases h : p a with
    | true =>
      rw [split_header h]
      exact List.forall_mem_cons.mpr ⟨split_front p rest, ih⟩
    | false => simpa [split_other h] using ih

variable (decode valid)

/-- A semicolon at the front stays there. -/
def KeepsSemicolon : Prop := ∀ rest, (decode (59 :: rest)).head? = some ';'

/-- The name of a field begins with a semicolon only where the line does. (A byte order
mark in front of the semicolon is skipped.) -/
def Unmasked (file : Bytes) : Prop :=
  ∀ line ∈ lines file, isHeader line = false → ∀ f, fieldOf decode valid line = some f → f.1.head? ≠ some ';'

variable {decode valid}

/-- The fields of the grammar are not those of a header. -/
theorem Unmasked.patterns {file : Bytes} (h : Unmasked decode valid file) {e : Expression}
    (he : e ∈ patterns decode valid file) : ∀ f ∈ e.rexp, f.1.head? ≠ some ';' := by
  obtain ⟨part, hpart, he⟩ := List.mem_flatMap.mp he
  cases hfields : hasFields decode valid part with
  | false =>
    rw [pattern_eq_nil hfields] at he
    cases he
  | true =>
    rw [pattern_eq hfields] at he
    obtain rfl := List.mem_singleton.mp he
    intro f hf
    obtain ⟨line, hline, hfield⟩ := List.mem_filterMap.mp (firsts_subset _ (List.mem_toFinset.mp hf))
    have hmem : line ∈ lines file := by
      rw [← split_flatten isHeader (lines file)]
      exact List.mem_append_right _ (List.mem_flatMap.mpr ⟨part, hpart, List.mem_cons_of_mem _ hline⟩)
    exact h line hmem (split_below isHeader _ part hpart line hline) f hfield

theorem KeepsSemicolon.fieldOf (h : KeepsSemicolon decode) {line : Bytes} (hline : isHeader line = true) {f : Field}
    (hf : fieldOf decode valid line = some f) : f.1.head? = some ';' := by
  obtain ⟨rest, hrest⟩ : ∃ rest, trimmed line = 59 :: rest := by
    simpa [isHeader, List.head?_eq_some_iff] using hline
  unfold JournalSpy.fieldOf at hf
  rw [hrest] at hf
  dsimp only at hf
  split at hf
  · cases hf
  · split at hf
    · cases hf
      exact h _
    · cases hf

/-- The parser reads what the grammar says when every pattern it reads is one to the
grammar, and in no other case. -/
theorem reads_patterns (decode : Bytes → Text) (valid : Text → Bool) (file : Bytes) :
    ((∀ s ∈ sections isHeader flush (lines file), Single decode valid s) →
      loadExpressions decode valid file = patterns decode valid file) ∧
    (KeepsSemicolon decode → Unmasked decode valid file →
      loadExpressions decode valid file = patterns decode valid file →
        ∀ s ∈ sections isHeader flush (lines file), Single decode valid s) := by
  rw [loadExpressions_sections, patterns_sections]
  constructor
  · intro h
    exact List.flatMap_congr fun s hs => (h s hs).pattern_eq
  · intro hdecode hfile heq
    have hheaders : ∀ s ∈ sections isHeader flush (lines file), ∀ line ∈ s.2, isHeader line = true →
        fieldOf decode valid line = none := by
      intro s hs line hline hheader
      by_contra hsome
      obtain ⟨f, hf⟩ := Option.ne_none_iff_exists'.mp hsome
      obtain ⟨g, hg, hgf⟩ := exists_firsts (List.mem_filterMap.mpr ⟨line, hline, hf⟩)
      have hfields : hasFields decode valid s = true := List.any_eq_true.mpr ⟨line, hline, by simp [hf]⟩
      have hmem : ({ name := headerName decode s.1, rexp := fields decode valid s.2, lastHit := 0 } : Expression) ∈
          patterns decode valid file := by
        rw [patterns_sections, ← heq]
        exact List.mem_flatMap.mpr ⟨s, hs, by simp [pattern_eq hfields]⟩
      refine hfile.patterns hmem g (List.mem_toFinset.mpr hg) ?_
      rw [hgf]
      exact hdecode.fieldOf hheader hf
    have hle : ∀ s ∈ sections isHeader flush (lines file),
        (pattern decode valid s).length ≤ ((parts isHeader s).flatMap (pattern decode valid)).length := by
      intro s hs
      cases hfields : hasFields decode valid s with
      | false => simp [pattern_eq_nil hfields]
      | true =>
        obtain ⟨part, hpart, hany⟩ := List.any_eq_true.mp ((hasFields_parts (hheaders s hs)).symm.trans hfields)
        rw [length_flatMap_pattern, pattern_eq hfields]
        exact List.length_pos_iff.mpr (List.ne_nil_of_mem (List.mem_filter.mpr ⟨hpart, hany⟩))
    have hlen := length_eq_of_flatMap hle (congrArg List.length heq)
    exact fun s hs => single_of_pattern_eq (hheaders s hs) (flatMap_inj hlen heq s hs)

end Parser

/-- Two patterns, the second one after a comment. -/
theorem reads_patterns_two : ∀ s ∈ sections isHeader flush (lines (ascii ";a\nA=x\n#\n;b\nB=y")),
    Single latin (fun _ => true) s := by
  refine (reads_patterns latin (fun _ => true) _).2 (fun _ => rfl) ?_ ?_
  · unfold Unmasked
    decide +kernel
  · rw [loadExpressions_sections]
    decide +kernel

/-- The second pattern of this file is indented. -/
def indented : Bytes := ascii ";a\nA=x\n ;b\nB=y\n"

/-- Its field goes to the first pattern. -/
theorem indented_header_lost :
    loadExpressions latin (fun _ => true) indented ≠ patterns latin (fun _ => true) indented ∧
    loadExpressions latin (fun _ => true) indented =
      [{ name := ['a'], rexp := {(['A'], ['x']), (['B'], ['y'])}, lastHit := 0 }] ∧
    patterns latin (fun _ => true) indented =
      [{ name := ['a'], rexp := {(['A'], ['x'])}, lastHit := 0 },
        { name := ['b'], rexp := {(['B'], ['y'])}, lastHit := 0 }] := by
  rw [loadExpressions_sections]
  decide +kernel

end CrashReporter.JournalSpy
