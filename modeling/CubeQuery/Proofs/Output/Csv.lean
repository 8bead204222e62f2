import CubeQuery.Proofs.Tidy.ColumnPlan

/-!
# Delimited text read back

A reader of delimited text goes through it character by character. What it has read of a field is the
field that was written, wherever commas, quotes and ends of lines stand in it, and so the text of a table
is read as its header and its rows (`csv_reads_back`).
-/

namespace CubeQuery.Output.Csv

/-! ## The reader -/

/-- Where a reader stands; `closed` is behind a quote inside a quoted field, which either ends the field
or is the first of two that stand for one. -/
inductive Place where
  | lineStart
  | fieldStart
  | bare
  | quoted
  | closed
deriving DecidableEq, Repr

/-- A reader with the part of a field it is in, the fields before it in its record and the records
before that one. -/
structure Reader where
  place : Place
  field : List Char
  fields : List (List Char)
  records : List (List (List Char))
deriving DecidableEq, Repr

namespace Reader

def atLine (records : List (List (List Char))) : Reader := ⟨.lineStart, [], [], records⟩

def put (r : Reader) (place : Place) (c : Char) : Reader :=
  { r with place, field := r.field ++ [c] }

def endField (r : Reader) : Reader := ⟨.fieldStart, [], r.fields ++ [r.field], r.records⟩

def endRecord (r : Reader) : Reader := atLine (r.records ++ [r.fields ++ [r.field]])

/-- The end of a field at a character that stands outside quotes; a blank line is no record. -/
def separate? (r : Reader) (c : Char) : Option Reader :=
  if c = ',' then some r.endField
  else if c = '\n' ∧ r.place ≠ .lineStart then some r.endRecord
  else none

def step? (r : Reader) (c : Char) : Option Reader :=
  match r.place with
  | .quoted => some (if c = '"' then { r with place := .closed } else r.put .quoted c)
  | .closed => if c = '"' then some (r.put .quoted c) else r.separate? c
  | .bare => if needsQuotes c then r.separate? c else some (r.put .bare c)
  | .lineStart | .fieldStart =>
    if c = '"' then some { r with place := .quoted }
    else if needsQuotes c then r.separate? c
    else some (r.put .bare c)

def run? (r : Reader) (cs : List Char) : Option Reader := cs.foldlM step? r

/-- The records at the end of the text; the last one may be without an end of its line. -/
def finish? (r : Reader) : Option (List (List (List Char))) :=
  match r.place with
  | .lineStart => some r.records
  | .quoted => none
  | _ => some r.endRecord.records

end Reader

def read? (text : String) : Option (List (List String)) :=
  (((Reader.atLine []).run? text.toList).bind Reader.finish?).map fun records =>
    records.map (·.map String.ofList)

/-! ## Fields -/

namespace Reader

variable {r s : Reader}

@[simp] theorem run?_nil (r : Reader) : r.run? [] = some r := rfl

theorem run?_cons {c : Char} (h : r.step? c = some s) (cs : List Char) :
    r.run? (c :: cs) = s.run? cs := by
  rw [run?, List.foldlM_cons, h]
  rfl

theorem run?_append {cs : List Char} (h : r.run? cs = some s) (rest : List Char) :
    r.run? (cs ++ rest) = s.run? rest := by
  rw [run?, List.foldlM_append]
  rw [run?] at h
  rw [h]
  rfl

theorem step?_comma (h : r.place ≠ .quoted) : r.step? ',' = some r.endField := by
  cases hplace : r.place <;> simp_all [step?, separate?, needsQuotes]

theorem step?_newline (hquoted : r.place ≠ .quoted) (hline : r.place ≠ .lineStart) :
    r.step? '\n' = some r.endRecord := by
  cases hplace : r.place <;> simp_all [step?, separate?, needsQuotes]

theorem run?_bare {cs : List Char} (hcs : ∀ c ∈ cs, needsQuotes c = false) (h : r.place = .bare) :
    r.run? cs = some { r with field := r.field ++ cs } := by
  induction cs generalizing r with
  | nil => simp
  | cons c cs ih =>
      rw [List.forall_mem_cons] at hcs
      have hstep : r.step? c = some (r.put .bare c) := by simp [step?, h, hcs.1]
      rw [run?_cons hstep, ih hcs.2 rfl]
      simp [put, h]

theorem run?_doubleQuotes (field : List Char) (h : r.place = .quoted) :
    r.run? (doubleQuotes field) = some { r with field := r.field ++ field } := by
  induction field generalizing r with
  | nil => simp [doubleQuotes]
  | cons c cs ih =>
      by_cases hc : c = '"'
      · -- The first of two quotes leaves the field and the second one comes back to it.
        subst hc
        have hfirst : r.step? '"' = some { r with place := .closed } := by simp [step?, h]
        have hsecond : step? { r with place := .closed } '"' = some (r.put .quoted '"') := rfl
        rw [doubleQuotes, if_pos rfl, run?_cons hfirst, run?_cons hsecond, ih rfl]
        simp [put, h]
      · have hstep : r.step? c = some (r.put .quoted c) := by simp [step?, h, hc]
        rw [doubleQuotes, if_neg hc, run?_cons hstep, ih rfl]
        simp [put, h]

theorem run?_quotedField (hstart : r.place = .lineStart ∨ r.place = .fieldStart)
    (field : List Char) :
    r.run? (quotedField field) = some { r with place := .closed, field := r.field ++ field } := by
  have hopen : r.step? '"' = some { r with place := .quoted } := by
    obtain h | h := hstart <;> simp [step?, h]
  have hinside := run?_doubleQuotes (r := { r with place := .quoted }) field rfl
  have hclose : step? { r with place := .quoted, field := r.field ++ field } '"' =
      some { r with place := .closed, field := r.field ++ field } := rfl
  rw [quotedField, run?_cons hopen, run?_append hinside, run?_cons hclose, run?_nil]

/-- A reader that has read a field from its start on: it may have stayed where it was only if there is
nothing of the field in the text. -/
structure HasRead (r : Reader) (field : List Char) (s : Reader) : Prop where
  outside : s.place ≠ .quoted
  line : s.place = .lineStart → r.place = .lineStart ∧ fieldChars field = []
  field : s.field = field
  fields : s.fields = r.fields
  records : s.records = r.records

theorem exists_run?_fieldChars (hstart : r.place = .lineStart ∨ r.place = .fieldStart)
    (hempty : r.field = []) (field : List Char) :
    ∃ s, r.run? (fieldChars field) = some s ∧ HasRead r field s := by
  unfold fieldChars
  by_cases hquotes : field.any needsQuotes = true
  · rw [if_pos hquotes]
    refine ⟨_, run?_quotedField hstart field, by simp, by simp, ?_, rfl, rfl⟩
    simp [hempty]
  · rw [if_neg hquotes]
    cases field with
    | nil =>
        refine ⟨r, rfl, ?_, fun h => ⟨h, rfl⟩, hempty, rfl, rfl⟩
        obtain h | h := hstart <;> simp [h]
    | cons c cs =>
        have hbare : needsQuotes c = false ∧ ∀ c ∈ cs, needsQuotes c = false := by
          simpa using hquotes
        have hc : c ≠ '"' := by
          rintro rfl
          simp [needsQuotes] at hbare
        have hstep : r.step? c = some (r.put .bare c) := by
          obtain h | h := hstart <;> simp [step?, h, hc, hbare.1]
        refine ⟨_, (run?_cons hstep cs).trans (run?_bare hbare.2 rfl), by simp [put], by simp [put], ?_,
          rfl, rfl⟩
        simp [put, hempty]

end Reader

/-! ## Records -/

theorem fieldChars_eq_nil {field : List Char} (h : fieldChars field = []) : field = [] := by
  unfold fieldChars at h
  split at h
  · simp [quotedField] at h
  · exact h

theorem eq_of_joinFields_eq_nil {fields : List (List Char)} (hfields : fields ≠ [])
    (h : joinFields fields = []) : fields = [[]] := by
  match fields with
  | [] => exact absurd rfl hfields
  | [field] => rw [fieldChars_eq_nil h]
  | field :: next :: rest => simp [joinFields] at h

namespace Reader

variable {r : Reader}

/-- The fields of a line end where the line does, if there is something on it. -/
theorem exists_run?_joinFields {fields : List (List Char)} (hfields : fields ≠ [])
    (hstart : r.place = .lineStart ∨ r.place = .fieldStart) (hempty : r.field = [])
    (hline : r.place = .lineStart → joinFields fields ≠ []) :
    ∃ s, r.run? (joinFields fields) = some s ∧
      s.step? '\n' = some (atLine (r.records ++ [r.fields ++ fields])) := by
  induction fields generalizing r with
  | nil => exact absurd rfl hfields
  | cons field rest ih =>
      obtain ⟨s, hrun, hread⟩ := exists_run?_fieldChars hstart hempty field
      cases rest with
      | nil =>
          -- Only a blank line would leave the reader at the start of it.
          have hplace : s.place ≠ .lineStart := by
            intro h
            obtain ⟨hr, hnil⟩ := hread.line h
            exact hline hr hnil
          refine ⟨s, hrun, ?_⟩
          rw [step?_newline hread.outside hplace, endRecord, hread.field, hread.fields, hread.records]
      | cons next rest =>
          obtain ⟨last, hlast, hend⟩ := ih (r := s.endField) (by simp) (.inr rfl) rfl nofun
          refine ⟨last, ?_, ?_⟩
          · rw [joinFields, run?_append hrun, run?_cons (step?_comma hread.outside), hlast]
            simp
          · rw [hend]
            simp [endField, hread.field, hread.fields, hread.records]

theorem run?_recordChars {fields : List (List Char)} (hfields : fields ≠ [])
    (records : List (List (List Char))) :
    (atLine records).run? (recordChars fields) = some (atLine (records ++ [fields])) := by
  unfold recordChars
  by_cases hblank : joinFields fields = []
  · rw [eq_of_joinFields_eq_nil hfields hblank]
    rfl
  · obtain ⟨s, hrun, hend⟩ :=
      exists_run?_joinFields (r := atLine records) hfields (.inl rfl) rfl fun _ => hblank
    dsimp only
    rw [if_neg (by simpa using hblank), run?_append hrun, run?_cons hend]
    rfl

theorem run?_flatMap_recordChars {lines : List (List (List Char))}
    (hlines : ∀ fields ∈ lines, fields ≠ []) (records : List (List (List Char))) :
    (atLine records).run? (lines.flatMap recordChars) = some (atLine (records ++ lines)) := by
  induction lines generalizing records with
  | nil => simp
  | cons fields lines ih =>
      rw [List.forall_mem_cons] at hlines
      rw [List.flatMap_cons, run?_append (run?_recordChars hlines.1 records), ih hlines.2,
        List.append_assoc]
      rfl

end Reader

/-! ## Tables -/

theorem read?_text {t : Tidy.Table} (hheader : t.header ≠ [])
    (hlength : ∀ row ∈ t.rows, row.length = t.header.length) :
    read? (text t) = some (t.header :: t.rows.map (·.map (·.display))) := by
  have hlines : ∀ fields ∈ t.header.map (·.toList) :: t.rows.map (·.map (·.display.toList)),
      fields ≠ [] := by
    have hcolumns := List.length_pos_of_ne_nil hheader
    rw [List.forall_mem_cons, List.forall_mem_map]
    refine ⟨by simpa using hheader, fun row hrow => ?_⟩
    rw [← List.length_pos_iff, List.length_map, hlength row hrow]
    exact hcolumns
  rw [read?, text, String.toList_ofList, Reader.run?_flatMap_recordChars hlines]
  simp [Reader.finish?, Reader.atLine, Function.comp_def]

/-- The table of a result is written. If it has a column then its text is read as its header and its rows,
each value as it is displayed and null as nothing. -/
theorem csv_reads_back (r : CellResult) (cube : Cube) (options : Tidy.Options) (t : Tidy.Table)
    (h : Tidy.Table.ofResult r cube options = .ok t) (hheader : t.header ≠ []) :
    write t = .ok (text t) ∧ Format.csv.render r cube options = .ok (text t) ∧
      read? (text t) = some (t.header :: t.rows.map (·.map (·.display))) ∧
      Scalar.null.display = "" := by
  have hlength : ∀ row ∈ t.rows, row.length = t.header.length := fun _ => Tidy.length_of_mem_rows h
  have hwrite := Tidy.write_eq_ok_iff.2 hlength
  refine ⟨hwrite, ?_, read?_text hheader hlength, rfl⟩
  rw [Format.render, h]
  show (write t).mapError _ = _
  rw [hwrite]
  rfl

/-- A single column whose title has a comma, quotes and the end of a line, with nothing below it. -/
theorem csv_reads_back_title :
    let title := "a,\"b\"\r\n"
    let r : CellResult := ⟨[.ofMembers [.ofMeasure title title title]], .dense [.null], none⟩
    let cube : Cube := ⟨"Sales", .empty, [], [], []⟩
    let options : Tidy.Options := ⟨false, false, [], ⟨[]⟩, false, .everything⟩
    ∃ t, Tidy.Table.ofResult r cube options = .ok t ∧ t.header ≠ [] ∧
      write t = .ok "\"a,\"\"b\"\"\r\n\"\n\"\"\n" ∧
      read? "\"a,\"\"b\"\"\r\n\"\n\"\"\n" = some [[title], [""]] := by
  intro title r cube options
  have hcompute : ((Tidy.Table.ofResult r cube options).toOption.any fun t =>
      decide (t.header = [title] ∧ t.rows = [[.null]] ∧
        text t = "\"a,\"\"b\"\"\r\n\"\n\"\"\n")) = true := by
    decide +kernel
  simp only [Option.any_eq_true, toOption_eq_some_iff, decide_eq_true_eq] at hcompute
  obtain ⟨t, htable, hheader, hrows, htext⟩ := hcompute
  have hcolumns : t.header ≠ [] := by simp [hheader]
  obtain ⟨hwrite, -, hread, -⟩ := csv_reads_back r cube options t htable hcolumns
  rw [htext] at hwrite hread
  refine ⟨t, htable, hcolumns, hwrite, ?_⟩
  rw [hread, hheader, hrows]
  rfl

end CubeQuery.Output.Csv
