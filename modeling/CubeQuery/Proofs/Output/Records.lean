import CubeQuery.Cube.Naming
import CubeQuery.Output.Records
import CubeQuery.Proofs.NameMap
import CubeQuery.Proofs.Tidy.Keyed

/-!
# Records read as objects

A record has a field for every column, but an object that is read has one value for each name. The
titles of columns come from levels, properties and measures and may be the same, so a column is lost
where another one of its title shows something else (`records_keep_columns_iff`).
-/

namespace CubeQuery.Output.Records

open Tidy

/-- What is read of the record of a row: one value for each title, the last one. -/
def readRecord (header : List String) (row : List Scalar) : NameMap Json :=
  NameMap.ofList (recordFields header row)

/-- Every value of every row is read under the title of its column. -/
def KeepsColumns (t : Table) : Prop :=
  ∀ row ∈ t.rows, ∀ (j : Nat) (title : String) (value : Scalar), t.header[j]? = some title →
    row[j]? = some value → (readRecord t.header row).find? title = some value.json

/-! ## Reading -/

theorem settled_scalar (s : Scalar) : s.json.settled = s.json := by
  cases s <;> simp [Scalar.json, Json.settled]

theorem settledFields_recordFields (header : List String) (row : List Scalar) :
    Json.settledFields (recordFields header row) = recordFields header row := by
  unfold recordFields
  induction header generalizing row with
  | nil => simp [Json.settledFields]
  | cons title header ih =>
      cases row with
      | nil => simp [Json.settledFields]
      | cons s row => simp [Json.settledFields, settled_scalar, ih]

/-- Where of several fields with one name the last is left, each row is left with its record. -/
theorem settled_json (t : Table) :
    (json t).settled =
      .obj [("data", .arr (t.rows.map fun row => .obj (readRecord t.header row).entries))] := by
  have hrows : ∀ rows : List (List Scalar),
      Json.settledItems (rows.map fun row => .obj (recordFields t.header row)) =
        rows.map fun row => .obj (readRecord t.header row).entries := by
    intro rows
    induction rows with
    | nil => rfl
    | cons row rows ih =>
        rw [List.map_cons, List.map_cons, Json.settledItems, ih, Json.settled,
          settledFields_recordFields]
        rfl
  rw [json, Json.settled, Json.settledFields, Json.settledFields, Json.settled, hrows]
  rfl

/-! ## Columns of one title -/

theorem mem_recordFields {header : List String} {row : List Scalar} {pair : String × Json} :
    pair ∈ recordFields header row ↔
      ∃ (j : Nat) (title : String) (value : Scalar), header[j]? = some title ∧ row[j]? = some value ∧
        (title, value.json) = pair := by
  rw [List.mem_iff_getElem?]
  refine exists_congr fun j => ?_
  rw [recordFields, List.getElem?_zip_eq_some, List.getElem?_map, Option.map_eq_some_iff]
  constructor
  · intro h
    obtain ⟨htitle, value, hvalue, hjson⟩ := h
    exact ⟨pair.1, value, htitle, hvalue, Prod.ext rfl hjson⟩
  · intro h
    obtain ⟨title, value, htitle, hvalue, rfl⟩ := h
    exact ⟨htitle, value, hvalue, rfl⟩

theorem keepsColumns_iff {t : Table} :
    KeepsColumns t ↔ ∀ row ∈ t.rows, ∀ pair ∈ recordFields t.header row,
      ∀ other ∈ recordFields t.header row, pair.1 = other.1 → pair.2 = other.2 := by
  refine forall₂_congr fun row _ => ?_
  rw [← NameMap.find?_ofList_eq_some_iff]
  constructor
  · intro h pair hpair
    obtain ⟨j, title, value, htitle, hvalue, rfl⟩ := mem_recordFields.1 hpair
    exact h j title value htitle hvalue
  · intro h j title value htitle hvalue
    exact h _ (mem_recordFields.2 ⟨j, title, value, htitle, hvalue, rfl⟩)

theorem recordFields_map {α : Type} (title : α → String) (value : α → Scalar) (columns : List α) :
    recordFields (columns.map title) (columns.map value) =
      columns.map fun c => (title c, (value c).json) := by
  rw [recordFields, List.map_map, List.zip_map']
  rfl

/-- Read as objects, the records of a table are left with one value for each title. Each value of each
row is read under the title of its column exactly if columns of one title show the same in every row;
so it is where all titles differ. -/
theorem records_keep_columns_iff (r : CellResult) (cube : Cube) (options : Options) (t : Table)
    (h : Table.ofResult r cube options = .ok t) :
    (json t).settled =
        .obj [("data", .arr (t.rows.map fun row => .obj (readRecord t.header row).entries))] ∧
      (∃ cs, columns r cube options = .ok cs ∧ t.header = cs.map (·.title) ∧
        (KeepsColumns t ↔ ∀ ordinals ∈ shownOrdinals r options, ∀ c ∈ cs, ∀ other ∈ cs,
          c.title = other.title →
            c.value r options.captions ordinals = other.value r options.captions ordinals)) ∧
      (t.header.Nodup → KeepsColumns t) := by
  obtain ⟨cs, hcs, rfl⟩ := ofResult_eq_ok.1 h
  have hiff : KeepsColumns ⟨cs.map (·.title), columnRows r options cs,
        if options.debug then r.mdx else none⟩ ↔
      ∀ ordinals ∈ shownOrdinals r options, ∀ c ∈ cs, ∀ other ∈ cs, c.title = other.title →
        c.value r options.captions ordinals = other.value r options.captions ordinals := by
    rw [keepsColumns_iff]
    dsimp only
    rw [columnRows, List.forall_mem_map]
    refine forall₂_congr fun ordinals _ => ?_
    rw [recordFields_map, List.forall_mem_map]
    refine forall₂_congr fun c _ => ?_
    rw [List.forall_mem_map]
    refine forall₂_congr fun other _ => imp_congr_right fun _ => ⟨Scalar.json_inj, fun hvalue => ?_⟩
    rw [hvalue]
  refine ⟨settled_json _, ⟨cs, hcs, rfl, hiff⟩, fun hnodup => hiff.2 ?_⟩
  intro ordinals _ c hc other hother htitle
  rw [List.inj_on_of_nodup_map hnodup hc hother htitle]

def yearsCube : Cube :=
  let level (name : String) : Level := ⟨name, "", "", 0, []⟩
  Cube.completed ⟨"Sales", .empty, [⟨"Time", "", .time, .empty,
    [⟨"Time", "", false, none, [level "Year"]⟩,
      ⟨"Weekly", "", true, some "All Weeks", [level "(All)", level "Year"]⟩]⟩], [], []⟩

def yearAxis (hierarchy name : String) (depth : Nat) (year : Int) : ResultAxis :=
  .ofMembers [{ Member.ofMeasure name name name with
    key := .int year, depth, level := ⟨"Time", hierarchy, "Year"⟩ }]

def yearsResult (years : List ResultAxis) : CellResult :=
  ⟨.ofMembers [.ofMeasure "Units" "[Measures].[Units]" "Units"] :: years, .dense [.int 10], none⟩

def yearsOptions : Options := ⟨false, false, [], ⟨[]⟩, false, .everything⟩

/-- With the years of one hierarchy all titles differ, and the key of the year is read. -/
theorem records_keep_columns_iff_year :
    let r := yearsResult [yearAxis "Time" "1997" 0 1997]
    let row : List Scalar := [.int 1997, .text "1997", .int 10]
    ∃ t, Table.ofResult r yearsCube yearsOptions = .ok t ∧ t.header = ["ID Year", "Year", "Units"] ∧
      t.rows = [row] ∧ KeepsColumns t ∧
      (readRecord t.header row).find? "ID Year" = some (.int 1997) := by
  intro r row
  have hcompute : ((Table.ofResult r yearsCube yearsOptions).toOption.any fun t =>
      decide (t.header = ["ID Year", "Year", "Units"] ∧ t.rows = [row])) = true := by
    decide +kernel
  simp only [Option.any_eq_true, toOption_eq_some_iff, decide_eq_true_eq] at hcompute
  obtain ⟨t, htable, hheader, hrows⟩ := hcompute
  obtain ⟨-, -, hkeeps⟩ := records_keep_columns_iff r yearsCube yearsOptions t htable
  have hall : KeepsColumns t := by
    apply hkeeps
    rw [hheader]
    decide
  have hread := hall row (by simp [hrows]) 0 "ID Year" (.int 1997) (by rw [hheader]; rfl) rfl
  exact ⟨t, htable, hheader, hrows, hall, hread⟩

/-- With the years of both hierarchies two columns have the title of the keys, and only the second one
is read. -/
theorem not_keepsColumns_of_two_hierarchies :
    let r := yearsResult [yearAxis "Time" "1997" 0 1997, yearAxis "Weekly" "1998" 1 1998]
    let row : List Scalar := [.int 1997, .text "1997", .int 1998, .text "1998", .int 10]
    ∃ t, Table.ofResult r yearsCube yearsOptions = .ok t ∧
      t.header = ["ID Year", "Year", "ID Year", "Year", "Units"] ∧ t.rows = [row] ∧
      (readRecord t.header row).find? "ID Year" = some (.int 1998) ∧ ¬ KeepsColumns t := by
  intro r row
  have hcompute : ((Table.ofResult r yearsCube yearsOptions).toOption.any fun t =>
      decide (t.header = ["ID Year", "Year", "ID Year", "Year", "Units"] ∧ t.rows = [row])) = true := by
    decide +kernel
  simp only [Option.any_eq_true, toOption_eq_some_iff, decide_eq_true_eq] at hcompute
  obtain ⟨t, htable, hheader, hrows⟩ := hcompute
  have hread : (readRecord t.header row).find? "ID Year" = some (.int 1998) := by
    rw [hheader, readRecord, NameMap.find?_ofList]
    rfl
  refine ⟨t, htable, hheader, hrows, hread, fun hkeeps => ?_⟩
  have hfirst := hkeeps row (by simp [hrows]) 0 "ID Year" (.int 1997) (by rw [hheader]; rfl) rfl
  rw [hread] at hfirst
  cases hfirst

end CubeQuery.Output.Records
