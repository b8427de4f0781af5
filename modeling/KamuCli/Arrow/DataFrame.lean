import Mathlib.Data.List.Sort
import Mathlib.Data.String.Basic

/-! The Arrow schemas and DataFusion frames the writer builds slices with. A frame is an
evaluated logical plan: uniquely named typed fields over rows with one cell per field. -/
namespace KamuCli.Arrow

/-- Arrow's `TimeUnit`. -/
inductive TimeUnit
  | second | millisecond | microsecond | nanosecond
  deriving DecidableEq, Repr

/-- Arrow's cast of timestamp ticks to milliseconds: coarser units multiply, finer ones
divide, truncating toward zero. -/
def TimeUnit.toMillis : TimeUnit → Int → Int
  | .second, v => v * 1000
  | .millisecond, v => v
  | .microsecond, v => v.tdiv 1000
  | .nanosecond, v => v.tdiv 1000000

def TimeUnit.display : TimeUnit → String
  | .second => "Second"
  | .millisecond => "Millisecond"
  | .microsecond => "Microsecond"
  | .nanosecond => "Nanosecond"

/-- The Arrow data types the writer inspects; any other type is `other`. -/
inductive DataType
  | int64 | uint64 | utf8 | date32 | date64
  | timestamp (unit : TimeUnit) (tz : Option String)
  | other (name : String)
  deriving DecidableEq, Repr

/-- Arrow's `Display` of a data type, which is its `Debug` form. -/
def DataType.display : DataType → String
  | .int64 => "Int64"
  | .uint64 => "UInt64"
  | .utf8 => "Utf8"
  | .date32 => "Date32"
  | .date64 => "Date64"
  | .timestamp u none => "Timestamp(" ++ u.display ++ ", None)"
  | .timestamp u (some tz) => "Timestamp(" ++ u.display ++ ", Some(\"" ++ tz ++ "\"))"
  | .other name => name

/-- `Timestamp(Millisecond, "UTC")`, the one timestamp type written slices hold. -/
def DataType.timestampMillisUtc : DataType := .timestamp .millisecond (some "UTC")

structure Field where
  name : String
  dataType : DataType
  deriving DecidableEq, Repr

abbrev Schema := List Field

/-- The type of the first field of that name (`other ""` when there is none). -/
def Schema.typeOf (fs : Schema) (name : String) : DataType :=
  ((fs.find? (·.name == name)).map Field.dataType).getD (.other "")

/-- A cell: timestamps and dates hold their integer ticks. -/
inductive Value
  | null
  | int (v : Int)
  | utf8 (s : String)
  deriving DecidableEq, Repr

/-- A row maps column names to cells; only the frame's own fields are ever read. -/
abbrev Row := String → Value

/-- `ASC NULLS LAST` on cells; nulls sort after everything else. -/
def Value.ascNullsLast : Value → Value → Bool
  | _, .null => true
  | .null, _ => false
  | .int a, .int b => decide (a ≤ b)
  | .int _, .utf8 _ => true
  | .utf8 _, .int _ => false
  | .utf8 a, .utf8 b => decide (a ≤ b)

theorem Value.ascNullsLast_total (a b : Value) : a.ascNullsLast b || b.ascNullsLast a := by
  cases a <;> cases b <;> simp [ascNullsLast, le_total]

theorem Value.ascNullsLast_trans {a b c : Value} (h₁ : a.ascNullsLast b) (h₂ : b.ascNullsLast c) :
    a.ascNullsLast c := by
  cases a <;> cases b <;> cases c <;> simp_all [ascNullsLast] <;> exact le_trans h₁ h₂

/-- Integer cells of a column, nulls skipped, as Arrow's `min`/`max` aggregates read them. -/
def Value.ints (vs : List Value) : List Int :=
  vs.filterMap fun | .int v => some v | _ => none

/-- Whether SQL reads a name as one unquoted identifier: an ASCII letter or `_`, then ASCII
letters, digits and `_`. -/
def isPlainIdentifier (name : String) : Bool :=
  match name.data with
  | [] => false
  | c :: cs => (c.isAlpha || c == '_') && cs.all fun c => c.isAlphanum || c == '_'

/-- Rust's `str::to_ascii_lowercase`. -/
def toAsciiLowercase (s : String) : String := ⟨s.data.map Char.toLower⟩

/-- The name `col(&str)` looks up: `Column::from_qualified_name` parses the text as a SQL
identifier and folds an unquoted one to lower case. Other names are looked up as written, as
for a name the parser rejects; dotted and quoted names are not followed further. -/
def colName (name : String) : String :=
  if isPlainIdentifier name then toAsciiLowercase name else name

/-- DataFusion's planning and execution errors, which the writer wraps as internal. -/
structure DataFusionError where
  message : String
  deriving DecidableEq, Repr

structure DataFrame where
  fields : Schema
  rows : List Row
  names_nodup : (fields.map Field.name).Nodup

namespace DataFrame

def names (df : DataFrame) : List String := df.fields.map Field.name

def hasColumnWithUnqualifiedName (df : DataFrame) (name : String) : Bool :=
  df.fields.any (·.name == name)

/-- The cells of one column, in row order. -/
def column (df : DataFrame) (name : String) : List Value :=
  df.rows.map (· name)

def typeOf (df : DataFrame) (name : String) : DataType := Schema.typeOf df.fields name

private theorem names_replace (fs : Schema) (name : String) (ty : DataType) :
    (fs.map fun f => if f.name = name then Field.mk name ty else f).map Field.name =
      fs.map Field.name := by
  simp only [List.map_map]
  congr 1
  funext f
  by_cases h : f.name = name <;> simp [h]

private theorem names_append {fs : Schema} {name : String} (ty : DataType)
    (h : ¬ fs.any (·.name == name)) (hn : (fs.map Field.name).Nodup) :
    ((fs ++ [Field.mk name ty]).map Field.name).Nodup := by
  simp only [List.any_eq_true, beq_iff_eq, not_exists, not_and] at h
  simpa [List.nodup_append, hn] using fun f hf => h f hf

/-- DataFusion's `with_column`: the field of that name is replaced in place, or a new one is
appended. `cell` gives the new cell from the row's position and the row. -/
def withColumn (df : DataFrame) (name : String) (ty : DataType) (cell : Nat → Row → Value) :
    DataFrame where
  fields := if df.hasColumnWithUnqualifiedName name
    then df.fields.map fun f => if f.name = name then Field.mk name ty else f
    else df.fields ++ [Field.mk name ty]
  rows := df.rows.mapIdx fun k r => Function.update r name (cell k r)
  names_nodup := by
    split
    · exact (names_replace df.fields name ty).symm ▸ df.names_nodup
    · exact names_append ty ‹_› df.names_nodup

/-- Rows in `ORDER BY c ASC NULLS LAST` order; insertion sort keeps ties in input order. -/
def sortRows (df : DataFrame) (c : String) : DataFrame :=
  { df with rows := df.rows.insertionSort fun a b => (a c).ascNullsLast (b c) }

/-- The field `col(name)` refers to, which planning requires the frame to have. -/
def resolveCol (df : DataFrame) (name : String) : Except DataFusionError String :=
  if df.hasColumnWithUnqualifiedName (colName name) then .ok (colName name)
  else .error ⟨"Schema error: No field named " ++ colName name⟩

/-- `with_column(name, ROW_NUMBER() OVER (ORDER BY col(c) ASC NULLS LAST))` on one partition:
the window emits its input sorted and numbered from one. -/
def withRowNumber (df : DataFrame) (name c : String) : Except DataFusionError DataFrame :=
  (df.resolveCol c).map fun key => (df.sortRows key).withColumn name .uint64 fun k _ => .int (k + 1)

/-- DataFusion's `select_columns`: every name must resolve, and a projection's names must
be unique. -/
def selectColumns (df : DataFrame) (columns : List String) : Except DataFusionError DataFrame :=
  if columns.all df.hasColumnWithUnqualifiedName then
    if h : columns.Nodup then
      .ok { fields := columns.map fun c => Field.mk c (df.typeOf c)
            rows := df.rows
            names_nodup := by simpa [List.map_map, Function.comp_def] using h }
    else .error ⟨"Error during planning: Projections require unique expression names"⟩
  else .error ⟨"Schema error: No field named " ++ String.intercalate ", " columns⟩

private theorem names_cast (fs : Schema) (conv : DataType → Option (DataType × (Value → Value))) :
    (fs.map fun f => match conv f.dataType with
      | some (ty, _) => Field.mk f.name ty
      | none => f).map Field.name = fs.map Field.name := by
  simp only [List.map_map]
  congr 1
  funext f
  simp only [Function.comp_apply]
  split <;> rfl

/-- A projection keeping every column under its own name; `conv` may retype a column and
convert its cells. -/
def castColumns (df : DataFrame) (conv : DataType → Option (DataType × (Value → Value))) :
    DataFrame where
  fields := df.fields.map fun f => match conv f.dataType with
    | some (ty, _) => Field.mk f.name ty
    | none => f
  rows := df.rows.map fun r c =>
    match df.hasColumnWithUnqualifiedName c, conv (df.typeOf c) with
    | true, some (_, g) => g (r c)
    | _, _ => r c
  names_nodup := (names_cast df.fields conv).symm ▸ df.names_nodup

/-- Reading several Parquet files as one table: their rows in file order, under the schema
they share. -/
def readParquet : List DataFrame → Except DataFusionError DataFrame
  | [] => .error ⟨"Error during planning: No files found"⟩
  | f :: fs =>
    if fs.all (·.fields = f.fields) then .ok { f with rows := (f :: fs).flatMap (·.rows) }
    else .error ⟨"Error during planning: Mismatched schemas across files"⟩

theorem hasColumn_iff (df : DataFrame) (c : String) :
    df.hasColumnWithUnqualifiedName c ↔ c ∈ df.names := by
  simp only [hasColumnWithUnqualifiedName, names, List.any_eq_true, beq_iff_eq, List.mem_map]

theorem fields_withColumn_of_not_has {df : DataFrame} {name : String} (ty : DataType)
    (cell : Nat → Row → Value) (h : df.hasColumnWithUnqualifiedName name = false) :
    (df.withColumn name ty cell).fields = df.fields ++ [Field.mk name ty] := by
  simp [withColumn, h]

theorem fields_withColumn_of_has {df : DataFrame} {name : String} (ty : DataType)
    (cell : Nat → Row → Value) (h : df.hasColumnWithUnqualifiedName name = true) :
    (df.withColumn name ty cell).fields =
      df.fields.map fun f => if f.name = name then Field.mk name ty else f := by
  simp [withColumn, h]

@[simp] theorem names_withColumn (df : DataFrame) (name : String) (ty : DataType)
    (cell : Nat → Row → Value) :
    (df.withColumn name ty cell).names =
      if name ∈ df.names then df.names else df.names ++ [name] := by
  by_cases h : df.hasColumnWithUnqualifiedName name = true
  · rw [if_pos ((hasColumn_iff df name).mp h), names, fields_withColumn_of_has ty cell h,
      names_replace]; rfl
  · rw [if_neg (mt (hasColumn_iff df name).mpr h), names,
      fields_withColumn_of_not_has ty cell (by simpa using h)]
    simp [names]

@[simp] theorem hasColumn_withColumn (df : DataFrame) (name c : String) (ty : DataType)
    (cell : Nat → Row → Value) :
    (df.withColumn name ty cell).hasColumnWithUnqualifiedName c =
      (c == name || df.hasColumnWithUnqualifiedName c) := by
  rw [Bool.eq_iff_iff, hasColumn_iff, names_withColumn]
  by_cases h : name ∈ df.names <;> by_cases hc : c = name <;> simp_all [hasColumn_iff]

@[simp] theorem rows_withColumn (df : DataFrame) (name : String) (ty : DataType)
    (cell : Nat → Row → Value) :
    (df.withColumn name ty cell).rows = df.rows.mapIdx fun k r => Function.update r name (cell k r) :=
  rfl

private theorem typeOf_replace_ne (fs : Schema) {n c : String} (ty : DataType) (hc : c ≠ n) :
    Schema.typeOf (fs.map fun f => if f.name = n then Field.mk n ty else f) c = Schema.typeOf fs c := by
  induction fs with
  | nil => rfl
  | cons f fs ih =>
    by_cases hf : f.name = n
    · simpa [Schema.typeOf, hf, Ne.symm hc, List.find?_cons] using ih
    · by_cases hfc : f.name = c
      · simp [Schema.typeOf, hf, hfc, hc, List.find?_cons]
      · simpa [Schema.typeOf, hf, hfc, List.find?_cons] using ih

private theorem typeOf_replace_self (fs : Schema) {n : String} (ty : DataType)
    (h : n ∈ fs.map Field.name) :
    Schema.typeOf (fs.map fun f => if f.name = n then Field.mk n ty else f) n = ty := by
  induction fs with
  | nil => simp at h
  | cons f fs ih =>
    by_cases hf : f.name = n
    · simp [Schema.typeOf, hf, List.find?_cons]
    · simpa [Schema.typeOf, hf, List.find?_cons] using ih (by simpa [Ne.symm hf] using h)

private theorem typeOf_append (fs : Schema) {n c : String} (ty : DataType)
    (h : n ∉ fs.map Field.name) :
    Schema.typeOf (fs ++ [Field.mk n ty]) c = if c = n then ty else Schema.typeOf fs c := by
  induction fs with
  | nil =>
    by_cases hc : c = n
    · simp [Schema.typeOf, hc]
    · simp [Schema.typeOf, hc, Ne.symm hc]
  | cons f fs ih =>
    simp only [List.map_cons, List.mem_cons, not_or] at h
    by_cases hfc : f.name = c
    · have : c ≠ n := fun hc => h.1 (hfc.trans hc).symm
      simp [Schema.typeOf, hfc, this, List.find?_cons]
    · simpa [Schema.typeOf, hfc, List.find?_cons] using ih h.2

theorem typeOf_withColumn (df : DataFrame) (name c : String) (ty : DataType)
    (cell : Nat → Row → Value) :
    (df.withColumn name ty cell).typeOf c = if c = name then ty else df.typeOf c := by
  by_cases h : df.hasColumnWithUnqualifiedName name = true
  · rw [typeOf, fields_withColumn_of_has ty cell h]
    by_cases hc : c = name
    · subst hc; simpa using typeOf_replace_self df.fields ty ((hasColumn_iff df c).mp h)
    · simpa [hc] using typeOf_replace_ne df.fields ty hc
  · rw [typeOf, fields_withColumn_of_not_has ty cell (by simpa using h),
      typeOf_append df.fields ty (mt (hasColumn_iff df name).mpr h)]
    rfl

@[simp] theorem fields_sortRows (df : DataFrame) (c : String) : (df.sortRows c).fields = df.fields :=
  rfl

@[simp] theorem hasColumn_sortRows (df : DataFrame) (c n : String) :
    (df.sortRows c).hasColumnWithUnqualifiedName n = df.hasColumnWithUnqualifiedName n :=
  rfl

@[simp] theorem typeOf_sortRows (df : DataFrame) (c n : String) :
    (df.sortRows c).typeOf n = df.typeOf n :=
  rfl

/-- The sorted rows are in `ASC NULLS LAST` order of the key column. -/
theorem rows_sortRows_sorted (df : DataFrame) (c : String) :
    (df.sortRows c).rows.Sorted fun a b => (a c).ascNullsLast (b c) := by
  have htot : IsTotal Row fun a b => (a c).ascNullsLast (b c) :=
    ⟨fun a b => by simpa using Value.ascNullsLast_total (a c) (b c)⟩
  have htr : IsTrans Row fun a b => (a c).ascNullsLast (b c) :=
    ⟨fun _ _ _ => Value.ascNullsLast_trans⟩
  exact List.sorted_insertionSort _ _

theorem resolveCol_eq_ok {df : DataFrame} {name : String} (hc : colName name = name)
    (h : df.hasColumnWithUnqualifiedName name) : df.resolveCol name = .ok name := by
  simp [resolveCol, hc, h]

theorem resolveCol_ok {df : DataFrame} {name c : String} (h : df.resolveCol name = .ok c) :
    c = colName name ∧ df.hasColumnWithUnqualifiedName c := by
  unfold resolveCol at h
  split at h
  · cases h; exact ⟨rfl, ‹_›⟩
  · cases h

theorem withRowNumber_eq_ok {df : DataFrame} {name c : String} (hc : colName c = c)
    (h : df.hasColumnWithUnqualifiedName c) :
    df.withRowNumber name c = .ok ((df.sortRows c).withColumn name .uint64 fun k _ => .int (k + 1)) := by
  simp [withRowNumber, resolveCol_eq_ok hc h, Except.map]

theorem withRowNumber_rows_length {df out : DataFrame} {name c : String}
    (h : df.withRowNumber name c = .ok out) : out.rows.length = df.rows.length := by
  unfold withRowNumber at h
  cases hc : df.resolveCol c <;> simp only [hc, Except.map, Except.ok.injEq, reduceCtorEq] at h
  subst h
  simp [sortRows]

theorem selectColumns_ok {df out : DataFrame} {columns : List String}
    (h : df.selectColumns columns = .ok out) :
    columns.Nodup ∧ out.fields = columns.map (fun c => Field.mk c (df.typeOf c)) ∧ out.rows = df.rows := by
  unfold selectColumns at h
  split at h
  · split at h
    · cases h; exact ⟨‹_›, rfl, rfl⟩
    · cases h
  · cases h

end DataFrame
end KamuCli.Arrow
