import KamuCli.Ingest.DataWriter

/-! Input validation, timestamp normalization and the system columns the writer adds to every
slice (`validate_input`, `normalize_raw_result`, `with_system_columns`). -/
namespace KamuCli.Ingest
open Arrow Odf

/-- The error `validate_input` raises for a data column named like a system column. -/
def conflictError (df : DataFrame) (systemColumn : String) : StageDataError :=
  .badInputSchema ("Data contains a column that conflicts with the system column name, you " ++
    "should either rename the data column or configure the dataset vocabulary to use a " ++
    "different name: " ++ systemColumn) df.fields

/-- `validate_input`, with its loop over the offset and system time columns unrolled. -/
def validateInput (vocab : DatasetVocabularyResolved) (df : DataFrame) :
    Except StageDataError Unit :=
  if df.hasColumnWithUnqualifiedName vocab.offsetColumn then .error (conflictError df vocab.offsetColumn)
  else if df.hasColumnWithUnqualifiedName vocab.systemTimeColumn then
    .error (conflictError df vocab.systemTimeColumn)
  else match df.fields.find? (·.name == vocab.eventTimeColumn) with
    | some f => match f.dataType with
      | .date32 | .date64 | .timestamp _ _ => .ok ()
      | typ => .error (.badInputSchema ("Event time column '" ++ vocab.eventTimeColumn ++
          "' should be either Date or Timestamp, but found: " ++ typ.display) df.fields)
    | none => .ok ()

/-- The cast `normalize_raw_result` applies to a column type, if any. -/
def normalizeCast : DataType → Option (DataType × (Value → Value))
  | .timestamp .millisecond (some "UTC") => none
  | .timestamp u _ => some (.timestampMillisUtc, fun | .int v => .int (u.toMillis v) | v => v)
  | _ => none

/-- `normalize_raw_result`: every timestamp becomes `Timestamp(Millisecond, "UTC")`. -/
def normalizeRawResult (df : DataFrame) : DataFrame :=
  let noop := df.fields.all fun f => (normalizeCast f.dataType).isNone
  if noop then df else df.castColumns normalizeCast

def internalOf (e : DataFusionError) : StageDataError := .internal e.message

/-- The first steps of `with_system_columns`: the system time column, then the source event
time when the data has no event time column. -/
def withTimesFrame (vocab : DatasetVocabularyResolved) (df : DataFrame)
    (systemTime fallbackEventTime : DateTime) : DataFrame :=
  let df := df.withColumn vocab.systemTimeColumn .timestampMillisUtc
    fun _ _ => .int systemTime.timestampMillis
  if df.hasColumnWithUnqualifiedName vocab.eventTimeColumn then df
  else df.withColumn vocab.eventTimeColumn .timestampMillisUtc
    fun _ _ => .int fallbackEventTime.timestampMillis

/-- `with_column(name, cast(col(c) + lit(shift), Int64))`: the column `col(c)` refers to,
shifted with `Int64`'s wrapping addition; planning refuses a column that is not an integer. -/
def withShiftedColumn (df : DataFrame) (name c : String) (shift : Int) :
    Except DataFusionError DataFrame := do
  let src ← df.resolveCol c
  match df.typeOf src with
  | .int64 | .uint64 => .ok (df.withColumn name .int64 fun _ r =>
      match r src with
      | .int v => .int (wrapI64 (v + shift))
      | _ => .null)
  | t => .error ⟨"Error during planning: Cannot coerce arithmetic expression " ++ t.display ++
      " + Int64 to valid types"⟩

/-- `with_system_columns`: offsets are numbered over the single-partition frame in event-time
order and shifted to start at `startOffset`, with no check on the `Int64` addition; then the
columns are reordered. `col()` looks up the offset and event-time names as SQL reads them. -/
def withSystemColumns (vocab : DatasetVocabularyResolved) (df : DataFrame)
    (systemTime fallbackEventTime : DateTime) (startOffset : Int) :
    Except StageDataError DataFrame := do
  let rawColumnsWoEventTime := df.names.filter (· != vocab.eventTimeColumn)
  let df := withTimesFrame vocab df systemTime fallbackEventTime
  let df ← (df.withRowNumber vocab.offsetColumn vocab.eventTimeColumn).mapError internalOf
  let some shift := checkedI64 (startOffset - 1)
    | .error (.panic "attempt to subtract with overflow")
  let df ← (withShiftedColumn df vocab.offsetColumn vocab.offsetColumn shift).mapError internalOf
  (df.selectColumns ([vocab.offsetColumn, vocab.systemTimeColumn, vocab.eventTimeColumn] ++
    rawColumnsWoEventTime)).mapError internalOf

/-- `validate_output_schema` against the schema of the state. -/
def validateOutputSchema (schema : Option Schema) (newSchema : Schema) :
    Except StageDataError Unit :=
  match schema with
  | some prevSchema =>
    if prevSchema ≠ newSchema then
      .error (.badInputSchema
        "Schema of the new slice differs from the schema defined by SetDataSchema event" newSchema)
    else .ok ()
  | none => .ok ()

/-- The offset column of a slice numbered from `start`: `start, start + 1, …`. -/
def offsetsFrom (start : Int) (n : Nat) : List Value :=
  (List.range n).map fun j : Nat => .int (start + j)

/-- The offset column the writer computes from `start`: `start, start + 1, …` in `Int64`, past
`i64::MAX` wrapping round to `i64::MIN`. -/
def wrappedOffsetsFrom (start : Int) (n : Nat) : List Value :=
  (List.range n).map fun j : Nat => .int (wrapI64 (start + j))

theorem wrappedOffsetsFrom_eq {start : Int} {n : Nat} (h₁ : i64Min ≤ start)
    (h₂ : start + n - 1 ≤ i64Max) : wrappedOffsetsFrom start n = offsetsFrom start n := by
  refine List.map_congr_left fun j hj => ?_
  rw [List.mem_range] at hj
  rw [wrapI64_of_mem (by omega) (by omega)]

/-- The names `with_system_columns` and `compute_offset_and_watermark` look up with `col()`
are ones it takes as written. -/
def ColNamesKept (vocab : DatasetVocabularyResolved) : Prop :=
  colName vocab.offsetColumn = vocab.offsetColumn ∧ colName vocab.eventTimeColumn = vocab.eventTimeColumn

section Annotation
variable (vocab : DatasetVocabularyResolved) (df : DataFrame) (systemTime fallbackEventTime : DateTime)

variable {vocab df}

theorem withTimesFrame_rows_length :
    (withTimesFrame vocab df systemTime fallbackEventTime).rows.length = df.rows.length := by
  simp only [withTimesFrame]
  split <;> simp

theorem withTimesFrame_has_eventTime :
    (withTimesFrame vocab df systemTime fallbackEventTime).hasColumnWithUnqualifiedName
      vocab.eventTimeColumn := by
  simp only [withTimesFrame]
  split
  · assumption
  · simp

theorem withSystemColumns_shift_ok {startOffset : Int} {out : DataFrame}
    (h : withSystemColumns vocab df systemTime fallbackEventTime startOffset = .ok out) :
    checkedI64 (startOffset - 1) = some (startOffset - 1) := by
  cases hc : checkedI64 (startOffset - 1) with
  | none =>
    simp only [withSystemColumns, except_bind_eq_ok] at h
    obtain ⟨_, -, h⟩ := h
    simp [hc] at h
  | some x => rw [(checkedI64_eq_some.mp hc).1]

theorem withShiftedColumn_rows_length {df out : DataFrame} {name c : String} {shift : Int}
    (h : withShiftedColumn df name c shift = .ok out) : out.rows.length = df.rows.length := by
  obtain ⟨src, -, h⟩ := except_bind_eq_ok.mp h
  split at h <;> cases h <;> simp

/-- Whatever the frame and vocabulary, a successful `with_system_columns` keeps the number of
rows. -/
theorem withSystemColumns_rows_length {startOffset : Int} {out : DataFrame}
    (h : withSystemColumns vocab df systemTime fallbackEventTime startOffset = .ok out) :
    out.rows.length = df.rows.length := by
  simp only [withSystemColumns, except_bind_eq_ok] at h
  obtain ⟨df₁, h₁, h⟩ := h
  cases hc : checkedI64 (startOffset - 1) with
  | none => simp [hc] at h
  | some shift =>
    simp only [hc, except_bind_eq_ok] at h
    obtain ⟨df₂, h₂, h⟩ := h
    obtain ⟨-, -, hrows⟩ := DataFrame.selectColumns_ok (except_mapError_eq_ok.mp h)
    rw [hrows, withShiftedColumn_rows_length (except_mapError_eq_ok.mp h₂),
      DataFrame.withRowNumber_rows_length (except_mapError_eq_ok.mp h₁), withTimesFrame_rows_length]

/-- The frame `with_system_columns` selects from: offsets numbered and shifted. -/
def offsetFrame (vocab : DatasetVocabularyResolved) (df : DataFrame)
    (systemTime fallbackEventTime : DateTime) (startOffset : Int) : DataFrame :=
  (((withTimesFrame vocab df systemTime fallbackEventTime).sortRows vocab.eventTimeColumn).withColumn
    vocab.offsetColumn .uint64 fun k _ => .int (k + 1)).withColumn vocab.offsetColumn .int64
    fun _ r => match r vocab.offsetColumn with
      | .int v => .int (wrapI64 (v + (startOffset - 1)))
      | _ => .null

theorem withSystemColumns_eq (startOffset : Int) (hv : ColNamesKept vocab)
    (h : checkedI64 (startOffset - 1) = some (startOffset - 1)) :
    withSystemColumns vocab df systemTime fallbackEventTime startOffset =
      ((offsetFrame vocab df systemTime fallbackEventTime startOffset).selectColumns
        ([vocab.offsetColumn, vocab.systemTimeColumn, vocab.eventTimeColumn] ++
          df.names.filter (· != vocab.eventTimeColumn))).mapError internalOf := by
  have hrn := @DataFrame.withRowNumber_eq_ok _ vocab.offsetColumn _ hv.2
    (@withTimesFrame_has_eventTime vocab df systemTime fallbackEventTime)
  have hsh : withShiftedColumn (((withTimesFrame vocab df systemTime fallbackEventTime).sortRows
      vocab.eventTimeColumn).withColumn vocab.offsetColumn .uint64 fun k _ => .int (k + 1))
      vocab.offsetColumn vocab.offsetColumn (startOffset - 1) =
      .ok (offsetFrame vocab df systemTime fallbackEventTime startOffset) := by
    rw [withShiftedColumn, DataFrame.resolveCol_eq_ok hv.1 (by simp)]
    simp [bind, Except.bind, DataFrame.typeOf_withColumn, offsetFrame]
  simp only [withSystemColumns, hrn, h, hsh, bind, Except.bind, Except.mapError]

theorem offsetFrame_typeOf (startOffset : Int) (c : String) :
    (offsetFrame vocab df systemTime fallbackEventTime startOffset).typeOf c =
      if c = vocab.offsetColumn then .int64
      else (withTimesFrame vocab df systemTime fallbackEventTime).typeOf c := by
  by_cases hc : c = vocab.offsetColumn <;> simp [offsetFrame, DataFrame.typeOf_withColumn, hc]

theorem offsetFrame_rows (startOffset : Int) :
    (offsetFrame vocab df systemTime fallbackEventTime startOffset).rows =
      ((withTimesFrame vocab df systemTime fallbackEventTime).sortRows vocab.eventTimeColumn).rows.mapIdx
        fun j r => Function.update r vocab.offsetColumn (.int (wrapI64 (startOffset + j))) := by
  simp only [offsetFrame, DataFrame.rows_withColumn, List.mapIdx_mapIdx]
  congr 1
  funext j r
  simp only [Function.update_same, Function.update_idem, Function.comp_apply]
  rw [show (j : Int) + 1 + (startOffset - 1) = startOffset + j by omega]

/-- Whatever the frame, under names `col()` keeps a successful `with_system_columns` keeps the
number of rows and numbers them, in order, from `startOffset` in `Int64`. -/
theorem withSystemColumns_offsets {startOffset : Int} {out : DataFrame} (hv : ColNamesKept vocab)
    (h : withSystemColumns vocab df systemTime fallbackEventTime startOffset = .ok out) :
    out.rows.length = df.rows.length ∧
      out.column vocab.offsetColumn = wrappedOffsetsFrom startOffset out.rows.length ∧
      out.typeOf vocab.offsetColumn = .int64 := by
  rw [withSystemColumns_eq systemTime fallbackEventTime startOffset hv
    (withSystemColumns_shift_ok _ _ h)] at h
  obtain ⟨-, hfields, hrows⟩ := DataFrame.selectColumns_ok (except_mapError_eq_ok.mp h)
  refine ⟨?_, ?_, ?_⟩
  · simp [hrows, offsetFrame_rows, DataFrame.sortRows, withTimesFrame_rows_length]
  · rw [DataFrame.column, hrows, offsetFrame_rows]
    exact List.ext_getElem (by simp [wrappedOffsetsFrom])
      (by simp [List.getElem_mapIdx, wrappedOffsetsFrom])
  · show Schema.typeOf out.fields _ = _
    simp [Schema.typeOf, hfields, offsetFrame_typeOf]

/-- Whatever the frame, under names `col()` keeps a successful `with_system_columns` emits its
rows in event-time order, nulls last: numbering the sorted rows leaves the event time alone,
since the projection only goes through when the offset and event time columns differ. -/
theorem withSystemColumns_sorted {startOffset : Int} {out : DataFrame} (hv : ColNamesKept vocab)
    (h : withSystemColumns vocab df systemTime fallbackEventTime startOffset = .ok out) :
    out.rows.Sorted fun a b => (a vocab.eventTimeColumn).ascNullsLast (b vocab.eventTimeColumn) := by
  rw [withSystemColumns_eq systemTime fallbackEventTime startOffset hv
    (withSystemColumns_shift_ok _ _ h)] at h
  obtain ⟨hnd, -, hrows⟩ := DataFrame.selectColumns_ok (except_mapError_eq_ok.mp h)
  have hoe : vocab.eventTimeColumn ≠ vocab.offsetColumn := fun he => by
    rw [he] at hnd
    simp at hnd
  let sorted := (withTimesFrame vocab df systemTime fallbackEventTime).sortRows vocab.eventTimeColumn
  have hkey : (sorted.rows.mapIdx fun j r => Function.update r vocab.offsetColumn
      (.int (wrapI64 (startOffset + j)))).map (· vocab.eventTimeColumn) =
      sorted.rows.map (· vocab.eventTimeColumn) :=
    List.ext_getElem (by simp) (by simp [Function.update_noteq hoe])
  have hs : (sorted.rows.map (· vocab.eventTimeColumn)).Pairwise fun x y => x.ascNullsLast y :=
    List.pairwise_map.mpr (DataFrame.rows_sortRows_sorted _ _)
  rw [← hkey] at hs
  rw [hrows, offsetFrame_rows]
  exact List.pairwise_map.mp hs

end Annotation

end KamuCli.Ingest
