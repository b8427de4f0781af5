import KamuCli.Ingest.SystemColumns
import KamuCli.Ingest.Scan

/-! `DataWriterDataFusion`: `stage` prepares a slice and its `AddData` without touching the
dataset, `commit` appends the schema and data blocks and advances the writer's state. -/
namespace KamuCli.Odf.DataWriterMetadataState

/-- The state update after the data block is read back. -/
def advance (meta : DataWriterMetadataState) (newHead : Multihash)
    (e : AddData) : DataWriterMetadataState :=
  let meta := { meta with head := newHead }
  let meta := match e.outputData with
    | some outputData =>
      { meta with
        lastOffset := some outputData.interval.end
        dataSlices := meta.dataSlices ++ [outputData.physicalHash] }
    | none => meta
  { meta with
    lastCheckpoint := e.outputCheckpoint.map (·.physicalHash)
    lastWatermark := e.outputWatermark
    lastSourceState := e.sourceState }

end KamuCli.Odf.DataWriterMetadataState

namespace KamuCli.Ingest
open Arrow Odf

/-- `MergeStrategy::merge` over the previous data and the new batch. -/
abbrev MergeFn := Option DataFrame → DataFrame → Except String DataFrame

/-- `DataWriterDataFusion`: the merge strategy built for its state, and the state. -/
structure DataWriterDataFusion where
  mergeStrategy : MergeFn
  meta : DataWriterMetadataState

/-- `DataWriterDataFusionBuilder::build`; the strategies themselves are not part of this
repository, so `merge_strategy_for` is a parameter. -/
def DataWriterDataFusion.build (mergeStrategyFor : MergeStrategy → DatasetVocabularyResolved → MergeFn)
    (meta : DataWriterMetadataState) : DataWriterDataFusion :=
  ⟨mergeStrategyFor meta.mergeStrategy meta.vocab, meta⟩

/-- `get_all_previous_data`: every slice in `data_slices`, read in reverse order. -/
def getAllPreviousData (ds : Dataset) (prevDataSlices : List Multihash) :
    Except StageDataError (Option DataFrame) :=
  if prevDataSlices.isEmpty then .ok none
  else match prevDataSlices.reverse.mapM ds.dataRepo.lookup with
    | none => .error (.internal "Object not found")
    | some files => match DataFrame.readParquet files with
      | .ok df => .ok (some df)
      | .error e => .error (internalOf e)

/-- `write_output`: executing the plan into the staging file; an empty result leaves no file.
The offsets were computed by wrapping `Int64` arithmetic, so nothing fails here. -/
def writeOutput (df : DataFrame) : Except StageDataError (Option DataFrame) :=
  if 0 < df.rows.length then .ok (some df) else .ok none

/-- The panic of `Option::unwrap` on `None`. -/
def unwrapNone : StageDataError := .panic "called `Option::unwrap()` on a `None` value"

/-- The event time as a `DateTime`, from the max aggregate of the column `col()` finds; a null
aggregate reads as the array's zero value, and an instant chrono cannot represent panics in
the `unwrap`. -/
def eventTimeMax (vocab : DatasetVocabularyResolved) (file : DataFrame) :
    Except StageDataError DateTime :=
  let column := colName vocab.eventTimeColumn
  let max := ((Value.ints (file.column column)).max?).getD 0
  match file.typeOf column with
  | .timestamp .millisecond _ =>
    (DateTime.fromTimestampMillis max).elim (.error (.panic "No such local time")) .ok
  | .date64 => (DateTime.fromTimestampMillis max).elim (.error unwrapNone) .ok
  | .date32 => (DateTime.fromTimestampMillis (max * 86400000)).elim (.error unwrapNone) .ok
  | t => .error (.internal ("Expected event time column to be Date64 or Timestamp(Millisecond, " ++
      "UTC), but got " ++ t.display))

/-- `compute_offset_and_watermark`: offsets and event times read back from the written file by
an aggregate over the columns `col()` finds. -/
def computeOffsetAndWatermark (vocab : DatasetVocabularyResolved) (file : DataFrame)
    (prevWatermark : Option DateTime) : Except StageDataError (OffsetInterval × Option DateTime) :=
  if file.rows.length = 0 then .error (.panic "assertion `left != right` failed")
  else do
    let offsetColumn ← (file.resolveCol vocab.offsetColumn).mapError internalOf
    let _ ← (file.resolveCol vocab.eventTimeColumn).mapError internalOf
    if file.typeOf offsetColumn ≠ .int64 then .error unwrapNone
    else
      let offsets := Value.ints (file.column offsetColumn)
      let offsetInterval : OffsetInterval := ⟨offsets.min?.getD 0, offsets.max?.getD 0⟩
      let eventTimeMax ← eventTimeMax vocab file
      let outputWatermark := match prevWatermark with
        | none => some eventTimeMax
        | some prev => if prev < eventTimeMax then some eventTimeMax else some prev
      .ok (offsetInterval, outputWatermark)

/-- `last_offset.map(|e| e + 1).unwrap_or(0)`; the addition panics past `i64::MAX`. -/
def startOffsetOf (lastOffset : Option Int) : Except StageDataError Int :=
  match lastOffset with
  | some e => match checkedI64 (e + 1) with
    | some s => .ok s
    | none => .error (.panic "attempt to add with overflow")
  | none => .ok 0

namespace DataWriterDataFusion

/-- The staged `AddData`, schema and file: the part of `stage` before the emptiness check. -/
def stageAddData (w : DataWriterDataFusion) (ds : Dataset) (newData : Option DataFrame)
    (opts : WriteDataOpts) : Except StageDataError (AddDataParams × Option Schema × Option DataFrame) :=
  match newData with
  | some newData => do
    validateInput w.meta.vocab newData
    let df := normalizeRawResult newData
    let prev ← getAllPreviousData ds w.meta.dataSlices
    let df ← (w.mergeStrategy prev df).mapError .mergeError
    let startOffset ← startOffsetOf w.meta.lastOffset
    let df ← withSystemColumns w.meta.vocab df opts.systemTime opts.sourceEventTime startOffset
    let outputSchema := df.fields
    validateOutputSchema w.meta.schema outputSchema
    let dataFile ← writeOutput df
    let inputCheckpoint := w.meta.lastCheckpoint
    let sourceState := opts.sourceState
    let prevWatermark := w.meta.lastWatermark
    match dataFile with
    | none => .ok (⟨inputCheckpoint, none, prevWatermark, sourceState⟩, some outputSchema, none)
    | some file => do
      let (offsetInterval, outputWatermark) ←
        computeOffsetAndWatermark w.meta.vocab file prevWatermark
      .ok (⟨inputCheckpoint, some offsetInterval, outputWatermark, sourceState⟩, some outputSchema,
        some file)
  | none => .ok (⟨w.meta.lastCheckpoint, none, w.meta.lastWatermark, opts.sourceState⟩, none, none)

/-- `stage`: read-only; an `AddData` that changes nothing is refused as an empty commit. -/
def stage (w : DataWriterDataFusion) (ds : Dataset) (newData : Option DataFrame)
    (opts : WriteDataOpts) : Except StageDataError StageDataResult := do
  let (addData, outputSchema, dataFile) ← w.stageAddData ds newData opts
  if addData.outputData.isNone ∧ addData.outputWatermark = w.meta.lastWatermark ∧
      opts.sourceState = w.meta.lastSourceState then .error .emptyCommit
  else .ok ⟨opts.systemTime, addData, outputSchema, dataFile⟩

/-- The first half of `commit`: a `SetDataSchema` block when the state has no schema yet and the
staged result has one. -/
def commitSchema (w : DataWriterDataFusion) (ds : Dataset) (staged : StageDataResult)
    (stored : Bool) : Except CommitError (DataWriterDataFusion × Dataset) :=
  match w.meta.schema, staged.outputSchema with
  | none, some outputSchema =>
    match ds.commitEvent (.setDataSchema (.new outputSchema)) staged.systemTime w.meta.head stored with
    | .ok (ds, newHead) =>
      .ok ({ w with meta := { w.meta with head := newHead, schema := some outputSchema } }, ds)
    | .error e => .error e
  | _, _ => .ok (w, ds)

/-- The second half of `commit`: the `AddData` block, read back to advance the state.
`stored` and `read` say whether the block is written and whether it can be read. -/
def commitData (hashOf : DataFrame → Multihash) (w : DataWriterDataFusion) (ds : Dataset)
    (staged : StageDataResult) (oldHead : Multihash) (stored read : Bool) :
    DataWriterDataFusion × Dataset × Except CommitError WriteDataResult :=
  match ds.commitAddData hashOf staged.addData staged.dataFile none staged.systemTime w.meta.head
      stored with
  | .error e => (w, ds, .error e)
  | .ok (ds, newHead) =>
    match (if read then ds.chain.getBlock newHead else none) with
    | none => (w, ds, .error (.internal "Block not found"))
    | some newBlock => match newBlock.event with
      | .addData e => ({ w with meta := w.meta.advance newHead e }, ds, .ok ⟨oldHead, newHead, newBlock⟩)
      | _ => (w, ds, .error (.panic "called `Option::unwrap()` on a `None` value"))

/-- What the storage does during one `commit`. -/
structure CommitEnv where
  schemaStored : Bool
  dataStored : Bool
  blockRead : Bool
  deriving DecidableEq, Repr

/-- `commit`, returning the writer and dataset afterwards with the outcome; a call that fails
after the schema step keeps that step. -/
def commit (hashOf : DataFrame → Multihash) (w : DataWriterDataFusion) (ds : Dataset)
    (staged : StageDataResult) (env : CommitEnv) :
    DataWriterDataFusion × Dataset × Except CommitError WriteDataResult :=
  let oldHead := w.meta.head
  match w.commitSchema ds staged env.schemaStored with
  | .error e => (w, ds, .error e)
  | .ok (w, ds) => w.commitData hashOf ds staged oldHead env.dataStored env.blockRead

/-- `write`: `stage` followed by `commit`. -/
def write (hashOf : DataFrame → Multihash) (w : DataWriterDataFusion) (ds : Dataset)
    (newData : Option DataFrame) (opts : WriteDataOpts) (env : CommitEnv) :
    DataWriterDataFusion × Dataset × Except WriteDataError WriteDataResult :=
  match w.stage ds newData opts with
  | .error e => (w, ds, .error (.ofStage e))
  | .ok staged =>
    let (w, ds, r) := w.commit hashOf ds staged env
    (w, ds, r.mapError .commitError)

end DataWriterDataFusion
end KamuCli.Ingest
