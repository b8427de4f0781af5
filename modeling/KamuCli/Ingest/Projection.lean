import KamuCli.Ingest.Writer

/-! The projection of a chain grown by one block. The scan meets the newest block first, so an
appended block overrides what it carries; `commit`'s in-memory update is this step for the
blocks it appends, except that it lists the new slice last. -/
namespace KamuCli.Odf.Chain
open Arrow Ingest

theorem newest_append {α : Type} (f : MetadataEvent → Option α) (c : Chain) (b : MetadataBlock) :
    newest f (c ++ [b]) = (f b.event).or (newest f c) := by
  simp only [newest, List.reverse_append, List.reverse_singleton, List.singleton_append,
    List.findSome?_cons]
  cases f b.event <;> rfl

theorem dataSlices_append (c : Chain) (b : MetadataBlock) :
    dataSlices (c ++ [b]) = dataSlices c ++ (dataSliceOfEvent b.event).toList := by
  simp only [dataSlices, List.filterMap_append, List.filterMap_cons, List.filterMap_nil]
  cases dataSliceOfEvent b.event <;> rfl

/-- A slice of the chain up to any height is a slice of the chain. -/
theorem mem_dataSlices_of_mem_take {c : Chain} {n : Nat} {d : DataSlice}
    (h : d ∈ dataSlices (c.take n)) : d ∈ dataSlices c :=
  ((List.take_sublist n c).filterMap _).subset h

@[simp] theorem length_head (c : Chain) : c.head = c.length := rfl

/-- The last offset is the end of the newest slice. -/
theorem lastOffset_eq (c : Chain) : c.lastOffset = c.dataSlices.getLast?.map (·.interval.end) := by
  induction c using List.reverseRecOn with
  | nil => rfl
  | append_singleton c b ih =>
    rw [lastOffset, newest_append, ← lastOffset, ih, dataSlices_append]
    cases dataSliceOfEvent b.event <;> simp

theorem projection_append_setDataSchema (c : Chain) (sourceName : Option String) (t : DateTime)
    (p : Option Multihash) (s : Schema) :
    (c ++ [MetadataBlock.mk t p (.setDataSchema (.new s))]).projection sourceName =
      { c.projection sourceName with head := c.length + 1, schema := some s } := by
  simp [projection, schema, lastOffset, lastCheckpoint, lastWatermark, lastSourceState, vocab,
    sourceEvent, newest_append, dataSlices_append, schemaOfEvent, dataSliceOfEvent,
    checkpointOfEvent, watermarkOfEvent, sourceStateOfEvent, vocabOfEvent, sourceOfEvent,
    SetDataSchema.new]

/-- Appending an `AddData` block moves the projection as `commit` moves its state, the new
slice standing first in the scan's newest-first list. -/
theorem projection_append_addData (c : Chain) (sourceName : Option String) (t : DateTime)
    (p : Option Multihash) (e : AddData) :
    (c ++ [MetadataBlock.mk t p (.addData e)]).projection sourceName =
      { (c.projection sourceName).advance (c.length + 1) e with
        dataSlices := (e.outputData.map (·.physicalHash)).toList ++
          (c.projection sourceName).dataSlices } := by
  cases hd : e.outputData <;>
    simp [projection, DataWriterMetadataState.advance, schema, lastOffset, lastCheckpoint,
      lastWatermark, lastSourceState, vocab, sourceEvent, newest_append, dataSlices_append,
      schemaOfEvent, dataSliceOfEvent, checkpointOfEvent, watermarkOfEvent, sourceStateOfEvent,
      vocabOfEvent, sourceOfEvent, hd]

end KamuCli.Odf.Chain

namespace KamuCli.Ingest
open Arrow Odf DataWriterDataFusion

/-- Modelled from the spec: `MergeStrategyAppend` returns the new data unchanged. -/
def appendMerge : MergeFn := fun _ newData => .ok newData

/-- A content hash for concrete runs: a slice is named by its first offset. -/
def firstOffsetHash (f : DataFrame) : Multihash := ((Value.ints (f.column "offset")).headD 0).toNat

/-- A root dataset holding only its seed. -/
def seedDataset : Dataset := ⟨[⟨0, none, .seed ⟨.root⟩⟩], []⟩

/-- The writer built from the scan of the seed, merging by `Append`. -/
def seedWriter : DataWriterDataFusion :=
  build (fun _ _ => appendMerge) (Chain.projection seedDataset.chain none)

/-- A batch of one row in one `Int64` column. -/
def oneRowFrame (v : Int) : DataFrame := ⟨[⟨"v", .int64⟩], [fun _ => .int v], by decide⟩

/-- Storage that accepts every write and every read. -/
def allStored : CommitEnv := ⟨true, true, true⟩

/-- The seed writer writes one row. -/
def firstWrite : DataWriterDataFusion × Dataset × Except WriteDataError WriteDataResult :=
  seedWriter.write firstOffsetHash seedDataset (some (oneRowFrame 1)) ⟨1000000, 1000000, none⟩
    allStored

/-- ... and then a second row. -/
def secondWrite : DataWriterDataFusion × Dataset × Except WriteDataError WriteDataResult :=
  firstWrite.1.write firstOffsetHash firstWrite.2.1 (some (oneRowFrame 2))
    ⟨2000000, 2000000, none⟩ allStored

theorem rescan_lists_slices_in_other_order :
    withMetadataStateScanned seedDataset.chain none = .ok seedWriter.meta ∧
      firstWrite.2.2.isOk ∧ secondWrite.2.2.isOk ∧ secondWrite.1.meta.dataSlices = [0, 1] ∧
      (withMetadataStateScanned secondWrite.2.1.chain none).map (·.dataSlices) = .ok [1, 0] :=
  ⟨rfl, rfl, rfl, rfl, rfl⟩

theorem previous_data_read_newest_first :
    withMetadataStateScanned seedDataset.chain none = .ok seedWriter.meta ∧
      firstWrite.2.2.isOk ∧ secondWrite.2.2.isOk ∧
      secondWrite.1.meta.dataSlices.reverse = [1, 0] ∧
      (Chain.dataSlices secondWrite.2.1.chain).map (·.physicalHash) = [0, 1] ∧
      (match getAllPreviousData secondWrite.2.1 secondWrite.1.meta.dataSlices with
        | .ok (some df) => df.column "offset"
        | _ => []) = [.int 1, .int 0] :=
  ⟨rfl, rfl, rfl, by decide, by decide, by decide⟩

end KamuCli.Ingest
