import KamuCli.Ingest.Stage
import KamuCli.Ingest.Projection

/-! `commit` against the chain: the schema and data blocks are each guarded by the head the
writer holds, and only a data block read back advances the writer's state. A result staged
earlier carries no head of its own. -/
namespace KamuCli.Ingest
open Arrow Odf

theorem Dataset.commitEvent_eq_ok {ds ds' : Dataset} {event : MetadataEvent}
    {systemTime : DateTime} {prevBlockHash newHead : Multihash} {stored : Bool} :
    ds.commitEvent event systemTime prevBlockHash stored = .ok (ds', newHead) ↔
      prevBlockHash = ds.chain.head ∧ stored = true ∧
        ds' = { ds with chain := ds.chain ++ [⟨systemTime, some prevBlockHash, event⟩] } ∧
        newHead = ds.chain.head + 1 := by
  unfold Dataset.commitEvent
  split_ifs with h₁ h₂ <;> simp_all [eq_comm]

theorem Dataset.commitEvent_error {ds : Dataset} {event : MetadataEvent} {systemTime : DateTime}
    {prevBlockHash : Multihash} {stored : Bool} {e : CommitError}
    (h : ds.commitEvent event systemTime prevBlockHash stored = .error e) :
    e = .refCasFailed ∨ e = .storageFailed := by
  unfold Dataset.commitEvent at h
  split_ifs at h <;> cases h <;> simp

/-- The `AddData` block `commit` appends for a staged result on top of `prev`. -/
def dataBlock (hashOf : DataFrame → Multihash) (staged : StageDataResult) (prev : Multihash) :
    MetadataBlock :=
  ⟨staged.systemTime, some prev, .addData (addDataEvent hashOf staged.addData staged.dataFile none)⟩

/-- The dataset after the data block of `staged` is appended on top of `prev`. -/
def Dataset.withDataBlock (ds : Dataset) (hashOf : DataFrame → Multihash)
    (staged : StageDataResult) (prev : Multihash) : Dataset :=
  ⟨ds.chain ++ [dataBlock hashOf staged prev],
    ds.dataRepo ++ staged.dataFile.toList.map fun f => (hashOf f, f)⟩

namespace DataWriterDataFusion
variable {hashOf : DataFrame → Multihash} {w w' : DataWriterDataFusion} {ds ds' : Dataset}
  {staged : StageDataResult}

/-- The data half of `commit`: refused unless the writer's head is the chain's and the write
goes through; the block is then appended, and only if it is read back does the state advance. -/
theorem commitData_eq (oldHead : Multihash) (stored read : Bool) :
    w.commitData hashOf ds staged oldHead stored read =
      if w.meta.head = ds.chain.head ∧ stored then
        if read then
          ({ w with
              meta := (w.meta.advance (ds.chain.head + 1)
                (addDataEvent hashOf staged.addData staged.dataFile none)) },
            ds.withDataBlock hashOf staged w.meta.head,
            .ok ⟨oldHead, ds.chain.head + 1, dataBlock hashOf staged w.meta.head⟩)
        else (w, ds.withDataBlock hashOf staged w.meta.head, .error (.internal "Block not found"))
      else (w, ds, .error (if w.meta.head = ds.chain.head then .storageFailed else .refCasFailed)) := by
  unfold commitData Dataset.commitAddData Dataset.commitEvent
  by_cases hh : w.meta.head = ds.chain.length <;> cases stored <;> cases read <;>
    simp [hh, Chain.getBlock, Dataset.withDataBlock, dataBlock]

/-- The schema half of `commit`: nothing to do when the state has a schema or the result has
none; otherwise a `SetDataSchema` block on top of the writer's head. -/
theorem commitSchema_ok {stored : Bool} (h : w.commitSchema ds staged stored = .ok (w', ds')) :
    (w' = w ∧ ds' = ds ∧ (w.meta.schema.isSome ∨ staged.outputSchema = none)) ∨
    ∃ s, w.meta.schema = none ∧ staged.outputSchema = some s ∧ w.meta.head = ds.chain.head ∧
      w' = { w with meta := { w.meta with head := ds.chain.head + 1, schema := some s } } ∧
      ds' = { ds with chain :=
        ds.chain ++ [⟨staged.systemTime, some w.meta.head, .setDataSchema (.new s)⟩] } := by
  cases hs : w.meta.schema <;> cases ho : staged.outputSchema <;>
    simp only [commitSchema, hs, ho, Prod.mk.injEq, Except.ok.injEq] at h
  · exact .inl ⟨h.1.symm, h.2.symm, by simp⟩
  · rename_i s
    split at h
    · rename_i ds₁ newHead hc
      obtain ⟨hh, -, rfl, rfl⟩ := Dataset.commitEvent_eq_ok.mp hc
      cases h
      exact .inr ⟨s, rfl, rfl, hh, rfl, rfl⟩
    · cases h
  all_goals exact .inl ⟨h.1.symm, h.2.symm, by simp⟩

theorem commitSchema_error {stored : Bool} {e : CommitError}
    (h : w.commitSchema ds staged stored = .error e) : e = .refCasFailed ∨ e = .storageFailed := by
  unfold commitSchema at h
  split at h
  · split at h
    · cases h
    · cases h; exact Dataset.commitEvent_error ‹_›
  · cases h

/-- Two results staged from one state and committed in turn both pass the head check: the second
is numbered over the offsets the first already took. -/
theorem stale_result_commits_over_taken_offsets :
    ∃ rA rB, seedWriter.stage seedDataset (some (oneRowFrame 1)) ⟨1000000, 1000000, none⟩ = .ok rA ∧
      seedWriter.stage seedDataset (some (oneRowFrame 2)) ⟨2000000, 2000000, none⟩ = .ok rB ∧
      let a := seedWriter.commit firstOffsetHash seedDataset rA allStored
      let b := a.1.commit firstOffsetHash a.2.1 rB allStored
      a.2.2.isOk ∧ b.2.2.isOk ∧
        (Chain.dataSlices b.2.1.chain).map (·.interval) = [⟨0, 0⟩, ⟨0, 0⟩] :=
  ⟨_, _, rfl, rfl, by decide⟩

/-- A successful `write` staged a result and committed it, and the state records the committed
watermark and source state. -/
theorem write_ok {newData : Option DataFrame} {opts : WriteDataOpts} {env : CommitEnv}
    {res : WriteDataResult} (h : w.write hashOf ds newData opts env = (w', ds', .ok res)) :
    ∃ r, w.stage ds newData opts = .ok r ∧ w'.meta.lastWatermark = r.addData.outputWatermark ∧
      w'.meta.lastSourceState = r.addData.sourceState := by
  unfold write at h
  rcases hst : w.stage ds newData opts with e | r
  · simp [hst] at h
  simp only [hst] at h
  unfold commit at h
  rcases hs : w.commitSchema ds r env.schemaStored with e | ⟨w₁, ds₁⟩
  · simp [hs, Except.mapError] at h
  simp only [hs, commitData_eq] at h
  split_ifs at h <;> simp [Except.mapError] at h
  obtain ⟨rfl, -⟩ := h
  exact ⟨r, rfl, rfl, rfl⟩

/-- Right after a successful `write`, a `write` of no batch with the same source state is an
empty commit and changes neither the writer nor the dataset. -/
theorem write_then_unchanged_write_is_empty {newData : Option DataFrame} {opts opts' : WriteDataOpts}
    {env : CommitEnv} {res : WriteDataResult}
    (h : w.write hashOf ds newData opts env = (w', ds', .ok res))
    (hss : opts'.sourceState = opts.sourceState) (env' : CommitEnv) :
    w'.write hashOf ds' none opts' env' = (w', ds', .error .emptyCommit) := by
  obtain ⟨r, hr, hwm, hsrc⟩ := write_ok h
  obtain ⟨addData, outputSchema, dataFile, hs, -, rfl⟩ := stage_eq_ok hr
  have hempty : w'.stage ds' none opts' = .error .emptyCommit := by
    have hnone : w'.stageAddData ds' none opts' = .ok (⟨w'.meta.lastCheckpoint, none,
        w'.meta.lastWatermark, opts'.sourceState⟩, none, none) := rfl
    rw [stage_emptyCommit_iff hnone]
    exact ⟨rfl, rfl, by rw [hss, hsrc, stageAddData_sourceState hs]⟩
  simp [write, hempty, WriteDataError.ofStage]

end DataWriterDataFusion
end KamuCli.Ingest
