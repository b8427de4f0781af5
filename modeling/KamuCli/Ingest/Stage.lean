import KamuCli.Ingest.Writer

/-! What `stage` hands to `commit`: the slice is numbered on from the state's last offset, its
interval and watermark are read back from the written file, and a result that changes
nothing is refused as an empty commit. -/
namespace KamuCli.Ingest
open Arrow Odf

/-- The first offset after `last_offset`. -/
def nextOffset (lastOffset : Option Int) : Int := (lastOffset.map (· + 1)).getD 0

/-- A slice numbered from `start` on top of the watermark `prevWatermark`: nonempty, its offset
column `start, start + 1, …` in `Int64`, its interval the least and the greatest of these (the
numbering from `start` while it stays within `i64::MAX`, all of `i64` once it wraps), and its
watermark advanced to its newest event time. -/
structure SliceOk (vocab : DatasetVocabularyResolved) (start : Int)
    (prevWatermark : Option DateTime) (interval : OffsetInterval)
    (outputWatermark : Option DateTime) (f : DataFrame) : Prop where
  nonempty : 0 < f.rows.length
  start_mem : i64Min < start ∧ start ≤ i64Max
  offsets : f.column vocab.offsetColumn = wrappedOffsetsFrom start f.rows.length
  interval_eq : interval = if start + f.rows.length - 1 ≤ i64Max
    then ⟨start, start + f.rows.length - 1⟩ else ⟨i64Min, i64Max⟩
  watermark : ∃ e, eventTimeMax vocab f = .ok e ∧ outputWatermark = prevWatermark.max (some e)

/-- The slice of a result staged from the state `meta`: a file numbered on from the state
under the result's schema, or no file and the state's watermark carried. -/
def StagedSlice (meta : DataWriterMetadataState) (addData : AddDataParams)
    (outputSchema : Option Schema) (dataFile : Option DataFrame) : Prop :=
  match addData.outputData, dataFile with
  | some interval, some f => outputSchema = some f.fields ∧
    SliceOk meta.vocab (nextOffset meta.lastOffset) meta.lastWatermark interval
      addData.outputWatermark f
  | none, none => addData.outputWatermark = meta.lastWatermark
  | _, _ => False

/-- What a result staged from the state `meta` promises: it changes something, its schema is
the state's if the state has one, and its slice is numbered on from the state. -/
def StagedOk (meta : DataWriterMetadataState) (r : StageDataResult) : Prop :=
  (r.addData.outputData.isSome ∨ r.addData.outputWatermark ≠ meta.lastWatermark ∨
    r.addData.sourceState ≠ meta.lastSourceState) ∧
  (∀ s s', meta.schema = some s → r.outputSchema = some s' → s = s') ∧
  StagedSlice meta r.addData r.outputSchema r.dataFile

section SliceOk
variable {vocab : DatasetVocabularyResolved} {start : Int} {prevWatermark : Option DateTime}
  {interval : OffsetInterval} {outputWatermark : Option DateTime} {f : DataFrame}

/-- A slice whose interval ends below `i64::MAX` did not wrap: it is numbered from `start`. -/
theorem SliceOk.fits (h : SliceOk vocab start prevWatermark interval outputWatermark f)
    (hend : interval.end < i64Max) :
    interval.start = start ∧ interval.end = start + f.rows.length - 1 ∧
      f.column vocab.offsetColumn = offsetsFrom start f.rows.length := by
  have hie := h.interval_eq
  split_ifs at hie with hfit
  · subst hie
    exact ⟨rfl, rfl, h.offsets.trans (wrappedOffsetsFrom_eq h.start_mem.1.le hfit)⟩
  · subst hie
    exact absurd hend (lt_irrefl _)

/-- A slice's interval ends at or past its first offset and before the offset after its rows. -/
theorem SliceOk.end_mem (h : SliceOk vocab start prevWatermark interval outputWatermark f) :
    start ≤ interval.end ∧ interval.end < start + f.rows.length := by
  have hn := h.nonempty
  have hs := h.start_mem
  rw [h.interval_eq]
  split_ifs <;> dsimp only <;> omega

end SliceOk

theorem ints_offsetsFrom (start : Int) (n : Nat) :
    Value.ints (offsetsFrom start n) = (List.range n).map fun j : Nat => start + j := by
  simp only [Value.ints, offsetsFrom, List.filterMap_map, Function.comp_def]
  exact congrFun (List.filterMap_eq_map _) _

theorem ints_wrappedOffsetsFrom (start : Int) (n : Nat) :
    Value.ints (wrappedOffsetsFrom start n) = (List.range n).map fun j : Nat => wrapI64 (start + j) := by
  simp only [Value.ints, wrappedOffsetsFrom, List.filterMap_map, Function.comp_def]
  exact congrFun (List.filterMap_eq_map _) _

private instance intLeAntisymm : Std.Antisymm (fun x y : Int => x ≤ y) := ⟨Int.le_antisymm⟩

theorem min?_offsetsFrom {start : Int} {n : Nat} (hn : 0 < n) :
    (Value.ints (offsetsFrom start n)).min? = some start := by
  rw [ints_offsetsFrom, List.min?_eq_some_iff le_refl min_choice fun _ _ _ => le_min_iff]
  refine ⟨List.mem_map.mpr ⟨0, List.mem_range.mpr hn, by simp⟩, ?_⟩
  simp only [List.mem_map, List.mem_range]
  rintro _ ⟨j, -, rfl⟩
  omega

theorem max?_offsetsFrom {start : Int} {n : Nat} (hn : 0 < n) :
    (Value.ints (offsetsFrom start n)).max? = some (start + n - 1) := by
  rw [ints_offsetsFrom, List.max?_eq_some_iff le_refl max_choice fun _ _ _ => max_le_iff]
  refine ⟨List.mem_map.mpr ⟨n - 1, List.mem_range.mpr (by omega), by omega⟩, ?_⟩
  simp only [List.mem_map, List.mem_range]
  rintro _ ⟨j, hj, rfl⟩
  omega

/-- Offsets numbered past `i64::MAX` wrap round to `i64::MIN`, so they hold both ends of `i64`. -/
theorem minMax_wrappedOffsetsFrom {start : Int} {n : Nat} (h₁ : i64Min ≤ start)
    (h₂ : start ≤ i64Max) (hw : i64Max < start + n - 1) :
    (Value.ints (wrappedOffsetsFrom start n)).min? = some i64Min ∧
      (Value.ints (wrappedOffsetsFrom start n)).max? = some i64Max := by
  rw [ints_wrappedOffsetsFrom, List.min?_eq_some_iff le_refl min_choice fun _ _ _ => le_min_iff,
    List.max?_eq_some_iff le_refl max_choice fun _ _ _ => max_le_iff]
  simp only [List.mem_map, List.mem_range, forall_exists_index, and_imp]
  unfold i64Min i64Max at *
  refine ⟨⟨⟨(9223372036854775808 - start).toNat, by omega, by unfold wrapI64; omega⟩,
    fun _ j _ h => h ▸ (wrapI64_mem _).1⟩,
    ⟨(9223372036854775807 - start).toNat, by omega, by unfold wrapI64; omega⟩,
    fun _ j _ h => h ▸ (wrapI64_mem _).2⟩

/-- The interval `compute_offset_and_watermark` reads off a slice numbered from `start`. -/
theorem interval_wrappedOffsetsFrom {start : Int} {n : Nat} (hn : 0 < n) (h₁ : i64Min ≤ start)
    (h₂ : start ≤ i64Max) :
    (⟨((Value.ints (wrappedOffsetsFrom start n)).min?).getD 0,
      ((Value.ints (wrappedOffsetsFrom start n)).max?).getD 0⟩ : OffsetInterval) =
      if start + n - 1 ≤ i64Max then ⟨start, start + n - 1⟩ else ⟨i64Min, i64Max⟩ := by
  split_ifs with hfit
  · rw [wrappedOffsetsFrom_eq h₁ hfit, min?_offsetsFrom hn, max?_offsetsFrom hn]; rfl
  · obtain ⟨hmin, hmax⟩ := minMax_wrappedOffsetsFrom h₁ h₂ (not_le.mp hfit)
    rw [hmin, hmax]; rfl

/-- The code's `prev < max ? max : prev` step is the maximum, with no watermark lowest. -/
theorem advance_watermark_eq_max (prev : Option DateTime) (e : DateTime) :
    (match prev with
      | none => some e
      | some prev => if prev < e then some e else some prev) = prev.max (some e) := by
  cases prev with
  | none => rfl
  | some p =>
    by_cases hp : p < e
    · simp [Option.max, hp, max_eq_right hp.le]
    · simp [Option.max, hp, max_eq_left (not_lt.mp hp)]

theorem computeOffsetAndWatermark_ok {vocab : DatasetVocabularyResolved} {f : DataFrame}
    {prevWatermark : Option DateTime} {start : Int} {interval : OffsetInterval}
    {outputWatermark : Option DateTime}
    (h : computeOffsetAndWatermark vocab f prevWatermark = .ok (interval, outputWatermark))
    (hv : ColNamesKept vocab) (hstart : i64Min < start ∧ start ≤ i64Max)
    (hoff : f.column vocab.offsetColumn = wrappedOffsetsFrom start f.rows.length) :
    SliceOk vocab start prevWatermark interval outputWatermark f := by
  unfold computeOffsetAndWatermark at h
  split at h
  · cases h
  have hn : 0 < f.rows.length := by omega
  obtain ⟨c, hc, h⟩ := except_bind_eq_ok.mp h
  obtain rfl : c = vocab.offsetColumn := (DataFrame.resolveCol_ok (except_mapError_eq_ok.mp hc)).1.trans hv.1
  obtain ⟨_, -, h⟩ := except_bind_eq_ok.mp h
  split at h
  · cases h
  obtain ⟨e, he, h⟩ := except_bind_eq_ok.mp h
  simp only [hoff, Except.ok.injEq, Prod.mk.injEq] at h
  obtain ⟨rfl, rfl⟩ := h
  exact ⟨hn, hstart, hoff, interval_wrappedOffsetsFrom hn hstart.1.le hstart.2, e, he,
    advance_watermark_eq_max prevWatermark e⟩

theorem validateOutputSchema_ok {schema : Option Schema} {newSchema : Schema}
    (h : validateOutputSchema schema newSchema = .ok ()) : ∀ s, schema = some s → s = newSchema := by
  rintro s rfl
  by_contra hne
  simp [validateOutputSchema, hne] at h

theorem startOffsetOf_ok {lastOffset : Option Int} {start : Int}
    (h : startOffsetOf lastOffset = .ok start) : start = nextOffset lastOffset ∧ start ≤ i64Max := by
  unfold startOffsetOf at h
  split at h
  · split at h
    · cases h
      obtain ⟨rfl, -, h⟩ := checkedI64_eq_some.mp ‹_›
      exact ⟨rfl, h⟩
    · cases h
  · cases h; exact ⟨rfl, by decide⟩

theorem writeOutput_ok {df : DataFrame} {dataFile : Option DataFrame}
    (h : writeOutput df = .ok dataFile) :
    (dataFile = none ∧ df.rows = []) ∨ (dataFile = some df ∧ 0 < df.rows.length) := by
  unfold writeOutput at h
  split at h
  · cases h; exact .inr ⟨rfl, ‹_›⟩
  · cases h; exact .inl ⟨rfl, List.eq_nil_of_length_eq_zero (by omega)⟩

section Panics
variable {vocab : DatasetVocabularyResolved} {m : String}

end Panics

theorem computeOffsetAndWatermark_nonempty {vocab : DatasetVocabularyResolved} {f : DataFrame}
    {prevWatermark : Option DateTime} {res : OffsetInterval × Option DateTime}
    (h : computeOffsetAndWatermark vocab f prevWatermark = .ok res) : 0 < f.rows.length := by
  unfold computeOffsetAndWatermark at h
  split at h
  · cases h
  · omega

namespace DataWriterDataFusion
variable {w : DataWriterDataFusion} {ds : Dataset} {opts : WriteDataOpts}
  {addData : AddDataParams} {outputSchema : Option Schema} {dataFile : Option DataFrame}

/-- Everything a successful `stage` of a batch does before the emptiness check: the batch is
merged with the previous data, annotated from the next offset (which fits `i64`) and checked
against the state's schema; an empty result leaves no file, a nonempty one is read back. -/
theorem stageAddData_some_ok {newData : DataFrame}
    (h : w.stageAddData ds (some newData) opts = .ok (addData, outputSchema, dataFile)) :
    ∃ prev merged out, getAllPreviousData ds w.meta.dataSlices = .ok prev ∧
      w.mergeStrategy prev (normalizeRawResult newData) = .ok merged ∧
      withSystemColumns w.meta.vocab merged opts.systemTime opts.sourceEventTime
        (nextOffset w.meta.lastOffset) = .ok out ∧ nextOffset w.meta.lastOffset ≤ i64Max ∧
      (∀ s, w.meta.schema = some s → s = out.fields) ∧ outputSchema = some out.fields ∧
      addData.inputCheckpoint = w.meta.lastCheckpoint ∧ addData.sourceState = opts.sourceState ∧
      ((merged.rows = [] ∧ dataFile = none ∧ addData.outputData = none ∧
          addData.outputWatermark = w.meta.lastWatermark) ∨
        (dataFile = some out ∧ ∃ interval, addData.outputData = some interval ∧
          computeOffsetAndWatermark w.meta.vocab out w.meta.lastWatermark =
            .ok (interval, addData.outputWatermark))) := by
  simp only [stageAddData, except_bind_eq_ok] at h
  obtain ⟨⟨⟩, -, prev, hprev, merged, hmerged, start, hstart, out, hout, ⟨⟩, hval, file, hfile, h⟩ := h
  obtain ⟨rfl, hle⟩ := startOffsetOf_ok hstart
  have hlen := withSystemColumns_rows_length _ _ hout
  refine ⟨prev, merged, out, hprev, except_mapError_eq_ok.mp hmerged, hout, hle,
    validateOutputSchema_ok hval, ?_⟩
  rcases writeOutput_ok hfile with ⟨rfl, hrows⟩ | ⟨rfl, -⟩
  · simp only [Except.ok.injEq, Prod.mk.injEq] at h
    obtain ⟨rfl, rfl, rfl⟩ := h
    exact ⟨rfl, rfl, rfl, .inl ⟨List.eq_nil_of_length_eq_zero (by simp_all), rfl, rfl, rfl⟩⟩
  · obtain ⟨⟨interval, wm⟩, hc, h⟩ := except_bind_eq_ok.mp h
    simp only [Except.ok.injEq, Prod.mk.injEq] at h
    obtain ⟨rfl, rfl, rfl⟩ := h
    exact ⟨rfl, rfl, rfl, .inr ⟨rfl, interval, rfl, hc⟩⟩

theorem stageAddData_sourceState {newData : Option DataFrame}
    (h : w.stageAddData ds newData opts = .ok (addData, outputSchema, dataFile)) :
    addData.sourceState = opts.sourceState := by
  cases newData with
  | none =>
    simp only [stageAddData, Except.ok.injEq, Prod.mk.injEq] at h
    obtain ⟨rfl, -, -⟩ := h
    rfl
  | some b =>
    obtain ⟨_, _, _, -, -, -, -, -, -, -, hss, -⟩ := stageAddData_some_ok h
    exact hss

/-- A successful `stage_add_data`, batch or not, under names `col()` keeps, yields a result that
satisfies `StagedOk` apart from the change it must make. -/
theorem stageAddData_ok {newData : Option DataFrame} (hv : ColNamesKept w.meta.vocab)
    (h : w.stageAddData ds newData opts = .ok (addData, outputSchema, dataFile)) :
    addData.sourceState = opts.sourceState ∧
      (∀ s s', w.meta.schema = some s → outputSchema = some s' → s = s') ∧
      StagedSlice w.meta addData outputSchema dataFile := by
  cases newData with
  | none =>
    simp only [stageAddData, Except.ok.injEq, Prod.mk.injEq] at h
    obtain ⟨rfl, rfl, rfl⟩ := h
    exact ⟨rfl, by simp, rfl⟩
  | some newData =>
    obtain ⟨prev, merged, out, -, -, hout, hle, hval, rfl, -, hss, hcase⟩ := stageAddData_some_ok h
    refine ⟨hss, fun s s' hs hs' => (hval s hs).trans (Option.some.inj hs'), ?_⟩
    rcases hcase with ⟨-, rfl, hd, hwm⟩ | ⟨rfl, interval, hd, hc⟩
    · simp only [StagedSlice, hd]; exact hwm
    · simp only [StagedSlice, hd, true_and]
      have hlo := (checkedI64_eq_some.mp (withSystemColumns_shift_ok _ _ hout)).2.1
      exact computeOffsetAndWatermark_ok hc hv ⟨by omega, hle⟩ (withSystemColumns_offsets _ _ hv hout).2.1

/-- `stage` is `stage_add_data` followed by the emptiness check. -/
theorem stage_eq {newData : Option DataFrame}
    (h : w.stageAddData ds newData opts = .ok (addData, outputSchema, dataFile)) :
    w.stage ds newData opts =
      if addData.outputData.isNone ∧ addData.outputWatermark = w.meta.lastWatermark ∧
        opts.sourceState = w.meta.lastSourceState then .error .emptyCommit
      else .ok ⟨opts.systemTime, addData, outputSchema, dataFile⟩ := by
  simp only [stage, h, bind, Except.bind]

theorem stage_eq_error {newData : Option DataFrame} {e : StageDataError}
    (h : w.stageAddData ds newData opts = .error e) : w.stage ds newData opts = .error e := by
  simp only [stage, h, bind, Except.bind]

/-- A result of `stage` is what `stage_add_data` staged, past the emptiness check. -/
theorem stage_eq_ok {newData : Option DataFrame} {r : StageDataResult}
    (h : w.stage ds newData opts = .ok r) :
    ∃ addData outputSchema dataFile,
      w.stageAddData ds newData opts = .ok (addData, outputSchema, dataFile) ∧
      ¬(addData.outputData.isNone ∧ addData.outputWatermark = w.meta.lastWatermark ∧
        opts.sourceState = w.meta.lastSourceState) ∧
      r = ⟨opts.systemTime, addData, outputSchema, dataFile⟩ := by
  rcases hs : w.stageAddData ds newData opts with e | ⟨addData, outputSchema, dataFile⟩
  · rw [stage_eq_error hs] at h; cases h
  rw [stage_eq hs] at h
  split_ifs at h with hne
  cases h
  exact ⟨addData, outputSchema, dataFile, rfl, hne, rfl⟩

/-- Every result `stage` returns under names `col()` keeps satisfies `StagedOk` against the
writer's state. -/
theorem stage_ok {newData : Option DataFrame} {r : StageDataResult} (hv : ColNamesKept w.meta.vocab)
    (h : w.stage ds newData opts = .ok r) : StagedOk w.meta r := by
  obtain ⟨addData, outputSchema, dataFile, hs, hne, rfl⟩ := stage_eq_ok h
  obtain ⟨hss, hschema, hslice⟩ := stageAddData_ok hv hs
  refine ⟨?_, hschema, hslice⟩
  cases hd : addData.outputData with
  | some _ => exact .inl rfl
  | none =>
    right
    by_contra hc
    push_neg at hc
    exact hne ⟨by simp [hd], hc.1, hss.symm.trans hc.2⟩

/-- Past `stage_add_data`, `stage` refuses exactly the results with no data, the state's
watermark and the state's source state. -/
theorem stage_emptyCommit_iff {newData : Option DataFrame}
    (h : w.stageAddData ds newData opts = .ok (addData, outputSchema, dataFile)) :
    w.stage ds newData opts = .error .emptyCommit ↔
      addData.outputData = none ∧ addData.outputWatermark = w.meta.lastWatermark ∧
        opts.sourceState = w.meta.lastSourceState := by
  rw [stage_eq h]
  split_ifs with hc
  · simpa using hc
  · simpa using hc

/-- A staged `AddData` has no data exactly when there was no batch or the batch merged with the
previous data has no rows. -/
theorem stageAddData_outputData_none_iff {newData : Option DataFrame}
    (h : w.stageAddData ds newData opts = .ok (addData, outputSchema, dataFile)) :
    addData.outputData = none ↔ newData = none ∨ ∃ b prev merged, newData = some b ∧
      getAllPreviousData ds w.meta.dataSlices = .ok prev ∧
      w.mergeStrategy prev (normalizeRawResult b) = .ok merged ∧ merged.rows = [] := by
  cases newData with
  | none =>
    simp only [stageAddData, Except.ok.injEq, Prod.mk.injEq] at h
    obtain ⟨rfl, -, -⟩ := h
    simp
  | some b =>
    obtain ⟨prev, merged, out, hprev, hmerged, hout, -, -, -, -, -, hcase⟩ := stageAddData_some_ok h
    have hsame : (∃ b' prev' merged', some b = some b' ∧
        getAllPreviousData ds w.meta.dataSlices = .ok prev' ∧
        w.mergeStrategy prev' (normalizeRawResult b') = .ok merged' ∧ merged'.rows = []) ↔
        merged.rows = [] := by
      simp [hprev, hmerged]
    simp only [reduceCtorEq, false_or, hsame]
    rcases hcase with ⟨hr, -, hd, -⟩ | ⟨-, interval, hd, hc⟩
    · simp [hd, hr]
    · have hn := computeOffsetAndWatermark_nonempty hc
      rw [withSystemColumns_rows_length _ _ hout] at hn
      simp only [hd, reduceCtorEq, false_iff]
      intro hr
      simp [hr] at hn

end DataWriterDataFusion
end KamuCli.Ingest
