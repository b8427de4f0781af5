import KamuCli.Ingest.ChainInvariant

/-! Any number of writers on one dataset, each built by a scan of the chain and running its
`write` calls one await point at a time: staging, committing the schema, committing the data.
The steps of different writers interleave arbitrarily and the chain arbitrates by its head.
Every run keeps the chain well built, every slice ending below the rows stored, and every writer
in step with the chain below its head. -/
namespace KamuCli.Ingest
open Arrow Odf

/-- Where a writer is inside a `write` call: between calls, staged, or past the schema commit
with the head the call started from. -/
inductive Phase
  | idle
  | staged (r : StageDataResult)
  | schemaCommitted (r : StageDataResult) (oldHead : Multihash)

/-- A writer and where it is in its current call. -/
structure Slot where
  writer : DataWriterDataFusion
  phase : Phase

/-- One dataset and the writers working on it. -/
structure System where
  dataset : Dataset
  writers : Nat → Option Slot

/-- A step of one writer between two await points; `build` scans the chain for a new writer, or
for one between calls that re-projects. -/
inductive Action
  | build (i : Nat) (sourceName : Option String)
  | stage (i : Nat) (newData : Option DataFrame) (opts : WriteDataOpts)
  | commitSchema (i : Nat) (stored : Bool)
  | commitData (i : Nat) (stored read : Bool)

namespace System

/-- The dataset holding only its root seed, and no writers yet. -/
def init (seedTime : DateTime) : System :=
  ⟨⟨[⟨seedTime, none, .seed ⟨.root⟩⟩], []⟩, fun _ => none⟩

/-- The system with writer `i` replaced and the dataset as `ds` leaves it. -/
def setSlot (s : System) (i : Nat) (slot : Slot) (ds : Dataset) : System :=
  ⟨ds, Function.update s.writers i (some slot)⟩

variable (hashOf : DataFrame → Multihash)
  (mergeStrategyFor : MergeStrategy → DatasetVocabularyResolved → MergeFn)

/-- One step; a writer that is not where the step starts stays as it is. -/
def step (s : System) : Action → System
  | .build i sourceName =>
    match s.writers i with
    | some ⟨_, .staged _⟩ | some ⟨_, .schemaCommitted _ _⟩ => s
    | _ => match withMetadataStateScanned s.dataset.chain sourceName with
      | .ok meta => s.setSlot i ⟨DataWriterDataFusion.build mergeStrategyFor meta, .idle⟩ s.dataset
      | .error _ => s
  | .stage i newData opts =>
    match s.writers i with
    | some ⟨w, .idle⟩ => match w.stage s.dataset newData opts with
      | .ok r => s.setSlot i ⟨w, .staged r⟩ s.dataset
      | .error _ => s
    | _ => s
  | .commitSchema i stored =>
    match s.writers i with
    | some ⟨w, .staged r⟩ => match w.commitSchema s.dataset r stored with
      | .ok (w', ds) => s.setSlot i ⟨w', .schemaCommitted r w.meta.head⟩ ds
      | .error _ => s.setSlot i ⟨w, .idle⟩ s.dataset
    | _ => s
  | .commitData i stored read =>
    match s.writers i with
    | some ⟨w, .schemaCommitted r oldHead⟩ =>
      let (w', ds, _) := w.commitData hashOf s.dataset r oldHead stored read
      s.setSlot i ⟨w', .idle⟩ ds
    | _ => s

/-- The steps of a run, in order. -/
def run (s : System) (acts : List Action) : System := acts.foldl (step hashOf mergeStrategyFor) s

end System

/-- Two writer states that differ at most in the order of their data slices. -/
def SameUpToSliceOrder (m m' : DataWriterMetadataState) : Prop :=
  ∃ slices, m' = { m with dataSlices := slices } ∧ m.dataSlices.Perm slices

/-- A writer's state is the projection of the chain below its head, up to the order of slices. -/
def Synced (c : Chain) (meta : DataWriterMetadataState) : Prop :=
  meta.head ≤ c.length ∧ SameUpToSliceOrder meta (Chain.projection (c.take meta.head) none)

/-- What a writer's phase promises of its state. -/
def PhaseOk (meta : DataWriterMetadataState) : Phase → Prop
  | .idle => True
  | .staged r => StagedOk meta r
  | .schemaCommitted r _ => StagedOk meta r ∧ (r.outputSchema.isSome → meta.schema.isSome)

/-- The number of rows the object repository holds. -/
def rowCount (repo : List (Multihash × DataFrame)) : Nat :=
  repo.foldr (fun p n => p.2.rows.length + n) 0

@[simp] theorem rowCount_append (repo more : List (Multihash × DataFrame)) :
    rowCount (repo ++ more) = rowCount repo + rowCount more := by
  induction repo with
  | nil => simp [rowCount]
  | cons p repo ih => simp only [rowCount, List.cons_append, List.foldr_cons] at ih ⊢; omega

/-- Every slice on the chain ends below the number of rows stored: the offsets number the rows,
and a numbering that wraps past `i64::MAX` ends there. -/
def RowsOk (ds : Dataset) : Prop :=
  ∀ d ∈ Chain.dataSlices ds.chain, d.interval.end < rowCount ds.dataRepo

/-- The invariant of the system: a well-built chain whose slices end below the rows stored, and
every writer in step with it. -/
structure Inv (s : System) : Prop where
  chain : ChainOk s.dataset.dataRepo s.dataset.chain
  rows : RowsOk s.dataset
  slots : ∀ i slot, s.writers i = some slot →
    Synced s.dataset.chain slot.writer.meta ∧ PhaseOk slot.writer.meta slot.phase

section Synced
variable {c : Chain} {m : DataWriterMetadataState}

theorem SameUpToSliceOrder.projection_fields {sourceName : Option String}
    (h : SameUpToSliceOrder m (c.projection sourceName)) :
    m.head = c.head ∧ m.schema = c.schema ∧ m.vocab = c.vocab ∧ m.lastOffset = c.lastOffset ∧
      m.lastWatermark = c.lastWatermark ∧ m.lastSourceState = c.lastSourceState := by
  obtain ⟨_, hl, -⟩ := h
  exact ⟨(congrArg (·.head) hl).symm, (congrArg (·.schema) hl).symm, (congrArg (·.vocab) hl).symm,
    (congrArg (·.lastOffset) hl).symm, (congrArg (·.lastWatermark) hl).symm,
    (congrArg (·.lastSourceState) hl).symm⟩

/-- `commit`'s update of two states equal up to slice order, one appending the new slice and the
other putting it first, keeps them equal up to slice order. -/
theorem SameUpToSliceOrder.advance {m' : DataWriterMetadataState} (h : SameUpToSliceOrder m m')
    (newHead : Multihash) (e : AddData) :
    SameUpToSliceOrder (m.advance newHead e)
      { m'.advance newHead e with
        dataSlices := (e.outputData.map (·.physicalHash)).toList ++ m'.dataSlices } := by
  obtain ⟨slices, rfl, hp⟩ := h
  refine ⟨(e.outputData.map (·.physicalHash)).toList ++ slices, ?_, ?_⟩
  · cases hd : e.outputData <;> simp only [DataWriterMetadataState.advance, hd]
  · cases hd : e.outputData <;> simp only [DataWriterMetadataState.advance, hd]
    · simpa using hp
    · simpa using (hp.append_right _).trans (List.perm_append_singleton _ _)

theorem Synced.append (h : Synced c m) (b : MetadataBlock) : Synced (c ++ [b]) m := by
  obtain ⟨hle, hsame⟩ := h
  refine ⟨?_, ?_⟩
  · simpa using Nat.le_succ_of_le hle
  · rwa [List.take_append_of_le_length hle]

theorem Synced.at_head (h : Synced c m) (hh : m.head = c.head) :
    SameUpToSliceOrder m (c.projection none) := by
  have := h.2
  rwa [hh, Chain.length_head, List.take_length] at this

theorem Synced.dataSlices_perm (h : Synced c m) :
    m.dataSlices.Perm ((Chain.dataSlices (c.take m.head)).map (·.physicalHash)).reverse := by
  obtain ⟨slices, hl, hp⟩ := h.2
  have hs : ((Chain.dataSlices (c.take m.head)).map (·.physicalHash)).reverse = slices :=
    congrArg (·.dataSlices) hl
  exact hs ▸ hp

/-- A writer in step with a well-built chain holds the default vocabulary. -/
theorem Synced.vocab_eq {repo : List (Multihash × DataFrame)} (h : Synced c m)
    (hc : ChainOk repo c) : m.vocab = defaultVocab := by
  rw [h.2.projection_fields.2.2.1, (hc.take _).vocab_eq]

theorem synced_projection (c : Chain) : Synced c (c.projection none) := by
  refine ⟨le_rfl, ?_⟩
  simp only [Chain.projection, Chain.length_head, List.take_length]
  exact ⟨_, rfl, List.Perm.refl _⟩

theorem Synced.setDataSchema (h : Synced c m) (hh : m.head = c.head) (t : DateTime) (s : Schema) :
    Synced (c ++ [MetadataBlock.mk t (some m.head) (.setDataSchema (.new s))])
      { m with head := c.head + 1, schema := some s } := by
  obtain ⟨slices, hl, hp⟩ := h.at_head hh
  have htake : (c ++ [MetadataBlock.mk t (some m.head) (.setDataSchema (.new s))]).take
      (c.head + 1) = c ++ [MetadataBlock.mk t (some m.head) (.setDataSchema (.new s))] :=
    List.take_of_length_le (by simp)
  refine ⟨by simp, ?_⟩
  show SameUpToSliceOrder _ (Chain.projection (List.take (c.head + 1) _) none)
  rw [htake, Chain.projection_append_setDataSchema, hl]
  exact ⟨slices, rfl, hp⟩

theorem Synced.advance (h : Synced c m) (hh : m.head = c.head) (t : DateTime) (e : AddData) :
    Synced (c ++ [MetadataBlock.mk t (some m.head) (.addData e)]) (m.advance (c.head + 1) e) := by
  have hlen : (m.advance (c.head + 1) e).head = (c ++ [MetadataBlock.mk t (some m.head) (.addData e)]).length := by
    simp only [DataWriterMetadataState.advance]; split <;> simp
  refine ⟨hlen.le, ?_⟩
  rw [hlen, List.take_length, Chain.projection_append_addData]
  exact (h.at_head hh).advance (c.head + 1) e

end Synced

section Steps
variable {repo : List (Multihash × DataFrame)} {c : Chain} {m : DataWriterMetadataState}
  {hashOf : DataFrame → Multihash}

/-- The data block a writer commits in step with the chain, for a result it staged, is well
placed on the chain, once the staged file is stored. -/
theorem addDataOk_of_staged {r : StageDataResult} (hm : SameUpToSliceOrder m (c.projection none))
    (hst : StagedOk m r) (hsch : r.outputSchema.isSome → m.schema.isSome) :
    AddDataOk (repo ++ r.dataFile.toList.map fun f => (hashOf f, f)) c
      (addDataEvent hashOf r.addData r.dataFile none) := by
  obtain ⟨-, hschema, hvocab, hoffset, hwm, hss⟩ := hm.projection_fields
  obtain ⟨hchange, hcompat, hslice⟩ := hst
  simp only [StagedSlice] at hslice
  rcases hd : r.addData.outputData with _ | interval <;>
    rcases hf : r.dataFile with _ | f <;> simp only [hd, hf] at hslice
  · refine ⟨?_, ?_⟩
    · simp only [hd, Option.isSome_none, Bool.false_eq_true, false_or] at hchange
      simpa [addDataEvent, hd, hf, ← hwm, ← hss] using hchange
    · simpa [addDataEvent, hd, hf, ← hwm] using hslice
  · obtain ⟨hout, hok⟩ := hslice
    obtain ⟨s, hs⟩ := Option.isSome_iff_exists.mp (hsch (by simp [hout]))
    have hsf : s = f.fields := hcompat s f.fields hs hout
    refine ⟨by simp [addDataEvent, hd, hf], ?_⟩
    simp only [addDataEvent, hd, hf]
    refine ⟨f, by simp, by rw [← hschema, hs, hsf], ?_⟩
    simpa only [← hvocab, ← hoffset, ← hwm] using hok

/-- A schema block leaves the slices and the files alone. -/
theorem RowsOk.append_setDataSchema {ds : Dataset} (h : RowsOk ds) (b : MetadataBlock) (sch : Schema)
    (hb : b.event = .setDataSchema (.new sch)) : RowsOk { ds with chain := ds.chain ++ [b] } := by
  intro d hd
  simp only [Chain.dataSlices_append, hb, dataSliceOfEvent, Option.toList_none,
    List.append_nil] at hd
  exact h d hd

/-- The chain's next offset is at most the number of rows stored. -/
theorem RowsOk.nextOffset_le {ds : Dataset} (h : RowsOk ds) :
    nextOffset (Chain.lastOffset ds.chain) ≤ rowCount ds.dataRepo := by
  rw [Chain.lastOffset_eq]
  cases hl : (Chain.dataSlices ds.chain).getLast? with
  | none => simp only [Option.map_none', nextOffset, Option.getD_none]; omega
  | some d =>
    have := h d (List.mem_of_getLast?_eq_some hl)
    simp only [nextOffset, Option.map_some', Option.getD_some]
    omega

/-- The data block of a result staged from the chain's last offset ends below the rows stored
once its file is: its offsets start at most at the rows stored before and count its own rows. -/
theorem RowsOk.withDataBlock {ds : Dataset} {meta : DataWriterMetadataState} {r : StageDataResult}
    (h : RowsOk ds) (hlast : meta.lastOffset = Chain.lastOffset ds.chain)
    (hst : StagedSlice meta r.addData r.outputSchema r.dataFile) (prev : Multihash) :
    RowsOk (ds.withDataBlock hashOf r prev) := by
  have hnext := hlast ▸ h.nextOffset_le
  intro d hd
  simp only [StagedSlice] at hst
  simp only [Dataset.withDataBlock, dataBlock, Chain.dataSlices_append, rowCount_append] at hd ⊢
  rcases hi : r.addData.outputData with _ | interval <;>
    rcases hf : r.dataFile with _ | f <;> simp only [hi, hf] at hst
  · simp only [addDataEvent, hi, hf, dataSliceOfEvent, Option.toList_none, List.append_nil] at hd
    simpa using h d hd
  · simp only [addDataEvent, hi, hf, dataSliceOfEvent, Option.toList_some, List.mem_append,
      List.mem_singleton] at hd
    have hmore : rowCount ([f].map fun f => (hashOf f, f)) = f.rows.length := by
      simp [rowCount]
    simp only [Option.toList_some, hmore]
    rcases hd with hd | rfl
    · have := h d hd; omega
    · have := hst.2.end_mem.2; dsimp only; omega

/-- Replacing writer `i` keeps the invariant when the new dataset is well built with its slices
below its rows, every other writer stays in step with it, and the new writer is in step and
keeps its phase's promise. -/
theorem Inv.setSlot {s : System} (h : Inv s) {i : Nat} {slot : Slot} {ds : Dataset}
    (hchain : ChainOk ds.dataRepo ds.chain) (hrows : RowsOk ds)
    (hothers : ∀ meta, Synced s.dataset.chain meta → Synced ds.chain meta)
    (hnew : Synced ds.chain slot.writer.meta ∧ PhaseOk slot.writer.meta slot.phase) :
    Inv (s.setSlot i slot ds) := by
  refine ⟨hchain, hrows, fun j slot' hj => ?_⟩
  simp only [System.setSlot, Function.update_apply] at hj
  split_ifs at hj
  · cases hj; exact hnew
  · obtain ⟨hs, hp⟩ := h.slots j slot' hj
    exact ⟨hothers _ hs, hp⟩

theorem inv_init (t : DateTime) : Inv (System.init t) := by
  refine ⟨?_, fun d hd => absurd hd (by simp [System.init, Chain.dataSlices, dataSliceOfEvent]),
    fun _ _ h => nomatch h⟩
  rw [show (System.init t).dataset.chain = [] ++ [⟨t, none, .seed ⟨.root⟩⟩] from rfl]
  exact chainOk_append_iff.mpr ⟨chainOk_nil, rfl, rfl⟩

variable (hashOf) (mergeStrategyFor : MergeStrategy → DatasetVocabularyResolved → MergeFn)

theorem inv_build {s : System} (h : Inv s) (i : Nat) (sourceName : Option String) :
    Inv (s.step hashOf mergeStrategyFor (.build i sourceName)) := by
  simp only [System.step]
  split
  · exact h
  · exact h
  · split
    · rename_i meta hscan
      refine h.setSlot h.chain h.rows (fun _ => id) ⟨?_, trivial⟩
      rw [show (DataWriterDataFusion.build mergeStrategyFor meta).meta = meta from rfl,
        h.chain.scan_eq hscan]
      exact synced_projection _
    · exact h

theorem inv_stage {s : System} (h : Inv s) (i : Nat) (newData : Option DataFrame)
    (opts : WriteDataOpts) : Inv (s.step hashOf mergeStrategyFor (.stage i newData opts)) := by
  simp only [System.step]
  split
  · rename_i w hw
    split
    · rename_i r hr
      have hsync := (h.slots i _ hw).1
      exact h.setSlot h.chain h.rows (fun _ => id) ⟨hsync, DataWriterDataFusion.stage_ok
        ((hsync.vocab_eq h.chain).symm ▸ colNamesKept_defaultVocab) hr⟩
    · exact h
  · exact h

theorem inv_commitSchema {s : System} (h : Inv s) (i : Nat) (stored : Bool) :
    Inv (s.step hashOf mergeStrategyFor (.commitSchema i stored)) := by
  simp only [System.step]
  split
  · rename_i w r hw
    obtain ⟨hsync, hst⟩ := h.slots i _ hw
    split
    · rename_i w' ds hc
      rcases DataWriterDataFusion.commitSchema_ok hc with ⟨rfl, rfl, hno⟩ |
        ⟨sch, hnone, hout, hh, rfl, rfl⟩
      · exact h.setSlot h.chain h.rows (fun _ => id)
          ⟨hsync, hst, fun hr => hno.resolve_right fun hn => by simp [hn] at hr⟩
      · have hschema := (hsync.at_head hh).projection_fields.2.1
        refine h.setSlot ?_ (h.rows.append_setDataSchema _ sch rfl) (fun _ hs => hs.append _)
          ⟨?_, ?_, by simp⟩
        · refine chainOk_append_iff.mpr ⟨h.chain, ?_, rfl⟩
          rw [← hnone, hschema]
        · exact hsync.setDataSchema hh _ _
        · exact ⟨hst.1, fun s₁ s₂ hs₁ hs₂ => by simp_all, hst.2.2⟩
    · exact h.setSlot h.chain h.rows (fun _ => id) ⟨hsync, trivial⟩
  · exact h

theorem inv_commitData {s : System} (h : Inv s) (i : Nat) (stored read : Bool) :
    Inv (s.step hashOf mergeStrategyFor (.commitData i stored read)) := by
  simp only [System.step]
  split
  · rename_i w r oldHead hw
    obtain ⟨hsync, hst, hsch⟩ := h.slots i _ hw
    rw [DataWriterDataFusion.commitData_eq]
    by_cases hcas : w.meta.head = s.dataset.chain.head ∧ stored = true
    · have hchain : ChainOk (s.dataset.withDataBlock hashOf r w.meta.head).dataRepo
          (s.dataset.withDataBlock hashOf r w.meta.head).chain :=
        chainOk_append_iff.mpr ⟨h.chain.mono _,
          addDataOk_of_staged (hsync.at_head hcas.1) ⟨hst.1, hst.2.1, hst.2.2⟩ hsch⟩
      have hrows : RowsOk (s.dataset.withDataBlock hashOf r w.meta.head) :=
        h.rows.withDataBlock (hsync.at_head hcas.1).projection_fields.2.2.2.1 hst.2.2 _
      rw [if_pos hcas]
      split
      · exact h.setSlot hchain hrows (fun _ hs => hs.append _)
          ⟨hsync.advance hcas.1 _ _, trivial⟩
      · exact h.setSlot hchain hrows (fun _ hs => hs.append _) ⟨hsync.append _, trivial⟩
    · rw [if_neg hcas]
      exact h.setSlot h.chain h.rows (fun _ => id) ⟨hsync, trivial⟩
  · exact h

theorem inv_step {s : System} (h : Inv s) (a : Action) :
    Inv (s.step hashOf mergeStrategyFor a) := by
  cases a with
  | build i sourceName => exact inv_build hashOf mergeStrategyFor h i sourceName
  | stage i newData opts => exact inv_stage hashOf mergeStrategyFor h i newData opts
  | commitSchema i stored => exact inv_commitSchema hashOf mergeStrategyFor h i stored
  | commitData i stored read => exact inv_commitData hashOf mergeStrategyFor h i stored read

theorem inv_run {s : System} (h : Inv s) (acts : List Action) :
    Inv (s.run hashOf mergeStrategyFor acts) := by
  induction acts generalizing s with
  | nil => exact h
  | cons a acts ih => exact ih (inv_step hashOf mergeStrategyFor h a)

end Steps

section Runs
variable (hashOf : DataFrame → Multihash)
  (mergeStrategyFor : MergeStrategy → DatasetVocabularyResolved → MergeFn)

/-- The root dataset with one writer built on it by the scan, merging by `Append`. -/
def seedRun : System :=
  (System.init 0).run firstOffsetHash (fun _ _ => appendMerge) [.build 0 none]

/-- A writer built on the seed that writes one row, its storage taking every write. -/
def firstWriteActs : List Action :=
  [.build 0 none, .stage 0 (some (oneRowFrame 1)) ⟨1000000, 1000000, none⟩, .commitSchema 0 true,
    .commitData 0 true true]

/-- Every state a run reaches from the root dataset keeps the invariant. -/
theorem inv_reachable (t : DateTime) (acts : List Action) :
    Inv ((System.init t).run hashOf mergeStrategyFor acts) :=
  inv_run hashOf mergeStrategyFor (inv_init t) acts

/-- In every run, a writer at the chain's head hands the previous-data read every slice of the
chain exactly once, though not always in chain order. -/
theorem writer_at_head_reads_every_slice (t : DateTime) (acts : List Action) (i : Nat)
    (slot : Slot) :
    let s := (System.init t).run hashOf mergeStrategyFor acts
    s.writers i = some slot → slot.writer.meta.head = s.dataset.chain.head →
      slot.writer.meta.dataSlices.reverse.Perm
        ((Chain.dataSlices s.dataset.chain).map (·.physicalHash)) := by
  intro s hslot hh
  obtain ⟨slices, hl, hp⟩ :=
    ((inv_reachable hashOf mergeStrategyFor t acts).slots i slot hslot).1.at_head hh
  have hs : ((Chain.dataSlices s.dataset.chain).map (·.physicalHash)).reverse = slices :=
    congrArg (·.dataSlices) hl
  refine (List.reverse_perm _).trans (hp.trans ?_)
  rw [← hs]
  exact List.reverse_perm _

/-- The seed writer, at the head of the seed, reads no slice. -/
theorem seed_writer_reads_every_slice :
    seedRun.writers 0 = some ⟨seedWriter, .idle⟩ ∧ seedWriter.meta.head = seedRun.dataset.chain.head ∧
      seedWriter.meta.dataSlices.reverse.Perm
        ((Chain.dataSlices seedRun.dataset.chain).map (·.physicalHash)) :=
  ⟨rfl, rfl, writer_at_head_reads_every_slice firstOffsetHash (fun _ _ => appendMerge) 0
    [.build 0 none] 0 _ rfl rfl⟩

/-- In every run, every writer, at the head or behind it, holds the state the scan of the chain
up to its own head computes, but for the order of its data slices. -/
theorem writer_state_is_scan_below_its_head (t : DateTime) (acts : List Action) (i : Nat)
    (slot : Slot) (h : ((System.init t).run hashOf mergeStrategyFor acts).writers i = some slot) :
    slot.writer.meta.head ≤ ((System.init t).run hashOf mergeStrategyFor acts).dataset.chain.length ∧
      ∃ meta, withMetadataStateScanned (((System.init t).run hashOf mergeStrategyFor
          acts).dataset.chain.take slot.writer.meta.head) none = .ok meta ∧
        SameUpToSliceOrder slot.writer.meta meta := by
  have hinv := inv_reachable hashOf mergeStrategyFor t acts
  obtain ⟨⟨hle, hsame⟩, -⟩ := hinv.slots i slot h
  exact ⟨hle, _, (hinv.chain.take _).scan_none, hsame⟩

/-- The writer built on the seed holds the scan of the seed. -/
theorem seed_writer_is_scan_of_seed :
    seedRun.writers 0 = some ⟨seedWriter, .idle⟩ ∧
      seedWriter.meta.head ≤ seedRun.dataset.chain.length ∧
      ∃ meta, withMetadataStateScanned (seedRun.dataset.chain.take seedWriter.meta.head) none =
        .ok meta ∧ SameUpToSliceOrder seedWriter.meta meta :=
  ⟨rfl, writer_state_is_scan_below_its_head firstOffsetHash (fun _ _ => appendMerge) 0
    [.build 0 none] 0 _ rfl⟩

/-- In every run of any writers on a root dataset that stores at most `i64::MAX` rows, the data
slices lie end to end from offset zero, each a stored nonempty file whose offset column counts
through its interval once. -/
theorem offsets_contiguous_from_zero (t : DateTime) (acts : List Action)
    (hrows : (rowCount ((System.init t).run hashOf mergeStrategyFor acts).dataset.dataRepo : Int) ≤
      i64Max) :
    let ds := ((System.init t).run hashOf mergeStrategyFor acts).dataset
    Tiles 0 ((Chain.dataSlices ds.chain).map (·.interval)) ∧
      ∀ d ∈ Chain.dataSlices ds.chain, ∃ f, (d.physicalHash, f) ∈ ds.dataRepo ∧
        0 < f.rows.length ∧ d.interval.end = d.interval.start + f.rows.length - 1 ∧
        f.column "offset" = offsetsFrom d.interval.start f.rows.length :=
  have hinv := inv_reachable hashOf mergeStrategyFor t acts
  hinv.chain.offsets fun d hd => by have := hinv.rows d hd; omega

/-- The first write stores one row, numbered zero. -/
theorem first_write_offsets_contiguous :
    (rowCount ((System.init 0).run firstOffsetHash (fun _ _ => appendMerge)
      firstWriteActs).dataset.dataRepo : Int) ≤ i64Max ∧
    let ds := ((System.init 0).run firstOffsetHash (fun _ _ => appendMerge) firstWriteActs).dataset
    Tiles 0 ((Chain.dataSlices ds.chain).map (·.interval)) ∧
      ∀ d ∈ Chain.dataSlices ds.chain, ∃ f, (d.physicalHash, f) ∈ ds.dataRepo ∧
        0 < f.rows.length ∧ d.interval.end = d.interval.start + f.rows.length - 1 ∧
        f.column "offset" = offsetsFrom d.interval.start f.rows.length :=
  ⟨by decide, offsets_contiguous_from_zero firstOffsetHash (fun _ _ => appendMerge) 0 firstWriteActs
    (by decide)⟩

/-- In every run, each `AddData` block's watermark is the watermark below it advanced to the
latest event time of its slice, so the watermarks of successive `AddData` blocks never go back. -/
theorem watermark_is_max_of_prev_and_slice (t : DateTime) (acts : List Action) :
    let ds := ((System.init t).run hashOf mergeStrategyFor acts).dataset
    (∀ (below : Chain) b above e, ds.chain = below ++ b :: above → b.event = .addData e →
      WatermarkLe below.lastWatermark e.outputWatermark ∧
      (e.outputData = none → e.outputWatermark = below.lastWatermark) ∧
      ∀ d, e.outputData = some d → ∃ f, (d.physicalHash, f) ∈ ds.dataRepo ∧
        ((∀ v ∈ f.column "event_time", ∃ t, v = .int t) →
          e.outputWatermark = below.lastWatermark.max (maxEventTime defaultVocab f))) ∧
    ∀ c₁ c₂ c₃ b₁ b₂ e₁ e₂, ds.chain = c₁ ++ b₁ :: (c₂ ++ b₂ :: c₃) →
      b₁.event = .addData e₁ → b₂.event = .addData e₂ →
      WatermarkLe e₁.outputWatermark e₂.outputWatermark := by
  have hok := (inv_reachable hashOf mergeStrategyFor t acts).chain
  refine ⟨fun below b above e hc hb => ?_, fun c₁ c₂ c₃ b₁ b₂ e₁ e₂ hc hb₁ hb₂ => ?_⟩
  · rw [hc] at hok
    exact hok.addData_watermark hb
  · rw [hc] at hok
    exact hok.addData_watermark_mono hb₁ hb₂

/-- In every run, no writer commits a second `SetDataSchema` block, and below every slice lies
the `SetDataSchema` block recording the slice's schema. -/
theorem schema_set_once_and_kept (t : DateTime) (acts : List Action) :
    let ds := ((System.init t).run hashOf mergeStrategyFor acts).dataset
    (∀ c₁ c₂ c₃ b₁ b₂ e₁ e₂, ds.chain = c₁ ++ b₁ :: (c₂ ++ b₂ :: c₃) →
      b₁.event = .setDataSchema e₁ → b₂.event ≠ .setDataSchema e₂) ∧
    ∀ (below : Chain) b above e d, ds.chain = below ++ b :: above → b.event = .addData e →
      e.outputData = some d → ∃ f, (d.physicalHash, f) ∈ ds.dataRepo ∧
        ∃ b' ∈ below, b'.event = .setDataSchema ⟨some f.fields⟩ := by
  have hok := (inv_reachable hashOf mergeStrategyFor t acts).chain
  refine ⟨fun c₁ c₂ c₃ b₁ b₂ e₁ e₂ hc hb₁ => ?_, fun below b above e d hc hb hd => ?_⟩
  · rw [hc] at hok
    exact hok.setDataSchema_unique hb₁
  · rw [hc] at hok
    exact hok.addData_schema hb hd

/-- Staging fails as an empty commit exactly when there is no data (no batch, or none left after
the merge), the watermark stays and the source state stays; so no run commits an `AddData`
block that changes nothing, and right after a successful `write` a `write` of no batch with the
same source state is an empty commit that changes nothing. Staging that succeeds has computed
`last_offset + 1`, so the hypothesis leaves out a writer at `last_offset = i64::MAX`, where the
code aborts instead. -/
theorem empty_commit_iff_nothing_changes {w : DataWriterDataFusion} {ds : Dataset}
    {newData : Option DataFrame} {opts : WriteDataOpts} {addData : AddDataParams}
    {outputSchema : Option Schema} {dataFile : Option DataFrame}
    (h : w.stageAddData ds newData opts = .ok (addData, outputSchema, dataFile)) :
    (w.stage ds newData opts = .error .emptyCommit ↔
      (newData = none ∨ ∃ b prev merged, newData = some b ∧
        getAllPreviousData ds w.meta.dataSlices = .ok prev ∧
        w.mergeStrategy prev (normalizeRawResult b) = .ok merged ∧ merged.rows = []) ∧
      addData.outputWatermark = w.meta.lastWatermark ∧ opts.sourceState = w.meta.lastSourceState) ∧
    (∀ t acts (below : Chain) b above e,
      ((System.init t).run hashOf mergeStrategyFor acts).dataset.chain = below ++ b :: above →
      b.event = .addData e → e.outputData.isSome ∨ e.outputWatermark ≠ below.lastWatermark ∨
        e.sourceState ≠ below.lastSourceState) ∧
    ∀ env w' ds' res opts' env', w.write hashOf ds newData opts env = (w', ds', .ok res) →
      opts'.sourceState = opts.sourceState →
      w'.write hashOf ds' none opts' env' = (w', ds', .error .emptyCommit) := by
  refine ⟨?_, fun t acts below b above e hc hb => ?_, fun env w' ds' res opts' env' hw hss => ?_⟩
  · rw [DataWriterDataFusion.stage_emptyCommit_iff h,
      DataWriterDataFusion.stageAddData_outputData_none_iff h]
  · have hok := (inv_reachable hashOf mergeStrategyFor t acts).chain
    rw [hc] at hok
    exact hok.addData_changes hb
  · exact DataWriterDataFusion.write_then_unchanged_write_is_empty hw hss env'

/-- A writer on the seed dataset asked to write nothing, with no source state, stages an empty
commit. -/
theorem seed_writer_empty_write_is_empty_commit :
    seedWriter.stage seedDataset none ⟨1000000, 1000000, none⟩ = .error .emptyCommit :=
  (empty_commit_iff_nothing_changes firstOffsetHash (fun _ _ => appendMerge)
    (show seedWriter.stageAddData seedDataset none ⟨1000000, 1000000, none⟩ =
      .ok (⟨none, none, none, none⟩, none, none) from rfl)).1.mpr ⟨.inl rfl, rfl, rfl⟩

end Runs

namespace DataWriterDataFusion
variable {hashOf : DataFrame → Multihash} {w w' : DataWriterDataFusion} {ds ds' : Dataset}
  {staged : StageDataResult}

end DataWriterDataFusion

end KamuCli.Ingest
