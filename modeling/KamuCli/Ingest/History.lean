import KamuCli.Ingest.Writers

/-! The dataset's history under any writers: a step leaves the dataset alone or puts one block
on the head, committed by a writer that holds the head. So every file stored is one `stage`
wrote, every stored file has the chain's schema, and from these follow what a writer reads back
and where `stage` can overflow. -/
namespace KamuCli.Ingest
open Arrow Odf

/-- The writer an action steps. -/
def Action.writer : Action → Nat
  | .build i _ | .stage i _ _ | .commitSchema i _ | .commitData i _ _ => i

/-- The file a writer holds staged in its current call. -/
def Phase.dataFile : Phase → Option DataFrame
  | .idle => none
  | .staged r | .schemaCommitted r _ => r.dataFile

/-- A dataset whose chain and object repository continue those of `ds`. -/
def Dataset.Extends (ds ds' : Dataset) : Prop :=
  ds.chain <+: ds'.chain ∧ ds.dataRepo <+: ds'.dataRepo

theorem Dataset.Extends.refl (ds : Dataset) : ds.Extends ds :=
  ⟨List.prefix_refl _, List.prefix_refl _⟩

namespace System
variable (hashOf : DataFrame → Multihash)
  (mergeStrategyFor : MergeStrategy → DatasetVocabularyResolved → MergeFn)

/-- What one step does to the dataset: nothing, or one block on the head, committed by the
stepping writer while it holds the head; a file is stored only by its data commit, and it is
the file the writer staged. -/
theorem step_dataset (s : System) (a : Action) :
    (s.step hashOf mergeStrategyFor a).dataset = s.dataset ∨
      ∃ slot, s.writers a.writer = some slot ∧ slot.writer.meta.head = s.dataset.chain.head ∧
        ∃ b more, (s.step hashOf mergeStrategyFor a).dataset =
            ⟨s.dataset.chain ++ [b], s.dataset.dataRepo ++ more⟩ ∧
          b.prevBlockHash = some s.dataset.chain.head ∧
          ∀ p ∈ more, ∃ r oldHead, slot.phase = .schemaCommitted r oldHead ∧ r.dataFile = some p.2 := by
  cases a with
  | build i sourceName =>
    left
    simp only [step]
    split
    · rfl
    · rfl
    · split <;> rfl
  | stage i newData opts =>
    left
    simp only [step]
    split
    · split <;> rfl
    · rfl
  | commitSchema i stored =>
    simp only [step]
    split
    · rename_i w r hw
      split
      · rename_i w' ds hc
        rcases DataWriterDataFusion.commitSchema_ok hc with ⟨-, rfl, -⟩ | ⟨sch, -, -, hh, -, rfl⟩
        · exact .inl rfl
        · exact .inr ⟨_, hw, hh, ⟨r.systemTime, some w.meta.head, .setDataSchema (.new sch)⟩, [],
            by simp [setSlot], by rw [hh], by simp⟩
      · exact .inl rfl
    · exact .inl rfl
  | commitData i stored read =>
    simp only [step]
    split
    · rename_i w r oldHead hw
      rw [DataWriterDataFusion.commitData_eq]
      by_cases hcas : w.meta.head = s.dataset.chain.head ∧ stored
      · rw [if_pos hcas]
        refine .inr ⟨_, hw, hcas.1, dataBlock hashOf r w.meta.head,
          r.dataFile.toList.map fun f => (hashOf f, f), by split <;> rfl,
          by simp [dataBlock, hcas.1], fun p hp => ?_⟩
        obtain ⟨f, hf, rfl⟩ := List.mem_map.mp hp
        exact ⟨r, oldHead, rfl, Option.mem_toList.mp hf⟩
      · rw [if_neg hcas]
        exact .inl rfl
    · exact .inl rfl

theorem extends_step (s : System) (a : Action) :
    s.dataset.Extends (s.step hashOf mergeStrategyFor a).dataset := by
  rcases step_dataset hashOf mergeStrategyFor s a with h | ⟨-, -, -, b, more, h, -⟩ <;> rw [h]
  · exact .refl _
  · exact ⟨List.prefix_append _ _, List.prefix_append _ _⟩

end System

section Files

/-- What every file `stage` writes satisfies under the vocabulary `vocab`: its rows are in
event-time order, nulls last. -/
structure SliceFileOk (vocab : DatasetVocabularyResolved) (f : DataFrame) : Prop where
  sorted : f.rows.Sorted fun a b => (a vocab.eventTimeColumn).ascNullsLast (b vocab.eventTimeColumn)

namespace DataWriterDataFusion
variable {w : DataWriterDataFusion} {ds : Dataset} {newData : Option DataFrame}
  {opts : WriteDataOpts} {f : DataFrame}

theorem stageAddData_dataFile {addData : AddDataParams} {outputSchema : Option Schema}
    (hv : ColNamesKept w.meta.vocab)
    (h : w.stageAddData ds newData opts = .ok (addData, outputSchema, some f)) :
    SliceFileOk w.meta.vocab f := by
  cases newData with
  | none => simp [stageAddData] at h
  | some newData =>
    obtain ⟨_, _, out, -, -, hout, -, -, -, -, -, hcase⟩ := stageAddData_some_ok h
    rcases hcase with ⟨-, ⟨⟩, -⟩ | ⟨⟨⟩, -⟩
    exact ⟨withSystemColumns_sorted _ _ hv hout⟩

/-- Every file `stage` hands over, under names `col()` keeps, was sorted by
`with_system_columns`. -/
theorem stage_dataFile {r : StageDataResult} (hv : ColNamesKept w.meta.vocab)
    (h : w.stage ds newData opts = .ok r) (hf : r.dataFile = some f) : SliceFileOk w.meta.vocab f := by
  obtain ⟨addData, outputSchema, dataFile, hs, -, rfl⟩ := stage_eq_ok h
  obtain rfl : dataFile = some f := hf
  exact stageAddData_dataFile hv hs

end DataWriterDataFusion

variable (hashOf : DataFrame → Multihash)
  (mergeStrategyFor : MergeStrategy → DatasetVocabularyResolved → MergeFn)

/-- A file a writer holds staged after a step it held before, or it has just staged it. -/
theorem System.step_staged (s : System) (a : Action) {j : Nat} {slot' : Slot} {f : DataFrame}
    (h : (s.step hashOf mergeStrategyFor a).writers j = some slot')
    (hf : slot'.phase.dataFile = some f) :
    (∃ slot, s.writers j = some slot ∧ slot.phase.dataFile = some f) ∨
      ∃ w newData opts r, s.writers j = some ⟨w, .idle⟩ ∧
        w.stage s.dataset newData opts = .ok r ∧ r.dataFile = some f := by
  have hset : ∀ {i slot ds}, (s.setSlot i slot ds).writers j = some slot' →
      (j = i ∧ slot = slot') ∨ s.writers j = some slot' := by
    intro i slot ds h
    change Function.update s.writers i (some slot) j = some slot' at h
    rw [Function.update_apply] at h
    split_ifs at h with hji
    · exact .inl ⟨hji, Option.some.inj h⟩
    · exact .inr h
  have keep : s.writers j = some slot' → (∃ slot, s.writers j = some slot ∧
      slot.phase.dataFile = some f) := fun h => ⟨slot', h, hf⟩
  cases a with
  | build i sourceName =>
    simp only [System.step] at h
    split at h
    · exact .inl (keep h)
    · exact .inl (keep h)
    · split at h
      · rcases hset h with ⟨-, rfl⟩ | h
        · cases hf
        · exact .inl (keep h)
      · exact .inl (keep h)
  | stage i newData opts =>
    simp only [System.step] at h
    split at h
    · rename_i w hw
      split at h
      · rename_i r hr
        rcases hset h with ⟨rfl, rfl⟩ | h
        · exact .inr ⟨w, newData, opts, r, hw, hr, hf⟩
        · exact .inl (keep h)
      · exact .inl (keep h)
    · exact .inl (keep h)
  | commitSchema i stored =>
    simp only [System.step] at h
    split at h
    · rename_i w r hw
      split at h
      · rcases hset h with ⟨rfl, rfl⟩ | h
        · exact .inl ⟨_, hw, hf⟩
        · exact .inl (keep h)
      · rcases hset h with ⟨-, rfl⟩ | h
        · cases hf
        · exact .inl (keep h)
    · exact .inl (keep h)
  | commitData i stored read =>
    simp only [System.step] at h
    split at h
    · rcases hset h with ⟨-, rfl⟩ | h
      · cases hf
      · exact .inl (keep h)
    · exact .inl (keep h)

/-- A writer in step with a well-built chain holds the default vocabulary. -/
theorem Inv.vocab_eq {s : System} (h : Inv s) {i : Nat} {slot : Slot}
    (hw : s.writers i = some slot) : slot.writer.meta.vocab = defaultVocab :=
  (h.slots i slot hw).1.vocab_eq h.chain

/-- Every stored file, and every file a writer holds staged, is one `stage` wrote. -/
structure FilesOk (s : System) : Prop where
  stored : ∀ p ∈ s.dataset.dataRepo, SliceFileOk defaultVocab p.2
  staged : ∀ j slot f, s.writers j = some slot → slot.phase.dataFile = some f →
    SliceFileOk defaultVocab f

theorem FilesOk.step {s : System} (hinv : Inv s) (h : FilesOk s) (a : Action) :
    FilesOk (s.step hashOf mergeStrategyFor a) := by
  refine ⟨fun p hp => ?_, fun j slot' f hj hf => ?_⟩
  · rcases System.step_dataset hashOf mergeStrategyFor s a with
      hd | ⟨slot, hslot, -, b, more, hd, -, hmore⟩ <;> rw [hd] at hp
    · exact h.stored p hp
    · rcases List.mem_append.mp hp with hp | hp
      · exact h.stored p hp
      · obtain ⟨r, oldHead, hph, hr⟩ := hmore p hp
        exact h.staged _ slot p.2 hslot (by rw [hph]; exact hr)
  · rcases System.step_staged hashOf mergeStrategyFor s a hj hf with
      ⟨slot, hs, hd⟩ | ⟨w, newData, opts, r, hw, hst, hr⟩
    · exact h.staged j slot f hs hd
    · have hok := DataWriterDataFusion.stage_dataFile
        ((hinv.vocab_eq hw).symm ▸ colNamesKept_defaultVocab) hst hr
      rwa [hinv.vocab_eq hw] at hok

theorem filesOk_reachable (t : DateTime) (acts : List Action) :
    FilesOk ((System.init t).run hashOf mergeStrategyFor acts) := by
  suffices ∀ s, Inv s → FilesOk s → FilesOk (s.run hashOf mergeStrategyFor acts) from
    this _ (inv_init t) ⟨fun p hp => absurd hp (List.not_mem_nil p), fun _ _ _ h => nomatch h⟩
  induction acts with
  | nil => exact fun _ _ h => h
  | cons a acts ih =>
    exact fun s hinv h => ih _ (inv_step hashOf mergeStrategyFor hinv a) (h.step hashOf
      mergeStrategyFor hinv a)

/-- In every run of any writers on a root dataset, each slice is stored with its rows in
event-time order and its offsets counting up by one along the rows, from the slice's first offset
or, for a slice whose numbering wrapped, from where the numbering began: within a slice a larger
offset, until a wrap, never carries an earlier event time. -/
theorem slices_in_event_time_order (t : DateTime) (acts : List Action) :
    ∀ d ∈ Chain.dataSlices ((System.init t).run hashOf mergeStrategyFor acts).dataset.chain,
      ∃ f, (d.physicalHash, f) ∈ ((System.init t).run hashOf mergeStrategyFor acts).dataset.dataRepo ∧
        (∃ start, f.column "offset" = wrappedOffsetsFrom start f.rows.length ∧
          (d.interval.start = start ∨ d.interval = ⟨i64Min, i64Max⟩)) ∧
        f.rows.Sorted fun a b => (a "event_time").ascNullsLast (b "event_time") := by
  intro d hd
  obtain ⟨f, hmem, hcount⟩ := (inv_reachable hashOf mergeStrategyFor t acts).chain.slices_count_up d hd
  exact ⟨f, hmem, hcount, ((filesOk_reachable hashOf mergeStrategyFor t acts).stored _ hmem).sorted⟩

/-- The slice of the first write is stored in event-time order. -/
theorem first_slice_in_event_time_order :
    let d : DataSlice := ⟨0, ⟨0, 0⟩⟩
    let ds := ((System.init 0).run firstOffsetHash (fun _ _ => appendMerge) firstWriteActs).dataset
    d ∈ Chain.dataSlices ds.chain ∧ ∃ f, (d.physicalHash, f) ∈ ds.dataRepo ∧
      (∃ start, f.column "offset" = wrappedOffsetsFrom start f.rows.length ∧
        (d.interval.start = start ∨ d.interval = ⟨i64Min, i64Max⟩)) ∧
      f.rows.Sorted fun a b => (a "event_time").ascNullsLast (b "event_time") :=
  have hd : (⟨0, ⟨0, 0⟩⟩ : DataSlice) ∈ Chain.dataSlices ((System.init 0).run firstOffsetHash
      (fun _ _ => appendMerge) firstWriteActs).dataset.chain := by decide
  ⟨hd, slices_in_event_time_order firstOffsetHash (fun _ _ => appendMerge) 0 firstWriteActs _ hd⟩

/-- Every stored file has the chain's schema. -/
def RepoSchemaOk (s : System) : Prop :=
  ∀ p ∈ s.dataset.dataRepo, s.dataset.chain.schema = some p.2.fields

/-- A writer stores a file only past the schema commit, under the schema the chain holds. -/
theorem RepoSchemaOk.step {s : System} {a : Action} (hinv : Inv s)
    (hinv' : Inv (s.step hashOf mergeStrategyFor a)) (h : RepoSchemaOk s) :
    RepoSchemaOk (s.step hashOf mergeStrategyFor a) := by
  intro p hp
  rcases System.step_dataset hashOf mergeStrategyFor s a with
    hd | ⟨slot, hslot, hhead, b, more, hd, -, hmore⟩
  · rw [hd] at hp ⊢
    exact h p hp
  have hchain := hinv'.chain
  rw [hd] at hp hchain ⊢
  have hold : s.dataset.chain.schema = some p.2.fields := by
    rcases List.mem_append.mp hp with hp | hp
    · exact h p hp
    obtain ⟨r, oldHead, hph, hr⟩ := hmore p hp
    obtain ⟨hsync, hphase⟩ := hinv.slots _ slot hslot
    rw [hph] at hphase
    obtain ⟨⟨-, hcompat, hslice⟩, hsch⟩ := hphase
    have hout : r.outputSchema = some p.2.fields := by
      rcases hd : r.addData.outputData with _ | interval <;>
        simp only [StagedSlice, hd, hr] at hslice
      exact hslice.1
    obtain ⟨sch, hs⟩ := Option.isSome_iff_exists.mp (hsch (by simp [hout]))
    rw [← (hsync.at_head hhead).projection_fields.2.1, hs, hcompat sch _ hs hout]
  obtain ⟨b', hb', he⟩ := exists_setDataSchema_of_schema hold
  exact hchain.schema_eq_of_mem (List.mem_append_left _ hb') he

theorem repoSchemaOk_reachable (t : DateTime) (acts : List Action) :
    RepoSchemaOk ((System.init t).run hashOf mergeStrategyFor acts) := by
  suffices ∀ s, Inv s → RepoSchemaOk s → RepoSchemaOk (s.run hashOf mergeStrategyFor acts) from
    this _ (inv_init t) fun p hp => absurd hp (List.not_mem_nil p)
  induction acts with
  | nil => exact fun _ _ h => h
  | cons a acts ih =>
    exact fun s hinv h => ih _ (inv_step hashOf mergeStrategyFor hinv a)
      (RepoSchemaOk.step hashOf mergeStrategyFor hinv (inv_step hashOf mergeStrategyFor hinv a) h)

theorem lookup_of_mem {l : List (Multihash × DataFrame)} {x : Multihash} {f : DataFrame}
    (h : (x, f) ∈ l) : ∃ f', l.lookup x = some f' ∧ (x, f') ∈ l := by
  obtain ⟨f', hf'⟩ :=
    Option.isSome_iff_exists.mp (List.lookup_isSome_iff.mpr ⟨_, h, beq_self_eq_true x⟩)
  obtain ⟨l₁, l₂, rfl, -⟩ := List.lookup_eq_some_iff.mp hf'
  exact ⟨f', hf', List.mem_append_right _ (List.mem_cons_self _ _)⟩

theorem lookup_eq_of_nodup {l : List (Multihash × DataFrame)} {x : Multihash} {f : DataFrame}
    (hl : (l.map Prod.fst).Nodup) (h : (x, f) ∈ l) : l.lookup x = some f := by
  obtain ⟨f', hf', hm⟩ := lookup_of_mem h
  obtain rfl : f' = f := congrArg Prod.snd (List.inj_on_of_nodup_map hl hm h rfl)
  exact hf'

theorem mapM_eq_some {l : List Multihash} {g : Multihash → Option DataFrame}
    {P : DataFrame → Prop} (h : ∀ x ∈ l, ∃ y, g x = some y ∧ P y) :
    ∃ ys, l.mapM g = some ys ∧ ys.length = l.length ∧ ∀ y ∈ ys, P y := by
  induction l with
  | nil => exact ⟨[], rfl, rfl, fun _ h => absurd h (List.not_mem_nil _)⟩
  | cons x l ih =>
    obtain ⟨y, hy, hP⟩ := h x (List.mem_cons_self _ _)
    obtain ⟨ys, hys, hlen, hall⟩ := ih fun x' hx' => h x' (List.mem_cons_of_mem _ hx')
    refine ⟨y :: ys, by rw [List.mapM_cons, hy, hys]; rfl, by simp [hlen], ?_⟩
    rintro z (_ | ⟨_, hz⟩)
    · exact hP
    · exact hall z hz

theorem flatMap_of_mapM_eq_some {l : List Multihash} {g : Multihash → Option DataFrame}
    {files : List DataFrame} (h : l.mapM g = some files) (k : DataFrame → List Value) :
    files.flatMap k = l.flatMap fun x => ((g x).map k).getD [] := by
  induction l generalizing files with
  | nil => cases h; rfl
  | cons x l ih =>
    rw [List.mapM_cons] at h
    cases hy : g x <;> cases hys : l.mapM g <;> simp only [hy, hys] at h <;> cases h
    simp [ih hys, hy]

/-- The read of previous data, when every listed slice is stored with one schema: it succeeds,
and each column is the slices' columns, oldest listed last read first. -/
theorem getAllPreviousData_eq_some {ds : Dataset} {l : List Multihash} {sch : Option Schema}
    (hne : l ≠ []) (hstored : ∀ x ∈ l, ∃ f, ds.dataRepo.lookup x = some f ∧ sch = some f.fields) :
    ∃ df, getAllPreviousData ds l = .ok (some df) ∧ ∀ c,
      df.column c = l.reverse.flatMap fun x => ((ds.dataRepo.lookup x).map (·.column c)).getD [] := by
  obtain ⟨files, hm, hlen, hall⟩ :=
    mapM_eq_some fun x hx => hstored x (List.mem_reverse.mp hx)
  unfold getAllPreviousData
  rw [if_neg (by simpa using hne), hm]
  cases files with
  | nil => exact absurd (List.reverse_eq_nil_iff.mp (List.eq_nil_of_length_eq_zero hlen.symm)) hne
  | cons f fs =>
    have hsame : fs.all (·.fields = f.fields) := List.all_eq_true.mpr fun g hg => by
      have hg' := hall g (List.mem_cons_of_mem _ hg)
      rw [hall f (List.mem_cons_self _ _), Option.some.injEq] at hg'
      simp [hg']
    simp only [DataFrame.readParquet, hsame, ↓reduceIte]
    refine ⟨_, rfl, fun c => ?_⟩
    rw [← flatMap_of_mapM_eq_some hm]
    exact List.map_flatMap _ _ _

/-- Under the invariants, a writer's read of the previous data succeeds, and returns nothing
exactly when the writer lists no slice. -/
theorem Inv.previousData_ok {s : System} (hinv : Inv s) (hrepo : RepoSchemaOk s) {i : Nat}
    {slot : Slot} (h : s.writers i = some slot) :
    ∃ prev, getAllPreviousData s.dataset slot.writer.meta.dataSlices = .ok prev ∧
      (prev = none ↔ slot.writer.meta.dataSlices = []) := by
  by_cases he : slot.writer.meta.dataSlices = []
  · exact ⟨none, by simp [getAllPreviousData, he], by simp [he]⟩
  obtain ⟨df, hdf, -⟩ := getAllPreviousData_eq_some he fun x hx => by
    obtain ⟨d, hd, rfl⟩ :=
      List.mem_map.mp (List.mem_reverse.mp ((hinv.slots i slot h).1.dataSlices_perm.subset hx))
    obtain ⟨f, hf, -⟩ := (hinv.chain.take _).slices_stored d hd
    obtain ⟨f', hl', hm'⟩ := lookup_of_mem hf
    exact ⟨f', hl', hrepo _ hm'⟩
  exact ⟨_, hdf, by simp [he]⟩

/-- In every run of any writers on a root dataset, every writer's read of the previous data
succeeds: each slice it lists is in the object repository, and all of them have the chain's
schema, so `read_parquet` never meets a missing file or mismatched schemas. -/
theorem previous_data_read_never_fails (t : DateTime) (acts : List Action) (i : Nat) (slot : Slot)
    (h : ((System.init t).run hashOf mergeStrategyFor acts).writers i = some slot) :
    ∃ prev, getAllPreviousData ((System.init t).run hashOf mergeStrategyFor acts).dataset
        slot.writer.meta.dataSlices = .ok prev ∧ (prev = none ↔ slot.writer.meta.dataSlices = []) :=
  (inv_reachable hashOf mergeStrategyFor t acts).previousData_ok
    (repoSchemaOk_reachable hashOf mergeStrategyFor t acts) h

/-- After the first write, its writer lists a slice and reads it back. -/
theorem first_writer_reads_back_its_slice :
    ∃ slot, ((System.init 0).run firstOffsetHash (fun _ _ => appendMerge) firstWriteActs).writers 0 =
        some slot ∧ slot.writer.meta.dataSlices ≠ [] ∧
      ∃ prev, getAllPreviousData ((System.init 0).run firstOffsetHash (fun _ _ => appendMerge)
          firstWriteActs).dataset slot.writer.meta.dataSlices = .ok prev ∧
        (prev = none ↔ slot.writer.meta.dataSlices = []) :=
  ⟨_, rfl, by decide,
    previous_data_read_never_fails firstOffsetHash (fun _ _ => appendMerge) 0 firstWriteActs 0 _ rfl⟩

theorem offsetsFrom_append {s t : Int} (a b : Nat) (ht : t = s + a) :
    offsetsFrom s a ++ offsetsFrom t b = offsetsFrom s (a + b) := by
  subst ht
  simp only [offsetsFrom, List.range_add, List.map_append, List.map_map, Function.comp_def,
    Int.natCast_add, Int.add_assoc]

/-- Intervals lying end to end from `start`, read one after another, number every offset from
`start` to the last one's end once. -/
theorem tiles_flatMap_offsetsFrom {start : Int} {l : List OffsetInterval} (h : Tiles start l)
    (hle : ∀ i ∈ l, i.start ≤ i.end) :
    start ≤ (l.getLast?.map (·.end + 1)).getD start ∧
      l.flatMap (fun i => offsetsFrom i.start (i.end + 1 - i.start).toNat) =
        offsetsFrom start ((l.getLast?.map (·.end + 1)).getD start - start).toNat := by
  induction l generalizing start with
  | nil => simp [offsetsFrom]
  | cons i l ih =>
    obtain ⟨rfl, ht⟩ := h
    have hi := hle i (List.mem_cons_self _ _)
    obtain ⟨hge, hl⟩ := ih ht fun j hj => hle j (List.mem_cons_of_mem _ hj)
    have hend : ((i :: l).getLast?.map (·.end + 1)).getD i.start =
        (l.getLast?.map (·.end + 1)).getD (i.end + 1) := by
      rw [List.getLast?_cons]
      cases l.getLast? <;> rfl
    rw [hend, List.flatMap_cons, hl, offsetsFrom_append _ _ (by omega)]
    exact ⟨by omega, congrArg _ (by omega)⟩

/-- Under the invariants, with no two stored files under one hash, the previous data a writer
reads holds each offset below its next offset once. -/
theorem Inv.previousData_offsets {s : System} (hinv : Inv s) (hrepo : RepoSchemaOk s) {i : Nat}
    {slot : Slot} (h : s.writers i = some slot) (hkeys : (s.dataset.dataRepo.map Prod.fst).Nodup)
    (hrows : (rowCount s.dataset.dataRepo : Int) ≤ i64Max) :
    ∃ prev, getAllPreviousData s.dataset slot.writer.meta.dataSlices = .ok prev ∧
      ((prev.map (·.column "offset")).getD []).Perm
        (offsetsFrom 0 (nextOffset slot.writer.meta.lastOffset).toNat) := by
  have hsync := (hinv.slots i slot h).1
  obtain ⟨htiles, hfiles⟩ := (hinv.chain.take slot.writer.meta.head).offsets fun d hd =>
    lt_of_lt_of_le (hinv.rows d (Chain.mem_dataSlices_of_mem_take hd)) hrows
  have hfile : ∀ d ∈ Chain.dataSlices (s.dataset.chain.take slot.writer.meta.head), ∃ f,
      s.dataset.dataRepo.lookup d.physicalHash = some f ∧ s.dataset.chain.schema = some f.fields ∧
      f.column "offset" = offsetsFrom d.interval.start (d.interval.end + 1 - d.interval.start).toNat := by
    intro d hd
    obtain ⟨f, hf, hpos, hend, hcol⟩ := hfiles d hd
    refine ⟨f, lookup_eq_of_nodup hkeys hf, hrepo _ hf, hcol.trans ?_⟩
    rw [hend]
    congr 1
    omega
  have hle : ∀ j ∈ (Chain.dataSlices (s.dataset.chain.take slot.writer.meta.head)).map (·.interval),
      j.start ≤ j.end := by
    simp only [List.mem_map]
    rintro _ ⟨d, hd, rfl⟩
    obtain ⟨f, -, hpos, hend, -⟩ := hfiles d hd
    omega
  have hall := (tiles_flatMap_offsetsFrom htiles hle).2
  rw [Int.sub_zero] at hall
  have htotal : ((Chain.dataSlices (s.dataset.chain.take slot.writer.meta.head)).map
      (·.physicalHash)).flatMap (fun x => ((s.dataset.dataRepo.lookup x).map
        (·.column "offset")).getD []) =
      offsetsFrom 0 (nextOffset slot.writer.meta.lastOffset).toNat := by
    rw [hsync.2.projection_fields.2.2.2.1, nextOffset_eq, ← hall, List.flatMap_map,
      List.flatMap_map]
    exact List.flatMap_congr fun d hd => by
      obtain ⟨f, hl, -, hc⟩ := hfile d hd
      simp [hl, hc]
  have hperm : slot.writer.meta.dataSlices.reverse.Perm
      ((Chain.dataSlices (s.dataset.chain.take slot.writer.meta.head)).map (·.physicalHash)) :=
    (List.reverse_perm _).trans (hsync.dataSlices_perm.trans (List.reverse_perm _))
  by_cases he : slot.writer.meta.dataSlices = []
  · refine ⟨none, by simp [getAllPreviousData, he], ?_⟩
    rw [he, List.reverse_nil, List.nil_perm] at hperm
    rw [← htotal, hperm]
    exact List.Perm.refl _
  obtain ⟨df, hdf, hcol⟩ := getAllPreviousData_eq_some he fun x hx => by
    obtain ⟨d, hd, rfl⟩ := List.mem_map.mp (hperm.subset (List.mem_reverse.mpr hx))
    obtain ⟨f, hl, hs, -⟩ := hfile d hd
    exact ⟨f, hl, hs⟩
  refine ⟨some df, hdf, ?_⟩
  rw [← htotal, Option.map_some', Option.getD_some, hcol]
  exact hperm.flatMap_right _

/-- In every run of any writers on a root dataset, as long as no two stored files share a
physical hash and at most `i64::MAX` rows are stored, the previous data a writer reads holds each
offset below the writer's next offset exactly once: the merge strategy sees every record the
writer knows of, and nothing twice. -/
theorem previous_data_holds_each_offset_once (t : DateTime) (acts : List Action) (i : Nat)
    (slot : Slot) (h : ((System.init t).run hashOf mergeStrategyFor acts).writers i = some slot)
    (hkeys : (((System.init t).run hashOf mergeStrategyFor acts).dataset.dataRepo.map
      Prod.fst).Nodup)
    (hrows : (rowCount ((System.init t).run hashOf mergeStrategyFor acts).dataset.dataRepo : Int) ≤
      i64Max) :
    ∃ prev, getAllPreviousData ((System.init t).run hashOf mergeStrategyFor acts).dataset
        slot.writer.meta.dataSlices = .ok prev ∧
      ((prev.map (·.column "offset")).getD []).Perm
        (offsetsFrom 0 (nextOffset slot.writer.meta.lastOffset).toNat) :=
  (inv_reachable hashOf mergeStrategyFor t acts).previousData_offsets
    (repoSchemaOk_reachable hashOf mergeStrategyFor t acts) h hkeys hrows

/-- After the first write, its writer, whose next offset is one, reads offset zero once. -/
theorem first_writer_reads_offset_zero_once :
    ∃ slot, ((System.init 0).run firstOffsetHash (fun _ _ => appendMerge) firstWriteActs).writers 0 =
        some slot ∧ nextOffset slot.writer.meta.lastOffset = 1 ∧
      (((System.init 0).run firstOffsetHash (fun _ _ => appendMerge)
        firstWriteActs).dataset.dataRepo.map Prod.fst).Nodup ∧
      (rowCount ((System.init 0).run firstOffsetHash (fun _ _ => appendMerge)
        firstWriteActs).dataset.dataRepo : Int) ≤ i64Max ∧
      ∃ prev, getAllPreviousData ((System.init 0).run firstOffsetHash (fun _ _ => appendMerge)
          firstWriteActs).dataset slot.writer.meta.dataSlices = .ok prev ∧
        ((prev.map (·.column "offset")).getD []).Perm
          (offsetsFrom 0 (nextOffset slot.writer.meta.lastOffset).toNat) :=
  ⟨_, rfl, by decide, by decide, by decide, previous_data_holds_each_offset_once firstOffsetHash
    (fun _ _ => appendMerge) 0 firstWriteActs 0 _ rfl (by decide) (by decide)⟩

end Files
end KamuCli.Ingest
