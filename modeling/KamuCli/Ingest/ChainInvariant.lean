import KamuCli.Ingest.Commit

/-! The chains the writers build: every block is well placed on the blocks below it. From this
one per-block invariant follow the offsets laid end to end, the watermark never going back,
and a single schema governing every slice. -/
namespace KamuCli.Ingest
open Arrow Odf

/-- The vocabulary of a dataset that never set one. -/
def defaultVocab : DatasetVocabularyResolved := DatasetVocabulary.default.resolve

/-- What a writer guarantees of an `AddData` event committed on top of the chain `c`: it changes
something, and its slice is a stored file numbered on from the chain under the chain's schema;
without a slice it carries the chain's watermark. -/
def AddDataOk (repo : List (Multihash × DataFrame)) (c : Chain) (e : AddData) : Prop :=
  (e.outputData.isSome ∨ e.outputWatermark ≠ c.lastWatermark ∨
    e.sourceState ≠ c.lastSourceState) ∧
  match e.outputData with
  | some d => ∃ f, (d.physicalHash, f) ∈ repo ∧ c.schema = some f.fields ∧
    SliceOk c.vocab (nextOffset c.lastOffset) c.lastWatermark d.interval e.outputWatermark f
  | none => e.outputWatermark = c.lastWatermark

/-- The blocks the writers append, placed on the chain `c`: the root seed first, a schema only
where there is none yet, and data as `AddDataOk` says. -/
def BlockOk (repo : List (Multihash × DataFrame)) (c : Chain) (b : MetadataBlock) : Prop :=
  match b.event with
  | .seed e => c = [] ∧ e.datasetKind = .root
  | .setDataSchema e => c.schema = none ∧ e.schema.isSome
  | .addData e => AddDataOk repo c e
  | _ => False

/-- Every block of the chain is well placed on the blocks below it. -/
def ChainOk (repo : List (Multihash × DataFrame)) (c : Chain) : Prop :=
  ∀ below b above, c = below ++ b :: above → BlockOk repo below b

/-- Watermark order: no watermark lies below every instant. -/
def WatermarkLe (a b : Option DateTime) : Prop := ∀ x, a = some x → ∃ y, b = some y ∧ x ≤ y

/-- Intervals laid end to end from `start`: each begins one past the end of the one before. -/
def Tiles : Int → List OffsetInterval → Prop
  | _, [] => True
  | start, i :: is => i.start = start ∧ Tiles (i.end + 1) is

/-- The instant an event-time cell of a column of type `ty` stands for. -/
def eventInstant (ty : DataType) (v : Int) : DateTime :=
  match ty with
  | .date32 => DateTime.ofMillis (v * 86400000)
  | _ => DateTime.ofMillis v

/-- The latest event time of a slice, its null cells skipped. -/
def maxEventTime (vocab : DatasetVocabularyResolved) (f : DataFrame) : Option DateTime :=
  ((Value.ints (f.column vocab.eventTimeColumn)).map
    (eventInstant (f.typeOf vocab.eventTimeColumn))).max?

theorem watermarkLe_refl (a : Option DateTime) : WatermarkLe a a :=
  fun x hx => ⟨x, hx, le_rfl⟩

theorem WatermarkLe.trans {a b c : Option DateTime} (h₁ : WatermarkLe a b) (h₂ : WatermarkLe b c) :
    WatermarkLe a c := fun x hx =>
  let ⟨y, hy, hxy⟩ := h₁ x hx
  let ⟨z, hz, hyz⟩ := h₂ y hy
  ⟨z, hz, hxy.trans hyz⟩

theorem watermarkLe_max (a : Option DateTime) (e : DateTime) : WatermarkLe a (a.max (some e)) := by
  rintro x rfl
  exact ⟨max x e, rfl, le_max_left x e⟩

theorem tiles_append {start : Int} {l : List OffsetInterval} {i : OffsetInterval} :
    Tiles start (l ++ [i]) ↔ Tiles start l ∧ i.start = (l.getLast?.map (·.end + 1)).getD start := by
  induction l generalizing start with
  | nil => simp [Tiles]
  | cons j l ih =>
    show (j.start = start ∧ Tiles (j.end + 1) (l ++ [i])) ↔ _
    rw [ih, List.getLast?_cons]
    cases l.getLast? <;> simp [Tiles, and_assoc]

private theorem max?_map_of_monotone {g : Int → Int} (hg : ∀ a b, a ≤ b → g a ≤ g b)
    (l : List Int) :
    (l.map g).max? = l.max?.map g := by
  cases hl : l.max? with
  | none => simp_all [List.max?_eq_none_iff]
  | some m =>
    have hm := (List.max?_eq_some_iff le_refl max_choice fun _ _ _ => max_le_iff).mp hl
    refine (List.max?_eq_some_iff le_refl max_choice fun _ _ _ => max_le_iff).mpr ⟨?_, ?_⟩
    · exact List.mem_map_of_mem g hm.1
    · simp only [List.mem_map]
      rintro _ ⟨a, ha, rfl⟩
      exact hg _ _ (hm.2 a ha)

private theorem elim_fromTimestampMillis {ms : Int} {err : StageDataError} {e : DateTime}
    (h : (DateTime.fromTimestampMillis ms).elim (.error err) Except.ok = .ok e) :
    e = DateTime.ofMillis ms := by
  unfold DateTime.fromTimestampMillis at h
  split_ifs at h <;> simp only [Option.elim, reduceCtorEq, Except.ok.injEq] at h
  exact h.symm

/-- On a nonempty slice whose event times are all present, the code's event-time maximum is the
latest event time. -/
theorem eventTimeMax_eq_maxEventTime {vocab : DatasetVocabularyResolved} {f : DataFrame}
    {e : DateTime} (hv : colName vocab.eventTimeColumn = vocab.eventTimeColumn)
    (h : eventTimeMax vocab f = .ok e) (hn : 0 < f.rows.length)
    (hcells : ∀ v ∈ f.column vocab.eventTimeColumn, ∃ t, v = .int t) :
    maxEventTime vocab f = some e := by
  obtain ⟨m, hm⟩ : ∃ m, (Value.ints (f.column vocab.eventTimeColumn)).max? = some m := by
    refine Option.ne_none_iff_exists'.mp fun hnone => ?_
    rw [List.max?_eq_none_iff, Value.ints, List.filterMap_eq_nil_iff] at hnone
    obtain ⟨r, hr⟩ := List.exists_mem_of_length_pos hn
    obtain ⟨t, ht⟩ := hcells _ (List.mem_map_of_mem (· vocab.eventTimeColumn) hr)
    simpa [ht] using hnone _ (List.mem_map_of_mem (· vocab.eventTimeColumn) hr)
  have hms : ∀ a b : Int, a ≤ b → DateTime.ofMillis a ≤ DateTime.ofMillis b :=
    fun _ _ hab => Int.mul_le_mul_of_nonneg_right hab (by omega)
  have hdays : ∀ a b : Int, a ≤ b →
      DateTime.ofMillis (a * 86400000) ≤ DateTime.ofMillis (b * 86400000) := fun _ _ hab =>
    Int.mul_le_mul_of_nonneg_right (Int.mul_le_mul_of_nonneg_right hab (by omega)) (by omega)
  simp only [eventTimeMax, hv, hm, Option.getD_some] at h
  unfold maxEventTime eventInstant
  split at h <;> rename_i hty
  · rw [elim_fromTimestampMillis h]; simp only [hty]; rw [max?_map_of_monotone hms, hm]; rfl
  · rw [elim_fromTimestampMillis h]; simp only [hty]; rw [max?_map_of_monotone hms, hm]; rfl
  · rw [elim_fromTimestampMillis h]; simp only [hty]; rw [max?_map_of_monotone hdays, hm]; rfl
  · cases h

section Blocks
variable {repo : List (Multihash × DataFrame)} {c : Chain} {b : MetadataBlock}

theorem chainOk_nil : ChainOk repo [] := fun below b above h => by simp at h

theorem chainOk_append_iff : ChainOk repo (c ++ [b]) ↔ ChainOk repo c ∧ BlockOk repo c b := by
  constructor
  · intro h
    exact ⟨fun below b' above hc => h below b' (above ++ [b]) (by simp [hc]), h c b [] rfl⟩
  · rintro ⟨hc, hb⟩ below b' above heq
    rcases List.eq_nil_or_concat above with rfl | ⟨L, x, rfl⟩
    · obtain ⟨rfl, h⟩ := List.append_inj' heq rfl
      cases h
      exact hb
    · rw [List.concat_eq_append, ← List.cons_append, ← List.append_assoc] at heq
      exact hc below b' L (List.append_inj' heq rfl).1

theorem ChainOk.of_append {c' : Chain} (h : ChainOk repo (c ++ c')) : ChainOk repo c :=
  fun below b above hc => h below b (above ++ c') (by simp [hc])

theorem ChainOk.take (h : ChainOk repo c) (n : Nat) : ChainOk repo (c.take n) := by
  rw [← List.take_append_drop n c] at h
  exact h.of_append

theorem AddDataOk.mono {e : AddData} (more : List (Multihash × DataFrame))
    (h : AddDataOk repo c e) : AddDataOk (repo ++ more) c e := by
  refine ⟨h.1, ?_⟩
  have h₂ := h.2
  revert h₂
  cases e.outputData with
  | none => exact id
  | some d => exact fun ⟨f, hf, hrest⟩ => ⟨f, List.mem_append_left _ hf, hrest⟩

theorem BlockOk.mono (more : List (Multihash × DataFrame)) (h : BlockOk repo c b) :
    BlockOk (repo ++ more) c b := by
  cases hb : b.event <;> simp only [BlockOk, hb] at h ⊢
  all_goals first | exact h.mono more | exact h

theorem ChainOk.mono (more : List (Multihash × DataFrame)) (h : ChainOk repo c) :
    ChainOk (repo ++ more) c :=
  fun below b above hc => (h below b above hc).mono more

/-- A block of a well-built chain is the root seed, a schema, or data. -/
theorem ChainOk.event_cases (h : ChainOk repo c) (hb : b ∈ c) :
    (∃ e, b.event = .seed e ∧ e.datasetKind = .root) ∨
      (∃ e, b.event = .setDataSchema e ∧ e.schema.isSome) ∨ ∃ e, b.event = .addData e := by
  obtain ⟨below, above, hc⟩ := List.append_of_mem hb
  have hok := h below b above hc
  cases hev : b.event <;> simp only [BlockOk, hev] at hok
  · exact .inr (.inr ⟨_, rfl⟩)
  · exact .inl ⟨_, rfl, hok.2⟩
  · exact .inr (.inl ⟨_, rfl, hok.2⟩)

theorem newest_eq_none {α : Type} {f : MetadataEvent → Option α} :
    Chain.newest f c = none ↔ ∀ b ∈ c, f b.event = none := by
  simp [Chain.newest, List.findSome?_eq_none_iff]

/-- A well-built chain declares no vocabulary and no source. -/
theorem ChainOk.vocab_eq (h : ChainOk repo c) : c.vocab = defaultVocab := by
  have : Chain.newest vocabOfEvent c = none := newest_eq_none.mpr fun b hb => by
    rcases h.event_cases hb with ⟨_, he, -⟩ | ⟨_, he, -⟩ | ⟨_, he⟩ <;> simp [he, vocabOfEvent]
  simp [Chain.vocab, this, defaultVocab]

theorem ChainOk.sourceEvent_eq (h : ChainOk repo c) (sourceName : Option String) :
    c.sourceEvent sourceName = none := newest_eq_none.mpr fun b hb => by
  rcases h.event_cases hb with ⟨_, he, -⟩ | ⟨_, he, -⟩ | ⟨_, he⟩ <;> simp [he, sourceOfEvent]

theorem ChainOk.scannable (h : ChainOk repo c) (sourceName : Option String) :
    ∀ b ∈ c, Scannable sourceName b := fun b hb => by
  rcases h.event_cases hb with ⟨_, he, hr⟩ | ⟨_, he, hr⟩ | ⟨_, he⟩
  · simp [Scannable, he, hr]
  · simp [Scannable, he, hr]
  · simp [Scannable, he]

/-- The scan of a well-built chain with no source requested succeeds, with the projection. -/
theorem ChainOk.scan_none (h : ChainOk repo c) :
    withMetadataStateScanned c none = .ok (c.projection none) :=
  Chain.withMetadataStateScanned_eq (h.scannable none) (fun b hb => by
    rcases h.event_cases hb with ⟨_, he, -⟩ | ⟨_, he, -⟩ | ⟨_, he⟩ <;> simp [he, vocabOfEvent])
    (.inl rfl)

/-- The scan of a well-built chain, if it succeeds, is the projection with no source. -/
theorem ChainOk.scan_eq {sourceName : Option String} {meta : DataWriterMetadataState}
    (h : ChainOk repo c) (hscan : withMetadataStateScanned c sourceName = .ok meta) :
    meta = c.projection none := by
  cases sourceName with
  | none => exact (Except.ok.inj (h.scan_none.symm.trans hscan)).symm
  | some source =>
    rw [Chain.withMetadataStateScanned_not_found (h.scannable _) (h.sourceEvent_eq _)] at hscan
    cases hscan

end Blocks

section Derived
variable {repo : List (Multihash × DataFrame)} {c : Chain}

theorem nextOffset_eq (c : Chain) :
    nextOffset c.lastOffset = (((c.dataSlices.map (·.interval)).getLast?).map (·.end + 1)).getD 0 := by
  rw [Chain.lastOffset_eq, List.getLast?_map]
  cases c.dataSlices.getLast? <;> rfl

/-- The default names are ones `col()` looks up as written. -/
theorem colNamesKept_defaultVocab : ColNamesKept defaultVocab := ⟨rfl, rfl⟩

/-- Every slice of a well-built chain is a stored file numbered on from the chain below its
block, under the default vocabulary. -/
theorem ChainOk.slice_ok (h : ChainOk repo c) {d : DataSlice} (hd : d ∈ c.dataSlices) :
    ∃ (below : Chain) (wm : Option DateTime) (f : DataFrame), (d.physicalHash, f) ∈ repo ∧
      SliceOk defaultVocab (nextOffset below.lastOffset) below.lastWatermark d.interval wm f := by
  obtain ⟨b, hb, hbd⟩ := List.mem_filterMap.mp hd
  obtain ⟨e, hev, hed⟩ := dataSliceOfEvent_eq_some.mp hbd
  obtain ⟨below, above, rfl⟩ := List.append_of_mem hb
  have hok := h below b above rfl
  simp only [BlockOk, hev, AddDataOk, hed] at hok
  obtain ⟨-, f, hmem, -, hslice⟩ := hok
  rw [h.of_append.vocab_eq] at hslice
  exact ⟨below, _, f, hmem, hslice⟩

/-- Every slice of a well-built chain is a stored nonempty file. -/
theorem ChainOk.slices_stored (h : ChainOk repo c) :
    ∀ d ∈ c.dataSlices, ∃ f, (d.physicalHash, f) ∈ repo ∧ 0 < f.rows.length := fun _ hd =>
  let ⟨_, _, f, hmem, hslice⟩ := h.slice_ok hd
  ⟨f, hmem, hslice.nonempty⟩

/-- Every slice of a well-built chain is a stored file whose offset column counts up by one from
the slice's first offset, or, for a slice that wrapped, from where its numbering began. -/
theorem ChainOk.slices_count_up (h : ChainOk repo c) :
    ∀ d ∈ c.dataSlices, ∃ f, (d.physicalHash, f) ∈ repo ∧ ∃ start,
      f.column defaultVocab.offsetColumn = wrappedOffsetsFrom start f.rows.length ∧
      (d.interval.start = start ∨ d.interval = ⟨i64Min, i64Max⟩) := by
  intro d hd
  obtain ⟨_, _, f, hmem, hslice⟩ := h.slice_ok hd
  refine ⟨f, hmem, _, hslice.offsets, ?_⟩
  rw [hslice.interval_eq]
  split_ifs
  · exact .inl rfl
  · exact .inr rfl

/-- The slice of an `AddData` block appended to a well-built chain is numbered on from the
chain's next offset, under the default vocabulary. -/
private theorem ChainOk.append_slice {b : MetadataBlock} {d : DataSlice}
    (h : ChainOk repo (c ++ [b])) (hd : dataSliceOfEvent b.event = some d) :
    ∃ e f, b.event = .addData e ∧ (d.physicalHash, f) ∈ repo ∧
      SliceOk defaultVocab (nextOffset c.lastOffset) c.lastWatermark d.interval e.outputWatermark f := by
  obtain ⟨hc, hb⟩ := chainOk_append_iff.mp h
  obtain ⟨e, hev, hed⟩ := dataSliceOfEvent_eq_some.mp hd
  simp only [BlockOk, hev, AddDataOk, hed] at hb
  obtain ⟨-, f, hmem, -, hslice⟩ := hb
  rw [hc.vocab_eq] at hslice
  exact ⟨e, f, hev, hmem, hslice⟩

/-- The slices of a well-built chain whose slices all end below `i64::MAX` lie end to end from
offset zero, each a stored nonempty file whose offset column counts through its interval. -/
theorem ChainOk.offsets (h : ChainOk repo c) (hfit : ∀ d ∈ c.dataSlices, d.interval.end < i64Max) :
    Tiles 0 (c.dataSlices.map (·.interval)) ∧ ∀ d ∈ c.dataSlices, ∃ f, (d.physicalHash, f) ∈ repo ∧
      0 < f.rows.length ∧ d.interval.end = d.interval.start + f.rows.length - 1 ∧
      f.column defaultVocab.offsetColumn = offsetsFrom d.interval.start f.rows.length := by
  induction c using List.reverseRecOn with
  | nil => exact ⟨trivial, fun _ hd => by cases hd⟩
  | append_singleton c b ih =>
    rw [Chain.dataSlices_append] at hfit ⊢
    obtain ⟨ht, hf⟩ := ih (chainOk_append_iff.mp h).1 fun d hd => hfit d (List.mem_append_left _ hd)
    cases hds : dataSliceOfEvent b.event with
    | none => simpa only [Option.toList_none, List.append_nil] using ⟨ht, hf⟩
    | some d =>
      obtain ⟨e, f, -, hmem, hslice⟩ := h.append_slice hds
      obtain ⟨hstart, hend, hcol⟩ :=
        hslice.fits (hfit d (by simp [hds]))
      simp only [Option.toList_some, List.map_append, List.map_cons, List.map_nil,
        List.mem_append, List.mem_singleton]
      refine ⟨tiles_append.mpr ⟨ht, hstart.trans (nextOffset_eq c)⟩, ?_⟩
      rintro d' (hd' | rfl)
      · exact hf d' hd'
      · refine ⟨f, hmem, hslice.nonempty, ?_, ?_⟩ <;> rw [hstart]
        · exact hend
        · exact hcol

theorem ChainOk.lastWatermark_le_append {b : MetadataBlock} (h : ChainOk repo (c ++ [b])) :
    WatermarkLe c.lastWatermark (c ++ [b]).lastWatermark := by
  have hb := (chainOk_append_iff.mp h).2
  simp only [Chain.lastWatermark, Chain.newest_append]
  cases hev : b.event <;> simp only [BlockOk, hev] at hb <;>
    simp only [watermarkOfEvent, Option.none_or]
  all_goals try exact watermarkLe_refl _
  · rename_i e
    rcases hd : e.outputData with _ | d <;> simp only [AddDataOk, hd] at hb
    · simpa [hb.2] using watermarkLe_refl _
    · obtain ⟨-, f, -, -, hslice⟩ := hb
      obtain ⟨E, -, hwm⟩ := hslice.watermark
      simpa [hwm] using watermarkLe_max _ E

/-- Along a well-built chain the watermark only moves up. -/
theorem ChainOk.lastWatermark_mono {c' : Chain} (h : ChainOk repo (c ++ c')) :
    WatermarkLe c.lastWatermark (c ++ c').lastWatermark := by
  induction c' using List.reverseRecOn with
  | nil => simpa using watermarkLe_refl _
  | append_singleton c' b ih =>
    rw [← List.append_assoc] at h ⊢
    exact (ih h.of_append).trans h.lastWatermark_le_append

theorem lastWatermark_append_of_addData {b : MetadataBlock} {e : AddData}
    (hb : b.event = .addData e) : (c ++ [b]).lastWatermark = e.outputWatermark := by
  simp [Chain.lastWatermark, Chain.newest_append, watermarkOfEvent, hb]

/-- In a well-built chain an `AddData` block's watermark is the watermark below it, advanced to
the latest event time of its slice when it has one. -/
theorem ChainOk.addData_watermark {below above : Chain} {b : MetadataBlock} {e : AddData}
    (h : ChainOk repo (below ++ b :: above)) (hb : b.event = .addData e) :
    WatermarkLe below.lastWatermark e.outputWatermark ∧
      (e.outputData = none → e.outputWatermark = below.lastWatermark) ∧
      ∀ d, e.outputData = some d → ∃ f, (d.physicalHash, f) ∈ repo ∧
        ((∀ v ∈ f.column defaultVocab.eventTimeColumn, ∃ t, v = .int t) →
          e.outputWatermark = below.lastWatermark.max (maxEventTime defaultVocab f)) := by
  have hok := h below b above rfl
  simp only [BlockOk, hb] at hok
  cases hd : e.outputData with
  | none =>
    simp only [AddDataOk, hd] at hok
    exact ⟨hok.2 ▸ watermarkLe_refl _, fun _ => hok.2, fun _ h => nomatch h⟩
  | some d =>
    simp only [AddDataOk, hd] at hok
    obtain ⟨-, f, hmem, -, hslice⟩ := hok
    obtain ⟨E, hE, hwm⟩ := hslice.watermark
    rw [(h.of_append).vocab_eq] at hE
    refine ⟨hwm ▸ watermarkLe_max _ E, ?_, ?_⟩
    · intro h; cases h
    · rintro d' ⟨⟩
      exact ⟨f, hmem, fun hcells => by
        rw [hwm, eventTimeMax_eq_maxEventTime colNamesKept_defaultVocab.2 hE hslice.nonempty hcells]⟩

/-- Every `AddData` block of a well-built chain changes the data, the watermark or the source
state the chain below it holds. -/
theorem ChainOk.addData_changes {below above : Chain} {b : MetadataBlock} {e : AddData}
    (h : ChainOk repo (below ++ b :: above)) (hb : b.event = .addData e) :
    e.outputData.isSome ∨ e.outputWatermark ≠ below.lastWatermark ∨
      e.sourceState ≠ below.lastSourceState := by
  have hok := h below b above rfl
  simp only [BlockOk, hb] at hok
  exact hok.1

/-- Along a well-built chain the watermarks of successive `AddData` blocks never go back. -/
theorem ChainOk.addData_watermark_mono {c₁ c₂ c₃ : Chain} {b₁ b₂ : MetadataBlock}
    {e₁ e₂ : AddData} (h : ChainOk repo (c₁ ++ b₁ :: (c₂ ++ b₂ :: c₃)))
    (hb₁ : b₁.event = .addData e₁) (hb₂ : b₂.event = .addData e₂) :
    WatermarkLe e₁.outputWatermark e₂.outputWatermark := by
  have hsplit : c₁ ++ b₁ :: (c₂ ++ b₂ :: c₃) = (c₁ ++ [b₁]) ++ c₂ ++ b₂ :: c₃ := by simp
  rw [hsplit] at h
  have hmid := (h.of_append).lastWatermark_mono
  rw [lastWatermark_append_of_addData hb₁] at hmid
  exact hmid.trans (h.addData_watermark hb₂).1

/-- A well-built chain holds at most one `SetDataSchema` block. -/
theorem ChainOk.setDataSchema_unique {c₁ c₂ c₃ : Chain} {b₁ b₂ : MetadataBlock}
    {e₁ e₂ : SetDataSchema} (h : ChainOk repo (c₁ ++ b₁ :: (c₂ ++ b₂ :: c₃)))
    (hb₁ : b₁.event = .setDataSchema e₁) : b₂.event ≠ .setDataSchema e₂ := by
  intro hb₂
  have h₁ := h c₁ b₁ (c₂ ++ b₂ :: c₃) rfl
  have h₂ := h (c₁ ++ b₁ :: c₂) b₂ c₃ (by simp)
  simp only [BlockOk, hb₁, hb₂] at h₁ h₂
  have := newest_eq_none.mp h₂.1 b₁ (by simp)
  simp [hb₁, schemaOfEvent, Option.isSome_iff_ne_none] at this h₁
  exact h₁.2 this

/-- Below every `AddData` block with a slice of a well-built chain lies the `SetDataSchema` block
recording the slice's schema. -/
theorem ChainOk.addData_schema {below above : Chain} {b : MetadataBlock} {e : AddData}
    {d : DataSlice} (h : ChainOk repo (below ++ b :: above)) (hb : b.event = .addData e)
    (hd : e.outputData = some d) :
    ∃ f, (d.physicalHash, f) ∈ repo ∧ ∃ b' ∈ below, b'.event = .setDataSchema ⟨some f.fields⟩ := by
  have hok := h below b above rfl
  simp only [BlockOk, hb, AddDataOk, hd] at hok
  obtain ⟨-, f, hmem, hschema, -⟩ := hok
  obtain ⟨b', hb', hs⟩ := List.exists_of_findSome?_eq_some hschema
  refine ⟨f, hmem, b', List.mem_reverse.mp hb', ?_⟩
  cases hev : b'.event <;> simp only [schemaOfEvent, hev, reduceCtorEq] at hs
  rename_i e'
  cases e'
  simp_all

/-- The chain's schema is recorded by a `SetDataSchema` block of the chain. -/
theorem exists_setDataSchema_of_schema {s : Schema} (h : c.schema = some s) :
    ∃ b ∈ c, b.event = .setDataSchema ⟨some s⟩ := by
  obtain ⟨b, hb, hs⟩ := List.exists_of_findSome?_eq_some h
  refine ⟨b, List.mem_reverse.mp hb, ?_⟩
  cases hev : b.event <;> simp only [schemaOfEvent, hev, reduceCtorEq] at hs
  rename_i e
  cases e
  simp_all

/-- In a well-built chain, any `SetDataSchema` block sets the chain's schema: there is only one. -/
theorem ChainOk.schema_eq_of_mem {b : MetadataBlock} {e : SetDataSchema} (h : ChainOk repo c)
    (hb : b ∈ c) (he : b.event = .setDataSchema e) : c.schema = e.schema := by
  induction c using List.reverseRecOn with
  | nil => cases hb
  | append_singleton c b' ih =>
    obtain ⟨hc, hb'⟩ := chainOk_append_iff.mp h
    simp only [Chain.schema, Chain.newest_append]
    rcases List.mem_append.mp hb with hb | hb
    · have ih' := ih hc hb
      cases hev : b'.event <;> simp only [schemaOfEvent, hev, Option.none_or]
      all_goals try exact ih'
      simp only [BlockOk, hev] at hb'
      obtain ⟨below, above, hsplit⟩ := List.append_of_mem hb
      have hsome := (hc below b above hsplit)
      simp only [BlockOk, he] at hsome
      rw [ih'] at hb'
      simp [hb'.1] at hsome
    · obtain rfl := List.mem_singleton.mp hb
      simp only [BlockOk, he] at hb'
      obtain ⟨x, hx⟩ := Option.isSome_iff_exists.mp hb'.2
      simp [schemaOfEvent, he, hx]

end Derived
end KamuCli.Ingest
