import KamuCli.Ingest.DataWriter

/-! `with_metadata_state_scanned`: one pass over the chain from the head back to the seed
projects the state the writer needs. -/
namespace KamuCli.Ingest
open Arrow Odf

/-- `ScanMetadataError`; `panic` stands for the scan's `unimplemented!`, `unreachable!` and
`assert_eq!` aborts. -/
inductive ScanMetadataError
  | sourceNotFound (sourceName : Option String) (message : String)
  | internal (message : String)
  | panic (message : String)
  deriving DecidableEq, Repr

/-- The mutable locals of the scan. -/
structure ScanState where
  schema : Option Schema
  sourceEvent : Option MetadataEvent
  dataSlices : List Multihash
  lastCheckpoint : Option (Option Multihash)
  lastWatermark : Option (Option DateTime)
  lastSourceState : Option (Option SourceState)
  vocab : Option DatasetVocabulary
  lastOffset : Option Int
  deriving DecidableEq, Repr

def ScanState.init : ScanState := ⟨none, none, [], none, none, none, none, none⟩

/-- One iteration of the block loop. -/
def scanBlock (sourceName : Option String) (acc : ScanState) (block : MetadataBlock) :
    Except ScanMetadataError ScanState :=
  match block.event with
  | .setDataSchema e =>
    if acc.schema.isNone then
      match e.schemaAsArrow with
      | .ok schema => .ok { acc with schema := some schema }
      | .error m => .error (.internal m)
    else .ok acc
  | .addData e =>
    let acc := match e.outputData with
      | some outputData =>
        { acc with
          dataSlices := acc.dataSlices ++ [outputData.physicalHash]
          lastOffset := if acc.lastOffset.isNone then some outputData.interval.end else acc.lastOffset }
      | none => acc
    .ok { acc with
      lastCheckpoint := if acc.lastCheckpoint.isNone then some (e.outputCheckpoint.map (·.physicalHash))
        else acc.lastCheckpoint
      lastWatermark := if acc.lastWatermark.isNone then some e.outputWatermark else acc.lastWatermark
      lastSourceState := if acc.lastSourceState.isNone then some e.sourceState
        else acc.lastSourceState }
  | .setWatermark e =>
    .ok { acc with
      lastWatermark := if acc.lastWatermark.isNone then some (some e.outputWatermark)
        else acc.lastWatermark }
  | .setPollingSource e =>
    if sourceName.isSome then
      .error (.sourceNotFound sourceName "Expected a named push source, but found polling source")
    else .ok { acc with
      sourceEvent := if acc.sourceEvent.isNone then some (.setPollingSource e) else acc.sourceEvent }
  | .disablePollingSource =>
    .error (.panic "not implemented: Disabling sources is not yet fully supported")
  | .addPushSource e =>
    .ok { acc with
      sourceEvent := if acc.sourceEvent.isNone then
        if sourceName = e.sourceName then some (.addPushSource e) else acc.sourceEvent
        else acc.sourceEvent }
  | .disablePushSource =>
    .error (.panic "not implemented: Disabling sources is not yet fully supported")
  | .setVocab e => .ok { acc with vocab := some e.into }
  | .seed e =>
    if e.datasetKind = .root then .ok acc else .error (.panic "assertion `left == right` failed")
  | .executeQuery => .error (.panic "internal error: entered unreachable code")
  | .setAttachments | .setInfo | .setLicense | .setTransform => .ok acc

/-- The merge strategy of the source found; `Append` when no source was asked for. -/
def mergeStrategyOf (sourceEvent : Option MetadataEvent) (sourceName : Option String) :
    Except ScanMetadataError MergeStrategy :=
  match sourceEvent, sourceName with
  | some (.setPollingSource e), _ => .ok e.merge
  | some (.addPushSource e), _ => .ok e.merge
  | some _, _ => .error (.panic "internal error: entered unreachable code")
  | none, none => .ok .append
  | none, some source =>
    .error (.sourceNotFound (some source) ("Source '" ++ source ++ "' not found"))

/-- `with_metadata_state_scanned` over the chain from its head, newest block first. -/
def withMetadataStateScanned (chain : Chain) (sourceName : Option String) :
    Except ScanMetadataError DataWriterMetadataState := do
  let head := chain.head
  let acc ← chain.reverse.foldlM (scanBlock sourceName) ScanState.init
  let mergeStrategy ← mergeStrategyOf acc.sourceEvent sourceName
  pure { head, schema := acc.schema, sourceEvent := acc.sourceEvent, mergeStrategy
         vocab := (acc.vocab.getD .default).resolve
         dataSlices := acc.dataSlices
         lastOffset := acc.lastOffset
         lastCheckpoint := acc.lastCheckpoint.getD none
         lastWatermark := acc.lastWatermark.getD none
         lastSourceState := acc.lastSourceState.getD none }

/-- The schema an event sets. -/
def schemaOfEvent : MetadataEvent → Option Schema
  | .setDataSchema e => e.schema
  | _ => none

def dataSliceOfEvent : MetadataEvent → Option DataSlice
  | .addData e => e.outputData
  | _ => none

theorem dataSliceOfEvent_eq_some {ev : MetadataEvent} {d : DataSlice} :
    dataSliceOfEvent ev = some d ↔ ∃ e, ev = .addData e ∧ e.outputData = some d := by
  cases ev <;> simp [dataSliceOfEvent]

def checkpointOfEvent : MetadataEvent → Option (Option Multihash)
  | .addData e => some (e.outputCheckpoint.map (·.physicalHash))
  | _ => none

def watermarkOfEvent : MetadataEvent → Option (Option DateTime)
  | .addData e => some e.outputWatermark
  | .setWatermark e => some (some e.outputWatermark)
  | _ => none

def sourceStateOfEvent : MetadataEvent → Option (Option SourceState)
  | .addData e => some e.sourceState
  | _ => none

def vocabOfEvent : MetadataEvent → Option DatasetVocabulary
  | .setVocab e => some e.into
  | _ => none

/-- The source an event declares, if its name is the requested one. -/
def sourceOfEvent (sourceName : Option String) : MetadataEvent → Option MetadataEvent
  | .setPollingSource e => some (.setPollingSource e)
  | .addPushSource e => if sourceName = e.sourceName then some (.addPushSource e) else none
  | _ => none

/-- A block the scan passes over without failing. -/
def Scannable (sourceName : Option String) (b : MetadataBlock) : Prop :=
  match b.event with
  | .setDataSchema e => e.schema.isSome
  | .setPollingSource _ => sourceName = none
  | .disablePollingSource | .disablePushSource | .executeQuery => False
  | .seed e => e.datasetKind = .root
  | _ => True

/-- The scan's locals after the blocks `bs`, newest first: every item but the vocabulary keeps
its first occurrence, the vocabulary its last. -/
def ScanState.absorb (sourceName : Option String) (acc : ScanState) (bs : List MetadataBlock) :
    ScanState where
  schema := acc.schema.or (bs.findSome? (schemaOfEvent ·.event))
  sourceEvent := acc.sourceEvent.or (bs.findSome? (sourceOfEvent sourceName ·.event))
  dataSlices := acc.dataSlices ++ bs.filterMap fun b => (dataSliceOfEvent b.event).map (·.physicalHash)
  lastCheckpoint := acc.lastCheckpoint.or (bs.findSome? (checkpointOfEvent ·.event))
  lastWatermark := acc.lastWatermark.or (bs.findSome? (watermarkOfEvent ·.event))
  lastSourceState := acc.lastSourceState.or (bs.findSome? (sourceStateOfEvent ·.event))
  vocab := (bs.reverse.findSome? (vocabOfEvent ·.event)).or acc.vocab
  lastOffset := acc.lastOffset.or
    (bs.findSome? fun b => (dataSliceOfEvent b.event).map (·.interval.end))

private theorem ite_isNone_or {α : Type} (x y : Option α) :
    (if x.isNone = true then y else x) = x.or y := by
  cases x <;> rfl

private theorem findSome?_singleton {α β : Type} (f : α → Option β) (a : α) :
    [a].findSome? f = f a := by
  simp only [List.findSome?]; cases f a <;> rfl

/-- `absorb` of one block, item by item. -/
theorem ScanState.absorb_singleton (sourceName : Option String) (acc : ScanState)
    (b : MetadataBlock) :
    acc.absorb sourceName [b] =
      ⟨acc.schema.or (schemaOfEvent b.event), acc.sourceEvent.or (sourceOfEvent sourceName b.event),
        acc.dataSlices ++ ((dataSliceOfEvent b.event).map (·.physicalHash)).toList,
        acc.lastCheckpoint.or (checkpointOfEvent b.event),
        acc.lastWatermark.or (watermarkOfEvent b.event),
        acc.lastSourceState.or (sourceStateOfEvent b.event), (vocabOfEvent b.event).or acc.vocab,
        acc.lastOffset.or ((dataSliceOfEvent b.event).map (·.interval.end))⟩ := by
  simp only [ScanState.absorb, findSome?_singleton, List.reverse_singleton, List.filterMap_cons,
    List.filterMap_nil]
  cases dataSliceOfEvent b.event <;> rfl

/-- One block of the loop is `absorb` of that block. -/
theorem scanBlock_eq (sourceName : Option String) (acc : ScanState) {b : MetadataBlock}
    (h : Scannable sourceName b) : scanBlock sourceName acc b = .ok (acc.absorb sourceName [b]) := by
  obtain ⟨t, p, e⟩ := b
  obtain ⟨sc, se, ds, cp, wm, ss, vc, lo⟩ := acc
  rw [ScanState.absorb_singleton]
  cases e <;> simp only [Scannable] at h <;> simp only [scanBlock, ite_isNone_or, schemaOfEvent,
    sourceOfEvent, dataSliceOfEvent, checkpointOfEvent, watermarkOfEvent, sourceStateOfEvent,
    vocabOfEvent, Option.or_none, Option.none_or, Option.map_none', Option.toList_none,
    List.append_nil]
  case setDataSchema e =>
    obtain ⟨s, hs⟩ := Option.isSome_iff_exists.mp h
    cases sc <;> simp [SetDataSchema.schemaAsArrow, hs]
  case addData e => cases e.outputData <;> simp
  case addPushSource e => by_cases hn : sourceName = e.sourceName <;> cases se <;> simp [hn]
  case setPollingSource e => simp [h]
  case seed e => simp [h]
  all_goals rfl

@[simp] theorem ScanState.absorb_nil (sourceName : Option String) (acc : ScanState) :
    acc.absorb sourceName [] = acc := by
  simp [ScanState.absorb]

theorem ScanState.absorb_append (sourceName : Option String) (acc : ScanState)
    (bs cs : List MetadataBlock) :
    (acc.absorb sourceName bs).absorb sourceName cs = acc.absorb sourceName (bs ++ cs) := by
  simp [ScanState.absorb, List.findSome?_append, Option.or_assoc, List.filterMap_append]

/-- The block loop over scannable blocks ends in `absorb`. -/
theorem foldlM_scanBlock (sourceName : Option String) (acc : ScanState) (bs : List MetadataBlock)
    (h : ∀ b ∈ bs, Scannable sourceName b) :
    bs.foldlM (scanBlock sourceName) acc = .ok (acc.absorb sourceName bs) := by
  induction bs generalizing acc with
  | nil => simp [pure, Except.pure]
  | cons b bs ih =>
    rw [List.foldlM_cons, scanBlock_eq sourceName acc (h b (.head _))]
    simp only [bind, Except.bind]
    rw [ih _ fun c hc => h c (.tail _ hc), ScanState.absorb_append]
    rfl


/-- A block the loop passes whatever it has seen: `Scannable` but for the decoding of a
`SetDataSchema`, which the loop attempts only while it has no schema. -/
def Passable (sourceName : Option String) (b : MetadataBlock) : Prop :=
  match b.event with
  | .setPollingSource _ => sourceName = none
  | .disablePollingSource | .disablePushSource | .executeQuery => False
  | .seed e => e.datasetKind = .root
  | _ => True

/-- The `SetDataSchema` an event is, if it is one. -/
def schemaEventOf : MetadataEvent → Option SetDataSchema
  | .setDataSchema e => some e
  | _ => none

/-- Past `acc`, the schema blocks of `bs` pass: a schema is decoded already, or the first
`SetDataSchema` to come decodes. -/
def SchemaOk (acc : ScanState) (bs : List MetadataBlock) : Prop :=
  acc.schema.isSome ∨ ∀ e, bs.findSome? (schemaEventOf ·.event) = some e → e.schema.isSome

theorem scannable_iff {sourceName : Option String} {b : MetadataBlock} :
    Scannable sourceName b ↔
      Passable sourceName b ∧ ∀ e, schemaEventOf b.event = some e → e.schema.isSome := by
  obtain ⟨t, p, ev⟩ := b
  cases ev <;> simp [Scannable, Passable, schemaEventOf]

theorem SchemaOk.head {acc : ScanState} {b : MetadataBlock} {bs : List MetadataBlock}
    (h : SchemaOk acc (b :: bs)) : SchemaOk acc [b] := by
  refine h.imp_right fun h e he => h e ?_
  rw [findSome?_singleton] at he
  rw [List.findSome?_cons, he]

theorem schemaOfEvent_eq_bind (ev : MetadataEvent) :
    schemaOfEvent ev = (schemaEventOf ev).bind (·.schema) := by
  cases ev <;> rfl

theorem schemaOk_absorb (sourceName : Option String) {acc : ScanState} {b : MetadataBlock}
    {bs : List MetadataBlock} (hb : SchemaOk acc [b]) :
    SchemaOk (acc.absorb sourceName [b]) bs ↔ SchemaOk acc (b :: bs) := by
  have hsch : (acc.absorb sourceName [b]).schema =
      acc.schema.or ((schemaEventOf b.event).bind (·.schema)) := by
    rw [ScanState.absorb_singleton, schemaOfEvent_eq_bind]
  unfold SchemaOk at hb ⊢
  rw [findSome?_singleton] at hb
  rw [hsch, List.findSome?_cons]
  cases hev : schemaEventOf b.event with
  | none => simp
  | some e =>
    rw [hev] at hb
    refine iff_of_true ?_ (hb.imp_right fun h e' he' => h e' he')
    cases hs : acc.schema <;> simp_all

/-- One block of the loop succeeds exactly on a passable block whose schema, if the loop still
needs one, decodes; it is then `absorb` of the block. -/
theorem scanBlock_eq_ok_iff {sourceName : Option String} {acc r : ScanState} {b : MetadataBlock} :
    scanBlock sourceName acc b = .ok r ↔
      (Passable sourceName b ∧ SchemaOk acc [b]) ∧ r = acc.absorb sourceName [b] := by
  by_cases hs : Scannable sourceName b
  · obtain ⟨hp, hd⟩ := scannable_iff.mp hs
    have hok : SchemaOk acc [b] := .inr fun e he => hd e (by rwa [findSome?_singleton] at he)
    rw [scanBlock_eq sourceName acc hs, Except.ok.injEq, eq_comm]
    exact ⟨fun h => ⟨⟨hp, hok⟩, h⟩, fun h => h.2⟩
  obtain ⟨sc, se, ds, cp, wm, ss, vc, lo⟩ := acc
  rw [ScanState.absorb_singleton]
  unfold Scannable at hs
  unfold Passable scanBlock
  cases hev : b.event with
  | setDataSchema e =>
    rw [hev, Option.not_isSome_iff_eq_none] at hs
    cases sc <;> simp [SetDataSchema.schemaAsArrow, hs, SchemaOk, schemaEventOf, schemaOfEvent,
      sourceOfEvent, dataSliceOfEvent, checkpointOfEvent, watermarkOfEvent, sourceStateOfEvent,
      vocabOfEvent, findSome?_singleton, hev, @eq_comm ScanState r]
  | setPollingSource e =>
    rw [hev] at hs
    obtain ⟨x, rfl⟩ := Option.ne_none_iff_exists'.mp hs
    simp
  | seed e => simp_all
  | disablePollingSource | disablePushSource | executeQuery => simp
  | _ => simp_all

/-- The block loop succeeds exactly when every block is passable and the newest schema it must
decode does; it then ends in `absorb`. -/
theorem foldlM_scanBlock_eq_ok_iff {sourceName : Option String} {acc r : ScanState}
    {bs : List MetadataBlock} :
    bs.foldlM (scanBlock sourceName) acc = .ok r ↔
      ((∀ b ∈ bs, Passable sourceName b) ∧ SchemaOk acc bs) ∧ r = acc.absorb sourceName bs := by
  induction bs generalizing acc with
  | nil =>
    have hs : SchemaOk acc [] := .inr fun e he => by cases he
    simp only [List.foldlM, pure, Except.pure, Except.ok.injEq, ScanState.absorb_nil]
    exact ⟨fun h => ⟨⟨fun b hb => absurd hb (List.not_mem_nil b), hs⟩, h.symm⟩, fun h => h.2.symm⟩
  | cons b bs ih =>
    rw [List.foldlM_cons]
    cases hb : scanBlock sourceName acc b with
    | error e =>
      simp only [bind, Except.bind, reduceCtorEq, false_iff]
      rintro ⟨⟨hp, hs⟩, -⟩
      have hok := scanBlock_eq_ok_iff.mpr ⟨⟨hp b (List.mem_cons_self _ _), hs.head⟩, rfl⟩
      rw [hb] at hok
      cases hok
    | ok acc' =>
      obtain ⟨⟨hpb, hsb⟩, rfl⟩ := scanBlock_eq_ok_iff.mp hb
      simp only [bind, Except.bind, ih, schemaOk_absorb sourceName hsb, ScanState.absorb_append,
        List.singleton_append, List.forall_mem_cons, hpb, true_and]

end KamuCli.Ingest

namespace KamuCli.Odf.Chain
open Arrow Ingest

/-- The newest item an event projection yields. -/
def newest {α : Type} (f : MetadataEvent → Option α) (c : Chain) : Option α :=
  c.reverse.findSome? (f ·.event)

def schema (c : Chain) : Option Schema := newest schemaOfEvent c

def lastOffset (c : Chain) : Option Int :=
  newest (fun e => (dataSliceOfEvent e).map (·.interval.end)) c

/-- The data slices of the chain's `AddData` blocks, oldest first. -/
def dataSlices (c : Chain) : List DataSlice := c.filterMap (dataSliceOfEvent ·.event)

def lastCheckpoint (c : Chain) : Option Multihash := (newest checkpointOfEvent c).getD none

def lastWatermark (c : Chain) : Option DateTime := (newest watermarkOfEvent c).getD none

def lastSourceState (c : Chain) : Option SourceState := (newest sourceStateOfEvent c).getD none

def vocab (c : Chain) : DatasetVocabularyResolved :=
  ((newest vocabOfEvent c).getD .default).resolve

def sourceEvent (c : Chain) (sourceName : Option String) : Option MetadataEvent :=
  newest (sourceOfEvent sourceName) c

/-- The merge strategy a source declares; `Append` when there is no source. -/
def mergeOfSource : Option MetadataEvent → MergeStrategy
  | some (.setPollingSource e) => e.merge
  | some (.addPushSource e) => e.merge
  | _ => .append

/-- The newest-occurrence projection of a chain, the state the scan is meant to compute;
its slices are listed newest first, as the scan collects them. -/
def projection (c : Chain) (sourceName : Option String) : DataWriterMetadataState where
  head := c.head
  schema := c.schema
  sourceEvent := c.sourceEvent sourceName
  mergeStrategy := mergeOfSource (c.sourceEvent sourceName)
  vocab := c.vocab
  dataSlices := (c.dataSlices.map (·.physicalHash)).reverse
  lastOffset := c.lastOffset
  lastCheckpoint := c.lastCheckpoint
  lastWatermark := c.lastWatermark
  lastSourceState := c.lastSourceState

/-- Every `SetVocab` of the chain sets the same vocabulary. -/
def VocabStable (c : Chain) : Prop :=
  ∀ b ∈ c, ∀ b' ∈ c, ∀ v v', vocabOfEvent b.event = some v → vocabOfEvent b'.event = some v' →
    v = v'

private theorem findSome?_reverse_of_agree {α β : Type} {f : α → Option β} {l : List α}
    (h : ∀ a ∈ l, ∀ a' ∈ l, ∀ v v', f a = some v → f a' = some v' → v = v') :
    l.reverse.findSome? f = l.findSome? f := by
  cases hl : l.findSome? f with
  | none =>
    rw [List.findSome?_eq_none_iff] at hl ⊢
    simpa using hl
  | some v =>
    obtain ⟨a, ha, hfa⟩ := List.exists_of_findSome?_eq_some hl
    cases hr : l.reverse.findSome? f with
    | none => simp_all [List.findSome?_eq_none_iff]
    | some v' =>
      obtain ⟨a', ha', hfa'⟩ := List.exists_of_findSome?_eq_some hr
      exact congrArg some (h a' (List.mem_reverse.mp ha') a ha v' v hfa' hfa)

private theorem sourceOfEvent_cases {sourceName : Option String} {e ev : MetadataEvent}
    (h : sourceOfEvent sourceName e = some ev) :
    (∃ p, ev = .setPollingSource p) ∨ ∃ p, ev = .addPushSource p := by
  cases e <;> simp [sourceOfEvent] at h
  · exact .inl ⟨_, h.symm⟩
  · exact .inr ⟨_, h.2.symm⟩

private theorem absorb_init_fields (sourceName : Option String) (c : Chain) (hv : VocabStable c) :
    let acc := ScanState.init.absorb sourceName c.reverse
    acc.schema = c.schema ∧ acc.sourceEvent = c.sourceEvent sourceName ∧
      acc.dataSlices = (c.dataSlices.map (·.physicalHash)).reverse ∧
      (acc.vocab.getD .default).resolve = c.vocab ∧ acc.lastOffset = c.lastOffset ∧
      acc.lastCheckpoint.getD none = c.lastCheckpoint ∧ acc.lastWatermark.getD none = c.lastWatermark ∧
      acc.lastSourceState.getD none = c.lastSourceState := by
  refine ⟨rfl, rfl, ?_, ?_, rfl, rfl, rfl, rfl⟩
  · simp [ScanState.absorb, ScanState.init, dataSlices, List.filterMap_reverse, List.map_reverse,
      List.map_filterMap]
  · simp only [ScanState.absorb, ScanState.init, List.reverse_reverse, Option.or_none, vocab, newest]
    rw [findSome?_reverse_of_agree fun b hb b' hb' => hv b hb b' hb']

private theorem sourceEvent_cases {c : Chain} {sourceName : Option String} {ev : MetadataEvent}
    (h : c.sourceEvent sourceName = some ev) :
    (∃ p, ev = .setPollingSource p) ∨ ∃ p, ev = .addPushSource p := by
  obtain ⟨b, -, hb⟩ := List.exists_of_findSome?_eq_some h
  exact sourceOfEvent_cases hb

/-- On a chain the scan passes, with one vocabulary throughout and the requested source found
(or none requested), the scan is the newest-occurrence projection. -/
theorem withMetadataStateScanned_eq {c : Chain} {sourceName : Option String}
    (hs : ∀ b ∈ c, Scannable sourceName b) (hv : VocabStable c)
    (hsrc : sourceName = none ∨ (c.sourceEvent sourceName).isSome) :
    withMetadataStateScanned c sourceName = .ok (c.projection sourceName) := by
  have hfold := foldlM_scanBlock sourceName ScanState.init c.reverse
    fun b hb => hs b (List.mem_reverse.mp hb)
  obtain ⟨h1, h2, h3, h4, h5, h6, h7, h8⟩ := absorb_init_fields sourceName c hv
  simp only [withMetadataStateScanned, hfold, bind, Except.bind, h2]
  cases hse : c.sourceEvent sourceName with
  | none =>
    obtain rfl | h := hsrc
    · simp [projection, h1, h2, h3, h4, h5, h6, h7, h8, hse, mergeOfSource, mergeStrategyOf, pure,
        Except.pure]
    · simp [hse] at h
  | some ev =>
    obtain ⟨p, rfl⟩ | ⟨p, rfl⟩ := sourceEvent_cases hse <;>
      simp [projection, h1, h3, h4, h5, h6, h7, h8, hse, mergeOfSource, mergeStrategyOf, pure,
        Except.pure]

theorem withMetadataStateScanned_not_found {c : Chain} {source : String}
    (hs : ∀ b ∈ c, Scannable (some source) b) (hsrc : c.sourceEvent (some source) = none) :
    withMetadataStateScanned c (some source) =
      .error (.sourceNotFound (some source) ("Source '" ++ source ++ "' not found")) := by
  have hfold := foldlM_scanBlock (some source) ScanState.init c.reverse
    fun b hb => hs b (List.mem_reverse.mp hb)
  have h2 : (ScanState.init.absorb (some source) c.reverse).sourceEvent =
      c.sourceEvent (some source) := rfl
  simp [withMetadataStateScanned, hfold, bind, Except.bind, h2, hsrc, mergeStrategyOf]

/-- Only a polling source is scannable with no source named and not with one. -/
private theorem scannable_of_not_polling {sourceName : Option String} {a : MetadataBlock}
    (h : Scannable none a) (hn : ∀ e, a.event ≠ .setPollingSource e) : Scannable sourceName a := by
  obtain ⟨t, p, ev⟩ := a
  cases ev <;> simp_all [Scannable]

/-- Asked for a push source, the scan fails at the newest polling source. -/
theorem withMetadataStateScanned_polling {c : Chain} {source : String}
    (hs : ∀ b ∈ c, Scannable none b) (hp : ∃ b ∈ c, ∃ e, b.event = .setPollingSource e) :
    withMetadataStateScanned c (some source) = .error (.sourceNotFound (some source)
      "Expected a named push source, but found polling source") := by
  let polling : MetadataBlock → Bool := fun b => match b.event with
    | .setPollingSource _ => true
    | _ => false
  obtain ⟨b, hb, e, he⟩ := hp
  obtain ⟨p, hpb⟩ : ∃ p, c.reverse.find? polling = some p := Option.isSome_iff_exists.mp
    (List.find?_isSome.mpr ⟨b, List.mem_reverse.mpr hb, by simp [polling, he]⟩)
  obtain ⟨hpp, pre, post, hsplit, hpre⟩ := List.find?_eq_some.mp hpb
  have hpre' : ∀ a ∈ pre, Scannable (some source) a := fun a ha =>
    scannable_of_not_polling (hs a (List.mem_reverse.mp (hsplit ▸ List.mem_append_left _ ha)))
      fun e he => by simpa [polling, he] using hpre a ha
  have hscan : ∀ acc, scanBlock (some source) acc p = .error (.sourceNotFound (some source)
      "Expected a named push source, but found polling source") := by
    intro acc
    obtain ⟨t, q, ev⟩ := p
    cases ev <;> simp only [polling, Bool.false_eq_true] at hpp
    rfl
  simp [withMetadataStateScanned, hsplit, List.foldlM_append, foldlM_scanBlock _ _ _ hpre', bind,
    Except.bind, hscan]

/-- Asked for a push source on a chain whose blocks the scan passes when no source is named,
the scan fails with `SourceNotFound` exactly when the chain has a polling source or no push
source of that name. -/
theorem scan_source_not_found_iff {c : Chain} {source : String} (hs : ∀ b ∈ c, Scannable none b) :
    (∃ m, withMetadataStateScanned c (some source) = .error (.sourceNotFound (some source) m)) ↔
      (∃ b ∈ c, ∃ e, b.event = .setPollingSource e) ∨ c.sourceEvent (some source) = none := by
  by_cases hp : ∃ b ∈ c, ∃ e, b.event = .setPollingSource e
  · exact iff_of_true ⟨_, withMetadataStateScanned_polling hs hp⟩ (.inl hp)
  have hs' : ∀ b ∈ c, Scannable (some source) b := fun b hb =>
    scannable_of_not_polling (hs b hb) fun e he => hp ⟨b, hb, e, he⟩
  cases hsrc : c.sourceEvent (some source) with
  | none => exact iff_of_true ⟨_, withMetadataStateScanned_not_found hs' hsrc⟩ (.inr rfl)
  | some ev =>
    refine iff_of_false ?_ (by simp [hp])
    rintro ⟨m, hm⟩
    have hfold := foldlM_scanBlock (some source) ScanState.init c.reverse
      fun b hb => hs' b (List.mem_reverse.mp hb)
    have hse : (ScanState.init.absorb (some source) c.reverse).sourceEvent = some ev := hsrc
    obtain ⟨p, rfl⟩ | ⟨p, rfl⟩ := sourceEvent_cases hsrc <;>
      simp [withMetadataStateScanned, hfold, bind, Except.bind, hse, mergeStrategyOf, pure,
        Except.pure] at hm

/-- A root dataset with a polling source. -/
def pollingSourceChain : Chain :=
  [⟨0, none, .seed ⟨.root⟩⟩, ⟨0, some 1, .setPollingSource ⟨.append⟩⟩]

/-- Asked for a push source, the scan of a dataset with a polling source fails. -/
theorem scan_for_push_source_finds_polling :
    (∀ b ∈ pollingSourceChain, Scannable none b) ∧
      ∃ m, withMetadataStateScanned pollingSourceChain (some "ingest") =
        .error (.sourceNotFound (some "ingest") m) :=
  have hs : ∀ b ∈ pollingSourceChain, Scannable none b := by
    simp [pollingSourceChain, Scannable]
  ⟨hs, (scan_source_not_found_iff hs).mpr
    (.inl ⟨_, List.mem_cons_of_mem _ (List.mem_singleton_self _), _, rfl⟩)⟩

/-- A chain whose vocabulary was set twice. -/
def vocabResetChain : Chain :=
  [⟨0, none, .seed ⟨.root⟩⟩, ⟨0, some 1, .setVocab ⟨some "a", none, none⟩⟩,
    ⟨0, some 2, .setVocab ⟨some "b", none, none⟩⟩]

theorem scan_keeps_oldest_vocab :
    (withMetadataStateScanned vocabResetChain none).map (·.vocab) =
        .ok ⟨"a", "system_time", "event_time"⟩ ∧
      vocabResetChain.vocab = ⟨"b", "system_time", "event_time"⟩ :=
  ⟨rfl, rfl⟩

/-- On a chain the scan passes, with the requested source found or none requested, the scan is
the newest-occurrence projection but for the vocabulary, which the oldest `SetVocab` sets. -/
theorem withMetadataStateScanned_eq_oldest_vocab {c : Chain} {sourceName : Option String}
    (hs : ∀ b ∈ c, Scannable sourceName b)
    (hsrc : sourceName = none ∨ (c.sourceEvent sourceName).isSome) :
    withMetadataStateScanned c sourceName = .ok { c.projection sourceName with
      vocab := ((c.findSome? (vocabOfEvent ·.event)).getD .default).resolve } := by
  have hfold := foldlM_scanBlock sourceName ScanState.init c.reverse
    fun b hb => hs b (List.mem_reverse.mp hb)
  have hslices : (ScanState.init.absorb sourceName c.reverse).dataSlices =
      (c.dataSlices.map (·.physicalHash)).reverse := by
    simp [ScanState.absorb, ScanState.init, dataSlices, List.filterMap_reverse, List.map_reverse,
      List.map_filterMap]
  have hvocab : (ScanState.init.absorb sourceName c.reverse).vocab =
      c.findSome? (vocabOfEvent ·.event) := by
    simp [ScanState.absorb, ScanState.init]
  simp only [withMetadataStateScanned, hfold, bind, Except.bind, hslices, hvocab]
  have hse : (ScanState.init.absorb sourceName c.reverse).sourceEvent = c.sourceEvent sourceName :=
    rfl
  cases hsc : c.sourceEvent sourceName with
  | none =>
    obtain rfl | h := hsrc
    · simpa [projection, hse, hsc, mergeOfSource, mergeStrategyOf, pure, Except.pure] using
        ⟨rfl, rfl, rfl, rfl, rfl⟩
    · simp [hsc] at h
  | some ev =>
    obtain ⟨p, rfl⟩ | ⟨p, rfl⟩ := sourceEvent_cases hsc <;>
      simpa [projection, hse, hsc, mergeOfSource, mergeStrategyOf, pure, Except.pure] using
        ⟨rfl, rfl, rfl, rfl, rfl⟩

/-- On the chain whose vocabulary was set twice, the scan holds the oldest vocabulary and is
otherwise the projection. -/
theorem scan_of_vocab_reset_chain :
    (∀ b ∈ vocabResetChain, Scannable none b) ∧
      withMetadataStateScanned vocabResetChain none =
        .ok { vocabResetChain.projection none with vocab := ⟨"a", "system_time", "event_time"⟩ } :=
  have hs : ∀ b ∈ vocabResetChain, Scannable none b := by simp [vocabResetChain, Scannable]
  ⟨hs, withMetadataStateScanned_eq_oldest_vocab hs (.inl rfl)⟩

/-- Over every chain, `with_metadata_state_scanned` succeeds exactly when no block stops the
loop (a disabled source, a query, a seed not of a root dataset, a polling source when a push
source is named), the newest `SetDataSchema`, if any, decodes (an older one is never decoded),
and the named push source, if one is named, is declared. -/
theorem withMetadataStateScanned_ok_iff (c : Chain) (sourceName : Option String) :
    (∃ m, withMetadataStateScanned c sourceName = .ok m) ↔
      (∀ b ∈ c, Passable sourceName b) ∧ (∀ e, c.newest schemaEventOf = some e → e.schema.isSome) ∧
        (sourceName = none ∨ (c.sourceEvent sourceName).isSome) := by
  cases hfold : c.reverse.foldlM (scanBlock sourceName) ScanState.init with
  | error e =>
    refine iff_of_false (by simp [withMetadataStateScanned, hfold, bind, Except.bind]) ?_
    rintro ⟨hp, hs, -⟩
    have hok : c.reverse.foldlM (scanBlock sourceName) ScanState.init =
        .ok (ScanState.init.absorb sourceName c.reverse) :=
      foldlM_scanBlock_eq_ok_iff.mpr ⟨⟨fun b hb => hp b (List.mem_reverse.mp hb), .inr hs⟩, rfl⟩
    rw [hfold] at hok
    cases hok
  | ok acc =>
    obtain ⟨⟨hp, hs⟩, rfl⟩ := foldlM_scanBlock_eq_ok_iff.mp hfold
    have hschema : ∀ e, c.newest schemaEventOf = some e → e.schema.isSome :=
      hs.resolve_left (by simp [ScanState.init])
    have hse : (ScanState.init.absorb sourceName c.reverse).sourceEvent =
      c.sourceEvent sourceName := rfl
    simp only [withMetadataStateScanned, hfold, bind, Except.bind, hse]
    rw [and_iff_right fun b hb => hp b (List.mem_reverse.mpr hb), and_iff_right hschema]
    cases hsc : c.sourceEvent sourceName with
    | none => cases sourceName <;> simp [mergeStrategyOf, pure, Except.pure]
    | some ev =>
      obtain ⟨p, rfl⟩ | ⟨p, rfl⟩ := sourceEvent_cases hsc <;>
        simp [mergeStrategyOf, pure, Except.pure]

end KamuCli.Odf.Chain
