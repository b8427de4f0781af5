import KamuCli.Arrow.DataFrame

/-! Open Data Fabric metadata as the writer reads and writes it. Hashes are abstract: a block is
addressed by its position in the chain, which a linear chain never reuses. -/
namespace KamuCli.Odf
open Arrow

abbrev Multihash := Nat

/-- A UTC instant in nanoseconds since the epoch, chrono's `DateTime<Utc>`. -/
abbrev DateTime := Int

/-- chrono's `timestamp_millis`: whole milliseconds, rounded down. -/
def DateTime.timestampMillis (t : DateTime) : Int := t / 1000000

/-- The instant `ms` milliseconds from the epoch. -/
def DateTime.ofMillis (ms : Int) : DateTime := ms * 1000000

/-- chrono's `Utc.timestamp_millis_opt(ms)`: nothing outside `NaiveDateTime`'s years -262144 to
262143. -/
def DateTime.fromTimestampMillis (ms : Int) : Option DateTime :=
  if -8334632851200000 ≤ ms ∧ ms ≤ 8210298412799999 then some (DateTime.ofMillis ms) else none

structure OffsetInterval where
  start : Int
  «end» : Int
  deriving DecidableEq, Repr

structure DataSlice where
  physicalHash : Multihash
  interval : OffsetInterval
  deriving DecidableEq, Repr

structure Checkpoint where
  physicalHash : Multihash
  deriving DecidableEq, Repr

/-- An upstream cursor; the writer only compares it for equality. -/
structure SourceState where
  sourceName : Option String
  kind : String
  value : String
  deriving DecidableEq, Repr

inductive MergeStrategy
  | append
  | ledger (primaryKey : List String)
  | snapshot (primaryKey : List String) (compareColumns : Option (List String))
  deriving DecidableEq, Repr

structure DatasetVocabulary where
  offsetColumn : Option String
  systemTimeColumn : Option String
  eventTimeColumn : Option String
  deriving DecidableEq, Repr

/-- `DatasetVocabulary::default()`: every name unset. -/
def DatasetVocabulary.default : DatasetVocabulary := ⟨none, none, none⟩

/-- `DatasetVocabularyResolvedOwned`, the three system column names. -/
structure DatasetVocabularyResolved where
  offsetColumn : String
  systemTimeColumn : String
  eventTimeColumn : String
  deriving DecidableEq, Repr

/-- Resolution fills every unset name with its ODF default. -/
def DatasetVocabulary.resolve (v : DatasetVocabulary) : DatasetVocabularyResolved :=
  ⟨v.offsetColumn.getD "offset", v.systemTimeColumn.getD "system_time",
    v.eventTimeColumn.getD "event_time"⟩

inductive DatasetKind
  | root | derivative
  deriving DecidableEq, Repr

structure Seed where
  datasetKind : DatasetKind
  deriving DecidableEq, Repr

structure AddData where
  inputCheckpoint : Option Multihash
  outputData : Option DataSlice
  outputCheckpoint : Option Checkpoint
  outputWatermark : Option DateTime
  sourceState : Option SourceState
  deriving DecidableEq, Repr

structure SetWatermark where
  outputWatermark : DateTime
  deriving DecidableEq, Repr

structure SetPollingSource where
  merge : MergeStrategy
  deriving DecidableEq, Repr

structure AddPushSource where
  sourceName : Option String
  merge : MergeStrategy
  deriving DecidableEq, Repr

structure SetVocab where
  offsetColumn : Option String
  systemTimeColumn : Option String
  eventTimeColumn : Option String
  deriving DecidableEq, Repr

def SetVocab.into (e : SetVocab) : DatasetVocabulary :=
  ⟨e.offsetColumn, e.systemTimeColumn, e.eventTimeColumn⟩

/-- The serialized schema; `none` stands for bytes that do not decode. -/
structure SetDataSchema where
  schema : Option Schema
  deriving DecidableEq, Repr

def SetDataSchema.new (schema : Schema) : SetDataSchema := ⟨some schema⟩

/-- `schema_as_arrow`, decoding the stored schema. -/
def SetDataSchema.schemaAsArrow (e : SetDataSchema) : Except String Schema :=
  match e.schema with
  | some s => .ok s
  | none => .error "Invalid flatbuffer schema"

inductive MetadataEvent
  | addData (e : AddData)
  | executeQuery
  | seed (e : Seed)
  | setPollingSource (e : SetPollingSource)
  | setTransform
  | setVocab (e : SetVocab)
  | setWatermark (e : SetWatermark)
  | setAttachments
  | setInfo
  | setLicense
  | setDataSchema (e : SetDataSchema)
  | addPushSource (e : AddPushSource)
  | disablePollingSource
  | disablePushSource
  deriving DecidableEq, Repr

structure MetadataBlock where
  systemTime : DateTime
  prevBlockHash : Option Multihash
  event : MetadataEvent
  deriving DecidableEq, Repr

/-- Blocks oldest first; the block at position `i` has hash `i + 1`, so the head is the length. -/
abbrev Chain := List MetadataBlock

def Chain.head (c : Chain) : Multihash := c.length

/-- `get_block`: the block a hash names; no block has hash zero. -/
def Chain.getBlock (c : Chain) (h : Multihash) : Option MetadataBlock :=
  if h = 0 then none else c.get? (h - 1)

/-- `DataWriterMetadataState`, the writer's projection of the chain. -/
structure DataWriterMetadataState where
  head : Multihash
  schema : Option Schema
  sourceEvent : Option MetadataEvent
  mergeStrategy : MergeStrategy
  vocab : DatasetVocabularyResolved
  dataSlices : List Multihash
  lastOffset : Option Int
  lastCheckpoint : Option Multihash
  lastWatermark : Option DateTime
  lastSourceState : Option SourceState
  deriving DecidableEq, Repr

end KamuCli.Odf
