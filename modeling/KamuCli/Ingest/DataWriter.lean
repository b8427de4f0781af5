import KamuCli.Odf.Metadata

/-! The `DataWriter` interface of the ingest domain, and the dataset it appends to. The dataset's
commit code lies outside this repository and is modelled from the spec: a compare-and-swap of
the head over an append-only chain and object repository. -/
namespace KamuCli.Ingest
open Arrow Odf

def i64Min : Int := -9223372036854775808
def i64Max : Int := 9223372036854775807

/-- An `i64` result, or `none` where a build with overflow checks panics. -/
def checkedI64 (x : Int) : Option Int :=
  if i64Min ≤ x ∧ x ≤ i64Max then some x else none

theorem checkedI64_eq_some {x y : Int} : checkedI64 x = some y ↔ y = x ∧ i64Min ≤ x ∧ x ≤ i64Max := by
  unfold checkedI64
  split
  · simp_all [eq_comm]
  · rename_i h
    simp only [reduceCtorEq, false_iff, not_and]
    rintro rfl h₁ h₂; exact h ⟨h₁, h₂⟩

/-- `Int64` addition as DataFusion's kernels compute it: two's complement, wrapping. -/
def wrapI64 (x : Int) : Int :=
  (x + 9223372036854775808) % 18446744073709551616 - 9223372036854775808

theorem wrapI64_mem (x : Int) : i64Min ≤ wrapI64 x ∧ wrapI64 x ≤ i64Max := by
  unfold wrapI64 i64Min i64Max; omega

theorem wrapI64_of_mem {x : Int} (h₁ : i64Min ≤ x) (h₂ : x ≤ i64Max) : wrapI64 x = x := by
  unfold wrapI64; unfold i64Min at h₁; unfold i64Max at h₂; omega

theorem except_bind_eq_ok {ε α β : Type} {x : Except ε α} {f : α → Except ε β} {b : β} :
    x >>= f = .ok b ↔ ∃ a, x = .ok a ∧ f a = .ok b := by
  cases x <;> simp [bind, Except.bind]

theorem except_mapError_eq_ok {ε ε' α : Type} {x : Except ε α} {g : ε → ε'} {a : α} :
    x.mapError g = .ok a ↔ x = .ok a := by
  cases x <;> simp [Except.mapError]

/-- `StageDataError`; `panic` stands for a call aborted by an assertion, `unwrap` or overflow. -/
inductive StageDataError
  | badInputSchema (message : String) (schema : Schema)
  | mergeError (message : String)
  | emptyCommit
  | internal (message : String)
  | panic (message : String)
  deriving DecidableEq, Repr

/-- `WriteDataOpts`; each call stages into its own `data_staging_path`, so the path is left out. -/
structure WriteDataOpts where
  systemTime : DateTime
  sourceEventTime : DateTime
  sourceState : Option SourceState
  deriving DecidableEq, Repr

structure AddDataParams where
  inputCheckpoint : Option Multihash
  outputData : Option OffsetInterval
  outputWatermark : Option DateTime
  sourceState : Option SourceState
  deriving DecidableEq, Repr

/-- `StageDataResult`; the staged file is the frame written to it. -/
structure StageDataResult where
  systemTime : DateTime
  addData : AddDataParams
  outputSchema : Option Schema
  dataFile : Option DataFrame

/-- `CommitError`: a lost head race, a failed storage write, or a wrapped internal fault. -/
inductive CommitError
  | refCasFailed
  | storageFailed
  | internal (message : String)
  | panic (message : String)
  deriving DecidableEq, Repr

inductive WriteDataError
  | badInputSchema (message : String) (schema : Schema)
  | mergeError (message : String)
  | emptyCommit
  | commitError (e : CommitError)
  | internal (message : String)
  | panic (message : String)
  deriving DecidableEq, Repr

/-- `From<StageDataError> for WriteDataError`. -/
def WriteDataError.ofStage : StageDataError → WriteDataError
  | .badInputSchema m s => .badInputSchema m s
  | .mergeError m => .mergeError m
  | .emptyCommit => .emptyCommit
  | .internal m => .internal m
  | .panic m => .panic m

structure WriteDataResult where
  oldHead : Multihash
  newHead : Multihash
  newBlock : MetadataBlock
  deriving DecidableEq, Repr

/-- A root dataset: its metadata chain and its object repository of data slices. -/
structure Dataset where
  chain : Chain
  dataRepo : List (Multihash × DataFrame)

/-- Modelled from the spec: `Dataset::commit_event`. The block is appended only when the
supplied previous hash is the head, and only if the storage write goes through (`stored`). -/
def Dataset.commitEvent (ds : Dataset) (event : MetadataEvent) (systemTime : DateTime)
    (prevBlockHash : Multihash) (stored : Bool) : Except CommitError (Dataset × Multihash) :=
  if prevBlockHash ≠ ds.chain.head then .error .refCasFailed
  else if stored then
    .ok ({ ds with chain := ds.chain ++ [⟨systemTime, some prevBlockHash, event⟩] },
      ds.chain.head + 1)
  else .error .storageFailed

/-- Modelled from the spec: the `AddData` event `Dataset::commit_add_data` appends; the slice
is named by the content hash of the staged file. -/
def addDataEvent (hashOf : DataFrame → Multihash) (addData : AddDataParams)
    (dataFile : Option DataFrame) (outputCheckpoint : Option Checkpoint) : AddData :=
  let outputData : Option DataSlice := match addData.outputData, dataFile with
    | some interval, some f => some ⟨hashOf f, interval⟩
    | _, _ => none
  ⟨addData.inputCheckpoint, outputData, outputCheckpoint, addData.outputWatermark,
    addData.sourceState⟩

/-- Modelled from the spec: `Dataset::commit_add_data`. The staged file enters the object
repository under its content hash, and the `AddData` event is committed. -/
def Dataset.commitAddData (hashOf : DataFrame → Multihash) (ds : Dataset)
    (addData : AddDataParams) (dataFile : Option DataFrame) (outputCheckpoint : Option Checkpoint)
    (systemTime : DateTime) (prevBlockHash : Multihash) (stored : Bool) :
    Except CommitError (Dataset × Multihash) :=
  let ds := { ds with dataRepo := ds.dataRepo ++ dataFile.toList.map fun f => (hashOf f, f) }
  ds.commitEvent (.addData (addDataEvent hashOf addData dataFile outputCheckpoint)) systemTime
    prevBlockHash stored

end KamuCli.Ingest
