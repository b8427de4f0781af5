import Mathlib.Logic.Relation
import KamuCli.Ingest.History

/-! The interleaved writers refine atomic writes: a run of stage and commit steps of any
writers, at their await points, changes the dataset as a sequence of whole `write` calls would,
each made alone by a writer in step with the chain at its head. A staged result stays what
`stage` would return, as the repository only grows and the schema commit is the only change to
the writer before its data commit. -/
namespace KamuCli.Odf.DataWriterMetadataState

@[simp] theorem advance_mergeStrategy (meta : DataWriterMetadataState) (newHead : Multihash)
    (e : AddData) : (meta.advance newHead e).mergeStrategy = meta.mergeStrategy := by
  unfold advance
  split <;> rfl

@[simp] theorem advance_vocab (meta : DataWriterMetadataState) (newHead : Multihash)
    (e : AddData) : (meta.advance newHead e).vocab = meta.vocab := by
  unfold advance
  split <;> rfl

end KamuCli.Odf.DataWriterMetadataState

namespace KamuCli.Ingest
open Arrow Odf

section Repository

theorem mapM_lookup_append {l : List Multihash} {repo more : List (Multihash × DataFrame)}
    {files : List DataFrame} (h : l.mapM repo.lookup = some files) :
    l.mapM (repo ++ more).lookup = some files := by
  induction l generalizing files with
  | nil => exact h
  | cons x l ih =>
    rw [List.mapM_cons] at h ⊢
    cases hx : repo.lookup x with
    | none => rw [hx] at h; cases h
    | some f =>
      cases hl : l.mapM repo.lookup with
      | none => rw [hx, hl] at h; cases h
      | some fs =>
        rw [hx, hl] at h
        rwa [List.lookup_append, hx, Option.or_some, ih hl]

/-- Reading previous data gives the same frame once the repository has grown. -/
theorem getAllPreviousData_of_repo_grows {ds ds' : Dataset} {l : List Multihash}
    {prev : Option DataFrame} (hp : ds.dataRepo <+: ds'.dataRepo)
    (h : getAllPreviousData ds l = .ok prev) : getAllPreviousData ds' l = .ok prev := by
  obtain ⟨more, hmore⟩ := hp
  unfold getAllPreviousData at h ⊢
  split_ifs at h ⊢
  · exact h
  · cases hm : l.reverse.mapM ds.dataRepo.lookup with
    | none => rw [hm] at h; cases h
    | some files =>
      rw [← hmore, mapM_lookup_append hm]
      rwa [hm] at h

end Repository

namespace DataWriterDataFusion
variable {w : DataWriterDataFusion} {ds ds' : Dataset} {newData : Option DataFrame}
  {opts : WriteDataOpts} {r : StageDataResult}

/-- `stage` reads the dataset only through the slices it lists, so a grown repository leaves a
staged result as it was. -/
theorem stage_of_repo_grows (hp : ds.dataRepo <+: ds'.dataRepo) (h : w.stage ds newData opts = .ok r) :
    w.stage ds' newData opts = .ok r := by
  obtain ⟨addData, outputSchema, dataFile, hs, -, -⟩ := stage_eq_ok h
  have hs' : w.stageAddData ds' newData opts = .ok (addData, outputSchema, dataFile) := by
    cases newData with
    | none => exact hs
    | some b =>
      obtain ⟨prev, -, -, hprev, -⟩ := stageAddData_some_ok hs
      unfold stageAddData at hs ⊢
      rwa [getAllPreviousData_of_repo_grows hp hprev, ← hprev]
  rwa [stage_eq hs', ← stage_eq hs]

/-- The writer after its schema commit stages what it staged before: its state differs only in
the head and the schema, which is the schema of the staged result. -/
theorem stage_withSchema (head : Multihash) {sch : Schema} (h : w.stage ds newData opts = .ok r)
    (hs : r.outputSchema = some sch) :
    ({ w with meta := { w.meta with head := head, schema := some sch } } :
      DataWriterDataFusion).stage ds newData opts = .ok r := by
  obtain ⟨addData, outputSchema, dataFile, hsa, -, rfl⟩ := stage_eq_ok h
  have hsa' : ({ w with meta := { w.meta with head := head, schema := some sch } } :
      DataWriterDataFusion).stageAddData ds newData opts = .ok (addData, outputSchema, dataFile) := by
    cases newData with
    | none => exact hsa
    | some b =>
      simp only [stageAddData, except_bind_eq_ok] at hsa ⊢
      obtain ⟨u, hv, prev, hprev, merged, hmerged, start, hstart, out, hout, -, -, rest⟩ := hsa
      have hos : outputSchema = some out.fields := by
        obtain ⟨file, -, hf⟩ := rest
        cases file with
        | none =>
          simp only [Except.ok.injEq, Prod.mk.injEq] at hf
          exact hf.2.1.symm
        | some file =>
          obtain ⟨_, -, hf⟩ := except_bind_eq_ok.mp hf
          simp only [Except.ok.injEq, Prod.mk.injEq] at hf
          exact hf.2.1.symm
      obtain rfl : sch = out.fields := Option.some.inj (hs.symm.trans hos)
      exact ⟨u, hv, prev, hprev, merged, hmerged, start, hstart, out, hout, (),
        by simp [validateOutputSchema], rest⟩
  rwa [stage_eq hsa', ← stage_eq hsa]

end DataWriterDataFusion

namespace DataWriterDataFusion
variable {hashOf : DataFrame → Multihash} {w : DataWriterDataFusion} {ds : Dataset}
  {r : StageDataResult}

/-- A writer whose state has a schema, or whose result has none, commits no schema. -/
theorem commitSchema_of_schema {stored : Bool}
    (h : r.outputSchema.isSome → w.meta.schema.isSome) : w.commitSchema ds r stored = .ok (w, ds) := by
  unfold commitSchema
  cases hs : w.meta.schema <;> cases ho : r.outputSchema <;> simp_all

/-- The dataset a `write` leaves is the one its `commit` of the staged result leaves. -/
theorem write_dataset {newData : Option DataFrame} {opts : WriteDataOpts} {env : CommitEnv}
    (h : w.stage ds newData opts = .ok r) :
    (w.write hashOf ds newData opts env).2.1 = (w.commit hashOf ds r env).2.1 := by
  rcases hc : w.commit hashOf ds r env with ⟨w', ds', res⟩
  simp [write, h, hc]

end DataWriterDataFusion


/-- The result a writer holds staged in its current call. -/
def Phase.result : Phase → Option StageDataResult
  | .idle => none
  | .staged r | .schemaCommitted r _ => some r

section Atomic
variable (hashOf : DataFrame → Multihash)
  (mergeStrategyFor : MergeStrategy → DatasetVocabularyResolved → MergeFn)

/-- One whole `write` made alone, by a writer built with `merge_strategy_for` from a state in
step with the chain at its head: the sequential semantics of the writers. -/
def AtomicWrite (ds ds' : Dataset) : Prop :=
  ∃ meta newData opts env, Synced ds.chain meta ∧ meta.head = ds.chain.head ∧
    ds' = ((DataWriterDataFusion.build mergeStrategyFor meta).write hashOf ds newData opts env).2.1

/-- Every writer runs the merge strategy `merge_strategy_for` gives for its own state. -/
def Built (s : System) : Prop :=
  ∀ i slot, s.writers i = some slot →
    slot.writer.mergeStrategy = mergeStrategyFor slot.writer.meta.mergeStrategy slot.writer.meta.vocab

/-- Every result a writer holds is what its `stage` returns on the current dataset for some
batch. -/
def Staged (s : System) : Prop :=
  ∀ i slot r, s.writers i = some slot → slot.phase.result = some r →
    ∃ newData opts, slot.writer.stage s.dataset newData opts = .ok r

theorem build_meta {w : DataWriterDataFusion}
    (h : w.mergeStrategy = mergeStrategyFor w.meta.mergeStrategy w.meta.vocab) :
    DataWriterDataFusion.build mergeStrategyFor w.meta = w := by
  rw [DataWriterDataFusion.build, ← h]

/-- What one step does to a writer: it is left as it was, or it is the stepping writer, built,
staged, past its schema commit, or back to idle after its data commit. -/
theorem System.step_slot (s : System) (a : Action) {j : Nat} {slot' : Slot}
    (h : (s.step hashOf mergeStrategyFor a).writers j = some slot') :
    s.writers j = some slot' ∨
      (∃ meta, slot' = ⟨DataWriterDataFusion.build mergeStrategyFor meta, .idle⟩) ∨
      (∃ w newData opts r, s.writers j = some ⟨w, .idle⟩ ∧
        w.stage s.dataset newData opts = .ok r ∧ slot' = ⟨w, .staged r⟩) ∨
      (∃ w r stored, s.writers j = some ⟨w, .staged r⟩ ∧
        ((∃ w' ds', w.commitSchema s.dataset r stored = .ok (w', ds') ∧
          slot' = ⟨w', .schemaCommitted r w.meta.head⟩) ∨ slot' = ⟨w, .idle⟩)) ∨
      (∃ w r oldHead stored read, s.writers j = some ⟨w, .schemaCommitted r oldHead⟩ ∧
        slot' = ⟨(w.commitData hashOf s.dataset r oldHead stored read).1, .idle⟩) := by
  have hset : ∀ {i slot ds}, (s.setSlot i slot ds).writers j = some slot' →
      (j = i ∧ slot = slot') ∨ s.writers j = some slot' := by
    intro i slot ds h
    change Function.update s.writers i (some slot) j = some slot' at h
    rw [Function.update_apply] at h
    split_ifs at h with hji
    · exact .inl ⟨hji, Option.some.inj h⟩
    · exact .inr h
  cases a with
  | build i sourceName =>
    simp only [System.step] at h
    split at h
    · exact .inl h
    · exact .inl h
    · split at h
      · rcases hset h with ⟨-, rfl⟩ | h
        · exact .inr (.inl ⟨_, rfl⟩)
        · exact .inl h
      · exact .inl h
  | stage i newData opts =>
    simp only [System.step] at h
    split at h
    · rename_i w hw
      split at h
      · rename_i r hr
        rcases hset h with ⟨rfl, rfl⟩ | h
        · exact .inr (.inr (.inl ⟨w, newData, opts, r, hw, hr, rfl⟩))
        · exact .inl h
      · exact .inl h
    · exact .inl h
  | commitSchema i stored =>
    simp only [System.step] at h
    split at h
    · rename_i w r hw
      split at h
      · rename_i w' ds' hc
        rcases hset h with ⟨rfl, rfl⟩ | h
        · exact .inr (.inr (.inr (.inl ⟨w, r, stored, hw, .inl ⟨w', ds', hc, rfl⟩⟩)))
        · exact .inl h
      · rcases hset h with ⟨rfl, rfl⟩ | h
        · exact .inr (.inr (.inr (.inl ⟨w, r, stored, hw, .inr rfl⟩)))
        · exact .inl h
    · exact .inl h
  | commitData i stored read =>
    simp only [System.step] at h
    split at h
    · rename_i w r oldHead hw
      rcases hset h with ⟨rfl, rfl⟩ | h
      · exact .inr (.inr (.inr (.inr ⟨w, r, oldHead, stored, read, hw, rfl⟩)))
      · exact .inl h
    · exact .inl h

theorem Built.step {s : System} (h : Built mergeStrategyFor s) (a : Action) :
    Built mergeStrategyFor (s.step hashOf mergeStrategyFor a) := by
  intro j slot' hj
  rcases System.step_slot hashOf mergeStrategyFor s a hj with hj | ⟨meta, rfl⟩ |
    ⟨w, -, -, -, hw, -, rfl⟩ | ⟨w, r, stored, hw, ⟨w', ds', hc, rfl⟩ | rfl⟩ |
    ⟨w, r, oldHead, stored, read, hw, rfl⟩
  · exact h j slot' hj
  · rfl
  · exact h j ⟨w, .idle⟩ hw
  · rcases DataWriterDataFusion.commitSchema_ok hc with ⟨rfl, -, -⟩ | ⟨sch, -, -, -, rfl, -⟩
    · exact h j ⟨w', .staged r⟩ hw
    · exact h j ⟨w, .staged r⟩ hw
  · exact h j ⟨w, .staged r⟩ hw
  · show (w.commitData hashOf s.dataset r oldHead stored read).1.mergeStrategy = _
    rw [DataWriterDataFusion.commitData_eq]
    split_ifs <;> simpa using h j ⟨w, .schemaCommitted r oldHead⟩ hw

theorem Staged.step {s : System} (h : Staged s) (a : Action) :
    Staged (s.step hashOf mergeStrategyFor a) := by
  have hp := (System.extends_step hashOf mergeStrategyFor s a).2
  intro j slot' r hj hr
  rcases System.step_slot hashOf mergeStrategyFor s a hj with hj | ⟨meta, rfl⟩ |
    ⟨w, newData, opts, r', -, hst, rfl⟩ | ⟨w, r', stored, hw, ⟨w', ds', hc, rfl⟩ | rfl⟩ |
    ⟨w, r', oldHead, stored, read, -, rfl⟩
  · obtain ⟨newData, opts, hst⟩ := h j slot' r hj hr
    exact ⟨newData, opts, DataWriterDataFusion.stage_of_repo_grows hp hst⟩
  · cases hr
  · cases hr
    exact ⟨newData, opts, DataWriterDataFusion.stage_of_repo_grows hp hst⟩
  · cases hr
    obtain ⟨newData, opts, hst⟩ := h j ⟨w, .staged r⟩ r hw rfl
    refine ⟨newData, opts, DataWriterDataFusion.stage_of_repo_grows hp ?_⟩
    rcases DataWriterDataFusion.commitSchema_ok hc with ⟨rfl, -, -⟩ | ⟨sch, -, hs, -, rfl, -⟩
    · exact hst
    · exact DataWriterDataFusion.stage_withSchema _ hst hs
  · cases hr
  · cases hr

/-- One step of the writers leaves the dataset alone or is one atomic write: a schema commit is
a write whose data commit fails, and a data commit is the whole write of the writer past its
schema commit. -/
theorem step_atomic {s : System} (hinv : Inv s) (hst : Staged s) (hb : Built mergeStrategyFor s)
    (a : Action) :
    (s.step hashOf mergeStrategyFor a).dataset = s.dataset ∨
      AtomicWrite hashOf mergeStrategyFor s.dataset (s.step hashOf mergeStrategyFor a).dataset := by
  cases a with
  | build i sourceName =>
    left
    simp only [System.step]
    split
    · rfl
    · rfl
    · split <;> rfl
  | stage i newData opts =>
    left
    simp only [System.step]
    split
    · split <;> rfl
    · rfl
  | commitSchema i stored =>
    simp only [System.step]
    split
    · rename_i w r hw
      split
      · rename_i w' ds' hc
        rcases DataWriterDataFusion.commitSchema_ok hc with ⟨-, rfl, -⟩ | ⟨sch, -, -, hh, -, -⟩
        · exact .inl rfl
        obtain ⟨newData, opts, hstage⟩ := hst i ⟨w, .staged r⟩ r hw rfl
        refine .inr ⟨w.meta, newData, opts, ⟨stored, false, false⟩, (hinv.slots i _ hw).1, hh, ?_⟩
        rw [build_meta mergeStrategyFor (hb i ⟨w, .staged r⟩ hw),
          DataWriterDataFusion.write_dataset hstage]
        simp [System.setSlot, DataWriterDataFusion.commit, hc, DataWriterDataFusion.commitData_eq]
      · exact .inl rfl
    · exact .inl rfl
  | commitData i stored read =>
    simp only [System.step]
    split
    · rename_i w r oldHead hw
      by_cases hcas : w.meta.head = s.dataset.chain.head ∧ stored
      · obtain ⟨newData, opts, hstage⟩ := hst i ⟨w, .schemaCommitted r oldHead⟩ r hw rfl
        obtain ⟨-, hschema⟩ := (hinv.slots i _ hw).2
        have hnoop : w.commitSchema s.dataset r true = .ok (w, s.dataset) :=
          DataWriterDataFusion.commitSchema_of_schema hschema
        refine .inr ⟨w.meta, newData, opts, ⟨true, stored, read⟩, (hinv.slots i _ hw).1, hcas.1, ?_⟩
        rw [build_meta mergeStrategyFor (hb i ⟨w, .schemaCommitted r oldHead⟩ hw),
          DataWriterDataFusion.write_dataset hstage]
        cases read <;>
          simp [System.setSlot, DataWriterDataFusion.commit, hnoop,
            DataWriterDataFusion.commitData_eq, hcas]
      · left
        rw [DataWriterDataFusion.commitData_eq, if_neg hcas]
        rfl
    · exact .inl rfl

theorem staged_init (t : DateTime) : Staged (System.init t) := fun _ _ _ h => nomatch h

theorem built_init (t : DateTime) : Built mergeStrategyFor (System.init t) :=
  fun _ _ h => nomatch h

/-- The interleaved writers are serializable: in every run of any writers on a root dataset,
their stage and commit steps interleaved at await points, the dataset is the seed dataset
changed by a sequence of whole `write` calls, each made alone by a writer built with
`merge_strategy_for` from a state in step with the chain at its head. -/
theorem writers_serializable (t : DateTime) (acts : List Action) :
    Relation.ReflTransGen (AtomicWrite hashOf mergeStrategyFor) (System.init t).dataset
      ((System.init t).run hashOf mergeStrategyFor acts).dataset := by
  suffices ∀ s, Inv s → Staged s → Built mergeStrategyFor s →
      Relation.ReflTransGen (AtomicWrite hashOf mergeStrategyFor) s.dataset
        (s.run hashOf mergeStrategyFor acts).dataset from
    this _ (inv_init t) (staged_init t) (built_init mergeStrategyFor t)
  induction acts with
  | nil => exact fun _ _ _ _ => .refl
  | cons a acts ih =>
    intro s hinv hst hb
    have hrest := ih _ (inv_step hashOf mergeStrategyFor hinv a)
      (hst.step hashOf mergeStrategyFor a) (hb.step hashOf mergeStrategyFor a)
    rcases step_atomic hashOf mergeStrategyFor hinv hst hb a with h | h
    · rwa [h] at hrest
    · exact .head h hrest

end Atomic

end KamuCli.Ingest
