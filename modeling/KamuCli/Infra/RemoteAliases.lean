import Mathlib.Data.List.Nodup

/-! The remote alias registry (`remote_aliases_registry_impl.rs`): a handle holds a dataset's
config in memory and writes the whole config to the dataset's config file after each change.
Any number of handles on one dataset, each opened from the file, with writes that may fail. -/
namespace KamuCli.Infra

/-- Modelled from its uses here: a remote dataset name, compared by equality. -/
abbrev RemoteDatasetName := String

inductive RemoteAliasKind
  | pull
  | push
  deriving DecidableEq, Repr

/-- Modelled from its uses here: the two alias lists of `DatasetConfig`. -/
structure DatasetConfig where
  pullAliases : List RemoteDatasetName
  pushAliases : List RemoteDatasetName
  deriving DecidableEq, Repr

/-- `DatasetConfig::default()`: no aliases. -/
def DatasetConfig.default : DatasetConfig := ⟨[], []⟩

/-- The list of one kind, as the `match kind` at the top of every method selects it. -/
def DatasetConfig.aliases (c : DatasetConfig) : RemoteAliasKind → List RemoteDatasetName
  | .pull => c.pullAliases
  | .push => c.pushAliases

/-- The config with the list of one kind replaced. -/
def DatasetConfig.setAliases (c : DatasetConfig) (kind : RemoteAliasKind)
    (aliases : List RemoteDatasetName) : DatasetConfig :=
  match kind with
  | .pull => { c with pullAliases := aliases }
  | .push => { c with pushAliases := aliases }

/-- Modelled from its uses here: the error `write_config` returns, from `File::create` or from
writing the manifest into the file `File::create` made. -/
inductive DomainError
  | createFailed (message : String)
  | writeFailed (message : String)
  deriving DecidableEq, Repr

/-- What the dataset's config file holds: no file, a whole manifest, or the empty file that
`File::create` leaves when nothing of the manifest could then be written into it. -/
inductive ConfigFile
  | missing
  | written (config : DatasetConfig)
  | truncated
  deriving DecidableEq, Repr

/-- `RemoteAliasesRegistryImpl` for one dataset: its config file. -/
structure RemoteAliasesRegistryImpl where
  configFile : ConfigFile
  deriving DecidableEq, Repr

namespace RemoteAliasesRegistryImpl

/-- `get_config`: the file's config, or the default when there is no file. `read_config` panics
on a file that does not deserialize; the error stands for that panic. -/
def getConfig (reg : RemoteAliasesRegistryImpl) : Except String DatasetConfig :=
  match reg.configFile with
  | .missing => .ok .default
  | .written config => .ok config
  | .truncated => .error "Failed to deserialize the DatasetConfig"

/-- `set_config` through `write_config`; `io` is how the file system answers. `File::create`
truncates the file before the manifest is written into it, so a write that fails after the create
leaves the file cut short, while a failed create leaves it as it was. -/
def setConfig (reg : RemoteAliasesRegistryImpl) (config : DatasetConfig)
    (io : Except DomainError Unit) : RemoteAliasesRegistryImpl × Except DomainError Unit :=
  match io with
  | .ok () => (⟨.written config⟩, .ok ())
  | .error (.createFailed m) => (reg, .error (.createFailed m))
  | .error (.writeFailed m) => (⟨.truncated⟩, .error (.writeFailed m))

end RemoteAliasesRegistryImpl

/-- `RemoteAliasesImpl`: the config it read, changed in memory by its methods. -/
structure RemoteAliasesImpl where
  config : DatasetConfig
  deriving DecidableEq, Repr

/-- `get_remote_aliases`: a handle on the config the file holds now; it panics where
`get_config` does. -/
def RemoteAliasesRegistryImpl.getRemoteAliases (reg : RemoteAliasesRegistryImpl) :
    Except String RemoteAliasesImpl :=
  reg.getConfig.map (⟨·⟩)

namespace RemoteAliasesImpl

def getByKind (ra : RemoteAliasesImpl) (kind : RemoteAliasKind) : List RemoteDatasetName :=
  ra.config.aliases kind

/-- `contains`: the loop returns at the first alias equal to the name. -/
def contains (ra : RemoteAliasesImpl) (remoteRef : RemoteDatasetName) (kind : RemoteAliasKind) :
    Bool :=
  (ra.config.aliases kind).any (· == remoteRef)

def isEmpty (ra : RemoteAliasesImpl) (kind : RemoteAliasKind) : Bool :=
  (ra.config.aliases kind).isEmpty

/-- The tail `add`, `delete` and `clear` share: the kind's list is replaced in memory, then the
whole config is written, and `?` returns a failed write with the change kept in memory. -/
def persistAliases {α : Type} (ra : RemoteAliasesImpl) (reg : RemoteAliasesRegistryImpl)
    (kind : RemoteAliasKind) (aliases : List RemoteDatasetName) (io : Except DomainError Unit)
    (value : α) : RemoteAliasesImpl × RemoteAliasesRegistryImpl × Except DomainError α :=
  let ra : RemoteAliasesImpl := ⟨ra.config.setAliases kind aliases⟩
  let (reg, written) := reg.setConfig ra.config io
  (ra, reg, written.map fun () => value)

def add (ra : RemoteAliasesImpl) (reg : RemoteAliasesRegistryImpl) (remoteRef : RemoteDatasetName)
    (kind : RemoteAliasKind) (io : Except DomainError Unit) :
    RemoteAliasesImpl × RemoteAliasesRegistryImpl × Except DomainError Bool :=
  let aliases := ra.config.aliases kind
  if !aliases.contains remoteRef then ra.persistAliases reg kind (aliases ++ [remoteRef]) io true
  else (ra, reg, .ok false)

/-- `delete`: removes the alias at the first position that holds the name. -/
def delete (ra : RemoteAliasesImpl) (reg : RemoteAliasesRegistryImpl)
    (remoteRef : RemoteDatasetName) (kind : RemoteAliasKind) (io : Except DomainError Unit) :
    RemoteAliasesImpl × RemoteAliasesRegistryImpl × Except DomainError Bool :=
  let aliases := ra.config.aliases kind
  match aliases.indexOf? remoteRef with
  | some i => ra.persistAliases reg kind (aliases.eraseIdx i) io true
  | none => (ra, reg, .ok false)

/-- `clear`: returns the number of aliases it found, and writes only when there were some. -/
def clear (ra : RemoteAliasesImpl) (reg : RemoteAliasesRegistryImpl) (kind : RemoteAliasKind)
    (io : Except DomainError Unit) :
    RemoteAliasesImpl × RemoteAliasesRegistryImpl × Except DomainError Nat :=
  let aliases := ra.config.aliases kind
  let len := aliases.length
  if !aliases.isEmpty then ra.persistAliases reg kind [] io len
  else (ra, reg, .ok len)

end RemoteAliasesImpl

/-- The registry file of one dataset and the handles opened on it. -/
structure Workspace where
  registry : RemoteAliasesRegistryImpl
  handles : Nat → Option RemoteAliasesImpl

/-- A call on handle `i`; the file system's answer to a write is part of the call. -/
inductive AliasCall
  | getRemoteAliases (i : Nat)
  | add (i : Nat) (remoteRef : RemoteDatasetName) (kind : RemoteAliasKind)
      (io : Except DomainError Unit)
  | delete (i : Nat) (remoteRef : RemoteDatasetName) (kind : RemoteAliasKind)
      (io : Except DomainError Unit)
  | clear (i : Nat) (kind : RemoteAliasKind) (io : Except DomainError Unit)

/-- The handle a call goes to. -/
def AliasCall.handle : AliasCall → Nat
  | .getRemoteAliases i | .add i _ _ _ | .delete i _ _ _ | .clear i _ _ => i

/-- Whether the write of the config file a call may make succeeds. -/
def AliasCall.writeSucceeds : AliasCall → Bool
  | .getRemoteAliases _ => true
  | .add _ _ _ io | .delete _ _ _ io | .clear _ _ io => io.isOk

namespace Workspace

/-- A dataset with no config file and no handle open. -/
def init : Workspace := ⟨⟨.missing⟩, fun _ => none⟩

def setHandle (w : Workspace) (i : Nat) (ra : RemoteAliasesImpl)
    (reg : RemoteAliasesRegistryImpl) : Workspace :=
  ⟨reg, Function.update w.handles i (some ra)⟩

/-- A method call on handle `i`, if it is open; the result goes back to the caller. -/
def call {α : Type} (w : Workspace) (i : Nat)
    (f : RemoteAliasesImpl → RemoteAliasesRegistryImpl →
      RemoteAliasesImpl × RemoteAliasesRegistryImpl × Except DomainError α) : Workspace :=
  match w.handles i with
  | some ra => w.setHandle i (f ra w.registry).1 (f ra w.registry).2.1
  | none => w

/-- One call; a call that panics changes nothing. -/
def step (w : Workspace) : AliasCall → Workspace
  | .getRemoteAliases i =>
    match w.registry.getRemoteAliases with
    | .ok ra => w.setHandle i ra w.registry
    | .error _ => w
  | .add i remoteRef kind io => w.call i fun ra reg => ra.add reg remoteRef kind io
  | .delete i remoteRef kind io => w.call i fun ra reg => ra.delete reg remoteRef kind io
  | .clear i kind io => w.call i fun ra reg => ra.clear reg kind io

def run (w : Workspace) (calls : List AliasCall) : Workspace := calls.foldl step w

end Workspace

namespace DatasetConfig
variable {c : DatasetConfig} {l : List RemoteDatasetName}

@[simp] theorem aliases_setAliases_self (c : DatasetConfig) (kind : RemoteAliasKind)
    (l : List RemoteDatasetName) : (c.setAliases kind l).aliases kind = l := by
  cases kind <;> rfl

@[simp] theorem aliases_setAliases_of_ne {kind kind' : RemoteAliasKind} (h : kind' ≠ kind) :
    (c.setAliases kind l).aliases kind' = c.aliases kind' := by
  cases kind <;> cases kind' <;> first | rfl | exact absurd rfl h

/-- Both alias lists without repeats. -/
def AliasesNodup (c : DatasetConfig) : Prop := ∀ kind, (c.aliases kind).Nodup

theorem aliasesNodup_default : DatasetConfig.default.AliasesNodup := fun kind => by
  cases kind <;> exact List.nodup_nil

theorem AliasesNodup.setAliases (h : c.AliasesNodup) (kind : RemoteAliasKind) (hl : l.Nodup) :
    (c.setAliases kind l).AliasesNodup := fun kind' => by
  by_cases hk : kind' = kind
  · subst hk; simpa using hl
  · simpa [hk] using h kind'

end DatasetConfig

/-- Every config the file yields is without repeats. -/
def RemoteAliasesRegistryImpl.AliasesNodup (reg : RemoteAliasesRegistryImpl) : Prop :=
  ∀ c, reg.getConfig = .ok c → c.AliasesNodup

namespace RemoteAliasesImpl
variable {ra : RemoteAliasesImpl}

theorem contains_iff (ra : RemoteAliasesImpl) (remoteRef : RemoteDatasetName)
    (kind : RemoteAliasKind) : ra.contains remoteRef kind = true ↔ remoteRef ∈ ra.getByKind kind := by
  simp [contains, getByKind]

theorem contains_eq_false_iff (ra : RemoteAliasesImpl) (remoteRef : RemoteDatasetName)
    (kind : RemoteAliasKind) :
    ra.contains remoteRef kind = false ↔ remoteRef ∉ ra.getByKind kind := by
  rw [← contains_iff, Bool.not_eq_true]

section Persist
variable {reg : RemoteAliasesRegistryImpl} {kind : RemoteAliasKind} {io : Except DomainError Unit}
  {α : Type} {l : List RemoteDatasetName} {value : α}

@[simp] theorem persistAliases_fst :
    (ra.persistAliases reg kind l io value).1 = ⟨ra.config.setAliases kind l⟩ := by
  rcases io with (_ | _) | _ <;> rfl

@[simp] theorem persistAliases_result :
    (ra.persistAliases reg kind l io value).2.2 = io.map fun () => value := by
  rcases io with (_ | _) | _ <;> rfl

/-- A failed write leaves the file as it was if the file could not be created, and cut short if
the manifest could not be written into it; the handle keeps its change all the same. -/
theorem persistAliases_error {e : DomainError}
    (h : (ra.persistAliases reg kind l io value).2.2 = .error e) :
    io = .error e ∧ (ra.persistAliases reg kind l io value).2.1 = match e with
      | .createFailed _ => reg
      | .writeFailed _ => ⟨.truncated⟩ := by
  rcases io with (_ | _) | _
  all_goals cases h
  all_goals exact ⟨rfl, rfl⟩

/-- A successful write leaves the file holding the handle's new config. -/
theorem persistAliases_synced (hio : io = .ok ()) :
    (ra.persistAliases reg kind l io value).2.1.getConfig =
      .ok (ra.persistAliases reg kind l io value).1.config := by
  subst hio
  rfl

/-- A list without repeats keeps both configs without repeats, whatever the write does. -/
theorem persistAliases_nodup (h : ra.config.AliasesNodup) (hreg : reg.AliasesNodup)
    (hl : l.Nodup) :
    (ra.persistAliases reg kind l io value).1.config.AliasesNodup ∧
      (ra.persistAliases reg kind l io value).2.1.AliasesNodup := by
  have hnew := h.setAliases kind hl
  refine ⟨hnew, ?_⟩
  rcases io with (_ | _) | _
  · exact hreg
  · intro c hc; cases hc
  · intro c hc; cases hc; exact hnew

end Persist

variable (reg : RemoteAliasesRegistryImpl) (remoteRef : RemoteDatasetName)
  (kind : RemoteAliasKind) (io : Except DomainError Unit)

/-- `add` answers `Ok(false)` for a name it holds and otherwise passes on the write's answer;
the name is held afterwards, and the other kind's list is left alone. -/
theorem add_spec :
    (ra.add reg remoteRef kind io).2.2 =
        (if ra.contains remoteRef kind then .ok false else io.map fun () => true) ∧
      (ra.add reg remoteRef kind io).1.contains remoteRef kind = true ∧
      ∀ kind', kind' ≠ kind →
        (ra.add reg remoteRef kind io).1.getByKind kind' = ra.getByKind kind' := by
  by_cases hc : remoteRef ∈ ra.config.aliases kind
  · have hcon : ra.contains remoteRef kind = true := (contains_iff _ _ _).mpr hc
    simp [add, hc, hcon]
  · have hcon := (contains_eq_false_iff ra remoteRef kind).mpr hc
    refine ⟨by simp [add, hc, hcon], by simp [add, hc, contains_iff, getByKind], fun kind' hk => ?_⟩
    simp [add, hc, getByKind, hk]

private theorem indexOf?_eq_some_imp {l : List RemoteDatasetName} {i : Nat}
    (h : l.indexOf? remoteRef = some i) : i = l.indexOf remoteRef ∧ remoteRef ∈ l := by
  refine ⟨(List.findIdx?_eq_some_iff_findIdx_eq.mp h).2.symm, ?_⟩
  by_contra hn
  rw [List.indexOf?_eq_none_iff.mpr fun x hx hxr => hn (by rwa [beq_iff_eq.mp hxr] at hx)] at h
  cases h

/-- On a list without repeats, `delete` answers `Ok(false)` for a name it does not hold and
otherwise passes on the write's answer; the name is gone afterwards, and the other kind's list
is left alone. -/
theorem delete_spec (h : (ra.getByKind kind).Nodup) :
    (ra.delete reg remoteRef kind io).2.2 =
        (if ra.contains remoteRef kind then io.map fun () => true else .ok false) ∧
      (ra.delete reg remoteRef kind io).1.contains remoteRef kind = false ∧
      ∀ kind', kind' ≠ kind →
        (ra.delete reg remoteRef kind io).1.getByKind kind' = ra.getByKind kind' := by
  cases hi : (ra.config.aliases kind).indexOf? remoteRef with
  | none =>
    have hcon := (contains_eq_false_iff ra remoteRef kind).mpr fun hm =>
      List.indexOf?_eq_none_iff.mp hi _ hm (beq_self_eq_true _)
    simp [delete, hi, hcon]
  | some i =>
    obtain ⟨rfl, hm⟩ := indexOf?_eq_some_imp remoteRef hi
    have hcon : ra.contains remoteRef kind = true := (contains_iff _ _ _).mpr hm
    refine ⟨by simp [delete, hi, hcon], Bool.eq_false_iff.mpr fun hc =>
      @List.Nodup.not_mem_erase _ _ _ _ remoteRef h ?_,
      fun kind' hk => by simp [delete, hi, getByKind, hk]⟩
    simpa [delete, hi, contains_iff, getByKind] using hc

/-- `clear` answers the length it found when the list was empty and otherwise passes on the
write's answer with that length; the list is empty afterwards, and the other kind's list is
left alone. -/
theorem clear_spec :
    (ra.clear reg kind io).2.2 = (if ra.isEmpty kind then .ok (ra.getByKind kind).length
        else io.map fun () => (ra.getByKind kind).length) ∧
      (ra.clear reg kind io).1.isEmpty kind = true ∧
      ∀ kind', kind' ≠ kind → (ra.clear reg kind io).1.getByKind kind' = ra.getByKind kind' := by
  by_cases he : ra.config.aliases kind = []
  · simp [clear, isEmpty, getByKind, he]
  · refine ⟨by simp [clear, isEmpty, getByKind, he], by simp [clear, isEmpty, he],
      fun kind' hk => by simp [clear, he, getByKind, hk]⟩

end RemoteAliasesImpl

/-- A method that keeps the handle's config and the file's config without repeats. -/
def KeepsNodup {α : Type} (f : RemoteAliasesImpl → RemoteAliasesRegistryImpl →
    RemoteAliasesImpl × RemoteAliasesRegistryImpl × Except DomainError α) : Prop :=
  ∀ ra reg, ra.config.AliasesNodup → reg.AliasesNodup →
    (f ra reg).1.config.AliasesNodup ∧ (f ra reg).2.1.AliasesNodup

namespace RemoteAliasesImpl
variable (remoteRef : RemoteDatasetName) (kind : RemoteAliasKind) (io : Except DomainError Unit)

/-- `add` pushes only a name the list lacks. -/
theorem add_keepsNodup : KeepsNodup fun ra reg => ra.add reg remoteRef kind io := by
  intro ra reg h hreg
  by_cases hc : remoteRef ∈ ra.config.aliases kind
  · simpa [add, hc] using And.intro h hreg
  · have hl : (ra.config.aliases kind ++ [remoteRef]).Nodup :=
      List.nodup_append.mpr ⟨h kind, List.nodup_singleton _, by simpa using hc⟩
    simpa [add, hc] using persistAliases_nodup h hreg hl

/-- `delete` keeps a sublist. -/
theorem delete_keepsNodup : KeepsNodup fun ra reg => ra.delete reg remoteRef kind io := by
  intro ra reg h hreg
  cases hi : (ra.config.aliases kind).indexOf? remoteRef with
  | none => simpa [delete, hi] using And.intro h hreg
  | some i =>
    simpa [delete, hi] using
      persistAliases_nodup h hreg ((h kind).sublist (List.eraseIdx_sublist _ i))

theorem clear_keepsNodup : KeepsNodup fun ra reg => ra.clear reg kind io := by
  intro ra reg h hreg
  by_cases he : ra.config.aliases kind = []
  · simpa [clear, he] using And.intro h hreg
  · simpa [clear, he] using persistAliases_nodup h hreg List.nodup_nil

end RemoteAliasesImpl

/-- A method that, when its write succeeds, leaves the file holding the handle's config if it
held it before. -/
def KeepsSync {α : Type} (f : RemoteAliasesImpl → RemoteAliasesRegistryImpl →
    RemoteAliasesImpl × RemoteAliasesRegistryImpl × Except DomainError α) : Prop :=
  ∀ ra reg, reg.getConfig = .ok ra.config → (f ra reg).2.1.getConfig = .ok (f ra reg).1.config

namespace RemoteAliasesImpl
variable (remoteRef : RemoteDatasetName) (kind : RemoteAliasKind) {io : Except DomainError Unit}

/-- `add`, `delete` and `clear` either change nothing or write the whole changed config. -/
theorem add_keepsSync (hio : io = .ok ()) : KeepsSync fun ra reg => ra.add reg remoteRef kind io := by
  intro ra reg h
  dsimp only [add]
  split
  · exact persistAliases_synced hio
  · exact h

theorem delete_keepsSync (hio : io = .ok ()) :
    KeepsSync fun ra reg => ra.delete reg remoteRef kind io := by
  intro ra reg h
  dsimp only [delete]
  split
  · exact persistAliases_synced hio
  · exact h

theorem clear_keepsSync (hio : io = .ok ()) : KeepsSync fun ra reg => ra.clear reg kind io := by
  intro ra reg h
  dsimp only [clear]
  split
  · exact persistAliases_synced hio
  · exact h

end RemoteAliasesImpl

/-- The invariant of a workspace: the file and every open handle hold alias lists without
repeats. -/
structure Workspace.Inv (w : Workspace) : Prop where
  file : w.registry.AliasesNodup
  handles : ∀ i ra, w.handles i = some ra → ra.config.AliasesNodup

namespace Workspace
variable {w : Workspace}

theorem Inv.setHandle (h : w.Inv) {i : Nat} {ra : RemoteAliasesImpl}
    {reg : RemoteAliasesRegistryImpl} (hra : ra.config.AliasesNodup)
    (hreg : reg.AliasesNodup) : (w.setHandle i ra reg).Inv := by
  refine ⟨hreg, fun j ra' hj => ?_⟩
  change Function.update w.handles i (some ra) j = some ra' at hj
  rw [Function.update_apply] at hj
  split_ifs at hj
  · cases hj; exact hra
  · exact h.handles j ra' hj

theorem Inv.call {α : Type} (h : w.Inv) (i : Nat)
    {f : RemoteAliasesImpl → RemoteAliasesRegistryImpl →
      RemoteAliasesImpl × RemoteAliasesRegistryImpl × Except DomainError α}
    (hf : KeepsNodup f) : (w.call i f).Inv := by
  unfold Workspace.call
  split
  · rename_i ra hra
    obtain ⟨h₁, h₂⟩ := hf ra w.registry (h.handles i ra hra) h.file
    exact h.setHandle h₁ h₂
  · exact h

theorem inv_init : init.Inv :=
  ⟨fun c hc => by cases hc; exact DatasetConfig.aliasesNodup_default, fun _ _ h => nomatch h⟩

theorem inv_step (h : w.Inv) : ∀ c, (w.step c).Inv
  | .getRemoteAliases _ => by
    unfold step RemoteAliasesRegistryImpl.getRemoteAliases
    cases hc : w.registry.getConfig with
    | ok c => exact h.setHandle (h.file c hc) h.file
    | error => exact h
  | .add i remoteRef kind io => h.call i (RemoteAliasesImpl.add_keepsNodup remoteRef kind io)
  | .delete i remoteRef kind io => h.call i (RemoteAliasesImpl.delete_keepsNodup remoteRef kind io)
  | .clear i kind io => h.call i (RemoteAliasesImpl.clear_keepsNodup kind io)

theorem inv_run (h : w.Inv) (calls : List AliasCall) : (w.run calls).Inv := by
  induction calls generalizing w with
  | nil => exact h
  | cons c calls ih => exact ih (inv_step h c)

/-- Handle `i`, if open, holds the config the file holds. -/
def InSync (w : Workspace) (i : Nat) : Prop :=
  ∀ ra, w.handles i = some ra → w.registry.getConfig = .ok ra.config

theorem InSync.call {α : Type} {i : Nat} (h : w.InSync i)
    {f : RemoteAliasesImpl → RemoteAliasesRegistryImpl →
      RemoteAliasesImpl × RemoteAliasesRegistryImpl × Except DomainError α}
    (hf : KeepsSync f) : (w.call i f).InSync i := by
  unfold Workspace.call
  split
  · rename_i ra hra
    intro ra' hra'
    change Function.update w.handles i (some (f ra w.registry).1) i = some ra' at hra'
    rw [Function.update_same] at hra'
    cases hra'
    exact hf ra w.registry (h ra hra)
  · exact h

private theorem isOk_eq_true {io : Except DomainError Unit} (h : io.isOk = true) : io = .ok () := by
  cases io with
  | error => cases h
  | ok => rfl

theorem InSync.step {i : Nat} (h : w.InSync i) {c : AliasCall} (hc : c.handle = i)
    (hw : c.writeSucceeds = true) : (w.step c).InSync i := by
  cases c with
  | getRemoteAliases j =>
    cases hc
    unfold Workspace.step RemoteAliasesRegistryImpl.getRemoteAliases
    cases hc : w.registry.getConfig with
    | ok c =>
      intro ra hra
      change Function.update w.handles j (some ⟨c⟩) j = some ra at hra
      rw [Function.update_same] at hra
      cases hra
      exact hc
    | error => exact h
  | add j remoteRef kind io =>
    cases hc
    exact h.call (RemoteAliasesImpl.add_keepsSync remoteRef kind (isOk_eq_true hw))
  | delete j remoteRef kind io =>
    cases hc
    exact h.call (RemoteAliasesImpl.delete_keepsSync remoteRef kind (isOk_eq_true hw))
  | clear j kind io =>
    cases hc
    exact h.call (RemoteAliasesImpl.clear_keepsSync kind (isOk_eq_true hw))

/-- With every call on one handle and every write succeeding, the handle always holds what the
file holds: each change is written whole, and a failed write or another handle's write are the
only ways the two part. -/
theorem single_handle_stays_in_sync {i : Nat} (h : w.InSync i) (calls : List AliasCall)
    (hcalls : ∀ c ∈ calls, c.handle = i ∧ c.writeSucceeds = true) : (w.run calls).InSync i := by
  induction calls generalizing w with
  | nil => exact h
  | cons c calls ih =>
    obtain ⟨hc, hw⟩ := hcalls c (List.mem_cons_self _ _)
    exact ih (h.step hc hw) fun c' hc' => hcalls c' (List.mem_cons_of_mem _ hc')

/-- A handle opened on a dataset with no config file, an alias added and then deleted through it
with working writes: the handle holds what the file holds. -/
theorem add_then_delete_stays_in_sync :
    init.InSync 0 ∧
      (∀ c ∈ [AliasCall.getRemoteAliases 0, .add 0 "origin" .pull (.ok ()),
        .delete 0 "origin" .pull (.ok ())], c.handle = 0 ∧ c.writeSucceeds = true) ∧
      (init.run [.getRemoteAliases 0, .add 0 "origin" .pull (.ok ()),
        .delete 0 "origin" .pull (.ok ())]).InSync 0 :=
  have h : init.InSync 0 := fun _ h => nomatch h
  have hcalls : ∀ c ∈ [AliasCall.getRemoteAliases 0, .add 0 "origin" .pull (.ok ()),
      .delete 0 "origin" .pull (.ok ())], c.handle = 0 ∧ c.writeSucceeds = true := by decide
  ⟨h, hcalls, single_handle_stays_in_sync h _ hcalls⟩

end Workspace

/-- On every handle a run of calls reaches, each alias list is without repeats, and `add`,
`delete` and `clear` act on one kind's list as set operations, answering with the write's
result whenever they write. -/
theorem alias_calls_act_as_set_operations (calls : List AliasCall) (i : Nat)
    (ra : RemoteAliasesImpl) (h : (Workspace.init.run calls).handles i = some ra) :
    let reg := (Workspace.init.run calls).registry
    (∀ kind, (ra.getByKind kind).Nodup) ∧
    (∀ remoteRef kind io,
      (ra.add reg remoteRef kind io).2.2 =
          (if ra.contains remoteRef kind then .ok false else io.map fun () => true) ∧
        (ra.add reg remoteRef kind io).1.contains remoteRef kind = true ∧
        ∀ kind', kind' ≠ kind →
          (ra.add reg remoteRef kind io).1.getByKind kind' = ra.getByKind kind') ∧
    (∀ remoteRef kind io,
      (ra.delete reg remoteRef kind io).2.2 =
          (if ra.contains remoteRef kind then io.map fun () => true else .ok false) ∧
        (ra.delete reg remoteRef kind io).1.contains remoteRef kind = false ∧
        ∀ kind', kind' ≠ kind →
          (ra.delete reg remoteRef kind io).1.getByKind kind' = ra.getByKind kind') ∧
    ∀ kind io,
      (ra.clear reg kind io).2.2 = (if ra.isEmpty kind then .ok (ra.getByKind kind).length
          else io.map fun () => (ra.getByKind kind).length) ∧
        (ra.clear reg kind io).1.isEmpty kind = true ∧
        ∀ kind', kind' ≠ kind → (ra.clear reg kind io).1.getByKind kind' = ra.getByKind kind' := by
  have hnd := (Workspace.inv_run Workspace.inv_init calls).handles i ra h
  exact ⟨hnd, fun remoteRef kind io => RemoteAliasesImpl.add_spec _ remoteRef kind io,
    fun remoteRef kind io => RemoteAliasesImpl.delete_spec _ remoteRef kind io (hnd kind),
    fun kind io => RemoteAliasesImpl.clear_spec _ kind io⟩

/-- The handle opened on a dataset with no config file holds no aliases. -/
theorem alias_calls_on_fresh_handle :
    (Workspace.init.run [.getRemoteAliases 0]).handles 0 = some ⟨.default⟩ ∧
      ∀ kind, (RemoteAliasesImpl.getByKind ⟨.default⟩ kind).Nodup :=
  ⟨rfl, (alias_calls_act_as_set_operations [.getRemoteAliases 0] 0 _ rfl).1⟩

/-- The answer of a file system that is full, once `File::create` has made the file. -/
def diskFull : DomainError := .writeFailed "No space left on device"

/-- On a fresh handle, an `add` of a name it lacks whose write fails answers `Err`, not
`Ok(true)`. -/
theorem add_with_failed_write_is_not_ok_true :
    (Workspace.init.run [.getRemoteAliases 0]).handles 0 = some ⟨.default⟩ ∧
      RemoteAliasesImpl.contains ⟨.default⟩ "origin" .pull = false ∧
      (RemoteAliasesImpl.add ⟨.default⟩ Workspace.init.registry "origin" .pull
        (.error diskFull)).2.2 = .error diskFull :=
  ⟨rfl, rfl, rfl⟩

/-- A handle opened on a dataset with no config file, then an `add` whose write fails. -/
def failedAddRun : Workspace :=
  Workspace.init.run [.getRemoteAliases 0, .add 0 "origin" .pull (.error diskFull)]

/-- An `add` whose write fails answers `Err` but keeps the new alias in the handle's memory, and
the retried `add` with a working file system answers `Ok(false)` and writes nothing; the file is
left cut short, so the next `get_remote_aliases` on the dataset panics. -/
theorem failed_add_is_kept_in_memory :
    (RemoteAliasesImpl.add ⟨.default⟩ Workspace.init.registry "origin" .pull
        (.error diskFull)).2.2 = .error diskFull ∧
      failedAddRun.handles 0 = some ⟨⟨["origin"], []⟩⟩ ∧
      (RemoteAliasesImpl.add ⟨⟨["origin"], []⟩⟩ failedAddRun.registry "origin" .pull
        (.ok ())).2.2 = .ok false ∧
      (RemoteAliasesImpl.add ⟨⟨["origin"], []⟩⟩ failedAddRun.registry "origin" .pull
        (.ok ())).2.1 = failedAddRun.registry ∧
      failedAddRun.registry.getRemoteAliases = .error "Failed to deserialize the DatasetConfig" :=
  ⟨rfl, rfl, rfl, rfl, rfl⟩

end KamuCli.Infra
