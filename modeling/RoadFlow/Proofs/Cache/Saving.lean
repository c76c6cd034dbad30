import RoadFlow.Cache.Store
import RoadFlow.Proofs.Cache.Archive
import RoadFlow.Proofs.Cache.Publish

/-!
# Saved matrices

A file in which a matrix was saved gives it back to the key it was saved for, and to no other, and
nothing at all when it was cut short (`load_saved`).
-/

namespace RoadFlow.Cache

open Storage (FileTree Path)

variable {files files' : FileTree} {path : Path} {key : Key} {m : AssignmentMatrix} {bytes : Bytes}

/-- To load a file is to read its bytes. -/
theorem load_held (held : files.read path = .ok bytes) : load files path key = read key bytes := by
  rw [load, held]
  rfl

theorem save_eq_ok :
    save files path m key = (files', .ok ()) ↔
      ∃ bytes, write key m = .ok bytes ∧ publish files path bytes = (files', .ok ()) := by
  rw [save]
  cases write key m with
  | error fault => simp
  | ok bytes =>
    rcases published : publish files path bytes with ⟨files'', result⟩
    simp only [Except.ok.injEq, exists_eq_left', published, Prod.mk.injEq, mapError_eq_ok]

/-- What is saved is what is written, and is read from its path. -/
theorem read_save (written : write key m = .ok bytes)
    (saved : save files path m key = (files', .ok ())) : files'.read path = .ok bytes := by
  obtain ⟨bytes', written', published⟩ := save_eq_ok.mp saved
  cases written.symm.trans written'
  exact read_publish published

/-- A matrix of the shape of a key can be saved for it. The file gives the matrix back to that key,
is stale for every other one, and is no archive without its end. -/
theorem load_saved (valid : m.Valid) (storable : Archive.Storable key.network m)
    (edges : m.edgeCount = key.edgeCount) (clusters : m.clusterCount = key.clusterCount) :
    ∃ bytes, write key m = .ok bytes ∧
      (∀ {files files' : FileTree} {path : Path},
        save files path m key = (files', .ok ()) → files'.read path = .ok bytes) ∧
      (∀ {files : FileTree} {path : Path}, files.read path = .ok bytes →
        load files path key = .ok m ∧
        ∀ other, other ≠ key → ∃ reason, load files path other = .error (.stale reason)) ∧
      ∀ {front : Bytes}, front <+: bytes → front ≠ bytes →
        ∀ {files : FileTree} {path : Path}, files.read path = .ok front →
        ∀ other, ∃ fault, load files path other = .error (.encoding fault) := by
  have written : write key m = .ok (Archive.ofMatrix key m).encode :=
    write_eq_ok.mpr ⟨⟨edges, clusters⟩, rfl⟩
  refine ⟨_, written, fun saved => read_save written saved, fun held => ⟨?_, ?_⟩, ?_⟩
  · rw [load_held held]
    exact read_write written valid storable
  · intro other different
    rw [load_held held]
    exact read_write_other written valid storable different.symm
  · intro front part short files path held other
    rw [load_held held]
    exact read_write_part written valid storable part short

theorem Archive.sample_storable : Storable "sample" .sample where
  name := by decide
  edges := by decide
  ids := fun mem he => Nat.lt_trans (AssignmentMatrix.sample_valid.inside mem he) (by decide)
  clusters := by decide
  marks := by decide

/-- A key of the shape of the sample matrix. -/
def Key.sample : Key := ⟨"sample", 7, 3, 2, .hops⟩

theorem load_saved_sample :
    ∃ bytes, write .sample .sample = .ok bytes ∧
      ∀ {files : FileTree} {path : Path}, files.read path = .ok bytes →
        load files path .sample = .ok .sample := by
  obtain ⟨bytes, written, -, loaded, -⟩ := @load_saved Key.sample .sample
    AssignmentMatrix.sample_valid Archive.sample_storable rfl rfl
  exact ⟨bytes, written, fun held => (loaded held).1⟩

end RoadFlow.Cache
