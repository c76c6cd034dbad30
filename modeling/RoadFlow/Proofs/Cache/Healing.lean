import RoadFlow.Proofs.Cache.Loading
import RoadFlow.Proofs.Cache.Store

/-!
# Spoiled files

Whatever stands at the path of a request, the request is answered: from the file when it can be
loaded, and otherwise with a new matrix, which then stands there and is found when the request is
made again (`obtain_heals`).
-/

namespace RoadFlow.Cache

open Storage (FileTree Path)

variable {files : FileTree} {directory place : Path} {q : Request} {key : Key} {m : AssignmentMatrix}

theorem isPresent_of_read {bytes : Bytes} (held : files.read place = .ok bytes) :
    files.isPresent place = true := by
  rw [FileTree.isPresent]
  unfold FileTree.read at held
  cases found : files.find place with
  | ok entry => rfl
  | error fault => simp [found] at held

theorem isPresent_of_load (loaded : load files place key = .ok m) : files.isPresent place = true := by
  obtain ⟨bytes, taken, -⟩ := bind_eq_ok.mp loaded
  exact isPresent_of_read (mapError_eq_ok.mp taken)

namespace Request

/-- Where the file of a request is. -/
def path (directory : Path) (q : Request) : Path :=
  filePath directory q.net.name q.clusters.clusterCount

/-- What comes of a request. -/
def retrieval (files : FileTree) (directory : Path) (q : Request) : Retrieval :=
  obtain files directory q.net q.clusters q.policy

theorem retrieval_eq :
    q.retrieval files directory =
      if files.isPresent (q.path directory) then
        match load files (q.path directory) q.key with
        | .ok m => ⟨files, #[], .ok ⟨m, .hit, none⟩⟩
        | .error fault =>
          build files (q.path directory) (.rebuilt fault) q.net q.clusters q.policy
      else build files (q.path directory) .miss q.net q.clusters q.policy := by
  rw [retrieval, obtain]
  rfl

theorem retrieval_hit (loaded : load files (q.path directory) q.key = .ok m) :
    q.retrieval files directory = ⟨files, #[], .ok ⟨m, .hit, none⟩⟩ := by
  rw [retrieval_eq, if_pos (isPresent_of_load loaded), loaded]

/-- A request for clusters of a network that was built can be assembled. -/
theorem assembles (built : q.net.Built) (clustered : q.clusters.Built q.net) :
    ∃ a, Assembly.ofPolicy q.net q.clusters q.policy = .ok a := by
  obtain ⟨tree, found⟩ := Assembly.exists_found_policy built.sound clustered.sound q.policy
  obtain ⟨a, assembled, -⟩ := Assembly.ofEngine_ok found clustered.sound
  exact ⟨a, assembled⟩

/-- Where files can be published, a new matrix is told of and stands at the path. -/
theorem build_ok {a : Assembly} (outcome : Outcome)
    (assembled : Assembly.ofPolicy q.net q.clusters q.policy = .ok a)
    (kept : ∀ bytes, (publish files place bytes).2 = .ok ()) :
    (build files place outcome q.net q.clusters q.policy).result =
        .ok ⟨a.matrix, outcome, some a.survey⟩ ∧
      ∃ bytes, write q.key a.matrix = .ok bytes ∧
        (build files place outcome q.net q.clusters q.policy).files.read place = .ok bytes := by
  obtain ⟨edges, clusters, -⟩ := assembled_valid (assembled_eq_ok.mpr ⟨a, assembled, rfl⟩)
  have written : write q.key a.matrix = .ok (Archive.ofMatrix q.key a.matrix).encode :=
    write_eq_ok.mpr ⟨⟨edges, clusters⟩, rfl⟩
  obtain ⟨files', saved⟩ : ∃ files', save files place a.matrix q.key = (files', .ok ()) :=
    ⟨_, save_eq_ok.mpr ⟨_, written, Prod.ext rfl (kept _)⟩⟩
  have same : build files place outcome q.net q.clusters q.policy =
      ⟨files', a.warnings, .ok ⟨a.matrix, outcome, some a.survey⟩⟩ := by
    rw [build, assembled]
    show (⟨(save files place a.matrix q.key).1, _, (save files place a.matrix q.key).2.map _⟩ :
      Retrieval) = _
    rw [saved]
    rfl
  rw [same]
  exact ⟨rfl, _, written, read_save written saved⟩

/-- A request is answered as the file at its path deserves: with what is loaded, or with a new
matrix. -/
structure Answer (files : FileTree) (directory : Path) (q : Request) (c : Cached) : Prop where
  hit : c.outcome = .hit ↔ ∃ m, load files (q.path directory) q.key = .ok m
  loaded : c.outcome = .hit → load files (q.path directory) q.key = .ok c.matrix
  miss : c.outcome = .miss ↔ files.isPresent (q.path directory) = false
  rebuilt : ∀ fault, c.outcome = .rebuilt fault ↔
    files.isPresent (q.path directory) = true ∧ load files (q.path directory) q.key = .error fault
  surveyed : c.survey.isSome ↔ c.outcome ≠ .hit
  assembled : ∀ survey, c.survey = some survey → ∃ a,
    Assembly.ofPolicy q.net q.clusters q.policy = .ok a ∧ a.matrix = c.matrix ∧ a.survey = survey

theorem retrieval_ok {a : Assembly} (assembled : Assembly.ofPolicy q.net q.clusters q.policy = .ok a)
    (kept : ∀ bytes, (publish files (q.path directory) bytes).2 = .ok ()) :
    ∃ c, (q.retrieval files directory).result = .ok c ∧ q.Answer files directory c ∧
      (c.survey.isSome → ∃ bytes, write q.key c.matrix = .ok bytes ∧
        (q.retrieval files directory).files.read (q.path directory) = .ok bytes) := by
  rw [retrieval_eq]
  by_cases present : files.isPresent (q.path directory) = true
  · rw [if_pos present]
    cases loaded : load files (q.path directory) q.key with
    | ok m =>
      refine ⟨_, rfl, ?_, by simp⟩
      constructor <;> simp [loaded, present]
    | error fault =>
      obtain ⟨told, stored⟩ := build_ok (.rebuilt fault) assembled kept
      refine ⟨_, told, ?_, fun _ => stored⟩
      constructor <;> simp [loaded, present, assembled]
  · have refused (m : AssignmentMatrix) : load files (q.path directory) q.key ≠ .ok m :=
      fun loaded => present (isPresent_of_load loaded)
    obtain ⟨told, stored⟩ := build_ok .miss assembled kept
    rw [if_neg present]
    refine ⟨_, told, ?_, fun _ => stored⟩
    constructor <;> simp [refused, present, assembled]

end Request

/-- Whatever stands at the path of a request, where files can be published the request is answered
as the file deserves, and the same request that follows loads an equal matrix. -/
theorem obtain_heals (built : q.net.Built) (clustered : q.clusters.Built q.net)
    (kept : ∀ bytes, (publish files (q.path directory) bytes).2 = .ok ()) :
    ∃ c, (q.retrieval files directory).result = .ok c ∧ q.Answer files directory c ∧
      (q.Fits → (q.retrieval (q.retrieval files directory).files directory).result =
        .ok ⟨c.matrix, .hit, none⟩) := by
  obtain ⟨a, assembled⟩ := q.assembles built clustered
  obtain ⟨c, told, answer, stored⟩ := Request.retrieval_ok assembled kept
  refine ⟨c, told, answer, fun fits => ?_⟩
  suffices load (q.retrieval files directory).files (q.path directory) q.key = .ok c.matrix by
    rw [Request.retrieval_hit this]
  by_cases hit : c.outcome = .hit
  · have loaded := answer.loaded hit
    rw [Request.retrieval_hit loaded]
    exact loaded
  · obtain ⟨survey, surveyed⟩ := Option.isSome_iff_exists.mp (answer.surveyed.mpr hit)
    obtain ⟨bytes, written, held⟩ := stored (surveyed ▸ rfl)
    obtain ⟨b, again, same, -⟩ := answer.assembled survey surveyed
    have made : q.assembled = .ok c.matrix := Request.assembled_eq_ok.mpr ⟨b, again, same⟩
    rw [load_held held]
    exact read_write written (Request.assembled_valid made).2.2 (fits.storable made)

/-- A file of three bytes where the matrix of the sample request is kept. -/
def spoiledSample : FileTree :=
  ⟨[("cache", .directory [(fileName "sample" 3, .file [1, 2, 3])])]⟩

theorem obtain_heals_sample :
    ∃ c, (Request.sample.retrieval spoiledSample sampleDirectory).result = .ok c ∧
      Request.sample.Answer spoiledSample sampleDirectory c ∧
      (Request.sample.retrieval (Request.sample.retrieval spoiledSample sampleDirectory).files
        sampleDirectory).result = .ok ⟨c.matrix, .hit, none⟩ := by
  have kept (bytes : Bytes) :
      (publish spoiledSample (Request.sample.path sampleDirectory) bytes).2 = .ok () := by
    with_unfolding_all rfl
  obtain ⟨c, told, answer, again⟩ :=
    obtain_heals Network.sample_built Clustering.sample_built kept
  exact ⟨c, told, answer, again Request.sample_fits⟩

end RoadFlow.Cache
