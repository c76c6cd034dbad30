import RoadFlow.Cache.Store
import RoadFlow.Proofs.Cache.Archive
import RoadFlow.Proofs.Cache.Publish
import RoadFlow.Proofs.Cluster.Clustering
import RoadFlow.Proofs.Matrix.Assembly
import RoadFlow.Proofs.Route.Links

/-!
# Matrices from a store

Requests are answered one after the other from one directory. Files that requests find there were
written for earlier requests, so that each gets the matrix assembled for a request with its key: for
itself, or for an earlier one (`cache_transparent`).
-/

namespace RoadFlow.Cache

open Storage (FileTree Path Location)

/-- What a matrix is wanted for. -/
structure Request where
  net : Network
  clusters : Clustering
  policy : Policy

/-- The matrix that a request got, or why it got none. -/
def Retrieval.told (r : Retrieval) : Except MatrixFault AssignmentMatrix := r.result.map (·.matrix)

namespace Request

def key (q : Request) : Key := .ofNetwork q.net q.clusters.clusterCount q.policy

/-- Where the matrix of a request is kept. -/
def location (directory : Path) (q : Request) : Location :=
  (filePath directory q.net.name q.clusters.clusterCount).location

/-- What an assembly gives for a request. -/
def assembled (q : Request) : Except MatrixFault AssignmentMatrix :=
  (Assembly.ofPolicy q.net q.clusters q.policy).map (·.matrix)

/-- A request for a network that was built, all sizes within the fields of an archive. -/
structure Fits (q : Request) : Prop where
  built : q.net.Built
  name : (Text.Utf8.encode q.net.name).length < 256 ^ 8
  edges : q.net.edgeCount ≤ Id.limit
  clusters : q.clusters.clusterCount < Id.limit
  marks : ∀ {m}, q.assembled = .ok m → m.markCount < Id.limit

theorem assembled_eq_ok {q : Request} {m : AssignmentMatrix} :
    q.assembled = .ok m ↔
      ∃ a, Assembly.ofPolicy q.net q.clusters q.policy = .ok a ∧ a.matrix = m := by
  rw [assembled]
  cases Assembly.ofPolicy q.net q.clusters q.policy with
  | error fault => simp [Except.map]
  | ok a => simp [Except.map]

theorem assembled_valid {q : Request} {m : AssignmentMatrix} (h : q.assembled = .ok m) :
    m.edgeCount = q.net.edgeCount ∧ m.clusterCount = q.clusters.clusterCount ∧ m.Valid := by
  obtain ⟨a, assembly, rfl⟩ := assembled_eq_ok.mp h
  exact Assembly.ofEngine_valid assembly

theorem Fits.storable {q : Request} (fits : q.Fits) {m : AssignmentMatrix}
    (h : q.assembled = .ok m) : Archive.Storable q.key.network m := by
  obtain ⟨edges, clusters, valid⟩ := assembled_valid h
  have edgeLimit : m.edgeCount ≤ Id.limit := edges ▸ fits.edges
  refine ⟨fits.name, Nat.lt_of_le_of_lt edgeLimit (by decide), fun mem he => ?_, ?_, fits.marks h⟩
  · exact Nat.lt_of_lt_of_le (valid.inside mem he) edgeLimit
  · rw [clusters]
    exact fits.clusters

end Request

/-! ## One request -/

variable {files : FileTree} {directory : Path} {q : Request} {r : Retrieval}

/-- The ways in which a request is answered: from a stored file, with the fault of its assembly,
with a matrix that is assembled and stored, or with a fault of the file system. -/
inductive Answered (files : FileTree) (directory : Path) (q : Request) (r : Retrieval) : Prop
  | hit {bytes : Bytes} {m : AssignmentMatrix}
      (held : files.file? (q.location directory) = some bytes) (found : read q.key bytes = .ok m)
      (same : r.files = files) (told : r.told = .ok m)
  | refused {fault : MatrixFault} (failed : q.assembled = .error fault) (same : r.files = files)
      (told : r.told = .error fault)
  | stored {m : AssignmentMatrix} {bytes : Bytes} {temporary : Location}
      (made : q.assembled = .ok m) (written : write q.key m = .ok bytes)
      (changed : ∀ l, r.files.file? l =
        if l = q.location directory then some bytes
        else if l = temporary then none
        else files.file? l)
      (told : r.told = .ok m)
  | unstored {fault : Storage.Fault} (told : r.told = .error (.storage fault))

theorem save_cases {path : Path} {m : AssignmentMatrix} {key : Key} {bytes : Bytes}
    (written : write key m = .ok bytes) :
    ((save files path m key).2 = .ok () ∧ ∃ temporary, ∀ l, (save files path m key).1.file? l =
      if l = path.location then some bytes else if l = temporary then none else files.file? l) ∨
    ∃ fault, (save files path m key).2 = .error (.storage fault) := by
  rw [save, written]
  cases published : publish files path bytes with
  | mk files' result =>
    simp only [published]
    cases result with
    | ok _ => exact .inl ⟨rfl, publish_ok published⟩
    | error fault => exact .inr ⟨fault, rfl⟩

theorem build_answered (outcome : Outcome) :
    Answered files directory q
      (build files (filePath directory q.net.name q.clusters.clusterCount) outcome q.net q.clusters
        q.policy) := by
  rw [build]
  cases made : Assembly.ofPolicy q.net q.clusters q.policy with
  | error fault =>
    refine .refused ?_ rfl rfl
    rw [Request.assembled, made]
    rfl
  | ok a =>
    have assembled : q.assembled = .ok a.matrix := Request.assembled_eq_ok.mpr ⟨a, made, rfl⟩
    obtain ⟨edges, clusters, -⟩ := Request.assembled_valid assembled
    have written : write q.key a.matrix = .ok (Archive.ofMatrix q.key a.matrix).encode :=
      write_eq_ok.mpr ⟨⟨edges, clusters⟩, rfl⟩
    rcases @save_cases files (filePath directory q.net.name q.clusters.clusterCount) _ _ _ written
      with ⟨saved, temporary, changed⟩ | ⟨fault, failed⟩
    · refine .stored assembled written changed ?_
      show ((save _ _ _ q.key).2.map _).map _ = _
      rw [saved]
      rfl
    · refine @Answered.unstored _ _ _ _ fault ?_
      show ((save _ _ _ q.key).2.map _).map _ = _
      rw [failed]
      rfl

theorem obtain_answered (files : FileTree) (directory : Path) (q : Request) :
    Answered files directory q (obtain files directory q.net q.clusters q.policy) := by
  rw [obtain]
  split
  · split
    · rename_i m loaded
      obtain ⟨bytes, taken, found⟩ := bind_eq_ok.mp loaded
      exact .hit (FileTree.read_ok (mapError_eq_ok.mp taken)) found rfl rfl
    · exact build_answered _
  · exact build_answered _

/-! ## Requests in turn -/

/-- What comes of some requests, each on the files that the one before it left. -/
def serve (directory : Path) : FileTree → List Request → List Retrieval
  | _, [] => []
  | files, q :: rest =>
    let r := obtain files directory q.net q.clusters q.policy
    r :: serve directory r.files rest

/-- At some locations there are no files but those written for earlier requests. -/
def Stocked (places : Location → Prop) (past : List Request) (files : FileTree) : Prop :=
  ∀ l bytes, places l → files.file? l = some bytes →
    ∃ p ∈ past, ∃ m, p.assembled = .ok m ∧ write p.key m = .ok bytes

variable {places : Location → Prop} {past : List Request}

theorem Stocked.answer (stocked : Stocked places past files)
    (answered : Answered files directory q r) (kept : ∀ fault, r.told ≠ .error (.storage fault)) :
    Stocked places (past ++ [q]) r.files := by
  intro l bytes place found
  have earlier (held : files.file? l = some bytes) :
      ∃ p ∈ past ++ [q], ∃ m, p.assembled = .ok m ∧ write p.key m = .ok bytes := by
    obtain ⟨p, mem, known⟩ := stocked _ _ place held
    exact ⟨p, List.mem_append_left _ mem, known⟩
  cases answered with
  | hit held read same told =>
    rw [same] at found
    exact earlier found
  | refused failed same told =>
    rw [same] at found
    exact earlier found
  | @stored m bytes' temporary made written changed told =>
    rw [changed] at found
    split at found
    · cases found
      exact ⟨q, List.mem_append_right _ (by simp), m, made, written⟩
    split at found
    · cases found
    · exact earlier found
  | unstored told => exact absurd told (kept _)

/-- A request gets what was assembled for itself, or for an earlier request with its key. -/
theorem Stocked.told (stocked : Stocked places past files) (fits : ∀ p ∈ past, p.Fits)
    (answered : Answered files directory q r) (place : places (q.location directory))
    (kept : ∀ fault, r.told ≠ .error (.storage fault)) :
    ∃ p ∈ past ++ [q], p.key = q.key ∧ r.told = p.assembled := by
  cases answered with
  | hit held found same told =>
    obtain ⟨p, mem, m, made, written⟩ := stocked _ _ place held
    have valid := (Request.assembled_valid made).2.2
    have storable := (fits p mem).storable made
    have agrees : p.key = q.key := by
      by_contra other
      obtain ⟨reason, stale⟩ := read_write_other written valid storable other
      rw [stale] at found
      cases found
    refine ⟨p, List.mem_append_left _ mem, agrees, ?_⟩
    rw [← agrees, read_write written valid storable] at found
    rw [told, made, found]
  | refused failed same told => exact ⟨q, by simp, rfl, by rw [told, failed]⟩
  | stored made written changed told => exact ⟨q, by simp, rfl, by rw [told, made]⟩
  | unstored told => exact absurd told (kept _)

theorem serve_told {requests before after : List Request} (stocked : Stocked places past files)
    (fits : ∀ p ∈ past ++ requests, p.Fits)
    (inside : ∀ p ∈ requests, places (p.location directory))
    (kept : ∀ r ∈ serve directory files requests, ∀ fault, r.told ≠ .error (.storage fault))
    (asked : requests = before ++ q :: after) :
    ∃ r, (serve directory files requests)[before.length]? = some r ∧
      ∃ p ∈ past ++ before ++ [q], p.key = q.key ∧ r.told = p.assembled := by
  induction before generalizing files past requests with
  | nil =>
    subst asked
    refine ⟨_, rfl, ?_⟩
    rw [List.append_nil]
    exact stocked.told (fun p mem => fits p (List.mem_append_left _ mem))
      (obtain_answered files directory q) (inside q (by simp)) (kept _ (by simp [serve]))
  | cons first before ih =>
    subst asked
    have stocked' := stocked.answer (obtain_answered files directory first)
      (kept _ (by simp [serve]))
    obtain ⟨r, answer, p, mem, told⟩ := ih stocked' (by simpa using fits)
      (fun p mem => inside p (List.mem_cons_of_mem _ mem))
      (fun r mem => kept r (List.mem_cons_of_mem _ mem)) rfl
    refine ⟨r, answer, p, ?_, told⟩
    simpa using mem

/-- Requests with one key, for the same centroids, are assembled alike. -/
theorem Request.assembled_congr {p q : Request} (left : p.Fits) (right : q.Fits)
    (same : p.net.SameLinks q.net) (key : p.key = q.key)
    (centers : p.clusters.SameCenters q.clusters) : p.assembled = q.assembled := by
  have policy : p.policy = q.policy := congrArg Key.policy key
  rw [Request.assembled, Request.assembled, policy,
    Assembly.ofPolicy_congr q.policy same left.built.sound right.built.sound centers]

/-- On a directory that holds no file for any of them, every request gets the matrix, or the fault,
of an assembly for its key: of its own as long as earlier requests with its key were for the same
centroids. -/
theorem cache_transparent {requests : List Request}
    (empty : ∀ q ∈ requests, files.file? (q.location directory) = none)
    (fits : ∀ q ∈ requests, q.Fits)
    (identified : ∀ p ∈ requests, ∀ q ∈ requests, p.net.name = q.net.name →
      p.net.fingerprint = q.net.fingerprint → p.net.SameLinks q.net)
    (kept : ∀ r ∈ serve directory files requests, ∀ fault, r.told ≠ .error (.storage fault))
    {before after : List Request} (asked : requests = before ++ q :: after) :
    ∃ r, (serve directory files requests)[before.length]? = some r ∧
      (∃ p ∈ before ++ [q], p.key = q.key ∧ r.told = p.assembled) ∧
      ((∀ p ∈ before, p.key = q.key → p.clusters.SameCenters q.clusters) →
        r.told = q.assembled) := by
  let places (l : Location) : Prop := ∃ q ∈ requests, l = q.location directory
  have stocked : Stocked places [] files := by
    rintro l bytes ⟨q, mem, rfl⟩ found
    rw [empty q mem] at found
    cases found
  obtain ⟨r, answer, p, mem, key, told⟩ := serve_told stocked fits
    (fun p mem => ⟨p, mem, rfl⟩) kept asked
  rw [List.nil_append] at mem
  have among {p : Request} (h : p ∈ before ++ [q]) : p ∈ requests := by
    rw [asked]
    simp only [List.mem_append, List.mem_cons] at h ⊢
    tauto
  have own : q ∈ before ++ [q] := by simp
  refine ⟨r, answer, ⟨p, mem, key, told⟩, fun centers => ?_⟩
  rcases List.mem_append.mp mem with earlier | last
  · have links := identified p (among mem) q (among own) (congrArg Key.network key)
      (congrArg Key.fingerprint key)
    rw [told]
    exact Request.assembled_congr (fits p (among mem)) (fits q (among own)) links key
      (centers p earlier key)
  · obtain rfl := List.mem_singleton.mp last
    exact told

/-- A directory below the root. -/
def sampleDirectory : Path := ⟨[], ["cache"]⟩

namespace Request

def sample : Request := ⟨.sample, .sample, .length⟩

theorem sample_fits : sample.Fits where
  built := Network.sample_built
  name := by decide
  edges := by decide
  clusters := by decide
  marks := by
    intro m made
    have few : (sample.assembled.toOption.all fun m => m.markCount < Id.limit) = true := by
      decide +kernel
    rw [made] at few
    simpa [Except.toOption] using few

end Request

/-- A network with the name of the sample, but only two of its edges. -/
def alteredNetwork : Network :=
  (Builder.filled [⟨"a", ⟨0, 0⟩⟩, ⟨"b", ⟨1, 0⟩⟩, ⟨"c", ⟨0, 1⟩⟩]
    [⟨"ba", ⟨1⟩, ⟨0⟩, 0⟩, ⟨"ab", ⟨0⟩, ⟨1⟩, 1⟩]).build "sample"

namespace Request

def altered : Request := ⟨alteredNetwork, .sample, .length⟩

def byHops : Request := ⟨.sample, .sample, .hops⟩

def coarse : Request := ⟨.sample, ⟨#[⟨0⟩, ⟨0⟩, ⟨1⟩], #[⟨0⟩, ⟨2⟩], #[#[⟨0⟩, ⟨1⟩], #[⟨2⟩]]⟩, .length⟩

/-- All but one have the same file, with three keys. -/
def mixed : List Request := [sample, altered, byHops, byHops, sample, coarse, sample]

theorem fits_mixed : ∀ q ∈ mixed, q.Fits := by
  have sizes : ∀ q ∈ mixed, (Text.Utf8.encode q.net.name).length < 256 ^ 8 ∧
      q.net.edgeCount ≤ Id.limit ∧ q.clusters.clusterCount < Id.limit ∧
      (q.assembled.toOption.all fun m => m.markCount < Id.limit) = true := by
    decide +kernel
  have alteredBuilt : alteredNetwork.Built :=
    Network.built_filled ⟨by decide, by decide, by decide, by decide, by decide⟩ "sample"
  intro q asked
  obtain ⟨name, edges, clusters, few⟩ := sizes q asked
  refine ⟨?_, name, edges, clusters, fun made => ?_⟩
  · simp only [mixed, List.mem_cons, List.not_mem_nil, or_false] at asked
    rcases asked with rfl | rfl | rfl | rfl | rfl | rfl | rfl
    case inr.inl => exact alteredBuilt
    all_goals exact Network.sample_built
  · rw [made] at few
    simpa [Except.toOption] using few

/-- The two networks of one name have two fingerprints. -/
theorem identified_mixed : ∀ p ∈ mixed, ∀ q ∈ mixed, p.net.name = q.net.name →
    p.net.fingerprint = q.net.fingerprint → p.net.SameLinks q.net := by
  have apart : ∀ p ∈ mixed, ∀ q ∈ mixed, p.net.fingerprint = q.net.fingerprint →
      p.net.nodes.size = q.net.nodes.size ∧
        p.net.edges.toList.map Edge.link = q.net.edges.toList.map Edge.link := by
    decide +kernel
  intro p hp q hq _ same
  obtain ⟨nodes, links⟩ := apart p hp q hq same
  exact ⟨nodes, links⟩

end Request

/-- A file of another network or policy is written anew, and that of another number of clusters is
left alone. Every request gets its own matrix. -/
theorem cache_transparent_sample :
    (serve sampleDirectory .empty Request.mixed).map
        (fun r => r.result.toOption.map (·.outcome.name)) =
      [some "miss", some "rebuilt", some "rebuilt", some "hit", some "rebuilt", some "miss",
        some "hit"] ∧
    Request.altered.assembled ≠ Request.sample.assembled ∧
    (∃ r, (serve sampleDirectory .empty Request.mixed)[1]? = some r ∧
      r.told = Request.altered.assembled) ∧
    ∃ r, (serve sampleDirectory .empty Request.mixed)[6]? = some r ∧
      r.told = Request.sample.assembled := by
  have empty : ∀ q ∈ Request.mixed, FileTree.empty.file? (q.location sampleDirectory) = none := by
    decide +kernel
  have kept : ∀ r ∈ serve sampleDirectory .empty Request.mixed, ∀ fault,
      r.told ≠ .error (.storage fault) := by
    intro r h fault failed
    have fine : ((serve sampleDirectory .empty Request.mixed).all (·.told.isOk)) = true := by
      decide +kernel
    have ok := List.all_eq_true.mp fine r h
    rw [failed] at ok
    cases ok
  have second : Request.mixed =
      [.sample] ++ Request.altered :: [.byHops, .byHops, .sample, .coarse, .sample] := rfl
  have last : Request.mixed =
      [.sample, .altered, .byHops, .byHops, .sample, .coarse] ++ Request.sample :: [] := rfl
  obtain ⟨r, answer, -, own⟩ := cache_transparent empty Request.fits_mixed
    Request.identified_mixed kept second
  obtain ⟨r', answer', -, own'⟩ := cache_transparent empty Request.fits_mixed
    Request.identified_mixed kept last
  refine ⟨by decide +kernel, by decide +kernel, ⟨r, answer, own ?_⟩, r', answer', own' ?_⟩
  · intro p earlier _
    rw [List.mem_singleton.mp earlier]
    exact ⟨rfl, rfl⟩
  · intro p earlier key
    simp only [List.mem_cons, List.not_mem_nil, or_false] at earlier
    rcases earlier with rfl | rfl | rfl | rfl | rfl | rfl
    case inr.inr.inr.inr.inr => exact absurd (congrArg Key.clusterCount key) (by decide)
    all_goals exact ⟨rfl, rfl⟩

/-- The sample with two centroids changed over. -/
def Request.swapped : Request :=
  ⟨.sample, ⟨#[⟨0⟩, ⟨1⟩, ⟨2⟩], #[⟨1⟩, ⟨0⟩, ⟨2⟩], #[#[⟨0⟩], #[⟨1⟩], #[⟨2⟩]]⟩, .length⟩

theorem Request.swapped_built : swapped.clusters.Built Network.sample :=
  @Clustering.Built.ofCentroids _ _ [0, 1, 2] [⟨1⟩, ⟨0⟩, ⟨2⟩] (by decide) rfl

/-- Centroids are no part of a key: a matrix assembled for some is handed out for others, though
theirs would be another one. -/
theorem cache_ignores_centroids :
    Request.swapped.clusters.Built Network.sample ∧
      Request.sample.assembled.isOk = true ∧
      (serve sampleDirectory .empty [.sample, .swapped]).map (·.told) =
        [Request.sample.assembled, Request.sample.assembled] ∧
      Request.swapped.assembled ≠ Request.sample.assembled :=
  ⟨Request.swapped_built, by decide +kernel, by decide +kernel, by decide +kernel⟩

end RoadFlow.Cache
