import RoadFlow.Proofs.Cluster.Clustering
import RoadFlow.Proofs.Cluster.LabelTable
import RoadFlow.Proofs.Report.Files

/-!
# Labels that a report gives back

A report lists every node of a network once, under the label of its cluster (`mem_clusterLines`).
Read as a table of labels, the list gives back the labels in the order of the nodes, and with them
and its centroids the clustering is built again (`clusters_reread`).
-/

namespace RoadFlow

variable {net : Network}

/-! ## Labels of a clustering -/

namespace Clustering

variable {c : Clustering}

/-- The label of each node in the order of the nodes. -/
def labels (c : Clustering) : List Nat := c.clusterOf.toList.map (·.index)

theorem Built.length_labels (grouped : c.Built net) : c.labels.length = net.nodeCount := by
  rw [labels, List.length_map, Array.length_toList]
  exact grouped.sound.nodes

/-- A clustering groups the nodes by its own labels. -/
theorem Built.grouping (grouped : c.Built net) :
    (∀ l ∈ c.labels, l < Id.limit) ∧
      Grouping.ofLabels net c.labels c.clusterCount = .ok ⟨c.clusterOf, c.members⟩ := by
  obtain ⟨labels, bits, made, -⟩ := grouped.grouped
  obtain ⟨-, -, held, -⟩ := Grouping.ofLabels_ok made
  have own : c.labels = labels := by
    rw [Clustering.labels, held.clusterOf, List.map_map]
    exact List.map_id labels
  rw [own]
  exact ⟨bits, made⟩

theorem Built.holds (grouped : c.Built net) :
    Grouping.Holds c.clusterCount c.labels ⟨c.clusterOf, c.members⟩ :=
  (Grouping.ofLabels_ok grouped.grouping.2).2.2.1

/-- With its own labels and centroids a clustering is built again. -/
theorem Built.rebuilt (grouped : c.Built net) :
    Clustering.ofCentroids net c.labels c.centroids.toList = .ok c := by
  refine Clustering.ofCentroids_eq_ok.mpr ⟨?_, rfl, grouped.sound.centroids⟩
  rw [Array.length_toList]
  exact grouped.grouping.2

/-- The nodes of a cluster are those of its label. -/
theorem Built.mem_membersOf (grouped : c.Built net) {cluster : ClusterId}
    (inside : cluster.index < c.clusterCount) {n : NodeId} :
    n ∈ (c.membersOf cluster).toList ↔ c.labels[n.index]? = some cluster.index := by
  have held : c.members[cluster.index]? = some (c.membersOf cluster) := by
    rw [← grouped.holds.count] at inside
    rw [membersOf, Array.getD_eq_getD_getElem?, Array.getElem?_eq_getElem inside, Option.getD_some]
  exact grouped.holds.members held n

end Clustering

/-- A report lists the nodes of the network, each under its label. -/
theorem mem_clusterLines {c : Clustering} (grouped : c.Built net) {line : ClusterLine} :
    line ∈ clusterLines net c ↔
      ∃ n : NodeId, c.labels[n.index]? = some line.cluster ∧ line.node = net.nodeName n := by
  simp only [clusterLines, Clustering.clusters, List.mem_flatMap, List.mem_map, List.mem_range]
  constructor
  · rintro ⟨_, ⟨cluster, inside, rfl⟩, n, member, rfl⟩
    exact ⟨n, (grouped.mem_membersOf inside).mp member, rfl⟩
  · rintro ⟨n, labelled, named⟩
    have inside := grouped.holds.inside _ (List.mem_of_getElem? labelled)
    refine ⟨⟨line.cluster⟩, ⟨_, inside, rfl⟩, n, (grouped.mem_membersOf inside).mpr labelled, ?_⟩
    rw [← named]

namespace Labels

open Csv (Row Slots)
open Storage (FileTree Path)
open Text.Utf8 (encode)

variable {labels : List Nat} {lines : List ClusterLine}

/-- Rows that name the nodes with their labels, and every node once at least, give the labels. -/
theorem ofRows_ok (built : net.Built) (length : labels.length = net.nodeCount)
    (right : ∀ line ∈ lines,
      ∃ n : NodeId, labels[n.index]? = some line.cluster ∧ line.node = net.nodeName n)
    (all : ∀ n : NodeId, n.index < net.nodeCount → ∃ line ∈ lines, line.node = net.nodeName n) :
    ofRows net (lines.map fun line => .ok (rowOf line)) = .ok labels := by
  have known (line : ClusterLine) (member : line ∈ lines) :
      ∃ n, net.NamesNode line.node n ∧ labels[n.index]? = some line.cluster := by
    obtain ⟨n, labelled, named⟩ := right line member
    exact ⟨n, ⟨length ▸ (List.getElem?_eq_some_iff.mp labelled).1, named.symm⟩, labelled⟩
  refine (ofRows_eq_ok built).mpr ⟨?_, length, ?_⟩
  · intro line member
    obtain ⟨n, named, -⟩ := known line member
    exact ⟨n, named⟩
  · intro n inside
    obtain ⟨line, member, named⟩ := all n inside
    obtain ⟨label, last⟩ := Option.isSome_iff_exists.mp
      (lastLabel?_isSome.mpr ⟨line, member, inside, named.symm⟩)
    obtain ⟨line, member, named, rfl⟩ := exists_line_of_lastLabel? last
    obtain ⟨m, other, labelled⟩ := known line member
    rw [last, ← labelled, built.namesNode_unique named other]

/-! ## The table of clusters -/

theorem readRow_clusterFields {line : ClusterLine} (small : line.cluster < Id.limit) :
    Row.fromNames schema.columns (Slots.none _) 0 ReportTable.clusters.columns
      (ReportTable.clusterFields line) = .ok (rowOf line) := by
  have number : Csv.readNatural (twoTo 32) (toString line.cluster) = .ok line.cluster :=
    Csv.readNatural_toString small
  simp only [schema, ReportTable.columns, ReportTable.clusterFields, Row.fromNames, Slots.fill,
    Slots.none, Csv.Kind.read, number]
  rfl

/-- The table of clusters of a report gives the labels. -/
theorem ofTable_clusterLines {c : Clustering} (built : net.Built) (grouped : c.Built net) :
    ofTable net (encode (Csv.writeRecords (ReportTable.clusters.columns ::
      (clusterLines net c).map ReportTable.clusterFields))) = .ok c.labels := by
  have unmarked : (encode (Csv.writeRecords (ReportTable.clusters.columns ::
      (clusterLines net c).map ReportTable.clusterFields))).head? ≠ some 0xef := by
    have front : (encode (Csv.writeRecord ReportTable.clusters.columns)).head? = some 99 := by
      decide
    rw [Csv.writeRecords_cons, Text.Utf8.encode_append, List.head?_append, front, Option.some_or]
    decide
  have rows : Csv.rows schema (encode (Csv.writeRecords (ReportTable.clusters.columns ::
      (clusterLines net c).map ReportTable.clusterFields))) =
        (clusterLines net c).map fun line => .ok (rowOf line) := by
    refine Csv.rows_written (by decide) (fun _ _ => rfl) unmarked fun line hl => ?_
    obtain ⟨n, labelled, -⟩ := (mem_clusterLines grouped).mp hl
    exact readRow_clusterFields (grouped.grouping.1 _ (List.mem_of_getElem? labelled))
  rw [ofTable, rows]
  apply ofRows_ok built grouped.length_labels
  · intro line hl
    exact (mem_clusterLines grouped).mp hl
  · intro n inside
    rw [← grouped.length_labels] at inside
    exact ⟨⟨_, _⟩, (mem_clusterLines grouped).mpr ⟨n, List.getElem?_eq_getElem inside, rfl⟩, rfl⟩

end Labels

/-! ## The way back -/

open Storage (FileTree Path)

/-- The clusters that are written into a report that was just opened are read back from its file as
the labels of all nodes, in their order, and give the same clustering with the same centroids. -/
theorem clusters_reread {c : Clustering} {files files' : FileTree} {directory : Path}
    {opened : ReportFiles} (built : net.Built) (grouped : c.Built net)
    (created : ReportFiles.create files directory = (files', .ok opened)) :
    ∃ written finished bytes,
      ReportFiles.sink.writeClusters opened (clusterLines net c) = (written, .ok ()) ∧
      ReportFiles.sink.finish written = (finished, .ok ()) ∧
      finished.files.read (ReportFiles.pathOf directory .clusters) = .ok bytes ∧
      Labels.ofTable net bytes = .ok c.labels ∧
      Clustering.ofCentroids net c.labels c.centroids.toList = .ok c := by
  obtain ⟨rfl, holds⟩ := ReportFiles.create_ok created
  have holds := holds.append_header .clusters rfl
    ((clusterLines net c).map ReportTable.clusterFields)
  obtain ⟨finished, done, -, -, held⟩ := ReportFiles.finish_ok holds
  refine ⟨_, finished, _, rfl, done, held .clusters, ?_, grouped.rebuilt⟩
  rw [Function.update_self]
  exact Labels.ofTable_clusterLines built grouped

/-- The clusters of the sample network, written and read back. -/
theorem clusters_reread_sample :
    ∃ files opened,
      ReportFiles.create .empty sampleReport = (files, .ok opened) ∧
      ∃ written finished bytes,
        ReportFiles.sink.writeClusters opened (clusterLines .sample .sample) =
          (written, .ok ()) ∧
        ReportFiles.sink.finish written = (finished, .ok ()) ∧
        finished.files.read (ReportFiles.pathOf sampleReport .clusters) = .ok bytes ∧
        Labels.ofTable .sample bytes = .ok Clustering.sample.labels ∧
        Clustering.ofCentroids .sample Clustering.sample.labels
          Clustering.sample.centroids.toList = .ok .sample := by
  obtain ⟨files, opened, created⟩ := ReportFiles.create_sample
  exact ⟨files, opened, created,
    clusters_reread Network.sample_built Clustering.sample_built created⟩

end RoadFlow
