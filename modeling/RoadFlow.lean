import RoadFlow.Cache.Archive
import RoadFlow.Cache.Bytes
import RoadFlow.Cache.Publish
import RoadFlow.Cache.Store
import RoadFlow.Cluster.Clustering
import RoadFlow.Cluster.Labels
import RoadFlow.Command.Fault
import RoadFlow.Command.Options
import RoadFlow.Command.Run
import RoadFlow.Command.Solution
import RoadFlow.Csv.Record
import RoadFlow.Csv.Table
import RoadFlow.Csv.Write
import RoadFlow.Decimal.Format
import RoadFlow.Decimal.Layout
import RoadFlow.Decimal.Read
import RoadFlow.Decimal.Shortest
import RoadFlow.Fit.Adam
import RoadFlow.Fit.Deviation
import RoadFlow.Fit.Document
import RoadFlow.Fit.Fault
import RoadFlow.Fit.Flows
import RoadFlow.Fit.Observer
import RoadFlow.Fit.Run
import RoadFlow.Fit.Settings
import RoadFlow.Fit.State
import RoadFlow.Hour
import RoadFlow.Id
import RoadFlow.Journal
import RoadFlow.Json.Scan
import RoadFlow.Json.Skip
import RoadFlow.Main
import RoadFlow.Matrix.Assembly
import RoadFlow.Matrix.Assignment
import RoadFlow.Matrix.Fault
import RoadFlow.Matrix.Grid
import RoadFlow.Matrix.Incidence
import RoadFlow.Matrix.Product
import RoadFlow.Network.Basic
import RoadFlow.Network.Builder
import RoadFlow.Network.Fault
import RoadFlow.Network.Fingerprint
import RoadFlow.Network.Nearest
import RoadFlow.Network.Table
import RoadFlow.OdPair
import RoadFlow.Point
import RoadFlow.Power
import RoadFlow.Proofs.Cluster.Clustering
import RoadFlow.Proofs.Except
import RoadFlow.Proofs.Hour
import RoadFlow.Proofs.Id
import RoadFlow.Proofs.Matrix.Acceptance
import RoadFlow.Proofs.Matrix.Assembly
import RoadFlow.Proofs.Matrix.Columns
import RoadFlow.Proofs.Matrix.Conservation
import RoadFlow.Proofs.Matrix.OutTrees
import RoadFlow.Proofs.Matrix.Product
import RoadFlow.Proofs.Matrix.Routes
import RoadFlow.Proofs.Network.Construction
import RoadFlow.Proofs.Network.Layout
import RoadFlow.Proofs.Route.BreadthFirst
import RoadFlow.Proofs.Route.Counts
import RoadFlow.Proofs.Route.Dijkstra
import RoadFlow.Proofs.Route.Engine
import RoadFlow.Proofs.Route.Lengths
import RoadFlow.Proofs.Route.Overflow
import RoadFlow.Proofs.Route.Paths
import RoadFlow.Proofs.Route.Queue
import RoadFlow.Proofs.Route.Rounding
import RoadFlow.Proofs.Route.ShortestPaths
import RoadFlow.Proofs.Route.Ties
import RoadFlow.Proofs.Route.Tree
import RoadFlow.Proofs.Route.Walk
import RoadFlow.Random.Range
import RoadFlow.Random.Stream
import RoadFlow.Report.Files
import RoadFlow.Report.Line
import RoadFlow.Report.Recorder
import RoadFlow.Report.Sink
import RoadFlow.Route.BreadthFirst
import RoadFlow.Route.Cost
import RoadFlow.Route.Dijkstra
import RoadFlow.Route.Frontier
import RoadFlow.Route.Policy
import RoadFlow.Route.Tree
import RoadFlow.Scalar
import RoadFlow.Scenario.Exponential
import RoadFlow.Scenario.Grid
import RoadFlow.Sensor.Counts
import RoadFlow.Sensor.Target
import RoadFlow.Storage.FileTree
import RoadFlow.Storage.Path
import RoadFlow.Text.Hidden
import RoadFlow.Text.Quoted
import RoadFlow.Text.Utf8
import RoadFlow.Trip
import RoadFlow.Proofs.Cache.Bytes
import RoadFlow.Proofs.Cache.Archive
import RoadFlow.Proofs.Storage.FileNode
import RoadFlow.Proofs.Storage.FileTree
import RoadFlow.Proofs.Storage.Reading
import RoadFlow.Proofs.Storage.Keeping
import RoadFlow.Proofs.Cache.Publish
import RoadFlow.Proofs.Cache.Saving
import RoadFlow.Proofs.Cache.Loading
import RoadFlow.Proofs.Cache.Store
import RoadFlow.Proofs.Cache.Healing
import RoadFlow.Proofs.Cache.Publication
import RoadFlow.Proofs.Fit.Single
import RoadFlow.Proofs.Fit.Observers
import RoadFlow.Proofs.Fit.Steps
import RoadFlow.Proofs.Fit.Beginning
import RoadFlow.Proofs.Fit.Best
import RoadFlow.Proofs.Fit.Calls
import RoadFlow.Proofs.Fit.Interruption
import RoadFlow.Proofs.Fit.Resumption
import RoadFlow.Proofs.Fit.Masking
import RoadFlow.Proofs.Fit.Hours
import RoadFlow.Proofs.Fit.Numbers
import RoadFlow.Proofs.Sensor.Counts
import RoadFlow.Proofs.Sensor.Target
import RoadFlow.Proofs.Fit.Evaluation
import RoadFlow.Proofs.Fit.Differences
import RoadFlow.Proofs.Fit.LiveFlows
import RoadFlow.Proofs.Fit.Adam
import RoadFlow.Proofs.Matrix.Scatter
import RoadFlow.Proofs.Fit.Checks
import RoadFlow.Proofs.Matrix.Packed
import RoadFlow.Proofs.Matrix.Canonical
import RoadFlow.Proofs.Matrix.Adjoint
import RoadFlow.Proofs.Report.Files
import RoadFlow.Proofs.Report.Recording
import RoadFlow.Proofs.Csv.RoundTrip
import RoadFlow.Proofs.Network.Names
import RoadFlow.Proofs.Cluster.LabelTable
import RoadFlow.Proofs.Cluster.Labels
import RoadFlow.Proofs.Command.Solution
import RoadFlow.Proofs.Command.Run
import RoadFlow.Proofs.Network.Fingerprint
import RoadFlow.Proofs.Network.Adjacency
import RoadFlow.Proofs.Cluster.Partition
import RoadFlow.Proofs.Network.Calls
import RoadFlow.Proofs.Matrix.Grid
import RoadFlow.Proofs.Random.Range
import RoadFlow.Proofs.Trip
import RoadFlow.Proofs.Report.Calls
import RoadFlow.Proofs.Report.Handles
import RoadFlow.Proofs.Report.Refusals
import RoadFlow.Proofs.Sensor.Slots
import RoadFlow.Proofs.Fit.Coverage
import RoadFlow.Proofs.Shapes
import RoadFlow.Proofs.Route.Settling
import RoadFlow.Proofs.Decimal.Fields
import RoadFlow.Proofs.Decimal.Nearest
import RoadFlow.Proofs.Decimal.Shortest
import RoadFlow.Proofs.Decimal.Text
import RoadFlow.Proofs.Decimal.Bits
import RoadFlow.Proofs.Decimal.Single
import RoadFlow.Proofs.Report.Lines
import RoadFlow.Proofs.Scalar
