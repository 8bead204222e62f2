import CubeQuery.Host.Memory
import CubeQuery.Main
import CubeQuery.Proofs.Catalog.Ancestors
import CubeQuery.Proofs.Mdx.Rendering
import CubeQuery.Proofs.Plan.Compile
import CubeQuery.Proofs.Plan.Leftover
import CubeQuery.Proofs.Plan.Measures
import CubeQuery.Proofs.Tidy.Cells
import CubeQuery.Proofs.Tidy.Keyed
import CubeQuery.Proofs.Engine.Cache
import CubeQuery.Proofs.Mdx.Derivations
import CubeQuery.Proofs.Aggregate.Parents
import CubeQuery.Proofs.Catalog.Chains
import CubeQuery.Proofs.Tidy.Pairs
import CubeQuery.Proofs.Aggregate.AncestorColumns
import CubeQuery.Proofs.Bridge.Alone
import CubeQuery.Proofs.Engine.Overlap
import CubeQuery.Proofs.Tidy.OwnPairs
import CubeQuery.Proofs.Aggregate.PropertyColumns
import CubeQuery.Proofs.Plan.Refusals
import CubeQuery.Proofs.Plan.Pagination
import CubeQuery.Proofs.Aggregate.Trace
import CubeQuery.Proofs.Tidy.ColumnPlan
import CubeQuery.Proofs.Catalog.Navigation
import CubeQuery.Proofs.Plan.Reordering
import CubeQuery.Proofs.Plan.Resolution
import CubeQuery.Proofs.Plan.Assembly
import CubeQuery.Proofs.Tidy.Windows
import CubeQuery.Proofs.Aggregate.Memo
import CubeQuery.Proofs.Aggregate.Flattening
import CubeQuery.Proofs.Plan.FilterClauses
import CubeQuery.Proofs.Plan.CalculatedMeasures
import CubeQuery.Proofs.Catalog.KeyLookups
import CubeQuery.Proofs.Plan.LevelNames
import CubeQuery.Proofs.Result.Flattened
import CubeQuery.Proofs.Output.Records
import CubeQuery.Proofs.Output.Csv
import CubeQuery.Proofs.Settings.References
import CubeQuery.Proofs.Mdx.Faults
import CubeQuery.Proofs.Cube.UniqueNames
import CubeQuery.Proofs.Result.Enumeration
import CubeQuery.Proofs.Result.Places
