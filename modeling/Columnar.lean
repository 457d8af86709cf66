import Columnar.ColumnCursor
import Columnar.ColumnMeta.Reading
import Columnar.ColumnMeta.Writing
import Columnar.Proofs.PageHistory
import Columnar.Proofs.WideFlags
import Columnar.Proofs.ZonePruning
import Columnar.Proofs.PageCache
import Columnar.Proofs.RowSetAlgebra
import Columnar.Proofs.DeleteVerdicts
import Columnar.Proofs.FilterVerdicts
import Columnar.Proofs.BitStreams
import Columnar.Proofs.DamagedPages
import Columnar.Proofs.IndexBodies
import Columnar.Proofs.ExactDecimals
import Columnar.Proofs.WordLookups
import Columnar.Proofs.PageImages
import Columnar.Proofs.WrittenScalars
import Columnar.Proofs.FailedArraySeeks
import Columnar.Proofs.AttachedItems
import Columnar.Proofs.LazyLoading
import Columnar.Proofs.MatchingBatches
import Columnar.Proofs.FilterPruning
import Columnar.Proofs.WrittenColumns
import Columnar.Proofs.TightVerdicts
import Columnar.Proofs.WholeColumn
import Columnar.Proofs.NullCursors
import Columnar.Proofs.PrefixedWords
import Columnar.Proofs.RunSegments
import Columnar.Proofs.WordPages
import Columnar.Proofs.EncodedRuns
import Columnar.Proofs.PageWalks
import Columnar.Proofs.RefusedReads
import Columnar.Proofs.AssembledArrays
import Columnar.Proofs.PageStarts
import Columnar.Proofs.PackedRows
import Columnar.Proofs.FailedPushes
import Columnar.Proofs.ComparedScalars
import Columnar.Proofs.ConstantColumns
import Columnar.Proofs.CutStreams
import Columnar.Proofs.WordSections
