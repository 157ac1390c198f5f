import DuckIceberg.ExactCursor
import DuckIceberg.Json
import DuckIceberg.Metadata
import DuckIceberg.MultiFileList
import DuckIceberg.FilesOnDemand
import DuckIceberg.Initialization
import DuckIceberg.FileCalls
import DuckIceberg.Deletes
import DuckIceberg.ScanInto
import DuckIceberg.CollectDeletes
import DuckIceberg.DeleteFiles
import DuckIceberg.DeleteManifests
import DuckIceberg.Lib.Drain
import DuckIceberg.Lib.LastMax
import DuckIceberg.SnapshotsFunction
import DuckIceberg.SnapshotSelection
import DuckIceberg.IcebergTable
import DuckIceberg.MetadataFunction
import DuckIceberg.Catalog.EndpointBuilder
import DuckIceberg.Catalog.MetadataCache
import DuckIceberg.SchemaTypes
import DuckIceberg.Lib.Cut
import DuckIceberg.Catalog.TypeText
import DuckIceberg.Catalog.TypeGrammar
import DuckIceberg.Catalog.CatalogApi
import DuckIceberg.Catalog.Columns
import DuckIceberg.Catalog.CatalogSet
import DuckIceberg.Catalog.TableSet
import DuckIceberg.StableFiles
import DuckIceberg.Catalog.SecretNames
import DuckIceberg.Catalog.Secrets
import DuckIceberg.ApplyDeletes
import DuckIceberg.DeleteData
import DuckIceberg.AsOf
import DuckIceberg.Catalog.SecretScope
import DuckIceberg.MovedPaths
import DuckIceberg.RowNumbers
import DuckIceberg.ManifestLayout
import DuckIceberg.EntryLayout
import DuckIceberg.ColumnOrder
import DuckIceberg.Catalog.Attach
import DuckIceberg.Lib.Mirror
import DuckIceberg.ResumedDeletes
import DuckIceberg.OpenedFiles
import DuckIceberg.MovedTable
import DuckIceberg.MovedScan
import DuckIceberg.DeleteSources
import DuckIceberg.DeleteRuns
import DuckIceberg.Catalog.OAuthToken
import DuckIceberg.Catalog.ConfigLayers
import DuckIceberg.VersionGuessing
import DuckIceberg.Catalog.SetRuns
import DuckIceberg.ReadBounds
import DuckIceberg.Catalog.AtomicLoads
import DuckIceberg.Catalog.FilledTables
import DuckIceberg.Catalog.WholeCatalog
import DuckIceberg.Catalog.ClearedCache
import DuckIceberg.Catalog.TypeReads
import DuckIceberg.LaxTypes
import DuckIceberg.LoadedFiles
import DuckIceberg.Lib.Machine
import DuckIceberg.ListedFiles
import DuckIceberg.TableScan
import DuckIceberg.Catalog.StableServer
import DuckIceberg.Lib.Pieces
import DuckIceberg.TimeTravel
import DuckIceberg.Catalog.CatalogScan
import DuckIceberg.ListedTable
import DuckIceberg.Catalog.AwsRegions
import DuckIceberg.Catalog.CatalogSecrets
import DuckIceberg.Catalog.Sessions
import DuckIceberg.Catalog.TypeNames
import DuckIceberg.ProjectedScan
