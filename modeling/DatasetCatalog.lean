import DatasetCatalog.Text.Blank
import DatasetCatalog.Text.CaseMapping
import DatasetCatalog.Text.DecimalDigit
import DatasetCatalog.Text.Printable
import DatasetCatalog.Text.WordCharacter
import DatasetCatalog.Number.DoubleText
import DatasetCatalog.Number.NumberText
import DatasetCatalog.Time.IsoText
import DatasetCatalog.Time.Pattern
import DatasetCatalog.Time.TimeText
import DatasetCatalog.Digest.Sha256
import DatasetCatalog.Json.Canonical
import DatasetCatalog.Json.Reader
import DatasetCatalog.Model.Datasource
import DatasetCatalog.Model.Request
import DatasetCatalog.Value.Key
import DatasetCatalog.Inference.Merge
import DatasetCatalog.Quality.Issues
import DatasetCatalog.Governance.Permissions
import DatasetCatalog.Governance.SqlSafety
import DatasetCatalog.Model.FieldLookup
import DatasetCatalog.Query.Canonical
import DatasetCatalog.Query.Compile
import DatasetCatalog.Cache.Keys
import DatasetCatalog.Cache.Session
import DatasetCatalog.Cache.Stats
import DatasetCatalog.Source.EnginePool
import DatasetCatalog.Source.Execution
import DatasetCatalog.Store.Repository
import DatasetCatalog.Service.Operation
import DatasetCatalog.Web.Exchange
import DatasetCatalog.Scenario.Run
import DatasetCatalog.Proofs.Cache.Contents
import DatasetCatalog.Proofs.Cache.Traffic
import DatasetCatalog.Proofs.Cache.Freshness
import DatasetCatalog.Proofs.Cache.Sweeps
import DatasetCatalog.Proofs.Cache.Ledger
import DatasetCatalog.Proofs.Document.Entries
import DatasetCatalog.Proofs.Store.Identity
import DatasetCatalog.Proofs.Service.Interplay
import DatasetCatalog.Proofs.Service.Records
import DatasetCatalog.Proofs.Service.Coherence
import DatasetCatalog.Proofs.Service.Parts
import DatasetCatalog.Proofs.Query.Fragments
import DatasetCatalog.Proofs.Query.Blank
import DatasetCatalog.Proofs.Query.Outcomes
import DatasetCatalog.Proofs.Query.ViewChain
import DatasetCatalog.Proofs.Query.FilterShape
import DatasetCatalog.Proofs.Query.ValueIndependence
import DatasetCatalog.Proofs.Query.BindMarker
import DatasetCatalog.Proofs.Query.Spacing
import DatasetCatalog.Proofs.Query.BoundValues
import DatasetCatalog.Proofs.Query.NamesInUse
import DatasetCatalog.Proofs.Query.WordNames
import DatasetCatalog.Proofs.Query.WrittenNames
import DatasetCatalog.Proofs.Query.PlainNames
import DatasetCatalog.Proofs.Query.NamedText
import DatasetCatalog.Proofs.Query.Printings
import DatasetCatalog.Proofs.Inference.Merging
import DatasetCatalog.Proofs.Inference.Fields
import DatasetCatalog.Proofs.Inference.DatedCells
import DatasetCatalog.Proofs.Inference.DisplayNames
import DatasetCatalog.Proofs.Quality.MissingData
import DatasetCatalog.Proofs.Service.ViewWalk
import DatasetCatalog.Proofs.Governance.QuotedParts
import DatasetCatalog.Proofs.Governance.AcceptedSql
import DatasetCatalog.Proofs.Governance.Literals
import DatasetCatalog.Proofs.Governance.RowLimit
import DatasetCatalog.Proofs.Service.Authority
import DatasetCatalog.Proofs.Json.Delimiting
import DatasetCatalog.Proofs.Json.Injectivity
import DatasetCatalog.Proofs.Query.CanonicalForm
import DatasetCatalog.Proofs.Query.Interchange
import DatasetCatalog.Proofs.Json.Sameness
import DatasetCatalog.Proofs.Query.RequestKeys
import DatasetCatalog.Proofs.Service.Demands
import DatasetCatalog.Proofs.Service.Fetching
import DatasetCatalog.Proofs.Service.Provenance
import DatasetCatalog.Proofs.Number.Binary64
import DatasetCatalog.Proofs.Document.Formats
import DatasetCatalog.Proofs.Model.Changes
import DatasetCatalog.Proofs.Model.Encoding
import DatasetCatalog.Proofs.Service.AllowedChanges
import DatasetCatalog.Proofs.Service.Failures
import DatasetCatalog.Proofs.Service.OwnSources
import DatasetCatalog.Proofs.Store.Twins
import DatasetCatalog.Proofs.Service.Names
import DatasetCatalog.Proofs.Service.Searches
import DatasetCatalog.Proofs.Service.Samplings
import DatasetCatalog.Proofs.Service.Analyses
import DatasetCatalog.Proofs.Service.StoredDatasets
import DatasetCatalog.Proofs.Service.Endings
import DatasetCatalog.Proofs.Service.Verbatim
import DatasetCatalog.Proofs.Governance.Roles
import DatasetCatalog.Proofs.Service.Paging
import DatasetCatalog.Proofs.Service.Questions
import DatasetCatalog.Proofs.Source.Engines
