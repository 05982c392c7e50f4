import DatasetCatalog.Document.Scalar
import DatasetCatalog.Text.CaseMapping

/-!
# Settings
-/

namespace DatasetCatalog.Service

open Document

/-- Times to live and intervals are in seconds, time limits in milliseconds. -/
structure Settings where
  metadataDatabaseUrl : String := "sqlite:///smartbi_metadata.db"
  datasetCacheTtl : Float := 600.0
  previewCacheTtl : Float := 300.0
  queryCacheTtl : Float := 180.0
  cacheMaxEntries : Int := 1024
  cacheCleanupInterval : Float := 120.0
  inferenceSampleRows : Int := 1000
  previewDefaultLimit : Int := 100
  queryDefaultLimit : Int := 100
  maxQueryRows : Int := 10000
  queryTimeoutMs : Int := 10000
  analysisWorkers : Int := 4
  apiPort : Int := 8000
  logLevel : String := "INFO"

def Settings.entries : EntriesReader Settings :=
  let base : Settings := {}
  Settings.mk <$> withDefault "metadata_database_url" base.metadataDatabaseUrl text
    <*> withDefault "dataset_cache_ttl" base.datasetCacheTtl float
    <*> withDefault "preview_cache_ttl" base.previewCacheTtl float
    <*> withDefault "query_cache_ttl" base.queryCacheTtl float
    <*> withDefault "cache_max_entries" base.cacheMaxEntries int
    <*> withDefault "cache_cleanup_interval_seconds" base.cacheCleanupInterval float
    <*> withDefault "inference_sample_rows" base.inferenceSampleRows int
    <*> withDefault "preview_default_limit" base.previewDefaultLimit int
    <*> withDefault "query_default_limit" base.queryDefaultLimit int
    <*> withDefault "max_query_rows" base.maxQueryRows int
    <*> withDefault "query_timeout_ms" base.queryTimeoutMs int
    <*> withDefault "analysis_workers" base.analysisWorkers int
    <*> withDefault "api_port" base.apiPort int
    <*> withDefault "log_level" base.logLevel text

/-- Settings are named in any case. -/
def Settings.reader : EntriesReader Settings where
  read given := Settings.entries.read
    (Value.mergeEntries [] (given.map fun (k, v) => (Text.lower k, v)))

end DatasetCatalog.Service
