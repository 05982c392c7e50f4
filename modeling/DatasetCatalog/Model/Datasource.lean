import DatasetCatalog.Model.Kinds

/-!
# Datasources

A database that datasets read from, and where it is reached.
-/

namespace DatasetCatalog

open Document

structure DatasourceConfig where
  host : Option String := none
  port : Option Int := none
  database : Option String := none
  username : Option String := none
  password : Option String := none
  path : Option String := none
deriving DecidableEq, Repr

structure Datasource where
  id : String
  userId : String
  name : String
  type : DatasourceType
  config : DatasourceConfig := {}
deriving DecidableEq, Repr

def DatasourceConfig.reader : EntriesReader DatasourceConfig :=
  DatasourceConfig.mk <$> withDefault "host" none (nullable text)
    <*> withDefault "port" none (nullable (intBetween 1 65535))
    <*> withDefault "database" none (nullable text)
    <*> withDefault "username" none (nullable text)
    <*> withDefault "password" none (nullable text)
    <*> withDefault "path" none (nullable text)

def DatasourceConfig.document (c : DatasourceConfig) : Value := .object
  [("host", .ofOption .text c.host),
   ("port", .ofOption .int c.port),
   ("database", .ofOption .text c.database),
   ("username", .ofOption .text c.username),
   ("password", .ofOption .text c.password),
   ("path", .ofOption .text c.path)]

def Datasource.reader (freshId : String) : EntriesReader Datasource :=
  Datasource.mk <$> withDefault "id" freshId text
    <*> required "user_id" text
    <*> required "name" text
    <*> required "type" named
    <*> withDefault "config" {} (model DatasourceConfig.reader)

def Datasource.document (d : Datasource) : Value := .object
  [("id", .text d.id),
   ("user_id", .text d.userId),
   ("name", .text d.name),
   ("type", .named d.type),
   ("config", d.config.document)]

structure ConnectionUrl where
  driver : String
  username : Option String := none
  password : Option String := none
  host : Option String := none
  port : Option Int := none
  database : Option String := none
deriving DecidableEq, Repr

def DatasourceType.driver : DatasourceType → String
  | .postgresql => "postgresql+psycopg2"
  | .mysql => "mysql+pymysql"
  | .sqlite => "sqlite"

/-- A file database is reached by its path alone, and an empty path is none. -/
def Datasource.url (d : Datasource) : ConnectionUrl :=
  match d.type with
  | .sqlite => { driver := d.type.driver, database := d.config.path.filter (!·.isEmpty) }
  | _ =>
    { driver := d.type.driver
      username := d.config.username
      password := d.config.password
      host := d.config.host
      port := d.config.port
      database := d.config.database }

def ConnectionUrl.document (u : ConnectionUrl) : Value := .object
  [("driver", .text u.driver),
   ("username", .ofOption .text u.username),
   ("password", .ofOption .text u.password),
   ("host", .ofOption .text u.host),
   ("port", .ofOption .int u.port),
   ("database", .ofOption .text u.database)]

end DatasetCatalog
