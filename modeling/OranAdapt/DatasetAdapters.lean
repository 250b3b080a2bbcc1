import OranAdapt.SqlRows

/-!
# Dataset adapters

The adapters that read data objects by reference (`adapters.datasets`,
`adapters.datasets_cloud`, `adapters.datasets_sql`) and `DataAccess.backend_for`,
which picks one for a URI. The file system, the clients and the libraries they
use are given, with what each of them answers and raises.
-/

namespace OranAdapt

namespace Datasets

open SqlDataset (ResultRow)

/-- What a call of a library raises: what the adapter catches, an error of the framework itself, or anything else. -/
inductive Raised (ε : Type) where
  | caught (e : ε)
  | framework (e : { e : AdaptationError // e.cls.framework = true })
  | raised (name : String)

abbrev Answer (ε α : Type) := Except (Raised ε) α

/-- A call under `except ε as exc: raise handle(exc)`. -/
def under {ε α : Type} (handle : ε → AdaptationError) : Answer ε α → Except AdaptationError α
  | .ok a => .ok a
  | .error (.caught e) => .error (handle e)
  | .error (.framework e) => .error e.1
  | .error (.raised name) => .error (pythonError name)

/-- Chunks that are read, with what their reading raises at the end. -/
structure Body (ε : Type) where
  chunks : List Bytes
  fails : Option (Raised ε)

def Body.stream {ε : Type} (handle : ε → AdaptationError) (b : Body ε) : Stream where
  chunks := b.chunks
  fails := b.fails.bind fun e => match under handle (.error e : Answer ε Unit) with
    | .error e => some e
    | .ok _ => none

inductive FileError where
  | notFound
  | os (strerror : String)

structure FileStat where
  size : Nat
  mtimeNs : Int
  isFile : Bool

/-- An answer of a server. `json` is `response.json()`, none where it raises. -/
structure Response where
  status : Nat
  headers : List (String × String)
  body : Body String
  json : Option Json

structure Request where
  method : String
  url : String
  params : List (String × String) := []
  headers : List (String × String) := []

structure S3Error where
  code : String
  typeName : String

structure S3Args where
  bucket : String
  key : String
  version : Option String

structure S3Head where
  versionId : Option String
  etag : Option String
  contentLength : Option Int

inductive FsError where
  | notFound
  | os (typeName : String)

/-- What `info` says: the fields that are not None with their texts, and the size as text and as `int(size)`. -/
structure FsInfo where
  directory : Bool
  size : Option (String × Except String Int)
  fields : List (String × String)

/-- The libraries and the machine. -/
structure Host (ν : Type) where
  rules : TextRules
  conv : SqlDataset.Conversions ν
  lower : String → String
  isdigit : String → Bool
  /-- `str(value)` of what a JSON text holds -/
  jsonStr : Json → String
  /-- `int(value)` of a float -/
  truncate : String → Except String Int
  sha256 : Bytes → String
  /-- `os.path.realpath(path)`, in parts, as from Python 3.13: a loop of links is no error -/
  realpath : List Char → List String
  fileStat : List String → Except FileError FileStat
  readFile : List String → Except FileError Bytes
  disk : Nat → Option String
  http : Request → Answer String Response
  headObject : S3Args → Answer S3Error S3Head
  getObject : S3Args → Answer S3Error (Body S3Error)
  gcsToken : Except String (Option String)
  filesystem : String → Except String Unit
  fsInfo : String → Answer FsError FsInfo
  fsOpen : String → Answer FsError Bytes
  connect : SqlDataset → String → Except SqlDataset.DriverError (SqlDataset.Connection ν ResultRow)

section
variable {ν : Type} (host : Host ν) (uri : String)

def splitUri : Except AdaptationError UrlSplit.Reference :=
  orRaise "ValueError" (UrlSplit.reference? host.rules.nfkc uri.toList)

def httpStatusError (status : Nat) (adapter : String) : AdaptationError :=
  let code := ("status_code", CtxValue.nat status)
  if status = 404 then datasetNotFound "the referenced data object does not exist" [("uri", .str uri),
    ("adapter", .str adapter)]
  else if status = 401 ∨ status = 403 then
    notAllowed uri ("the " ++ adapter ++ " server refused access (HTTP " ++ toString status ++ ")") [code]
  else if 300 ≤ status ∧ status < 400 then
    notAllowed uri ("the " ++ adapter ++ " server redirected (HTTP " ++ toString status ++
      "); redirects are not followed") [code]
  else dataSourceUnavailable ("the " ++ adapter ++ " server answered HTTP " ++ toString status) [("uri", .str uri), code]

def unreachable (what : String) (typeName : String) : AdaptationError :=
  dataSourceUnavailable (what ++ " unreachable: " ++ typeName) [("uri", .str uri)]

/-! ## Files -/

structure FileDataset where
  roots : List (List String)

local instance lawful_segments : LawfulBEq (List Char) := inferInstance

namespace FileDataset

variable (a : FileDataset)

def resolve (path : List Char) : Except AdaptationError (List String) :=
  if '\x00' ∈ path then .error (pythonError "ValueError") else .ok (host.realpath path)

def path : Except AdaptationError (List String) := do
  let parts ← splitUri host uri
  raiseIf (parts.scheme ≠ "file".toList) (notAllowed uri "not a file:// URI" [])
  raiseIf (parts.netloc ∉ [[], "localhost".toList])
    (notAllowed uri "file URIs on another host are not read" [("host", .str (String.ofList parts.netloc))])
  raiseIf (parts.query ≠ [] ∨ parts.fragment ≠ []) (notAllowed uri "file URIs take no query or fragment" [])
  let path ← resolve host (QueryString.unquote parts.path)
  raiseIf (¬ a.roots.any (·.isPrefixOf path)) (notAllowed uri "path is outside DATASET_FILE_ROOTS" [])
  .ok path

def check : Except AdaptationError Unit := (path host uri a).map fun _ => ()

def fileError : FileError → AdaptationError
  | .notFound => datasetNotFound "the referenced data file does not exist" [("uri", .str uri)]
  | .os strerror => dataSourceUnavailable ("cannot read the data file: " ++ strerror) [("uri", .str uri)]

def stat : Except AdaptationError SourceStat := do
  let path ← path host uri a
  let st ← (host.fileStat path).mapError (fileError uri)
  raiseIf (st.isFile = false) (datasetNotFound "the referenced path is not a file" [("uri", .str uri)])
  .ok ⟨uri, uri, some (toString st.size ++ "-" ++ toString st.mtimeNs), some st.size⟩

def «open» : Except AdaptationError Bytes := do
  let path ← path host uri a
  (host.readFile path).mapError (fileError uri)

end FileDataset

/-! ## HTTP -/

structure HttpDataset where
  allowedHosts : List String
  allowPlain : Bool
  token : Option String
  maxBytes : Nat

def bearer (token : Option String) : List (String × String) :=
  if token.getD "" = "" then [] else [("Authorization", "Bearer " ++ token.getD "")]

namespace HttpDataset

variable (a : HttpDataset)

def schemes : List String := if a.allowPlain then ["https", "http"] else ["https"]

def check : Except AdaptationError Unit := do
  let parts ← splitUri host uri
  raiseIf (String.ofList parts.scheme ∉ a.schemes)
    (notAllowed uri "only https URLs are read (see DATASET_HTTP_ALLOW_PLAIN)" [])
  raiseIf (parts.username.getD [] ≠ [] ∨ parts.password.getD [] ≠ [])
    (notAllowed uri "credentials in the URL are not accepted (use DATASET_HTTP_TOKEN)" [])
  let name := parts.hostname host.lower
  raiseIf (host.lower name ∉ a.allowedHosts.map host.lower)
    (notAllowed uri "host is not in DATASET_HTTP_ALLOWED_HOSTS" [("host", if name = "" then .null else .str name)])

def send (method : String) : Except AdaptationError Response :=
  under (unreachable uri "data server") (host.http { method := method, url := uri, headers := bearer a.token })

def lengthOf (length : Option String) : Except AdaptationError (Option Int) :=
  if length.getD "" ≠ "" ∧ host.isdigit (length.getD "") then
    (orRaise "ValueError" (PyInt.int? (length.getD ""))).map some
  else .ok none

def stat : Except AdaptationError SourceStat := do
  check host uri a
  let response ← send host uri a "HEAD"
  let response ← if response.status = 405 then send host uri a "GET" else .ok response
  raiseIf (response.status ≠ 200) (httpStatusError uri response.status "http")
  let etag := response.headers.lookup "etag"
  let modified := response.headers.lookup "last-modified"
  let length := response.headers.lookup "content-length"
  let size ← lengthOf host length
  let mark := if modified.getD "" = "" then none else some (modified.getD "" ++ "|" ++ length.getD "None")
  .ok ⟨uri, uri, if etag.getD "" = "" then mark else etag, size⟩

def «open» : Except AdaptationError Bytes := do
  check host uri a
  let response ← send host uri a "GET"
  raiseIf (response.status ≠ 200) (httpStatusError uri response.status "http")
  spool host.disk a.maxBytes uri (response.body.stream (unreachable uri "data server"))

end HttpDataset

/-! ## Object stores -/

def parseQs (query : List Char) : List (List Char × List Char) :=
  (query.splitOn '&').filterMap fun field =>
    match PyStr.partition '=' field with
    | (name, some (c :: value)) => some (QueryString.unquotePlus name, QueryString.unquotePlus (c :: value))
    | _ => none

def splitObject (scheme pin : String) : Except AdaptationError S3Args := do
  let parts ← splitUri host uri
  raiseIf (String.ofList parts.scheme ≠ scheme) (notAllowed uri ("not a " ++ scheme ++ ":// URI") [])
  let key := parts.path.dropWhile (· = '/')
  raiseIf (parts.netloc = [] ∨ key = []) (notAllowed uri ("a " ++ scheme ++ " URI needs a bucket and an object key") [])
  let query := parseQs parts.query
  raiseIf (query.any fun p => p.1 ≠ pin.toList) (notAllowed uri ("the only query parameter accepted is " ++ pin) [])
  .ok ⟨String.ofList parts.netloc, String.ofList key, (query.lookup pin.toList).map String.ofList⟩

def inBuckets (buckets : List String) (setting scheme pin : String) : Except AdaptationError S3Args := do
  let args ← splitObject host uri scheme pin
  raiseIf (args.bucket ∉ buckets) (notAllowed uri ("bucket is not in " ++ setting) [("bucket", .str args.bucket)])
  .ok args

def percent (b : UInt8) : List Char :=
  ['%', (Nat.digitChar (b.toNat / 16)).toUpper, (Nat.digitChar (b.toNat % 16)).toUpper]

def quote (text : String) : String :=
  String.ofList (text.toList.flatMap fun c =>
    if c.isAlphanum || c ∈ ['_', '.', '-', '~'] then [c] else (String.utf8EncodeChar c).flatMap percent)

def quotePlus (text : String) : String := "+".intercalate (((text.toList.splitOn ' ').map String.ofList).map quote)

structure S3Dataset where
  buckets : List String
  maxBytes : Nat

namespace S3Dataset

variable (a : S3Dataset)

def parts : Except AdaptationError S3Args := inBuckets host uri a.buckets "DATASET_S3_BUCKETS" "s3" "versionId"

def check : Except AdaptationError Unit := (parts host uri a).map fun _ => ()

def error (e : S3Error) : AdaptationError :=
  if e.code ∈ ["404", "NoSuchKey", "NoSuchVersion", "NotFound"] then
    datasetNotFound "the referenced S3 object does not exist" [("uri", .str uri)]
  else if e.code ∈ ["403", "AccessDenied"] then notAllowed uri "S3 refused access" [("code", .str e.code)]
  else dataSourceUnavailable ("S3 error: " ++ if e.code = "" then e.typeName else e.code) [("uri", .str uri)]

def stat : Except AdaptationError SourceStat := do
  let args ← parts host uri a
  let head ← under (error uri) (host.headObject args)
  let current := if args.version.getD "" = "" then head.versionId.getD "" else args.version.getD ""
  let pin := if current = "" ∨ current = "null" then "" else "?versionId=" ++ quotePlus current
  let etag := String.ofList (PyStr.stripBy (· = '"') (head.etag.getD "").toList)
  .ok ⟨uri, "s3://" ++ args.bucket ++ "/" ++ args.key ++ pin, if etag = "" then none else some etag, head.contentLength⟩

def «open» : Except AdaptationError Bytes := do
  let args ← parts host uri a
  let body ← under (error uri) (host.getObject args)
  spool host.disk a.maxBytes uri (body.stream (error uri))

end S3Dataset

structure GcsDataset where
  buckets : List String
  endpoint : String
  maxBytes : Nat

namespace GcsDataset

variable (a : GcsDataset)

def parts : Except AdaptationError S3Args := inBuckets host uri a.buckets "DATASET_GCS_BUCKETS" "gs" "generation"

def check : Except AdaptationError Unit := (parts host uri a).map fun _ => ()

def url (args : S3Args) (media : Bool) : String :=
  a.endpoint ++ (if media then "/download" else "") ++ "/storage/v1/b/" ++ quote args.bucket ++ "/o/" ++ quote args.key

def send (args : S3Args) (media : Bool) : Except AdaptationError Response := do
  let token ← host.gcsToken.mapError pythonError
  let pinned := if args.version.getD "" = "" then [] else [("generation", args.version.getD "")]
  let response ← under (unreachable uri "GCS")
    (host.http ⟨"GET", url a args media, (if media then [("alt", "media")] else []) ++ pinned, bearer token⟩)
  raiseIf (response.status ≠ 200) (httpStatusError uri response.status "gcs")
  .ok response

def sizeOf : Json → Except AdaptationError (Option Int)
  | .null => .ok none
  | .bool b => .ok (some b.toInt)
  | .int n => .ok (some n)
  | .float r => ((host.truncate r).mapError pythonError).map some
  | .str s => (orRaise "ValueError" (PyInt.int? s)).map some
  | _ => .error (pythonError "TypeError")

def stat : Except AdaptationError SourceStat := do
  let args ← parts host uri a
  let response ← send host uri a args false
  let json ← orRaise "JSONDecodeError" response.json
  match json with
  | .obj fields =>
    let generation := JsonDict.read fields "generation"
    let current := if generation.truthy then host.jsonStr generation else args.version.getD ""
    let mark := ((JsonDict.read fields "md5Hash").or (JsonDict.read fields "crc32c")).or (JsonDict.read fields "etag")
    let size ← sizeOf host (JsonDict.read fields "size")
    let fingerprint := if mark.truthy then some (current ++ ":" ++ host.jsonStr mark)
      else if current = "" then none else some current
    .ok ⟨uri, "gs://" ++ args.bucket ++ "/" ++ args.key ++ if current = "" then ""
      else "?generation=" ++ current, fingerprint, size⟩
  | _ => .error (pythonError "AttributeError")

def «open» : Except AdaptationError Bytes := do
  let args ← parts host uri a
  let response ← send host uri a args true
  spool host.disk a.maxBytes uri (response.body.stream (unreachable uri "GCS"))

end GcsDataset

/-! ## Filesystems of fsspec -/

structure FsspecDataset where
  prefixes : List String

namespace FsspecDataset

variable (a : FsspecDataset)

def schemes : List String :=
  a.prefixes.filterMap fun p => (UrlSplit.reference? host.rules.nfkc p.toList).map fun parts => String.ofList parts.scheme

def check : Except AdaptationError Unit := do
  raiseIf ("..".toList ∈ uri.toList.splitOn '/') (notAllowed uri "path segments '..' are not accepted" [])
  raiseIf (¬ a.prefixes.any fun p => p.toList.isPrefixOf uri.toList)
    (notAllowed uri "URI is outside DATASET_FSSPEC_PREFIXES" [])

def fs : Except AdaptationError Unit := do
  check uri a
  let parts ← splitUri host uri
  (host.filesystem (String.ofList parts.scheme)).mapError pythonError

def error : FsError → AdaptationError
  | .notFound => datasetNotFound "the referenced data object does not exist" [("uri", .str uri)]
  | .os typeName => dataSourceUnavailable ("filesystem error: " ++ typeName) [("uri", .str uri)]

def fingerprintFields : List String :=
  ["ETag", "etag", "md5Hash", "md5", "checksum", "generation", "VersionId", "LastModified",
    "last_modified", "mtime", "updated", "created"]

def stat : Except AdaptationError SourceStat := do
  fs host uri a
  let info ← under (error uri) (host.fsInfo uri)
  raiseIf info.directory (datasetNotFound "the referenced path is a directory" [("uri", .str uri)])
  let marks := fingerprintFields.filterMap fun k => (info.fields.lookup k).map fun v => k ++ "=" ++ v
  let size ← match info.size with
    | some (_, n) => (n.mapError pythonError).map some
    | none => .ok none
  let text := "size=" ++ ((info.size.map Prod.fst).getD "None")
  .ok ⟨uri, uri, if marks = [] then none else some ("|".intercalate (text :: marks)), size⟩

def «open» : Except AdaptationError Bytes := do
  fs host uri a
  under (error uri) (host.fsOpen uri)

end FsspecDataset

/-! ## The enabled adapters -/

inductive Adapter where
  | file (a : FileDataset)
  | http (a : HttpDataset)
  | s3 (a : S3Dataset)
  | gcs (a : GcsDataset)
  | fsspec (a : FsspecDataset)
  | sql (a : SqlDataset)

namespace Adapter

def schemes : Adapter → List String
  | file _ => ["file"]
  | http a => a.schemes
  | s3 _ => ["s3"]
  | gcs _ => ["gs"]
  | fsspec a => a.schemes host
  | sql a => [a.scheme]

def check : Adapter → Except AdaptationError Unit
  | file a => a.check host uri
  | http a => a.check host uri
  | s3 a => a.check host uri
  | gcs a => a.check host uri
  | fsspec a => a.check uri
  | sql a => SqlDataset.check host.rules a uri

def stat : Adapter → Except AdaptationError SourceStat
  | file a => a.stat host uri
  | http a => a.stat host uri
  | s3 a => a.stat host uri
  | gcs a => a.stat host uri
  | fsspec a => a.stat host uri
  | sql a => SqlDataset.stat host.rules host.conv a (host.connect a) uri host.sha256

def «open» : Adapter → Except AdaptationError Bytes
  | file a => a.open host uri
  | http a => a.open host uri
  | s3 a => a.open host uri
  | gcs a => a.open host uri
  | fsspec a => a.open host uri
  | sql a => SqlDataset.open host.rules host.conv a (host.connect a) uri host.disk

end Adapter

def NotAllowed (e : AdaptationError) : Prop := e.cls = .other "DATA_SOURCE_NOT_ALLOWED"

instance (e : AdaptationError) : Decidable (NotAllowed e) := inferInstanceAs (Decidable (_ = _))

/-- The first adapter of the scheme that does not refuse, or else the last refusal. -/
def firstAccepting (scheme : String) (otherwise : AdaptationError) : List Adapter → Except AdaptationError Adapter
  | [] => .error otherwise
  | a :: rest =>
    if scheme ∉ a.schemes host then firstAccepting scheme otherwise rest
    else match a.check host uri with
      | .ok _ => .ok a
      | .error e => if NotAllowed e then firstAccepting scheme e rest else .error e

def backendFor (backends : List Adapter) : Except AdaptationError Adapter := do
  let parts ← splitUri host uri
  let scheme := String.ofList parts.scheme
  let enabled := SqlDataset.sorted (backends.flatMap (·.schemes host)).dedup
  firstAccepting host uri scheme
    ⟨.other "DATA_SOURCE_NOT_ALLOWED", "no enabled dataset adapter reads " ++
      (if scheme = "" then "scheme-less" else scheme) ++
      " URIs (see DATASET_BACKENDS)", [("scheme", .str scheme), ("enabled", .strs enabled)]⟩ backends

end

end Datasets

end OranAdapt
