import OranAdapt.SqlErrors

/-!
# Errors of references

A reference is read, or it is refused by an error of the framework, where the
URI splits and each enabled adapter that accepts it handles what its libraries
raise and answer.
-/

namespace OranAdapt

namespace Datasets

open Declared

section
variable {ν : Type} {host : Host ν} {uri : String} {parts : UrlSplit.Reference}

theorem keeps_bind_splitUri {α : Type} {d : AdaptationError → Prop} {f : UrlSplit.Reference → Except AdaptationError α}
    (hparts : UrlSplit.reference? host.rules.nfkc uri.toList = some parts) : Keeps d (splitUri host uri >>= f) ↔
      Keeps d (f parts) := by
  rw [splitUri, hparts, bind_orRaise]

theorem framework_httpStatusError (status : Nat) (adapter : String) : Framework (httpStatusError uri status adapter) := by
  simp only [httpStatusError]
  split
  · rfl
  · split
    · rfl
    · split <;> rfl

theorem framework_unreachable (what typeName : String) : Framework (unreachable uri what typeName) := rfl

/-! ## Files -/

namespace FileDataset

variable {a : FileDataset}

/-- The path of a file URI, once it is unquoted, has no null character. -/
def PathReads (parts : UrlSplit.Reference) : Prop :=
  parts.scheme = "file".toList → parts.netloc ∈ [[], "localhost".toList] → parts.query = [] → parts.fragment = [] →
    '\x00' ∉ QueryString.unquote parts.path

theorem keeps_check (hparts : UrlSplit.reference? host.rules.nfkc uri.toList = some parts) :
    Keeps NotAllowed (a.check host uri) ↔ PathReads parts := by
  rw [check, keeps_map, path, keeps_bind_splitUri hparts]
  iterate 3 rw [keeps_bind_raiseIf (notAllowed_notAllowed ..)]
  simp only [PathReads, not_not, not_or, and_imp]
  apply imp_congr_right
  intro _
  apply imp_congr_right
  intro _
  apply imp_congr_right
  intro _
  apply imp_congr_right
  intro _
  rw [resolve]
  by_cases hnull : '\x00' ∈ QueryString.unquote parts.path
  · rw [if_pos hnull]
    refine iff_of_false ?_ fun h => h hnull
    exact not_notAllowed_python _ ∘ keeps_error.mp
  · rw [if_neg hnull, bind_ok_eq, keeps_bind_raiseIf (notAllowed_notAllowed ..)]
    exact iff_of_true (fun _ => keeps_ok _) hnull

theorem framework_fileError (e : FileError) : Framework (fileError uri e) := by
  cases e <;> rfl

theorem keeps_stat (haccepted : a.check host uri = .ok ()) : Keeps Framework (a.stat host uri) := by
  obtain ⟨path, hpath, _⟩ := map_ok haccepted
  rw [stat, hpath, bind_ok_eq, keeps_bind]
  refine ⟨keeps_mapError framework_fileError, ?_⟩
  intro st _
  rw [keeps_bind_raiseIf (framework_notFound ..)]
  exact fun _ => keeps_ok _

theorem keeps_open (haccepted : a.check host uri = .ok ()) : Keeps Framework (a.open host uri) := by
  obtain ⟨path, hpath, _⟩ := map_ok haccepted
  rw [«open», hpath, bind_ok_eq]
  exact keeps_mapError framework_fileError

end FileDataset

/-! ## HTTP -/

namespace HttpDataset

variable {a : HttpDataset}

theorem keeps_check (hparts : UrlSplit.reference? host.rules.nfkc uri.toList = some parts) :
    Keeps NotAllowed (a.check host uri) := by
  rw [check, keeps_bind_splitUri hparts]
  iterate 2 rw [keeps_bind_raiseIf (notAllowed_notAllowed ..)]
  intro _ _
  exact keeps_raiseIf (notAllowed_notAllowed ..)

/-- What the server makes of a request. -/
def answerTo (host : Host ν) (uri : String) (a : HttpDataset) (method : String) : Answer String Response :=
  host.http { method := method, url := uri, headers := bearer a.token }

def LengthReads (host : Host ν) (response : Response) : Prop :=
  ∀ length, response.headers.lookup "content-length" = some length → length ≠ "" →
    host.isdigit length = true → PyInt.int? length ≠ none

/-- The answer that `stat` reads: to GET where the server does not support HEAD. -/
def StatAnswer (host : Host ν) (uri : String) (a : HttpDataset) (response : Response) : Prop :=
  ∃ first, answerTo host uri a "HEAD" = .ok first ∧
    (if first.status = 405 then answerTo host uri a "GET" = .ok response else first = response)

/-- The client answers, and a length that the server states is an integer. -/
structure StatReads (host : Host ν) (uri : String) (a : HttpDataset) : Prop where
  head : Answers (answerTo host uri a "HEAD")
  get : ∀ first, answerTo host uri a "HEAD" = .ok first → first.status = 405 → Answers (answerTo host uri a "GET")
  length : ∀ response, StatAnswer host uri a response → response.status = 200 → LengthReads host response

structure OpenReads (host : Host ν) (uri : String) (a : HttpDataset) : Prop where
  get : Answers (answerTo host uri a "GET")
  content : ∀ response, answerTo host uri a "GET" = .ok response → response.status = 200 →
    Spools host.disk a.maxBytes response.body

theorem keeps_bind_send {α : Type} {method : String} {f : Response → Except AdaptationError α} :
    Keeps Framework (send host uri a method >>= f) ↔
      Answers (answerTo host uri a method) ∧ ∀ response, answerTo host uri a method = .ok response →
        Keeps Framework (f response) :=
  keeps_bind_under (framework_unreachable _)

theorem keeps_lengthOf {response : Response} :
    Keeps Framework (lengthOf host (response.headers.lookup "content-length")) ↔ LengthReads host response := by
  unfold lengthOf LengthReads
  cases response.headers.lookup "content-length" with
  | none => simp
  | some length =>
    simp only [Option.getD_some, Option.some.injEq, forall_eq']
    split
    · rename_i hdigits
      rw [keeps_map, keeps_orRaise (not_framework_python _)]
      simp only [hdigits.1, hdigits.2, ne_eq, not_false_eq_true, true_implies]
    · rename_i hdigits
      refine iff_of_true (keeps_ok _) ?_
      intro hne hdigit
      exact absurd ⟨hne, hdigit⟩ hdigits

theorem keeps_stat (haccepted : a.check host uri = .ok ()) : Keeps Framework (a.stat host uri) ↔ StatReads host uri a := by
  have hread : ∀ response : Response, Keeps Framework (do
      raiseIf (response.status ≠ 200) (httpStatusError uri response.status "http")
      let etag := response.headers.lookup "etag"
      let modified := response.headers.lookup "last-modified"
      let length := response.headers.lookup "content-length"
      let size ← lengthOf host length
      let mark := if modified.getD "" = "" then none else some (modified.getD "" ++ "|" ++ length.getD "None")
      .ok (⟨uri, uri, if etag.getD "" = "" then mark else etag, size⟩ : SourceStat)) ↔
      (response.status = 200 → LengthReads host response) := by
    intro response
    rw [keeps_bind_raiseIf (framework_httpStatusError ..), not_not]
    apply imp_congr_right
    intro _
    simp only
    rw [keeps_bind, keeps_lengthOf]
    exact and_iff_left fun _ _ => keeps_ok _
  rw [stat, haccepted, bind_ok_eq, keeps_bind_send]
  constructor
  · intro h
    refine ⟨h.1, ?_, ?_⟩
    · intro first hfirst hmethod
      have := h.2 first hfirst
      rw [if_pos hmethod, keeps_bind_send] at this
      exact this.1
    · intro response hanswer
      obtain ⟨first, hfirst, hanswer⟩ := hanswer
      have := h.2 first hfirst
      by_cases hmethod : first.status = 405
      · rw [if_pos hmethod, keeps_bind_send] at this
        rw [if_pos hmethod] at hanswer
        exact (hread response).mp (this.2 response hanswer)
      · rw [if_neg hmethod, bind_ok_eq] at this
        rw [if_neg hmethod] at hanswer
        exact hanswer ▸ (hread first).mp this
  · intro h
    refine ⟨h.head, ?_⟩
    intro first hfirst
    by_cases hmethod : first.status = 405
    · rw [if_pos hmethod, keeps_bind_send]
      refine ⟨h.get first hfirst hmethod, ?_⟩
      intro response hresponse
      exact (hread response).mpr (h.length response ⟨first, hfirst, by rwa [if_pos hmethod]⟩)
    · rw [if_neg hmethod, bind_ok_eq]
      exact (hread first).mpr (h.length first ⟨first, hfirst, by rw [if_neg hmethod]⟩)

theorem keeps_open (haccepted : a.check host uri = .ok ()) : Keeps Framework (a.open host uri) ↔ OpenReads host uri a := by
  rw [«open», haccepted, bind_ok_eq, keeps_bind_send]
  constructor
  · intro h
    refine ⟨h.1, ?_⟩
    intro response hresponse hok
    have := h.2 response hresponse
    rw [keeps_bind_raiseIf (framework_httpStatusError ..), keeps_spool (framework_unreachable _)] at this
    exact this (not_not.mpr hok)
  · intro h
    refine ⟨h.get, ?_⟩
    intro response hresponse
    rw [keeps_bind_raiseIf (framework_httpStatusError ..), keeps_spool (framework_unreachable _)]
    intro hok
    exact h.content response hresponse (not_not.mp hok)

end HttpDataset

/-! ## Object stores -/

theorem keeps_inBuckets {buckets : List String} {setting scheme pin : String}
    (hparts : UrlSplit.reference? host.rules.nfkc uri.toList = some parts) :
    Keeps NotAllowed (inBuckets host uri buckets setting scheme pin) := by
  rw [inBuckets, keeps_bind]
  refine ⟨?_, ?_⟩
  · rw [splitObject, keeps_bind_splitUri hparts]
    simp only
    iterate 3 rw [keeps_bind_raiseIf (notAllowed_notAllowed ..)]
    intro _ _ _
    exact keeps_ok _
  · intro args _
    rw [keeps_bind_raiseIf (notAllowed_notAllowed ..)]
    exact fun _ => keeps_ok _

namespace S3Dataset

variable {a : S3Dataset}

theorem framework_error (e : S3Error) : Framework (error uri e) := by
  unfold error
  split
  · rfl
  · split <;> rfl

def StatReads (host : Host ν) (uri : String) (a : S3Dataset) : Prop :=
  ∀ args, a.parts host uri = .ok args → Answers (host.headObject args)

def OpenReads (host : Host ν) (uri : String) (a : S3Dataset) : Prop :=
  ∀ args, a.parts host uri = .ok args →
    Answers (host.getObject args) ∧ ∀ body, host.getObject args = .ok body → Spools host.disk a.maxBytes body

theorem keeps_stat (haccepted : a.check host uri = .ok ()) : Keeps Framework (a.stat host uri) ↔ StatReads host uri a := by
  obtain ⟨args, hargs, _⟩ := map_ok haccepted
  rw [stat, hargs, bind_ok_eq, keeps_bind_under framework_error, StatReads, hargs]
  simp

theorem keeps_open (haccepted : a.check host uri = .ok ()) : Keeps Framework (a.open host uri) ↔ OpenReads host uri a := by
  obtain ⟨args, hargs, _⟩ := map_ok haccepted
  rw [«open», hargs, bind_ok_eq, keeps_bind_under framework_error, OpenReads, hargs]
  simp only [keeps_spool framework_error, Except.ok.injEq, forall_eq']

end S3Dataset

namespace GcsDataset

variable {a : GcsDataset}

/-- What the server makes of a request. -/
def answerTo (host : Host ν) (a : GcsDataset) (args : S3Args) (media : Bool) (token : Option String) :
    Answer String Response :=
  let pinned := if args.version.getD "" = "" then [] else [("generation", args.version.getD "")]
  host.http ⟨"GET", url a args media, (if media then [("alt", "media")] else []) ++ pinned, bearer token⟩

def SizeReads (host : Host ν) : Json → Prop
  | .null | .bool _ | .int _ => True
  | .float r => ∃ n, host.truncate r = .ok n
  | .str s => PyInt.int? s ≠ none
  | _ => False

def Sends (host : Host ν) (uri : String) (a : GcsDataset) (media : Bool) (reads : Response → Prop) : Prop :=
  ∀ args, a.parts host uri = .ok args → ∃ token, host.gcsToken = .ok token ∧
    Answers (answerTo host a args media token) ∧
    ∀ response, answerTo host a args media token = .ok response → response.status = 200 → reads response

def StatReads (host : Host ν) (uri : String) (a : GcsDataset) : Prop :=
  Sends host uri a false fun response => ∃ fields, response.json = some (.obj fields) ∧
    SizeReads host (JsonDict.read fields "size")

def OpenReads (host : Host ν) (uri : String) (a : GcsDataset) : Prop :=
  Sends host uri a true fun response => Spools host.disk a.maxBytes response.body

theorem keeps_sizeOf {size : Json} : Keeps Framework (sizeOf host size) ↔ SizeReads host size := by
  cases size with
  | float r =>
    rw [sizeOf, keeps_map]
    cases h : host.truncate r with
    | ok n => simp [SizeReads, h, Except.mapError]
    | error name =>
      refine iff_of_false (not_framework_python name ∘ keeps_error.mp) ?_
      simp [SizeReads, h]
  | str s => rw [sizeOf, keeps_map, keeps_orRaise (not_framework_python _), SizeReads]
  | null => simp [sizeOf, SizeReads]
  | bool b => simp [sizeOf, SizeReads]
  | int n => simp [sizeOf, SizeReads]
  | arr items => exact iff_of_false (not_framework_python _ ∘ keeps_error.mp) id
  | obj fields => exact iff_of_false (not_framework_python _ ∘ keeps_error.mp) id

theorem keeps_bind_send {α : Type} {media : Bool} {f : S3Args → Response → Except AdaptationError α}
    {reads : Response → Prop}
    (haccepted : a.check host uri = .ok ())
    (hreads : ∀ args response, Keeps Framework (f args response) ↔ reads response) :
    Keeps Framework (a.parts host uri >>= fun args => send host uri a args media >>= f args) ↔
      Sends host uri a media reads := by
  obtain ⟨args, hargs, _⟩ := map_ok haccepted
  rw [hargs, bind_ok_eq, Sends, hargs]
  simp only [Except.ok.injEq, forall_eq']
  cases htoken : host.gcsToken with
  | error name =>
    rw [send, htoken]
    refine iff_of_false (not_framework_python name ∘ keeps_error.mp) ?_
    simp
  | ok token =>
    have hsend : (send host uri a args media >>= f args) =
        (under (unreachable uri "GCS") (answerTo host a args media token) >>= fun response =>
        raiseIf (response.status ≠ 200) (httpStatusError uri response.status "gcs") >>= fun _ => f args response) := by
      rw [send, htoken]
      simp only [Except.mapError, bind_ok_eq, bind_assoc]
      rfl
    rw [hsend, keeps_bind_under (framework_unreachable _)]
    simp only [keeps_bind_raiseIf (framework_httpStatusError ..), not_not, hreads, Except.ok.injEq, exists_eq_left']

theorem keeps_stat (haccepted : a.check host uri = .ok ()) : Keeps Framework (a.stat host uri) ↔ StatReads host uri a := by
  apply keeps_bind_send haccepted
  intro args response
  cases response.json with
  | none =>
    refine iff_of_false (not_framework_python _ ∘ keeps_error.mp) ?_
    simp
  | some json =>
    rw [bind_orRaise]
    cases json with
    | obj fields =>
      simp only [Option.some.injEq, Json.obj.injEq, exists_eq_left']
      rw [keeps_bind, keeps_sizeOf]
      exact and_iff_left fun _ _ => keeps_ok _
    | _ =>
      refine iff_of_false (not_framework_python _ ∘ keeps_error.mp) ?_
      simp

theorem keeps_open (haccepted : a.check host uri = .ok ()) : Keeps Framework (a.open host uri) ↔ OpenReads host uri a := by
  apply keeps_bind_send haccepted
  intro args response
  exact keeps_spool (framework_unreachable _)

end GcsDataset

/-! ## Filesystems of fsspec -/

namespace FsspecDataset

variable {a : FsspecDataset}

theorem keeps_check : Keeps NotAllowed (a.check uri) := by
  rw [check, keeps_bind_raiseIf (notAllowed_notAllowed ..)]
  exact fun _ => keeps_raiseIf (notAllowed_notAllowed ..)

theorem framework_error (e : FsError) : Framework (error uri e) := by
  cases e <;> rfl

def Mounted (host : Host ν) (parts : UrlSplit.Reference) : Prop := host.filesystem (String.ofList parts.scheme) = .ok ()

/-- The filesystem answers, and the size of a file is an integer. -/
def StatReads (host : Host ν) (uri : String) (parts : UrlSplit.Reference) : Prop :=
  Mounted host parts ∧ Answers (host.fsInfo uri) ∧
    ∀ info, host.fsInfo uri = .ok info → info.directory = false → ∀ size, info.size = some size →
    ∃ n, size.2 = .ok n

def OpenReads (host : Host ν) (uri : String) (parts : UrlSplit.Reference) : Prop :=
  Mounted host parts ∧ Answers (host.fsOpen uri)

theorem keeps_bind_fs {α : Type} {f : Unit → Except AdaptationError α}
    (hparts : UrlSplit.reference? host.rules.nfkc uri.toList = some parts)
    (haccepted : a.check uri = .ok ()) : Keeps Framework (fs host uri a >>= f) ↔ Mounted host parts ∧
      Keeps Framework (f ()) := by
  rw [fs, haccepted, bind_ok_eq, splitUri, hparts, bind_orRaise, Mounted]
  cases hfs : host.filesystem (String.ofList parts.scheme) with
  | ok u =>
    rw [Except.mapError, bind_ok_eq]
    simp
  | error name =>
    refine iff_of_false (not_framework_python name ∘ keeps_error.mp) ?_
    simp

theorem keeps_stat (hparts : UrlSplit.reference? host.rules.nfkc uri.toList = some parts) (haccepted : a.check uri = .ok ()) :
    Keeps Framework (a.stat host uri) ↔ StatReads host uri parts := by
  rw [stat, keeps_bind_fs hparts haccepted, keeps_bind_under framework_error, StatReads]
  apply and_congr_right'
  apply and_congr_right'
  apply forall₂_congr
  intro info _
  rw [keeps_bind_raiseIf (framework_notFound ..), Bool.not_eq_true]
  apply imp_congr_right
  intro _
  cases info.size with
  | none => exact iff_of_true (keeps_ok _) (by simp)
  | some size =>
    obtain ⟨text, n⟩ := size
    cases n with
    | ok n => exact iff_of_true (keeps_ok _) (by simp)
    | error name =>
      refine iff_of_false (not_framework_python name ∘ keeps_error.mp) ?_
      simp

theorem keeps_open (hparts : UrlSplit.reference? host.rules.nfkc uri.toList = some parts) (haccepted : a.check uri = .ok ()) :
    Keeps Framework (a.open host uri) ↔ OpenReads host uri parts := by
  rw [«open», keeps_bind_fs hparts haccepted, keeps_under framework_error, OpenReads]

end FsspecDataset

/-! ## The enabled adapters -/

namespace Adapter

/-- What the adapter converts in a URI is converted. -/
def CheckReads (parts : UrlSplit.Reference) : Adapter → Prop
  | file _ => FileDataset.PathReads parts
  | sql a => SqlDataset.PortReads a parts
  | _ => True

/-- What `stat` asks for is answered, and what it converts is converted. -/
def StatReads (host : Host ν) (uri : String) (parts : UrlSplit.Reference) : Adapter → Prop
  | file _ => True
  | http a => a.StatReads host uri
  | s3 a => a.StatReads host uri
  | gcs a => a.StatReads host uri
  | fsspec _ => FsspecDataset.StatReads host uri parts
  | sql a => SqlDataset.ReferenceReads host.rules host.conv a uri (host.connect a) fun _ => none

/-- What `open` asks for is answered, and what it writes is written. -/
def OpenReads (host : Host ν) (uri : String) (parts : UrlSplit.Reference) : Adapter → Prop
  | file _ => True
  | http a => a.OpenReads host uri
  | s3 a => a.OpenReads host uri
  | gcs a => a.OpenReads host uri
  | fsspec _ => FsspecDataset.OpenReads host uri parts
  | sql a => host.disk 0 = none ∧ SqlDataset.ReferenceReads host.rules host.conv a uri (host.connect a) host.disk

variable {a : Adapter}

theorem keeps_check (hparts : UrlSplit.reference? host.rules.nfkc uri.toList = some parts) :
    Keeps NotAllowed (a.check host uri) ↔ a.CheckReads parts := by
  cases a with
  | file a => exact FileDataset.keeps_check hparts
  | http a => exact iff_of_true (HttpDataset.keeps_check hparts) trivial
  | s3 a =>
    refine iff_of_true ?_ trivial
    exact keeps_map.mpr (keeps_inBuckets hparts)
  | gcs a =>
    refine iff_of_true ?_ trivial
    exact keeps_map.mpr (keeps_inBuckets hparts)
  | fsspec a => exact iff_of_true FsspecDataset.keeps_check trivial
  | sql a => exact SqlDataset.keeps_check hparts

theorem keeps_stat (hparts : UrlSplit.reference? host.rules.nfkc uri.toList = some parts)
    (haccepted : a.check host uri = .ok ()) :
    Keeps Framework (a.stat host uri) ↔ a.StatReads host uri parts := by
  cases a with
  | file a => exact iff_of_true (FileDataset.keeps_stat haccepted) trivial
  | http a => exact HttpDataset.keeps_stat haccepted
  | s3 a => exact S3Dataset.keeps_stat haccepted
  | gcs a => exact GcsDataset.keeps_stat haccepted
  | fsspec a => exact FsspecDataset.keeps_stat hparts haccepted
  | sql a => exact SqlDataset.keeps_stat haccepted

theorem keeps_open (hparts : UrlSplit.reference? host.rules.nfkc uri.toList = some parts)
    (haccepted : a.check host uri = .ok ()) :
    Keeps Framework (a.open host uri) ↔ a.OpenReads host uri parts := by
  cases a with
  | file a => exact iff_of_true (FileDataset.keeps_open haccepted) trivial
  | http a => exact HttpDataset.keeps_open haccepted
  | s3 a => exact S3Dataset.keeps_open haccepted
  | gcs a => exact GcsDataset.keeps_open haccepted
  | fsspec a => exact FsspecDataset.keeps_open hparts haccepted
  | sql a => exact SqlDataset.keeps_open haccepted

end Adapter

/-- `backend_for` and `check` raise a DataSourceNotAllowedError if anything, and `stat` and `open`
of a URI that is accepted an error of the framework. -/
structure FailsAsDeclared (host : Host ν) (backends : List Adapter) (uri : String) : Prop where
  backend : Keeps NotAllowed (backendFor host uri backends)
  check : ∀ a ∈ backends, Keeps NotAllowed (a.check host uri)
  stat : ∀ a ∈ backends, a.check host uri = .ok () → Keeps Framework (a.stat host uri)
  «open» : ∀ a ∈ backends, a.check host uri = .ok () → Keeps Framework (a.open host uri)

variable {backends : List Adapter}

theorem keeps_firstAccepting {scheme : String} {otherwise : AdaptationError}
    (hchecks : ∀ a ∈ backends, Keeps NotAllowed (a.check host uri))
    (hotherwise : NotAllowed otherwise) : Keeps NotAllowed (firstAccepting host uri scheme otherwise backends) := by
  induction backends generalizing otherwise with
  | nil => exact keeps_error.mpr hotherwise
  | cons a rest ih =>
    have hrest := fun b hb => hchecks b (.tail _ hb)
    rw [firstAccepting]
    split
    · exact ih hrest hotherwise
    · split
      · exact keeps_ok _
      · rename_i e he
        have hnot : NotAllowed e := hchecks a (.head _) e he
        rw [if_pos hnot]
        exact ih hrest hnot

theorem keeps_backendFor (hchecks : ∀ a ∈ backends, Keeps NotAllowed (a.check host uri)) :
    Keeps NotAllowed (backendFor host uri backends) ↔ UrlSplit.reference? host.rules.nfkc uri.toList ≠ none := by
  rw [backendFor, splitUri, keeps_bind_orRaise (not_notAllowed_python _), and_iff_left]
  intro parts _
  exact keeps_firstAccepting hchecks rfl

theorem failsAsDeclared_iff : FailsAsDeclared host backends uri ↔
    ∃ parts, UrlSplit.reference? host.rules.nfkc uri.toList = some parts ∧
      ∀ a ∈ backends, a.CheckReads parts ∧ (a.check host uri = .ok () → a.StatReads host uri parts ∧
        a.OpenReads host uri parts) := by
  constructor
  · intro h
    obtain ⟨parts, hparts⟩ := Option.ne_none_iff_exists'.mp ((keeps_backendFor h.check).mp h.backend)
    refine ⟨parts, hparts, ?_⟩
    intro a ha
    refine ⟨(Adapter.keeps_check hparts).mp (h.check a ha), ?_⟩
    intro haccepted
    exact ⟨(Adapter.keeps_stat hparts haccepted).mp (h.stat a ha haccepted),
      (Adapter.keeps_open hparts haccepted).mp (h.open a ha haccepted)⟩
  · intro h
    obtain ⟨parts, hparts, h⟩ := h
    have hchecks : ∀ a ∈ backends, Keeps NotAllowed (a.check host uri) := by
      intro a ha
      exact (Adapter.keeps_check hparts).mpr (h a ha).1
    refine ⟨(keeps_backendFor hchecks).mpr (by simp [hparts]), hchecks, ?_, ?_⟩
    · intro a ha haccepted
      exact (Adapter.keeps_stat hparts haccepted).mpr ((h a ha).2 haccepted).1
    · intro a ha haccepted
      exact (Adapter.keeps_open hparts haccepted).mpr ((h a ha).2 haccepted).2

end

def offline : Host Unit where
  rules := RankpiBounds.plainRules
  conv := RankpiBounds.noConversions
  lower := id
  isdigit _ := false
  jsonStr _ := ""
  truncate _ := .error "OverflowError"
  sha256 _ := ""
  realpath path := [String.ofList path]
  fileStat _ := .error .notFound
  readFile _ := .error .notFound
  disk _ := none
  http _ := .error (.caught "ConnectError")
  headObject _ := .error (.caught ⟨"", "EndpointConnectionError"⟩)
  getObject _ := .error (.caught ⟨"", "EndpointConnectionError"⟩)
  gcsToken := .ok none
  filesystem _ := .ok ()
  fsInfo _ := .error (.caught .notFound)
  fsOpen _ := .error (.caught .notFound)
  connect _ _ := .error (.dbapi "OperationalError")

/-- `urlsplit` raises a ValueError for a bracket that is not closed. -/
theorem bracket_escapes : ¬ ∀ (ν : Type) (host : Host ν) (backends : List Adapter) (uri : String),
    FailsAsDeclared host backends uri := by
  intro h
  have hsplit : UrlSplit.reference? offline.rules.nfkc "https://[data/u.csv".toList = none := by decide
  have hraised : backendFor offline "https://[data/u.csv" [.file ⟨[["data"]]⟩] = .error (pythonError "ValueError") := by
    rw [backendFor, splitUri, hsplit]
    rfl
  exact not_notAllowed_python _ ((h Unit offline _ _).backend _ hraised)

end Datasets

end OranAdapt
