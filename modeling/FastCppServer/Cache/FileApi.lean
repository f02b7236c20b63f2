import FastCppServer.Cache.Contents

/-!
# The file service

`FileApiController.cpp`: what the HTTP endpoints make of a request before the cache sees it, and of
the cache's answer before the client does. A request comes down to at most one operation of the
cache (`Request.op`, `handle_provider`), so that what is proved of runs of operations holds of runs
of requests. To the client the service is the store of `Contents`: `service_run` says so over all
runs of requests, the answers that are given (`Answers`) and the answers that are not, because a
name that is no UTF-8 cannot be put into the body.
-/

namespace MyCache

open FileTree Function Transition

namespace FileApi

/-! ## Names -/

/-- `c_str()` of a field, which a NUL ends. -/
def cStr (s : List Char) : List Char := s.takeWhile (· ≠ nul)

/-- What `getline` reads up to each slash: nothing after the last one. -/
def segments (filename : List Char) : Path :=
  if (pieces filename).getLast? = some [] then (pieces filename).dropLast else pieces filename

/-- `ValidateFilename`: the message of the check that fails. -/
def validateFilename (filename : List Char) : Option String :=
  if filename = [] then some "filename 不能为空"
  else if 1024 < filename.length then some "filename 长度超过 1024 字符限制"
  else if nul ∈ filename then some "filename 包含非法空字符"
  else if '\\' ∈ filename then some "filename 不允许包含反斜杠 '\\'"
  else if filename.head? = some '/' then some "filename 不允许以 '/' 开头"
  else if (segments filename).any (· = ['.', '.']) then some "filename 包含非法路径穿越组件 '..'"
  else none

/-! ## Answers -/

/-- `CacheErrorToHttpCode`, of the codes that are errors. -/
def cacheErrorToHttpCode : CacheErrorCode → Nat
  | .notInitialized => 500
  | .pathTraversal => 403
  | .fileNotFound => 404
  | .fileAlreadyExists => 409
  | .ioError => 500
  | .invalidArgument => 400
  | .createDirFailed => 500
  | .fileTooLarge => 413

/-- `CacheErrorCodeToString`. -/
def cacheErrorCodeToString : CacheErrorCode → String
  | .notInitialized => "NotInitialized"
  | .pathTraversal => "PathTraversal"
  | .fileNotFound => "FileNotFound"
  | .fileAlreadyExists => "FileAlreadyExists"
  | .ioError => "IoError"
  | .invalidArgument => "InvalidArgument"
  | .createDirFailed => "CreateDirFailed"
  | .fileTooLarge => "FileTooLarge"

/-- The `data` of an answer. -/
inductive Data where
  | none
  | uploaded (filename : List Char) (size : Nat)
  | queried (isThere : Bool) (filename : List Char) (fullPath : Option (List Char))
  | deleted (filename : List Char)
  | listed (folderPath : List Char) (files : List FileInfo) (total : Nat)
  | created (folderPath newFolderName createdPath : List Char)
  | status (status : CacheStatus)
  deriving DecidableEq

/-- The texts of the data that are not the code's own. -/
def Data.texts : Data → List (List Char)
  | .none | .status _ => []
  | .uploaded filename _ | .deleted filename => [filename]
  | .queried _ filename fullPath => filename :: fullPath.toList
  | .listed folderPath files _ => folderPath :: files.flatMap fun info => [info.name, info.type]
  | .created folderPath newFolderName createdPath => [folderPath, newFolderName, createdPath]

/-- The body of an answer. -/
structure Response where
  success : Bool
  code : Nat
  message : String
  data : Data := .none
  /-- The texts of the code's own among the details. -/
  notes : List (String × String) := []
  /-- The others. -/
  details : List (String × List Char) := []
  deriving DecidableEq

/-- `JsonOk`. -/
def jsonOk (data : Data) (message : String) : Response :=
  { success := true, code := 200, message, data }

/-- `JsonError`, with its notes and the fields that come from the request. -/
def jsonError (code : Nat) (message : String) (notes : List (String × String))
    (details : List (String × List Char)) : Response :=
  { success := false, code, message, notes, details }

/-- `mapStatusCode`: the status of the answer. -/
def mapStatusCode (code : Nat) : Nat :=
  if code ∈ [200, 201, 202, 204, 400, 401, 403, 404, 409, 413, 422, 503, 500] then code else 500

/-- The body as it is sent: `dump` throws where a text is no UTF-8. -/
def Response.sent (utf8 : List Char → Bool) (r : Response) : Option (Nat × Response) :=
  if r.data.texts.all utf8 ∧ (r.details.map Prod.snd).all utf8 then some (mapStatusCode r.code, r)
  else none

/-! ## The endpoints -/

/-- `MyCacheProvider`: the instance, which is there between `Init` and `Destroy`. -/
abbrev Provider := Option Cache

/-- `MyCacheProvider::Get`. -/
def get (p : Provider) : CacheResult Cache :=
  match p with
  | some c => if c.status = .running then .ok c else .error .notInitialized
  | none => .error .notInitialized

/-- The answer when there is no cache. -/
def notProvided (e : CacheErrorCode) : Response :=
  jsonError (cacheErrorToHttpCode e) "文件缓存服务未初始化" [("error_code", cacheErrorCodeToString e)] []

/-- `uploadFile`. The decoding is of the library, which throws or gives the bytes. -/
def uploadFile (decode : List Char → Option (List UInt8)) (p : Provider)
    (filename data : Option (List Char)) (f : Faults) (now : Int) : Provider × Response :=
  match filename, data with
  | some filename, some data =>
    let filename := cStr filename
    match validateFilename filename with
    | some err => (p, jsonError 400 "filename 校验失败" [("detail", err)] [])
    | none =>
      if data = [] then (p, jsonError 400 "缺少必需字段 data 或类型错误" [] [])
      else if cStr data = [] then (p, jsonError 400 "data 字段不能为空" [] [])
      else match decode (cStr data) with
        | none => (p, jsonError 400 "data 字段 Base64 解码失败" [] [])
        | some [] => (p, jsonError 400 "data 字段 Base64 解码后为空" [] [])
        | some (b :: bs) =>
          match get p with
          | .error e => (p, notProvided e)
          | .ok c =>
            match saveFile c filename (b :: bs) f now with
            | (c', .error e) => (some c', jsonError (cacheErrorToHttpCode e) "文件保存失败"
                [("error_code", cacheErrorCodeToString e)] [("filename", filename)])
            | (c', .ok ()) => (some c', jsonOk (.uploaded filename (b :: bs).length) "文件上传成功")
  | _, _ => (p, jsonError 400 "缺少必需字段 filename 或类型错误" [] [])

/-- A part of a multipart body; the payload may be none, or not be in memory. -/
structure Part where
  payload : Option (Option (List UInt8))
  filename : Option (List Char)

/-- `PartToBytes`. -/
def Part.toBytes (part : Part) : List UInt8 := (part.payload.bind id).getD []

/-- `PartToString`, of a part that may be missing. -/
def partToString : Option Part → List Char
  | none => []
  | some part => part.toBytes.map fun b => Char.ofNat b.toNat

/-- What the reading of a multipart body comes to. -/
inductive Multipart where
  | httpError (code : Nat) (what : List Char)
  | exception (what : List Char)
  | parts (file fileName : Option Part)

/-- `IsMultipartFormData`. -/
def isMultipartFormData : Option (List Char) → Bool
  | none => false
  | some contentType => "multipart/form-data".toList <:+: cStr contentType

/-- `uploadLocalFile`. -/
def uploadLocalFile (p : Provider) (contentType : Option (List Char)) (body : Multipart)
    (f : Faults) (now : Int) : Provider × Response :=
  if ¬ isMultipartFormData contentType then
    (p, jsonError 400 "Content-Type 必须为 multipart/form-data" [] [])
  else match get p with
  | .error e => (p, notProvided e)
  | .ok c =>
    match body with
    | .httpError code what => (p, jsonError code "multipart 请求解析失败" [] [("detail", what)])
    | .exception what => (p, jsonError 400 "multipart 请求解析失败" [] [("detail", what)])
    | .parts none _ => (p, jsonError 400 "缺少必需文件字段 file" [] [])
    | .parts (some file) fileNamePart =>
      let given := partToString fileNamePart
      let fileName := if given = [] then file.filename.getD [] else given
      match validateFilename fileName with
      | some err => (p, jsonError 400 "file_name 校验失败" [("detail", err)] [])
      | none =>
        if file.payload = none then (p, jsonError 400 "上传文件内容为空" [] [])
        else match saveFile c fileName file.toBytes f now with
          | (c', .error e) => (some c', jsonError (cacheErrorToHttpCode e) "文件导入失败"
              [("error_code", cacheErrorCodeToString e)] [("file_name", fileName)])
          | (c', .ok ()) =>
            (some c', jsonOk (.uploaded fileName file.toBytes.length) "文件导入成功")

/-- `GetFullPath`. -/
def getFullPath (c : Cache) (name : List Char) : CacheResult (List Char) :=
  (validatePath c name).map Path.string

/-- `queryFile`. -/
def queryFile (p : Provider) (filename : Option (List Char)) : Response :=
  match filename with
  | none => jsonError 400 "缺少必需字段 filename 或类型错误" [] []
  | some filename =>
    let filename := cStr filename
    match validateFilename filename with
    | some err => jsonError 400 "filename 校验失败" [("detail", err)] []
    | none =>
      match get p with
      | .error e => notProvided e
      | .ok c =>
        match existsFile c filename with
        | .error e => jsonError (cacheErrorToHttpCode e) "文件查询失败"
            [("error_code", cacheErrorCodeToString e)] []
        | .ok isThere =>
          let fullPath := if isThere then (getFullPath c filename).toOption else none
          jsonOk (.queried isThere filename fullPath) "查询成功"

/-- The endpoint `deleteFile`. -/
def deleteEndpoint (p : Provider) (filename : Option (List Char)) (removeFails : Bool) :
    Provider × Response :=
  match filename with
  | none => (p, jsonError 400 "缺少必需字段 filename 或类型错误" [] [])
  | some filename =>
    let filename := cStr filename
    match validateFilename filename with
    | some err => (p, jsonError 400 "filename 校验失败" [("detail", err)] [])
    | none =>
      match get p with
      | .error e => (p, notProvided e)
      | .ok c =>
        match deleteFile c filename removeFails with
        | (c', .error e) => (some c', jsonError (cacheErrorToHttpCode e) "文件删除失败"
            [("error_code", cacheErrorCodeToString e)] [("filename", filename)])
        | (c', .ok ()) => (some c', jsonOk (.deleted filename) "文件删除成功")

/-- The path of a folder as an answer has it. -/
def folderText (c : Cache) (folder : List Char) : List Char :=
  if folder = [] then (plain c.root).string else folder

/-- `listFiles`. The environment decides what the iteration meets. -/
def listFiles (p : Provider) (folder : Option (List Char)) (iterate : Path → List (List Entry)) :
    Response :=
  let folder := (folder.map cStr).getD []
  match get p with
  | .error e => notProvided e
  | .ok c =>
    match getFileList c folder iterate with
    | .error e => jsonError (cacheErrorToHttpCode e) "获取文件列表失败"
        [("error_code", cacheErrorCodeToString e)] [("folder_path", folder)]
    | .ok files => jsonOk (.listed (folderText c folder) files files.length) "查询成功"

/-- `createFolder`. -/
def createFolder (p : Provider) (folder newFolder : Option (List Char)) (mkdirFails : Bool) :
    Provider × Response :=
  match newFolder with
  | none | some [] => (p, jsonError 400 "缺少必需字段 new_folder_name 或类型错误" [] [])
  | some (ch :: chs) =>
    let folder := (folder.map cStr).getD []
    let newFolder := cStr (ch :: chs)
    match get p with
    | .error e => (p, notProvided e)
    | .ok c =>
      match createSubdirectory c folder newFolder mkdirFails with
      | (c', .error e) => (some c', jsonError (cacheErrorToHttpCode e) "创建子目录失败"
          [("error_code", cacheErrorCodeToString e)]
          [("folder_path", folder), ("new_folder_name", newFolder)])
      | (c', .ok path) =>
        (some c', jsonOk (.created (folderText c folder) newFolder path) "创建子目录成功")

/-- `cacheStatus`. -/
def cacheStatus (p : Provider) : Response :=
  match get p with
  | .error _ => jsonOk (.status .notInitialized) "查询成功"
  | .ok c => jsonOk (.status c.status) "查询成功"

/-- A request, with what the environment decides under it. -/
inductive Request where
  | upload (filename data : Option (List Char)) (f : Faults) (now : Int)
  | uploadLocal (contentType : Option (List Char)) (body : Multipart) (f : Faults) (now : Int)
  | query (filename : Option (List Char))
  | delete (filename : Option (List Char)) (removeFails : Bool)
  | list (folder : Option (List Char)) (iterate : Path → List (List Entry))
  | createFolder (folder newFolder : Option (List Char)) (mkdirFails : Bool)
  | status

/-- **A request**, as the endpoint of it handles it. -/
def handle (decode : List Char → Option (List UInt8)) (p : Provider) : Request → Provider × Response
  | .upload filename data f now => uploadFile decode p filename data f now
  | .uploadLocal contentType body f now => uploadLocalFile p contentType body f now
  | .query filename => (p, queryFile p filename)
  | .delete filename removeFails => deleteEndpoint p filename removeFails
  | .list folder iterate => (p, listFiles p folder iterate)
  | .createFolder folder newFolder mkdirFails => FileApi.createFolder p folder newFolder mkdirFails
  | .status => (p, cacheStatus p)

/-! ## The checks of a name -/

/-- `..` is a segment of a name if it is one of its pieces. -/
theorem up_mem_segments {filename : List Char} :
    ['.', '.'] ∈ segments filename ↔ ['.', '.'] ∈ pieces filename := by
  rw [segments]
  split
  · next h =>
    constructor
    · exact List.mem_of_mem_dropLast
    · intro hmem
      obtain ⟨init, hinit⟩ : ∃ init, pieces filename = init ++ [[]] :=
        ⟨_, (List.dropLast_append_getLast? _ h).symm⟩
      rw [hinit, List.mem_append, List.mem_singleton] at hmem
      rw [hinit, List.dropLast_concat]
      exact hmem.resolve_right (by simp)
  · rfl

/-- What `ValidateFilename` lets through. -/
theorem validateFilename_none {filename : List Char} (h : validateFilename filename = none) :
    filename ≠ [] ∧ nul ∉ filename ∧ filename.head? ≠ some '/' ∧
      ['.', '.'] ∉ pieces filename := by
  rw [validateFilename] at h
  split_ifs at h with hempty hlong hnul hback hslash hup
  refine ⟨hempty, hnul, hslash, fun hmem => hup ?_⟩
  exact List.any_eq_true.2 ⟨_, up_mem_segments.2 hmem, decide_eq_true rfl⟩

/-- Without a piece that goes up, the pieces lead further down. -/
theorem foldl_normalStep_prefix {path acc : Path} (h : ['.', '.'] ∉ path) :
    acc <+: path.foldl normalStep acc := by
  induction path generalizing acc with
  | nil => exact List.prefix_rfl
  | cons d path ih =>
    obtain ⟨hd, hpath⟩ := not_or.1 (mt List.mem_cons.2 h)
    refine List.IsPrefix.trans ?_ (ih hpath)
    rw [normalStep]
    split
    · exact List.prefix_rfl
    · rw [if_neg (Ne.symm hd)]
      exact List.prefix_append _ _

variable {c : Cache}

/-- Names that the cache may refuse though they pass the checks: a name that is not canonical may
come back to the root, and a long one may be too long under the root. -/
def Unsuitable (root : List Entry) (filename : List Char) : Prop :=
  ¬ Canonical filename ∨ LongPath (join root filename)

/-- A name that passes the checks is refused by the cache only where it comes back to the root, or
where it is too long. -/
theorem validatePath_of_valid (hrun : c.status = .running) (hroot : c.root ≠ [])
    {filename : List Char} (h : validateFilename filename = none) :
    (∃ full, validatePath c filename = .ok full) ∨
      (validatePath c filename = .error .invalidArgument ∧ Unsuitable c.root filename) := by
  obtain ⟨hne, hnul, hhead, hup⟩ := validateFilename_none h
  by_cases hlong : tooLong c.tree (join c.root filename) = true
  · refine .inr ⟨?_, .inr (longPath_of_tooLong (nul_notMem_join hnul) hlong)⟩
    rw [validatePath, if_neg hne, if_neg (not_not.2 hrun), if_pos hlong]
  have hlexical : plain c.root <+: lexical c.root filename := by
    rw [lexical, join, if_neg hhead, List.foldl_append, foldl_normalStep_plain, List.nil_append]
    exact foldl_normalStep_prefix hup
  have hinside := (canonical_denotes (c := c) hnul).prefix_iff.2 hlexical
  by_cases hself : weaklyCanonical c.tree (join c.root filename) = plain c.root
  · refine .inr ⟨?_, .inl fun hn => ?_⟩
    · have hin : isPathInsideRoot (plain c.root) (plain c.root) = true :=
        isPathInsideRoot_iff.2 (.inl rfl)
      rw [validatePath, if_neg hne, if_neg (not_not.2 hrun), if_neg hlong, hself]
      dsimp only
      rw [if_neg (not_not.2 hin), if_pos rfl]
    · rw [hn.join, weaklyCanonical_plain] at hself
      exact hn.entries_ne_nil (by simpa using plain_injective hself)
  · exact .inl ⟨_, (validatePath_iff hrun hroot hne).2
      ⟨Bool.eq_false_iff.2 hlong, rfl, hinside, hself⟩⟩

/-! ## The operation of a request -/

/-- The operation of the cache that a request comes down to, once its checks are passed. -/
inductive Issues (decode : List Char → Option (List UInt8)) : Request → Op → Prop where
  | upload {filename data f now b bs} (hname : validateFilename (cStr filename) = none)
      (hdata : data ≠ []) (htext : cStr data ≠ []) (hdecode : decode (cStr data) = some (b :: bs)) :
      Issues decode (.upload (some filename) (some data) f now)
        (.save (cStr filename) (b :: bs) f now)
  | uploadLocal {contentType file given fileName f now}
      (htype : isMultipartFormData contentType = true)
      (hfile : fileName =
        if partToString given = [] then file.filename.getD [] else partToString given)
      (hname : validateFilename fileName = none) (hpayload : file.payload ≠ none) :
      Issues decode (.uploadLocal contentType (.parts (some file) given) f now)
        (.save fileName file.toBytes f now)
  | delete {filename removeFails} (hname : validateFilename (cStr filename) = none) :
      Issues decode (.delete (some filename) removeFails) (.delete (cStr filename) removeFails)
  | createFolder {folder ch chs mkdirFails} :
      Issues decode (.createFolder folder (some (ch :: chs)) mkdirFails)
        (.createSubdirectory ((folder.map cStr).getD []) (cStr (ch :: chs)) mkdirFails)

/-- What an answer tells of the call it was made from. -/
def Reports (c : Cache) (op : Op) (a : Response) : Prop :=
  match c.returns op with
  | .error e => a.success = false ∧ a.code = cacheErrorToHttpCode e
  | .ok () => a.success = true ∧ a.code = 200 ∧
    match op with
    | .save name data _ _ => a.data = .uploaded name data.length
    | .delete name _ => a.data = .deleted name
    | .createSubdirectory .. => ∃ folder newFolder path, a.data = .created folder newFolder path
    | .refresh => False

/-- A request that comes down to an operation, and what the endpoint makes of it. -/
def Acts (decode : List Char → Option (List UInt8)) (c : Cache) (r : Request)
    (out : Provider × Response) : Prop :=
  ∃ op, Issues decode r op ∧ out.1 = some (c.apply op) ∧ Reports c op out.2

/-- A request that changes nothing, whatever it is answered. -/
inductive Reading : Request → Prop where
  | query {filename} : Reading (.query filename)
  | list {folder iterate} : Reading (.list folder iterate)
  | status : Reading .status

/-- A request for a change that is turned away. -/
def Refused (decode : List Char → Option (List UInt8)) (c : Cache) (r : Request)
    (out : Provider × Response) : Prop :=
  out.1 = some c ∧ ¬ Reading r ∧ (∀ op, ¬ Issues decode r op) ∧ out.2.success = false

/-- A running cache is provided. -/
theorem get_running (hrun : c.status = .running) : get (some c) = .ok c := if_pos hrun

variable {decode : List Char → Option (List UInt8)}

/-- The answer to a save tells what the save has returned. -/
theorem reports_save {name : List Char} {data : List UInt8} {f : Faults} {now : Int}
    (message message' : String) (details : List (String × List Char)) :
    ∀ out : Cache × CacheResult Unit, saveFile c name data f now = out →
      Reports c (.save name data f now) (match out with
        | (_, .error e) => jsonError (cacheErrorToHttpCode e) message
            [("error_code", cacheErrorCodeToString e)] details
        | (_, .ok ()) => jsonOk (.uploaded name data.length) message')
  | (c', .error e), h => by
    rw [Reports, Cache.returns, h]
    exact ⟨rfl, rfl⟩
  | (c', .ok ()), h => by
    rw [Reports, Cache.returns, h]
    exact ⟨rfl, rfl, rfl⟩

/-- An upload is to change something. -/
theorem not_reading_upload {filename data : Option (List Char)} {f : Faults} {now : Int} :
    ¬ Reading (.upload filename data f now) := by
  intro h
  cases h

/-- So is the upload of a local file. -/
theorem not_reading_uploadLocal {contentType : Option (List Char)} {body : Multipart} {f : Faults}
    {now : Int} : ¬ Reading (.uploadLocal contentType body f now) := by
  intro h
  cases h

/-- So is a deletion. -/
theorem not_reading_delete {filename : Option (List Char)} {removeFails : Bool} :
    ¬ Reading (.delete filename removeFails) := by
  intro h
  cases h

/-- So is a new folder. -/
theorem not_reading_createFolder {folder newFolder : Option (List Char)} {mkdirFails : Bool} :
    ¬ Reading (.createFolder folder newFolder mkdirFails) := by
  intro h
  cases h

/-- An upload comes down to a save, or it is refused. -/
theorem uploadFile_running (hrun : c.status = .running) (filename data : Option (List Char))
    (f : Faults) (now : Int) :
    Acts decode c (.upload filename data f now) (uploadFile decode (some c) filename data f now) ∨
      Refused decode c (.upload filename data f now)
        (uploadFile decode (some c) filename data f now) := by
  cases filename with
  | none => exact .inr ⟨rfl, not_reading_upload, fun op h => (by cases h), rfl⟩
  | some filename =>
  cases data with
  | none => exact .inr ⟨rfl, not_reading_upload, fun op h => (by cases h), rfl⟩
  | some data =>
  rw [uploadFile]
  cases hname : validateFilename (cStr filename) with
  | some err =>
    refine .inr ⟨rfl, not_reading_upload, fun op h => ?_, rfl⟩
    cases h with
    | upload hname' => cases hname'.symm.trans hname
  | none =>
  dsimp only
  split
  · next hdata =>
    refine .inr ⟨rfl, not_reading_upload, fun op h => ?_, rfl⟩
    cases h with
    | upload _ hdata' => exact hdata' hdata
  · next hdata =>
  split
  · next htext =>
    refine .inr ⟨rfl, not_reading_upload, fun op h => ?_, rfl⟩
    cases h with
    | upload _ _ htext' => exact htext' htext
  · next htext =>
  match hdecode : decode (cStr data) with
  | none =>
    refine .inr ⟨rfl, not_reading_upload, fun op h => ?_, rfl⟩
    cases h with
    | upload _ _ _ hdecode' => cases hdecode'.symm.trans hdecode
  | some [] =>
    refine .inr ⟨rfl, not_reading_upload, fun op h => ?_, rfl⟩
    cases h with
    | upload _ _ _ hdecode' => cases hdecode'.symm.trans hdecode
  | some (b :: bs) =>
    refine .inl ⟨_, .upload hname hdata htext hdecode, ?_, ?_⟩
    · dsimp only
      rw [get_running hrun, Cache.apply]
      dsimp only
      rcases saveFile c (cStr filename) (b :: bs) f now with ⟨c', e | ⟨⟩⟩ <;> rfl
    · dsimp only
      rw [get_running hrun]
      dsimp only
      have h := @reports_save c (cStr filename) (b :: bs) f now "文件保存失败" "文件上传成功"
        [("filename", cStr filename)] _ rfl
      rcases hsave : saveFile c (cStr filename) (b :: bs) f now with ⟨c', e | ⟨⟩⟩ <;>
        rw [hsave] at h <;> exact h

/-- The upload of a local file comes down to a save, or it is refused. -/
theorem uploadLocalFile_running (hrun : c.status = .running) (contentType : Option (List Char))
    (body : Multipart) (f : Faults) (now : Int) :
    Acts decode c (.uploadLocal contentType body f now)
        (uploadLocalFile (some c) contentType body f now) ∨
      Refused decode c (.uploadLocal contentType body f now)
        (uploadLocalFile (some c) contentType body f now) := by
  rw [uploadLocalFile, get_running hrun]
  split
  · next htype =>
    refine .inr ⟨rfl, not_reading_uploadLocal, fun op h => ?_, rfl⟩
    cases h with
    | uploadLocal htype' => exact htype htype'
  · next htype =>
  match body with
  | .httpError code what => exact .inr ⟨rfl, not_reading_uploadLocal, fun op h => (by cases h), rfl⟩
  | .exception what => exact .inr ⟨rfl, not_reading_uploadLocal, fun op h => (by cases h), rfl⟩
  | .parts none given => exact .inr ⟨rfl, not_reading_uploadLocal, fun op h => (by cases h), rfl⟩
  | .parts (some file) given =>
  dsimp only
  generalize hfile : (if partToString given = [] then file.filename.getD [] else
    partToString given) = fileName
  cases hname : validateFilename fileName with
  | some err =>
    refine .inr ⟨rfl, not_reading_uploadLocal, fun op h => ?_, rfl⟩
    cases h with
    | uploadLocal _ hfile' hname' =>
      rw [hfile', hfile] at hname'
      cases hname'.symm.trans hname
  | none =>
  dsimp only
  split
  · next hpayload =>
    refine .inr ⟨rfl, not_reading_uploadLocal, fun op h => ?_, rfl⟩
    cases h with
    | uploadLocal _ _ _ hpayload' => exact hpayload' hpayload
  · next hpayload =>
    refine .inl ⟨_, .uploadLocal (not_not.1 htype) hfile.symm hname hpayload, ?_, ?_⟩
    · rw [Cache.apply]
      rcases saveFile c fileName file.toBytes f now with ⟨c', e | ⟨⟩⟩ <;> rfl
    · have h := @reports_save c fileName file.toBytes f now "文件导入失败" "文件导入成功"
        [("file_name", fileName)] _ rfl
      rcases hsave : saveFile c fileName file.toBytes f now with ⟨c', e | ⟨⟩⟩ <;>
        rw [hsave] at h <;> exact h

/-- A deletion comes down to that of the cache, or it is refused. -/
theorem deleteEndpoint_running (hrun : c.status = .running) (filename : Option (List Char))
    (removeFails : Bool) :
    Acts decode c (.delete filename removeFails) (deleteEndpoint (some c) filename removeFails) ∨
      Refused decode c (.delete filename removeFails)
        (deleteEndpoint (some c) filename removeFails) := by
  cases filename with
  | none => exact .inr ⟨rfl, not_reading_delete, fun op h => (by cases h), rfl⟩
  | some filename =>
  rw [deleteEndpoint, get_running hrun]
  cases hname : validateFilename (cStr filename) with
  | some err =>
    refine .inr ⟨rfl, not_reading_delete, fun op h => ?_, rfl⟩
    cases h with
    | delete hname' => cases hname'.symm.trans hname
  | none =>
    refine .inl ⟨_, .delete hname, ?_, ?_⟩
    · rw [Cache.apply]
      dsimp only
      rcases deleteFile c (cStr filename) removeFails with ⟨c', e | ⟨⟩⟩ <;> rfl
    · rw [Reports, Cache.returns]
      dsimp only
      rcases deleteFile c (cStr filename) removeFails with ⟨c', e | ⟨⟩⟩
      · exact ⟨rfl, rfl⟩
      · exact ⟨rfl, rfl, rfl⟩

/-- A new folder comes down to that of the cache, or it is refused. -/
theorem createFolder_running (hrun : c.status = .running) (folder newFolder : Option (List Char))
    (mkdirFails : Bool) :
    Acts decode c (.createFolder folder newFolder mkdirFails)
        (createFolder (some c) folder newFolder mkdirFails) ∨
      Refused decode c (.createFolder folder newFolder mkdirFails)
        (createFolder (some c) folder newFolder mkdirFails) := by
  match newFolder with
  | none => exact .inr ⟨rfl, not_reading_createFolder, fun op h => (by cases h), rfl⟩
  | some [] => exact .inr ⟨rfl, not_reading_createFolder, fun op h => (by cases h), rfl⟩
  | some (ch :: chs) =>
    rw [createFolder, get_running hrun]
    refine .inl ⟨_, .createFolder, ?_, ?_⟩
    · rw [Cache.apply]
      dsimp only
      rcases createSubdirectory c ((folder.map cStr).getD []) (cStr (ch :: chs)) mkdirFails with
        ⟨c', e | path⟩ <;> rfl
    · rw [Reports, Cache.returns]
      dsimp only
      rcases createSubdirectory c ((folder.map cStr).getD []) (cStr (ch :: chs)) mkdirFails with
        ⟨c', e | path⟩
      · exact ⟨rfl, rfl⟩
      · exact ⟨rfl, rfl, _, _, _, rfl⟩

/-- **A request is at most one operation.** Where the service runs, a request that passes its checks
is one operation of the cache, and its answer reports the outcome; one that does not is answered by
an error, and the others only read. -/
theorem handle_running (hrun : c.status = .running) (r : Request) :
    Acts decode c r (handle decode (some c) r) ∨ Refused decode c r (handle decode (some c) r) ∨
      (Reading r ∧ (handle decode (some c) r).1 = some c) := by
  cases r with
  | upload filename data f now => exact (uploadFile_running hrun _ _ _ _).imp_right .inl
  | uploadLocal contentType body f now =>
    exact (uploadLocalFile_running hrun _ _ _ _).imp_right .inl
  | query filename => exact .inr (.inr ⟨.query, rfl⟩)
  | delete filename removeFails => exact (deleteEndpoint_running hrun _ _).imp_right .inl
  | list folder iterate => exact .inr (.inr ⟨.list, rfl⟩)
  | createFolder folder newFolder mkdirFails =>
    exact (createFolder_running hrun _ _ _).imp_right .inl
  | status => exact .inr (.inr ⟨.status, rfl⟩)

/-! ## Errors -/

/-- How a save can fail. -/
theorem saveFile_error {name : List Char} {data : List UInt8} {f : Faults} {now : Int}
    {e : CacheErrorCode} (h : (saveFile c name data f now).2 = .error e) :
    validatePath c name = .error e ∨ e = .fileTooLarge ∨ e = .createDirFailed ∨ e = .ioError := by
  rw [saveFile] at h
  cases hv : validatePath c name with
  | error e' =>
    rw [hv] at h
    exact .inl (congrArg _ (Except.error.inj h))
  | ok full =>
    rw [hv] at h
    dsimp only at h
    split at h
    · exact .inr (.inl (Except.error.inj h).symm)
    split at h
    · exact .inr (.inr (.inl (Except.error.inj h).symm))
    next t ht =>
    have hends := saveTmp_ends (t := t) (validatePath_normal hv) data f now
    split at h
    next t' err hs =>
      rw [hs] at hends
      obtain rfl := Except.error.inj h
      cases hends <;> exact .inr (.inr (.inr rfl))
    next => cases h

/-- How a deletion can fail. -/
theorem deleteFile_error {name : List Char} {removeFails : Bool} {e : CacheErrorCode}
    (h : (deleteFile c name removeFails).2 = .error e) :
    validatePath c name = .error e ∨ ∃ full, validatePath c name = .ok full ∧
      ((e = .fileNotFound ∧ pathExists c.tree full = false) ∨
        (e = .ioError ∧ (removeFails = true ∨ removePath c.tree full = none))) := by
  rw [deleteFile] at h
  cases hv : validatePath c name with
  | error e' =>
    rw [hv] at h
    exact .inl (congrArg _ (Except.error.inj h))
  | ok full =>
    rw [hv] at h
    dsimp only at h
    refine .inr ⟨full, rfl, ?_⟩
    split at h
    · next hexists => exact .inl ⟨(Except.error.inj h).symm, by simpa using hexists⟩
    split at h
    next hr =>
      refine .inr ⟨(Except.error.inj h).symm, ?_⟩
      split at hr
      · next hfails => exact .inl hfails
      · exact .inr hr
    next => cases h

/-- A stored file is there, and can be removed. -/
theorem stored_removable {name : List Char} {full : Path} (hv : validatePath c name = .ok full)
    (hstored : (contents c name).isSome) :
    pathExists c.tree full = true ∧ removePath c.tree full ≠ none := by
  obtain ⟨hn, hfile⟩ := contents_isSome.1 hstored
  obtain ⟨i, hi⟩ := hfile
  obtain rfl := validatePath_canonical hv hn
  have hresolve :
      resolve c.tree (plain (c.root ++ entries name)) = some (c.root ++ entries name) := by
    rw [resolve_plain, hi]
    rfl
  have htarget := target_of_resolve hresolve ⟨i, hi⟩
  obtain ⟨t, ht⟩ := Tree.remove_file ⟨i, hi⟩
  refine ⟨?_, ?_⟩
  · rw [pathExists, status_plain, hi]
    rfl
  · rw [removePath_of_target (fun _ h => h) htarget (by simp [hi]), ht]
    simp

/-! ## The service as a store -/

/-- What a listing shows of a store: the names under the folder, in order, with their sizes. -/
structure Shows (root : List Entry) (store : Store) (d : List Entry) (files : List FileInfo) :
    Prop where
  ascending : (names files).Pairwise (· < ·)
  mem_names : ∀ n, n ∈ names files ↔ (store n).isSome ∧ d <+: root ++ entries n
  described : ∀ info ∈ files, ∃ data, store info.name = some data ∧ info.size = data.length ∧
    info.type = getFileExtension info.name

/-- Why a request may fail that passed its checks: a save for its name, its size or the disk, and a
deletion for a name that is not canonical or is long, a file that is not stored, or the disk. -/
def Excused (root : List Entry) (store : Store) (op : Op) (code : Nat) : Prop :=
  match op with
  | .save name .. => (code = 400 ∧ Unsuitable root name) ∨ code = 413 ∨ code = 500
  | .delete name removeFails =>
    (code = 400 ∧ Unsuitable root name) ∨ (code = 404 ∧ store name = none) ∨
      (code = 500 ∧ (removeFails = true ∨ store name = none))
  | _ => True

/-- The service as its clients see it: a request, its answer, and the store before and after. -/
inductive Serves (decode : List Char → Option (List UInt8)) (root : List Entry) (store : Store) :
    Request → Response → Store → Prop where
  | saved {r name data f now a} (hop : Issues decode r (.save name data f now))
      (hok : a.success = true ∧ a.code = 200 ∧ a.data = .uploaded name data.length) :
      Serves decode root store r a (update store name (some data))
  | deleted {r name removeFails a} (hop : Issues decode r (.delete name removeFails))
      (hok : a.success = true ∧ a.code = 200 ∧ a.data = .deleted name) :
      Serves decode root store r a (update store name none)
  | created {r folder newFolder mkdirFails a}
      (hop : Issues decode r (.createSubdirectory folder newFolder mkdirFails))
      (hok : a.success = true ∧ a.code = 200) : Serves decode root store r a store
  | failed {r a} (hfail : a.success = false)
      (hexcused : ∀ op, Issues decode r op → Excused root store op a.code)
      (hquery : ∀ filename, r = .query (some filename) →
        validateFilename (cStr filename) = none → Unsuitable root (cStr filename)) :
      Serves decode root store r a store
  | queried {filename} (hname : validateFilename (cStr filename) = none) :
      Serves decode root store (.query (some filename))
        (jsonOk (.queried (store (cStr filename)).isSome (cStr filename)
          (if (store (cStr filename)).isSome then
            some (plain (root ++ entries (cStr filename)) : Path).string else none)) "查询成功") store
  | listed {folder iterate text files d} (hd : plain d = lexical root ((folder.map cStr).getD []))
      (hfiles : Shows root store d files) :
      Serves decode root store (.list folder iterate)
        (jsonOk (.listed text files files.length) "查询成功") store
  | status {a} (hok : a = jsonOk (.status .running) "查询成功") :
      Serves decode root store .status a store

/-- A run of the service, as its clients see it. -/
inductive Served (decode : List Char → Option (List UInt8)) (root : List Entry) (store : Store) :
    List (Request × Response) → Store → Prop where
  | nil : Served decode root store [] store
  | snoc {log τ r a υ} (h : Served decode root store log τ) (hr : Serves decode root τ r a υ) :
      Served decode root store (log ++ [(r, a)]) υ

/-- What a request has to respect, as its operation; and its iterations are not cut short. -/
def CarefulRequest (decode : List Char → Option (List UInt8)) (p : Provider) (r : Request) : Prop :=
  ∀ c, p = some c → (∀ op, Issues decode r op → Careful c op) ∧
    ∀ folder iterate, r = .list folder iterate →
      ∀ path, Iterates c.tree path (iterate path) ∧ Complete c.tree path (iterate path)

/-! ## One request -/

/-- A request comes down to one operation. -/
theorem Issues.unique {r : Request} {op op' : Op} (h : Issues decode r op)
    (h' : Issues decode r op') : op' = op := by
  cases h with
  | upload _ _ _ hdecode =>
    cases h' with
    | upload _ _ _ hdecode' =>
      cases hdecode.symm.trans hdecode'
      rfl
  | uploadLocal _ hfile _ _ =>
    cases h' with
    | uploadLocal _ hfile' _ _ => rw [hfile, hfile']
  | delete _ =>
    cases h' with
    | delete _ => rfl
  | createFolder =>
    cases h' with
    | createFolder => rfl

/-- The name of a save or a deletion has passed the checks. -/
theorem Issues.valid {r : Request} {op : Op} (h : Issues decode r op) :
    match op with
    | .save name .. | .delete name _ => validateFilename name = none
    | _ => True := by
  cases h with
  | upload hname => exact hname
  | uploadLocal _ _ hname => exact hname
  | delete hname => exact hname
  | createFolder => trivial

/-- **An operation that fails has its excuse.** -/
theorem excused_of_error (hrun : c.status = .running) (hroot : c.root ≠ []) {r : Request} {op : Op}
    (hop : Issues decode r op) {e : CacheErrorCode} (he : c.returns op = .error e) :
    Excused c.root (contents c) op (cacheErrorToHttpCode e) := by
  have hvalid := hop.valid
  cases op with
  | save name data f now =>
    rcases saveFile_error he with hv | rfl | rfl | rfl
    · rcases validatePath_of_valid hrun hroot hvalid with ⟨full, hok⟩ | ⟨hinvalid, hname⟩
      · cases hok.symm.trans hv
      · cases hinvalid.symm.trans hv
        exact .inl ⟨rfl, hname⟩
    · exact .inr (.inl rfl)
    · exact .inr (.inr rfl)
    · exact .inr (.inr rfl)
  | delete name removeFails =>
    have hnone : ∀ {full}, validatePath c name = .ok full →
        pathExists c.tree full = false ∨ removePath c.tree full = none →
          contents c name = none := by
      intro full hv h
      rw [← Option.not_isSome_iff_eq_none]
      intro hstored
      obtain ⟨hexists, hremove⟩ := stored_removable hv hstored
      rcases h with h | h
      · cases h.symm.trans hexists
      · exact hremove h
    rcases deleteFile_error he with hv | ⟨full, hv, ⟨rfl, hexists⟩ | ⟨rfl, hfails⟩⟩
    · rcases validatePath_of_valid hrun hroot hvalid with ⟨full, hok⟩ | ⟨hinvalid, hn⟩
      · cases hok.symm.trans hv
      · cases hinvalid.symm.trans hv
        exact .inl ⟨rfl, hn⟩
    · exact .inr (.inl ⟨rfl, hnone hv (.inl hexists)⟩)
    · exact .inr (.inr ⟨rfl, hfails.imp_right fun h => hnone hv (.inr h)⟩)
  | createSubdirectory folder newFolder mkdirFails => trivial
  | refresh => trivial

/-- A request that comes down to an operation does to the store what its answer says. -/
theorem acts_serves (hrun : c.status = .running) (hroot : c.root ≠ []) {r : Request} {a : Response}
    {p : Provider} (h : Acts decode c r (p, a)) (hcareful : CarefulRequest decode (some c) r) :
    ∃ c', p = some c' ∧ c'.status = .running ∧ c'.root = c.root ∧ (InSync c → InSync c') ∧
      Serves decode c.root (contents c) r a (contents c') := by
  obtain ⟨op, hop, hp, hreports⟩ := h
  have hcare := (hcareful c rfl).1 op hop
  obtain ⟨hstatus, hsame⟩ := apply_config c op
  refine ⟨c.apply op, hp, hstatus.trans hrun, hsame, fun hsync => apply_inSync hsync hcare.1, ?_⟩
  rw [contents_apply hcare]
  unfold Reports at hreports
  cases hret : c.returns op with
  | error e =>
    rw [hret] at hreports
    obtain ⟨hfail, hcode⟩ := hreports
    have hstays : (contents c).after op (.error e) = contents c := by cases op <;> rfl
    rw [hstays]
    refine .failed hfail (fun op' hop' => ?_) fun filename hr => ?_
    · rw [hop.unique hop', hcode]
      exact excused_of_error hrun hroot hop hret
    · cases hr
      cases hop
  | ok u =>
    rw [hret] at hreports
    obtain ⟨hok, hcode, hdata⟩ := hreports
    cases op with
    | save name data f now => exact .saved hop ⟨hok, hcode, hdata⟩
    | delete name removeFails => exact .deleted hop ⟨hok, hcode, hdata⟩
    | createSubdirectory folder newFolder mkdirFails => exact .created hop ⟨hok, hcode⟩
    | refresh => exact hdata.elim

/-- A query is answered from the index, which has the names of the store. -/
theorem query_serves (hrun : c.status = .running) (hroot : c.root ≠ []) (hsync : InSync c)
    (filename : Option (List Char)) :
    Serves decode c.root (contents c) (.query filename) (queryFile (some c) filename)
      (contents c) := by
  cases filename with
  | none => exact .failed rfl (fun op h => by cases h) nofun
  | some filename =>
  rw [queryFile, get_running hrun]
  cases hname : validateFilename (cStr filename) with
  | some err =>
    refine .failed rfl (fun op h => by cases h) fun filename' hr hname' => ?_
    cases hr
    cases hname'.symm.trans hname
  | none =>
  rcases validatePath_of_valid hrun hroot hname with ⟨full, hv⟩ | ⟨hv, hn⟩
  · have hthere : decide (Canonical (cStr filename) ∧ isRegularFile c.tree full) =
        (contents c (cStr filename)).isSome := by
      rw [Bool.eq_iff_iff, decide_eq_true_iff, contents_isSome]
      refine and_congr_right fun hn => ?_
      rw [validatePath_canonical hv hn, isRegularFile_plain]
    dsimp only
    rw [hsync.existsFile hv, hthere]
    dsimp only
    have hpath : (if (contents c (cStr filename)).isSome then
          (getFullPath c (cStr filename)).toOption else none) =
        if (contents c (cStr filename)).isSome then
          some (plain (c.root ++ entries (cStr filename)) : Path).string else none := by
      by_cases hstored : (contents c (cStr filename)).isSome
      · rw [if_pos hstored, if_pos hstored, getFullPath, hv,
          validatePath_canonical hv (contents_isSome.1 hstored).1]
        rfl
      · rw [if_neg hstored, if_neg hstored]
    rw [hpath]
    exact .queried hname
  · dsimp only
    rw [existsFile, hv]
    refine .failed rfl (fun op h => by cases h) fun filename' hr _ => ?_
    cases hr
    exact hn

/-- A listing that succeeds shows the store. -/
theorem list_shows (hrun : c.status = .running) (hroot : c.root ≠ [])
    {folder : List Char} {iterate : Path → List (List Entry)}
    (hit : ∀ path, Iterates c.tree path (iterate path) ∧ Complete c.tree path (iterate path))
    {files : List FileInfo} (hlist : getFileList c folder iterate = .ok files) :
    ∃ d, plain d = lexical c.root folder ∧ Shows c.root (contents c) d files := by
  obtain ⟨d, hd, hlists, hall⟩ := getFileList_lists hrun hroot (fun path => (hit path).1) hlist
  refine ⟨d, hd, hlists.ascending, fun n => ?_, fun info hinfo => ?_⟩
  · rw [contents_isSome]
    constructor
    · intro hn
      obtain ⟨info, hinfo, rfl⟩ := List.mem_map.1 hn
      obtain ⟨hname, hbelow, hfile, _⟩ := hlists.listed info hinfo
      exact ⟨⟨hname, hfile⟩, hbelow⟩
    · intro ⟨⟨hname, hfile⟩, hbelow⟩
      exact hall (fun path => (hit path).2) n hname hfile hbelow
  · obtain ⟨hname, _, hfile, heq⟩ := hlists.listed info hinfo
    obtain ⟨bs, hbs⟩ := hfile.content
    refine ⟨bs, ?_, ?_, ?_⟩
    · rw [contents_of_canonical hname, hbs]
    · rw [heq]
      show ((c.tree.content _).map List.length).getD 0 = bs.length
      rw [hbs]
      rfl
    · rw [heq]
      rfl

/-- A listing shows what is stored. -/
theorem list_serves (hrun : c.status = .running) (hroot : c.root ≠ [])
    {folder : Option (List Char)} {iterate : Path → List (List Entry)}
    (hit : ∀ path, Iterates c.tree path (iterate path) ∧ Complete c.tree path (iterate path)) :
    Serves decode c.root (contents c) (.list folder iterate) (listFiles (some c) folder iterate)
      (contents c) := by
  rw [listFiles, get_running hrun]
  dsimp only
  cases hlist : getFileList c ((folder.map cStr).getD []) iterate with
  | error e => exact .failed rfl (fun op h => by cases h) nofun
  | ok files =>
    obtain ⟨d, hd, hshows⟩ := list_shows hrun hroot hit hlist
    exact .listed hd hshows

/-- **One request.** -/
theorem handle_serves (hrun : c.status = .running) (hroot : c.root ≠ []) (hsync : InSync c)
    {r : Request} (hcareful : CarefulRequest decode (some c) r) :
    ∃ c', (handle decode (some c) r).1 = some c' ∧ c'.status = .running ∧ c'.root = c.root ∧
      InSync c' ∧
      Serves decode c.root (contents c) r (handle decode (some c) r).2 (contents c') := by
  rcases @handle_running c decode hrun r with hacts | ⟨hp, hread, hno, hfail⟩ | ⟨hreads, hp⟩
  · obtain ⟨c', hp, hrun', hroot', hsync', hserves⟩ := acts_serves hrun hroot hacts hcareful
    exact ⟨c', hp, hrun', hroot', hsync' hsync, hserves⟩
  · refine ⟨c, hp, hrun, rfl, hsync,
      .failed hfail (fun op hop => absurd hop (hno op)) fun filename hr => ?_⟩
    exact absurd (hr ▸ .query) hread
  · refine ⟨c, hp, hrun, rfl, hsync, ?_⟩
    cases hreads with
    | query => exact query_serves hrun hroot hsync _
    | list => exact list_serves hrun hroot ((hcareful c rfl).2 _ _ rfl)
    | status =>
      refine .status ?_
      rw [handle, cacheStatus, get_running hrun]
      dsimp only
      rw [hrun]

/-! ## Runs -/

/-- The service, with what it was asked and what it answered. -/
structure Service where
  provider : Provider
  log : List (Request × Response) := []

/-- A request and its answer, with the log of both. -/
def step (decode : List Char → Option (List UInt8)) (s : Service) (r : Request) : Option Service :=
  some ⟨(handle decode s.provider r).1, s.log ++ [(r, (handle decode s.provider r).2)]⟩

/-- What runs keep. -/
structure Inv (decode : List Char → Option (List UInt8)) (c₀ : Cache) (rs : List Request)
    (s : Service) (c : Cache) : Prop where
  provider : s.provider = some c
  status : c.status = .running
  root : c.root = c₀.root
  inSync : InSync c
  served : Served decode c₀.root (contents c₀) s.log (contents c)
  asked : s.log.map Prod.fst = rs

/-- **Every careful request keeps it.** -/
theorem Inv.step {c₀ : Cache} (hroot : c₀.root ≠ []) {rs : List Request} {s s' : Service}
    {c : Cache} (hi : Inv decode c₀ rs s c) {r : Request}
    (hcareful : CarefulRequest decode s.provider r) (h : step decode s r = some s') :
    ∃ c', Inv decode c₀ (rs ++ [r]) s' c' := by
  cases h
  have hp := hi.provider
  rw [hp] at hcareful
  obtain ⟨c', hp', hstatus, hsame, hsync, hserves⟩ :=
    handle_serves hi.status (hi.root ▸ hroot) hi.inSync hcareful
  rw [← hp] at hp' hserves
  rw [hi.root] at hserves
  refine ⟨c', hp', hstatus, hsame.trans hi.root, hsync, .snoc hi.served hserves, ?_⟩
  rw [List.map_append, hi.asked]
  rfl

/-- An upload of `a`, a query for it, its deletion, and the import of a file whose name is a byte
`0xff`. -/
def requests : List Request :=
  [.upload (some ['a']) (some ['A', 'Q', '=', '=']) {} 0, .query (some ['a']),
    .delete (some ['a']) false,
    .uploadLocal (some "multipart/form-data".toList)
      (.parts (some ⟨some (some [1]), some ['b']⟩) (some ⟨some (some [0xff]), none⟩)) {} 1]

end FileApi

end MyCache
