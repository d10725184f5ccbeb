/-
# One request for the pods of the namespace (`pod_list.c`)

`podListFetch` is the whole of `pod_list_fetch` as a function of what it meets outside the
module (`Answer`): the two service-account files, what libcurl did with the request, and
whether the list could be allocated.  libcurl and json-c are not part of the sources.  Their
answers are inputs: `Answer.res` and `Answer.code` for the transfer, `Body` for the response
with what `json_tokener_parse` makes of it.

A `PodList` is the list of its addresses; `count` is the length.
-/
import Unicaster.Lib.CString
import Mathlib.Data.List.Sort
import Mathlib.Data.List.DropRight

namespace Unicaster

open CLib

def maxPods : Nat := 10000
def maxTokenSize : Nat := 8192
def maxNamespaceSize : Nat := 64
def serviceAccountDir : Text := ascii "/var/run/secrets/kubernetes.io/serviceaccount"

/-- The size of the `error` buffer of `refresh_pods`. -/
def errorSize : Nat := 512

def podsQuery : Text :=
  ascii "?resourceVersion=0&fieldSelector=status.phase%21%3DSucceeded%2Cstatus.phase%21%3DFailed"

/-! ## 1. The namespace and the token -/

/-- `" \t\r\n"`. -/
def whitespace : Text := [32, 9, 13, 10]

/-- `read_trimmed` into a buffer of `size` bytes: what is left in the buffer, or `none`. -/
def readTrimmed (file : Option (List Byte)) (size : Nat) : Option (List Byte) :=
  match file with
  | none => none
  | some content =>
    let buf := content.take size
    -- a full buffer means the file did not fit
    if buf.length = size then none
    else
      -- `strchr` finds the terminator of its set too, so trailing NUL bytes go as well
      let buf := buf.rdropWhile fun b => b ∈ whitespace ∨ b = 0
      let lead := strspn (cstr buf) whitespace
      let buf := buf.drop lead
      if cstr buf ≠ [] then some buf else none

/-- A byte of `"abcdefghijklmnopqrstuvwxyz0123456789-"`. -/
def isLabelByte (b : Byte) : Bool := (97 ≤ b ∧ b ≤ 122) ∨ isDigit b ∨ b = 45

/-- `is_valid_namespace`. -/
def isValidNamespace (name : Text) : Bool :=
  let len := name.length
  if len = 0 ∨ len ≥ maxNamespaceSize then false
  else (name.takeWhile isLabelByte).length = len
    ∧ name.head? ≠ some 45 ∧ name.getLast? ≠ some 45

/-- `resolve_namespace` into a buffer of `size` bytes, `env` being `DEPLOYMENT_ENV`: the
namespace, or what went into `error`. -/
def resolveNamespace (env : Option CString) (file : Option (List Byte)) (size : Nat) :
    Except Text Text :=
  let validated (buf : Text) : Except Text Text :=
    if isValidNamespace buf then .ok buf
    else .error (snprintf errorSize (ascii "'" ++ buf ++ ascii "' is not a valid namespace name"))
  let fromFile : Except Text Text :=
    match readTrimmed file size with
    | some buf => validated (cstr buf)
    | none => .error (snprintf errorSize (ascii "DEPLOYMENT_ENV is not set and "
        ++ serviceAccountDir ++ ascii "/namespace is not readable"))
  match env with
  | some env => if env.bytes ≠ [] then validated (snprintf size env.bytes) else fromFile
  | none => fromFile

/-! ## 2. The pod list in a response body -/

/-- A `json_object`.  JSON `null` is the `NULL` pointer; numbers and booleans only ever fail
the tests made of them. -/
inductive Json where
  | null
  | bool (b : Bool)
  | number (text : Text)
  | string (bytes : List Byte)
  | array (items : List Json)
  | object (fields : List (Text × Json))

/-- `json_object_object_get_ex`: a lookup in anything but an object finds nothing. -/
def Json.objectGetEx (key : Text) : Json → Option Json
  | .object fields => fields.lookup key
  | _ => none

/-- `json_object_get_string` of a string, which C reads up to its first NUL. -/
def Json.getString : Json → Option Text
  | .string bytes => some (cstr bytes)
  | _ => none

/-- `is_finished`.  Nothing but a string prints as `Succeeded` or `Failed`. -/
def isFinished (status : Json) : Bool :=
  match status.objectGetEx (ascii "phase") with
  | none => false
  | some phase =>
    match phase.getString with
    | some value => value = ascii "Succeeded" ∨ value = ascii "Failed"
    | none => false

/-- The address one item contributes, or `none` where the loop says `continue`. -/
def podAddress (item : Json) : Option Text := do
  let status ← item.objectGetEx (ascii "status")
  if isFinished status then none
  else do
    let podIp ← status.objectGetEx (ascii "podIP")
    let text ← podIp.getString
    let addr ← inetPton text
    return inetNtop addr

/-- One round of the loop that drops neighbouring duplicates in place: the array, and
`unique`, how many of its slots are already final. -/
def compactStep (s : List Text × Nat) (i : Nat) : List Text × Nat :=
  let (ips, unique) := s
  if unique = 0 ∨ ips.getD (unique - 1) [] ≠ ips.getD i [] then
    (ips.set unique (ips.getD i []), unique + 1)
  else (ips, unique)

/-- The loop, and the list cut at `unique`. -/
def compact (ips : List Text) : List Text :=
  let (slots, unique) := (List.range ips.length).foldl compactStep (ips, 0)
  slots.take unique

/-- `parse_pod_list`; `root` is what `json_tokener_parse` returned for the body, `mallocOk`
whether the list could be allocated. -/
def parsePodList (root : Option Json) (mallocOk : Bool) : Except Text (List Text) :=
  match root with
  | none => .error (snprintf errorSize (ascii "the response is not valid JSON"))
  | some root =>
    match root.objectGetEx (ascii "items") with
    | some (.array items) =>
      if mallocOk then
        let ips := (items.take maxPods).filterMap podAddress
        -- `qsort` with `compare_ips`; equal entries are the same text
        .ok (compact (ips.insertionSort (· ≤ ·)))
      else .error (snprintf errorSize (ascii "out of memory"))
    | _ => .error (snprintf errorSize (ascii "the response has no `items` array"))

/-- `describe_http_error`; `root` is the parsed body, if there is one. -/
def describeHttpError (code : Int) (root : Option Json) : Text :=
  let message := do (← root).objectGetEx (ascii "message")
  match message.bind Json.getString with
  | some text => snprintf errorSize (ascii "HTTP " ++ decimal code ++ ascii ": " ++ text)
  | none => snprintf errorSize (ascii "HTTP " ++ decimal code)

/-! ## 3. The request -/

/-- The response body: `body.data` was never allocated, or what json-c made of it. -/
inductive Body where
  | empty
  | data (root : Option Json)

/-- What one call of `pod_list_fetch` meets outside the module. -/
structure Answer where
  /-- content of `namespace`; `none` when it cannot be opened -/
  namespaceFile : Option (List Byte)
  /-- content of `token`; `none` when it cannot be opened -/
  tokenFile : Option (List Byte)
  /-- the `CURLcode` of the transfer; 0 is `CURLE_OK` -/
  res : Nat
  /-- what libcurl left in the error buffer -/
  curlError : Text
  /-- `curl_easy_strerror(res)` -/
  strerror : Text
  /-- the HTTP status -/
  code : Int
  body : Body
  /-- whether `parse_pod_list` could allocate the list -/
  mallocOk : Bool

/-- What is handed to libcurl. -/
structure Request where
  url : Text
  authHeader : Text

/-- The result of `pod_list_fetch`: the list or the reason, and the request made, if any. -/
structure Fetched where
  list : Except Text (List Text)
  request : Option Request

def urlPrefix : Text := ascii "https://kubernetes.default.svc/api/v1/namespaces/"

/-- The URL of the pods of a namespace, as formatted. -/
def podsEndpoint (name : Text) : Text := urlPrefix ++ name ++ ascii "/pods" ++ podsQuery

/-- What the transfer yields once it was made. -/
def readResponse (a : Answer) : Except Text (List Text) :=
  if a.res ≠ 0 then
    .error (snprintf errorSize (if a.curlError ≠ [] then a.curlError else a.strerror))
  else if a.code ≠ 200 then
    .error (describeHttpError a.code (match a.body with | .empty => none | .data root => root))
  else
    match a.body with
    | .empty => .error (snprintf errorSize (ascii "the response is empty"))
    | .data root => parsePodList root a.mallocOk

/-- `pod_list_fetch`, `env` being `DEPLOYMENT_ENV`. -/
def podListFetch (env : Option CString) (a : Answer) : Fetched :=
  match resolveNamespace env a.namespaceFile maxNamespaceSize with
  | .error error => ⟨.error error, none⟩
  | .ok name =>
    match readTrimmed a.tokenFile maxTokenSize with
    | none =>
      ⟨.error (snprintf errorSize (ascii "cannot read " ++ serviceAccountDir ++ ascii "/token")),
        none⟩
    | some token =>
      let authHeader := snprintf (maxTokenSize + 32) (ascii "Authorization: Bearer " ++ cstr token)
      let url := snprintf 256 (podsEndpoint name)
      ⟨readResponse a, some ⟨url, authHeader⟩⟩

/-- A failure always says why. -/
theorem snprintf_errorSize_ne_nil {text : Text} (h : text ≠ []) : snprintf errorSize text ≠ [] := by
  cases text with
  | nil => exact absurd rfl h
  | cons b text => simp [snprintf, errorSize]

/-- There is a namespace to ask about and a token to ask with, so a request is made. -/
def Answer.Asked (env : Option CString) (a : Answer) : Prop :=
  (∃ name, resolveNamespace env a.namespaceFile maxNamespaceSize = .ok name) ∧
    ∃ token, readTrimmed a.tokenFile maxTokenSize = some token

/-- **A good answer.**  A request was made, it ended with `CURLE_OK` and HTTP 200, and
`parse_pod_list` built the non-empty list `ips` from its body. -/
def Answer.Good (env : Option CString) (a : Answer) (ips : List Text) : Prop :=
  a.Asked env ∧ a.res = 0 ∧ a.code = 200 ∧
    (∃ root, a.body = .data root ∧ parsePodList root a.mallocOk = .ok ips) ∧ ips ≠ []

/-- **A list comes out of `pod_list_fetch` only for a transfer that ended well**, and it is the
list `parse_pod_list` built from that body. -/
theorem readResponse_ok {a : Answer} {ips : List Text} (h : readResponse a = .ok ips) :
    a.res = 0 ∧ a.code = 200 ∧
      ∃ root, a.body = .data root ∧ parsePodList root a.mallocOk = .ok ips := by
  unfold readResponse at h
  split at h
  · exact absurd h (by simp)
  · rename_i hres
    split at h
    · exact absurd h (by simp)
    · rename_i hcode
      refine ⟨not_not.mp hres, not_not.mp hcode, ?_⟩
      cases hb : a.body with
      | empty => rw [hb] at h; exact absurd h (by simp)
      | data root => rw [hb] at h; exact ⟨root, rfl, h⟩

theorem podListFetch_ok {env : Option CString} {a : Answer} {ips : List Text}
    (h : (podListFetch env a).list = .ok ips) :
    a.Asked env ∧ a.res = 0 ∧ a.code = 200 ∧
      ∃ root, a.body = .data root ∧ parsePodList root a.mallocOk = .ok ips := by
  unfold podListFetch at h
  split at h
  · exact absurd h (by simp)
  · rename_i name hname
    split at h
    · exact absurd h (by simp)
    · rename_i token htoken
      exact ⟨⟨⟨name, hname⟩, token, htoken⟩, readResponse_ok h⟩

/-- A non-empty list comes out of a good answer only. -/
theorem podListFetch_good {env : Option CString} {a : Answer} {ips : List Text}
    (h : (podListFetch env a).list = .ok ips) (hne : ips ≠ []) : a.Good env ips := by
  obtain ⟨hasked, hres, hcode, hbody⟩ := podListFetch_ok h
  exact ⟨hasked, hres, hcode, hbody, hne⟩

/-! ## 4. A pod list with one pod -/

/-- A response that lists one pod, at 10.0.0.7. -/
def onePodRoot : Json :=
  .object [(ascii "items", .array
    [.object [(ascii "status", .object [(ascii "podIP", .string (ascii "10.0.0.7"))])]])]

/-- The answer with that response; `file` is the namespace file. -/
def onePod (file : Option (List Byte)) : Answer where
  namespaceFile := file
  tokenFile := some (ascii "token")
  res := 0
  curlError := []
  strerror := []
  code := 200
  body := .data (some onePodRoot)
  mallocOk := true

/-- Where the namespace can be resolved, a good answer is possible. -/
theorem podListFetch_onePod {env : Option CString} {file : Option (List Byte)} {name : Text}
    (h : resolveNamespace env file maxNamespaceSize = .ok name) :
    (podListFetch env (onePod file)).list = .ok [ascii "10.0.0.7"] := by
  have htoken : readTrimmed (onePod file).tokenFile maxTokenSize = some (ascii "token") := rfl
  unfold podListFetch
  rw [show (onePod file).namespaceFile = file from rfl, h]
  dsimp only
  rw [htoken]
  rfl

end Unicaster
