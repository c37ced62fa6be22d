import Mathlib.Data.List.AList
import Asgiref.Wsgi.Response
import Asgiref.Wsgi.Unicode

/-! # The environ of the WSGI wrapper

* **`Scope`** — what `build_environ` reads of a scope. A key that may be missing is optional, and
  `server` may be there with the value `None`.
* **`baseEnviron`** — the environ without the headers: the dict literal, the server and the client;
  and what **`Environ.update`** does to its entries.
* **`groupHeaders`** — the loop over the headers, with its limit, and **`merge`**, which makes
  entries of them.
* **`buildEnviron`** — the method. -/

namespace Asgiref.Wsgi

/-- A host and a port. -/
structure Address where
  host : Text
  port : Option Int
  deriving DecidableEq, Repr

/-- What `build_environ` reads of a scope. `self.scope` is the scope that it is given. -/
structure Scope where
  method : Text
  rootPath : Option Text
  path : Text
  queryString : Bytes
  httpVersion : Text
  scheme : Option Text
  server : Option (Option Address)
  /-- A missing client is `None` as well. -/
  client : Option Address
  headers : Option (List (Bytes × Bytes))
  deriving DecidableEq, Repr

/-- `self.scope.get("headers", [])`. -/
def Scope.headerList (scope : Scope) : List (Bytes × Bytes) := scope.headers.getD []

/-- The values of an environ. -/
inductive Value
  | str (s : Text)
  | version (major minor : Nat)
  | input (body : Bytes)
  | stderr
  | bool (b : Bool)
  deriving DecidableEq, Repr

/-- A literal. -/
def Value.literal (s : String) : Value := .str (Text.ofStr s.toList)

/-- The dict. -/
abbrev Environ := AList fun _ : Str => Value

/-- Some assignments, or the entries of a dict literal. -/
def Environ.update (environ : Environ) (entries : List (String × Value)) : Environ :=
  entries.foldl (fun environ entry => environ.insert entry.1.toList entry.2) environ

/-! ## The entries that are not from headers -/

/-- `.encode("utf8").decode("latin1")`. -/
def encodePath (s : Text) : Except Error Str :=
  match encodeUtf8 s with
  | some b => .ok (decodeLatin1 b)
  | none => .error .unicodeEncodeError

/-- `scope["query_string"].decode("ascii")`. -/
def decodeQuery (queryString : Bytes) : Except Error Str :=
  match decodeAscii? queryString with
  | some s => .ok s
  | none => .error .unicodeDecodeError

/-- `path_info`, without `script_name` if it starts with it. -/
def stripPrefix (scriptName pathInfo : Str) : Str :=
  if scriptName <+: pathInfo then pathInfo.drop scriptName.length else pathInfo

/-- The dict literal. -/
def dictLiteral (scope : Scope) (scriptName pathInfo queryString : Str) (body : Bytes) :
    List (String × Value) :=
  [("REQUEST_METHOD", .str scope.method),
    ("SCRIPT_NAME", .str (Text.ofStr scriptName)),
    ("PATH_INFO", .str (Text.ofStr pathInfo)),
    ("QUERY_STRING", .str (Text.ofStr queryString)),
    ("SERVER_PROTOCOL", .str (Text.ofStr "HTTP/".toList ++ scope.httpVersion)),
    ("wsgi.version", .version 1 0),
    ("wsgi.url_scheme", .str (scope.scheme.getD (Text.ofStr "http".toList))),
    ("wsgi.input", .input body),
    ("wsgi.errors", .stderr),
    ("wsgi.multithread", .bool true),
    ("wsgi.multiprocess", .bool true),
    ("wsgi.run_once", .bool false)]

/-- `str(port)`. -/
def portString : Option Int → String
  | some port => toString port
  | none => "None"

/-- The server's name and port. -/
def serverEntries : Option (Option Address) → Except Error (List (String × Value))
  | none => .ok [("SERVER_NAME", .literal "localhost"), ("SERVER_PORT", .literal "80")]
  -- the key is there, and `None[0]` raises
  | some none => .error .notSubscriptable
  | some (some server) =>
      .ok [("SERVER_NAME", .str server.host), ("SERVER_PORT", .literal (portString server.port))]

def clientEntries : Option Address → List (String × Value)
  | some client => [("REMOTE_ADDR", .str client.host)]
  | none => []

/-- `build_environ`, up to the headers. -/
def baseEnviron (scope : Scope) (body : Bytes) : Except Error Environ := do
  let scriptName ← encodePath (scope.rootPath.getD [])
  let pathInfo ← encodePath scope.path
  let queryString ← decodeQuery scope.queryString
  let entries :=
    dictLiteral scope scriptName (stripPrefix scriptName pathInfo) queryString body
  let server ← serverEntries scope.server
  return ((Environ.update ∅ entries).update server).update (clientEntries scope.client)

/-! ## The names of the base entries -/

/-- The names in the dict literal. -/
def literalNames : List String :=
  ["REQUEST_METHOD", "SCRIPT_NAME", "PATH_INFO", "QUERY_STRING", "SERVER_PROTOCOL",
    "wsgi.version", "wsgi.url_scheme", "wsgi.input", "wsgi.errors", "wsgi.multithread",
    "wsgi.multiprocess", "wsgi.run_once"]

theorem names_dictLiteral (scope : Scope) (scriptName pathInfo queryString : Str) (body : Bytes) :
    (dictLiteral scope scriptName pathInfo queryString body).map Prod.fst = literalNames := rfl

theorem names_serverEntries {server : Option (Option Address)} {entries : List (String × Value)}
    (h : serverEntries server = .ok entries) :
    entries.map Prod.fst = ["SERVER_NAME", "SERVER_PORT"] := by
  rcases server with _ | _ | address
  · cases h
    rfl
  · cases h
  · cases h
    rfl

theorem names_clientEntries {client : Option Address} {key : String}
    (h : key ∈ (clientEntries client).map Prod.fst) : key = "REMOTE_ADDR" := by
  cases client with
  | none => cases h
  | some address => exact List.mem_singleton.mp h

/-- An update adds its names. -/
theorem mem_update {environ : Environ} {entries : List (String × Value)} {name : Str}
    (h : name ∈ environ.update entries) :
    name ∈ environ ∨ ∃ key ∈ entries.map Prod.fst, name = key.toList := by
  induction entries generalizing environ with
  | nil => exact .inl h
  | cons entry rest ih =>
      have hrest : name ∈ Environ.update (environ.insert entry.1.toList entry.2) rest := h
      rcases ih hrest with hmem | ⟨key, hkey, hname⟩
      · rcases (AList.mem_insert _).mp hmem with hname | hmem
        · exact .inr ⟨entry.1, List.mem_cons_self, hname⟩
        · exact .inl hmem
      · exact .inr ⟨key, List.mem_cons_of_mem _ hkey, hname⟩

/-- And it leaves the other entries as they are. -/
theorem lookup_update_of_notMem (environ : Environ) {entries : List (String × Value)}
    {key : String} (h : key ∉ entries.map Prod.fst) :
    (environ.update entries).lookup key.toList = environ.lookup key.toList := by
  induction entries generalizing environ with
  | nil => rfl
  | cons entry rest ih =>
      have hne : key ≠ entry.1 := fun heq => h (heq ▸ List.mem_cons_self)
      have hrest : key ∉ rest.map Prod.fst := fun hmem => h (List.mem_cons_of_mem _ hmem)
      refine (ih (environ.insert entry.1.toList entry.2) hrest).trans ?_
      exact AList.lookup_insert_ne fun heq => hne (String.toList_injective heq)

/-- What it sets. -/
theorem lookup_update_of_mem (environ : Environ) {entries : List (String × Value)}
    (hnodup : (entries.map Prod.fst).Nodup) {key : String} {value : Value}
    (h : (key, value) ∈ entries) :
    (environ.update entries).lookup key.toList = some value := by
  induction entries generalizing environ with
  | nil => cases h
  | cons entry rest ih =>
      obtain ⟨hnot, hnodup'⟩ := List.nodup_cons.mp hnodup
      rcases List.mem_cons.mp h with rfl | hrest
      · exact (lookup_update_of_notMem _ hnot).trans (AList.lookup_insert _)
      · exact ih _ hnodup' hrest

/-! ## The headers -/

/-- `str.upper` of a latin-1 character. -/
def upper (c : Char) : Str :=
  if c = 'ß' then ['S', 'S']
  else if c = 'µ' then [Char.ofNat 0x39c]
  else if c = 'ÿ' then [Char.ofNat 0x178]
  else if 0xe0 ≤ c.toNat ∧ c.toNat ≤ 0xfe ∧ c ≠ '÷' then [Char.ofNat (c.toNat - 0x20)]
  else [c.toUpper]

/-- The name of the environ entry for a header. -/
def correctedName (name : Bytes) : Str :=
  let name := decodeLatin1 name
  if name = "content-length".toList then "CONTENT_LENGTH".toList
  else if name = "content-type".toList then "CONTENT_TYPE".toList
  else "HTTP_".toList ++ (name.flatMap upper).map fun c => if c = '-' then '_' else c

/-- The headers so far: the values of each name. -/
abbrev Headers := AList fun _ : Str => List Str

/-- `_headers[corrected_name]`, of a `defaultdict`. -/
def Headers.get (headers : Headers) (name : Str) : List Str := (headers.lookup name).getD []

/-- `limit and n >= limit`. -/
def reached (limit : Option Int) (n : Nat) : Bool :=
  match limit with
  | some limit => limit ≠ 0 && limit ≤ n
  | none => false

/-- The exception of a header too many. -/
def tooMany (name : Str) (limit : Option Int) : Error :=
  .valueError ("Too many duplicate headers: " ++ String.ofList name ++ " exceeds limit of" ++
    match limit with
    | some limit => toString limit
    | none => "None")

/-- The loop over the headers. -/
def groupHeaders (limit : Option Int) : Headers → List (Bytes × Bytes) → Except Error Headers
  | headers, [] => .ok headers
  | headers, (name, value) :: rest =>
      let name := correctedName name
      if reached limit (headers.get name).length then .error (tooMany name limit)
      else groupHeaders limit (headers.insert name (headers.get name ++ [decodeLatin1 value])) rest

/-- `",".join(values)`. -/
def joinComma (values : List Str) : Str := List.intercalate [','] values

/-- The loop that makes entries of the headers. -/
def merge (environ : Environ) (headers : Headers) : Environ :=
  headers.entries.foldl
    (fun environ entry => environ.insert entry.1 (.str (Text.ofStr (joinComma entry.2)))) environ

/-- `build_environ`. -/
def buildEnviron (limit : Option Int) (scope : Scope) (body : Bytes) : Except Error Environ := do
  let environ ← baseEnviron scope body
  let headers ← groupHeaders limit ∅ scope.headerList
  return merge environ headers

end Asgiref.Wsgi
