import Asgiref.Wsgi.Headers

/-! # The mount prefix

`build_environ` cuts the root path off the path after both were encoded, wherever the one is a
prefix of the other.

* **`stripPrefix_wsgiString`** — to test and cut the prefix on the encoded strings is to do so on
  the strings themselves.
* **`paths_roundTrip`** — so both can be read back from the environ.
* **`AtBoundary`** — the prefix is cut off at the end of a segment only; **`atBoundary_iff`** says
  when it is. -/

namespace Asgiref.Wsgi

/-- The slash between segments. -/
def slash : CodePoint := codePoint '/'

/-- What is left of a path under a root path, as strings of code points. -/
def remainder (r p : Str) : Str := if r <+: p then p.drop r.length else p

/-! ## Cutting encoded strings -/

/-- A prefix of the encoded string is one of the string. -/
theorem wsgiString_prefix_iff {r p : Str} : wsgiString r <+: wsgiString p ↔ r <+: p := by
  rw [wsgiString, wsgiString, decodeLatin1, decodeLatin1,
    List.prefix_map_iff_of_injective latin1_injective, utf8.encode_prefix_iff]

/-- **Cutting on the encoded strings is cutting on the strings.** -/
theorem stripPrefix_wsgiString (r p : Str) :
    stripPrefix (wsgiString r) (wsgiString p) = wsgiString (remainder r p) := by
  unfold stripPrefix remainder
  by_cases h : r <+: p
  · rw [if_pos h, if_pos (wsgiString_prefix_iff.mpr h)]
    obtain ⟨q, rfl⟩ := h
    have hlength : (wsgiString r).length = (utf8.encode r).length := List.length_map _
    rw [List.drop_left, hlength, wsgiString, wsgiString, decodeLatin1, decodeLatin1,
      ← List.map_drop, utf8.drop_encode]
  · rw [if_neg h, if_neg fun hstarts => h (wsgiString_prefix_iff.mp hstarts)]

/-- No two strings are encoded alike. -/
theorem wsgiString_injective {s t : Str} (h : wsgiString s = wsgiString t) : s = t := by
  have hread := decode_wsgiString s
  rw [h, decode_wsgiString] at hread
  exact (Option.some.inj hread).symm

/-! ## The paths in the environ -/

variable {limit : Option Int} {scope : Scope} {body : Bytes} {environ : Environ} {r p : Str}

/-- **An entry of the dict literal** in the environ, if no later one has its name. -/
theorem lookup_literal (h : buildEnviron limit scope body = .ok environ)
    (hr : scope.rootPath.getD [] = Text.ofStr r) (hp : scope.path = Text.ofStr p) {key : String}
    {value : Value} (hmem : (key, value) ∈ dictLiteral scope (wsgiString r)
      (wsgiString (remainder r p)) (decodeAscii scope.queryString) body)
    (hkey : ¬ HeaderName key.toList ∧ key ∉ ["SERVER_NAME", "SERVER_PORT", "REMOTE_ADDR"]) :
    environ.lookup key.toList = some value := by
  obtain ⟨base, hbase, hlookup⟩ := buildEnviron_ok h
  rw [hlookup, if_neg (not_not.mpr (valuesOf_of_not_headerName hkey.1 _))]
  rw [baseEnviron_of_converts (converts_of_buildEnviron h) hr hp, stripPrefix_wsgiString] at hbase
  cases hentries : serverEntries scope.server with
  | error e =>
      rw [hentries] at hbase
      cases hbase
  | ok server =>
      rw [hentries] at hbase
      cases hbase
      have hclient : key ∉ (clientEntries scope.client).map Prod.fst := fun hmem' =>
        hkey.2 (by rw [names_clientEntries hmem']; decide)
      have hserver : key ∉ server.map Prod.fst := fun hmem' => by
        rw [names_serverEntries hentries] at hmem'
        refine hkey.2 ?_
        rcases List.mem_cons.mp hmem' with rfl | hmem'
        · decide
        · rw [List.mem_singleton.mp hmem']
          decide
      rw [lookup_update_of_notMem _ hclient, lookup_update_of_notMem _ hserver]
      refine lookup_update_of_mem ∅ ?_ hmem
      rw [names_dictLiteral]
      decide

theorem lookup_scriptName (h : buildEnviron limit scope body = .ok environ)
    (hr : scope.rootPath.getD [] = Text.ofStr r) (hp : scope.path = Text.ofStr p) :
    environ.lookup "SCRIPT_NAME".toList = some (.str (Text.ofStr (wsgiString r))) :=
  lookup_literal h hr hp (List.mem_cons_of_mem _ List.mem_cons_self) (by decide)

theorem lookup_pathInfo (h : buildEnviron limit scope body = .ok environ)
    (hr : scope.rootPath.getD [] = Text.ofStr r) (hp : scope.path = Text.ofStr p) :
    environ.lookup "PATH_INFO".toList = some (.str (Text.ofStr (wsgiString (remainder r p)))) :=
  lookup_literal h hr hp
    (List.mem_cons_of_mem _ (List.mem_cons_of_mem _ List.mem_cons_self)) (by decide)

/-- **Paths can be read back.** A scope whose paths have no surrogates has an environ exactly if its
query string is ASCII, its server is not `None` and its headers keep the limit. The paths are
encoded without an exception in any case, and what the environ has of them can be decoded: to the
root path, and to the path without the root path at its beginning. -/
theorem paths_roundTrip (limit : Option Int) (body : Bytes)
    (hr : scope.rootPath.getD [] = Text.ofStr r) (hp : scope.path = Text.ofStr p) :
    ((∃ environ, buildEnviron limit scope body = .ok environ) ↔
      (∀ byte ∈ scope.queryString, byte < 128) ∧ scope.server ≠ some none ∧
        ¬ Exceeds limit scope.headerList) ∧
    ∃ scriptName pathInfo : Str,
      encodePath (scope.rootPath.getD []) = .ok scriptName ∧
      (encodePath scope.path).map (stripPrefix scriptName) = .ok pathInfo ∧
      (∀ environ, buildEnviron limit scope body = .ok environ →
        environ.lookup "SCRIPT_NAME".toList = some (.str (Text.ofStr scriptName)) ∧
        environ.lookup "PATH_INFO".toList = some (.str (Text.ofStr pathInfo))) ∧
      (encodeLatin1 (Text.ofStr scriptName)).bind decodeUtf8 = some r ∧
      (encodeLatin1 (Text.ofStr pathInfo)).bind decodeUtf8 =
        some (if r <+: p then p.drop r.length else p) := by
  have hconverts : scope.Converts ↔ ∀ byte ∈ scope.queryString, byte < 128 :=
    ⟨Scope.Converts.query, fun hquery => ⟨Text.encodable_iff.mpr ⟨r, hr⟩,
      Text.encodable_iff.mpr ⟨p, hp⟩, hquery⟩⟩
  refine ⟨by rw [buildEnviron_isOk_iff, hconverts], wsgiString r, wsgiString (remainder r p),
    ?_, ?_, fun environ h => ?_, ?_, ?_⟩
  · rw [hr, encodePath_ofStr]
  · rw [hp, encodePath_ofStr, ← stripPrefix_wsgiString]
    rfl
  · exact ⟨lookup_scriptName h hr hp, lookup_pathInfo h hr hp⟩
  · exact decode_wsgiString r
  · exact decode_wsgiString (remainder r p)

/-- A plain request with these paths. -/
def mounted (r p : String) : Scope :=
  { request none [] with
    rootPath := some (Text.ofStr r.toList)
    path := Text.ofStr p.toList }

/-- It has an environ, from which `/中国` and `/中文` can be read back. -/
theorem paths_roundTrip_mounted :
    ∃ environ, buildEnviron none (mounted "/中国" "/中国/中文") [] = .ok environ ∧
      ∃ scriptName pathInfo : Str,
        environ.lookup "SCRIPT_NAME".toList = some (.str (Text.ofStr scriptName)) ∧
        environ.lookup "PATH_INFO".toList = some (.str (Text.ofStr pathInfo)) ∧
        (encodeLatin1 (Text.ofStr scriptName)).bind decodeUtf8 = some "/中国".toList ∧
        (encodeLatin1 (Text.ofStr pathInfo)).bind decodeUtf8 = some "/中文".toList := by
  obtain ⟨hexists, scriptName, pathInfo, -, -, hentries, hr, hp⟩ :=
    @paths_roundTrip (mounted "/中国" "/中国/中文") "/中国".toList "/中国/中文".toList none [] rfl rfl
  have hnot : ¬ Exceeds none (mounted "/中国" "/中国/中文").headerList := by
    rintro ⟨n, hn, -⟩
    cases hn
  obtain ⟨environ, h⟩ := hexists.mpr ⟨(request_converts none []).query, by decide, hnot⟩
  obtain ⟨hscriptName, hpathInfo⟩ := hentries environ h
  exact ⟨environ, h, scriptName, pathInfo, hscriptName, hpathInfo, hr, hp⟩

/-! ## Segment boundaries -/

/-- The root path ends in the path where a segment ends. -/
def EndsSegment (r p : Text) : Prop := r = [] ∨ p = r ∨ r ++ [slash] <+: p

/-- The path is cut at the end of a segment only, and what is left begins a segment or is empty. -/
structure AtBoundary (scope : Scope) (environ : Environ) : Prop where
  begins : ∃ pathInfo, environ.lookup "PATH_INFO".toList = some (.str pathInfo) ∧
    (pathInfo = [] ∨ pathInfo.head? = some slash)
  /-- It is shortened only there. -/
  shortened : ∀ whole, encodePath scope.path = .ok whole →
    environ.lookup "PATH_INFO".toList ≠ some (.str (Text.ofStr whole)) →
    EndsSegment (scope.rootPath.getD []) scope.path

/-- The slash is encoded as itself. -/
theorem head?_wsgiString (q : Str) :
    (Text.ofStr (wsgiString ('/' :: q))).head? = some slash := by
  rfl

/-- What is left after the end of a segment begins with a slash, or is empty. -/
theorem remainder_of_endsSegment (hends : Text.ofStr r <+: Text.ofStr ('/' :: p) →
    EndsSegment (Text.ofStr r) (Text.ofStr ('/' :: p))) :
    remainder r ('/' :: p) = [] ∨ ∃ q, remainder r ('/' :: p) = '/' :: q := by
  by_cases hstarts : r <+: '/' :: p
  · rw [remainder, if_pos hstarts]
    rcases hends (ofStr_prefix_iff.mpr hstarts) with hnil | hall | hnext
    · obtain rfl := ofStr_injective (s := r) (t := []) hnil
      exact .inr ⟨p, rfl⟩
    · rw [ofStr_injective hall, List.drop_length]
      exact .inl rfl
    · have hnext' : r ++ ['/'] <+: '/' :: p := by
        rw [← ofStr_prefix_iff, Text.ofStr, List.map_append]
        exact hnext
      obtain ⟨q, hq⟩ := hnext'
      rw [← hq, List.append_assoc, List.drop_left]
      exact .inr ⟨q, rfl⟩
  · rw [remainder, if_neg hstarts]
    exact .inr ⟨p, rfl⟩

/-- A path that was cut is shorter. -/
theorem remainder_ne {c : Char} (hstarts : c :: r <+: p) : remainder (c :: r) p ≠ p := by
  intro hsame
  rw [remainder, if_pos hstarts] at hsame
  have hlength := congrArg List.length hsame
  have hle := hstarts.length_le
  simp only [List.length_drop, List.length_cons] at hlength hle
  omega

/-- **When the mount prefix is cut at a segment boundary**: if the path does not begin with the root
path, or the root path ends where a segment ends. -/
theorem atBoundary_iff (h : buildEnviron limit scope body = .ok environ)
    (hslash : scope.path.head? = some slash) :
    AtBoundary scope environ ↔
      (scope.rootPath.getD [] <+: scope.path →
        EndsSegment (scope.rootPath.getD []) scope.path) := by
  obtain ⟨r, p, hr, hp⟩ := (converts_of_buildEnviron h).strings
  have hinfo := lookup_pathInfo h hr hp
  have hwhole : encodePath scope.path = .ok (wsgiString p) := by rw [hp, encodePath_ofStr]
  obtain ⟨p', rfl⟩ : ∃ p', p = '/' :: p' := by
    rw [hp] at hslash
    cases p with
    | nil => cases hslash
    | cons c p' =>
        have hc : codePoint c = codePoint '/' := Option.some.inj hslash
        exact ⟨p', by rw [codePoint_injective hc]⟩
  constructor
  · intro hcut hstarts
    rw [hr, hp, ofStr_prefix_iff] at hstarts
    cases r with
    | nil => exact .inl hr
    | cons c r =>
        refine hcut.shortened _ hwhole fun hsame => remainder_ne hstarts ?_
        rw [hinfo] at hsame
        exact wsgiString_injective (ofStr_injective (Value.str.inj (Option.some.inj hsame)))
  · intro hends
    have hends' := hends
    rw [hr, hp] at hends'
    constructor
    · refine ⟨_, hinfo, ?_⟩
      rcases remainder_of_endsSegment hends' with hnil | ⟨q, hq⟩
      · rw [hnil]
        exact .inl rfl
      · rw [hq]
        exact .inr (head?_wsgiString q)
    · intro whole hwhole' hne
      rw [hwhole] at hwhole'
      cases hwhole'
      refine hends ?_
      by_contra hnot
      rw [hr, hp, ofStr_prefix_iff] at hnot
      rw [hinfo, remainder, if_neg hnot] at hne
      exact hne rfl

/-- Such a request has an environ. -/
theorem mounted_environ (r p : String) :
    ∃ environ, buildEnviron none (mounted r p) [] = .ok environ := by
  have hconverts : (mounted r p).Converts :=
    ⟨Text.encodable_iff.mpr ⟨r.toList, rfl⟩, Text.encodable_iff.mpr ⟨p.toList, rfl⟩,
      (request_converts none []).query⟩
  obtain ⟨base, hbase⟩ := baseEnviron_isOk [] hconverts (by rintro ⟨⟩)
  exact ⟨_, buildEnviron_of_base none hbase⟩

/-- `/base` ends where a segment of `/base/foo/` does. -/
theorem atBoundary_iff_mounted :
    ∃ environ, buildEnviron none (mounted "/base" "/base/foo/") [] = .ok environ ∧
      AtBoundary (mounted "/base" "/base/foo/") environ := by
  obtain ⟨environ, h⟩ := mounted_environ "/base" "/base/foo/"
  refine ⟨environ, h, (atBoundary_iff h rfl).mpr fun _ => .inr (.inr ?_)⟩
  show Text.ofStr "/base".toList ++ [slash] <+: Text.ofStr "/base/foo/".toList
  decide

/-- Under `/foo`, the path `/foobar` becomes `bar`. -/
theorem foobar_not_atBoundary :
    ∃ environ, buildEnviron none (mounted "/foo" "/foobar") [] = .ok environ ∧
      ¬ AtBoundary (mounted "/foo" "/foobar") environ := by
  obtain ⟨environ, h⟩ := mounted_environ "/foo" "/foobar"
  refine ⟨environ, h, fun hcut => ?_⟩
  obtain ⟨pathInfo, hinfo, hbegins⟩ := hcut.begins
  rw [lookup_pathInfo (r := "/foo".toList) (p := "/foobar".toList) h rfl rfl] at hinfo
  cases hinfo
  have hnot : ¬ (Text.ofStr (wsgiString (remainder "/foo".toList "/foobar".toList)) = [] ∨
      (Text.ofStr (wsgiString (remainder "/foo".toList "/foobar".toList))).head? = some slash) := by
    decide
  exact hnot hbegins

end Asgiref.Wsgi
