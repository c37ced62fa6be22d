import Asgiref.Wsgi.Environ

/-! # The headers in the environ

* **`valuesOf`** — the values of the headers that become one entry; **`Exceeds`** — some entry would
  have more values than the limit allows.
* **`groupHeaders_ok`**, **`groupHeaders_error_iff`** — what the loop over the headers leaves, and
  when it raises.
* **`lookup_merge`** — what an environ has after the headers were put into it.
* **`Groups`** — what should come of the headers of a scope, and **`groups_iff`**: when it does. -/

namespace Asgiref.Wsgi

/-- The values of the headers that become the entry of this name, in their order. -/
def valuesOf (name : Str) (headers : List (Bytes × Bytes)) : List Str :=
  headers.filterMap fun header =>
    if correctedName header.1 = name then some (decodeLatin1 header.2) else none

/-- The limit is set, and more headers than that have one and the same name in the environ. -/
def Exceeds (limit : Option Int) (headers : List (Bytes × Bytes)) : Prop :=
  ∃ n, limit = some n ∧ n ≠ 0 ∧
    ∃ header ∈ headers, n < (valuesOf (correctedName header.1) headers).length

/-- The names of entries that are made of headers. -/
def HeaderName (name : Str) : Prop :=
  "HTTP_".toList <+: name ∨ name = "CONTENT_LENGTH".toList ∨ name = "CONTENT_TYPE".toList

instance (name : Str) : Decidable (HeaderName name) := by
  unfold HeaderName
  infer_instance

/-- A header has such a name. -/
theorem headerName_correctedName (name : Bytes) : HeaderName (correctedName name) := by
  simp only [correctedName]
  split
  · exact .inr (.inl rfl)
  · split
    · exact .inr (.inr rfl)
    · exact .inl (List.prefix_append _ _)

example : correctedName [120, 45, 116] = "HTTP_X_T".toList := by decide

/-! ## The loop over the headers -/

@[simp] theorem valuesOf_nil (name : Str) : valuesOf name [] = [] := rfl

theorem valuesOf_cons (name : Str) (header : Bytes × Bytes) (rest : List (Bytes × Bytes)) :
    valuesOf name (header :: rest) =
      (if correctedName header.1 = name then [decodeLatin1 header.2] else []) ++
        valuesOf name rest := by
  unfold valuesOf
  rw [List.filterMap_cons]
  split_ifs <;> simp

/-- There is a value for a name exactly if there is a header for it. -/
theorem valuesOf_ne_nil {name : Str} {headers : List (Bytes × Bytes)} :
    valuesOf name headers ≠ [] ↔ ∃ header ∈ headers, correctedName header.1 = name := by
  induction headers with
  | nil => simp
  | cons header rest ih =>
      rw [valuesOf_cons]
      by_cases hname : correctedName header.1 = name
      · simp [hname]
      · simp [hname, ih]

/-- Other names have no values. -/
theorem valuesOf_of_not_headerName {name : Str} (h : ¬ HeaderName name)
    (headers : List (Bytes × Bytes)) : valuesOf name headers = [] := by
  by_contra hne
  obtain ⟨header, -, rfl⟩ := valuesOf_ne_nil.mp hne
  exact h (headerName_correctedName header.1)

theorem get_insert (headers : Headers) (name : Str) (values : List Str) (name' : Str) :
    Headers.get (headers.insert name values) name' =
      if name' = name then values else headers.get name' := by
  unfold Headers.get
  by_cases h : name' = name
  · subst h
    rw [if_pos rfl, AList.lookup_insert, Option.getD_some]
  · rw [if_neg h, AList.lookup_insert_ne h]

/-- A turn of the loop takes a value of its name from the list and puts it behind those that the
name has. -/
theorem get_turn (headers : Headers) (header : Bytes × Bytes) (rest : List (Bytes × Bytes))
    (name : Str) :
    Headers.get (headers.insert (correctedName header.1)
        (headers.get (correctedName header.1) ++ [decodeLatin1 header.2])) name ++
        valuesOf name rest =
      headers.get name ++ valuesOf name (header :: rest) := by
  rw [get_insert, valuesOf_cons]
  by_cases h : name = correctedName header.1
  · subst h
    simp
  · simp [h, Ne.symm h]

/-- **What the loop leaves**: each name has the values that it had and those of its headers. -/
theorem groupHeaders_ok {limit : Option Int} {headers headers' : Headers}
    {list : List (Bytes × Bytes)} (h : groupHeaders limit headers list = .ok headers') :
    (∀ name, headers'.get name = headers.get name ++ valuesOf name list) ∧
      ∀ name, name ∈ headers' ↔ name ∈ headers ∨ valuesOf name list ≠ [] := by
  induction list generalizing headers with
  | nil =>
      cases h
      simp
  | cons header rest ih =>
      simp only [groupHeaders] at h
      split at h
      · cases h
      · obtain ⟨hget, hmem⟩ := ih h
        refine ⟨fun name => ?_, fun name => ?_⟩
        · rw [hget, get_turn]
        · rw [hmem, AList.mem_insert, valuesOf_cons]
          by_cases hname : name = correctedName header.1
          · simp [hname]
          · simp [hname, Ne.symm hname]

/-- **When the loop raises**, and what. -/
theorem groupHeaders_error_iff {limit : Option Int} {headers : Headers}
    {list : List (Bytes × Bytes)} :
    (∃ e, groupHeaders limit headers list = .error e) ↔
      ∃ n, limit = some n ∧ n ≠ 0 ∧ ∃ header ∈ list,
        n < (headers.get (correctedName header.1) ++
          valuesOf (correctedName header.1) list).length := by
  induction list generalizing headers with
  | nil => simp [groupHeaders]
  | cons header rest ih =>
      unfold groupHeaders
      by_cases hreached : reached limit (headers.get (correctedName header.1)).length
      · rw [if_pos hreached]
        refine iff_of_true ⟨_, rfl⟩ ?_
        cases limit with
        | none => cases hreached
        | some n =>
            obtain ⟨hne, hle⟩ : n ≠ 0 ∧ n ≤ (headers.get (correctedName header.1)).length := by
              simpa [reached] using hreached
            refine ⟨n, rfl, hne, header, List.mem_cons_self, ?_⟩
            rw [valuesOf_cons, if_pos rfl]
            simp only [List.length_append, List.length_singleton]
            omega
      · rw [if_neg hreached, ih]
        refine exists_congr fun n => and_congr_right fun hlimit => and_congr_right fun hne => ?_
        subst hlimit
        simp only [get_turn, List.mem_cons, exists_eq_or_imp]
        -- if this header's name is over the limit, so is that of one of the others
        refine ⟨.inr, fun h => h.elim (fun hover => ?_) id⟩
        have hlt : ((headers.get (correctedName header.1)).length : Int) < n := by
          simpa [reached, hne] using hreached
        have hmore : valuesOf (correctedName header.1) rest ≠ [] := by
          intro hnil
          rw [valuesOf_cons, if_pos rfl, hnil] at hover
          simp only [List.length_append, List.length_singleton, List.length_nil] at hover
          omega
        obtain ⟨header', hmem, hname⟩ := valuesOf_ne_nil.mp hmore
        exact ⟨header', hmem, by rw [hname]; exact hover⟩

/-- The exceptions of the loop. -/
theorem groupHeaders_error {limit : Option Int} {headers : Headers} {list : List (Bytes × Bytes)}
    {e : Error} (h : groupHeaders limit headers list = .error e) : e.isValueError := by
  induction list generalizing headers with
  | nil => cases h
  | cons header rest ih =>
      simp only [groupHeaders] at h
      split at h
      · cases h
        rfl
      · exact ih h

/-! ## The entries -/

theorem lookup_foldl_insert {entries : List (Sigma fun _ : Str => List Str)}
    (hnodup : entries.NodupKeys) (environ : Environ) (name : Str) :
    (entries.foldl (fun environ entry => environ.insert entry.1
      (Value.str (Text.ofStr (joinComma entry.2)))) environ).lookup name =
      match entries.dlookup name with
      | some values => some (.str (Text.ofStr (joinComma values)))
      | none => environ.lookup name := by
  induction entries generalizing environ with
  | nil => rfl
  | cons entry rest ih =>
      rw [List.foldl_cons, ih (List.nodupKeys_cons.mp hnodup).2]
      obtain ⟨key, values⟩ := entry
      by_cases hname : name = key
      · subst hname
        rw [List.dlookup_cons_eq, List.dlookup_eq_none.mpr (List.nodupKeys_cons.mp hnodup).1]
        exact AList.lookup_insert _
      · rw [List.dlookup_cons_ne _ _ hname]
        cases rest.dlookup name with
        | some values' => rfl
        | none => exact AList.lookup_insert_ne hname

/-- **The environ with the headers**: an entry for each of their names, and otherwise as before. -/
theorem lookup_merge (environ : Environ) (headers : Headers) (name : Str) :
    (merge environ headers).lookup name =
      if name ∈ headers then some (.str (Text.ofStr (joinComma (headers.get name))))
      else environ.lookup name := by
  rw [merge, lookup_foldl_insert headers.nodupKeys]
  by_cases hname : name ∈ headers
  · obtain ⟨values, hvalues⟩ := Option.isSome_iff_exists.mp (AList.lookup_isSome.mpr hname)
    have hdlookup : headers.entries.dlookup name = some values := hvalues
    rw [if_pos hname, hdlookup, Headers.get, hvalues, Option.getD_some]
  · have hdlookup : headers.entries.dlookup name = none := AList.lookup_eq_none.mpr hname
    rw [if_neg hname, hdlookup]

/-! ## The base entries -/

/-- The strings of a scope that are encoded have no surrogates, and its query string is ASCII. -/
structure Scope.Converts (scope : Scope) : Prop where
  rootPath : (scope.rootPath.getD []).Encodable
  path : scope.path.Encodable
  query : ∀ byte ∈ scope.queryString, byte < 128

theorem encodePath_ofStr (s : Str) : encodePath (Text.ofStr s) = .ok (wsgiString s) := by
  have hencode := encodeUtf8_eq_some_iff.mpr ⟨s, rfl, rfl⟩
  simp only [encodePath, hencode]
  rfl

theorem encodePath_error {t : Text} (h : ¬ t.Encodable) :
    encodePath t = .error .unicodeEncodeError := by
  have hnone : encodeUtf8 t = none := by
    by_contra hne
    obtain ⟨b, hb⟩ := Option.ne_none_iff_exists'.mp hne
    obtain ⟨s, hs, -⟩ := encodeUtf8_eq_some_iff.mp hb
    exact h (Text.encodable_iff.mpr ⟨s, hs⟩)
  simp only [encodePath, hnone]

theorem decodeQuery_ascii {b : Bytes} (h : ∀ byte ∈ b, byte < 128) :
    decodeQuery b = .ok (decodeAscii b) := by
  have hall : b.all (· < 128) := by simpa using h
  simp only [decodeQuery, decodeAscii?, if_pos hall]

theorem decodeQuery_error {b : Bytes} (h : ¬ ∀ byte ∈ b, byte < 128) :
    decodeQuery b = .error .unicodeDecodeError := by
  have hall : ¬ b.all (· < 128) := by simpa using h
  simp only [decodeQuery, decodeAscii?, if_neg hall]

/-- The paths and the query string of a scope that converts. -/
theorem Scope.Converts.strings {scope : Scope} (h : scope.Converts) : ∃ r p : Str,
    scope.rootPath.getD [] = Text.ofStr r ∧ scope.path = Text.ofStr p := by
  obtain ⟨r, hr⟩ := Text.encodable_iff.mp h.rootPath
  obtain ⟨p, hp⟩ := Text.encodable_iff.mp h.path
  exact ⟨r, p, hr, hp⟩

/-- What a scope that converts gives, up to the headers. -/
theorem baseEnviron_of_converts {scope : Scope} (h : scope.Converts) {r p : Str}
    (hr : scope.rootPath.getD [] = Text.ofStr r) (hp : scope.path = Text.ofStr p) (body : Bytes) :
    baseEnviron scope body = (serverEntries scope.server).map fun server =>
      ((Environ.update ∅ (dictLiteral scope (wsgiString r)
        (stripPrefix (wsgiString r) (wsgiString p)) (decodeAscii scope.queryString) body)).update
          server).update (clientEntries scope.client) := by
  simp only [baseEnviron, hr, hp, encodePath_ofStr, decodeQuery_ascii h.query]
  cases serverEntries scope.server with
  | error e => rfl
  | ok server => rfl

/-- A scope that does not convert raises a `ValueError`. -/
theorem baseEnviron_of_not_converts {scope : Scope} (h : ¬ scope.Converts) (body : Bytes) :
    ∃ e, baseEnviron scope body = .error e ∧ e.isValueError := by
  by_cases hroot : (scope.rootPath.getD []).Encodable
  · obtain ⟨r, hr⟩ := Text.encodable_iff.mp hroot
    by_cases hpath : scope.path.Encodable
    · obtain ⟨p, hp⟩ := Text.encodable_iff.mp hpath
      have hquery : ¬ ∀ byte ∈ scope.queryString, byte < 128 := fun hquery =>
        h ⟨hroot, hpath, hquery⟩
      refine ⟨.unicodeDecodeError, ?_, rfl⟩
      simp only [baseEnviron, hr, hp, encodePath_ofStr, decodeQuery_error hquery]
      rfl
    · refine ⟨.unicodeEncodeError, ?_, rfl⟩
      simp only [baseEnviron, hr, encodePath_ofStr, encodePath_error hpath]
      rfl
  · refine ⟨.unicodeEncodeError, ?_, rfl⟩
    simp only [baseEnviron, encodePath_error hroot]
    rfl

/-- The base entries have other names than those of headers. -/
theorem baseEnviron_names {scope : Scope} {body : Bytes} {environ : Environ}
    (h : baseEnviron scope body = .ok environ) {name : Str} (hname : HeaderName name) :
    name ∉ environ := by
  have hliteral : ∀ key ∈ literalNames, ¬ HeaderName key.toList := by decide
  have hserver : ∀ key ∈ ["SERVER_NAME", "SERVER_PORT"], ¬ HeaderName key.toList := by decide
  have hclient : ¬ HeaderName "REMOTE_ADDR".toList := by decide
  have hconverts : scope.Converts := by
    by_contra hnot
    obtain ⟨e, he, -⟩ := baseEnviron_of_not_converts hnot body
    rw [h] at he
    cases he
  obtain ⟨r, p, hr, hp⟩ := hconverts.strings
  rw [baseEnviron_of_converts hconverts hr hp] at h
  cases hentries : serverEntries scope.server with
  | error e =>
      rw [hentries] at h
      cases h
  | ok server =>
      rw [hentries] at h
      cases h
      intro hmem
      rcases mem_update hmem with hmem | ⟨key, hkey, rfl⟩
      · rcases mem_update hmem with hmem | ⟨key, hkey, rfl⟩
        · rcases mem_update hmem with hmem | ⟨key, hkey, rfl⟩
          · exact absurd hmem (AList.notMem_empty _)
          · exact hliteral key hkey hname
        · rw [names_serverEntries hentries] at hkey
          exact hserver key hkey hname
      · rw [names_clientEntries hkey] at hname
        exact hclient hname

/-! ## `build_environ` -/

/-- The scope without its headers. -/
def Scope.bare (scope : Scope) : Scope := { scope with headers := some [] }

variable {limit : Option Int} {scope : Scope} {body : Bytes}

/-- What the method does after the base entries. -/
theorem buildEnviron_of_base (limit : Option Int) {base : Environ}
    (h : baseEnviron scope body = .ok base) :
    buildEnviron limit scope body =
      (groupHeaders limit ∅ scope.headerList).map (merge base) := by
  simp only [buildEnviron, h]
  cases groupHeaders limit ∅ scope.headerList with
  | error e => rfl
  | ok headers => rfl

/-- An exception of the base entries is one of the method. -/
theorem buildEnviron_of_error {e : Error} (h : baseEnviron scope body = .error e) :
    buildEnviron limit scope body = .error e := by
  simp only [buildEnviron, h]
  rfl

/-- There is a base environ for a scope that converts, unless its server is `None`. -/
theorem baseEnviron_isOk (body : Bytes) (h : scope.Converts)
    (hserver : scope.server ≠ some none) :
    ∃ base, baseEnviron scope body = .ok base := by
  obtain ⟨r, p, hr, hp⟩ := h.strings
  rw [baseEnviron_of_converts h hr hp]
  rcases hcase : scope.server with _ | _ | address
  · exact ⟨_, rfl⟩
  · exact absurd hcase hserver
  · exact ⟨_, rfl⟩

/-- `None[0]` raises a `TypeError`. -/
theorem baseEnviron_none (h : scope.Converts) (hserver : scope.server = some none) :
    baseEnviron scope body = .error .notSubscriptable := by
  obtain ⟨r, p, hr, hp⟩ := h.strings
  rw [baseEnviron_of_converts h hr hp, hserver]
  rfl

/-- **When the method raises** after the base entries. -/
theorem buildEnviron_error_iff {base : Environ} (h : baseEnviron scope body = .ok base) :
    (∃ e, buildEnviron limit scope body = .error e ∧ e.isValueError) ↔
      Exceeds limit scope.headerList := by
  have hiff : (∃ e, groupHeaders limit ∅ scope.headerList = .error e) ↔ _ := groupHeaders_error_iff
  have hempty : ∀ name, Headers.get ∅ name = [] := fun name => by
    rw [Headers.get, AList.lookup_empty, Option.getD_none]
  simp only [hempty, List.nil_append] at hiff
  rw [Exceeds, ← hiff, buildEnviron_of_base limit h]
  cases hgroup : groupHeaders limit ∅ scope.headerList with
  | error e => exact iff_of_true ⟨e, rfl, groupHeaders_error hgroup⟩ ⟨e, rfl⟩
  | ok headers => exact iff_of_false (fun ⟨_, he, _⟩ => by cases he) fun ⟨_, he⟩ => by cases he

/-- **What the method returns**: the entries of the headers, and the base entries. -/
theorem buildEnviron_ok {environ : Environ} (h : buildEnviron limit scope body = .ok environ) :
    ∃ base, baseEnviron scope body = .ok base ∧ ∀ name, environ.lookup name =
      if valuesOf name scope.headerList ≠ [] then
        some (.str (Text.ofStr (joinComma (valuesOf name scope.headerList))))
      else base.lookup name := by
  cases hbase : baseEnviron scope body with
  | error e =>
      rw [buildEnviron_of_error hbase] at h
      cases h
  | ok base =>
      rw [buildEnviron_of_base limit hbase] at h
      cases hgroup : groupHeaders limit ∅ scope.headerList with
      | error e =>
          rw [hgroup] at h
          cases h
      | ok headers =>
          rw [hgroup] at h
          cases h
          obtain ⟨hget, hmem⟩ := groupHeaders_ok hgroup
          refine ⟨base, rfl, fun name => ?_⟩
          have hmem' : name ∈ headers ↔ valuesOf name scope.headerList ≠ [] := by
            rw [hmem]
            exact or_iff_right (AList.notMem_empty name)
          have hget' : headers.get name = valuesOf name scope.headerList := by
            rw [hget, Headers.get, AList.lookup_empty, Option.getD_none, List.nil_append]
          rw [lookup_merge, hget']
          simp only [hmem']

/-- It returns if there is a base environ and the limit is kept. -/
theorem buildEnviron_isOk (limit : Option Int) {base : Environ}
    (h : baseEnviron scope body = .ok base) (hnot : ¬ Exceeds limit scope.headerList) :
    ∃ environ, buildEnviron limit scope body = .ok environ := by
  have hbuild := buildEnviron_of_base limit h
  cases hgroup : groupHeaders limit ∅ scope.headerList with
  | ok headers =>
      rw [hgroup] at hbuild
      exact ⟨_, hbuild⟩
  | error e =>
      rw [hgroup] at hbuild
      exact absurd ((buildEnviron_error_iff h).mp ⟨e, hbuild, groupHeaders_error hgroup⟩) hnot

/-- A scope that gives an environ converts. -/
theorem converts_of_buildEnviron {environ : Environ}
    (h : buildEnviron limit scope body = .ok environ) : scope.Converts := by
  by_contra hnot
  obtain ⟨e, he, -⟩ := baseEnviron_of_not_converts hnot body
  rw [buildEnviron_of_error he] at h
  cases h

/-- **Which scopes have an environ.** -/
theorem buildEnviron_isOk_iff : (∃ environ, buildEnviron limit scope body = .ok environ) ↔
    scope.Converts ∧ scope.server ≠ some none ∧ ¬ Exceeds limit scope.headerList := by
  constructor
  · rintro ⟨environ, h⟩
    have hconverts := converts_of_buildEnviron h
    have hserver : scope.server ≠ some none := fun hnone => by
      rw [buildEnviron_of_error (baseEnviron_none hconverts hnone)] at h
      cases h
    refine ⟨hconverts, hserver, fun hexceeds => ?_⟩
    obtain ⟨base, hbase⟩ := baseEnviron_isOk body hconverts hserver
    obtain ⟨e, he, -⟩ := (buildEnviron_error_iff hbase).mpr hexceeds
    rw [h] at he
    cases he
  · rintro ⟨hconverts, hserver, hnot⟩
    obtain ⟨base, hbase⟩ := baseEnviron_isOk body hconverts hserver
    exact buildEnviron_isOk limit hbase hnot

/-- What should come of the headers of a scope. -/
structure Groups (limit : Option Int) (scope : Scope) (body : Bytes) : Prop where
  raises : (∃ e, buildEnviron limit scope body = .error e ∧ e.isValueError) ↔
    Exceeds limit scope.headerList
  entries : ¬ Exceeds limit scope.headerList → ∃ environ bare,
    buildEnviron limit scope body = .ok environ ∧ buildEnviron limit scope.bare body = .ok bare ∧
    -- each name has the values of its headers
    (∀ name, valuesOf name scope.headerList ≠ [] →
      environ.lookup name =
        some (.str (Text.ofStr (joinComma (valuesOf name scope.headerList))))) ∧
    -- there is no entry of such a name without a header
    (∀ name, HeaderName name → valuesOf name scope.headerList = [] → name ∉ environ) ∧
    -- and the others are as they are without headers
    (∀ name, valuesOf name scope.headerList = [] → environ.lookup name = bare.lookup name) ∧
    ∀ name value, bare.lookup name = some value → environ.lookup name = some value

/-- With a server that is `None` there is no environ, and no `ValueError`. -/
theorem Scope.Converts.not_groups (h : scope.Converts) (hserver : scope.server = some none) :
    ¬ Groups limit scope body := by
  intro hgroups
  have hraised : buildEnviron limit scope body = .error .notSubscriptable :=
    buildEnviron_of_error (baseEnviron_none h hserver)
  have hnot : ¬ Exceeds limit scope.headerList := by
    rw [← hgroups.raises, hraised]
    rintro ⟨e, he, hvalue⟩
    cases he
    cases hvalue
  obtain ⟨environ, -, henviron, -⟩ := hgroups.entries hnot
  rw [hraised] at henviron
  cases henviron

/-- **When the headers are grouped without loss or mixing**: always, but for a server that is
`None`. -/
theorem groups_iff (hroot : (scope.rootPath.getD []).Encodable) (hpath : scope.path.Encodable)
    (hquery : ∀ byte ∈ scope.queryString, byte < 128) :
    Groups limit scope body ↔ scope.server ≠ some none := by
  have hconverts : scope.Converts := ⟨hroot, hpath, hquery⟩
  constructor
  · exact fun h hserver => hconverts.not_groups hserver h
  · intro hserver
    obtain ⟨base, hbase⟩ := baseEnviron_isOk body hconverts hserver
    refine ⟨buildEnviron_error_iff hbase, fun hnot => ?_⟩
    have hbase' : baseEnviron scope.bare body = .ok base := hbase
    have hnone : ¬ Exceeds limit scope.bare.headerList := by
      rintro ⟨n, -, -, header, hmem, -⟩
      cases hmem
    obtain ⟨environ, henviron⟩ := buildEnviron_isOk limit hbase hnot
    obtain ⟨bare, hbare⟩ := buildEnviron_isOk limit hbase' hnone
    have hlookup : ∀ name, environ.lookup name =
        if valuesOf name scope.headerList ≠ [] then
          some (.str (Text.ofStr (joinComma (valuesOf name scope.headerList))))
        else base.lookup name := by
      obtain ⟨base₁, hbase₁, hlookup⟩ := buildEnviron_ok henviron
      rw [hbase] at hbase₁
      cases hbase₁
      exact hlookup
    have hlookup' : ∀ name, bare.lookup name = base.lookup name := by
      obtain ⟨base₁, hbase₁, hlookup⟩ := buildEnviron_ok hbare
      rw [hbase'] at hbase₁
      cases hbase₁
      exact fun name => (hlookup name).trans (if_neg (not_not.mpr rfl))
    refine ⟨environ, bare, henviron, hbare, fun name hname => ?_, fun name hheader hname => ?_,
      fun name hname => ?_, fun name value hvalue => ?_⟩
    · rw [hlookup, if_pos hname]
    · rw [← AList.lookup_eq_none, hlookup, if_neg (not_not.mpr hname)]
      exact AList.lookup_eq_none.mpr (baseEnviron_names hbase hheader)
    · rw [hlookup, if_neg (not_not.mpr hname), hlookup']
    · -- a base entry has no name of a header
      rw [hlookup'] at hvalue
      have hname : ¬ HeaderName name := fun hheader => by
        rw [AList.lookup_eq_none.mpr (baseEnviron_names hbase hheader)] at hvalue
        cases hvalue
      rw [hlookup, if_neg (not_not.mpr (valuesOf_of_not_headerName hname _)), hvalue]

/-- A plain request, with these headers and this server. -/
def request (server : Option (Option Address)) (headers : List (Bytes × Bytes)) : Scope where
  method := Text.ofStr "GET".toList
  rootPath := none
  path := Text.ofStr "/".toList
  queryString := [97, 61, 49]
  httpVersion := Text.ofStr "1.1".toList
  scheme := none
  server := server
  client := none
  headers := some headers

theorem request_converts (server : Option (Option Address)) (headers : List (Bytes × Bytes)) :
    (request server headers).Converts where
  rootPath := Text.encodable_iff.mpr ⟨[], rfl⟩
  path := Text.encodable_iff.mpr ⟨"/".toList, rfl⟩
  query := by
    show ∀ byte ∈ ([97, 61, 49] : Bytes), byte < 128
    decide +kernel

/-- The header `x-test: value`. -/
def xTest : Bytes × Bytes := ([120, 45, 116, 101, 115, 116], [118, 97, 108, 117, 101])

theorem groups_iff_request : Groups (some 5) (request none [xTest, xTest]) [] :=
  (groups_iff (request_converts _ _).rootPath (request_converts _ _).path
    (request_converts _ _).query).mpr (by decide)

/-- With a server that is `None`, a header gets no entry. -/
theorem none_not_groups : ¬ Groups (some 5) (request (some none) [xTest]) [] :=
  (request_converts _ _).not_groups rfl

end Asgiref.Wsgi
