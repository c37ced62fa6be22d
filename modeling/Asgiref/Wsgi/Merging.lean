import Asgiref.Wsgi.Mount

/-! # Headers that become one entry

The names of an environ cannot tell all header names apart: letters lose their case, and `_` and `-`
are the same, so `x_user` comes to the entry of `x-user`.

* **`foldedName`** — a header name, with what an environ cannot tell apart made equal.
* **`Merged`** — the headers that come to one entry, by their names alone;
  **`correctedName_eq_iff`** — and they are these.
* **`header_entry`** — what the application reads for a header that the request has. -/

namespace Asgiref.Wsgi

/-- A byte of a name: a letter in lower case, and `-` for `_`. -/
def folded (byte : UInt8) : Bytes :=
  if byte = 0x5f then [0x2d]
  -- `ß` has no upper case of its own
  else if byte = 0xdf then [0x73, 0x73]
  else if 0x41 ≤ byte ∧ byte ≤ 0x5a ∨ 0xc0 ≤ byte ∧ byte ≤ 0xde ∧ byte ≠ 0xd7 then [byte + 0x20]
  else [byte]

/-- A name, with what an environ cannot tell apart made equal. -/
def foldedName (name : Bytes) : Bytes := name.flatMap folded

/-- The two names that have entries of their own. -/
def Unprefixed (name : Bytes) : Prop :=
  decodeLatin1 name = "content-length".toList ∨ decodeLatin1 name = "content-type".toList

instance (name : Bytes) : Decidable (Unprefixed name) := inferInstanceAs (Decidable (_ ∨ _))

/-- Headers with these names come to one entry. -/
def Merged (a b : Bytes) : Prop :=
  a = b ∨ ¬ Unprefixed a ∧ ¬ Unprefixed b ∧ foldedName a = foldedName b

instance (a b : Bytes) : Decidable (Merged a b) := inferInstanceAs (Decidable (_ ∨ _))

/-! ## Bytes -/

/-- The characters that a byte of a name becomes in the entry. -/
def entryChars (byte : UInt8) : Str :=
  (upper (Char.ofNat byte.toNat)).map fun c => if c = '-' then '_' else c

/-- The one character of a folded byte. -/
def entryChar (byte : UInt8) : Char := (entryChars byte).headD '_'

/-- The folded byte of a character. -/
def entryByte (c : Char) : UInt8 :=
  if c = '_' then 0x2d
  else if c.toNat = 0x39c then 0xb5
  else if c.toNat = 0x178 then 0xff
  else
    let byte := UInt8.ofNat c.toNat
    if 0x41 ≤ byte ∧ byte ≤ 0x5a ∨ 0xc0 ≤ byte ∧ byte ≤ 0xde ∧ byte ≠ 0xd7 then byte + 0x20
    else byte

/-- Folding loses nothing that the entry has. -/
theorem entryChars_folded (byte : UInt8) : entryChars byte = (folded byte).map entryChar := by
  have h : (List.range 256).all (fun n =>
      entryChars (UInt8.ofNat n) = (folded (UInt8.ofNat n)).map entryChar) = true := by
    decide +kernel
  have hbyte := of_decide_eq_true
    (List.all_eq_true.mp h byte.toNat (List.mem_range.mpr byte.toNat_lt))
  rwa [UInt8.ofNat_toNat] at hbyte

/-- And the entry loses no more than that. -/
theorem entryByte_entryChar {byte c : UInt8} (hc : c ∈ folded byte) :
    entryByte (entryChar c) = c := by
  have h : (List.range 256).all (fun n =>
      (folded (UInt8.ofNat n)).all fun c => entryByte (entryChar c) = c) = true := by
    decide +kernel
  have hbyte := List.all_eq_true.mp h byte.toNat (List.mem_range.mpr byte.toNat_lt)
  rw [UInt8.ofNat_toNat] at hbyte
  exact of_decide_eq_true (List.all_eq_true.mp hbyte c hc)

/-! ## Names -/

theorem entry_foldedName (name : Bytes) :
    (((decodeLatin1 name).flatMap upper).map fun c => if c = '-' then '_' else c) =
      (foldedName name).map entryChar := by
  induction name with
  | nil => rfl
  | cons byte name ih =>
      have hhead := entryChars_folded byte
      unfold entryChars at hhead
      unfold decodeLatin1 foldedName at ih ⊢
      rw [List.map_cons, List.flatMap_cons, List.map_append, List.flatMap_cons, List.map_append,
        ih, hhead]

/-- A folded name can be read off its entry. -/
theorem foldedName_injective {a b : Bytes}
    (h : (foldedName a).map entryChar = (foldedName b).map entryChar) :
    foldedName a = foldedName b := by
  have hback : ∀ name : Bytes, ((foldedName name).map entryChar).map entryByte =
      foldedName name := by
    intro name
    rw [List.map_map]
    refine (List.map_congr_left fun c hc => ?_).trans (List.map_id _)
    obtain ⟨byte, -, hfolded⟩ := List.mem_flatMap.mp hc
    exact entryByte_entryChar hfolded
  rw [← hback a, ← hback b, h]

/-- A name without an entry of its own. -/
theorem correctedName_of_not {name : Bytes} (h : ¬ Unprefixed name) :
    correctedName name = "HTTP_".toList ++ (foldedName name).map entryChar := by
  obtain ⟨hlength, htype⟩ := not_or.mp h
  simp only [correctedName]
  rw [if_neg hlength, if_neg htype, entry_foldedName]

/-- Each of the two names is alone in its entry. -/
theorem correctedName_unprefixed {a b : Bytes} (ha : Unprefixed a)
    (h : correctedName a = correctedName b) : a = b := by
  have hother : ∀ {name : Bytes} {s : Str}, s.head? = some 'C' → ¬ Unprefixed name →
      correctedName name ≠ s := by
    intro name s hs hname heq
    rw [correctedName_of_not hname] at heq
    rw [← heq] at hs
    cases hs
  by_cases hb : Unprefixed b
  · have hnames : decodeLatin1 a = decodeLatin1 b := by
      simp only [correctedName] at h
      rcases ha with ha | ha <;> rcases hb with hb | hb
      · rw [ha, hb]
      · rw [ha, hb] at h
        exact absurd h (by decide)
      · rw [ha, hb] at h
        exact absurd h (by decide)
      · rw [ha, hb]
    exact List.map_injective_iff.mpr latin1_injective hnames
  · refine absurd h.symm (hother ?_ hb)
    simp only [correctedName]
    rcases ha with ha | ha
    · rw [ha]
      rfl
    · rw [ha]
      rfl

/-- **Names that come to one entry.** -/
theorem correctedName_eq_iff (a b : Bytes) : correctedName a = correctedName b ↔ Merged a b := by
  constructor
  · intro h
    by_cases ha : Unprefixed a
    · exact .inl (correctedName_unprefixed ha h)
    · by_cases hb : Unprefixed b
      · exact .inl (correctedName_unprefixed hb h.symm).symm
      · rw [correctedName_of_not ha, correctedName_of_not hb] at h
        exact .inr ⟨ha, hb, foldedName_injective (List.append_cancel_left h)⟩
  · rintro (rfl | ⟨ha, hb, h⟩)
    · rfl
    · rw [correctedName_of_not ha, correctedName_of_not hb, h]

/-! ## The environ -/

/-- **What the application reads for a header** that the request has: the values of all headers that
are merged with it, in their order. -/
theorem header_entry {limit : Option Int} {scope : Scope} {body : Bytes} {environ : Environ}
    {name value : Bytes} (h : buildEnviron limit scope body = .ok environ)
    (hheader : (name, value) ∈ scope.headerList) :
    environ.lookup (correctedName name) = some (.str (Text.ofStr (joinComma
      ((scope.headerList.filter fun header => Merged header.1 name).map
        fun header => decodeLatin1 header.2)))) := by
  obtain ⟨base, -, hlookup⟩ := buildEnviron_ok h
  have hvalues : ∀ headers, valuesOf (correctedName name) headers =
      (headers.filter fun header => Merged header.1 name).map
        fun header => decodeLatin1 header.2 := by
    intro headers
    induction headers with
    | nil => rfl
    | cons header headers ih =>
        rw [valuesOf_cons, ih]
        by_cases hmerged : Merged header.1 name
        · rw [if_pos ((correctedName_eq_iff _ _).mpr hmerged)]
          simp [hmerged]
        · rw [if_neg fun heq => hmerged ((correctedName_eq_iff _ _).mp heq)]
          simp [hmerged]
  have hne : valuesOf (correctedName name) scope.headerList ≠ [] :=
    valuesOf_ne_nil.mpr ⟨_, hheader, rfl⟩
  rw [hlookup, if_pos hne, hvalues]

/-- The headers `x-user: a`, `X_USER: b` and `x-users: c`. -/
def users : List (Bytes × Bytes) :=
  [("x-user".toUTF8.toList, [97]), ("X_USER".toUTF8.toList, [98]),
    ("x-users".toUTF8.toList, [99])]

/-- The first two are one entry. -/
theorem header_entry_users : ∃ environ, buildEnviron none (request none users) [] = .ok environ ∧
    ("x-user".toUTF8.toList, [97]) ∈ (request none users).headerList ∧
    environ.lookup (correctedName "x-user".toUTF8.toList) =
      some (.str (Text.ofStr (joinComma
        ((users.filter fun header => Merged header.1 "x-user".toUTF8.toList).map
          fun header => decodeLatin1 header.2)))) := by
  obtain ⟨base, hbase⟩ := baseEnviron_isOk [] (request_converts none users) (by decide)
  have hnot : ¬ Exceeds none (request none users).headerList := fun ⟨n, hn, _⟩ => by cases hn
  obtain ⟨environ, h⟩ := buildEnviron_isOk none hbase hnot
  exact ⟨environ, h, List.mem_cons_self, header_entry h List.mem_cons_self⟩

example : (users.filter fun header => Merged header.1 "x-user".toUTF8.toList).map Prod.snd =
    [[97], [98]] := by
  decide +kernel

end Asgiref.Wsgi
