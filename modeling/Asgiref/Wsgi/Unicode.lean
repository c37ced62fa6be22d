import Asgiref.Lib.PrefixCode
import Asgiref.Wsgi.Text

/-! # The encodings of the WSGI wrapper

A `str` that comes from outside may have lone surrogates in it, so it is a list of code points
(`Text`); one that was decoded has none (`Str`). WSGI wants strings whose code points are the bytes
of the UTF-8 encoding.

* **`encodeUtf8`**, **`decodeUtf8`**, **`decodeLatin1`**, **`encodeLatin1`**, **`decodeAscii?`** —
  the codecs.
* **`utf8`** — UTF-8 is a prefix code, and **`wsgiString`** is the encoding of a string for WSGI.
* **`decode_wsgiString`** — what was encoded for WSGI can be read back. -/

namespace Asgiref.Wsgi

/-- A code point, which may be a surrogate. -/
abbrev CodePoint := Fin 0x110000

/-- `str`, with all code points. -/
abbrev Text := List CodePoint

/-- The code point of a character. -/
def codePoint (c : Char) : CodePoint :=
  ⟨c.toNat, by
    have h := c.valid
    unfold UInt32.isValidChar Nat.isValidChar at h
    show c.val.toNat < 0x110000
    omega⟩

/-- A string without surrogates. -/
def Text.ofStr (s : Str) : Text := s.map codePoint

/-- The character of a code point, unless that is a surrogate. -/
def CodePoint.char? (c : CodePoint) : Option Char :=
  if h : c.val.isValidChar then some (Char.ofNatAux c.val h) else none

/-- The characters of a string, unless it has a surrogate. -/
def Text.chars? : Text → Option Str
  | [] => some []
  | c :: s => (CodePoint.char? c).bind fun c' => (Text.chars? s).map (c' :: ·)

/-- No code point is a surrogate. -/
def Text.Encodable (s : Text) : Prop := ∀ c ∈ s, ¬ (0xd800 ≤ c.val ∧ c.val ≤ 0xdfff)

/-! ## The codecs -/

/-- UTF-8, as Lean's own strings are encoded. -/
def utf8 : PrefixCode Char UInt8 where
  word := String.utf8EncodeChar
  read b := b.toByteArray.utf8DecodeChar? 0
  read_word c b := by
    rw [List.toByteArray_append]
    exact ByteArray.utf8DecodeChar?_utf8EncodeChar_append
  word_ne_nil _ := String.utf8EncodeChar_ne_nil

/-- `str.encode("utf8")`; `none` where it raises `UnicodeEncodeError`. -/
def encodeUtf8 (s : Text) : Option Bytes := s.chars?.map utf8.encode

/-- `bytes.decode("utf8")`; `none` where it raises `UnicodeDecodeError`. -/
def decodeUtf8 (b : Bytes) : Option Str := b.toByteArray.utf8Decode?.map Array.toList

/-- `bytes.decode("latin1")`. -/
def decodeLatin1 (b : Bytes) : Str := b.map fun byte => Char.ofNat byte.toNat

/-- `str.encode("latin1")`; `none` where it raises `UnicodeEncodeError`. -/
def encodeLatin1 (s : Text) : Option Bytes :=
  if s.all (·.val < 256) then some (s.map fun c => UInt8.ofNat c.val) else none

/-- `bytes.decode("ascii")`; `none` where it raises `UnicodeDecodeError`. -/
def decodeAscii? (b : Bytes) : Option Str :=
  if b.all (· < 128) then some (decodeAscii b) else none

/-- `.encode("utf8").decode("latin1")` of a string without surrogates. -/
def wsgiString (s : Str) : Str := decodeLatin1 (utf8.encode s)

/-! ## Round trips -/

theorem toNat_codePoint (c : Char) : (codePoint c).val = c.toNat := rfl

theorem char?_codePoint (c : Char) : CodePoint.char? (codePoint c) = some c := by
  have hvalid : (codePoint c).val.isValidChar := c.valid
  rw [CodePoint.char?, dif_pos hvalid]
  rfl

theorem codePoint_injective : Function.Injective codePoint := by
  intro c c' h
  have hchar := char?_codePoint c
  rw [h, char?_codePoint] at hchar
  exact (Option.some.inj hchar).symm

theorem codePoint_of_char? {c : CodePoint} {c' : Char} (h : CodePoint.char? c = some c') :
    codePoint c' = c := by
  unfold CodePoint.char? at h
  by_cases hvalid : c.val.isValidChar
  · rw [dif_pos hvalid] at h
    cases h
    rfl
  · rw [dif_neg hvalid] at h
    cases h

/-- The strings without surrogates are those that have characters. -/
theorem chars?_eq_some_iff {t : Text} {s : Str} : t.chars? = some s ↔ t = Text.ofStr s := by
  constructor
  · intro h
    induction t generalizing s with
    | nil =>
        cases h
        rfl
    | cons c t ih =>
        obtain ⟨c', hc, hrest⟩ := Option.bind_eq_some_iff.mp h
        obtain ⟨s', hs, rfl⟩ := Option.map_eq_some_iff.mp hrest
        rw [ih hs, ← codePoint_of_char? hc]
        rfl
  · rintro rfl
    induction s with
    | nil => rfl
    | cons c s ih =>
        show ((CodePoint.char? (codePoint c)).bind fun c' =>
          (Text.chars? (Text.ofStr s)).map (c' :: ·)) = _
        rw [char?_codePoint, ih]
        rfl

/-- A string without surrogates is one of characters. -/
theorem Text.encodable_iff {t : Text} : t.Encodable ↔ ∃ s, t = Text.ofStr s := by
  constructor
  · intro h
    induction t with
    | nil => exact ⟨[], rfl⟩
    | cons c t ih =>
        obtain ⟨s, rfl⟩ := ih fun c' hc' => h c' (List.mem_cons_of_mem _ hc')
        have hnot := h c List.mem_cons_self
        have hlt : c.val < 0x110000 := c.isLt
        have hvalid : c.val.isValidChar := by
          unfold Nat.isValidChar
          omega
        exact ⟨Char.ofNatAux c.val hvalid :: s, rfl⟩
  · rintro ⟨s, rfl⟩ c hc ⟨hlow, hhigh⟩
    obtain ⟨c', -, rfl⟩ := List.mem_map.mp hc
    have hvalid : c'.toNat.isValidChar := c'.valid
    unfold Nat.isValidChar at hvalid
    rw [toNat_codePoint] at hlow hhigh
    omega

theorem encodeUtf8_eq_some_iff {t : Text} {b : Bytes} :
    encodeUtf8 t = some b ↔ ∃ s, t = Text.ofStr s ∧ utf8.encode s = b := by
  simp only [encodeUtf8, Option.map_eq_some_iff, chars?_eq_some_iff]

theorem ofStr_injective {s t : Str} (h : Text.ofStr s = Text.ofStr t) : s = t :=
  List.map_injective_iff.mpr codePoint_injective h

/-- A prefix of a string of characters, as one of code points. -/
theorem ofStr_prefix_iff {s t : Str} : Text.ofStr s <+: Text.ofStr t ↔ s <+: t :=
  List.prefix_map_iff_of_injective codePoint_injective

/-- A byte is its own code point in latin-1. -/
theorem toNat_latin1 (byte : UInt8) : (Char.ofNat byte.toNat).toNat = byte.toNat := by
  have hlt : byte.toNat < 256 := UInt8.toNat_lt_size byte
  have hvalid : byte.toNat.isValidChar := .inl (by omega)
  rw [Char.ofNat, dif_pos hvalid]
  rfl

theorem latin1_injective : Function.Injective fun byte : UInt8 => Char.ofNat byte.toNat := by
  intro x y hxy
  have hval := congrArg Char.toNat hxy
  rw [toNat_latin1, toNat_latin1] at hval
  exact UInt8.toNat_inj.mp hval

/-- **Latin-1 has every byte.** -/
theorem encodeLatin1_decodeLatin1 (b : Bytes) :
    encodeLatin1 (Text.ofStr (decodeLatin1 b)) = some b := by
  have hval : ∀ byte : UInt8, (codePoint (Char.ofNat byte.toNat)).val = byte.toNat :=
    fun byte => toNat_latin1 byte
  have hall : (Text.ofStr (decodeLatin1 b)).all (·.val < 256) := by
    simp only [Text.ofStr, decodeLatin1, List.all_eq_true, List.mem_map, decide_eq_true_eq]
    rintro c ⟨c', ⟨byte, -, rfl⟩, rfl⟩
    rw [hval]
    exact UInt8.toNat_lt_size byte
  rw [encodeLatin1, if_pos hall, Text.ofStr, decodeLatin1, List.map_map, List.map_map]
  refine congrArg some ((List.map_congr_left fun byte _ => ?_).trans (List.map_id b))
  show UInt8.ofNat (codePoint (Char.ofNat byte.toNat)).val = byte
  rw [hval, UInt8.ofNat_toNat]

/-- **UTF-8 can be read back.** -/
theorem decodeUtf8_encode (s : Str) : decodeUtf8 (utf8.encode s) = some s := by
  have hdecode : (List.utf8Encode s).utf8Decode? = some s.toArray := List.utf8Decode?_utf8Encode
  show (List.utf8Encode s).utf8Decode?.map Array.toList = some s
  rw [hdecode]
  rfl

/-- **What was encoded for WSGI can be read back.** -/
theorem decode_wsgiString (s : Str) :
    (encodeLatin1 (Text.ofStr (wsgiString s))).bind decodeUtf8 = some s := by
  rw [wsgiString, encodeLatin1_decodeLatin1]
  exact decodeUtf8_encode s

end Asgiref.Wsgi
