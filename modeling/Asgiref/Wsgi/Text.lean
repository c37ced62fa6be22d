import Mathlib.Data.List.Basic

/-! # The strings of the WSGI wrapper

A `str` is its list of code points, a `bytes` its list of bytes.

* **`Interpreter`** — what depends on the interpreter: its Unicode database, for the characters
  beyond ASCII, and its limit on the digits of an integer.
* **`lower`**, **`encodeAscii`**, **`int`** — the string operations that `start_response` uses.
* **`decodeAscii_encodeAscii`** — an ASCII header can be read back. -/

namespace Asgiref.Wsgi

/-- `str`. -/
abbrev Str := List Char

/-- `bytes`. -/
abbrev Bytes := List UInt8

/-- What depends on the interpreter. -/
structure Interpreter where
  /-- `str.lower` of a character beyond ASCII. -/
  lower : Char → Str
  /-- Whether a character beyond ASCII is white space. -/
  isSpace : Char → Bool
  /-- The value of a decimal digit beyond ASCII. -/
  decimal : Char → Option Nat
  /-- `sys.get_int_max_str_digits()`; 0 stands for no limit. -/
  maxStrDigits : Nat

namespace Interpreter

variable (i : Interpreter)

/-- An interpreter that knows only ASCII. -/
def ascii : Interpreter where
  lower c := [c]
  isSpace _ := false
  decimal _ := none
  maxStrDigits := 4300

/-- `str.lower`. -/
def lowered (s : Str) : Str :=
  s.flatMap fun c => if c.toNat < 128 then [c.toLower] else i.lower c

/-- White space around the digits. -/
def space (c : Char) : Bool :=
  if c.toNat < 128 then c = ' ' || (9 ≤ c.toNat && c.toNat ≤ 13) else i.isSpace c

/-- The value of a digit. -/
def digit (c : Char) : Option Nat :=
  if c.toNat < 128 then if c.isDigit then some (c.toNat - 48) else none else i.decimal c

/-- Digits with single underscores between them. -/
def digits : Str → Option (List Nat)
  | [] => none
  | [c] => (i.digit c).map fun d => [d]
  | c :: '_' :: rest => (i.digit c).bind fun d => (digits rest).map (d :: ·)
  | c :: rest => (i.digit c).bind fun d => (digits rest).map (d :: ·)

/-- The number that the digits denote, within the limit. -/
def natural (s : Str) : Option Nat :=
  (i.digits s).bind fun ds =>
    if i.maxStrDigits ≠ 0 ∧ i.maxStrDigits < ds.length then none
    else some (ds.foldl (fun n d => 10 * n + d) 0)

/-- `str` without the white space around it. -/
def strip (s : Str) : Str := ((s.dropWhile i.space).reverse.dropWhile i.space).reverse

/-- `int`; `none` where it raises `ValueError`. -/
def int (s : Str) : Option Int :=
  match i.strip s with
  | '-' :: s' => (i.natural s').map fun n => -(n : Int)
  | '+' :: s' => (i.natural s').map Int.ofNat
  | s' => (i.natural s').map Int.ofNat

end Interpreter

/-- `str.encode("ascii")`; `none` where it raises `UnicodeEncodeError`. -/
def encodeAscii (s : Str) : Option Bytes :=
  if s.all (·.toNat < 128) then some (s.map fun c => UInt8.ofNat c.toNat) else none

/-- `bytes.decode("ascii")`, of bytes that came from such an encoding. -/
def decodeAscii (b : Bytes) : Str := b.map fun byte => Char.ofNat byte.toNat

/-- **What was encoded can be read back.** -/
theorem decodeAscii_encodeAscii {s : Str} {b : Bytes} (h : encodeAscii s = some b) :
    decodeAscii b = s := by
  unfold encodeAscii at h
  split at h
  · rename_i hall
    cases h
    unfold decodeAscii
    rw [List.map_map]
    refine List.map_congr_left (g := id) (fun c hc => ?_) |>.trans (List.map_id s)
    have hlt : c.toNat < 128 := by simpa using List.all_eq_true.mp hall c hc
    have hbyte : (UInt8.ofNat c.toNat).toNat = c.toNat := by
      rw [UInt8.toNat_ofNat']
      omega
    show Char.ofNat (UInt8.ofNat c.toNat).toNat = c
    rw [hbyte]
    exact Char.ofNat_toNat c
  · cases h

example : Interpreter.ascii.int " +1_000\n".toList = some 1000 := by decide

end Asgiref.Wsgi
