import Mathlib.Data.List.Infix

/-! # Prefix codes

A code gives each symbol a word, and a string of symbols is encoded by the words of its symbols,
one after the other. If the first symbol can be read back whatever follows its word, then nothing
that is cut off an encoded string ever begins or ends inside a word. Nothing here is about any
particular code.

* **`PrefixCode`** — the words, and how the first symbol is read.
* **`encode_append_eq`** — where an encoded string goes on from another one, so do the symbols.
* **`encode_prefix_iff`**, **`drop_encode`** — so prefixes can be tested and cut on the encoded
  strings. -/

namespace Asgiref

variable {α β : Type*}

/-- A code, with a reader of the first symbol. -/
structure PrefixCode (α β : Type*) where
  word : α → List β
  read : List β → Option α
  read_word : ∀ a bs, read (word a ++ bs) = some a
  word_ne_nil : ∀ a, word a ≠ []

namespace PrefixCode

variable (C : PrefixCode α β)

/-- The words of a string. -/
def encode (s : List α) : List β := s.flatMap C.word

@[simp] theorem encode_nil : C.encode [] = [] := rfl

@[simp] theorem encode_cons (a : α) (s : List α) : C.encode (a :: s) = C.word a ++ C.encode s := rfl

@[simp] theorem encode_append (s t : List α) : C.encode (s ++ t) = C.encode s ++ C.encode t :=
  List.flatMap_append

/-- The first symbol, and what comes after its word. -/
theorem word_append_inj {a b : α} {bs cs : List β} (h : C.word a ++ bs = C.word b ++ cs) :
    a = b ∧ bs = cs := by
  have hread := congrArg C.read h
  rw [C.read_word, C.read_word] at hread
  cases hread
  exact ⟨rfl, List.append_cancel_left h⟩

/-- **Cutting between words.** If an encoded string begins with another one, the rest is encoded as
well, and so are the symbols cut. -/
theorem encode_append_eq {s t : List α} {bs : List β} (h : C.encode s ++ bs = C.encode t) :
    ∃ u, t = s ++ u ∧ bs = C.encode u := by
  induction s generalizing t with
  | nil => exact ⟨t, rfl, h⟩
  | cons a s ih =>
      cases t with
      | nil =>
          rw [encode_cons, encode_nil, List.append_assoc, List.append_eq_nil_iff] at h
          exact absurd h.1 (C.word_ne_nil a)
      | cons b t =>
          rw [encode_cons, encode_cons, List.append_assoc] at h
          obtain ⟨rfl, hrest⟩ := C.word_append_inj h
          obtain ⟨u, rfl, hu⟩ := ih hrest
          exact ⟨u, rfl, hu⟩

/-- **Prefixes can be tested on the encoded strings.** -/
theorem encode_prefix_iff {s t : List α} : C.encode s <+: C.encode t ↔ s <+: t := by
  constructor
  · rintro ⟨bs, h⟩
    obtain ⟨u, rfl, -⟩ := C.encode_append_eq h
    exact List.prefix_append s u
  · rintro ⟨u, rfl⟩
    rw [encode_append]
    exact List.prefix_append _ _

/-- **And they can be cut there.** -/
theorem drop_encode (s t : List α) :
    (C.encode (s ++ t)).drop (C.encode s).length = C.encode t := by
  rw [encode_append, List.drop_left]

end PrefixCode

end Asgiref
