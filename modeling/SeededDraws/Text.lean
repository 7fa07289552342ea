/-!
# Texts

A text is a list of glyphs: characters, and surrogate halves that stand alone. Such halves come in
from outside; no reader takes one for white space, a digit or a marker, and a quoted text shows them
as escapes.
-/

namespace SeededDraws

inductive Glyph where
  | char (c : Char)
  /-- The code point `0xd800 + n`, which is no character. -/
  | half (n : Fin 0x800)
deriving DecidableEq, Inhabited

namespace Glyph

def code : Glyph → Nat
  | .char c => c.toNat
  | .half n => 0xd800 + n.val

/-- The glyph of a code point; behind the last one there is none. -/
def ofCode? (n : Nat) : Option Glyph :=
  if h : 0xd800 ≤ n ∧ n < 0xe000 then some (.half ⟨n - 0xd800, by omega⟩)
  else if n < 0x110000 then some (.char (Char.ofNat n))
  else none

/-- What a reader sees; a half looks like the replacement character. -/
def face : Glyph → Char
  | .char c => c
  | .half _ => Char.ofNat 0xfffd

def char? : Glyph → Option Char
  | .char c => some c
  | .half _ => none

theorem code_of_ofCode? {n : Nat} {g : Glyph} (h : ofCode? n = some g) : g.code = n := by
  unfold ofCode? at h
  split at h
  · next hr =>
    obtain rfl := Option.some.inj h
    simp only [code]
    omega
  · split at h
    · next hn ht =>
      obtain rfl := Option.some.inj h
      have valid : n.isValidChar := by
        simp only [Nat.isValidChar]
        omega
      rw [code, Char.ofNat, dif_pos valid]
      rfl
    · contradiction

end Glyph

abbrev Text := List Glyph

namespace Text

def ofChars (cs : List Char) : Text := cs.map .char

def ofString (s : String) : Text := ofChars s.toList

instance : Coe String Text := ⟨ofString⟩

def faces (t : Text) : List Char := t.map Glyph.face

/-- The string of a text without halves. -/
def string? (t : Text) : Option String := (t.mapM Glyph.char?).map String.ofList

/-- Texts are ordered by their code points. -/
def notAfter : Text → Text → Bool
  | [], _ => true
  | _ :: _, [] => false
  | g :: t, h :: u => if g.code = h.code then notAfter t u else g.code < h.code

@[simp] theorem faces_ofChars (cs : List Char) : faces (ofChars cs) = cs := by
  induction cs with
  | nil => rfl
  | cons c rest ih => simpa [faces, ofChars, Glyph.face] using ih

theorem mapM_char?_ofChars (cs : List Char) : (ofChars cs).mapM Glyph.char? = some cs := by
  induction cs with
  | nil => rfl
  | cons c rest ih =>
    rw [ofChars, List.map_cons, List.mapM_cons, ← ofChars, ih]
    rfl

@[simp] theorem string?_ofString (s : String) : (ofString s).string? = some s := by
  simp [string?, ofString, mapM_char?_ofChars]

end Text

end SeededDraws
