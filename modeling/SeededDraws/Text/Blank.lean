import SeededDraws.Text
/-!
# White space

Free text is trimmed of every Unicode white space character; the readers of numerals and of
hexadecimal pairs know the six ASCII ones only.
-/

namespace SeededDraws

/-- The characters with bidirectional class B, S or WS, or of category Zs. -/
def isBlank (c : Char) : Bool :=
  let n := c.toNat
  (9 ≤ n && n ≤ 13) || (28 ≤ n && n ≤ 32) || n == 0x85 || n == 0xa0 || n == 0x1680 ||
    (0x2000 ≤ n && n ≤ 0x200a) || n == 0x2028 || n == 0x2029 || n == 0x202f || n == 0x205f ||
    n == 0x3000

/-- Tab, line feed, vertical tab, form feed, carriage return and space. -/
def isSpacing (c : Char) : Bool :=
  let n := c.toNat
  (9 ≤ n && n ≤ 13) || n == 32

def trimBy {α : Type} (drop : α → Bool) (items : List α) : List α :=
  ((items.dropWhile drop).reverse.dropWhile drop).reverse

/-- Removes one leading 0x or 0X. -/
def dropMarker : List Char → List Char
  | '0' :: 'x' :: rest => rest
  | '0' :: 'X' :: rest => rest
  | cs => cs

def hasMarker : List Char → Bool
  | '0' :: 'x' :: _ => true
  | '0' :: 'X' :: _ => true
  | _ => false

namespace Text

def strip (t : Text) : Text := trimBy (fun g => isBlank g.face) t

def unmarked (t : Text) : Text := if hasMarker t.faces then t.drop 2 else t

/-- Zeros in front, up to `width` glyphs in all. -/
def padZeros (width : Nat) (t : Text) : Text := t.leftpad width (.char '0')

end Text

theorem isBlank_of_isSpacing {c : Char} (h : isSpacing c = true) : isBlank c = true := by
  simp only [isSpacing, isBlank, Bool.or_eq_true, Bool.and_eq_true, beq_iff_eq,
    decide_eq_true_eq] at h ⊢
  omega

end SeededDraws
