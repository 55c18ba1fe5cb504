/-
  EmScale/Text.lean
  =================
  **Texts and the ways of cutting them.**

  A text is the list of its characters, so that every scan is a recursion on the text
  itself and every statement about a scan is a statement about lists.  This file holds
  the few operations that the reader of stylesheets and the converter of values share:
  the size in bytes, trimming, and search for a part.
-/
import EmScale.Unicode.WhiteSpace

namespace EmScale

open Unicode (isWhiteSpace)

/-- A text, as the list of its characters. -/
abbrev Text := List Char

namespace Text

/-- The number of bytes of a text in UTF-8. -/
def byteSize (t : Text) : Nat :=
  t.foldr (fun c size => c.utf8Size + size) 0

/-! ### Blanks at the edges -/

def trimStart (t : Text) : Text :=
  t.dropWhile isWhiteSpace

def trimEnd : Text → Text
  | [] => []
  | c :: t =>
    match trimEnd t with
    | [] => if isWhiteSpace c then [] else [c]
    | kept => c :: kept

/-- The blanks that a text ends with. -/
def trailing (t : Text) : Text :=
  t.drop (trimEnd t).length

/-! ### Parts -/

/-- Whether `part` occurs in a text; the empty text occurs in every text. -/
def includes (part : Text) : Text → Bool
  | [] => part.isEmpty
  | c :: t => part.isPrefixOf (c :: t) || includes part t

def endsWith (part t : Text) : Bool :=
  part.reverse.isPrefixOf t.reverse

/-! ### Laws of sizes -/

@[simp] theorem byteSize_nil : byteSize [] = 0 := rfl

@[simp] theorem byteSize_cons (c : Char) (t : Text) :
    byteSize (c :: t) = c.utf8Size + byteSize t := rfl

@[simp] theorem byteSize_append (s t : Text) : byteSize (s ++ t) = byteSize s + byteSize t := by
  induction s with
  | nil => simp
  | cons c s ih => rw [List.cons_append, byteSize_cons, byteSize_cons, ih, Nat.add_assoc]

theorem byteSize_eq_zero_iff {t : Text} : byteSize t = 0 ↔ t = [] := by
  cases t with
  | nil => simp
  | cons c t =>
    have hc := c.utf8Size_pos
    simp only [byteSize_cons, List.cons_ne_nil, iff_false]
    omega

theorem byteSize_pos {t : Text} (h : t ≠ []) : 0 < byteSize t :=
  Nat.pos_of_ne_zero (mt byteSize_eq_zero_iff.mp h)

/-! ### Laws of trimming -/

/-- A text is its trimmed form followed by its trailing blanks. -/
theorem trimEnd_append_trailing (t : Text) : trimEnd t ++ trailing t = t := by
  have isPrefix : trimEnd t <+: t := by
    induction t with
    | nil => simp [trimEnd]
    | cons c t ih =>
      unfold trimEnd
      split
      · split <;> simp
      · rename_i kept _
        exact (List.cons_prefix_cons).2 ⟨rfl, ih⟩
  exact List.prefix_iff_eq_append.1 isPrefix

/-- Trimming keeps the first character if it is no blank. -/
theorem trimEnd_cons_of_not_blank {c : Char} (t : Text) (h : isWhiteSpace c = false) :
    trimEnd (c :: t) = c :: trimEnd t := by
  simp only [trimEnd]
  split
  · rename_i empty
    simp [h, empty]
  · rfl

end Text

end EmScale
