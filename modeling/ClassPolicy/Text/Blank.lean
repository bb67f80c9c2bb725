/-!
# Blank characters

The blank characters are those with the Unicode property White_Space, a wider
class than the one the core library knows. Texts are trimmed at both ends by
this class and cut into words by it.
-/

set_option autoImplicit false

namespace ClassPolicy.Text

def isBlank (c : Char) : Bool :=
  let n := c.toNat
  (0x9 ≤ n && n ≤ 0xd) || n == 0x20 || n == 0x85 || n == 0xa0 || n == 0x1680 ||
    (0x2000 ≤ n && n ≤ 0x200a) || n == 0x2028 || n == 0x2029 || n == 0x202f ||
    n == 0x205f || n == 0x3000

def trim (s : List Char) : List Char :=
  ((s.dropWhile isBlank).reverse.dropWhile isBlank).reverse

/-- The maximal runs of non-blank characters, in order. -/
def words (s : List Char) : List (List Char) :=
  (s.splitOnP isBlank).filter (fun word => !word.isEmpty)

/-- Whether a text holds nothing but blank characters. -/
def isBlankText (s : String) : Bool := s.toList.all isBlank

theorem isBlank_of_isWhitespace (c : Char) (h : c.isWhitespace = true) : isBlank c = true := by
  simp only [Char.isWhitespace, Bool.or_eq_true, decide_eq_true_eq] at h
  rcases h with ((h | h) | h) | h <;> subst h <;> decide

theorem dropWhile_eq_nil_iff (s : List Char) : s.dropWhile isBlank = [] ↔ s.all isBlank := by
  induction s with
  | nil => simp
  | cons c s ih => by_cases h : isBlank c <;> simp [List.dropWhile, h, ih]

/-- Trimming leaves nothing exactly when there was nothing but blanks. -/
theorem trim_eq_nil_iff (s : List Char) : trim s = [] ↔ s.all isBlank := by
  have keep : (s.dropWhile isBlank).all isBlank → s.dropWhile isBlank = [] := by
    induction s with
    | nil => simp
    | cons c s ih =>
      by_cases h : isBlank c
      · simpa [List.dropWhile, h] using ih
      · simp [List.dropWhile, h]
  rw [trim, List.reverse_eq_nil_iff, dropWhile_eq_nil_iff, List.all_reverse]
  exact ⟨fun h => (dropWhile_eq_nil_iff s).1 (keep h),
    fun h => by rw [(dropWhile_eq_nil_iff s).2 h]; rfl⟩

/-- Nothing is trimmed off a text that begins and ends with other characters. -/
theorem trim_of_ends {a b : Char} {s : List Char} (start : isBlank a = false)
    (close : isBlank b = false) : trim (a :: (s ++ [b])) = a :: (s ++ [b]) := by
  simp [trim, start, close]

end ClassPolicy.Text
