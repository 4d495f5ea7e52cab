/-!
# Blanks

The white space of Unicode (property `White_Space`), and trimming by it. A text is *blank* if it
holds nothing else; `isBlank_iff_trim` ties the two.
-/

namespace EngineBench.Text

def isSpace (c : Char) : Bool :=
  let n := c.toNat
  (9 ≤ n && n ≤ 13) || n = 0x20 || n = 0x85 || n = 0xA0 || n = 0x1680 ||
    (0x2000 ≤ n && n ≤ 0x200A) || n = 0x2028 || n = 0x2029 || n = 0x202F || n = 0x205F ||
    n = 0x3000

/-- A list of characters without the white space at its start. -/
def trimLeft (cs : List Char) : List Char :=
  cs.dropWhile isSpace

/-- A list of characters without the white space at either end. -/
def trim (cs : List Char) : List Char :=
  (trimLeft (trimLeft cs).reverse).reverse

/-- A text that holds white space only; the empty text is one. -/
def isBlank (s : String) : Bool :=
  s.toList.all isSpace

theorem trimLeft_eq_nil_iff (cs : List Char) : trimLeft cs = [] ↔ ∀ c ∈ cs, isSpace c = true := by
  induction cs with
  | nil => simp [trimLeft]
  | cons c cs ih =>
    simp only [trimLeft, List.dropWhile_cons] at ih ⊢
    split <;> simp_all

theorem mem_of_mem_trimLeft {c : Char} {cs : List Char} (h : c ∈ trimLeft cs) : c ∈ cs :=
  (List.dropWhile_sublist _).subset h

/-- What is left after trimming on the left starts with something other than white space. -/
theorem isSpace_head_trimLeft {c : Char} {cs r : List Char} (h : trimLeft cs = c :: r) :
    isSpace c = false := by
  induction cs with
  | nil => simp [trimLeft] at h
  | cons d ds ih =>
    simp only [trimLeft, List.dropWhile_cons] at ih h
    split at h
    · exact ih h
    · simp_all

/-- Trimming leaves nothing exactly of a blank text. -/
theorem isBlank_iff_trim (s : String) : isBlank s = true ↔ trim s.toList = [] := by
  have h : trim s.toList = [] ↔ ∀ c ∈ trimLeft s.toList, isSpace c = true := by
    simp [trim, trimLeft_eq_nil_iff]
  rw [h, isBlank, List.all_eq_true]
  constructor
  · intro hall c hc
    exact hall c (mem_of_mem_trimLeft hc)
  · intro hall
    cases hcs : trimLeft s.toList with
    | nil => exact (trimLeft_eq_nil_iff _).mp hcs
    | cons c r =>
      have hsp := hall c (by simp [hcs])
      rw [isSpace_head_trimLeft hcs] at hsp
      exact absurd hsp (by decide)

end EngineBench.Text
