import EngineBench.Command

/-!
# Reading shell words back

The rules by which the shell cuts a line into words, as far as a line of words needs them: blanks
separate words, single quotes hold everything literally, and an unquoted backslash takes the next
character. A line in which anything else means something to the shell is refused.

* `Text.splitWords?` cuts a line into its words.
* `Command.splitWords?_line` says that the line of a command is cut into what was written in it,
  `Command.line_inj` that commands with the same line run the same program with the same arguments.
-/

namespace EngineBench

namespace Text

/-- A character that stands between words. -/
def isSeparator (c : Char) : Bool := c = ' ' || c = '\t'

/-- Characters that, unquoted, do more than to cut or to quote. -/
def isActive (c : Char) : Bool := "\n|&;<>()$`\"*?[#~".toList.contains c

/-- How the next character counts. -/
inductive Quoting where
  | unquoted
  | single
  | backslash
  deriving DecidableEq

/-- The words that were read, and the one that has begun. -/
structure WordReader where
  words : List String
  word : Option (List Char)
  quoting : Quoting
  deriving DecidableEq

namespace WordReader

def start : WordReader := ⟨[], none, .unquoted⟩

/-- Begins a word, if none has begun. -/
def beginWord (x : WordReader) : WordReader := { x with word := some (x.word.getD []) }

/-- The next character of the word. -/
def add (x : WordReader) (c : Char) : WordReader :=
  { x with word := some (x.word.getD [] ++ [c]) }

def endWord (x : WordReader) : WordReader :=
  match x.word with
  | none => x
  | some w => { x with words := x.words ++ [String.ofList w], word := none }

def step (x : WordReader) (c : Char) : Option WordReader :=
  match x.quoting with
  | .unquoted =>
    if isSeparator c then some x.endWord
    else if c = '\'' then some { x.beginWord with quoting := .single }
    else if c = '\\' then some { x.beginWord with quoting := .backslash }
    else if isActive c then none
    else some (x.add c)
  | .single => some (if c = '\'' then { x with quoting := .unquoted } else x.add c)
  | .backslash => some { x.add c with quoting := .unquoted }

/-- The words, unless the line ends in quotes or behind a backslash. -/
def finish (x : WordReader) : Option (List String) :=
  if x.quoting = .unquoted then some x.endWord.words else none

end WordReader

/-- The words of a line. -/
def splitWords? (line : String) : Option (List String) :=
  line.toList.foldlM WordReader.step .start >>= WordReader.finish

/-! ## Words are read back -/

variable (ws : List String) (w : List Char)

/-- A plain character is read as what it is. -/
theorem step_of_isPlain {c : Char} (hc : isPlain c) (word : Option (List Char)) :
    WordReader.step ⟨ws, word, .unquoted⟩ c =
      some ⟨ws, some (word.getD [] ++ [c]), .unquoted⟩ := by
  have hne (d : Char) (hd : isPlain d = false) : c ≠ d := by
    rintro rfl
    rw [hd] at hc
    cases hc
  have hactive : isActive c = false := by
    refine Bool.eq_false_iff.mpr fun h => ?_
    have hall : ("\n|&;<>()$`\"*?[#~".toList.all fun d => !isPlain d) = true := by decide
    have hplain : isPlain c = false := by
      simpa using List.all_eq_true.mp hall c (by simpa [isActive] using h)
    exact hne c hplain rfl
  simp [WordReader.step, WordReader.add, isSeparator, hactive, hne ' ' (by decide),
    hne '\t' (by decide), hne '\'' (by decide), hne '\\' (by decide)]

theorem foldlM_plain {cs : List Char} (hcs : cs.all isPlain) :
    cs.foldlM WordReader.step ⟨ws, some w, .unquoted⟩ = some ⟨ws, some (w ++ cs), .unquoted⟩ := by
  induction cs generalizing w with
  | nil => simp
  | cons c cs ih =>
    rw [List.all_cons, Bool.and_eq_true] at hcs
    rw [List.foldlM_cons, step_of_isPlain ws hcs.1]
    simpa using ih (w ++ [c]) hcs.2

/-- What stands between quotes is read as what was quoted. -/
theorem foldlM_quoteBody (cs : List Char) :
    (quoteBody cs).foldlM WordReader.step ⟨ws, some w, .single⟩ =
      some ⟨ws, some (w ++ cs), .single⟩ := by
  induction cs generalizing w with
  | nil => simp [quoteBody]
  | cons c cs ih =>
    rw [List.append_cons w c cs, ← ih (w ++ [c])]
    by_cases hc : c = '\''
    · -- Out of the quotes, behind a backslash, and into quotes again.
      simp [quoteBody, hc, WordReader.step, WordReader.add, WordReader.beginWord, isSeparator]
    · simp [quoteBody, hc, WordReader.step, WordReader.add]

theorem foldlM_shellWord (s : String) :
    (shellWord s).toList.foldlM WordReader.step ⟨ws, none, .unquoted⟩ =
      some ⟨ws, some s.toList, .unquoted⟩ := by
  unfold shellWord
  split
  next hplain =>
    obtain ⟨hne, hall⟩ := hplain
    obtain ⟨c, cs, hs⟩ := List.exists_cons_of_ne_nil hne
    rw [hs, List.all_cons, Bool.and_eq_true] at hall
    rw [hs, List.foldlM_cons, step_of_isPlain ws hall.1]
    exact foldlM_plain ws [c] hall.2
  next =>
    have hopen : WordReader.step ⟨ws, none, .unquoted⟩ '\'' = some ⟨ws, some [], .single⟩ := rfl
    rw [String.toList_ofList, List.cons_append, List.foldlM_cons, hopen, Option.bind_eq_bind,
      Option.bind_some, List.foldlM_append, foldlM_quoteBody]
    rfl

theorem foldlM_words (s : String) (r : List String) :
    (String.intercalate " " ((s :: r).map shellWord)).toList.foldlM WordReader.step
        ⟨ws, none, .unquoted⟩ >>= WordReader.finish = some (ws ++ s :: r) := by
  induction r generalizing ws s with
  | nil =>
    rw [List.map_singleton, String.intercalate_singleton, foldlM_shellWord]
    simp [WordReader.finish, WordReader.endWord]
  | cons s' r ih =>
    have hline : (String.intercalate " " ((s :: s' :: r).map shellWord)).toList =
        (shellWord s).toList ++ ' ' ::
          (String.intercalate " " ((s' :: r).map shellWord)).toList := by
      simp [String.toList_intercalate]
    have hblank : WordReader.step ⟨ws, some s.toList, .unquoted⟩ ' ' =
        some ⟨ws ++ [s], none, .unquoted⟩ := by
      simp [WordReader.step, WordReader.endWord, isSeparator]
    rw [hline, List.foldlM_append, foldlM_shellWord]
    simp only [Option.bind_eq_bind, Option.bind_some, List.foldlM_cons, hblank]
    rw [← Option.bind_eq_bind, ih, List.append_assoc]
    rfl

end Text

namespace Command

/-- The line of a command is cut into the program and the arguments. -/
theorem splitWords?_line (c : Command) :
    Text.splitWords? c.line = some (c.program :: c.arguments) :=
  Text.foldlM_words [] c.program c.arguments

/-- Commands with the same line run the same program with the same arguments. -/
theorem line_inj {c c' : Command} (h : c.line = c'.line) :
    c.program = c'.program ∧ c.arguments = c'.arguments := by
  have hwords := splitWords?_line c
  rw [h, splitWords?_line] at hwords
  simpa [eq_comm] using hwords

end Command

end EngineBench
