import Mathlib.Data.List.TakeDrop
import EngineBench.Toml.Reader

/-!
# Headers of tables

A document may consist of nothing but headers of tables. It spells these tables, all of them empty.

* `Toml.headerChars` are the characters of headers without quotes, one on each line.
* `Toml.readLines?_headerChars` says what each header adds to the document, and `Toml.read?_headers`
  what the whole text spells.
-/

namespace EngineBench

namespace Toml

/-! ## Names without quotes -/

/-- A name that may be a key without quotes. -/
def IsBareName (name : String) : Prop := name ≠ "" ∧ name.toList.all isBare = true

instance (name : String) : Decidable (IsBareName name) :=
  inferInstanceAs (Decidable (_ ∧ _))

/-- Names stay apart from the characters that have a meaning of their own. -/
theorem ne_of_isBare {c d : Char} (hc : isBare c = true) (hd : isBare d = false) : c ≠ d := by
  rintro rfl
  rw [hc] at hd
  cases hd

theorem IsBareName.exists_cons {name : String} (hname : IsBareName name) :
    ∃ c cs, name.toList = c :: cs ∧ isBare c = true := by
  obtain ⟨hne, hbare⟩ := hname
  cases hchars : name.toList with
  | nil => exact absurd (String.toList_eq_nil_iff.mp hchars) hne
  | cons c cs => exact ⟨c, cs, rfl, List.all_eq_true.mp hbare c (by simp [hchars])⟩

theorem skipBlanks_cons {c : Char} (hc : isBlank c = false) (r : List Char) :
    skipBlanks (c :: r) = c :: r :=
  List.dropWhile_cons_of_neg (by simp [hc])

theorem readPart?_bare {name : String} (hname : IsBareName name) (r : List Char) :
    readPart? (skipBlanks (name.toList ++ ']' :: r)) = some (name, ']' :: r) := by
  have hspan : (name.toList ++ ']' :: r).span isBare = (name.toList, ']' :: r) := by
    have hbare := List.all_eq_true.mp hname.2
    rw [List.span_eq_takeWhile_dropWhile, List.takeWhile_append_of_pos hbare,
      List.dropWhile_append_of_pos hbare]
    simp [isBare]
  have hself : String.ofList name.toList = name := String.ofList_toList
  obtain ⟨c, cs, hchars, hc⟩ := hname.exists_cons
  rw [hchars] at hspan hself ⊢
  have hblank : isBlank c = false := by
    simp [isBlank, ne_of_isBare hc (show isBare ' ' = false from rfl),
      ne_of_isBare hc (show isBare '\t' = false from rfl)]
  have hquote (r' : List Char) : c :: (cs ++ ']' :: r) ≠ '"' :: r' := fun heq =>
    ne_of_isBare hc (show isBare '"' = false from rfl) (List.cons.inj heq).1
  have hapostrophe (r' : List Char) : c :: (cs ++ ']' :: r) ≠ '\'' :: r' := fun heq =>
    ne_of_isBare hc (show isBare '\'' = false from rfl) (List.cons.inj heq).1
  rw [List.cons_append] at hspan ⊢
  rw [skipBlanks_cons hblank, readPart?.eq_3 _ hquote hapostrophe, hspan]
  simp [hself]

theorem readKey?_bare {name : String} (hname : IsBareName name) (r : List Char) :
    readKey? (name.toList ++ ']' :: r) = some ([name], ']' :: r) := by
  show readParts? (78 + 1) _ = _
  rw [readParts?, readPart?_bare hname]
  simp [skipBlanks_cons (show isBlank ']' = false from rfl)]

theorem lineEnd?_newLine (r : List Char) : lineEnd? ('\n' :: r) = some r := by
  rw [lineEnd?, skipBlanks_cons (show isBlank '\n' = false from rfl)]
  rfl

/-- The header of a table of its own. -/
theorem readHeader?_bare {name : String} (hname : IsBareName name) (d : Document) (r : List Char) :
    d.readHeader? (name.toList ++ ']' :: '\n' :: r) =
      (Members.openTable? name d.members).map fun ms => (⟨ms, [name]⟩, r) := by
  have hkey := readKey?_bare hname ('\n' :: r)
  obtain ⟨c, cs, hchars, hc⟩ := hname.exists_cons
  have hne : c ≠ '[' := ne_of_isBare hc rfl
  rw [hchars, List.cons_append] at hkey ⊢
  unfold Document.readHeader?
  split
  next element rest heq =>
    split at heq
    next heq' => exact absurd (List.cons.inj heq').1 hne
    next =>
      cases heq
      simp [hkey, expect?, splitKey, Members.update?, lineEnd?_newLine]
      cases Members.openTable? name d.members <;> rfl

/-! ## Documents of headers -/

/-- The characters of headers, one on each line. -/
def headerChars (names : List String) : List Char :=
  names.flatMap fun name => '[' :: (name.toList ++ [']', '\n'])

theorem headerChars_cons (name : String) (names : List String) :
    headerChars (name :: names) = '[' :: (name.toList ++ ']' :: '\n' :: headerChars names) := by
  simp [headerChars]

theorem length_le_headerChars (names : List String) :
    names.length ≤ (headerChars names).length := by
  induction names with
  | nil => exact Nat.zero_le _
  | cons name names ih =>
    simp only [headerChars_cons, List.length_cons, List.length_append]
    omega

/-- The table of a header with nothing in it. -/
def opened (name : String) : String × Node := (name, .table .header [])

theorem find?_map_opened {names : List String} {name : String} (hname : name ∉ names) :
    Members.find? (names.map opened) name = none := by
  rw [Members.find?, List.lookup_eq_none_iff]
  intro m hm
  obtain ⟨other, hother, rfl⟩ := List.mem_map.mp hm
  have hne : name ≠ other := by
    rintro rfl
    exact hname hother
  simpa [opened] using hne

theorem put_map_opened {names : List String} {name : String} (hname : name ∉ names) (node : Node) :
    Members.put name node (names.map opened) = names.map opened ++ [(name, node)] := by
  induction names with
  | nil => rfl
  | cons other names ih =>
    have hne : other ≠ name := (List.ne_of_not_mem_cons hname).symm
    rw [List.map_cons, opened, Members.put, if_neg hne, ih (List.not_mem_of_not_mem_cons hname),
      List.cons_append]

/-- A new header opens a new table. -/
theorem openTable?_map_opened {names : List String} {name : String} (hname : name ∉ names) :
    Members.openTable? name (names.map opened) = some ((names ++ [name]).map opened) := by
  rw [Members.openTable?, find?_map_opened hname]
  simp [put_map_opened hname, opened]

theorem readLines?_headerChars (names : List String) (hbare : ∀ name ∈ names, IsBareName name)
    (done : List String) (hnodup : (done ++ names).Nodup) (current : List String) (n : Nat)
    (hn : names.length < n) :
    ∃ current', Document.readLines? n ⟨done.map opened, current⟩ (headerChars names) =
      some ⟨(done ++ names).map opened, current'⟩ := by
  induction names generalizing done current n with
  | nil =>
    obtain ⟨n, rfl⟩ := Nat.exists_eq_add_of_lt hn
    exact ⟨current, by simp [headerChars, Document.readLines?, skipLines]⟩
  | cons name names ih =>
    obtain ⟨n, rfl⟩ : ∃ m, n = m + 1 := ⟨n - 1, by omega⟩
    have hskip (r : List Char) : skipLines ('[' :: r).length ('[' :: r) = '[' :: r := by
      rw [List.length_cons, skipLines, skipBlanks_cons (show isBlank '[' = false from rfl)]
      rfl
    have hfresh : name ∉ done := by
      intro hmem
      exact (List.nodup_append.mp hnodup).2.2 name hmem name List.mem_cons_self rfl
    obtain ⟨current', hrest⟩ := ih (fun other hother => hbare other (List.mem_cons_of_mem _ hother))
      (done ++ [name]) (by simpa using hnodup) [name] n (by simpa using hn)
    refine ⟨current', ?_⟩
    rw [headerChars_cons, Document.readLines?]
    simp only [hskip, readHeader?_bare (hbare name List.mem_cons_self),
      openTable?_map_opened hfresh]
    simpa using hrest

theorem membersToToml_map_opened (names : List String) :
    membersToToml (names.map opened) = names.map fun name => (name, .table []) := by
  induction names with
  | nil => rfl
  | cons name names ih => simp [opened, membersToToml, Node.toToml, ih]

/-- A text without a byte order mark is read line by line. -/
theorem read?_ofList {cs : List Char} (hmark : ∀ r, cs ≠ '\uFEFF' :: r) :
    read? (String.ofList cs) = (Document.readLines? (cs.length + 1) ⟨[], []⟩ cs).map
      fun d => .table (membersToToml d.members) := by
  unfold read?
  rw [String.toList_ofList]
  split
  next r => exact absurd rfl (hmark r)
  next => rfl

/-- A text of headers spells empty tables. -/
theorem read?_headers {names : List String} (hbare : ∀ name ∈ names, IsBareName name)
    (hnodup : names.Nodup) :
    read? (String.ofList (headerChars names)) =
      some (.table (names.map fun name => (name, .table []))) := by
  have hmark (r : List Char) : headerChars names ≠ '\uFEFF' :: r := by
    cases names <;> simp [headerChars]
  obtain ⟨current, hlines⟩ := readLines?_headerChars names hbare [] hnodup []
    ((headerChars names).length + 1) (Nat.lt_succ_of_le (length_le_headerChars names))
  rw [List.map_nil] at hlines
  rw [read?_ofList hmark, hlines]
  simp [membersToToml_map_opened]

end Toml

end EngineBench
