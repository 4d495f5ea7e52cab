import Mathlib.Data.List.Infix
import EngineBench.Machine.Host
import EngineBench.Proofs.FileTrees

/-!
# The nearest settings file

If no settings file is named, the one in the deepest directory counts, from the working directory up
to the root. Whatever file counts is the only one that is looked into.

* `Path.ofLocation` is the absolute path of a place; `Path.ancestors_concat` goes up one step.
* `Settings.find?_candidates_eq_some_iff`: the search comes upon the deepest directory.
* `Settings.isFile_fileIn_iff` is what it means on a machine that a directory has a settings file.
* `Settings.resolve_nearest` is what this means for the settings of a run, on any host.
-/

namespace EngineBench

/-! ## Absolute paths -/

namespace Path

/-- The absolute path of a place. -/
def ofLocation (l : Location) : Path := ⟨slash :: join l⟩

/-- What can be the name of a directory. -/
structure IsName (q : Bytes) : Prop where
  ne_nil : q ≠ []
  slash_notMem : slash ∉ q
  ne_here : q ≠ here
  ne_up : q ≠ up

theorem isName_iff {q : Bytes} : IsName q ↔ q ≠ [] ∧ slash ∉ q ∧ q ≠ here ∧ q ≠ up :=
  ⟨fun ⟨hnil, hslash, hhere, hup⟩ => ⟨hnil, hslash, hhere, hup⟩,
    fun ⟨hnil, hslash, hhere, hup⟩ => ⟨hnil, hslash, hhere, hup⟩⟩

instance (q : Bytes) : Decidable (IsName q) := decidable_of_iff _ isName_iff.symm

theorem pieces_of_notMem {q : Bytes} (h : slash ∉ q) : pieces q = [q] := by
  induction q with
  | nil => rfl
  | cons b q ih =>
    rw [List.mem_cons, not_or] at h
    rw [pieces, if_neg (Ne.symm h.1), ih h.2]

theorem pieces_append {q : Bytes} (h : slash ∉ q) (r : Bytes) :
    pieces (q ++ slash :: r) = q :: pieces r := by
  induction q with
  | nil => rw [List.nil_append, pieces, if_pos rfl]
  | cons b q ih =>
    rw [List.mem_cons, not_or] at h
    rw [List.cons_append, pieces, if_neg (Ne.symm h.1), ih h.2]

theorem join_concat {l : Location} (hl : l ≠ []) (q : Bytes) :
    join (l ++ [q]) = join l ++ slash :: q := by
  induction l with
  | nil => exact absurd rfl hl
  | cons p l ih =>
    cases l with
    | nil => rfl
    | cons r l =>
      have htail := ih (List.cons_ne_nil r l)
      show p ++ slash :: join (r :: l ++ [q]) = p ++ slash :: join (r :: l) ++ slash :: q
      rw [htail, List.append_assoc, List.cons_append]

/-- What was joined is cut into the same pieces. -/
theorem pieces_join {l : Location} (hl : l ≠ []) (h : ∀ q ∈ l, slash ∉ q) :
    pieces (join l) = l := by
  induction l with
  | nil => exact absurd rfl hl
  | cons p l ih =>
    obtain ⟨hp, hall⟩ := List.forall_mem_cons.mp h
    cases l with
    | nil => exact pieces_of_notMem hp
    | cons r l =>
      show pieces (p ++ slash :: join (r :: l)) = _
      rw [pieces_append hp, ih (List.cons_ne_nil r l) hall]

theorem pieces_ofLocation (l : Location) : pieces (ofLocation l).bytes = [] :: pieces (join l) := by
  show pieces ([] ++ slash :: join l) = _
  exact pieces_append List.not_mem_nil _

/-- The pieces of an absolute path that are kept are the names on the way. -/
theorem filter_pieces_join {l : Location} (h : ∀ q ∈ l, IsName q) {keep : Bytes → Bool}
    (hkeep : ∀ q, IsName q → keep q = true) (hnil : keep [] = false) :
    (pieces (join l)).filter keep = l := by
  by_cases hl : l = []
  · subst hl
    exact List.filter_cons_of_neg (by rw [hnil]; decide)
  · rw [pieces_join hl fun q hq => (h q hq).slash_notMem, List.filter_eq_self]
    exact fun q hq => hkeep q (h q hq)

theorem parts_ofLocation {l : Location} (h : ∀ q ∈ l, IsName q) : (ofLocation l).parts = l := by
  rw [parts, pieces_ofLocation]
  exact filter_pieces_join h (fun q hq => decide_eq_true ⟨hq.ne_nil, hq.ne_here⟩) rfl

theorem parent?_concat {l : Location} {q : Bytes} (h : ∀ p ∈ l ++ [q], IsName p) :
    (ofLocation (l ++ [q])).parent? = some (ofLocation l) := by
  have hparts := parts_ofLocation h
  rw [parent?, hparts]
  obtain ⟨p, ps, hps⟩ := List.exists_cons_of_ne_nil (List.append_ne_nil_of_right_ne_nil l
    (List.cons_ne_nil q []))
  rw [hps]
  show some (ofLocation (p :: ps).dropLast) = _
  rw [← hps, List.dropLast_concat]

/-- Above a directory is that which it is in, and what is above that. -/
theorem ancestors_concat {l : Location} {q : Bytes} (h : ∀ p ∈ l ++ [q], IsName p) :
    (ofLocation (l ++ [q])).ancestors = ofLocation (l ++ [q]) :: (ofLocation l).ancestors := by
  have hl : ∀ p ∈ l, IsName p := fun p hp => h p (List.mem_append_left _ hp)
  rw [ancestors, ancestors, parts_ofLocation h, parts_ofLocation hl, List.length_append]
  show ancestorsUpTo (l.length + 1) _ = _
  rw [ancestorsUpTo, parent?_concat h]

/-- The path of a file in a directory. -/
theorem child_ofLocation {l : Location} (h : ∀ p ∈ l, IsName p) (name : Bytes) :
    (ofLocation l).child name = ofLocation (l ++ [name]) := by
  rcases List.eq_nil_or_concat l with rfl | ⟨k, q, rfl⟩
  · rfl
  · rw [List.concat_eq_append] at h ⊢
    have hq := h q (List.mem_append_right _ (List.mem_singleton_self q))
    have hne : k ++ [q] ≠ [] := List.append_ne_nil_of_right_ne_nil _ (List.cons_ne_nil q [])
    have hjoin : ∃ r, join (k ++ [q]) = r ++ q := by
      by_cases hk : k = []
      · exact ⟨[], by rw [hk]; rfl⟩
      · exact ⟨join k ++ [slash], by rw [join_concat hk, List.append_assoc]; rfl⟩
    have hslash : (ofLocation (k ++ [q])).hasTrailingSlash = false := by
      obtain ⟨r, hr⟩ := hjoin
      rw [hasTrailingSlash, decide_eq_false_iff_not, ofLocation, hr, ← List.cons_append,
        List.getLast?_append_of_ne_nil _ hq.ne_nil]
      intro hlast
      exact hq.slash_notMem (List.mem_of_getLast? hlast)
    rw [child, hslash]
    show Path.mk (slash :: join (k ++ [q]) ++ slash :: name) = ⟨slash :: join (k ++ [q] ++ [name])⟩
    rw [join_concat hne, List.cons_append]

end Path

namespace Settings

/-! ## The search -/

/-- The settings file of a directory. -/
def fileIn (d : Location) : Path := .ofLocation (d ++ [Text.encode fileName])

/-- Of the directories from the root down to a place, the deepest that has something. -/
structure Deepest (Has : Location → Prop) (l d : Location) : Prop where
  above : d <+: l
  has : Has d
  deepest {e : Location} : e <+: l → Has e → e <+: d

theorem deepest_root_iff {Has : Location → Prop} {d : Location} :
    Deepest Has [] d ↔ d = [] ∧ Has [] := by
  constructor
  · intro h
    obtain rfl := List.prefix_nil.mp h.above
    exact ⟨rfl, h.has⟩
  · rintro ⟨rfl, h⟩
    exact ⟨List.prefix_rfl, h, fun he _ => he⟩

theorem deepest_concat_of_has {Has : Location → Prop} {l d : Location} {q : Bytes}
    (h : Has (l ++ [q])) : Deepest Has (l ++ [q]) d ↔ d = l ++ [q] := by
  constructor
  · intro hd
    exact hd.above.eq_of_length_le (hd.deepest List.prefix_rfl h).length_le
  · rintro rfl
    exact ⟨List.prefix_rfl, h, fun he _ => he⟩

theorem deepest_concat_of_not_has {Has : Location → Prop} {l d : Location} {q : Bytes}
    (h : ¬ Has (l ++ [q])) : Deepest Has (l ++ [q]) d ↔ Deepest Has l d := by
  have hconcat {e : Location} (he : Has e) : e <+: l ++ [q] ↔ e <+: l := by
    refine List.prefix_concat_iff.trans (or_iff_right ?_)
    rintro rfl
    exact h he
  constructor
  · intro hd
    exact ⟨(hconcat hd.has).mp hd.above, hd.has, fun he hhas =>
      hd.deepest ((hconcat hhas).mpr he) hhas⟩
  · intro hd
    exact ⟨(hconcat hd.has).mpr hd.above, hd.has, fun he hhas =>
      hd.deepest ((hconcat hhas).mp he) hhas⟩

theorem candidates_root : candidates (.ofLocation []) = [fileIn []] := by decide

theorem candidates_concat {l : Location} {q : Bytes} (h : ∀ p ∈ l ++ [q], Path.IsName p) :
    candidates (.ofLocation (l ++ [q])) = fileIn (l ++ [q]) :: candidates (.ofLocation l) := by
  rw [candidates, Path.ancestors_concat h, List.map_cons, Path.child_ofLocation h]
  rfl

/-- The search comes upon the deepest directory that has a settings file. -/
theorem find?_candidates_eq_some_iff {isFile : Path → Bool} {l : Location}
    (h : ∀ q ∈ l, Path.IsName q) {p : Path} :
    (candidates (.ofLocation l)).find? isFile = some p ↔
      ∃ d, Deepest (fun d => isFile (fileIn d) = true) l d ∧ p = fileIn d := by
  -- Up from the working directory: a step is taken where there is no file.
  induction l using List.reverseRecOn with
  | nil =>
    rw [candidates_root, List.find?_singleton]
    simp only [deepest_root_iff]
    by_cases hroot : isFile (fileIn []) = true
    · simp [hroot, eq_comm]
    · simp [hroot]
  | append_singleton l q ih =>
    have hl : ∀ p ∈ l, Path.IsName p := fun p hp => h p (List.mem_append_left _ hp)
    rw [candidates_concat h]
    by_cases hhere : isFile (fileIn (l ++ [q])) = true
    · rw [List.find?_cons_of_pos hhere]
      constructor
      · rintro ⟨⟩
        exact ⟨_, (deepest_concat_of_has hhere).mpr rfl, rfl⟩
      · rintro ⟨d, hd, rfl⟩
        rw [(deepest_concat_of_has hhere).mp hd]
    · rw [List.find?_cons_of_neg hhere, ih hl]
      exact exists_congr fun d => and_congr_left fun _ => (deepest_concat_of_not_has hhere).symm

/-- The search ends without a file exactly if no directory up to the root has one. -/
theorem find?_candidates_eq_none_iff {isFile : Path → Bool} {l : Location}
    (h : ∀ q ∈ l, Path.IsName q) :
    (candidates (.ofLocation l)).find? isFile = none ↔
      ∀ d, d <+: l → isFile (fileIn d) = false := by
  induction l using List.reverseRecOn with
  | nil =>
    rw [candidates_root, List.find?_eq_none]
    simp
  | append_singleton l q ih =>
    have hl : ∀ p ∈ l, Path.IsName p := fun p hp => h p (List.mem_append_left _ hp)
    rw [candidates_concat h, List.find?_cons]
    simp only [List.prefix_concat_iff, forall_eq_or_imp, ← ih hl]
    cases isFile (fileIn (l ++ [q])) with
    | true => simp
    | false => simp

/-! ## On a machine -/

/-- The path of the settings file of a directory leads there, and it is a regular file. -/
def HasFile (m : Machine) (d : Location) : Prop :=
  ∃ n, m.files.locate m.directory (fileIn d) = .ok (.taken (d ++ [Text.encode fileName]) n) ∧
    n.IsRegular

theorem isName_fileName : Path.IsName (Text.encode fileName) := by decide

/-- The path of a settings file leads nowhere else. -/
theorem location_of_locate {t : FileTree} {w d l : Location} {n : Node}
    (hnames : ∀ q ∈ d, Path.IsName q) (h : t.locate w (fileIn d) = .ok (.taken l n)) :
    l = d ++ [Text.encode fileName] := by
  have hall : ∀ q ∈ d ++ [Text.encode fileName], Path.IsName q :=
    List.forall_mem_append.mpr ⟨hnames, List.forall_mem_singleton.mpr isName_fileName⟩
  have hleads := (FileTree.locate_eq_ok_iff.mp h).leads
  rw [fileIn, Path.pieces_ofLocation, List.filter_cons_of_neg (by decide),
    Path.filter_pieces_join hall (fun q hq => decide_eq_true hq.ne_nil) rfl] at hleads
  exact hleads.eq_append fun q hq => ⟨(hall q hq).ne_here, (hall q hq).ne_up⟩

theorem isFile_fileIn_iff {m : Machine} {d : Location} (hnames : ∀ q ∈ d, Path.IsName q) :
    Machine.host.isFile (fileIn d) m = true ↔ HasFile m d := by
  refine FileTree.isFile_iff.trans ?_
  constructor
  · rintro ⟨l, n, hlocate, hn⟩
    obtain rfl := location_of_locate hnames hlocate
    exact ⟨n, hlocate, hn⟩
  · rintro ⟨n, hlocate, hn⟩
    exact ⟨_, n, hlocate, hn⟩

/-- Loading looks at nothing but what the file holds. -/
theorem load_congr {σ : Type} {h : Host σ} {p : Path} {s s' : σ}
    (hread : h.readFile p s' = h.readFile p s) : load h p s' = load h p s := by
  rw [load, load, hread]

theorem discover_eq {σ : Type} {h : Host σ} {s : σ} {d : Path}
    (hdirectory : h.workingDirectory s = some d) :
    discover h s = (candidates d).find? fun p => h.isFile p s := by
  rw [discover, hdirectory, Option.bind_some]

/-- Without a named file the settings are those of the deepest directory that has a file, from the
working directory up to the root, or the standard ones if there is none. What is loaded depends on
nothing but the one file that counts, whether it can be loaded or not. On a machine a directory has
a settings file if the path of that leads to something regular there. -/
theorem resolve_nearest {σ : Type} (h : Host σ) (s : σ) {l : Location}
    (hdirectory : h.workingDirectory s = some (.ofLocation l))
    (hnames : ∀ q ∈ l, Path.IsName q) :
    (∀ p, discover h s = some p ↔
      ∃ d, Deepest (fun d => h.isFile (fileIn d) s = true) l d ∧ p = fileIn d) ∧
    (discover h s = none ↔ ∀ d, d <+: l → h.isFile (fileIn d) s = false) ∧
    (∀ p, resolve h (some p) s = load h p s) ∧
    (∀ p, discover h s = some p → resolve h none s = load h p s) ∧
    (discover h s = none → resolve h none s = .ok standard) ∧
    (∀ p s', h.readFile p s' = h.readFile p s → load h p s' = load h p s) ∧
    ∀ (m : Machine) (d : Location), (∀ q ∈ d, Path.IsName q) →
      (Machine.host.isFile (fileIn d) m = true ↔ HasFile m d) := by
  refine ⟨fun p => ?_, ?_, fun p => rfl, fun p hp => ?_, fun hnone => ?_, fun p s' => load_congr,
    fun m d => isFile_fileIn_iff⟩
  · rw [discover_eq hdirectory]
    exact find?_candidates_eq_some_iff hnames
  · rw [discover_eq hdirectory]
    exact find?_candidates_eq_none_iff hnames
  · rw [resolve, hp]
  · rw [resolve, hnone]

/-- A machine two directories deep. Where it is, the name of the settings file is that of a
directory; the file above is not TOML, and the one of the root is empty. -/
def nested : Machine :=
  { Machine.fresh with
    directory := [Text.encode "a", Text.encode "b"]
    files := .free [([Text.encode "a"], .directory), ([Text.encode "a", Text.encode "b"], .directory),
      ([Text.encode "a", Text.encode "b", Text.encode fileName], .directory),
      ([Text.encode "a", Text.encode fileName], .file (Text.encode "=")),
      ([Text.encode fileName], .file [])] }

/-- The nearest file counts, though it cannot be loaded and the one above it could be. -/
theorem resolve_nearest_nested :
    Machine.host.workingDirectory nested = some (.ofLocation nested.directory) ∧
      (∀ q ∈ nested.directory, Path.IsName q) ∧
      discover Machine.host nested = some (.ofString "/a/servebench.toml") ∧
      resolve Machine.host none nested =
        .error (.malformed (.ofString "/a/servebench.toml")) ∧
      resolve Machine.host (some (.ofString "/servebench.toml")) nested = .ok standard := by
  have hnames : ∀ q ∈ nested.directory, Path.IsName q := by decide
  obtain ⟨-, -, hnamed, hfound, -⟩ := resolve_nearest Machine.host nested rfl hnames
  have hdiscover : discover Machine.host nested = some (.ofString "/a/servebench.toml") := by
    decide +kernel
  refine ⟨rfl, hnames, hdiscover, ?_, ?_⟩
  · rw [hfound _ hdiscover]
    decide +kernel
  · rw [hnamed]
    decide +kernel

end Settings

end EngineBench
