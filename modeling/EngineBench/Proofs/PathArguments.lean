import EngineBench.Proofs.CommandOptions
import EngineBench.Proofs.Utf8

/-!
# Paths on the command line of the client

The dataset and the results are named by byte strings, but the arguments of a command are texts. A
path that is not UTF-8 does not get through: the client is given another path, the one that looks
like it.

* `Path.shown` is the path that the text of a path names; `Path.shown_eq_iff` says which paths are
  left as they are.
* `Command.client_paths` is what this means for the client.
-/

namespace EngineBench

namespace Text

theorem lossy_encode (s : String) : lossy (encode s) = s := by
  have hscan : scan (encode s) = s.toList.map some := scan_eq_map_some_iff.mpr rfl
  rw [lossy, hscan, List.map_map]
  exact (congrArg String.ofList (List.map_id _)).trans String.ofList_toList

theorem lossy_eq_empty_iff {bs : Bytes} : lossy bs = "" ↔ bs = [] := by
  have hscan : scan bs = [].map some ↔ bs = [] := scan_eq_map_some_iff
  rw [lossy, String.ofList_eq_empty_iff, List.map_eq_nil_iff]
  exact hscan

end Text

/-! ## The path that a text names -/

namespace Path

/-- The path that the text of a path names. -/
def shown (p : Path) : Path := ofString p.text

@[simp]
theorem text_ofString (s : String) : (ofString s).text = s := Text.lossy_encode s

/-- A path looks like the path that its text names. -/
@[simp]
theorem text_shown (p : Path) : p.shown.text = p.text := text_ofString p.text

theorem eq_ofString_iff {p : Path} {s : String} : p = ofString s ↔ p.text? = some s := by
  rw [text?, Text.decode?_eq_some_iff, ofString, Path.mk.injEq]

/-- The text of a path names the path exactly if the path is UTF-8. -/
theorem shown_eq_iff (p : Path) : p.shown = p ↔ p.text?.isSome := by
  constructor
  · intro h
    rw [eq_ofString_iff.mp h.symm]
    rfl
  · intro h
    obtain ⟨s, hs⟩ := Option.isSome_iff_exists.mp h
    rw [eq_ofString_iff.mpr hs, shown, text_ofString]

/-- The bytes of the text are those of the path exactly if the path is UTF-8. -/
theorem encode_text_iff (p : Path) : Text.encode p.text = p.bytes ↔ p.text?.isSome := by
  rw [← shown_eq_iff, shown, ofString, Path.mk.injEq]

theorem shown_isEmpty (p : Path) : p.shown.bytes.isEmpty = p.bytes.isEmpty := by
  have h : p.shown.bytes = [] ↔ p.bytes = [] := by
    rw [← Text.lossy_eq_empty_iff, ← Text.lossy_eq_empty_iff]
    exact iff_of_eq (congrArg (· = "") p.text_shown)
  rw [Bool.eq_iff_iff, List.isEmpty_iff, List.isEmpty_iff, h]

/-- Among paths that are UTF-8 each has its own text. -/
theorem text_inj {p q : Path} (hp : p.text?.isSome) (hq : q.text?.isSome) (h : p.text = q.text) :
    p = q := by
  rw [← (shown_eq_iff p).mpr hp, ← (shown_eq_iff q).mpr hq, shown, shown, h]

end Path

/-! ## What the client gets -/

namespace Configuration

/-- The configuration with the dataset that the text of the dataset names. -/
def shown (c : Configuration) : Configuration := { c with dataset := c.dataset.shown }

/-- The dataset that is named instead is as good as the one that was given. -/
theorem violation?_shown (c : Configuration) : c.shown.violation? = c.violation? := by
  rw [violation?, violation?, shown, Path.shown_isEmpty]

end Configuration

namespace Command

/-- Clients are started alike exactly if the client reads the same. -/
theorem client_eq_iff (c c' : Configuration) (p : Program) (results results' : Path)
    (environment : Overlay) :
    client c p results environment = client c' p results' environment ↔
      c.dataset.text = c'.dataset.text ∧ results.text = results'.text ∧ c.port = c'.port ∧
        c.firstToken = c'.firstToken ∧ c.perToken = c'.perToken := by
  constructor
  · intro h
    have hsaid : clientSaid c results = clientSaid c' results' :=
      (says_client c p results environment).unique (h ▸ says_client c' p results' environment)
    have hread := client?_clientSaid c results
    rw [hsaid, client?_clientSaid c' results'] at hread
    simp only [Option.some.injEq, ClientReading.mk.injEq] at hread
    obtain ⟨hdataset, hresults, hport, hfirst, hper⟩ := hread
    exact ⟨hdataset.symm, hresults.symm, hport.symm, hfirst.symm, hper.symm⟩
  · rintro ⟨hdataset, hresults, hport, hfirst, hper⟩
    rw [client, client, clientOptions, clientOptions, hdataset, hresults, hport, hfirst, hper]

/-- The client is given the dataset and the results as they are exactly if they are UTF-8. Datasets
that are UTF-8 are told apart; for any other there is one that is UTF-8, passes the same checks and
is served to the client by the same command. -/
theorem client_paths (p : Program) (environment : Overlay) :
    (∀ c results, ∃ said dataset output, (client c p results environment).Says p said ∧
      said.read? "dataset" some = some dataset ∧ said.read? "output" some = some output ∧
      (Text.encode dataset = c.dataset.bytes ↔ c.dataset.text?.isSome) ∧
      (Text.encode output = results.bytes ↔ results.text?.isSome)) ∧
    (∀ c c' results, client c p results environment = client c' p results environment →
      c.dataset.text?.isSome → c'.dataset.text?.isSome → c.dataset = c'.dataset) ∧
    ∀ c results, c.dataset.text? = none → ∃ c', c'.dataset ≠ c.dataset ∧
      c'.dataset.text?.isSome ∧ c'.violation? = c.violation? ∧
      client c' p results environment = client c p results environment := by
  refine ⟨fun c results => ?_, fun c c' results h hc hc' => ?_, fun c results hc => ?_⟩
  · exact ⟨clientSaid c results, c.dataset.text, results.text,
      says_client c p results environment, rfl, rfl, c.dataset.encode_text_iff,
      results.encode_text_iff⟩
  · exact Path.text_inj hc hc' ((client_eq_iff c c' p results results environment).mp h).1
  · have hne : c.shown.dataset ≠ c.dataset := by
      intro h
      have hsome := (Path.shown_eq_iff c.dataset).mp h
      rw [hc] at hsome
      exact Bool.noConfusion hsome
    have hutf8 : c.shown.dataset.text?.isSome := by
      rw [← Path.shown_eq_iff]
      exact congrArg Path.ofString c.dataset.text_shown
    refine ⟨c.shown, hne, hutf8, c.violation?_shown, ?_⟩
    exact (client_eq_iff ..).mpr ⟨c.dataset.text_shown, rfl, rfl, rfl, rfl⟩

namespace Sample

/-- A valid configuration for a dataset of the given name. -/
def configuration (dataset : Bytes) : Configuration :=
  .ofRequired "m" (Decimal.toBinary64 false ⟨1, 0⟩) ⟨dataset⟩

/-- A name with a byte that is never part of UTF-8. -/
def unreadable : Bytes := [0x64, 0xFF]

end Sample

/-- A dataset whose name is not UTF-8 shares its command with one whose name is, although both
configurations are valid; a dataset whose name is UTF-8 is the same in whatever shares its command. -/
theorem client_paths_unreadable :
    let p : Program := ⟨"client", []⟩
    let results : Path := .ofString "r"
    let c := Sample.configuration Sample.unreadable
    let d := Sample.configuration [0x64]
    c.violation? = none ∧ d.violation? = none ∧ c.dataset.text? = none ∧ d.dataset.text?.isSome ∧
      (∃ c', c'.dataset ≠ c.dataset ∧ c'.dataset.text?.isSome ∧ c'.violation? = c.violation? ∧
        client c' p results default = client c p results default) ∧
      ({ d with dummyWeights := true } : Configuration).dataset = d.dataset := by
  intro p results c d
  have hc : c.dataset.text? = none := by decide +kernel
  have hd : d.dataset.text?.isSome := by decide +kernel
  have halike (d : Configuration) : client { d with dummyWeights := true } p results default =
      client d p results default := (client_eq_iff ..).mpr ⟨rfl, rfl, rfl, rfl, rfl⟩
  obtain ⟨-, htold, hshared⟩ := client_paths p default
  exact ⟨by decide +kernel, by decide +kernel, hc, hd, hshared c results hc,
    htold _ _ _ (halike d) hd hd⟩

end Command

end EngineBench
