import EngineBench.CommandLine
import EngineBench.Proofs.LoadedSettings
import EngineBench.Proofs.ReportText
import EngineBench.Proofs.Resolution

/-!
# The report that a run leaves

A run whose settings name a report leaves one behind, whatever its outcome. There is one exception.
A report is a text, and a path in it has to be one too: with a dataset whose path is not UTF-8 a run
goes its way, but no report is written, and an earlier one stays.

* `Host.Writable` says of a path that a file can be made there.
* `CommandLine.run_writesReport_iff`: the file is the record of the run exactly if the path of the
  dataset is UTF-8; if it is not, the file is not touched.
-/

namespace EngineBench

/-- A file can be made at a path: the directories above it, then the file with any content. -/
structure Host.Writable {σ : Type} (h : Host σ) (p : Path) (s : σ) : Prop where
  parent : (h.makeParent p s).1 = .ok ()
  write (content : Bytes) : (h.writeFile p content (h.makeParent p s).2).1 = .ok ()
  read (content : Bytes) :
    h.readFile p (h.writeFile p content (h.makeParent p s).2).2 = .ok content

/-! ## Summaries that can be written -/

theorem Json.ofPath?_isSome_iff {p : Path} : (Json.ofPath? p).isSome ↔ p.text?.isSome := by
  rw [Json.ofPath?, Option.isSome_map]

theorem Configuration.toJson?_isSome_iff {c : Configuration} :
    c.toJson?.isSome ↔ c.dataset.text?.isSome := by
  rw [← Json.ofPath?_isSome_iff, Option.isSome_iff_exists, Option.isSome_iff_exists]
  constructor
  · rintro ⟨j, hj⟩
    obtain ⟨dataset, hdataset, -⟩ := toJson?_eq_some_iff.mp hj
    exact ⟨dataset, hdataset⟩
  · rintro ⟨dataset, hdataset⟩
    exact ⟨_, toJson?_eq_some_iff.mpr ⟨dataset, hdataset, rfl⟩⟩

/-- Only paths can keep a summary from being written. -/
theorem Summary.toJson?_isSome_iff {s : Summary} :
    s.toJson?.isSome ↔ s.configuration.dataset.text?.isSome ∧ s.engineLog.text?.isSome := by
  rw [← Configuration.toJson?_isSome_iff, ← Json.ofPath?_isSome_iff, Option.isSome_iff_exists,
    Option.isSome_iff_exists, Option.isSome_iff_exists]
  constructor
  · rintro ⟨j, hj⟩
    obtain ⟨configuration, log, hc, hlog, -⟩ := toJson?_eq_some_iff.mp hj
    exact ⟨⟨configuration, hc⟩, log, hlog⟩
  · rintro ⟨⟨configuration, hc⟩, log, hlog⟩
    exact ⟨_, toJson?_eq_some_iff.mpr ⟨configuration, log, hc, hlog, rfl⟩⟩

/-! ## Reports -/

namespace Report

variable {σ : Type} {h : Host σ} {p : Path} {summary : Summary} {s : σ}

/-- A report without a text leaves no file. -/
theorem write_of_toJson?_eq_none (hnone : summary.toJson? = none) :
    (write h p summary s).2 = (h.makeParent p s).2 := by
  have htext : text? summary = none := by rw [text?, hnone, Option.map_none]
  unfold write
  rcases h.makeParent p s with ⟨_ | _, s'⟩
  · rfl
  · simp only [htext]

/-- Where a file can be made, a report is the record of its summary. -/
theorem readFile_write (hw : h.Writable p s) {j : Json} (hj : summary.toJson? = some j) :
    ∃ text, h.readFile p (write h p summary s).2 = .ok (Text.encode text) ∧
      Json.read? text = some j := by
  have htext : text? summary = some (Json.pretty j) := by rw [text?, hj, Option.map_some]
  refine ⟨Json.pretty j, ?_, (json_of_text? htext).trans hj⟩
  have hparent := hw.parent
  have hread := hw.read (Text.encode (Json.pretty j))
  unfold write
  rcases hmade : h.makeParent p s with ⟨_ | _, s'⟩
  · rw [hmade] at hparent
    cases hparent
  · rw [hmade] at hread
    simp only [htext]
    exact hread

end Report

/-! ## Command lines -/

namespace CommandLine

section

variable {σ : Type} {h : Host σ} {arguments : List Bytes} {i : Invocation} {settings : Settings}
  {s : σ}

/-- What the command line of a run does, once it is resolved. -/
theorem run_of_resolve (hresolve : Invocation.resolve arguments (textVariable h s) = .ok i)
    (hdry : i.dryRun = false) (hsettings : Settings.resolve h i.settings s = .ok settings) :
    ∃ p, Plan.ofSettings settings (settings.environment h (h.watchSignals s)) ⟨0, true⟩ = .ok p ∧
      run h arguments s = execute h p i.configuration settings.report (h.watchSignals s) := by
  obtain ⟨d, hd⟩ := (Settings.usable_of_resolve hsettings).grace
  refine ⟨_, Plan.ofSettings_eq_ok_iff.mpr ⟨d, hd, rfl⟩, ?_⟩
  simp only [run, hresolve, perform, hsettings, hdry, Bool.not_false, Bool.false_eq_true, if_false,
    Plan.ofSettings_eq_ok_iff.mpr ⟨d, hd, rfl⟩]

/-- A run with an outcome has a summary with it, and the report is written last. -/
theorem execute_eq {p : Plan} {c : Configuration} {path : Path} {o : Outcome}
    (hrun : (execute h p c (some path) s).1 = .ok o) :
    ∃ summary s', p.run h c (h.connect c.port) s = (.ok summary, s') ∧ summary.outcome = o ∧
      execute h p c (some path) s = (.ok o, (Report.write h path summary s').2) := by
  unfold execute at hrun ⊢
  rcases hresult : p.run h c (h.connect c.port) s with ⟨halt | summary, s'⟩
  · simp only [hresult, reduceCtorEq] at hrun
  · simp only [hresult, Except.ok.injEq] at hrun ⊢
    exact ⟨summary, s', rfl, hrun, by rw [hrun]⟩

/-- A command line that is resolved, asks for a run and comes to an outcome has made a run of the
plan that its settings give. If the settings name a report and a file can be made there after the
run, the file is the record of that very run exactly if the path of the dataset is UTF-8. If it is
not, the directories above the file are all that is made. -/
theorem run_writesReport_iff
    (hresolve : Invocation.resolve arguments (textVariable h s) = .ok i) (hdry : i.dryRun = false)
    (hsettings : Settings.resolve h i.settings s = .ok settings) {path : Path}
    (hreport : settings.report = some path) {o : Outcome} (hrun : (run h arguments s).1 = .ok o) :
    ∃ p summary s',
      Plan.ofSettings settings (settings.environment h (h.watchSignals s)) ⟨0, true⟩ = .ok p ∧
      p.run h i.configuration (h.connect i.configuration.port) (h.watchSignals s) =
        (.ok summary, s') ∧
      summary.outcome = o ∧ summary.configuration = i.configuration ∧
      (h.Writable path s' →
        ((∃ text j, h.readFile path (run h arguments s).2 = .ok (Text.encode text) ∧
            summary.toJson? = some j ∧ Json.read? text = some j) ↔
          i.configuration.dataset.text?.isSome)) ∧
      (i.configuration.dataset.text? = none →
        (run h arguments s).2 = (h.makeParent path s').2) := by
  obtain ⟨p, hplan, heq⟩ := run_of_resolve hresolve hdry hsettings
  rw [heq, hreport] at hrun
  obtain ⟨summary, s', hresult, houtcome, hexecute⟩ := execute_eq hrun
  have hstate : (run h arguments s).2 = (Report.write h path summary s').2 := by
    rw [heq, hreport, hexecute]
  -- What the summary began with is there at its end, the configuration and the log among it.
  obtain ⟨-, hran⟩ := p.run_ran h i.configuration (h.connect i.configuration.port)
    (h.watchSignals s)
  obtain ⟨began, hbegan⟩ := hran.beginning (congrArg Prod.fst hresult)
  have hconfiguration : summary.configuration = i.configuration :=
    congrArg Summary.configuration hbegan
  have hlog : summary.engineLog = settings.engine.log := by
    obtain ⟨d, -, rfl⟩ := Plan.ofSettings_eq_ok_iff.mp hplan
    exact congrArg Summary.engineLog hbegan
  have hwritten : summary.toJson?.isSome ↔ i.configuration.dataset.text?.isSome := by
    rw [Summary.toJson?_isSome_iff, hconfiguration, hlog]
    exact and_iff_left (Settings.usable_of_resolve hsettings).log
  refine ⟨p, summary, s', hplan, hresult, houtcome, hconfiguration, fun hw => ?_, fun hnone => ?_⟩
  · rw [hstate, ← hwritten, Option.isSome_iff_exists]
    constructor
    · rintro ⟨-, j, -, hj, -⟩
      exact ⟨j, hj⟩
    · rintro ⟨j, hj⟩
      obtain ⟨text, hread, hjson⟩ := Report.readFile_write hw hj
      exact ⟨text, j, hread, hj, hjson⟩
  · rw [hstate]
    refine Report.write_of_toJson?_eq_none (Option.not_isSome_iff_eq_none.mp ?_)
    rw [hwritten, hnone]
    exact nofun

end

namespace Sample

def settingsText : String := "[report]\npath = \"run.json\"\n"

def path : Path := .ofString "run.json"

/-- What the settings file spells. -/
def settings : Settings := { Settings.standard with report := some path }

/-- A stage with a settings file and a place for a report, and with "1" for every variable. -/
def host : Host (Stage × Bytes) :=
  { Stage.host.extend Bytes with
    getVariable := fun _ _ => some (Text.encode "1")
    workingDirectory := fun _ => some (.ofString "/")
    isFile := fun _ _ => true
    readFile := fun p s => .ok (if p = path then s.2 else Text.encode settingsText)
    writeFile := fun _ content s => (.ok (), s.1, content) }

/-- A stage on which a signal was delivered before the run starts, and some earlier report. -/
def start : Stage × Bytes :=
  ({ Stage.start with interrupts := Interrupts.none.deliver .terminate }, Text.encode "earlier")

def arguments : List Bytes :=
  Text.encode "servebench" :: Invocation.Sample.groups.map Options.Group.token

theorem textVariable_eq : textVariable host start = fun _ => some "1" := by
  funext name
  exact Text.decode?_eq_some_iff.mpr rfl

theorem resolve_eq :
    Invocation.resolve arguments (textVariable host start) = .ok Invocation.Sample.invocation := by
  rw [textVariable_eq]
  have hsplit : Options.Split arguments.tail Invocation.Sample.groups := Options.split_tokens _
  exact (Invocation.resolve_of_split hsplit).mpr
    ⟨Invocation.Sample.groups_accepted, Invocation.Sample.invocation_askedBy,
      Invocation.Sample.check_invocation⟩

theorem settings_eq : Settings.resolve host none start = .ok settings := by
  have hdiscover : Settings.discover host start = some (.ofString "/servebench.toml") := by
    decide +kernel
  have hother : Path.ofString "/servebench.toml" ≠ path := by decide +kernel
  simp only [Settings.resolve, hdiscover]
  refine Settings.load_eq_ok_iff.mpr ⟨Text.encode settingsText, settingsText, ?_, ?_, ?_, ?_⟩
  · exact congrArg Except.ok (if_neg hother)
  · exact Text.decode?_eq_some_iff.mpr rfl
  · decide +kernel
  · decide +kernel

theorem writable (s : Stage × Bytes) : host.Writable path s where
  parent := rfl
  write _ := rfl
  read _ := congrArg Except.ok (if_pos rfl)

end Sample

/-- The report of a run that a signal ends before it starts. -/
theorem run_writesReport_iff_sample :
    let i := Invocation.Sample.invocation
    let h := Sample.host
    Invocation.resolve Sample.arguments (textVariable h Sample.start) = .ok i ∧
      i.dryRun = false ∧ Settings.resolve h i.settings Sample.start = .ok Sample.settings ∧
      Sample.settings.report = some Sample.path ∧
      (run h Sample.arguments Sample.start).1 = .ok .interrupted ∧
      ∃ (summary : Summary) (text : String) (j : Json), summary.outcome = .interrupted ∧
        summary.configuration = i.configuration ∧
        h.readFile Sample.path (run h Sample.arguments Sample.start).2 = .ok (Text.encode text) ∧
        summary.toJson? = some j ∧ Json.read? text = some j := by
  intro i h
  have hrun : (run h Sample.arguments Sample.start).1 = .ok .interrupted := by
    obtain ⟨p, hplan, heq⟩ := run_of_resolve Sample.resolve_eq rfl Sample.settings_eq
    obtain ⟨d, -, rfl⟩ := Plan.ofSettings_eq_ok_iff.mp hplan
    rw [heq]
    rfl
  obtain ⟨p, summary, s', -, -, houtcome, hconfiguration, hwritten, -⟩ :=
    run_writesReport_iff Sample.resolve_eq rfl Sample.settings_eq rfl hrun
  have hdataset : i.configuration.dataset.text? = some "d" := Text.decode?_eq_some_iff.mpr rfl
  obtain ⟨text, j, hread, hj, hjson⟩ :=
    (hwritten (Sample.writable s')).mpr (Option.isSome_iff_exists.mpr ⟨_, hdataset⟩)
  exact ⟨Sample.resolve_eq, rfl, Sample.settings_eq, rfl, hrun, summary, text, j, houtcome,
    hconfiguration, hread, hj, hjson⟩

end CommandLine

end EngineBench
