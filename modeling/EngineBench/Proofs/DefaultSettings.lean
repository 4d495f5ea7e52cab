import Mathlib.Logic.Relation
import EngineBench.Proofs.LoadedSettings
import EngineBench.Proofs.TomlHeaders

/-!
# Defaults that are spelled out

A default is written down twice: for a field that its section leaves out, and for a section that is
left out. Documents cannot tell: a field that is left out may as well be spelled out with its
default.

* `Settings.Spells` is one step from a document to one that says more: an empty section is opened,
  or a field gets its default. `Settings.read?_of_spells` says that the step changes nothing, and
  `Settings.read?_of_spellsOut` that many steps do not.
* `Settings.spell` spells one default out, and `Settings.spellsOut_spell` says that it takes such
  steps.
* `Settings.Silent` are the ways to say nothing about the settings.
* `Settings.resolve_defaults` puts them together, for files and for the plans of runs.
-/

namespace EngineBench

namespace Toml

/-- Members that say one thing more than others, wherever they say it. -/
structure Adds (name : String) (v : Toml) (ms ms' : List (String × Toml)) : Prop where
  absent : ms.lookup name = none
  added : ms'.lookup name = some v
  kept : ∀ other, other ≠ name → ms'.lookup other = ms.lookup other

theorem memberSlot_congr {ms ms' : List (String × Toml)} {name : String}
    (h : ms'.lookup name = ms.lookup name) : memberSlot ms' name = memberSlot ms name := by
  rw [memberSlot, h, memberSlot]

/-- A field does not change if it is spelled out as its default. -/
theorem Adds.defaulted {α : Type} {name field : String} {v : Toml} {ms ms' : List (String × Toml)}
    {read? : Toml → Option α} {d : α} (h : Adds name v ms ms')
    (hv : field = name → read? v = some d) :
    (memberSlot ms' field).defaulted read? d = (memberSlot ms field).defaulted read? d := by
  by_cases hfield : field = name
  · have hread := hv hfield
    subst hfield
    rw [memberSlot, memberSlot, h.added, h.absent]
    exact hread
  · rw [memberSlot_congr (h.kept field hfield)]

end Toml

namespace Settings

open Toml (Adds memberSlot)

/-- The tables of a document about settings. -/
def sections : List String := ["server", "client", "environment", "metadata", "report"]

/-- The fields that can be spelled out with their defaults: the section, the field and the
default. -/
def defaults : List (String × String × Toml) :=
  [("server", "program", .text "python"),
    ("server", "args", .array [.text "-m", .text "distserve.api_server.distserve_api_server"]),
    ("server", "log_file", .text "logs/server.log"),
    ("server", "shutdown_timeout", .text "10s"),
    ("client", "program", .text "python"),
    ("client", "args", .array [.text "benchmark-serving.py"]),
    ("client", "output", .text "logs/results.json"),
    ("environment", "vars", .table []),
    ("metadata", "enabled", .bool false)]

/-- A document that says a little more than another one, but nothing else. -/
inductive Spells (ms ms' : List (String × Toml)) : Prop
  /-- A section is there now, and empty. -/
  | opened {name : String} : name ∈ sections → Adds name (.table []) ms ms' → Spells ms ms'
  /-- A section has got a field, with its default. -/
  | stated {name field : String} {v : Toml} {fields fields' : List (String × Toml)} :
      (name, field, v) ∈ defaults → ms.lookup name = some (.table fields) →
      Adds field v fields fields' → ms'.lookup name = some (.table fields') →
      (∀ other, other ≠ name → ms'.lookup other = ms.lookup other) → Spells ms ms'

/-- A document in which any number of defaults is spelled out. -/
abbrev SpellsOut : List (String × Toml) → List (String × Toml) → Prop :=
  Relation.ReflTransGen Spells

/-! ## Spelling a default out -/

/-- Sets the member with a name. A new one comes last. -/
def setMember (name : String) (v : Toml) : List (String × Toml) → List (String × Toml)
  | [] => [(name, v)]
  | m :: ms => if name == m.1 then (name, v) :: ms else m :: setMember name v ms

theorem lookup_setMember_self (name : String) (v : Toml) (ms : List (String × Toml)) :
    (setMember name v ms).lookup name = some v := by
  induction ms with
  | nil => simp [setMember]
  | cons m ms ih =>
    obtain ⟨n, w⟩ := m
    rw [setMember]
    by_cases hname : (name == n) = true
    · rw [if_pos hname]
      exact List.lookup_cons_self
    · rw [if_neg hname, List.lookup_cons, Bool.eq_false_iff.mpr hname]
      exact ih

theorem lookup_setMember_of_ne {name other : String} (hne : other ≠ name) (v : Toml)
    (ms : List (String × Toml)) : (setMember name v ms).lookup other = ms.lookup other := by
  have hother : (other == name) = false := beq_eq_false_iff_ne.mpr hne
  induction ms with
  | nil =>
    rw [setMember, List.lookup_cons, hother]
  | cons m ms ih =>
    obtain ⟨n, w⟩ := m
    rw [setMember]
    by_cases hname : (name == n) = true
    · rw [if_pos hname, List.lookup_cons, List.lookup_cons, ← beq_iff_eq.mp hname, hother]
    · rw [if_neg hname, List.lookup_cons, List.lookup_cons, ih]

theorem adds_setMember {name : String} {ms : List (String × Toml)} (h : ms.lookup name = none)
    (v : Toml) : Adds name v ms (setMember name v ms) :=
  ⟨h, lookup_setMember_self name v ms, fun _ hne => lookup_setMember_of_ne hne v ms⟩

/-- A document has no such field: there is no such section, or a table without the field. -/
inductive Lacks (name field : String) (ms : List (String × Toml)) : Prop
  | absent : ms.lookup name = none → Lacks name field ms
  | bare {fields : List (String × Toml)} : ms.lookup name = some (.table fields) →
      fields.lookup field = none → Lacks name field ms

/-- Gives a section a field. The section is made if it is not there. -/
def spell (name field : String) (v : Toml) (ms : List (String × Toml)) : List (String × Toml) :=
  match ms.lookup name with
  | some (.table fields) => setMember name (.table (setMember field v fields)) ms
  | _ => setMember name (.table [(field, v)]) ms

/-- Every default that a document leaves out can be spelled out. -/
theorem spellsOut_spell {name field : String} {v : Toml} (hdefault : (name, field, v) ∈ defaults)
    {ms : List (String × Toml)} (hlacks : Lacks name field ms) :
    SpellsOut ms (spell name field v ms) := by
  have hother {other : String} (hne : other ≠ name) (w : Toml) :=
    lookup_setMember_of_ne hne w ms
  cases hlacks with
  | absent habsent =>
    -- The section is opened first.
    have hall : ∀ d ∈ defaults, d.1 ∈ sections := by decide
    have hsection : name ∈ sections := hall _ hdefault
    have hopened : Spells ms (setMember name (.table []) ms) :=
      .opened hsection (adds_setMember habsent _)
    refine .tail (.single hopened) (.stated hdefault (lookup_setMember_self name _ ms)
      (adds_setMember rfl v) ?_ ?_)
    · rw [spell, habsent]
      exact lookup_setMember_self name _ ms
    · intro other hne
      rw [spell, habsent, hother hne, hother hne]
  | bare hsection hfield =>
    refine .single (.stated hdefault hsection (adds_setMember hfield v) ?_ ?_)
    · rw [spell, hsection]
      exact lookup_setMember_self name _ ms
    · intro other hne
      rw [spell, hsection, hother hne]

/-! ## Sections -/

/-- A section is read in the same way if more of its defaults are spelled out, and an empty one as
what stands for one that is not there. -/
structure IsSection {α : Type} (name : String) (read? : Toml → Option α) (d : α) : Prop where
  stated {field : String} {v : Toml} {fields fields' : List (String × Toml)} :
    (name, field, v) ∈ defaults → Adds field v fields fields' →
    read? (.table fields') = read? (.table fields)
  empty : read? (.table []) = some d

theorem isSection_engine : IsSection "server" (EngineSettings.read? Toml.format) .standard := by
  refine ⟨fun {field v fields fields'} hdefault hadds => ?_, rfl⟩
  have htable (fields : List (String × Toml)) :
      EngineSettings.read? Toml.format (.table fields) = (do
        let program ← (memberSlot fields "program").defaulted Toml.text? "python"
        let arguments ← (memberSlot fields "args").defaulted Toml.format.texts?
          ["-m", "distserve.api_server.distserve_api_server"]
        let log ← (memberSlot fields "log_file").defaulted Toml.format.path?
          (.ofString "logs/server.log")
        let grace ← (memberSlot fields "shutdown_timeout").defaulted Toml.text? "10s"
        return ⟨program, arguments, log, grace⟩) := rfl
  rw [htable, htable, hadds.defaulted, hadds.defaulted, hadds.defaulted, hadds.defaulted]
  all_goals
    rintro rfl
    obtain rfl : v = _ := by simpa [defaults] using hdefault
    rfl

theorem isSection_client : IsSection "client" (ClientSettings.read? Toml.format) .standard := by
  refine ⟨fun {field v fields fields'} hdefault hadds => ?_, rfl⟩
  have htable (fields : List (String × Toml)) :
      ClientSettings.read? Toml.format (.table fields) = (do
        let program ← (memberSlot fields "program").defaulted Toml.text? "python"
        let arguments ← (memberSlot fields "args").defaulted Toml.format.texts?
          ["benchmark-serving.py"]
        let results ← (memberSlot fields "output").defaulted Toml.format.path?
          (.ofString "logs/results.json")
        return ⟨program, arguments, results⟩) := rfl
  rw [htable, htable, hadds.defaulted, hadds.defaulted, hadds.defaulted]
  all_goals
    rintro rfl
    obtain rfl : v = _ := by simpa [defaults] using hdefault
    rfl

/-- The root of a runtime has no default that could be spelled out. -/
theorem isSection_runtime :
    IsSection "environment" (RuntimeSettings.read? Toml.format) .standard := by
  refine ⟨fun {field v fields fields'} hdefault hadds => ?_, rfl⟩
  have htable (fields : List (String × Toml)) :
      RuntimeSettings.read? Toml.format (.table fields) = (do
        let root ← (memberSlot fields "prefix").defaulted
          (Toml.format.nullable? Toml.format.path?) none
        let vars ← (memberSlot fields "vars").defaulted Toml.vars? .empty
        return ⟨root, vars⟩) := rfl
  obtain ⟨rfl, rfl⟩ : field = "vars" ∧ v = .table [] := by simpa [defaults] using hdefault
  have hempty : Toml.vars? (.table []) = some .empty := rfl
  rw [htable, htable, hadds.defaulted fun _ => hempty,
    Toml.memberSlot_congr (hadds.kept "prefix" (by decide))]

theorem isSection_metadata :
    IsSection "metadata" (readSingle? Toml.format "enabled" Toml.format.bool? false) false := by
  refine ⟨fun {field v fields fields'} hdefault hadds => ?_, rfl⟩
  have htable (fields : List (String × Toml)) :
      readSingle? Toml.format "enabled" Toml.format.bool? false (.table fields) =
        (memberSlot fields "enabled").defaulted Toml.format.bool? false := rfl
  obtain ⟨rfl, rfl⟩ : field = "enabled" ∧ v = .bool false := by simpa [defaults] using hdefault
  have hfalse : Toml.format.bool? (.bool false) = some false := rfl
  rw [htable, htable, hadds.defaulted fun _ => hfalse]

theorem isSection_report :
    IsSection "report"
      (readSingle? Toml.format "path" (Toml.format.nullable? Toml.format.path?) none) none := by
  refine ⟨fun hdefault _ => ?_, rfl⟩
  simp [defaults] at hdefault

/-! ## Documents -/

variable {ms ms' : List (String × Toml)}

/-- What a section is read as does not change with the defaults that are spelled out. -/
theorem Spells.defaulted {α : Type} {name : String} {read? : Toml → Option α} {d : α}
    (hs : Spells ms ms') (hsection : IsSection name read? d) :
    (memberSlot ms' name).defaulted read? d = (memberSlot ms name).defaulted read? d := by
  cases hs with
  | opened _ hadds => exact hadds.defaulted fun _ => hsection.empty
  | @stated name' _ _ fields fields' hdefault hold hadds hnew hkept =>
    by_cases hname : name = name'
    · subst hname
      rw [memberSlot, memberSlot, hold, hnew]
      exact hsection.stated hdefault hadds
    · rw [Toml.memberSlot_congr (hkept name hname)]

theorem read?_table (ms : List (String × Toml)) :
    read? Toml.format (.table ms) = (do
      let engine ← (memberSlot ms "server").defaulted (EngineSettings.read? Toml.format) .standard
      let client ← (memberSlot ms "client").defaulted (ClientSettings.read? Toml.format) .standard
      let runtime ← (memberSlot ms "environment").defaulted (RuntimeSettings.read? Toml.format)
        .standard
      let metadata ← (memberSlot ms "metadata").defaulted
        (readSingle? Toml.format "enabled" Toml.format.bool? false) false
      let report ← (memberSlot ms "report").defaulted
        (readSingle? Toml.format "path" (Toml.format.nullable? Toml.format.path?) none) none
      return ⟨engine, client, runtime, metadata, report⟩) :=
  rfl

theorem read?_of_spells (hs : Spells ms ms') :
    read? Toml.format (.table ms') = read? Toml.format (.table ms) := by
  rw [read?_table, read?_table, hs.defaulted isSection_engine, hs.defaulted isSection_client,
    hs.defaulted isSection_runtime, hs.defaulted isSection_metadata,
    hs.defaulted isSection_report]

/-- However many defaults are spelled out, a document is read in the same way. -/
theorem read?_of_spellsOut (hs : SpellsOut ms ms') :
    read? Toml.format (.table ms') = read? Toml.format (.table ms) := by
  induction hs with
  | refl => rfl
  | tail _ hstep ih => rw [read?_of_spells hstep, ih]

/-- A document that says nothing: each section is left out or empty. -/
def SaysNothing (ms : List (String × Toml)) : Prop :=
  ∀ name ∈ sections, ms.lookup name = none ∨ ms.lookup name = some (.table [])

theorem SaysNothing.defaulted {α : Type} {name : String} {read? : Toml → Option α} {d : α}
    (hms : SaysNothing ms) (hname : name ∈ sections) (hsection : IsSection name read? d) :
    (memberSlot ms name).defaulted read? d = some d := by
  rw [memberSlot]
  rcases hms name hname with hnone | htable
  · rw [hnone]
    rfl
  · rw [htable]
    exact hsection.empty

/-- Who says nothing gets the standard settings. -/
theorem SaysNothing.read?_eq (hms : SaysNothing ms) :
    read? Toml.format (.table ms) = some standard := by
  rw [read?_table, hms.defaulted (by decide) isSection_engine,
    hms.defaulted (by decide) isSection_client, hms.defaulted (by decide) isSection_runtime,
    hms.defaulted (by decide) isSection_metadata, hms.defaulted (by decide) isSection_report]
  rfl

/-! ## Files -/

variable {σ τ : Type}

/-- The file at a path spells a document. -/
def InFile (h : Host σ) (p : Path) (s : σ) (document : Toml) : Prop :=
  ∃ content text, h.readFile p s = .ok content ∧ Text.decode? content = some text ∧
    Toml.read? text = some document

/-- What is loaded from a file depends on its document alone. -/
theorem load_eq_ok_iff_of_inFile {h : Host σ} {p : Path} {s : σ} {document : Toml}
    (hfile : InFile h p s document) {settings : Settings} :
    load h p s = .ok settings ↔
      read? Toml.format document = some settings ∧ settings.violation? = none := by
  obtain ⟨content, text, hread, hdecode, hdocument⟩ := hfile
  have htext : ofText? text = read? Toml.format document := by rw [ofText?, hdocument]; rfl
  rw [load_eq_ok_iff]
  constructor
  · rintro ⟨content', text', hread', hdecode', hsettings, hnone⟩
    rw [hread] at hread'
    cases hread'
    rw [hdecode] at hdecode'
    cases hdecode'
    exact ⟨htext ▸ hsettings, hnone⟩
  · rintro ⟨hsettings, hnone⟩
    exact ⟨content, text, hread, hdecode, htext.trans hsettings, hnone⟩

/-- The ways to say nothing about the settings. -/
inductive Silent (h : Host σ) (s : σ) : Option Path → Prop
  /-- No file is named, and there is none. -/
  | missing : discover h s = none → Silent h s none
  /-- No file is named, and the nearest one says nothing. -/
  | found {p : Path} {ms : List (String × Toml)} : discover h s = some p →
      InFile h p s (.table ms) → SaysNothing ms → Silent h s none
  | named {p : Path} {ms : List (String × Toml)} : InFile h p s (.table ms) → SaysNothing ms →
      Silent h s (some p)

theorem Silent.resolve_eq {h : Host σ} {named : Option Path} {s : σ} (hs : Silent h s named) :
    resolve h named s = .ok standard := by
  have hnone : standard.violation? = none := by decide +kernel
  cases hs with
  | missing hdiscover => simp only [resolve, hdiscover]
  | found hdiscover hfile hms =>
    simp only [resolve, hdiscover]
    exact (load_eq_ok_iff_of_inFile hfile).mpr ⟨hms.read?_eq, hnone⟩
  | named hfile hms => exact (load_eq_ok_iff_of_inFile hfile).mpr ⟨hms.read?_eq, hnone⟩

/-- A document of empty sections says nothing. -/
theorem saysNothing_map (names : List String) :
    SaysNothing (names.map fun name => (name, .table [])) := by
  intro name _
  induction names with
  | nil => exact .inl rfl
  | cons other names ih =>
    rw [List.map_cons, List.lookup_cons]
    by_cases hname : name == other
    · simp [hname]
    · simpa [hname] using ih

theorem isBareName_of_mem_sections {name : String} (hname : name ∈ sections) :
    Toml.IsBareName name := by
  revert name
  decide

/-- A file with the headers of some sections, or with nothing at all, says nothing. -/
theorem silent_headers {h : Host σ} {p : Path} {s : σ} {names : List String}
    (hnames : ∀ name ∈ names, name ∈ sections) (hnodup : names.Nodup)
    (hread : h.readFile p s = .ok (Text.encode (String.ofList (Toml.headerChars names)))) :
    Silent h s (some p) :=
  .named ⟨_, _, hread, Text.decode?_eq_some_iff.mpr rfl,
    Toml.read?_headers (fun name hname => isBareName_of_mem_sections (hnames name hname)) hnodup⟩
    (saysNothing_map names)

/-! ## Defaults, wherever they come from -/

/-- A field that is left out counts as its default, whether its section is there or not, and there
is but one set of standard settings: those of every way to say nothing. -/
theorem resolve_defaults :
    (∀ {name field : String} {v : Toml} {ms : List (String × Toml)}, (name, field, v) ∈ defaults →
      Lacks name field ms → SpellsOut ms (spell name field v ms)) ∧
    (∀ {σ τ : Type} (h : Host σ) (h' : Host τ) (p p' : Path) (s : σ) (s' : τ)
      (ms ms' : List (String × Toml)), InFile h p s (.table ms) → InFile h' p' s' (.table ms') →
      SpellsOut ms ms' →
      ∀ settings, load h p s = .ok settings ↔ load h' p' s' = .ok settings) ∧
    (∀ {σ : Type} (h : Host σ) (p : Path) (s : σ) (names : List String),
      (∀ name ∈ names, name ∈ sections) → names.Nodup →
      h.readFile p s = .ok (Text.encode (String.ofList (Toml.headerChars names))) →
      Silent h s (some p)) ∧
    (∀ {σ : Type} (h : Host σ) (s : σ) (named : Option Path), Silent h s named →
      resolve h named s = .ok standard) ∧
    ∀ {σ : Type} (h : Host σ) (s : σ) (token : Token), ∃ plan,
      Plan.ofSettings standard (environment h standard s) token = .ok plan ∧
        plan.grace = .ofSeconds 10 ∧ ∀ c,
        plan.engineCommand c =
          .engine c ⟨"python", ["-m", "distserve.api_server.distserve_api_server"]⟩ .empty ∧
        plan.clientCommand c = .client c ⟨"python", ["benchmark-serving.py"]⟩
          (.ofString "logs/results.json") .empty := by
  refine ⟨fun hdefault => spellsOut_spell hdefault, ?_, fun _ _ _ _ => silent_headers,
    fun _ _ _ => Silent.resolve_eq, ?_⟩
  · intro σ τ h h' p p' s s' ms ms' hfile hfile' hs settings
    rw [load_eq_ok_iff_of_inFile hfile, load_eq_ok_iff_of_inFile hfile', read?_of_spellsOut hs]
  · intro σ h s token
    have hgrace : standard.grace = .ok (.ofSeconds 10) := by decide +kernel
    exact ⟨_, Plan.ofSettings_eq_ok_iff.mpr ⟨_, hgrace, rfl⟩, rfl, fun c => ⟨rfl, rfl⟩⟩

/-- Two defaults that are spelled out in a text. -/
example : ofText? "[server]\nshutdown_timeout = \"10s\"\n[metadata]\nenabled = false\n" =
    ofText? "" := by decide +kernel

end Settings

end EngineBench
