import EngineBench.Command.Json
import EngineBench.Proofs.JsonRecords
import EngineBench.Proofs.LoadedSettings
import EngineBench.Proofs.Overlays
import EngineBench.Settings.Json

/-!
# Settings and commands in JSON are read back

Settings, commands, overlays and programs are written as JSON texts and read back. Of the many texts
that are read as one value, one is what is written for it.

* `Json.Rereads` is what the writer and the reader of a kind of value owe each other; there is one
  instance for each kind.
* `Json.Rereads.survives` makes of it what holds of their texts.
* `Json.settings_commands_survive` is the result for the four kinds.
-/

namespace EngineBench

namespace Json

/-! ## Values and their texts -/

variable {α : Type} {toJson? : α → Option Json} {ofJson? : Json → Option α} {Writable : α → Prop}

/-- The text that is written for a value. -/
def textOf? (toJson? : α → Option Json) (x : α) : Option String := (toJson? x).map compact

/-- The value that a text is read as. -/
def ofText? (ofJson? : Json → Option α) (text : String) : Option α := (read? text).bind ofJson?

/-- What the writer and the reader of a kind of value owe each other. -/
structure Rereads (toJson? : α → Option Json) (ofJson? : Json → Option α)
    (Writable : α → Prop) : Prop where
  written {x : α} : Writable x → ∃ j, toJson? x = some j
  grammatical {x : α} {j : Json} : toJson? x = some j → j.IsGrammatical
  reread {x : α} {j : Json} : toJson? x = some j → ofJson? j = some x
  /-- What is read can be written. -/
  writable {x : α} {j : Json} : ofJson? j = some x → Writable x

/-- Values of a kind survive the way through their texts. -/
structure Survives (textOf? : α → Option String) (ofText? : String → Option α)
    (Writable : α → Prop) : Prop where
  /-- A value that can be written is read back from its text. -/
  reread {x : α} : Writable x → ∃ text, textOf? x = some text ∧ ofText? text = some x
  /-- All texts that are read as a value lead to the one that is written for it, and that leads to
  itself. -/
  canonical {text : String} {x : α} : ofText? text = some x → ∃ canonical,
    (ofText? text).bind textOf? = some canonical ∧ ofText? canonical = some x ∧
      (ofText? canonical).bind textOf? = some canonical

namespace Rereads

theorem ofText?_textOf? (h : Rereads toJson? ofJson? Writable) {x : α} {text : String}
    (ht : textOf? toJson? x = some text) : ofText? ofJson? text = some x := by
  obtain ⟨j, hj, rfl⟩ := Option.map_eq_some_iff.mp ht
  rw [ofText?, read?_compact (h.grammatical hj), Option.bind_some, h.reread hj]

theorem exists_text (h : Rereads toJson? ofJson? Writable) {x : α} (hx : Writable x) :
    ∃ text, textOf? toJson? x = some text := by
  obtain ⟨j, hj⟩ := h.written hx
  exact ⟨_, congrArg (Option.map compact) hj⟩

theorem survives (h : Rereads toJson? ofJson? Writable) :
    Survives (textOf? toJson?) (ofText? ofJson?) Writable where
  reread {x} hx := by
    obtain ⟨text, htext⟩ := h.exists_text hx
    exact ⟨text, htext, h.ofText?_textOf? htext⟩
  canonical {text x} hread := by
    obtain ⟨j, -, hj⟩ := Option.bind_eq_some_iff.mp hread
    obtain ⟨canonical, hcanonical⟩ := h.exists_text (h.writable hj)
    have hagain := h.ofText?_textOf? hcanonical
    refine ⟨canonical, ?_, hagain, ?_⟩
    · rw [hread, Option.bind_some, hcanonical]
    · rw [hagain, Option.bind_some, hcanonical]

end Rereads

/-! ## Fields -/

theorem format_texts?_list (xs : List String) : format.texts? (list text xs) = some xs := by
  show (xs.map text).mapM text? = some xs
  induction xs with
  | nil => rfl
  | cons x xs ih =>
    rw [List.map_cons, List.mapM_cons, ih]
    rfl

theorem isGrammatical_list {f : α → Json} (hf : ∀ x, (f x).IsGrammatical) (xs : List α) :
    (list f xs).IsGrammatical := by
  refine .array fun j hj => ?_
  obtain ⟨x, -, rfl⟩ := List.mem_map.mp hj
  exact hf x

theorem format_text?_text (s : String) : format.text? (text s) = some s := rfl

theorem format_vars?_vars (e : Overlay) : format.vars? (vars e) = some e := by
  have hmembers (vs : List (String × String)) :
      ((vs.map fun v => (v.1, text v.2)).map fun m => (some m.1, m.2)).mapM namedText? =
        some vs := by
    induction vs with
    | nil => rfl
    | cons v vs ih =>
      rw [List.map_cons, List.map_cons, List.mapM_cons, ih]
      rfl
  -- To insert all variables into no variables is to merge into the empty overlay.
  have hlist : Overlay.ofList e.vars = e := Overlay.empty_merge e
  show ((((e.vars.map fun v => (v.1, text v.2)).map fun m => (some m.1, m.2)).mapM
    namedText?).map Overlay.ofList) = some e
  rw [hmembers, Option.map_some, hlist]

theorem isGrammatical_vars (e : Overlay) : (vars e).IsGrammatical := by
  refine .object fun m hm => ?_
  obtain ⟨_, hv, rfl⟩ := List.mem_map.mp hm
  obtain ⟨v, -, rfl⟩ := List.mem_map.mp hv
  exact .string _

theorem format_slots?_record (names : List String) (values : List Json) (hnodup : names.Nodup)
    (hlength : names.length = values.length) :
    format.slots? names (record (names.zip values)) = some (values.map .given) :=
  slots?_record names values hnodup hlength

theorem exists_ofPath? {p : Path} (h : p.text?.isSome) : ∃ j, ofPath? p = some j := by
  obtain ⟨t, ht⟩ := Option.isSome_iff_exists.mp h
  exact ⟨_, congrArg (Option.map text) ht⟩

theorem exists_ofPathOption? {p : Option Path} (h : ∀ q ∈ p, q.text?.isSome) :
    ∃ j, ofPathOption? p = some j := by
  cases p with
  | none => exact ⟨.null, rfl⟩
  | some q => exact exists_ofPath? (h q rfl)

theorem nullable?_of_ofPathOption? {p : Option Path} {j : Json} (h : ofPathOption? p = some j) :
    format.nullable? format.path? j = some p := by
  cases p with
  | none =>
    cases h
    rfl
  | some q =>
    have hread := format_path?_of_ofPath? h
    obtain ⟨s, -, rfl⟩ := Option.map_eq_some_iff.mp h
    show (format.path? (text s)).map some = some (some q)
    rw [hread, Option.map_some]

theorem isGrammatical_of_ofPathOption? {p : Option Path} {j : Json}
    (h : ofPathOption? p = some j) : j.IsGrammatical := by
  cases p with
  | none =>
    cases h
    exact .null
  | some q => exact isGrammatical_of_ofPath? h

end Json

theorem Slot.bind_defaulted {V α β : Type} {read? : V → Option α} {default x : α} {v : V}
    (h : read? v = some x) (f : α → Option β) :
    ((given v).defaulted read? default >>= f) = f x :=
  (congrArg (Option.bind · f) h).trans (Option.bind_some x f)

theorem DataFormat.text?_isSome_of_nullable? {V : Type} {f : DataFormat V} {v : V}
    {p : Option Path} (h : f.nullable? f.path? v = some p) : ∀ q ∈ p, q.text?.isSome := by
  unfold DataFormat.nullable? at h
  split at h
  · cases h
    exact nofun
  · obtain ⟨q, hq, rfl⟩ := Option.map_eq_some_iff.mp h
    rintro _ ⟨⟩
    exact DataFormat.text?_isSome_of_path? hq

/-! ## Commands -/

theorem Overlay.rereads : Json.Rereads (some ∘ toJson) ofJson? fun _ => True where
  written _ := ⟨_, rfl⟩
  grammatical := by
    rintro e j ⟨⟩
    refine Json.isGrammatical_record ["vars"] [.vars e] ?_
    exact List.forall_mem_singleton.mpr (Json.isGrammatical_vars e)
  reread := by
    rintro e j ⟨⟩
    show ofJson? (.record (["vars"].zip [.vars e])) = _
    rw [ofJson?, Json.slots?_record _ _ (by decide) rfl]
    exact Json.format_vars?_vars e
  writable _ := trivial

theorem Program.rereads : Json.Rereads (some ∘ toJson) ofJson? fun _ => True where
  written _ := ⟨_, rfl⟩
  grammatical := by
    rintro p j ⟨⟩
    refine Json.isGrammatical_record ["program", "args"]
      [.text p.executable, .list .text p.arguments] ?_
    simp only [List.forall_mem_cons]
    exact ⟨.string _, Json.isGrammatical_list (fun _ => .string _) _, nofun⟩
  reread := by
    rintro p j ⟨⟩
    show ofJson? (.record (["program", "args"].zip
      [.text p.executable, .list .text p.arguments])) = _
    rw [ofJson?, Json.slots?_record _ _ (by decide) rfl, Option.bind_eq_bind, Option.bind_some]
    simp only [List.map_cons, List.map_nil]
    rw [Slot.bind_required (Json.text?_text _), Slot.bind_defaulted (Json.format_texts?_list _)]
    rfl
  writable _ := trivial

theorem Command.rereads : Json.Rereads (some ∘ toJson) ofJson? fun _ => True where
  written _ := ⟨_, rfl⟩
  grammatical := by
    rintro c j ⟨⟩
    refine Json.isGrammatical_record ["program", "args", "env"]
      [.text c.program, .list .text c.arguments, c.environment.toJson] ?_
    simp only [List.forall_mem_cons]
    exact ⟨.string _, Json.isGrammatical_list (fun _ => .string _) _,
      Overlay.rereads.grammatical rfl, nofun⟩
  reread := by
    rintro c j ⟨⟩
    show ofJson? (.record (["program", "args", "env"].zip
      [.text c.program, .list .text c.arguments, c.environment.toJson])) = _
    rw [ofJson?, Json.slots?_record _ _ (by decide) rfl, Option.bind_eq_bind, Option.bind_some]
    simp only [List.map_cons, List.map_nil]
    rw [Slot.bind_required (Json.text?_text _), Slot.bind_required (Json.format_texts?_list _),
      Slot.bind_required (Overlay.rereads.reread rfl)]
    rfl
  writable _ := trivial

/-! ## Sections of the settings -/

namespace EngineSettings

theorem toJson?_eq_some_iff {s : EngineSettings} {j : Json} :
    s.toJson? = some j ↔ ∃ log, Json.ofPath? s.log = some log ∧
      j = .record (["program", "args", "log_file", "shutdown_timeout"].zip
        [.text s.program, .list .text s.arguments, log, .text s.grace]) := by
  refine Option.bind_eq_some_iff.trans (exists_congr fun log => and_congr_right fun _ => ?_)
  exact ⟨fun h => (Option.some.inj h).symm, fun h => congrArg some h.symm⟩

theorem rereads : Json.Rereads toJson? (read? Json.format) fun s => s.log.text?.isSome where
  written hlog := by
    obtain ⟨log, hlog⟩ := Json.exists_ofPath? hlog
    exact ⟨_, toJson?_eq_some_iff.mpr ⟨log, hlog, rfl⟩⟩
  grammatical h := by
    obtain ⟨log, hlog, rfl⟩ := toJson?_eq_some_iff.mp h
    refine Json.isGrammatical_record _ _ ?_
    simp only [List.forall_mem_cons]
    exact ⟨.string _, Json.isGrammatical_list (fun _ => .string _) _,
      Json.isGrammatical_of_ofPath? hlog, .string _, nofun⟩
  reread h := by
    obtain ⟨log, hlog, rfl⟩ := toJson?_eq_some_iff.mp h
    rw [read?, Json.format_slots?_record _ _ (by decide) rfl, Option.bind_eq_bind,
      Option.bind_some]
    simp only [List.map_cons, List.map_nil]
    rw [Slot.bind_defaulted (Json.format_text?_text _),
      Slot.bind_defaulted (Json.format_texts?_list _),
      Slot.bind_defaulted (Json.format_path?_of_ofPath? hlog),
      Slot.bind_defaulted (Json.format_text?_text _)]
    rfl
  writable h := text?_log_of_read? h

end EngineSettings

namespace ClientSettings

theorem toJson?_eq_some_iff {s : ClientSettings} {j : Json} :
    s.toJson? = some j ↔ ∃ results, Json.ofPath? s.results = some results ∧
      j = .record (["program", "args", "output"].zip
        [.text s.program, .list .text s.arguments, results]) := by
  refine Option.bind_eq_some_iff.trans (exists_congr fun results => and_congr_right fun _ => ?_)
  exact ⟨fun h => (Option.some.inj h).symm, fun h => congrArg some h.symm⟩

theorem text?_results_of_read? {V : Type} {f : DataFormat V} {v : V} {s : ClientSettings}
    (h : read? f v = some s) : s.results.text?.isSome := by
  obtain ⟨slots, -, h⟩ := Option.bind_eq_some_iff.mp h
  split at h
  next =>
    obtain ⟨_, -, h⟩ := Option.bind_eq_some_iff.mp h
    obtain ⟨_, -, h⟩ := Option.bind_eq_some_iff.mp h
    obtain ⟨results, hresults, h⟩ := Option.bind_eq_some_iff.mp h
    cases h
    rcases Slot.defaulted_eq_some hresults with rfl | ⟨w, -, hw⟩
    · exact Option.isSome_iff_exists.mpr ⟨_, Path.text?_ofString _⟩
    · exact DataFormat.text?_isSome_of_path? hw
  next => cases h

theorem rereads : Json.Rereads toJson? (read? Json.format) fun s => s.results.text?.isSome where
  written hresults := by
    obtain ⟨results, hresults⟩ := Json.exists_ofPath? hresults
    exact ⟨_, toJson?_eq_some_iff.mpr ⟨results, hresults, rfl⟩⟩
  grammatical h := by
    obtain ⟨results, hresults, rfl⟩ := toJson?_eq_some_iff.mp h
    refine Json.isGrammatical_record _ _ ?_
    simp only [List.forall_mem_cons]
    exact ⟨.string _, Json.isGrammatical_list (fun _ => .string _) _,
      Json.isGrammatical_of_ofPath? hresults, nofun⟩
  reread h := by
    obtain ⟨results, hresults, rfl⟩ := toJson?_eq_some_iff.mp h
    rw [read?, Json.format_slots?_record _ _ (by decide) rfl, Option.bind_eq_bind,
      Option.bind_some]
    simp only [List.map_cons, List.map_nil]
    rw [Slot.bind_defaulted (Json.format_text?_text _),
      Slot.bind_defaulted (Json.format_texts?_list _),
      Slot.bind_defaulted (Json.format_path?_of_ofPath? hresults)]
    rfl
  writable h := text?_results_of_read? h

end ClientSettings

namespace RuntimeSettings

theorem toJson?_eq_some_iff {s : RuntimeSettings} {j : Json} :
    s.toJson? = some j ↔ ∃ root, Json.ofPathOption? s.root = some root ∧
      j = .record (["prefix", "vars"].zip [root, .vars s.vars]) := by
  refine Option.bind_eq_some_iff.trans (exists_congr fun root => and_congr_right fun _ => ?_)
  exact ⟨fun h => (Option.some.inj h).symm, fun h => congrArg some h.symm⟩

theorem text?_root_of_read? {V : Type} {f : DataFormat V} {v : V} {s : RuntimeSettings}
    (h : read? f v = some s) : ∀ root ∈ s.root, root.text?.isSome := by
  obtain ⟨slots, -, h⟩ := Option.bind_eq_some_iff.mp h
  split at h
  next =>
    obtain ⟨root, hroot, h⟩ := Option.bind_eq_some_iff.mp h
    obtain ⟨_, -, h⟩ := Option.bind_eq_some_iff.mp h
    cases h
    rcases Slot.defaulted_eq_some hroot with rfl | ⟨w, -, hw⟩
    · exact nofun
    · exact DataFormat.text?_isSome_of_nullable? hw
  next => cases h

theorem rereads :
    Json.Rereads toJson? (read? Json.format) fun s => ∀ root ∈ s.root, root.text?.isSome where
  written hroot := by
    obtain ⟨root, hroot⟩ := Json.exists_ofPathOption? hroot
    exact ⟨_, toJson?_eq_some_iff.mpr ⟨root, hroot, rfl⟩⟩
  grammatical h := by
    obtain ⟨root, hroot, rfl⟩ := toJson?_eq_some_iff.mp h
    refine Json.isGrammatical_record _ _ ?_
    simp only [List.forall_mem_cons]
    exact ⟨Json.isGrammatical_of_ofPathOption? hroot, Json.isGrammatical_vars _, nofun⟩
  reread h := by
    obtain ⟨root, hroot, rfl⟩ := toJson?_eq_some_iff.mp h
    rw [read?, Json.format_slots?_record _ _ (by decide) rfl, Option.bind_eq_bind,
      Option.bind_some]
    simp only [List.map_cons, List.map_nil]
    rw [Slot.bind_defaulted (Json.nullable?_of_ofPathOption? hroot),
      Slot.bind_defaulted (Json.format_vars?_vars _)]
    rfl
  writable h := text?_root_of_read? h

end RuntimeSettings

/-! ## Settings -/

namespace Settings

/-- All paths of the settings are UTF-8. -/
structure HasTextPaths (s : Settings) : Prop where
  log : s.engine.log.text?.isSome
  results : s.client.results.text?.isSome
  root : ∀ root ∈ s.runtime.root, root.text?.isSome
  report : ∀ report ∈ s.report, report.text?.isSome

theorem readSingle?_record {α : Type} {name : String} {read? : Json → Option α} {default x : α}
    {j : Json} (h : read? j = some x) :
    readSingle? Json.format name read? default (.record [(name, j)]) = some x := by
  show readSingle? Json.format name read? default (.record ([name].zip [j])) = _
  rw [readSingle?, Json.format_slots?_record _ _ (List.nodup_singleton name) rfl]
  exact h

theorem toJson?_eq_some_iff {s : Settings} {j : Json} :
    s.toJson? = some j ↔ ∃ engine client runtime report, s.engine.toJson? = some engine ∧
      s.client.toJson? = some client ∧ s.runtime.toJson? = some runtime ∧
      Json.ofPathOption? s.report = some report ∧
        j = .record (["server", "client", "environment", "metadata", "report"].zip
          [engine, client, runtime, .record [("enabled", .bool s.metadata)],
            .record [("path", report)]]) := by
  constructor
  · intro h
    obtain ⟨engine, hengine, h⟩ := Option.bind_eq_some_iff.mp h
    obtain ⟨client, hclient, h⟩ := Option.bind_eq_some_iff.mp h
    obtain ⟨runtime, hruntime, h⟩ := Option.bind_eq_some_iff.mp h
    obtain ⟨report, hreport, h⟩ := Option.bind_eq_some_iff.mp h
    exact ⟨engine, client, runtime, report, hengine, hclient, hruntime, hreport,
      (Option.some.inj h).symm⟩
  · rintro ⟨engine, client, runtime, report, hengine, hclient, hruntime, hreport, rfl⟩
    rw [toJson?, hengine, hclient, hruntime, hreport]
    rfl

theorem text?_report_of_readSingle? {V : Type} {f : DataFormat V} {name : String} {v : V}
    {p : Option Path} (h : readSingle? f name (f.nullable? f.path?) none v = some p) :
    ∀ q ∈ p, q.text?.isSome := by
  obtain ⟨slots, -, h⟩ := Option.bind_eq_some_iff.mp h
  split at h
  next =>
    rcases Slot.defaulted_eq_some h with rfl | ⟨w, -, hw⟩
    · exact nofun
    · exact DataFormat.text?_isSome_of_nullable? hw
  next => cases h

/-- Paths that are read are UTF-8, and those of the standard settings are too. -/
theorem hasTextPaths_of_read? {V : Type} {f : DataFormat V} {v : V} {s : Settings}
    (h : read? f v = some s) : s.HasTextPaths := by
  obtain ⟨slots, -, h'⟩ := Option.bind_eq_some_iff.mp h
  split at h'
  next =>
    obtain ⟨_, -, h'⟩ := Option.bind_eq_some_iff.mp h'
    obtain ⟨client, hclient, h'⟩ := Option.bind_eq_some_iff.mp h'
    obtain ⟨runtime, hruntime, h'⟩ := Option.bind_eq_some_iff.mp h'
    obtain ⟨_, -, h'⟩ := Option.bind_eq_some_iff.mp h'
    obtain ⟨report, hreport, h'⟩ := Option.bind_eq_some_iff.mp h'
    cases h'
    refine ⟨text?_log_of_read? h, ?_, ?_, ?_⟩
    · rcases Slot.defaulted_eq_some hclient with rfl | ⟨w, -, hw⟩
      · exact Option.isSome_iff_exists.mpr ⟨_, Path.text?_ofString _⟩
      · exact ClientSettings.text?_results_of_read? hw
    · rcases Slot.defaulted_eq_some hruntime with rfl | ⟨w, -, hw⟩
      · exact nofun
      · exact RuntimeSettings.text?_root_of_read? hw
    · rcases Slot.defaulted_eq_some hreport with rfl | ⟨w, -, hw⟩
      · exact nofun
      · exact text?_report_of_readSingle? hw
  next => cases h'

theorem rereads : Json.Rereads toJson? ofJson? HasTextPaths where
  written hpaths := by
    obtain ⟨engine, hengine⟩ := EngineSettings.rereads.written hpaths.log
    obtain ⟨client, hclient⟩ := ClientSettings.rereads.written hpaths.results
    obtain ⟨runtime, hruntime⟩ := RuntimeSettings.rereads.written hpaths.root
    obtain ⟨report, hreport⟩ := Json.exists_ofPathOption? hpaths.report
    exact ⟨_, toJson?_eq_some_iff.mpr
      ⟨engine, client, runtime, report, hengine, hclient, hruntime, hreport, rfl⟩⟩
  grammatical h := by
    obtain ⟨engine, client, runtime, report, hengine, hclient, hruntime, hreport, rfl⟩ :=
      toJson?_eq_some_iff.mp h
    refine Json.isGrammatical_record _ _ ?_
    simp only [List.forall_mem_cons]
    exact ⟨EngineSettings.rereads.grammatical hengine, ClientSettings.rereads.grammatical hclient,
      RuntimeSettings.rereads.grammatical hruntime,
      Json.isGrammatical_record ["enabled"] [_] (List.forall_mem_singleton.mpr (.bool _)),
      Json.isGrammatical_record ["path"] [_]
        (List.forall_mem_singleton.mpr (Json.isGrammatical_of_ofPathOption? hreport)), nofun⟩
  reread h := by
    obtain ⟨engine, client, runtime, report, hengine, hclient, hruntime, hreport, rfl⟩ :=
      toJson?_eq_some_iff.mp h
    have hmetadata (b : Bool) : Json.format.bool? (.bool b) = some b := rfl
    rw [ofJson?, read?, Json.format_slots?_record _ _ (by decide) rfl, Option.bind_eq_bind,
      Option.bind_some]
    simp only [List.map_cons, List.map_nil]
    rw [Slot.bind_defaulted (EngineSettings.rereads.reread hengine),
      Slot.bind_defaulted (ClientSettings.rereads.reread hclient),
      Slot.bind_defaulted (RuntimeSettings.rereads.reread hruntime),
      Slot.bind_defaulted (readSingle?_record (hmetadata _)),
      Slot.bind_defaulted (readSingle?_record (Json.nullable?_of_ofPathOption? hreport))]
    rfl
  writable h := hasTextPaths_of_read? h

end Settings

namespace Json

/-- Settings whose paths are UTF-8, and all commands, overlays and programs, are read back from
their texts as they are. Of all texts that are read as one of them, however they spell it, one is
written for it, which is read and written as itself. -/
theorem settings_commands_survive :
    Survives (textOf? Settings.toJson?) (ofText? Settings.ofJson?) Settings.HasTextPaths ∧
    Survives (textOf? (some ∘ Command.toJson)) (ofText? Command.ofJson?) (fun _ => True) ∧
    Survives (textOf? (some ∘ Overlay.toJson)) (ofText? Overlay.ofJson?) (fun _ => True) ∧
    Survives (textOf? (some ∘ Program.toJson)) (ofText? Program.ofJson?) (fun _ => True) :=
  ⟨Settings.rereads.survives, Command.rereads.survives, Overlay.rereads.survives,
    Program.rereads.survives⟩

/-- An array stands for a program, an unknown member is passed over, and escapes are undone. -/
example :
    let texts := ["[\"sh\", [\"-c\"]]",
      "\x7b\"args\": [\"\\u002dc\"], \"n\": 1, \"program\": \"sh\"\x7d"]
    texts.map (ofText? Program.ofJson?) = List.replicate 2 (some ⟨"sh", ["-c"]⟩) ∧
      textOf? (some ∘ Program.toJson) ⟨"sh", ["-c"]⟩ =
        some "\x7b\"program\":\"sh\",\"args\":[\"-c\"]\x7d" := by decide +kernel

end Json

end EngineBench
