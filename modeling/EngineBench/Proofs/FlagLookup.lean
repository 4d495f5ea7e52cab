import EngineBench.Proofs.CommandOptions
import Mathlib.Data.List.Nodup

/-!
# Looking up flags

`Command.flagValue?` and `Command.hasFlag` look a flag up in the arguments of a command. They do not
know which arguments are flags and which are values, so a value can be taken for a flag.

* `Command.valueAfter?_written`: the value of a name is found unless a value in front of it is
  spelled like its flag.
* `Command.flagName?_repr` and `Command.flagName?_plain`: numbers are not spelled like flags, so only
  the model, the dataset and the file for the results can be.
* `Command.flags_found` puts them together, for both commands.
* `Command.flags_mistaken` are three configurations where a value is mistaken for a flag.
-/

namespace EngineBench.Command

open Decimal

/-! ## Flags and values in turn -/

@[simp] theorem flag_inj {name name' : String} : flag name = flag name' ↔ name = name' := by
  constructor
  · intro h
    have hnames := congrArg flagName? h
    rw [flagName?_flag, flagName?_flag] at hnames
    exact Option.some.inj hnames
  · intro h
    rw [h]

theorem ne_flag_of_flagName? {value : String} (h : flagName? value = none) (name : String) :
    value ≠ flag name := by
  intro heq
  rw [heq, flagName?_flag] at h
  cases h

theorem mem_option_iff {argument name value : String} :
    argument ∈ option name value ↔ argument = flag name ∨ argument = value := by
  rw [option, List.mem_cons, List.mem_singleton]

/-- What stands in front is passed over if it does not have the argument. -/
theorem valueAfter?_append {argument : String} {front : List String} (h : argument ∉ front)
    (rest : List String) : valueAfter? argument (front ++ rest) = valueAfter? argument rest := by
  induction front with
  | nil => rfl
  | cons a front ih =>
    rw [List.mem_cons, not_or] at h
    rw [List.cons_append, valueAfter?, if_neg (Ne.symm h.1)]
    exact ih h.2

/-- A value is found if no name in front of it is the same and no value is spelled like the flag. -/
theorem valueAfter?_written {s : Said} {name value : String}
    (front : List (String × String)) {back : List (String × String)}
    (hs : s.values = front ++ (name, value) :: back)
    (hnames : ∀ v ∈ front, v.1 ≠ name) (hvalues : ∀ v ∈ front, v.2 ≠ flag name) :
    valueAfter? (flag name) s.written = some value := by
  have hfront : flag name ∉ front.flatMap fun v => option v.1 v.2 := by
    intro hmem
    obtain ⟨v, hv, hmem⟩ := List.mem_flatMap.mp hmem
    rcases mem_option_iff.mp hmem with h | h
    · exact hnames v hv (flag_inj.mp h.symm)
    · exact hvalues v hv h.symm
  rw [Said.written, hs, List.flatMap_append, List.flatMap_cons, List.append_assoc,
    valueAfter?_append hfront]
  exact if_pos rfl

/-- If the names are distinct, only a value that is spelled like the flag can hide it. -/
theorem valueAfter?_of_mem {s : Said} {v : String × String} (hv : v ∈ s.values)
    (hnodup : (s.values.map Prod.fst).Nodup) (hvalues : ∀ u ∈ s.values, u.2 ≠ flag v.1) :
    valueAfter? (flag v.1) s.written = some v.2 := by
  obtain ⟨front, back, hsplit⟩ := List.append_of_mem hv
  rw [hsplit, List.map_append, List.map_cons] at hnodup
  have hdistinct := (List.nodup_append.mp hnodup).2.2
  refine valueAfter?_written front hsplit (fun u hu => ?_) (fun u hu => ?_)
  · exact hdistinct _ (List.mem_map_of_mem hu) _ List.mem_cons_self
  · exact hvalues u (hsplit ▸ List.mem_append_left _ hu)

/-- A flag stands among the arguments as a name, as the switch, or as a value. -/
theorem mem_written_iff {s : Said} {name : String} :
    flag name ∈ s.written ↔ name ∈ s.names ∨ ∃ v ∈ s.values, v.2 = flag name := by
  rw [Said.written, Said.names, List.mem_append, List.mem_append]
  constructor
  · rintro (h | h)
    · obtain ⟨v, hv, hmem⟩ := List.mem_flatMap.mp h
      rcases mem_option_iff.mp hmem with h | h
      · exact .inl (.inl (List.mem_map.mpr ⟨v, hv, (flag_inj.mp h).symm⟩))
      · exact .inr ⟨v, hv, h.symm⟩
    · obtain ⟨switch, hswitch, h⟩ := List.mem_map.mp h
      exact .inl (.inr (flag_inj.mp h ▸ hswitch))
  · rintro ((h | h) | ⟨v, hv, h⟩)
    · obtain ⟨v, hv, rfl⟩ := List.mem_map.mp h
      exact .inl (List.mem_flatMap.mpr ⟨v, hv, List.mem_cons_self⟩)
    · exact .inr (List.mem_map.mpr ⟨name, h, rfl⟩)
    · exact .inl (List.mem_flatMap.mpr ⟨v, hv, mem_option_iff.mpr (.inr h.symm)⟩)

/-! ## Values that are not spelled like a flag -/

/-- At most one sign stands in front of a number, and a flag begins with two. -/
theorem flagName?_of_sign {s : String} {negative : Bool} {sign body : List Char}
    (hs : s.toList = sign ++ body) (hsign : Sign negative sign) (hbody : ¬ IsSigned body) :
    flagName? s = none := by
  unfold flagName?
  split
  next name heq =>
    rw [hs] at heq
    cases hsign with
    | none =>
      have hbody' : body = '-' :: '-' :: name := heq
      exact absurd (.inr (congrArg List.head? hbody')) hbody
    | plus => exact absurd (List.cons.inj heq).1 (by decide)
    | minus =>
      have hbody' : body = '-' :: name := (List.cons.inj heq).2
      exact absurd (.inr (congrArg List.head? hbody')) hbody
  · rfl

theorem flagName?_repr (n : Nat) : flagName? n.repr = none := by
  have hdigits : n.repr.toList = [] ++ digitsOf n := String.toList_ofList
  exact flagName?_of_sign hdigits .none (not_isSigned_of_isDigit (digitsOf_isDigit n))

theorem flagName?_plain (x : Binary64) : flagName? x.plain = none := by
  have h := x.literal_plain
  generalize hs : x.plain.toList = cs at h
  cases h with
  | infinite hsign hword =>
    exact flagName?_of_sign hs hsign (hword.elim (not_isSigned_of_toLower · (by decide))
      (not_isSigned_of_toLower · (by decide)))
  | nan hsign hword =>
    exact flagName?_of_sign hs hsign (not_isSigned_of_toLower hword (by decide))
  | number hsign hnumeral => exact flagName?_of_sign hs hsign hnumeral.not_isSigned

/-- But for the model, which also names the tokenizer, no value for the engine is like a flag. -/
theorem flagName?_of_mem_engineSaid {c : Configuration} {v : String × String}
    (hv : v ∈ (engineSaid c).values) :
    v = ("model", c.model) ∨ v = ("tokenizer", c.model) ∨ flagName? v.2 = none := by
  have hhost : flagName? loopbackHost = none := by decide
  have hpolicy : flagName? BatchPolicy.fcfs.name = none := by decide
  revert v
  simp [engineSaid, layoutValues, limitValues, StageLimits.context, StageLimits.decoding,
    flagName?_repr, flagName?_plain, hhost, hpolicy]

/-! ## What is found in the commands -/

/-- The arguments of a program do not matter for a flag that is not among them. -/
theorem flagValue?_eq {k : Command} {p : Program} {s : Said} {name : String}
    (hk : k.arguments = p.arguments ++ s.written) (hp : flag name ∉ p.arguments) :
    k.flagValue? name = valueAfter? (flag name) s.written := by
  rw [flagValue?, hk, valueAfter?_append hp]

theorem nodup_engineSaid (c : Configuration) : ((engineSaid c).values.map Prod.fst).Nodup :=
  (List.nodup_append.mp (nodup_names_engineSaid c)).1

/-- The model hides no name that stands in front of it, nor the tokenizer, which it names. -/
theorem valueAfter?_engine_of_model {c : Configuration} {v : String × String}
    (hv : v ∈ (engineSaid c).values) (hlike : c.model = flag v.1)
    (hname : v.1 ∈ ["host", "port", "model", "tokenizer"]) :
    valueAfter? (flag v.1) (engineSaid c).written = some v.2 := by
  have hunique {u : String × String} (hu : u ∈ (engineSaid c).values) (h : v.1 = u.1) : v = u :=
    List.inj_on_of_nodup_map (nodup_engineSaid c) hv hu h
  have hhost : ∀ name, loopbackHost ≠ flag name := ne_flag_of_flagName? (by decide)
  have hport := ne_flag_of_flagName? (flagName?_repr c.port.toNat)
  simp only [List.mem_cons, List.not_mem_nil, or_false] at hname
  rcases hname with h | h | h | h
  · obtain rfl := hunique (u := ("host", loopbackHost)) (by simp [engineSaid]) h
    exact valueAfter?_written [] rfl (by simp) (by simp)
  · obtain rfl := hunique (u := ("port", toString c.port.toNat)) (by simp [engineSaid]) h
    exact valueAfter?_written ((engineSaid c).values.take 1) rfl (by simp [engineSaid])
      (by simp [engineSaid, hhost])
  · obtain rfl := hunique (u := ("model", c.model)) (by simp [engineSaid]) h
    exact valueAfter?_written ((engineSaid c).values.take 2) rfl (by simp [engineSaid])
      (by simp [engineSaid, hhost, hport])
  · obtain rfl := hunique (u := ("tokenizer", c.model)) (by simp [engineSaid]) h
    -- The model is taken for the flag, and the flag for the value, which it is.
    obtain ⟨rest, hrest⟩ : ∃ rest, (engineSaid c).written =
        [flag "host", loopbackHost, flag "port", toString c.port.toNat, flag "model"] ++
          c.model :: flag "tokenizer" :: rest := ⟨_, rfl⟩
    have hfront : flag "tokenizer" ∉
        [flag "host", loopbackHost, flag "port", toString c.port.toNat, flag "model"] := by
      have hhost' := (hhost "tokenizer").symm
      have hport' := (hport "tokenizer").symm
      simp [hhost', hport']
    rw [hrest, valueAfter?_append hfront, valueAfter?, if_pos hlike, hlike]
    rfl

/-- The value of a name is found in the command of the engine, unless the model is spelled like its
flag and stands in front of it. -/
theorem flagValue?_engine {c : Configuration} {p : Program} (environment : Overlay)
    {v : String × String} (hv : v ∈ (engineSaid c).values) (hp : flag v.1 ∉ p.arguments)
    (hmodel : c.model = flag v.1 → v.1 ∈ ["host", "port", "model", "tokenizer"]) :
    (engine c p environment).flagValue? v.1 = some v.2 := by
  have hk : (engine c p environment).arguments = p.arguments ++ (engineSaid c).written := by
    rw [← engineOptions_eq]
    rfl
  rw [flagValue?_eq hk hp]
  by_cases hlike : c.model = flag v.1
  · exact valueAfter?_engine_of_model hv hlike (hmodel hlike)
  · refine valueAfter?_of_mem hv (nodup_engineSaid c) fun u hu => ?_
    rcases flagName?_of_mem_engineSaid hu with rfl | rfl | hnone
    · exact hlike
    · exact hlike
    · exact ne_flag_of_flagName? hnone v.1

/-- The engine may leave the weights unloaded if it is told so. The model alone can be mistaken for
that. -/
theorem hasFlag_engine_iff (c : Configuration) {p : Program} (environment : Overlay)
    (hp : flag "use-dummy-weights" ∉ p.arguments) :
    (engine c p environment).hasFlag "use-dummy-weights" = true ↔
      c.dummyWeights = true ∨ c.model = flag "use-dummy-weights" := by
  have hswitch : "use-dummy-weights" ∈ (engineSaid c).names ↔ c.dummyWeights = true := by
    rw [Said.names, engineSaid]
    cases c.dummyWeights <;> simp [layoutValues, limitValues]
  have hvalue : (∃ v ∈ (engineSaid c).values, v.2 = flag "use-dummy-weights") ↔
      c.model = flag "use-dummy-weights" := by
    constructor
    · rintro ⟨v, hv, h⟩
      rcases flagName?_of_mem_engineSaid hv with rfl | rfl | hnone
      · exact h
      · exact h
      · exact absurd h (ne_flag_of_flagName? hnone _)
    · intro h
      exact ⟨("model", c.model), by simp [engineSaid], h⟩
  rw [hasFlag, List.contains_iff_mem, engine, List.mem_append, or_iff_right hp, engineOptions_eq,
    mem_written_iff, hswitch, hvalue]

/-- The value of a name is found in the command of the client, unless a path is spelled like its
flag and stands in front of it. -/
theorem flagValue?_client {c : Configuration} {p : Program} {results : Path}
    (environment : Overlay) {v : String × String} (hv : v ∈ (clientSaid c results).values)
    (hp : flag v.1 ∉ p.arguments) (hdataset : c.dataset.text = flag v.1 → v.1 = "dataset")
    (hresults : results.text = flag v.1 → v.1 ∈ ["dataset", "host", "port", "output"]) :
    (client c p results environment).flagValue? v.1 = some v.2 := by
  have hk : (client c p results environment).arguments =
      p.arguments ++ (clientSaid c results).written := rfl
  rw [flagValue?_eq hk hp]
  have hhost : ∀ name, loopbackHost ≠ flag name := ne_flag_of_flagName? (by decide)
  have hport := ne_flag_of_flagName? (flagName?_repr c.port.toNat)
  have hfirst := ne_flag_of_flagName? (flagName?_plain c.firstToken)
  simp only [clientSaid, List.mem_cons, List.not_mem_nil, or_false] at hv
  rcases hv with rfl | rfl | rfl | rfl | rfl | rfl
  · exact valueAfter?_written [] rfl (by simp) (by simp)
  · exact valueAfter?_written ((clientSaid c results).values.take 1) rfl (by simp [clientSaid])
      (by simpa [clientSaid] using hdataset)
  · exact valueAfter?_written ((clientSaid c results).values.take 2) rfl (by simp [clientSaid])
      (by simpa [clientSaid, hhost] using hdataset)
  · exact valueAfter?_written ((clientSaid c results).values.take 3) rfl (by simp [clientSaid])
      (by simpa [clientSaid, hhost, hport] using hdataset)
  · exact valueAfter?_written ((clientSaid c results).values.take 4) rfl (by simp [clientSaid])
      (by simpa [clientSaid, hhost, hport] using And.intro hdataset hresults)
  · exact valueAfter?_written ((clientSaid c results).values.take 5) rfl (by simp [clientSaid])
      (by simpa [clientSaid, hhost, hport, hfirst] using And.intro hdataset hresults)

/-- **The generated options are found.** In both commands the value that follows the flag of a name
is the one that was generated for it, if the program brings no such flag itself and no model,
dataset or file for the results that stands in front of the name is spelled like its flag. The
switch of the engine is there exactly if the configuration sets it or the model is spelled like
it. -/
theorem flags_found (p : Program) (results : Path) (environment : Overlay) :
    (∀ c, ∀ v ∈ (engineSaid c).values, flag v.1 ∉ p.arguments →
      (c.model = flag v.1 → v.1 ∈ ["host", "port", "model", "tokenizer"]) →
        (engine c p environment).flagValue? v.1 = some v.2) ∧
    (∀ c : Configuration, flag "use-dummy-weights" ∉ p.arguments →
      ((engine c p environment).hasFlag "use-dummy-weights" = true ↔
        c.dummyWeights = true ∨ c.model = flag "use-dummy-weights")) ∧
    ∀ c, ∀ v ∈ (clientSaid c results).values, flag v.1 ∉ p.arguments →
      (c.dataset.text = flag v.1 → v.1 = "dataset") →
      (results.text = flag v.1 → v.1 ∈ ["dataset", "host", "port", "output"]) →
        (client c p results environment).flagValue? v.1 = some v.2 :=
  ⟨fun _ _ hv hp hmodel => flagValue?_engine environment hv hp hmodel,
    fun c hp => hasFlag_engine_iff c environment hp,
    fun _ _ hv hp hdataset hresults => flagValue?_client environment hv hp hdataset hresults⟩

/-- A model that begins like a flag, but is none that stands behind it, is found. -/
theorem flags_found_dashes :
    let c : Configuration := Configuration.ofRequired "--port" default (.ofString "--data")
    let p : Program := ⟨"serve", ["run", "--quiet"]⟩
    (engine c p .empty).flagValue? "model" = some "--port" ∧
      (engine c p .empty).flagValue? "port" = some "8000" ∧
      (engine c p .empty).hasFlag "use-dummy-weights" = false ∧
      (client c p (.ofString "--output") .empty).flagValue? "output" = some "--output" := by
  intro c p
  obtain ⟨hengine, hswitch, hclient⟩ := flags_found p (.ofString "--output") .empty
  refine ⟨?_, ?_, ?_, ?_⟩
  · have hv : ("model", "--port") ∈ (engineSaid c).values := by
      simp [engineSaid, c, Configuration.ofRequired]
    exact hengine c _ hv (by decide) (by decide)
  · have hv : ("port", toString c.port.toNat) ∈ (engineSaid c).values := by simp [engineSaid]
    have hfound := hengine c _ hv (by decide) (by decide)
    rwa [show toString c.port.toNat = "8000" by decide] at hfound
  · have hnot := mt (hswitch c (by decide)).mp (by decide)
    rwa [Bool.not_eq_true] at hnot
  · have hv : ("output", (Path.ofString "--output").text) ∈
        (clientSaid c (.ofString "--output")).values := by
      simp [clientSaid]
    have hfound := hclient c _ hv (by decide) (by decide +kernel) (by decide +kernel)
    rwa [show (Path.ofString "--output").text = "--output" by decide +kernel] at hfound

/-- Where a value is mistaken for a flag: a model that is spelled like an option behind it or like
the switch, and a dataset that is spelled like an option. All three configurations are accepted. -/
theorem flags_mistaken :
    let half : Binary64 := toBinary64 false ⟨5, -1⟩
    let p : Program := ⟨"serve", []⟩
    let results : Path := .ofString "r"
    (∃ c, Configuration.build "--block-size" half (.ofString "d") [] = .ok c ∧
      ("block-size", "16") ∈ (engineSaid c).values ∧
        (engine c p .empty).flagValue? "block-size" = some "--tokenizer") ∧
    (∃ c, Configuration.build "--use-dummy-weights" half (.ofString "d") [] = .ok c ∧
      c.dummyWeights = false ∧ (engine c p .empty).hasFlag "use-dummy-weights" = true) ∧
    ∃ c, Configuration.build "m" half (.ofString "--host") [] = .ok c ∧
      ("host", loopbackHost) ∈ (clientSaid c results).values ∧
        (client c p results .empty).flagValue? "host" = some "--host" := by
  intro half p results
  have hbuild {model : String} {dataset : Path}
      (h : (Configuration.ofRequired model half dataset).violation? = none) :
      Configuration.build model half dataset [] = .ok (.ofRequired model half dataset) := by
    rw [Configuration.build, List.foldl_nil, Configuration.check, h]
  refine ⟨⟨_, hbuild (by decide +kernel), ?_, ?_⟩, ⟨_, hbuild (by decide +kernel), rfl, ?_⟩,
    ⟨_, hbuild (by decide +kernel), ?_, ?_⟩⟩
  · have hsize : "16" = toString blockSize := by decide
    simp [engineSaid, hsize]
  · decide +kernel
  · decide +kernel
  · simp [clientSaid]
  · decide +kernel

end EngineBench.Command
