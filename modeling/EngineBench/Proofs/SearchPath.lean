import EngineBench.Machine.Host
import EngineBench.Proofs.LoadedSettings
import EngineBench.Proofs.Overlays
import EngineBench.Proofs.PathArguments
import EngineBench.Proofs.Spawns

/-!
# The search path of engine and client

When a runtime is activated, its `bin` directory is put in front of the search path that this process
has. The search path is a byte string, but an overlay is made of texts: one that is not UTF-8 is lost,
and engine and client get the `bin` directory alone.

* `Path.programs_ofString` says how the `bin` directory is written.
* `Settings.searchPath_of_isText` and `Settings.get?_environment_of_not_isText` are the two cases.
* `Plan.searchPath_iff` is what this means for everything that a run starts.
-/

namespace EngineBench

/-! ## The directory of a runtime -/

namespace Text

theorem encode_append (s t : String) : encode (s ++ t) = encode s ++ encode t := by
  rw [encode, String.toList_append, List.flatMap_append]
  rfl

/-- Only the slash is encoded by bytes that end in a slash. -/
theorem getLast?_encode_char_iff (c : Char) :
    (String.utf8EncodeChar c).getLast? = some Path.slash ↔ c = '/' := by
  constructor
  · intro h
    have hq := Sequence.of_encode c
    generalize String.utf8EncodeChar c = q at h hq
    have hslash (b : UInt8) (hb : 0x80 ≤ b.toNat) : some b ≠ some Path.slash := by
      intro heq
      rw [Option.some.inj heq] at hb
      exact absurd hb (by decide)
    cases hq with
    | @one b _ hv =>
      have hb : b = Path.slash := Option.some.inj h
      rw [hb] at hv
      exact Char.ext (UInt32.toNat_inj.mp hv)
    | two _ _ h₁ _ _ => exact absurd h (hslash _ h₁)
    | three _ _ _ _ _ _ h₂ _ _ => exact absurd h (hslash _ h₂)
    | four _ _ _ _ _ _ _ _ h₃ _ _ => exact absurd h (hslash _ h₃)
  · rintro rfl
    rfl

end Text

namespace Path

theorem hasTrailingSlash_ofString (t : String) :
    (ofString t).hasTrailingSlash = true ↔ t.toList.getLast? = some '/' := by
  rw [hasTrailingSlash, decide_eq_true_eq, ofString, Text.encode]
  rcases List.eq_nil_or_concat t.toList with hnil | ⟨cs, c, hcs⟩
  · simp [hnil]
  · have hne : String.utf8EncodeChar c ≠ [] := by
      intro h
      have hq := Text.Sequence.of_encode c
      rw [h] at hq
      cases hq
    rw [hcs, List.concat_eq_append, List.flatMap_append, List.flatMap_singleton,
      List.getLast?_append_of_ne_nil _ hne, List.getLast?_concat, Option.some.injEq,
      Text.getLast?_encode_char_iff]

/-- Where the programs of a runtime are, as a search path names it. -/
def programs (runtime : Path) : String := (runtime.child (Text.encode "bin")).text

/-- One slash is put between a runtime and `bin`, unless it is there or there is nothing else. -/
theorem programs_ofString (t : String) : (ofString t).programs =
    if t = "" ∨ t.toList.getLast? = some '/' then t ++ "bin" else t ++ "/bin" := by
  have hempty : (ofString t).bytes.isEmpty = true ↔ t = "" :=
    List.isEmpty_iff.trans Text.encode_eq_nil_iff
  rw [programs, child]
  by_cases h : t = "" ∨ t.toList.getLast? = some '/'
  · have hb : ((ofString t).bytes.isEmpty || (ofString t).hasTrailingSlash) = true := by
      rw [Bool.or_eq_true, hempty, hasTrailingSlash_ofString]
      exact h
    rw [if_pos hb, if_pos h]
    exact (congrArg Text.lossy (Text.encode_append t "bin").symm).trans (Text.lossy_encode _)
  · have hb : ¬ ((ofString t).bytes.isEmpty || (ofString t).hasTrailingSlash) = true := by
      rw [Bool.or_eq_true, hempty, hasTrailingSlash_ofString]
      exact h
    rw [if_neg hb, if_neg h]
    exact (congrArg Text.lossy (Text.encode_append t "/bin").symm).trans (Text.lossy_encode _)

end Path

/-! ## The search path of a process -/

namespace Overlay

/-- The search path of a process under an overlay, where this is what it would inherit. -/
def searchPath (e : Overlay) (inherited : Option Bytes) : Option Bytes :=
  match e.get? "PATH" with
  | some path => some (Text.encode path)
  | none => inherited

/-- A search path with a directory in front. One that is empty counts as none. -/
def prepended (directory : String) : Option Bytes → Bytes
  | none => Text.encode directory
  | some [] => Text.encode directory
  | some (b :: bs) => Text.encode (directory ++ ":") ++ b :: bs

theorem get?_activate_none (runtime : Path) :
    (activate runtime none).get? "PATH" = some runtime.programs := by
  simp [activate, ofList, Path.programs]

theorem get?_activate_some (runtime : Path) (path : String) :
    (activate runtime (some path)).get? "PATH" =
      some (if path = "" then runtime.programs else runtime.programs ++ ":" ++ path) := by
  simp [activate, ofList, Path.programs]

/-- An activation puts its directory in front of every search path that is a text. -/
theorem searchPath_activate (runtime : Path) (path : String) (inherited : Option Bytes) :
    (activate runtime (some path)).searchPath inherited =
      some (prepended runtime.programs (some (Text.encode path))) := by
  rw [searchPath, get?_activate_some]
  by_cases hpath : path = ""
  · rw [if_pos hpath, hpath]
    rfl
  · rw [if_neg hpath]
    cases hbytes : Text.encode path with
    | nil => exact absurd (Text.encode_eq_nil_iff.mp hbytes) hpath
    | cons b bs =>
      show some (Text.encode (runtime.programs ++ ":" ++ path)) = _
      rw [Text.encode_append, hbytes]
      rfl

end Overlay

namespace Machine

theorem lookup_map_encode {α : Type} (f : α → Bytes) (k : String) (vs : List (String × α)) :
    (vs.map fun v => (Text.encode v.1, f v.2)).lookup (Text.encode k) = (vs.lookup k).map f := by
  induction vs with
  | nil => rfl
  | cons v vs ih =>
    rw [List.map_cons, Overlay.lookup_cons, List.lookup_cons, ih]
    by_cases hk : k = v.1
    · simp [hk]
    · have hencode : Text.encode k ≠ Text.encode v.1 := mt Text.encode_inj.mp hk
      rw [if_neg hk, beq_eq_false_iff_ne.mpr hencode]

theorem lookup_filter {α : Type} (q : String → Bool) (k : String) (vs : List (String × α)) :
    (vs.filter fun v => q v.1).lookup k = if q k then vs.lookup k else none := by
  induction vs with
  | nil => simp
  | cons v vs ih =>
    obtain ⟨l, w⟩ := v
    rw [Overlay.lookup_cons, List.filter_cons]
    cases hq : q l with
    | true =>
      rw [if_pos rfl, Overlay.lookup_cons, ih]
      by_cases hk : k = l
      · rw [if_pos hk, if_pos hk, hk, hq]
        rfl
      · rw [if_neg hk, if_neg hk]
    | false =>
      rw [if_neg Bool.false_ne_true, ih]
      by_cases hk : k = l
      · rw [hk, hq]
        rfl
      · rw [if_neg hk]

/-- A process on a machine finds the search path that its overlay says. -/
theorem lookup_environmentOf (c : Command) (m : Machine) :
    (m.environmentOf c).lookup (Text.encode "PATH") =
      c.environment.searchPath (m.getVariable "PATH") := by
  have hinherited := lookup_map_encode id "PATH"
    (m.vars.filter fun v => (c.environment.get? v.1).isNone)
  have hlaid : (c.environment.vars.map fun v => (Text.encode v.1, Text.encode v.2)).lookup
      (Text.encode "PATH") = (c.environment.get? "PATH").map Text.encode :=
    lookup_map_encode Text.encode "PATH" c.environment.vars
  rw [lookup_filter fun k => (c.environment.get? k).isNone, Option.map_id] at hinherited
  rw [environmentOf, List.lookup_append, hlaid, Overlay.searchPath]
  refine (congrArg (Option.or · _) hinherited).trans ?_
  cases c.environment.get? "PATH" with
  | none => exact Option.or_none
  | some path => rfl

end Machine

namespace Settings

variable {σ : Type} {h : Host σ} {settings : Settings} {s : σ} {runtime : Path}

/-- Without a runtime the variables of the settings are all that is laid over the environment. -/
theorem environment_of_no_root (hroot : settings.runtime.root = none) :
    settings.environment h s = settings.runtime.vars := by
  rw [environment, RuntimeSettings.overlay_eq_merge, hroot]
  exact Overlay.empty_merge _

/-- If the variables of the settings do not have a search path, that of the activation is used. -/
theorem get?_environment (hroot : settings.runtime.root = some runtime)
    (hvars : settings.runtime.vars.get? "PATH" = none) :
    (settings.environment h s).get? "PATH" =
      (Overlay.activate runtime ((h.getVariable "PATH" s).bind Text.decode?)).get? "PATH" := by
  rw [environment, RuntimeSettings.overlay_eq_merge, hroot, Overlay.get?_merge, hvars]
  rfl

/-- A search path that is a text stands behind the directory of the runtime. -/
theorem searchPath_of_isText (hroot : settings.runtime.root = some runtime)
    (hvars : settings.runtime.vars.get? "PATH" = none)
    (htext : ∀ bs, h.getVariable "PATH" s = some bs → (Text.decode? bs).isSome) :
    (settings.environment h s).searchPath (h.getVariable "PATH" s) =
      some (Overlay.prepended runtime.programs (h.getVariable "PATH" s)) := by
  have hget := get?_environment (h := h) (s := s) hroot hvars
  cases hpath : h.getVariable "PATH" s with
  | none =>
    rw [hpath, Option.bind_none, Overlay.get?_activate_none] at hget
    rw [Overlay.searchPath, hget]
    rfl
  | some bs =>
    obtain ⟨path, hdecode⟩ := Option.isSome_iff_exists.mp (htext bs hpath)
    rw [hpath, Option.bind_some, hdecode] at hget
    rw [Overlay.searchPath, hget, ← Overlay.searchPath, Overlay.searchPath_activate,
      Text.decode?_eq_some_iff.mp hdecode]

/-- A search path that is not a text is lost. -/
theorem get?_environment_of_not_isText (hroot : settings.runtime.root = some runtime)
    (hvars : settings.runtime.vars.get? "PATH" = none) {bs : Bytes}
    (hpath : h.getVariable "PATH" s = some bs) (hbs : Text.decode? bs = none) :
    (settings.environment h s).get? "PATH" = some runtime.programs := by
  rw [get?_environment hroot hvars, hpath, Option.bind_some, hbs, Overlay.get?_activate_none]

/-- The directory of the runtime alone is not the directory with a search path behind it. -/
theorem searchPath_eq_iff (hroot : settings.runtime.root = some runtime)
    (hvars : settings.runtime.vars.get? "PATH" = none) :
    (settings.environment h s).searchPath (h.getVariable "PATH" s) =
        some (Overlay.prepended runtime.programs (h.getVariable "PATH" s)) ↔
      ∀ bs, h.getVariable "PATH" s = some bs → (Text.decode? bs).isSome := by
  refine ⟨fun heq bs hpath => ?_, searchPath_of_isText hroot hvars⟩
  refine Option.isSome_iff_ne_none.mpr fun hbs => ?_
  rw [Overlay.searchPath, get?_environment_of_not_isText hroot hvars hpath hbs, hpath] at heq
  have hlength := congrArg List.length (Option.some.inj heq)
  cases bs with
  | nil =>
    rw [Text.decode?_eq_some_iff.mpr (Text.encode_eq_nil_iff.mpr rfl).symm] at hbs
    cases hbs
  | cons b bs =>
    rw [Overlay.prepended, Text.encode_append, List.length_append, List.length_append,
      List.length_cons] at hlength
    omega

end Settings

/-! ## What a run starts -/

namespace Plan

variable {σ : Type}

/-- Everything that a run starts has the overlay of its plan. -/
theorem environment_of_mem_spawns {h : Host σ} {p : Plan} {c : Configuration}
    {probe : σ → ProbeResult × σ} {s : σ} {x : Command × Sink}
    (hx : x ∈ (p.journal h c probe s).spawns) : x.1.environment = p.environment := by
  have hprefix := spawns_prefix h p c probe s
  have hmem := hprefix.subset hx
  rw [programs, List.mem_cons, List.mem_singleton] at hmem
  rcases hmem with rfl | rfl
  · rfl
  · rfl

/-- **The inherited search path is kept exactly if it is a text.** Everything that a run starts has
one overlay. With a runtime, and without a search path among the variables of the settings, its search
path is the `bin` directory of the runtime with the inherited search path behind it, exactly if that
is UTF-8 or there is none; otherwise it is the `bin` directory alone. Without a runtime the variables
of the settings are the overlay. -/
theorem searchPath_iff {h : Host σ} {settings : Settings} {token : Token} {s : σ} {p : Plan}
    (hp : ofSettings settings (settings.environment h s) token = .ok p) :
    let inherited := h.getVariable "PATH" s
    (∀ c probe s', ∀ x ∈ (p.journal h c probe s').spawns, x.1.environment = p.environment) ∧
    (∀ runtime, settings.runtime.root = some runtime →
      settings.runtime.vars.get? "PATH" = none →
        (p.environment.searchPath inherited =
            some (Overlay.prepended runtime.programs inherited) ↔
          ∀ bs, inherited = some bs → (Text.decode? bs).isSome) ∧
        ∀ bs, inherited = some bs → Text.decode? bs = none →
          p.environment.get? "PATH" = some runtime.programs) ∧
    (settings.runtime.root = none → p.environment = settings.runtime.vars ∧
      (settings.runtime.vars.get? "PATH" = none →
        p.environment.searchPath inherited = inherited)) ∧
    ∀ t, (Path.ofString t).programs =
      if t = "" ∨ t.toList.getLast? = some '/' then t ++ "bin" else t ++ "/bin" := by
  intro inherited
  obtain ⟨_, -, rfl⟩ := ofSettings_eq_ok_iff.mp hp
  refine ⟨fun c probe s' x hx => environment_of_mem_spawns hx, fun runtime hroot hvars => ?_,
    fun hroot => ?_, Path.programs_ofString⟩
  · exact ⟨Settings.searchPath_eq_iff hroot hvars,
      fun bs => Settings.get?_environment_of_not_isText hroot hvars⟩
  · have henvironment := Settings.environment_of_no_root (h := h) (s := s) hroot
    refine ⟨henvironment, fun hvars => ?_⟩
    show (settings.environment h s).searchPath inherited = inherited
    rw [henvironment, Overlay.searchPath, hvars]

/-- A search path that is not UTF-8 is lost. -/
theorem searchPath_iff_lost :
    let path : Bytes := [0x2F, 0xFF]
    let h : Host Stage := { Stage.host with getVariable := fun _ _ => some path }
    let settings : Settings :=
      { Settings.standard with runtime := ⟨some (.ofString "/env"), .empty⟩ }
    let s : Stage := ⟨0, .none, false⟩
    ∃ p, ofSettings settings (settings.environment h s) ⟨0, true⟩ = .ok p ∧
      p.environment.get? "PATH" = some "/env/bin" ∧
      p.environment.searchPath (some path) ≠ some (Text.encode "/env/bin:" ++ path) := by
  intro path h settings s
  obtain ⟨d, hd⟩ := Settings.usable_standard.grace
  obtain ⟨p, hp⟩ : ∃ p, ofSettings settings (settings.environment h s) ⟨0, true⟩ = .ok p :=
    ⟨_, ofSettings_eq_ok_iff.mpr ⟨d, hd, rfl⟩⟩
  have hnot : Text.decode? path = none := by decide +kernel
  refine ⟨p, hp, ?_⟩
  obtain ⟨-, hactivated, -, hprograms⟩ := searchPath_iff hp
  obtain ⟨hkept, hlost⟩ := hactivated _ rfl rfl
  rw [show (Path.ofString "/env").programs = "/env/bin" from hprograms "/env"] at hkept hlost
  refine ⟨hlost path rfl hnot, fun heq => ?_⟩
  have htext := hkept.mp heq path rfl
  rw [hnot] at htext
  cases htext

end Plan

end EngineBench
