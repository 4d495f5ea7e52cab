import EngineBench.Proofs.OptionRefusals
import EngineBench.Proofs.Resolution

/-!
# The first fatal token decides

A token that is not recognized, and an option that asks for a notice, end a command line: whatever
stands behind them is not looked at. Whether a token is recognized depends on the tokens in front of
it only.

* `Options.Recognized` says which tokens are recognized, without the machine;
  `Options.State.Reflects` is what the state of the machine has to do with it.
* `Invocation.resolve_decided`: a fatal end stays the same whatever is appended, and the tokens that
  are not recognized are exactly the ones behind which nothing matters.
-/

namespace EngineBench

namespace Options

/-! ## Recognized tokens -/

/-- The long names of everything that can be asked for. -/
def flags : List String :=
  ValueOption.all.map ValueOption.flag ++ Switch.all.map Switch.flag ++ Notice.all.map Notice.flag

/-- Tokens that begin with a dash and name something, whether or not it takes a value. -/
inductive Named : Bytes → Prop
  | separator : Named (Text.encode "--")
  | long {flag : String} : flag ∈ flags → Named (Text.encode flag)
  | attached {flag : String} {value : Bytes} : flag ∈ flags →
      Named (Text.encode flag ++ equals :: value)
  | letters {c : Char} {cs : List Char} : (∀ d ∈ c :: cs, d ∈ ['v', 'h', 'V']) →
      Named (dash :: Text.encode (String.ofList (c :: cs)))

/-- A token has a meaning behind the tokens in front of it: there is no separator among them, and
the token names something or is the value of an option that stands just in front of it. -/
def Recognized (before : List Bytes) (token : Bytes) : Prop :=
  Text.encode "--" ∉ before ∧
    (Named token ∨ IsValue token ∧ ∃ o : ValueOption, before.getLast? = some (Text.encode o.flag))

theorem flag_mem_flags (o : ValueOption) : o.flag ∈ flags := by
  rcases o with (_ | _ | _ | _ | _ | _ | _ | _ | _ | _) | _ <;> decide

theorem switch_flag_mem_flags (s : Switch) : s.flag ∈ flags := by
  cases s <;> decide

/-- A token that is part of a group names something. -/
theorem Group.Spelled.named {x : Group} {token : Bytes} (h : x.Spelled [token]) : Named token := by
  cases h with
  | attached => exact .attached (flag_mem_flags _)
  | long => exact .long (switch_flag_mem_flags _)
  | short =>
    have hletters : ∀ d ∈ 'v' :: [], d ∈ ['v', 'h', 'V'] := by simp
    exact .letters hletters

/-! ## What a recognized token says -/

/-- An item that names something. -/
def Item.IsNamed : Item → Prop
  | .word _ | .unknown _ => False
  | _ => True

theorem Item.Stops.not_isNamed {x : Item} {token : String}
    (h : x.Stops (.refused (.unknown token))) : ¬ x.IsNamed := by
  cases h with
  | value hvalue =>
    obtain ⟨r, hr, heq⟩ := hvalue
    cases heq
    cases hr
  | word => exact id
  | unknown => exact id

theorem encode_flag {flag : String} (h : flag ∈ flags) :
    Text.encode flag = dash :: dash :: nameOf flag ∧ nameOf flag ≠ [] ∧
      ∀ b ∈ nameOf flag, b ≠ equals := by
  have hflags : ∀ flag ∈ flags, Text.encode flag = dash :: dash :: nameOf flag ∧
      nameOf flag ≠ [] ∧ equals ∉ nameOf flag := by decide
  obtain ⟨hencode, hne, hequals⟩ := hflags flag h
  refine ⟨hencode, hne, fun b hb => ?_⟩
  rintro rfl
  exact hequals hb

theorem ofName_isNamed {flag : String} (h : flag ∈ flags) (attached : Option Bytes) :
    (ofName (nameOf flag) attached).IsNamed := by
  unfold ofName
  simp only [← (encode_flag h).1]
  split
  · trivial
  next hoption =>
    split
    · trivial
    · trivial
    next hswitch =>
      split
      · trivial
      · trivial
      next hnotice =>
        -- The flag is none of the three.
        rw [List.find?_eq_none] at hoption hswitch hnotice
        rw [flags, List.mem_append, List.mem_append] at h
        rcases h with (h | h) | h
        · obtain ⟨o, ho, rfl⟩ := List.mem_map.mp h
          exact hoption o ho (by simp)
        · obtain ⟨s, hs, rfl⟩ := List.mem_map.mp h
          exact hswitch s hs (by simp)
        · obtain ⟨n, hn, rfl⟩ := List.mem_map.mp h
          exact hnotice n hn (by simp)

theorem ofCluster_encode (s : String) : ofCluster (Text.encode s) = s.toList.map ofShort := by
  rw [ofCluster, Text.decode?_eq_some_iff.mpr rfl]

theorem Named.items {token : Bytes} (h : Named token) : ∀ x ∈ items token, x.IsNamed := by
  cases h with
  | separator =>
    rw [items_separator]
    simp [Item.IsNamed]
  | long hflag =>
    obtain ⟨hencode, hne, hname⟩ := encode_flag hflag
    rw [hencode, items_long hne, ofLong_name hname]
    simpa using ofName_isNamed hflag none
  | @attached flag value hflag =>
    obtain ⟨hencode, hne, hname⟩ := encode_flag hflag
    rw [hencode, List.cons_append, List.cons_append, items_long (by simp), ofLong_attached hname]
    simpa using ofName_isNamed hflag (some value)
  | @letters c cs hletters =>
    have hshort : ∀ d ∈ c :: cs, (ofShort d).IsNamed := by
      intro d hd
      have hd := hletters d hd
      simp only [List.mem_cons, List.not_mem_nil, or_false] at hd
      rcases hd with rfl | rfl | rfl <;> trivial
    obtain ⟨b, r, hencode, hb⟩ : ∃ b r, Text.encode (String.ofList (c :: cs)) = b :: r ∧ b ≠ dash := by
      have hc := hletters c List.mem_cons_self
      simp only [List.mem_cons, List.not_mem_nil, or_false] at hc
      rw [Text.encode, String.toList_ofList, List.flatMap_cons]
      rcases hc with rfl | rfl | rfl
      · exact ⟨_, _, rfl, by decide⟩
      · exact ⟨_, _, rfl, by decide⟩
      · exact ⟨_, _, rfl, by decide⟩
    rw [hencode, items_cluster hb, ← hencode, ofCluster_encode, String.toList_ofList]
    intro x hx
    obtain ⟨d, hd, rfl⟩ := List.mem_map.mp hx
    exact hshort d hd

/-! ## The state of the machine -/

/-- What the state of the machine tells about the tokens that it has read. -/
structure State.Reflects (s : State) (before : List Bytes) : Prop where
  trailing : s.trailing = true ↔ Text.encode "--" ∈ before
  pending : s.trailing = false → ∀ o, s.pending = some ⟨o, none⟩ ↔
    before.getLast? = some (Text.encode o.flag)

namespace State.Reflects

variable {s s' : State} {before : List Bytes} {token : Bytes}

theorem start : State.start.Reflects [] where
  trailing := by simp [State.start]
  pending := by simp [State.start]

/-- A state that is not trailing after a token that is not the separator. -/
theorem concat (h : s.Reflects before) (hs : s.trailing = false) (hs' : s'.trailing = false)
    (hne : token ≠ Text.encode "--")
    (hpending : ∀ o, s'.pending = some ⟨o, none⟩ ↔ token = Text.encode o.flag) :
    s'.Reflects (before ++ [token]) where
  trailing := by
    have hbefore : Text.encode "--" ∉ before := by
      rw [← h.trailing, hs]
      exact Bool.false_ne_true
    simp [hs', hbefore, Ne.symm hne]
  pending := by
    intro _ o
    rw [hpending, List.getLast?_concat, Option.some.injEq]

theorem trailing_of_read (hread : s.read token = .ok s') : s.trailing = false := by
  unfold State.read at hread
  split at hread
  · cases hread
  next htrailing => simpa using htrailing

/-- One token more. -/
theorem read (h : s.Reflects before) (hread : s.read token = .ok s') :
    s'.Reflects (before ++ [token]) := by
  have hs := trailing_of_read hread
  have hseparator {x : Item} (hitems : items token = [x]) (hx : x ≠ .separator) :
      token ≠ Text.encode "--" := by
    rintro rfl
    rw [items_separator] at hitems
    exact hx (List.singleton_inj.mp hitems).symm
  have hoption {x : Item} (hitems : items token = [x]) {o : ValueOption}
      (hx : x ≠ .option o none) : token ≠ Text.encode o.flag := by
    rintro rfl
    rw [items_option] at hitems
    exact hx (List.singleton_inj.mp hitems).symm
  rcases token_cases token with hv | rfl | ⟨o, rfl⟩ | ⟨x, hx⟩ | hno
  · have hitems := items_of_isValue hv
    obtain ⟨o, -, rfl⟩ := (read_value_eq_ok_iff hs hv).mp hread
    refine h.concat hs hs (hseparator hitems nofun) fun o' => iff_of_false nofun ?_
    exact hoption hitems nofun
  · rw [read_separator hs] at hread
    cases hread
    exact ⟨by simp, nofun⟩
  · rw [read_eq_step hs (items_option o)] at hread
    obtain ⟨g, -, rfl⟩ := step_option_iff.mp hread
    refine h.concat hs hs (hseparator (items_option o) nofun) fun o' => ?_
    constructor
    · rintro ⟨⟩
      rfl
    · intro heq
      by_cases ho : o = o'
      · rw [ho]
      · refine absurd heq (hoption (items_option o) ?_)
        rintro ⟨⟩
        exact ho rfl
  · have hitems := items_spelled hx
    rw [read_eq_step hs hitems] at hread
    obtain ⟨g, g', -, -, rfl⟩ := step_ofGroup_iff.mp hread
    refine h.concat hs hs (hseparator hitems ?_) fun o' => iff_of_false nofun (hoption hitems ?_)
    · cases x <;> exact nofun
    · cases x <;> exact nofun
  · exact absurd hread (not_ok_of_refuses hno hs s')

/-- What the machine has read is reflected by its state. -/
theorem of_foldlM (h : before.foldlM State.read .start = .ok s) : s.Reflects before := by
  induction before using List.reverseRecOn generalizing s with
  | nil =>
    cases h
    exact start
  | append_singleton before token ih =>
    rw [List.foldlM_append] at h
    obtain ⟨s₁, hbefore, hread⟩ := bind_eq_ok_iff.mp h
    rw [List.foldlM_cons] at hread
    obtain ⟨s₂, hread, ⟨⟩⟩ := bind_eq_ok_iff.mp hread
    exact (ih hbefore).read hread

/-- A token that is not recognized stops the machine. -/
theorem not_ok (h : s.Reflects before) (hno : ¬ Recognized before token) :
    s.read token ≠ .ok s' := by
  intro hread
  have hs := trailing_of_read hread
  have hbefore : Text.encode "--" ∉ before := by
    rw [← h.trailing, hs]
    exact Bool.false_ne_true
  have hnamed : ¬ Named token := fun hn => hno ⟨hbefore, .inl hn⟩
  rcases token_cases token with hv | rfl | ⟨o, rfl⟩ | ⟨x, hx⟩ | hrefuses
  · obtain ⟨o, ho, -⟩ := (read_value_eq_ok_iff hs hv).mp hread
    exact hno ⟨hbefore, .inr ⟨hv, o, (h.pending hs o).mp ho⟩⟩
  · exact hnamed .separator
  · exact hnamed (.long (flag_mem_flags o))
  · exact hnamed hx.named
  · exact not_ok_of_refuses hrefuses hs s' hread

/-- A token that is recognized is not reported as unknown. -/
theorem not_unknown (h : s.Reflects before) (hrecognized : Recognized before token) (t : String) :
    s.read token ≠ .error (.refused (.unknown t)) := by
  intro hread
  obtain ⟨hbefore, hrecognized⟩ := hrecognized
  obtain ⟨htrailing, -⟩ | ⟨hs, x, hx, hstops⟩ := stops_of_read hread
  · exact hbefore (h.trailing.mp htrailing)
  rcases hrecognized with hn | ⟨hv, o, ho⟩
  · exact hstops.not_isNamed (hn.items x hx)
  · have hpending := (h.pending hs o).mpr ho
    rw [(read_value_eq_ok_iff hs hv).mpr ⟨o, hpending, rfl⟩] at hread
    cases hread

end State.Reflects

/-! ## The end of a command line -/

/-- What ends a command line for good. -/
def Stop.IsFatal : Stop → Prop
  | .refused (.unknown _) | .notice _ => True
  | .refused _ => False

theorem Stop.OfValue.not_isFatal {e : Stop} (h : e.OfValue) : ¬ e.IsFatal := by
  obtain ⟨r, hr, rfl⟩ := h
  cases hr <;> exact id

/-- At the end of the tokens nothing fatal is found. -/
theorem not_isFatal_of_finish {s : State} {e : Stop} (h : s.finish = .error e) : ¬ e.IsFatal := by
  obtain hflush | ⟨g, -, h⟩ := bind_eq_error_iff.mp h
  · exact (ofValue_of_flush hflush).not_isFatal
  · split at h
    · cases h
    · cases h
      exact id

theorem parse_of_foldlM {tokens : List Bytes} {e : Stop}
    (h : tokens.foldlM State.read .start = .error e) : parse tokens = .error e :=
  bind_eq_error_iff.mpr (.inl h)

theorem foldlM_of_parse {tokens : List Bytes} {e : Stop} (h : parse tokens = .error e)
    (he : e.IsFatal) : tokens.foldlM State.read .start = .error e := by
  obtain hfold | ⟨s, -, hfinish⟩ := bind_eq_error_iff.mp h
  · exact hfold
  · exact absurd he (not_isFatal_of_finish hfinish)

/-- Behind a token that is not recognized nothing matters. -/
theorem exists_foldlM_of_not_recognized {before : List Bytes} {token : Bytes}
    (hno : ¬ Recognized before token) :
    ∃ e, (before ++ [token]).foldlM State.read .start = .error e := by
  cases hfold : before.foldlM State.read .start with
  | error e => exact ⟨e, foldlM_append_of_error hfold _⟩
  | ok s =>
    cases hread : s.read token with
    | error e => exact ⟨e, foldlM_eq_error_iff.mpr ⟨before, token, [], s, rfl, hfold, hread⟩⟩
    | ok s' => exact absurd hread ((State.Reflects.of_foldlM hfold).not_ok hno)

end Options

namespace Invocation

open Options

variable {arguments : List Bytes} {lookup : String → Option String}

/-- What ends a command line for good: a token that is not recognized, or a notice. -/
def Stop.IsFatal : Stop → Prop
  | .refused (.unknown _) | .notice .. => True
  | .refused _ => False

/-- What stopped the machine, for a program called by the given name. -/
def stopOf (name : Option Bytes) : Options.Stop → Stop
  | .refused r => .refused r
  | .notice n => .notice n (n.text (programName name))

theorem resolve_of_parse_error {e : Options.Stop} (h : parse arguments.tail = .error e) :
    resolve arguments lookup = .error (stopOf arguments.head? e) := by
  rw [resolve, h]
  cases e <;> rfl

theorem resolve_of_foldlM {name : Bytes} {tokens : List Bytes} {e : Options.Stop}
    (h : tokens.foldlM State.read .start = .error e) :
    resolve (name :: tokens) lookup = .error (stopOf (some name) e) :=
  resolve_of_parse_error (parse_of_foldlM h)

theorem ofGiven_ne_unknown {g : Given} (t : String) : ofGiven g lookup ≠ .error (.unknown t) := by
  unfold ofGiven
  split
  · dsimp only
    split
    · exact nofun
    · exact nofun
  · exact nofun

/-- A fatal end comes from the tokens. -/
theorem parse_of_resolve {e : Stop} (h : resolve arguments lookup = .error e) (he : e.IsFatal) :
    ∃ e₀ : Options.Stop, e₀.IsFatal ∧ e = stopOf arguments.head? e₀ ∧
      arguments.tail.foldlM State.read .start = .error e₀ := by
  cases hparse : parse arguments.tail with
  | error e₀ =>
    rw [resolve_of_parse_error hparse] at h
    cases h
    have hfatal : e₀.IsFatal := by
      cases e₀ with
      | refused r => cases r <;> exact he
      | notice n => trivial
    exact ⟨e₀, hfatal, rfl, foldlM_of_parse hparse hfatal⟩
  | ok g =>
    rw [resolve, hparse] at h
    obtain ⟨r, hr, rfl⟩ := mapError_eq_error_iff.mp h
    cases r with
    | unknown t => exact absurd hr (ofGiven_ne_unknown t)
    | _ => exact he.elim

/-- **The first fatal token decides.** A command line that ends with a token that is not recognized,
or with a notice, ends so whatever is appended to it and whatever the environment is. Behind a token
that is not recognized nothing matters, and there is no invocation; and what is reported as unknown
is a token that is not recognized. -/
theorem resolve_decided :
    (∀ arguments lookup e, resolve arguments lookup = .error e → e.IsFatal →
      ∀ more lookup', resolve (arguments ++ more) lookup' = .error e) ∧
    (∀ name before token, ¬ Recognized before token →
      ∃ e, ∀ after lookup, resolve (name :: (before ++ token :: after)) lookup = .error e) ∧
    ∀ arguments lookup t, resolve arguments lookup = .error (.refused (.unknown t)) →
      ∃ name before token after, arguments = name :: (before ++ token :: after) ∧
        ¬ Recognized before token ∧ ∀ after' lookup',
          resolve (name :: (before ++ token :: after')) lookup' =
            .error (.refused (.unknown t)) := by
  refine ⟨fun arguments lookup e h he more lookup' => ?_, fun name before token hno => ?_,
    fun arguments lookup t h => ?_⟩
  · obtain ⟨e₀, -, rfl, hfold⟩ := parse_of_resolve h he
    cases arguments with
    | nil => cases hfold
    | cons name tokens =>
      exact resolve_of_foldlM (foldlM_append_of_error hfold more)
  · obtain ⟨e, hfold⟩ := exists_foldlM_of_not_recognized hno
    refine ⟨stopOf (some name) e, fun after lookup => ?_⟩
    have hall := foldlM_append_of_error hfold after
    rw [List.append_assoc, List.singleton_append] at hall
    exact resolve_of_foldlM hall
  · obtain ⟨e₀, -, heq, hfold⟩ := parse_of_resolve h trivial
    cases arguments with
    | nil => cases hfold
    | cons name tokens =>
      obtain ⟨before, token, after, s, htokens, hbefore, hread⟩ := foldlM_eq_error_iff.mp hfold
      obtain rfl : e₀ = .refused (.unknown t) := by
        cases e₀ <;> cases heq
        rfl
      refine ⟨name, before, token, after, congrArg _ htokens, fun hrecognized => ?_,
        fun after' lookup' => ?_⟩
      · exact (State.Reflects.of_foldlM hbefore).not_unknown hrecognized t hread
      · have hstops : (before ++ token :: after').foldlM State.read .start =
            .error (.refused (.unknown t)) :=
          foldlM_eq_error_iff.mpr ⟨before, token, after', s, rfl, hbefore, hread⟩
        exact resolve_of_foldlM hstops

/-- A stray token and a misspelled option are reported, not the wrong value in front and not the
notice behind. -/
theorem resolve_decided_unknown :
    let line (tokens : List String) : List Bytes := ("servebench" :: tokens).map Text.encode
    let unknown (t : String) : Except Stop Invocation := .error (.refused (.unknown t))
    resolve (line ["--port", "x", "--bogus"]) (fun _ => none) = unknown "--bogus" ∧
      resolve (line ["--port", "x", "--bogus"] ++ [Text.encode "--help"]) (fun _ => none) =
        unknown "--bogus" ∧
      ¬ Recognized [Text.encode "--verbose"] (Text.encode "stray") ∧
      ∃ e, ∀ after lookup, resolve (Text.encode "servebench" ::
        ([Text.encode "--verbose"] ++ Text.encode "stray" :: after)) lookup = .error e := by
  intro line unknown
  obtain ⟨hends, hnothing, hreported⟩ := resolve_decided
  have hbogus : resolve (line ["--port", "x", "--bogus"]) (fun _ => none) = unknown "--bogus" := by
    decide +kernel
  have hstray : ¬ Recognized [Text.encode "--verbose"] (Text.encode "stray") := by
    rintro ⟨-, hnamed | ⟨-, o, ho⟩⟩
    · exact hnamed.items (.word (Text.encode "stray")) (by decide)
    · -- A switch is no option, so the word is no value.
      have hitems := items_option o
      rw [← Option.some.inj ho] at hitems
      exact nomatch (items_switch .verbose).symm.trans hitems
  exact ⟨hbogus, hends _ _ _ hbogus trivial _ _, hstray, hnothing _ _ _ hstray⟩

end Invocation

end EngineBench
