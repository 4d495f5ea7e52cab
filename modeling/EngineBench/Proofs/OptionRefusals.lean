import EngineBench.Proofs.OptionGrammar

/-!
# Why the machine of the options stops

Each way in which a token can stop the machine, stated once.

* `Refusal.OfValue`: what can be wrong with the value of an option.
* `Options.Item.Stops` says why the machine stops at an item; `Options.stops_of_step` and
  `Options.stops_of_read` say that there is no other reason.
* `Options.foldlM_eq_error_iff`: a run stops at one of its tokens, and what follows is not looked at.
-/

namespace EngineBench

/-- What can be wrong with the value of an option. -/
inductive Refusal.OfValue : Refusal → Prop
  | malformed {o : ValueOption} {text : String} : OfValue (.malformed o text)
  | repeated {o : ValueOption} : OfValue (.repeatedOption o)
  | notUtf8 : OfValue .notUtf8

namespace ValueOption

variable {o : ValueOption} {bs : Bytes} {r : Refusal}

theorem ofValue_of_readText {α : Type} {read? : String → Option α}
    (h : o.readText read? bs = .error r) : r.OfValue := by
  unfold readText at h
  split at h
  · cases h
    exact .notUtf8
  · split at h
    · cases h
      exact .malformed
    · cases h

theorem ofValue_of_readPath (h : o.readPath bs = .error r) : r.OfValue := by
  unfold readPath at h
  split at h
  · cases h
    exact .malformed
  · cases h

/-- A value that is not read is no UTF-8 or has the wrong form. -/
theorem ofValue_of_read (h : o.read bs = .error r) : r.OfValue := by
  rcases o with p | _
  · cases p with
    | dataset => exact ofValue_of_readPath h
    | _ =>
      unfold read at h
      exact ofValue_of_readText h
  · exact ofValue_of_readPath h

end ValueOption

namespace Options

theorem bind_eq_error_iff {ε α β : Type} {x : Except ε α} {f : α → Except ε β} {e : ε} :
    (x >>= f) = .error e ↔ x = .error e ∨ ∃ a, x = .ok a ∧ f a = .error e := by
  cases x with
  | error e' =>
    constructor
    · rintro ⟨⟩
      exact .inl rfl
    · rintro (⟨⟨⟩⟩ | ⟨_, ⟨⟩, _⟩)
      rfl
  | ok a =>
    constructor
    · intro h
      exact .inr ⟨a, rfl, h⟩
    · rintro (⟨⟨⟩⟩ | ⟨_, ⟨⟩, h⟩)
      exact h

theorem mapError_eq_error_iff {ε ε' α : Type} {f : ε → ε'} {x : Except ε α} {e : ε'} :
    x.mapError f = .error e ↔ ∃ e₀, x = .error e₀ ∧ e = f e₀ := by
  cases x with
  | error e₀ =>
    constructor
    · rintro ⟨⟩
      exact ⟨e₀, rfl, rfl⟩
    · rintro ⟨_, ⟨⟩, rfl⟩
      rfl
  | ok a => exact ⟨nofun, fun ⟨_, h, _⟩ => nomatch h⟩

/-! ## Values -/

theorem ofValue_of_store {g : Given} {o : ValueOption} {value : Option Bytes} {r : Refusal}
    (h : g.store o value = .error r) : r.OfValue := by
  unfold Given.store at h
  split at h
  · cases h
    exact .malformed
  next bs =>
    split at h
    · cases h
      exact .repeated
    · cases hread : o.read bs with
      | ok x =>
        rw [hread] at h
        cases h
      | error r' =>
        rw [hread] at h
        cases h
        exact ValueOption.ofValue_of_read hread

/-- The machine stops for the value of an option. -/
def Stop.OfValue (e : Stop) : Prop := ∃ r : Refusal, r.OfValue ∧ e = .refused r

theorem stop_ofValue_of_store {g : Given} {o : ValueOption} {value : Option Bytes} {e : Stop}
    (h : (g.store o value).mapError .refused = .error e) : e.OfValue := by
  obtain ⟨r, hr, rfl⟩ := mapError_eq_error_iff.mp h
  exact ⟨r, ofValue_of_store hr, rfl⟩

theorem ofValue_of_flush {s : State} {e : Stop} (h : s.flush = .error e) : e.OfValue := by
  unfold State.flush at h
  split at h
  · cases h
  · exact stop_ofValue_of_store h

/-! ## Tokens -/

/-- Why the machine stops at an item. -/
inductive Item.Stops : Item → Stop → Prop
  /-- The value that is pending, or the one that is attached, cannot be stored. -/
  | value {x : Item} {e : Stop} : e.OfValue → Stops x e
  | repeated {w : Switch} : Stops (.switch w) (.refused (.repeatedSwitch w))
  | notice {n : Notice} : Stops (.notice n) (.notice n)
  | excess {flag : String} {v : Bytes} :
      Stops (.excess flag v) (.refused (.unexpectedValue flag (Text.lossy v)))
  | word {bs : Bytes} : Stops (.word bs) (.refused (.unknown (Text.lossy bs)))
  | unknown {token : String} : Stops (.unknown token) (.refused (.unknown token))

theorem stops_of_step {s : State} {x : Item} {e : Stop} (h : s.step x = .error e) : x.Stops e := by
  cases x with
  | option o attached =>
    cases attached with
    | none =>
      obtain hflush | ⟨_, _, ⟨⟩⟩ := bind_eq_error_iff.mp h
      exact .value (ofValue_of_flush hflush)
    | some v =>
      obtain hflush | ⟨g, -, h⟩ := bind_eq_error_iff.mp h
      · exact .value (ofValue_of_flush hflush)
      obtain hstore | ⟨_, _, ⟨⟩⟩ := bind_eq_error_iff.mp h
      exact .value (stop_ofValue_of_store hstore)
  | switch w =>
    obtain hflush | ⟨g, -, h⟩ := bind_eq_error_iff.mp h
    · exact .value (ofValue_of_flush hflush)
    dsimp only at h
    split at h
    · cases h
      exact .repeated
    · cases h
  | notice n =>
    obtain hflush | ⟨_, -, ⟨⟩⟩ := bind_eq_error_iff.mp h
    · exact .value (ofValue_of_flush hflush)
    · exact .notice
  | excess flag v =>
    cases h
    exact .excess
  | separator => cases h
  | word bs =>
    simp only [State.step] at h
    split at h
    · cases h
    · cases h
      exact .word
  | unknown token =>
    cases h
    exact .unknown

/-- A run stops at one of its parts, whatever stands behind it. -/
theorem foldlM_eq_error_iff {ε α β : Type} {f : β → α → Except ε β} {b : β} {xs : List α} {e : ε} :
    xs.foldlM f b = .error e ↔ ∃ before x after b', xs = before ++ x :: after ∧
      before.foldlM f b = .ok b' ∧ f b' x = .error e := by
  constructor
  · intro h
    induction xs generalizing b with
    | nil => cases h
    | cons y ys ih =>
      rw [List.foldlM_cons] at h
      obtain hy | ⟨b₁, hy, hys⟩ := bind_eq_error_iff.mp h
      · exact ⟨[], y, ys, b, rfl, rfl, hy⟩
      · obtain ⟨before, x, after, b', rfl, hbefore, hx⟩ := ih hys
        refine ⟨y :: before, x, after, b', rfl, ?_, hx⟩
        rw [List.foldlM_cons, hy]
        exact hbefore
  · rintro ⟨before, x, after, b', rfl, hbefore, hx⟩
    rw [List.foldlM_append, hbefore]
    show (f b' x >>= fun b'' => after.foldlM f b'') = .error e
    rw [hx]
    rfl

/-- What stopped a run stops every run that begins with it. -/
theorem foldlM_append_of_error {ε α β : Type} {f : β → α → Except ε β} {b : β} {xs : List α} {e : ε}
    (h : xs.foldlM f b = .error e) (ys : List α) : (xs ++ ys).foldlM f b = .error e := by
  rw [List.foldlM_append, h]
  rfl

/-- A token stops the machine behind the separator, or for one of its items. -/
theorem stops_of_read {s : State} {token : Bytes} {e : Stop} (h : s.read token = .error e) :
    (s.trailing = true ∧ e = .refused (.unknown (Text.lossy token))) ∨
      (s.trailing = false ∧ ∃ x ∈ items token, x.Stops e) := by
  unfold State.read at h
  split at h
  next htrailing =>
    cases h
    exact .inl ⟨htrailing, rfl⟩
  next htrailing =>
    obtain ⟨before, x, after, s', hitems, -, hx⟩ := foldlM_eq_error_iff.mp h
    refine .inr ⟨by simpa using htrailing, x, ?_, stops_of_step hx⟩
    rw [hitems]
    exact List.mem_append_right _ List.mem_cons_self

end Options

end EngineBench
