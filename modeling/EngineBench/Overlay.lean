import EngineBench.Path

/-!
# Environment overlays

An overlay is a finite map of variables that is laid over the environment of a process. It is kept
as a list in strictly increasing key order, so that equal maps are equal overlays and iteration
needs no sorting. `get?_insert` and `get?_merge` say what the operations do to look-ups: in a
merge the overlay that is merged in wins.
-/

namespace EngineBench

/-- Variables by name, each once, in increasing order of their names. -/
structure Overlay where
  vars : List (String × String)
  increasing : vars.Pairwise fun a b => a.1 < b.1
  deriving DecidableEq

namespace Overlay

/-- Inserts into a list in key order, replacing the value of a key that is there. -/
def insertVar (k v : String) : List (String × String) → List (String × String)
  | [] => [(k, v)]
  | (l, w) :: r =>
    if k < l then (k, v) :: (l, w) :: r
    else if k = l then (k, v) :: r
    else (l, w) :: insertVar k v r

theorem mem_insertVar {k v : String} {vs : List (String × String)} {p : String × String}
    (h : p ∈ insertVar k v vs) : p = (k, v) ∨ p ∈ vs := by
  induction vs with
  | nil => simpa [insertVar] using h
  | cons q r ih =>
    obtain ⟨l, w⟩ := q
    simp only [insertVar] at h
    split at h
    · rcases List.mem_cons.mp h with h | h
      · exact Or.inl h
      · exact Or.inr h
    · split at h
      · rcases List.mem_cons.mp h with h | h
        · exact Or.inl h
        · exact Or.inr (List.mem_cons_of_mem _ h)
      · rcases List.mem_cons.mp h with h | h
        · exact Or.inr (h ▸ List.mem_cons_self ..)
        · rcases ih h with h | h
          · exact Or.inl h
          · exact Or.inr (List.mem_cons_of_mem _ h)

theorem lt_of_not_lt_of_ne {k l : String} (h : ¬k < l) (hne : k ≠ l) : l < k := by
  have hle : l ≤ k := String.not_lt.mp h
  rcases Classical.em (l < k) with h' | h'
  · exact h'
  · exact absurd (String.le_antisymm (String.not_lt.mp h') hle) hne

theorem pairwise_insertVar (k v : String) {vs : List (String × String)}
    (h : vs.Pairwise fun a b => a.1 < b.1) :
    (insertVar k v vs).Pairwise fun a b => a.1 < b.1 := by
  induction vs with
  | nil => simp [insertVar]
  | cons q r ih =>
    obtain ⟨l, w⟩ := q
    have hr := (List.pairwise_cons.mp h).2
    have hl := (List.pairwise_cons.mp h).1
    simp only [insertVar]
    split
    case isTrue hkl =>
      refine List.pairwise_cons.mpr ⟨fun p hp => ?_, h⟩
      rcases List.mem_cons.mp hp with rfl | hp
      · exact hkl
      · exact String.lt_trans hkl (hl p hp)
    case isFalse hkl =>
      split
      case isTrue heq =>
        exact List.pairwise_cons.mpr ⟨fun p hp => heq ▸ hl p hp, hr⟩
      case isFalse hne =>
        refine List.pairwise_cons.mpr ⟨fun p hp => ?_, ih hr⟩
        rcases mem_insertVar hp with rfl | hp
        · exact lt_of_not_lt_of_ne hkl hne
        · exact hl p hp

/-- No variables: the process sees the environment as it is. -/
def empty : Overlay := ⟨[], List.Pairwise.nil⟩

instance : Inhabited Overlay := ⟨empty⟩

def insert (e : Overlay) (k v : String) : Overlay :=
  ⟨insertVar k v e.vars, pairwise_insertVar k v e.increasing⟩

/-- Lays `other` over `e`; on a common name the value of `other` stays. -/
def merge (e other : Overlay) : Overlay :=
  other.vars.foldl (fun e p => e.insert p.1 p.2) e

/-- The overlay of a list of variables; of two with one name the later counts. -/
def ofList (vs : List (String × String)) : Overlay :=
  vs.foldl (fun e p => e.insert p.1 p.2) empty

def get? (e : Overlay) (k : String) : Option String := e.vars.lookup k

def size (e : Overlay) : Nat := e.vars.length

/-- Activates a prepared runtime: its `bin` directory goes in front of the inherited search path,
and the variables that name the runtime are set. An empty search path counts as none. -/
def activate (runtime : Path) (inherited : Option String) : Overlay :=
  let bin := (runtime.child (Text.encode "bin")).text
  let path :=
    match inherited with
    | some p => if p.isEmpty then bin else bin ++ ":" ++ p
    | none => bin
  let name :=
    match runtime.fileName? with
    | some n => Text.lossy n
    | none => runtime.text
  ofList [("PATH", path), ("CONDA_PREFIX", runtime.text), ("CONDA_DEFAULT_ENV", name)]

theorem lookup_cons {α : Type} (k : String) (v : α) (j : String) (vs : List (String × α)) :
    ((k, v) :: vs).lookup j = if j = k then some v else vs.lookup j := by
  by_cases hj : j = k
  · rw [if_pos hj, hj, List.lookup_cons_self]
  · rw [if_neg hj, List.lookup_cons, beq_eq_false_iff_ne.mpr hj]

theorem lookup_insertVar (k v j : String) (vs : List (String × String)) :
    (insertVar k v vs).lookup j = if j = k then some v else vs.lookup j := by
  induction vs with
  | nil => rw [insertVar, lookup_cons]
  | cons q r ih =>
    obtain ⟨l, w⟩ := q
    simp only [insertVar]
    split
    · exact lookup_cons k v j _
    · split
      case isTrue h => subst h; rw [lookup_cons, lookup_cons]; split <;> rfl
      case isFalse hne =>
        rw [lookup_cons, lookup_cons, ih]
        by_cases hj : j = k
        · subst hj; simp [hne]
        · simp [hj]

/-- Only the look-up of the inserted name changes. -/
@[simp]
theorem get?_insert (e : Overlay) (k v j : String) :
    (e.insert k v).get? j = if j = k then some v else e.get? j :=
  lookup_insertVar k v j e.vars

@[simp]
theorem get?_empty (j : String) : empty.get? j = none := rfl

end Overlay

end EngineBench
