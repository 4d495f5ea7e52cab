import Mathlib.Data.Finset.Card
import EngineBench.Settings

/-!
# Overlays as maps

An overlay is determined by its look-ups, and a look-up in a merge asks the overlay that was merged
in first. So overlays are a monoid under merging, and the later of two overlays wins.

* `Overlay.get?_merge` is the look-up in a merge, `Overlay.ext_get?` is extensionality.
* `Overlay.merge_empty`, `Overlay.empty_merge`, `Overlay.merge_assoc` and `Overlay.merge_self` are
  the laws of merging.
* `Overlay.size_merge` counts the variables of a merge: a common name is there once.
* `RuntimeSettings.overlay_eq_merge`: the environment that the settings ask for is a merge too.
* `Overlay.merge_rightBiased` has the laws together, and what they mean for the environment that the
  settings ask for.
-/

namespace EngineBench

namespace Overlay

/-! ## Look-ups in lists -/

/-- In front of the first name nothing is found. -/
theorem lookup_eq_none_of_lt {j : String} {vs : List (String × String)}
    (h : ∀ p ∈ vs, j < p.1) : vs.lookup j = none := by
  rw [List.lookup_eq_none_iff]
  intro p hp
  have hne : j ≠ p.1 := String.ne_of_lt (h p hp)
  simpa using hne

/-- Lists in the order of their names are equal if all look-ups are. -/
theorem eq_of_lookup {vs ws : List (String × String)} (hvs : vs.Pairwise fun a b => a.1 < b.1)
    (hws : ws.Pairwise fun a b => a.1 < b.1) (h : ∀ j, vs.lookup j = ws.lookup j) : vs = ws := by
  -- Along both lists: a first name that is before the other one is found in one list only.
  induction vs generalizing ws with
  | nil =>
    cases ws with
    | nil => rfl
    | cons q ws =>
      have hq := h q.1
      rw [lookup_cons q.1 q.2 q.1, if_pos rfl] at hq
      cases hq
  | cons p vs ih =>
    obtain ⟨k, v⟩ := p
    obtain ⟨hk, hvs'⟩ := List.pairwise_cons.mp hvs
    cases ws with
    | nil =>
      have hp := h k
      rw [lookup_cons, if_pos rfl] at hp
      cases hp
    | cons q ws =>
      obtain ⟨l, w⟩ := q
      obtain ⟨hl, hws'⟩ := List.pairwise_cons.mp hws
      have hkl : k = l := by
        refine Classical.byContradiction fun hne => ?_
        by_cases hlt : k < l
        · have hp := h k
          rw [lookup_cons, if_pos rfl, lookup_cons, if_neg hne,
            lookup_eq_none_of_lt fun p hp => String.lt_trans hlt (hl p hp)] at hp
          cases hp
        · have hgt : l < k := lt_of_not_lt_of_ne hlt hne
          have hq := h l
          rw [lookup_cons, if_neg (Ne.symm hne), lookup_cons, if_pos rfl,
            lookup_eq_none_of_lt fun p hp => String.lt_trans hgt (hk p hp)] at hq
          cases hq
      subst hkl
      have hvw := h k
      rw [lookup_cons, if_pos rfl, lookup_cons, if_pos rfl] at hvw
      cases hvw
      refine congrArg _ (ih hvs' hws' fun j => ?_)
      by_cases hj : j = k
      · rw [hj, lookup_eq_none_of_lt hk, lookup_eq_none_of_lt hl]
      · have hjs := h j
        rwa [lookup_cons, if_neg hj, lookup_cons, if_neg hj] at hjs

/-! ## Look-ups in overlays -/

/-- An overlay is determined by its look-ups. -/
theorem ext_get? {a b : Overlay} (h : ∀ j, a.get? j = b.get? j) : a = b := by
  obtain ⟨vs, hvs⟩ := a
  obtain ⟨ws, hws⟩ := b
  rw [mk.injEq]
  exact eq_of_lookup hvs hws h

theorem get?_foldl_insert {vs : List (String × String)}
    (hvs : vs.Pairwise fun a b => a.1 < b.1) (e : Overlay) (j : String) :
    (vs.foldl (fun e p => e.insert p.1 p.2) e).get? j = (vs.lookup j).or (e.get? j) := by
  induction vs generalizing e with
  | nil => rfl
  | cons p vs ih =>
    obtain ⟨k, v⟩ := p
    obtain ⟨hk, hvs⟩ := List.pairwise_cons.mp hvs
    rw [List.foldl_cons, ih hvs, get?_insert, lookup_cons]
    by_cases hj : j = k
    · rw [if_pos hj, if_pos hj, hj, lookup_eq_none_of_lt hk]
      rfl
    · rw [if_neg hj, if_neg hj]

/-- In a merge the overlay that is merged in wins. -/
@[simp]
theorem get?_merge (a b : Overlay) (j : String) :
    (a.merge b).get? j = (b.get? j).or (a.get? j) := get?_foldl_insert b.increasing a j

@[simp]
theorem merge_empty (a : Overlay) : a.merge empty = a := rfl

@[simp]
theorem empty_merge (a : Overlay) : empty.merge a = a := by
  apply ext_get?
  intro j
  rw [get?_merge, get?_empty, Option.or_none]

theorem merge_assoc (a b c : Overlay) : (a.merge b).merge c = a.merge (b.merge c) := by
  apply ext_get?
  intro j
  rw [get?_merge, get?_merge, get?_merge, get?_merge, Option.or_assoc]

@[simp]
theorem merge_self (a : Overlay) : a.merge a = a := by
  apply ext_get?
  intro j
  rw [get?_merge, Option.or_self]

/-! ## Variables -/

/-- The listed variables are those that a look-up finds. -/
theorem mem_vars_iff {e : Overlay} {k v : String} : (k, v) ∈ e.vars ↔ e.get? k = some v := by
  obtain ⟨vs, hvs⟩ := e
  show (k, v) ∈ vs ↔ vs.lookup k = some v
  induction vs with
  | nil => simp
  | cons p vs ih =>
    obtain ⟨l, w⟩ := p
    obtain ⟨hl, hvs⟩ := List.pairwise_cons.mp hvs
    rw [lookup_cons, List.mem_cons, Prod.mk.injEq, ih hvs]
    by_cases hk : k = l
    · subst hk
      rw [lookup_eq_none_of_lt hl, if_pos rfl]
      simp [eq_comm]
    · rw [if_neg hk]
      simp [hk]

/-- The names of the variables. -/
def names (e : Overlay) : Finset String := (e.vars.map Prod.fst).toFinset

theorem mem_names_iff {e : Overlay} {k : String} : k ∈ e.names ↔ (e.get? k).isSome := by
  rw [names, List.mem_toFinset, List.mem_map, Option.isSome_iff_exists]
  constructor
  · rintro ⟨⟨_, v⟩, hp, rfl⟩
    exact ⟨v, mem_vars_iff.mp hp⟩
  · rintro ⟨v, hv⟩
    exact ⟨(k, v), mem_vars_iff.mpr hv, rfl⟩

/-- No name is listed twice. -/
theorem size_eq_card (e : Overlay) : e.size = e.names.card := by
  have hnodup : (e.vars.map Prod.fst).Nodup :=
    List.pairwise_map.mpr (e.increasing.imp String.ne_of_lt)
  rw [names, List.toFinset_card_of_nodup hnodup, List.length_map, size]

theorem names_merge (a b : Overlay) : (a.merge b).names = a.names ∪ b.names := by
  ext k
  rw [Finset.mem_union, mem_names_iff, mem_names_iff, mem_names_iff, get?_merge, Option.isSome_or,
    Bool.or_eq_true, or_comm]

/-- In a merge the common names are there once. -/
theorem size_merge (a b : Overlay) :
    (a.merge b).size + (a.names ∩ b.names).card = a.size + b.size := by
  rw [size_eq_card, size_eq_card, size_eq_card, names_merge, Finset.card_union_add_card_inter]

/-- The later overlay is asked for its names, the earlier one for all others. -/
theorem get?_merge_eq_ite (a b : Overlay) (k : String) :
    (a.merge b).get? k = if k ∈ b.names then b.get? k else a.get? k := by
  rw [get?_merge]
  by_cases hk : k ∈ b.names
  · rw [if_pos hk, Option.or_of_isSome (mem_names_iff.mp hk)]
  · have hnone : b.get? k = none := Option.not_isSome_iff_eq_none.mp (mt mem_names_iff.mpr hk)
    rw [if_neg hk, hnone, Option.none_or]

end Overlay

/-- Setting the variables of the settings one after the other is merging them. -/
theorem RuntimeSettings.overlay_eq_merge (s : RuntimeSettings) (inherited : Option String) :
    s.overlay inherited =
      (s.root.elim .empty (Overlay.activate · inherited)).merge s.vars := by
  apply Overlay.ext_get?
  intro j
  rw [Overlay.get?_merge]
  exact Overlay.get?_foldl_insert s.vars.increasing _ j

namespace Overlay

/-- Overlays are a monoid under merging in which the later overlay wins: its values are found for
its names, and those of the earlier one for all others. Variables are listed once each, in
increasing order of their names. What the settings ask for is the activation of the runtime, if
there is one, into which their own variables are merged one by one, so that these win over the
activation. -/
theorem merge_rightBiased (a b c : Overlay) :
    (∀ k, (a.merge b).get? k = if k ∈ b.names then b.get? k else a.get? k) ∧
    (a.merge b).merge c = a.merge (b.merge c) ∧ a.merge a = a ∧
    a.merge empty = a ∧ empty.merge a = a ∧
    (a.vars.Pairwise fun p q => p.1 < q.1) ∧ (∀ k v, (k, v) ∈ a.vars ↔ a.get? k = some v) ∧
    a.size = a.vars.length ∧
    (a.merge b).size = a.size + b.size - (a.names ∩ b.names).card ∧
    (a.names ∩ b.names).card ≤ a.size + b.size ∧
    ∀ (root : Option Path) (inherited : Option String),
      let activated := root.elim empty (activate · inherited)
      let overlay := RuntimeSettings.overlay ⟨root, a⟩ inherited
      overlay = activated.merge a ∧
      overlay = a.vars.foldl (fun e p => e.insert p.1 p.2) activated ∧
      ∀ k, overlay.get? k = if k ∈ a.names then a.get? k else activated.get? k := by
  have hsize := size_merge a b
  refine ⟨get?_merge_eq_ite a b, merge_assoc a b c, merge_self a, merge_empty a, empty_merge a,
    a.increasing, fun _ _ => mem_vars_iff, rfl, by omega, by omega,
    fun root inherited => ?_⟩
  have hmerge := RuntimeSettings.overlay_eq_merge ⟨root, a⟩ inherited
  refine ⟨hmerge, rfl, fun k => ?_⟩
  rw [hmerge]
  exact get?_merge_eq_ite _ a k

/-- The variable of the later overlay stays, and both others. -/
example : ((ofList [("B", "2"), ("A", "1")]).merge (ofList [("C", "4"), ("B", "3")])).vars =
    [("A", "1"), ("B", "3"), ("C", "4")] := by decide +kernel

end Overlay

end EngineBench
