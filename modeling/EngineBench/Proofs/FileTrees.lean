import EngineBench.FileTree
import EngineBench.Settings.Load

/-!
# What file operations leave alone

A path that leads to something leads there still when more stands in the tree. So what was made on
the way to a path can be said of the tree that comes out in the end.

* `FileTree.Leads` is a walk that comes to an end, step by step.
* `FileTree.Keeps`: what walks need is still there; `FileTree.locate_of_keeps` is what that is good
  for.
* `FileTree.Spared`: a place is as it was, or has become a directory that one of some paths leads
  to.
* `FileTree.spared_makeDirectories`: no more is done by making a directory and those above it.
* `FileTree.Opens` is what can be open for writing. `FileTree.write_of_device` and
  `FileTree.write_of_file` say what is written then: a file holds as much as it can.
-/

namespace EngineBench

/-- What holds something: a file or a program. -/
def Node.IsRegular : Node → Prop
  | .file _ | .tool _ => True
  | .directory | .device _ => False

namespace Limit

/-- All is written, or less than all and that is an error. -/
theorem fit_cases (limit? : Option Limit) (used : Nat) (bytes : Bytes) :
    fit limit? used bytes = (.ok (), bytes) ∨
      ∃ e n, n < bytes.length ∧ fit limit? used bytes = (.error e, bytes.take n) := by
  cases limit? with
  | none => exact .inl rfl
  | some limit =>
    by_cases hroom : bytes.length ≤ limit.room - used
    · exact .inl (if_pos hroom)
    · exact .inr ⟨limit.error, limit.room - used, Nat.not_le.mp hroom, if_neg hroom⟩

theorem fit_prefix (limit? : Option Limit) (used : Nat) (bytes : Bytes) :
    (fit limit? used bytes).2 <+: bytes := by
  obtain h | ⟨e, n, -, h⟩ := fit_cases limit? used bytes
  · simp only [h, List.prefix_rfl]
  · simp only [h, List.take_prefix]

/-- All is written exactly if nothing went wrong. -/
theorem fit_eq_ok_iff {limit? : Option Limit} {used : Nat} {bytes : Bytes} :
    (fit limit? used bytes).1 = .ok () ↔ (fit limit? used bytes).2 = bytes := by
  obtain h | ⟨e, n, hn, h⟩ := fit_cases limit? used bytes
  · simp only [h]
  · rw [h]
    refine iff_of_false nofun fun hall => ?_
    have hlength := congrArg List.length hall
    simp only [List.length_take] at hlength
    omega

end Limit

namespace Path

theorem mem_ancestorsUpTo (p : Path) (i : Nat) : p ∈ p.ancestorsUpTo i := by
  cases i with
  | zero => exact List.mem_singleton_self p
  | succ i =>
    rw [ancestorsUpTo]
    split <;> exact List.mem_cons_self

end Path

namespace FileTree

variable {t t' t'' : FileTree} {l k w : Location} {n n' : Node} {part : Bytes} {rest : List Bytes}
  {p : Path} {r : Place} {paths : List Path}

/-! ## Putting something in place -/

theorem get?_put_self (t : FileTree) (hl : l ≠ []) (n : Node) : (t.put l n).get? l = some n := by
  rw [get?_put t hl, if_pos rfl]

theorem get?_put_of_ne (t : FileTree) (hl : l ≠ []) (hk : k ≠ l) :
    (t.put l n).get? k = t.get? k := by
  rw [get?_put t hl, if_neg hk]

theorem put_put (t : FileTree) (l : Location) (n n' : Node) :
    (t.put l n).put l n' = t.put l n' := by
  rw [put, put, put, List.filter_cons_of_neg (by simp), List.filter_filter]
  simp only [Bool.and_self]

/-! ## Walks that come to an end -/

/-- A part that is the name of something in a directory. -/
structure IsStep (t : FileTree) (l : Location) (part : Bytes) : Prop where
  directory : t.get? l = some .directory
  ne_here : part ≠ Path.here
  ne_up : part ≠ Path.up
  length_le : part.length ≤ maxName

/-- The parts lead from a place to another one. -/
inductive Leads (t : FileTree) : Location → List Bytes → Place → Prop
  | arrived {l : Location} {n : Node} : t.get? l = some n → Leads t l [] (.taken l n)
  | here {l : Location} {rest : List Bytes} {r : Place} : t.get? l = some .directory →
      Leads t l rest r → Leads t l (Path.here :: rest) r
  | up {l : Location} {rest : List Bytes} {r : Place} : t.get? l = some .directory →
      Leads t l.dropLast rest r → Leads t l (Path.up :: rest) r
  | down {l : Location} {part : Bytes} {rest : List Bytes} {r : Place} : IsStep t l part →
      (t.get? (l ++ [part])).isSome → Leads t (l ++ [part]) rest r → Leads t l (part :: rest) r
  | vacant {l : Location} {part : Bytes} : IsStep t l part → t.get? (l ++ [part]) = none →
      Leads t l [part] (.vacant (l ++ [part]))

theorem walk_of_isStep (h : IsStep t l part) :
    t.walk l (part :: rest) =
      if (t.get? (l ++ [part])).isSome then t.walk (l ++ [part]) rest
      else if rest = [] then .ok (.vacant (l ++ [part])) else .error .notFound := by
  rw [walk, if_neg (not_not_intro h.directory), if_neg h.ne_here, if_neg h.ne_up,
    if_neg (Nat.not_lt.mpr h.length_le)]

theorem walk_eq_ok_iff {parts : List Bytes} : t.walk l parts = .ok r ↔ Leads t l parts r := by
  constructor
  · intro h
    fun_induction walk t l parts with
    | case1 l n hn =>
      cases h
      exact .arrived hn
    | case2 | case3 | case6 | case9 => cases h
    | case4 l rest hdirectory ih => exact .here (Decidable.not_not.mp hdirectory) (ih h)
    | case5 l rest hdirectory _ ih => exact .up (Decidable.not_not.mp hdirectory) (ih h)
    | case7 l part rest hdirectory hhere hup hlength hthere ih =>
      exact .down ⟨Decidable.not_not.mp hdirectory, hhere, hup, Nat.not_lt.mp hlength⟩ hthere (ih h)
    | case8 l part hdirectory hhere hup hlength hvacant =>
      cases h
      exact .vacant ⟨Decidable.not_not.mp hdirectory, hhere, hup, Nat.not_lt.mp hlength⟩
        (Option.not_isSome_iff_eq_none.mp hvacant)
  · intro h
    induction h with
    | arrived hn => rw [walk, hn]
    | here hdirectory _ ih => rw [walk, if_neg (not_not_intro hdirectory), if_pos rfl, ih]
    | up hdirectory _ ih =>
      rw [walk, if_neg (not_not_intro hdirectory), if_neg (by decide), if_pos rfl, ih]
    | down hstep hthere _ ih => rw [walk_of_isStep hstep, if_pos hthere, ih]
    | vacant hstep hvacant =>
      rw [walk_of_isStep hstep, hvacant, if_neg (by decide), if_pos rfl]

/-- What a place is said to be is what it is in a tree. -/
def Place.IsOf (t : FileTree) : Place → Prop
  | .taken l n => t.get? l = some n
  | .vacant l => t.get? l = none ∧ l ≠ []

theorem Leads.isOf {parts : List Bytes} (h : Leads t l parts r) : r.IsOf t := by
  induction h with
  | arrived hn => exact hn
  | here _ _ ih | up _ _ ih | down _ _ _ ih => exact ih
  | vacant _ hvacant => exact ⟨hvacant, List.append_ne_nil_of_right_ne_nil _ (List.cons_ne_nil _ _)⟩

/-- A walk without detours goes down all the way. -/
theorem Leads.eq_append {parts : List Bytes} (h : Leads t l parts (.taken k n))
    (hstraight : ∀ q ∈ parts, q ≠ Path.here ∧ q ≠ Path.up) : k = l ++ parts := by
  generalize hr : Place.taken k n = r at h
  induction h with
  | arrived =>
    cases hr
    exact (List.append_nil _).symm
  | here => exact absurd rfl (hstraight _ List.mem_cons_self).1
  | up => exact absurd rfl (hstraight _ List.mem_cons_self).2
  | down _ _ _ ih =>
    rw [ih (fun q hq => hstraight q (List.mem_cons_of_mem _ hq)) hr, List.append_assoc]
    rfl
  | vacant => cases hr

/-- What walks need is still there: the directories, and something at each place that was taken. -/
structure Keeps (t t' : FileTree) : Prop where
  directory {l : Location} : t.get? l = some .directory → t'.get? l = some .directory
  isSome {l : Location} : (t.get? l).isSome → (t'.get? l).isSome

theorem IsStep.of_keeps (h : IsStep t l part) (hkeeps : Keeps t t') : IsStep t' l part :=
  ⟨hkeeps.directory h.directory, h.ne_here, h.ne_up, h.length_le⟩

theorem Leads.of_keeps {parts : List Bytes} (h : Leads t l parts (.taken k n))
    (hkeeps : Keeps t t') (hn : t'.get? k = some n') : Leads t' l parts (.taken k n') := by
  -- Before its end a walk asks for directories and for what is there, and both are kept.
  generalize hr : Place.taken k n = r at h
  induction h with
  | arrived =>
    cases hr
    exact .arrived hn
  | here hdirectory _ ih => exact .here (hkeeps.directory hdirectory) (ih hr)
  | up hdirectory _ ih => exact .up (hkeeps.directory hdirectory) (ih hr)
  | down hstep hthere _ ih => exact .down (hstep.of_keeps hkeeps) (hkeeps.isSome hthere) (ih hr)
  | vacant => cases hr

/-- Putting something where no directory was takes nothing from a walk. -/
theorem Keeps.put (h : t.get? l ≠ some .directory) (hl : l ≠ []) : Keeps t (t.put l n) where
  directory {m} hm := by
    rw [get?_put_of_ne t hl, hm]
    rintro rfl
    exact h hm
  isSome {m} hm := by
    rw [get?_put t hl]
    split
    · rfl
    · exact hm

/-- What was put at a vacant place is where the walk to that place comes to. -/
theorem Leads.put {parts : List Bytes} (h : Leads t l parts (.vacant k)) :
    Leads (t.put k n) l parts (.taken k n) := by
  -- The place was vacant, so the walk did not go through it and needs nothing that was replaced.
  obtain ⟨hvacant, hk⟩ := h.isOf
  have hkeeps : Keeps t (t.put k n) := .put (by rw [hvacant]; exact nofun) hk
  have hput : (t.put k n).get? k = some n := get?_put_self t hk n
  generalize hr : Place.vacant k = r at h
  induction h with
  | arrived => cases hr
  | here hdirectory _ ih => exact .here (hkeeps.directory hdirectory) (ih hr)
  | up hdirectory _ ih => exact .up (hkeeps.directory hdirectory) (ih hr)
  | down hstep hthere _ ih => exact .down (hstep.of_keeps hkeeps) (hkeeps.isSome hthere) (ih hr)
  | vacant hstep =>
    cases hr
    exact .down (hstep.of_keeps hkeeps) (Option.isSome_of_mem hput) (.arrived hput)

/-! ## Paths -/

/-- A path that is walked at all. -/
structure IsWalked (p : Path) : Prop where
  zero_notMem : 0 ∉ p.bytes
  ne_nil : p.bytes ≠ []
  length_lt : p.bytes.length < maxPath

/-- A path leads to a place, and if it asks for a directory, not to anything else. -/
structure LeadsTo (t : FileTree) (w : Location) (p : Path) (r : Place) : Prop where
  isWalked : IsWalked p
  leads : Leads t (if p.isAbsolute then [] else w) ((Path.pieces p.bytes).filter (· ≠ [])) r
  directory {l : Location} {n : Node} : p.hasTrailingSlash = true → r = .taken l n → n = .directory

theorem LeadsTo.taken (hwalked : IsWalked p)
    (hleads : Leads t (if p.isAbsolute then [] else w) ((Path.pieces p.bytes).filter (· ≠ []))
      (.taken l n))
    (hdirectory : p.hasTrailingSlash = true → n = .directory) : LeadsTo t w p (.taken l n) := by
  refine ⟨hwalked, hleads, fun hslash hr => ?_⟩
  cases hr
  exact hdirectory hslash

theorem locate_of_isWalked (h : IsWalked p) :
    t.locate w p =
      match t.walk (if p.isAbsolute then [] else w) ((Path.pieces p.bytes).filter (· ≠ [])) with
      | .ok (.taken l n) =>
        if p.hasTrailingSlash && n ≠ .directory then .error .notADirectory else .ok (.taken l n)
      | r => r := by
  have hzero := mt List.contains_iff_mem.mp h.zero_notMem
  have hempty := mt List.isEmpty_iff.mp h.ne_nil
  have hlong := Nat.not_le.mpr h.length_lt
  exact (if_neg hzero).trans ((if_neg hempty).trans (if_neg hlong))

theorem isWalked_of_locate (h : t.locate w p = .ok r) : IsWalked p := by
  rw [locate] at h
  split at h
  · cases h
  · rename_i hzero
    split at h
    · cases h
    · rename_i hempty
      split at h
      · cases h
      · rename_i hlong
        exact ⟨mt List.contains_iff_mem.mpr hzero, mt List.isEmpty_iff.mpr hempty,
          Nat.not_le.mp hlong⟩

theorem locate_eq_ok_iff : t.locate w p = .ok r ↔ LeadsTo t w p r := by
  constructor
  · intro h
    have hwalked := isWalked_of_locate h
    rw [locate_of_isWalked hwalked] at h
    cases hwalk : t.walk _ _ with
    | error e =>
      rw [hwalk] at h
      cases h
    | ok place =>
      rw [hwalk] at h
      have hleads := walk_eq_ok_iff.mp hwalk
      cases place with
      | vacant l =>
        cases h
        exact ⟨hwalked, hleads, fun _ hr => nomatch hr⟩
      | taken l n =>
        dsimp only at h
        split at h
        · cases h
        · rename_i hok
          cases h
          exact .taken hwalked hleads fun hslash => by simpa [hslash] using hok
  · intro h
    rw [locate_of_isWalked h.isWalked, walk_eq_ok_iff.mpr h.leads]
    cases r with
    | vacant l => rfl
    | taken l n =>
      dsimp only
      rw [if_neg]
      intro hno
      obtain ⟨hslash, hn⟩ := Bool.and_eq_true_iff.mp hno
      exact of_decide_eq_true hn (h.directory hslash rfl)

theorem get?_of_locate_taken (h : t.locate w p = .ok (.taken k n)) : t.get? k = some n :=
  (locate_eq_ok_iff.mp h).leads.isOf

theorem get?_of_locate_vacant (h : t.locate w p = .ok (.vacant k)) : t.get? k = none ∧ k ≠ [] :=
  (locate_eq_ok_iff.mp h).leads.isOf

/-- A path leads to the same place in a tree that keeps what there was. -/
theorem locate_of_keeps (h : t.locate w p = .ok (.taken k n)) (hkeeps : Keeps t t')
    (hn : t'.get? k = some n') (hdirectory : p.hasTrailingSlash = true → n' = .directory) :
    t'.locate w p = .ok (.taken k n') := by
  have hleads := locate_eq_ok_iff.mp h
  exact locate_eq_ok_iff.mpr (.taken hleads.isWalked (hleads.leads.of_keeps hkeeps hn) hdirectory)

/-- A path that led to a vacant place leads to what was put there. -/
theorem locate_put (h : t.locate w p = .ok (.vacant k))
    (hdirectory : p.hasTrailingSlash = true → n = .directory) :
    (t.put k n).locate w p = .ok (.taken k n) := by
  have hleads := locate_eq_ok_iff.mp h
  exact locate_eq_ok_iff.mpr (.taken hleads.isWalked hleads.leads.put hdirectory)

theorem isFile_iff :
    t.isFile w p = true ↔ ∃ l n, t.locate w p = .ok (.taken l n) ∧ n.IsRegular := by
  rw [isFile]
  constructor
  · intro h
    split at h
    · rename_i l content hlocate
      exact ⟨l, .file content, hlocate, trivial⟩
    · rename_i l name hlocate
      exact ⟨l, .tool name, hlocate, trivial⟩
    · cases h
  · rintro ⟨l, n, hlocate, hn⟩
    rw [hlocate]
    cases n with
    | file _ | tool _ => rfl
    | directory | device _ => exact hn.elim

/-! ## Directories that were made -/

/-- A place is as it was, or was vacant and is a directory now that one of some paths leads to. -/
def Spared (w : Location) (paths : List Path) (t t' : FileTree) (l : Location) : Prop :=
  t'.get? l = t.get? l ∨
    t.get? l = none ∧ t'.get? l = some .directory ∧
      ∃ p ∈ paths, t'.locate w p = .ok (.taken l .directory)

theorem Spared.refl : Spared w paths t t l := .inl rfl

theorem Spared.mono {others : List Path} (h : Spared w paths t t' l) (hmem : paths ⊆ others) :
    Spared w others t t' l :=
  h.imp_right fun ⟨hvacant, hmade, p, hp, hlocate⟩ => ⟨hvacant, hmade, p, hmem hp, hlocate⟩

theorem Spared.trans (h : Spared w paths t t' l) (h' : Spared w paths t' t'' l)
    (hkeeps : Keeps t' t'') : Spared w paths t t'' l := by
  obtain hsame | ⟨hvacant, hmade, p, hp, hlocate⟩ := h
  · rw [Spared, ← hsame]
    exact h'
  · have hkept := hkeeps.directory hmade
    exact .inr ⟨hvacant, hkept, p, hp,
      locate_of_keeps hlocate hkeeps hkept fun _ => rfl⟩

/-- Where no directory is, none was made. -/
theorem Spared.get?_eq (h : Spared w paths t t' l) (hno : t'.get? l ≠ some .directory) :
    t.get? l = t'.get? l := by
  obtain hsame | ⟨-, hmade, -⟩ := h
  · exact hsame.symm
  · exact absurd hmade hno

/-- No regular file comes or goes where only directories are made. -/
theorem Spared.get?_eq_some_iff (h : Spared w paths t t' l) (hn : n.IsRegular) :
    t'.get? l = some n ↔ t.get? l = some n := by
  obtain hsame | ⟨hvacant, hmade, -⟩ := h
  · rw [hsame]
  · rw [hvacant, hmade]
    constructor
    · rintro ⟨⟩
      exact hn.elim
    · rintro ⟨⟩

theorem keeps_of_spared (h : ∀ l, Spared w paths t t' l) : Keeps t t' where
  directory {l} hl := by
    obtain hsame | ⟨hvacant, -⟩ := h l
    · rw [hsame, hl]
    · rw [hvacant] at hl
      cases hl
  isSome {l} hl := by
    obtain hsame | ⟨-, hmade, -⟩ := h l
    · rw [hsame]
      exact hl
    · exact Option.isSome_of_mem hmade

theorem spared_makeDirectory (h : t.makeDirectory w p = .ok t') (l : Location) :
    Spared w [p] t t' l := by
  rw [makeDirectory] at h
  split at h
  · cases h
  · cases h
  · rename_i k hlocate
    obtain ⟨-, rfl⟩ := unlessRefused_eq_ok_iff.mp h
    obtain ⟨hvacant, hk⟩ := get?_of_locate_vacant hlocate
    by_cases hl : l = k
    · subst hl
      exact .inr ⟨hvacant, get?_put_self t hk _, p, List.mem_singleton_self p,
        locate_put hlocate fun _ => rfl⟩
    · exact .inl (get?_put_of_ne t hk hl)

theorem spared_provideDirectory (l : Location) :
    Spared w [p] t (t.provideDirectory w p).2 l := by
  rw [provideDirectory]
  cases h : t.makeDirectory w p with
  | ok t' => exact spared_makeDirectory h l
  | error e => exact .refl

theorem spared_makeDirectoriesUpTo (i : Nat) (l : Location) :
    Spared w (p.ancestorsUpTo i) t (t.makeDirectoriesUpTo w i p).2 l := by
  induction i generalizing t p l with
  | zero => exact spared_provideDirectory l
  | succ i ih =>
    have hself (t : FileTree) : Spared w (p.ancestorsUpTo (i + 1)) t (t.provideDirectory w p).2 l :=
      (spared_provideDirectory l).mono fun q hq =>
        List.mem_singleton.mp hq ▸ p.mem_ancestorsUpTo (i + 1)
    rw [makeDirectoriesUpTo]
    split
    · exact .refl
    · split
      · rename_i q _ hparent
        have habove : q.ancestorsUpTo i ⊆ p.ancestorsUpTo (i + 1) := by
          rw [Path.ancestorsUpTo, hparent]
          exact List.subset_cons_self p _
        -- First the tree grows above the path, then at the path; no walk is lost by the second.
        have hq := (ih (t := t) (p := q) l).mono habove
        split
        · rename_i e t₁ hmade
          rwa [hmade] at hq
        · rename_i t₁ hmade
          rw [hmade] at hq
          exact hq.trans (hself t₁) (keeps_of_spared fun k => spared_provideDirectory k)
      · exact hself t

/-- No more is done by making a directory and those above it. -/
theorem spared_makeDirectories (l : Location) :
    Spared w p.ancestors t (t.makeDirectories w p).2 l :=
  spared_makeDirectoriesUpTo _ l

/-! ## Files that are written -/

/-- What is open for writing, and emptied if it holds something, and the tree after that. -/
inductive Opens (t : FileTree) (w : Location) (p : Path) : Opened × FileTree → Prop
  | device {l : Location} {d : Device} : t.locate w p = .ok (.taken l (.device d)) →
      Opens t w p (.device d, t)
  | file {l : Location} : l ≠ [] → (t.get? l = none ∨ ∃ old, t.get? l = some (.file old)) →
      (∀ content, (t.put l (.file content)).locate w p = .ok (.taken l (.file content))) →
      Opens t w p (.file l, t.put l (.file []))

theorem opens_of_openFile {r : Opened × FileTree} (h : t.openFile w p true = .ok r) :
    Opens t w p r := by
  rw [openFile] at h
  split at h
  · cases h
  · rename_i l hlocate
    obtain ⟨hvacant, hl⟩ := get?_of_locate_vacant hlocate
    split at h
    · cases h
    · rename_i hslash
      obtain ⟨-, rfl⟩ := unlessRefused_eq_ok_iff.mp h
      exact .file hl (.inl hvacant) fun _ => locate_put hlocate fun hslash' => absurd hslash' hslash
  · cases h
  · rename_i l old hlocate
    obtain ⟨-, rfl⟩ := unlessRefused_eq_ok_iff.mp h
    have hold := get?_of_locate_taken hlocate
    have hl : l ≠ [] := by
      rintro rfl
      cases hold
    refine .file hl (.inr ⟨old, hold⟩) fun content => ?_
    have hkeeps : Keeps t (t.put l (.file content)) := .put (by rw [hold]; exact nofun) hl
    refine locate_of_keeps hlocate hkeeps (get?_put_self t hl _) fun hslash => ?_
    cases (locate_eq_ok_iff.mp hlocate).directory hslash rfl
  · cases h
  · rename_i l d hlocate
    obtain ⟨-, rfl⟩ := unlessRefused_eq_ok_iff.mp h
    exact .device hlocate

/-- What is written to an open device is nowhere in the tree. -/
theorem write_of_device {d : Device} {bytes : Bytes}
    (h : t.openFile w p true = .ok (.device d, t')) :
    t.write w p bytes = ((Limit.fit d.limit? 0 bytes).1, t') := by
  rw [write, h]
  rfl

/-- What is written to an open file is in it, as far as it can hold that. -/
theorem write_of_file {bytes : Bytes} (hl : l ≠ [])
    (h : t.openFile w p true = .ok (.file l, t.put l (.file []))) :
    t.write w p bytes = ((Limit.fit (t.limit? l) 0 bytes).1,
      t.put l (.file (Limit.fit (t.limit? l) 0 bytes).2)) := by
  rw [write, h]
  dsimp only
  rw [append, get?_put_self t hl]
  dsimp only
  rw [put_put]
  rfl

end FileTree

end EngineBench
