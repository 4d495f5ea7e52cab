import EngineBench.Machine.Host
import EngineBench.Proofs.FileTrees
import EngineBench.Proofs.ReportText

/-!
# A failed report leaves the old one alone

What a report is written to is opened last, after the directories above it are made and its text is
there. So as long as nothing is open, an earlier report is as it was. Only what goes wrong while the
text is written can cost it, and then nothing but the file that the path leads to is touched.

* `Report.made` is the tree in which the file is opened; up to it only directories are made.
* `Report.Refused` are the reasons for which nothing is opened.
* `Report.write_spares` says what a machine's files are after a report was written, or was not.
* `Report.write_null_lost`: a report that is written to the null device is nowhere.
-/

namespace EngineBench.Report

open FileTree (Spared)

variable {p : Path} {summary : Summary} {m : Machine} {text : String}

/-- The paths of the directories that a report is in, the deepest first. -/
def above (p : Path) : List Path := p.parent?.elim [] Path.ancestors

/-- The files when the directories above a report have been made, as far as that was possible. -/
def made (p : Path) (m : Machine) : FileTree := (Machine.host.makeParent p m).2.files

theorem makeParent_state (p : Path) (m : Machine) :
    (Machine.host.makeParent p m).2 = { m with files := made p m } := by
  rw [made, Host.makeParent]
  cases p.parent? with
  | none => rfl
  | some d =>
    dsimp only
    split <;> rfl

/-- At first nothing but directories are made. -/
theorem spared_made (p : Path) (m : Machine) (l : Location) :
    Spared m.directory (above p) m.files (made p m) l := by
  rw [made, Host.makeParent, above]
  cases p.parent? with
  | none => exact .refl
  | some d =>
    dsimp only
    split
    · exact .refl
    · exact FileTree.spared_makeDirectories l

/-- A text that was made is not empty. -/
theorem encode_text?_ne_nil (h : text? summary = some text) : Text.encode text ≠ [] := by
  intro hnil
  obtain ⟨j, hj, -⟩ := Option.map_eq_some_iff.mp h
  have hjson := json_of_text? h
  have hnothing : Json.read? "" = none := by decide
  rw [Text.encode_eq_nil_iff.mp hnil, hj, hnothing] at hjson
  cases hjson

/-- Why nothing is opened for a report. -/
inductive Refused (p : Path) (summary : Summary) (m : Machine) : ReportError → Prop
  | parent {e : OsError} : (Machine.host.makeParent p m).1 = .error e → Refused p summary m (.file e)
  | unwritable : summary.toJson? = none → Refused p summary m .pathNotText
  | target {e : OsError} : (made p m).openFile m.directory p true = .error e →
      Refused p summary m (.file e)

/-- With its directories made and its text there, a report is a file that is written. -/
theorem write_of_text? (hparent : (Machine.host.makeParent p m).1 = .ok ())
    (htext : text? summary = some text) :
    write Machine.host p summary m =
      (((made p m).write m.directory p (Text.encode text)).1.mapError .file,
        { m with files := ((made p m).write m.directory p (Text.encode text)).2 }) := by
  have hstate := makeParent_state p m
  rw [write]
  rcases hmade : Machine.host.makeParent p m with ⟨_ | _, m'⟩
  · rw [hmade] at hparent
    cases hparent
  · rw [hmade] at hstate
    obtain rfl := hstate
    simp only [htext]
    rfl

theorem text?_eq_none_iff : text? summary = none ↔ summary.toJson? = none := Option.map_eq_none_iff

/-- For the first reason that there is, a report is not written, and nothing is opened. -/
theorem write_of_refused {e : ReportError} (h : Refused p summary m e) :
    ∃ e', Refused p summary m e' ∧
      write Machine.host p summary m = (.error e', { m with files := made p m }) := by
  have hstate := makeParent_state p m
  rcases hmade : Machine.host.makeParent p m with ⟨e' | _, m'⟩
  · rw [hmade] at hstate
    obtain rfl := hstate
    refine ⟨.file e', .parent (congrArg Prod.fst hmade), ?_⟩
    rw [write, hmade]
  · have hparent : (Machine.host.makeParent p m).1 = .ok () := congrArg Prod.fst hmade
    rw [hmade] at hstate
    obtain rfl := hstate
    cases htext : text? summary with
    | none =>
      refine ⟨.pathNotText, .unwritable (text?_eq_none_iff.mp htext), ?_⟩
      rw [write, hmade]
      simp only [htext]
    | some text =>
      cases h with
      | parent h =>
        rw [hparent] at h
        cases h
      | unwritable h =>
        rw [text?_eq_none_iff.mpr h] at htext
        cases htext
      | @target e h =>
        refine ⟨.file e, .target h, ?_⟩
        rw [write_of_text? hparent htext, FileTree.write, h]
        rfl

/-- If there is no reason against it, the file is opened, and the text goes there. -/
theorem write_of_not_refused (h : ∀ e, ¬ Refused p summary m e) :
    ∃ text r, text? summary = some text ∧ (made p m).openFile m.directory p true = .ok r ∧
      write Machine.host p summary m =
        (((made p m).write m.directory p (Text.encode text)).1.mapError .file,
          { m with files := ((made p m).write m.directory p (Text.encode text)).2 }) := by
  have hparent : (Machine.host.makeParent p m).1 = .ok () := by
    cases hparent : (Machine.host.makeParent p m).1 with
    | error e => exact absurd (.parent hparent) (h (.file e))
    | ok _ => rfl
  obtain ⟨text, htext⟩ : ∃ text, text? summary = some text := by
    cases htext : text? summary with
    | none => exact absurd (.unwritable (text?_eq_none_iff.mp htext)) (h .pathNotText)
    | some text => exact ⟨text, rfl⟩
  cases hopen : (made p m).openFile m.directory p true with
  | error e => exact absurd (.target hopen) (h (.file e))
  | ok r => exact ⟨text, r, htext, rfl, write_of_text? hparent htext⟩

theorem mapError_eq_ok_iff {r : Except OsError Unit} :
    r.mapError ReportError.file = .ok () ↔ r = .ok () := by
  cases r with
  | error e => exact iff_of_false nofun nofun
  | ok _ => exact iff_of_true rfl rfl

/-- If there is a reason not to open the file of a report, the writing fails for one, and no regular
file comes, goes or changes; at most directories above its path are made. Otherwise the path leads
to a file or to something that is no store. In such a thing nothing is kept, and again no regular
file changes. A file that the path leads to, or that was made there, holds the whole text if the
writing succeeds, and the beginning of it if not; all else is as before up to those directories. -/
theorem write_spares (p : Path) (summary : Summary) (m : Machine) :
    ∃ t, (write Machine.host p summary m).2 = { m with files := t } ∧
      ((∃ e, Refused p summary m e) →
        (∃ e, (write Machine.host p summary m).1 = .error e ∧ Refused p summary m e) ∧
          (∀ l, Spared m.directory (above p) m.files t l) ∧
          ∀ l n, n.IsRegular → (t.get? l = some n ↔ m.files.get? l = some n)) ∧
      ((∀ e, ¬ Refused p summary m e) →
        ∃ text j, text? summary = some text ∧ summary.toJson? = some j ∧
          Json.read? text = some j ∧
          ((∃ l d, t.locate m.directory p = .ok (.taken l (.device d)) ∧
              (∀ k, Spared m.directory (above p) m.files t k) ∧
              ∀ k n, n.IsRegular → (t.get? k = some n ↔ m.files.get? k = some n)) ∨
            ∃ l kept, t.locate m.directory p = .ok (.taken l (.file kept)) ∧
              (m.files.get? l = none ∨ ∃ old, m.files.get? l = some (.file old)) ∧
              (∀ k, k ≠ l → Spared m.directory (above p) m.files t k) ∧
              kept <+: Text.encode text ∧
              ((write Machine.host p summary m).1 = .ok () ↔ kept = Text.encode text))) := by
  have hspared := spared_made p m
  have hregular (l : Location) (n : Node) (hn : n.IsRegular) := (hspared l).get?_eq_some_iff hn
  by_cases hrefused : ∃ e, Refused p summary m e
  · obtain ⟨e, h⟩ := hrefused
    obtain ⟨e', he', hwrite⟩ := write_of_refused h
    rw [hwrite]
    exact ⟨made p m, rfl, fun _ => ⟨⟨e', rfl, he'⟩, hspared, hregular⟩, fun hno => absurd h (hno e)⟩
  · have hno : ∀ e, ¬ Refused p summary m e := not_exists.mp hrefused
    obtain ⟨text, r, htext, hopen, hwrite⟩ := write_of_not_refused hno
    obtain ⟨j, hj, -⟩ := Option.map_eq_some_iff.mp htext
    have hread := (json_of_text? htext).trans hj
    rw [hwrite]
    refine ⟨_, rfl, fun h => absurd h hrefused, fun _ => ⟨text, j, htext, hj, hread, ?_⟩⟩
    cases FileTree.opens_of_openFile hopen with
    | @device l d hlocate =>
      rw [FileTree.write_of_device hopen]
      exact .inl ⟨l, d, hlocate, hspared, hregular⟩
    | @file l hl hold hlocate =>
      have hfile : (made p m).get? l ≠ some .directory := by
        obtain h | ⟨old, h⟩ := hold <;> rw [h] <;> exact nofun
      rw [FileTree.write_of_file hl hopen]
      refine .inr ⟨l, _, hlocate _, ?_, fun k hk => ?_, Limit.fit_prefix _ _ _,
        mapError_eq_ok_iff.trans Limit.fit_eq_ok_iff⟩
      · rw [(hspared l).get?_eq hfile]
        exact hold
      · exact (hspared k).trans (.inl (FileTree.get?_put_of_ne _ hl hk)) (.put hfile hl)

/-- A report that was written to the null device is not kept: nothing has changed, and what is read
from there is not the report. -/
theorem write_null_lost :
    ∃ text, text? (Sample.summary Sample.short) = some text ∧
      write Machine.host (.ofString "/dev/null") (Sample.summary Sample.short) Machine.fresh =
        (.ok (), Machine.fresh) ∧
      Machine.host.readFile (.ofString "/dev/null") Machine.fresh ≠ .ok (Text.encode text) := by
  obtain ⟨text, htext⟩ := Sample.exists_text Sample.short
  have hmade : Machine.host.makeParent (.ofString "/dev/null") Machine.fresh =
      (.ok (), Machine.fresh) := rfl
  have hwritten : Machine.host.writeFile (.ofString "/dev/null") (Text.encode text) Machine.fresh =
      (.ok (), Machine.fresh) := rfl
  have hread : Machine.host.readFile (.ofString "/dev/null") Machine.fresh = .ok [] := rfl
  refine ⟨text, htext, ?_, ?_⟩
  · rw [write, hmade]
    simp only [htext, hwritten]
    rfl
  · rw [hread]
    intro h
    exact encode_text?_ne_nil htext (Except.ok.inj h).symm

end EngineBench.Report
