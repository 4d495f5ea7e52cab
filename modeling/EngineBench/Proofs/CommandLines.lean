import EngineBench.CommandLine
import EngineBench.Proofs.ShellWords
import EngineBench.Proofs.Spawns

/-!
# The lines of the commands

The same two commands appear in three places: a dry run prints their lines, the summary of a run
records their lines, and the run executes them.

* `Journal.printed` are the texts that were printed; `CommandLine.dryRun_printed` says which ones a
  dry run prints.
* `Plan.Ran.records` says that the summary of a run has the lines of the commands of the run.
* `Plan.line_executed` puts them together, with the words that a line is cut into.
-/

namespace EngineBench

/-- The text that a deed prints. -/
def Deed.printed? : Deed → Option String
  | .printed text _ => some text
  | _ => none

/-- The texts that were to be printed, in their order. -/
def Journal.printed (j : Journal) : List String := j.filterMap fun e => e.deed.printed?

/-! ## What a dry run prints -/

namespace CommandLine

variable {σ : Type}

/-- The journal of a dry run. -/
def dryRunJournal (h : Host σ) (p : Plan) (c : Configuration) (s : σ) : Journal :=
  (dryRun h.journaled p c (s, [])).2.2

/-- A dry run prints the lines of the commands, until one cannot be printed. -/
theorem dryRun_printed (h : Host σ) (p : Plan) (c : Configuration) (s : σ) :
    (dryRunJournal h p c s).printed <+:
        [planned "server" (p.engineCommand c), planned "client" (p.clientCommand c)] ∧
      ((dryRun h p c s).1 = .ok .success → (dryRunJournal h p c s).printed =
        [planned "server" (p.engineCommand c), planned "client" (p.clientCommand c)]) := by
  have hprint (text : String) (s : σ) (j : Journal) : h.journaled.print text (s, j) =
      ((h.print text s).1, h.note j (.printed text (h.print text s).1) (h.print text s).2) := rfl
  simp only [dryRunJournal, dryRun, hprint]
  rcases h.print (planned "server" (p.engineCommand c)) s with ⟨_ | _, s₁⟩
  · simp [Host.note, Journal.printed, Host.entry, Deed.printed?]
  · simp only [Host.note]
    rcases h.print (planned "client" (p.clientCommand c)) s₁ with ⟨_ | _, s₂⟩
    · simp [Journal.printed, Host.entry, Deed.printed?]
    · simp [Journal.printed, Host.entry, Deed.printed?]

end CommandLine

/-! ## What a summary records -/

namespace Plan

/-- The summary of a run records the lines of the commands of the run. -/
theorem Ran.records {p : Plan} {c : Configuration} {j : Journal} {r : Except Halt Summary}
    {summary : Summary} (hran : p.Ran c j r) (hr : r = .ok summary) :
    summary.engineLine = (p.engineCommand c).line ∧
      summary.clientLine = (p.clientCommand c).line := by
  obtain ⟨began, hbegan⟩ := hran.beginning hr
  exact ⟨congrArg Summary.engineLine hbegan, congrArg Summary.clientLine hbegan⟩

/-! ## One command, three times -/

/-- What a dry run prints and what the summary of a run records are the lines of the commands that
the run executes, whatever the run is told by its token; and the line of a command is cut into the
program and the arguments, so that it tells commands apart. -/
theorem line_executed {σ : Type} (h : Host σ) (p : Plan) (t : Token) (c : Configuration)
    (probe : σ → ProbeResult × σ) (s : σ) :
    ((CommandLine.dryRunJournal h p c s).printed <+:
        [CommandLine.planned "server" (p.engineCommand c),
          CommandLine.planned "client" (p.clientCommand c)] ∧
      ((CommandLine.dryRun h p c s).1 = .ok .success →
        (CommandLine.dryRunJournal h p c s).printed =
          [CommandLine.planned "server" (p.engineCommand c),
            CommandLine.planned "client" (p.clientCommand c)])) ∧
      (∀ summary, (({ p with token := t } : Plan).run h c probe s).1 = .ok summary →
        summary.engineLine = (p.engineCommand c).line ∧
          summary.clientLine = (p.clientCommand c).line) ∧
      (({ p with token := t } : Plan).journal h c probe s).spawns <+:
        [(p.engineCommand c, .file p.log), (p.clientCommand c, .inherited)] ∧
      (∀ k : Command, Text.splitWords? k.line = some (k.program :: k.arguments)) ∧
      ∀ k k' : Command, k.line = k'.line →
        k.program = k'.program ∧ k.arguments = k'.arguments := by
  refine ⟨CommandLine.dryRun_printed h p c s, ?_, spawns_prefix h { p with token := t } c probe s,
    Command.splitWords?_line, fun _ _ => Command.line_inj⟩
  intro summary hr
  obtain ⟨-, hran⟩ := run_ran h { p with token := t } c probe s
  obtain ⟨hengine, hclient⟩ := hran.records hr
  exact ⟨hengine, hclient⟩

/-- On a stage a dry run prints the lines that the summary of the run records. -/
theorem line_executed_stage :
    ∃ summary,
      (Stage.plan.run Stage.host default Stage.cancellingProbe Stage.start).1 = .ok summary ∧
        (CommandLine.dryRun Stage.host Stage.plan default Stage.start).1 = .ok .success ∧
        (CommandLine.dryRunJournal Stage.host Stage.plan default Stage.start).printed =
          ["server: " ++ summary.engineLine ++ "\n", "client: " ++ summary.clientLine ++ "\n"] := by
  obtain ⟨summary, hr⟩ := Stage.run_isOk default
  obtain ⟨⟨-, hprinted⟩, hrecorded, -⟩ := line_executed Stage.host Stage.plan Stage.plan.token
    default Stage.cancellingProbe Stage.start
  obtain ⟨hengine, hclient⟩ := hrecorded summary hr
  refine ⟨summary, hr, rfl, ?_⟩
  rw [hprinted rfl, hengine, hclient]
  rfl

end Plan

end EngineBench
