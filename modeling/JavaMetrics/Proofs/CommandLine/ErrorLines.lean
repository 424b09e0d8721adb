import JavaMetrics.Proofs.CommandLine.Effects
import JavaMetrics.Proofs.Report.Verbatim

/-!
# How the command tells a fault

Three stages of the command can end with a fault: the settings are loaded, the
directory is analysed, the table is written. `Raises` says that one of them does, and
whichever it is, the command ends by printing the text of the fault as the message of
an error, with nothing printed as an error before (`run_eq_fail`).

The message goes into mark-up as it is. So the lines are those of the text only if the
text is `Verbatim`; else something of it is missing, or the command ends with a failure
that has nothing to do with the fault.
-/

namespace JavaMetrics.CommandLine

open Files (Tree Path)
open Metrics (Record)
open Settings (Config)

/-- Is the command called so that it goes as far as its settings? -/
structure Called (texts : List String) (arguments : Arguments) (source : Path) : Prop where
  parsed : parseArguments texts = some arguments
  help : arguments.help = false
  version : arguments.version = false
  one : (arguments.verbose && arguments.quiet) = false
  source_eq : arguments.source = some source

/-- Does a stage of the command end with this fault? -/
inductive Raises (world : World) (texts : List String) (fault : Fault) : Prop
  | loading {arguments : Arguments} {source : Path} (hcalled : Called texts arguments source)
      (hload : Settings.load world.tree world.environment arguments.config (overrides arguments)
        world.codecs = .error (.fault fault))
  | analysing {arguments : Arguments} {source output : Path} {config : Config}
      {logging : Log.Logging} {tree : Tree} (hcalled : Called texts arguments source)
      (hprepared : Prepared world arguments source config logging tree output)
      (hbegun : isQuiet config = true ∨ (banner source output { tree }).escaped = none)
      (hrun : (Analysis.runDirectory (world.setup config) tree source).result =
        .error (.fault fault))
  | writing {arguments : Arguments} {source output : Path} {config : Config}
      {logging : Log.Logging} {tree : Tree} {records : List Record}
      (hcalled : Called texts arguments source)
      (hprepared : Prepared world arguments source config logging tree output)
      (hbegun : isQuiet config = true ∨ (banner source output { tree }).escaped = none)
      (hrun : (Analysis.runDirectory (world.setup config) tree source).result =
        .ok records)
      (hwrite : (Report.write (layoutOf config) records output
        (loggedTree world config logging source tree)).2 = .error (.fault fault))

section

variable {world : World} {texts : List String} {fault : Fault}

theorem Called.run_eq {arguments : Arguments} {source : Path}
    (h : Called texts arguments source) (world : World) :
    run world texts = execute world arguments source := by
  rw [run, h.parsed]
  simp only [h.help, h.version, h.one, h.source_eq, Bool.false_eq_true, if_false]

/-- What comes before the table prints no errors. -/
theorem analyze_eq_exportRun {config : Config} {logging : Log.Logging} {source output : Path}
    {tree : Tree} (world : World)
    (hbegun : isQuiet config = true ∨ (banner source output { tree }).escaped = none) :
    ∃ before : Result, before.errors = [] ∧ before.escaped = none ∧
      before.tree = loggedTree world config logging source tree ∧
      analyze world config logging source output { tree } = exportRun config output
        (Analysis.runDirectory (world.setup config) tree source) before := by
  rw [analyze]
  cases hquiet : isQuiet config with
  | true => exact ⟨_, rfl, rfl, rfl, rfl⟩
  | false =>
      have hnone : (banner source output { tree }).escaped = none := by
        simpa [hquiet] using hbegun
      have htree : (banner source output { tree }).tree = tree := tree_banner _ _ _
      simp only [Bool.false_eq_true, if_false, hnone, htree]
      refine ⟨_, ?_, ?_, rfl, rfl⟩
      · simp [banner]
      · simpa using hnone

/-- Whatever stage a fault comes from, the command ends by printing it. -/
theorem run_eq_fail (h : Raises world texts fault) :
    ∃ before : Result, before.errors = [] ∧ before.escaped = none ∧
      run world texts = before.fail fault.text fault.exitCode := by
  cases h with
  | loading hcalled hload =>
      refine ⟨{ tree := world.tree }, rfl, rfl, ?_⟩
      rw [hcalled.run_eq, execute, hload]
      rfl
  | analysing hcalled hprepared hbegun hrun =>
      obtain ⟨before, herrors, hnone, -, heq⟩ := analyze_eq_exportRun world hbegun
      refine ⟨before, herrors, hnone, ?_⟩
      rw [hcalled.run_eq, hprepared.execute_eq, heq, exportRun, hrun]
      rfl
  | @writing _ source output config logging tree records hcalled hprepared hbegun hrun hwrite =>
      obtain ⟨before, herrors, hnone, htree, heq⟩ := analyze_eq_exportRun world hbegun
      obtain ⟨after, hafter⟩ : ∃ after, Report.write (layoutOf config) records output
          (loggedTree world config logging source tree) = (after, .error (.fault fault)) :=
        ⟨_, Prod.ext rfl hwrite⟩
      refine ⟨{ before with tree := after }, herrors, hnone, ?_⟩
      rw [hcalled.run_eq, hprepared.execute_eq, heq, exportRun, hrun]
      dsimp only
      rw [htree, hafter]
      rfl

/-- What is known of a command when a stage of it has ended with a fault. -/
structure FaultAccount (fault : Fault) (result : Result) : Prop where
  /-- The fault is told by what its text prints, which is a part of it, with blanks for tabs; or a tag in
  the text closes what is not open. -/
  told : (∃ shown : List Char, shown = Report.shownMessage fault.text.toList ∧
      shown.Sublist (' ' :: fault.text.toList) ∧
      result.errors = (Text.splitAt '\n' ("Error:".toList ++ shown)).map
        (fun line => String.ofList (Report.expandTabs 0 line)) ∧
      result.exitCode = fault.exitCode ∧ result.escaped = none) ∨
    ∃ tag position, result.errors = [] ∧ result.exitCode = 1 ∧
      result.escaped = some (.strayClosingTag tag position)
  /-- The fault is told by its text exactly if nothing in it has a meaning in mark-up or is lost when
  lines are printed. -/
  exact_iff : (result.errors = Text.lines ("Error: " ++ fault.text) ∧
      result.exitCode = fault.exitCode ∧ result.escaped = none) ↔ Report.Verbatim fault.text

theorem faultAccount_fail {before : Result} (herrors : before.errors = [])
    (hnone : before.escaped = none) :
    FaultAccount fault (before.fail fault.text fault.exitCode) := by
  rcases Report.plainText_error fault.text with hok | ⟨tag, position, herror⟩
  · have hfail : before.fail fault.text fault.exitCode = { before with
        errors := Report.unwrapped ("Error:".toList ++ Report.shownMessage fault.text.toList)
        exitCode := fault.exitCode } := by
      rw [Result.fail, hok, herrors]
      rfl
    rw [hfail]
    refine ⟨.inl ⟨_, rfl, Report.shownMessage_sublist _, rfl, rfl, hnone⟩, ?_⟩
    rw [← Report.unwrapped_error_eq_iff]
    exact ⟨fun h => h.1, fun h => ⟨h, rfl, hnone⟩⟩
  · have hfail : before.fail fault.text fault.exitCode = { before with
        escaped := some (.strayClosingTag tag position), exitCode := 1 } := by
      rw [Result.fail, herror]
    rw [hfail]
    refine ⟨.inr ⟨tag, position, herrors, rfl, rfl⟩, ?_, fun hverbatim => ?_⟩
    · rintro ⟨-, -, hescaped⟩
      cases hescaped
    · -- A text that is printed as it is has no tags to close anything.
      rw [hverbatim.plainText_error] at herror
      cases herror

end

/-- A quiet command over a directory that does not exist. -/
theorem raises_invalidPath {text : String} {source : Path}
    (hparsed : parseArguments ["-q", text] = some { source := some source, quiet := true })
    (hmissing : (Analysis.runDirectory { config := { verbosity := .text "quiet" } } {}
      source).result = .error (.fault (.invalidPath text "Source directory does not exist"))) :
    Raises {} ["-q", text] (.invalidPath text "Source directory does not exist") := by
  have hcalled : Called ["-q", text] { source := some source, quiet := true } source :=
    ⟨hparsed, rfl, rfl, rfl, rfl⟩
  have hprepared : Prepared {} { source := some source, quiet := true } source
      { verbosity := .text "quiet" } ⟨.error, none⟩ {} ⟨"", ["output", "metrics.csv"]⟩ :=
    ⟨rfl, rfl, rfl, "output/metrics.csv", rfl, rfl⟩
  exact .analysing hcalled hprepared (.inl rfl) hmissing

end JavaMetrics.CommandLine
