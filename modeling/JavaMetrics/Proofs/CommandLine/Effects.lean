import JavaMetrics.Proofs.Analysis.DirectoryRun
import JavaMetrics.Proofs.Report.Exports
import JavaMetrics.Proofs.Report.Wrapping
import JavaMetrics.Proofs.Settings.DeclaredTypes

/-!
# What the command does to files

The command has many ways to end, and `Ending` lists those that come after the
settings. Whatever happens before the table is written changes the log file and no
other, since the log file is the only one that is opened: `changesAt_setup` and
`changesAt_record`. Writing the table can fail as well, and then leaves at most new
folders behind.

If the command ends well, all its stages have, and the file of the table holds the
table of the records that the run has given. When all stages end well, so does the
command, if it can print what it has to: a path with a closing tag in it cannot be
printed, and a sum that is too large cannot be made. These records do not depend on who works
on the files, and the number of workers is a setting that nothing else reads:
`execute_of_other_workers`.
-/

namespace JavaMetrics.CommandLine

open Files (Tree Path)
open Files.Tree (ChangesAt)
open Metrics (Record)
open Settings (Config)

/-! ## The log file -/

/-- Is this the place of the log file? Its path is made absolute and loses its double dots before it is
followed. -/
def LogPlace (tree : Tree) (config : Config) (place : List String) : Prop :=
  ∃ name, config.logFile = .text name ∧ name ≠ "" ∧
    tree.Leads (tree.absolute (Path.ofText name)).collapse place

theorem fileOf_eq_ok {tree : Tree} {setting : Settings.Value} {path : Path}
    (h : Log.fileOf tree setting = .ok (some path)) :
    ∃ name, setting = .text name ∧ name ≠ "" ∧
      path = (tree.absolute (Path.ofText name)).collapse := by
  unfold Log.fileOf at h
  split at h
  · cases h
  · next hgiven =>
      cases setting with
      | text name =>
          cases h
          exact ⟨name, rfl, by simpa [Settings.Value.isTrue] using hgiven, rfl⟩
      | _ => cases h

theorem logPlace_of_leads {tree : Tree} {config : Config} {path : Path} {place : List String}
    (h : Log.fileOf tree config.logFile = .ok (some path)) (hleads : tree.Leads path place) :
    LogPlace tree config place := by
  obtain ⟨name, hsetting, hname, rfl⟩ := fileOf_eq_ok h
  exact ⟨name, hsetting, hname, hleads⟩

section

variable {config : Config} {logging : Log.Logging} {tree after : Tree} {verbosity : String}

theorem changesAt_setup (hgrounded : tree.Grounded)
    (h : Log.setup verbosity config.logFile tree = .ok (logging, after)) :
    ChangesAt (LogPlace tree config) tree after ∧
    ∀ path, logging.file = some path →
      Log.fileOf tree config.logFile = .ok (some path) ∧ ∃ place, tree.Leads path place := by
  rw [Log.setup] at h
  split at h
  · cases h
  · next level hlevel =>
      cases hfile : Log.fileOf tree config.logFile with
      | error failure =>
          rw [hfile] at h
          cases h
      | ok file =>
          rw [hfile] at h
          cases file with
          | none =>
              cases h
              exact ⟨.refl _ _, fun path hpath => nomatch hpath⟩
          | some path =>
              cases happend : tree.append path [] with
              | error failure =>
                  simp only [happend, Bind.bind, Except.bind] at h
                  cases h
              | ok made =>
                  simp only [happend, Bind.bind, Except.bind] at h
                  cases h
                  obtain ⟨hchanges, hleads⟩ := Tree.changesAt_update hgrounded happend
                  refine ⟨⟨hchanges.extends_tree, fun hplace => hchanges.kept fun hhit =>
                    hplace (logPlace_of_leads hfile hhit)⟩, ?_⟩
                  rintro other ⟨⟩
                  exact ⟨rfl, hleads⟩

theorem changesAt_record (hgrounded : tree.Grounded)
    (h : Log.setup verbosity config.logFile tree = .ok (logging, after)) (stamp : String)
    (events : List Log.Event) :
    ChangesAt (LogPlace tree config) tree (logging.record stamp events after) := by
  obtain ⟨hsetup, hfile⟩ := changesAt_setup hgrounded h
  refine hsetup.trans ?_
  rw [Log.Logging.record]
  split
  · exact .refl _ _
  · next path hpath =>
      obtain ⟨hsetting, hleads⟩ := hfile path hpath
      dsimp only
      generalize Text.Utf8.encode _ = bytes
      cases happend : after.append path bytes with
      | error failure => exact .refl _ _
      | ok written =>
          obtain ⟨hchanges, -⟩ :=
            Tree.changesAt_update (hsetup.extends_tree.grounded hgrounded) happend
          refine ⟨hchanges.extends_tree, fun hplace => hchanges.kept fun hhit => hplace ?_⟩
          exact logPlace_of_leads hsetting (hhit.of_extends hsetup.extends_tree hleads)

end

/-! ## What is printed -/

namespace Result

variable {result : Result}

@[simp] theorem tree_print (markup : String) : (result.print markup).tree = result.tree := by
  rw [print]
  split
  · rfl
  · split <;> rfl

@[simp] theorem tree_printLines (lines : List String) :
    (result.printLines lines).tree = result.tree := by
  rw [printLines]
  split <;> rfl

@[simp] theorem errors_print (markup : String) :
    (result.print markup).errors = result.errors := by
  rw [print]
  split
  · rfl
  · split <;> rfl

@[simp] theorem errors_printLines (lines : List String) :
    (result.printLines lines).errors = result.errors := by
  rw [printLines]
  split <;> rfl

@[simp] theorem escaped_printLines (lines : List String) :
    (result.printLines lines).escaped = result.escaped := by
  rw [printLines]
  split <;> rfl

@[simp] theorem tree_fail (message : String) (exitCode : Nat) :
    (result.fail message exitCode).tree = result.tree := by
  rw [fail]
  split <;> rfl

@[simp] theorem tree_failWith (failure : Failure) :
    (result.failWith failure).tree = result.tree := by
  unfold failWith
  split
  · exact tree_fail _ _
  · rfl

theorem exitCode_fail (message : String) : (result.fail message 1).exitCode = 1 := by
  rw [fail]
  split <;> rfl

@[simp] theorem exitCode_failWith (failure : Failure) :
    (result.failWith failure).exitCode = 1 := by
  unfold failWith
  split
  · exact exitCode_fail _
  · rfl

theorem exitCode_print (h : result.exitCode = 1) (markup : String) :
    (result.print markup).exitCode = 1 := by
  rw [print]
  split
  · exact h
  · split
    · exact h
    · rfl

/-- Has the command gone well so far, unless a failure has escaped? -/
def Fair (result : Result) : Prop :=
  (result.escaped = none ∧ result.exitCode = 0) ∨
    (result.escaped.isSome = true ∧ result.exitCode = 1)

theorem Fair.print (h : result.Fair) (markup : String) : (result.print markup).Fair := by
  rcases h with ⟨hnone, hcode⟩ | ⟨hsome, hcode⟩
  · rw [Result.print, hnone]
    dsimp only
    split
    · exact .inl ⟨rfl, hcode⟩
    · exact .inr ⟨rfl, rfl⟩
  · obtain ⟨failure, hfailure⟩ := Option.isSome_iff_exists.mp hsome
    rw [Result.print, hfailure]
    exact .inr ⟨hsome, hcode⟩

theorem Fair.printLines (h : result.Fair) (lines : List String) :
    (result.printLines lines).Fair := by
  rw [Result.printLines]
  split
  · exact h
  · exact h

theorem Fair.exitCode_iff (h : result.Fair) : result.exitCode = 0 ↔ result.escaped = none := by
  rcases h with ⟨hnone, hcode⟩ | ⟨hsome, hcode⟩
  · simp [hnone, hcode]
  · obtain ⟨failure, hfailure⟩ := Option.isSome_iff_exists.mp hsome
    simp [hfailure, hcode]

/-- A text is printed unless a failure has escaped before or the mark-up in it is no good. -/
theorem escaped_print_iff (markup : String) : (result.print markup).escaped = none ↔
    result.escaped = none ∧ ∃ text, Report.plainText markup = .ok text := by
  rw [print]
  split
  · next failure hfailure => simp [hfailure]
  · next hnone =>
      cases hplain : Report.plainText markup with
      | ok text => simp [hnone]
      | error failure => simp

/-- What is printed when nothing has escaped. -/
theorem output_print {markup : String} (hbefore : result.escaped = none)
    (h : (result.print markup).escaped = none) :
    ∃ text, Report.plainText markup = .ok text ∧
      (result.print markup).output = result.output ++ Report.wrap text := by
  rw [Result.print, hbefore] at h ⊢
  dsimp only at h ⊢
  cases hplain : Report.plainText markup with
  | ok text => exact ⟨text, rfl, rfl⟩
  | error failure =>
      rw [hplain] at h
      cases h

theorem output_prefix_print (markup : String) : result.output <+: (result.print markup).output := by
  rw [Result.print]
  split
  · exact List.prefix_rfl
  · split
    · exact List.prefix_append _ _
    · exact List.prefix_rfl

theorem output_prefix_printLines (lines : List String) :
    result.output <+: (result.printLines lines).output := by
  rw [Result.printLines]
  split
  · exact List.prefix_rfl
  · exact List.prefix_append _ _

end Result

theorem tree_banner (source output : Path) (result : Result) :
    (banner source output result).tree = result.tree := by
  simp [banner]

/-- Can the paths be printed before the run? -/
structure Announced (source output : Path) : Prop where
  source : ∃ text, Report.plainText s!"Source directory: {source.text}" = .ok text
  output : ∃ text, Report.plainText s!"Output file: {output.text}" = .ok text

theorem escaped_banner_iff {source output : Path} {result : Result}
    (h : result.escaped = none) :
    (banner source output result).escaped = none ↔ Announced source output := by
  have htitle : ∃ text, Report.plainText "[bold cyan]PROMISE METRICS[/bold cyan]" = .ok text :=
    ⟨_, rfl⟩
  rw [banner, Result.escaped_printLines, Result.escaped_print_iff, Result.escaped_print_iff,
    Result.escaped_print_iff]
  constructor
  · intro hall
    exact ⟨hall.1.2, hall.2⟩
  · intro hannounced
    exact ⟨⟨⟨h, htitle⟩, hannounced.source⟩, hannounced.output⟩

theorem fair_banner {result : Result} (h : result.Fair) (source output : Path) :
    (banner source output result).Fair :=
  (((h.print _).print _).print _).printLines _

section

variable {result : Result} {written : Nat} {output : Path} {records : List Record}
  {counters : Report.Counters}

theorem tree_closing : (closing written output records counters result).tree = result.tree := by
  rw [closing]
  split
  · exact Result.tree_print _
  · simp
  · simp

/-- Can all be printed that comes after the table? -/
structure Summed (output : Path) (records : List Record) : Prop where
  exported : ∃ text, Report.plainText
    s!"Exported {records.length} class metrics to: {output.text}" = .ok text
  summary : ∃ figures, Report.summarize records = .ok figures

theorem exitCode_closing_iff (hnone : result.escaped = none) (hcode : result.exitCode = 0) :
    (closing records.length output records counters result).exitCode = 0 ↔
      Summed output records := by
  have hfair := Result.Fair.print (.inl ⟨hnone, hcode⟩)
    s!"Exported {records.length} class metrics to: {output.text}"
  have hprinted := @Result.escaped_print_iff result
    s!"Exported {records.length} class metrics to: {output.text}"
  have hdone : ∃ text, Report.plainText
      "[green]Metrics calculation completed successfully![/green]" = .ok text :=
    ⟨_, rfl⟩
  rw [closing]
  split
  · next failure _ hescaped =>
      -- the message about the table cannot be printed
      rw [hfair.exitCode_iff]
      constructor
      · intro h
        rw [hescaped] at h
        cases h
      · intro h
        exact hprinted.mpr ⟨hnone, h.exported⟩
  · next failure _ hsummary =>
      rw [Result.exitCode_failWith]
      constructor
      · intro h
        cases h
      · intro h
        obtain ⟨figures, hfigures⟩ := h.summary
        rw [hsummary] at hfigures
        cases hfigures
  · next figures hescaped hsummary =>
      rw [((hfair.printLines _).print _).exitCode_iff, Result.escaped_print_iff,
        Result.escaped_printLines]
      constructor
      · intro h
        exact ⟨(hprinted.mp h.1).2, figures, hsummary⟩
      · intro _
        exact ⟨hescaped, hdone⟩

/-- Is it told how many records there are? In any case all characters but blanks are printed, and unless
the number is enormous there is a line that begins with it. -/
def Tells (count : Nat) (printed : List String) : Prop :=
  ∃ before told after, printed = before ++ told ++ after ∧
    Report.ink s!"Exported {count} class metrics to:".toList <+:
      told.flatMap (fun line => Report.ink line.toList) ∧
    (count < 10 ^ 50 → ∃ first more, told = first :: more ∧
      s!"Exported {count} class metrics to:".toList <+: first.toList)

/-- If all goes well, the number of records is printed. -/
theorem tells_closing (hbefore : result.escaped = none)
    (h : (closing written output records counters result).exitCode = 0)
    (hfair : result.Fair) :
    Tells written (closing written output records counters result).output := by
  have hprinted := hfair.print s!"Exported {written} class metrics to: {output.text}"
  rw [closing] at h ⊢
  split at h
  · next hescaped =>
      rw [hprinted.exitCode_iff, hescaped] at h
      cases h
  · rw [Result.exitCode_failWith] at h
    cases h
  · next figures hescaped _ =>
      obtain ⟨text, hplain, houtput⟩ := Result.output_print hbefore hescaped
      obtain ⟨after, hafter⟩ := (Result.output_prefix_printLines
        (Report.summaryLines figures counters ++ [""])).trans (Result.output_prefix_print
          "[green]Metrics calculation completed successfully![/green]")
      exact ⟨result.output, Report.wrap text, after, by rw [← hafter, houtput],
        Report.ink_exported hplain, Report.exported_line hplain⟩

end

/-! ## The ways in which the command ends -/

/-- The tree after the events of a run over a directory have been logged. -/
def loggedTree (world : World) (config : Config) (logging : Log.Logging) (source : Path)
    (tree : Tree) : Tree :=
  logging.record world.stamp
    (Analysis.runDirectory (world.setup config) tree source).events tree

/-- How a command can end once its settings are known. -/
inductive Ending (world : World) (config : Config) (logging : Log.Logging) (source output : Path)
    (tree : Tree) (final : Result) : Prop
  /-- It cannot print what comes before the run. -/
  | stopped (hloud : config.verbosity ≠ .text "quiet") (hstops : ¬Announced source output)
      (hcode : final.exitCode = 1) (htree : final.tree = tree)
  | unanalysed {failure : Failure}
      (hrun : (Analysis.runDirectory (world.setup config) tree source).result =
        .error failure)
      (hcode : final.exitCode = 1)
      (htree : final.tree = loggedTree world config logging source tree)
  | unwritten {records : List Record} {failure : Failure}
      (hrun : (Analysis.runDirectory (world.setup config) tree source).result =
        .ok records)
      (hwrite : Report.write (layoutOf config) records output
        (loggedTree world config logging source tree) = (final.tree, .error failure))
      (hcode : final.exitCode = 1)
  | written {records : List Record} {count : Nat}
      (hrun : (Analysis.runDirectory (world.setup config) tree source).result =
        .ok records)
      (hwrite : Report.write (layoutOf config) records output
        (loggedTree world config logging source tree) = (final.tree, .ok count))
      (hbegun : config.verbosity = .text "quiet" ∨ Announced source output)
      (hcode : final.exitCode = 0 ↔ config.verbosity = .text "quiet" ∨ Summed output records)
      (hprinted : final.exitCode = 0 → config.verbosity = .text "quiet" ∨
        Tells records.length final.output)

theorem isQuiet_iff {config : Config} :
    isQuiet config = true ↔ config.verbosity = .text "quiet" := by
  rw [isQuiet]
  split
  · next word hword => simp [hword]
  · next hother =>
      refine ⟨nofun, fun hquiet => ?_⟩
      exact absurd hquiet (hother "quiet")

theorem ending_exportRun {world : World} {config : Config} {logging : Log.Logging}
    {source output : Path} {tree : Tree} {result : Result}
    (hgrounded : result.tree.Grounded)
    (htree : result.tree = loggedTree world config logging source tree)
    (hbegun : config.verbosity = .text "quiet" ∨ Announced source output)
    (hnone : result.escaped = none) (hcode : result.exitCode = 0) :
    Ending world config logging source output tree (exportRun config output
      (Analysis.runDirectory (world.setup config) tree source) result) := by
  rw [exportRun]
  cases hrun : (Analysis.runDirectory (world.setup config) tree source).result with
  | error failure =>
      exact .unanalysed hrun (Result.exitCode_failWith _) ((Result.tree_failWith _).trans htree)
  | ok records =>
      dsimp only
      rw [htree]
      generalize hwrite : Report.write (layoutOf config) records output
        (loggedTree world config logging source tree) = written
      obtain ⟨after, failure | count⟩ := written
      · dsimp only
        exact .unwritten hrun (hwrite.trans (by rw [Result.tree_failWith]))
          (Result.exitCode_failWith _)
      · dsimp only
        split
        · next hquiet =>
            have hquiet := isQuiet_iff.mp hquiet
            exact .written hrun hwrite hbegun (by simp [hquiet, hcode]) fun _ => .inl hquiet
        · next hloud =>
            have hloud := mt isQuiet_iff.mpr hloud
            have hfair : Result.Fair { result with tree := after } := .inl ⟨hnone, hcode⟩
            obtain ⟨rfl, -⟩ := Report.write_eq_ok (htree ▸ hgrounded) hwrite
            refine .written hrun (hwrite.trans (by rw [tree_closing])) hbegun ?_ fun hzero => .inr ?_
            · rw [or_iff_right hloud]
              exact exitCode_closing_iff hnone hcode
            · exact tells_closing hnone hzero hfair

theorem ending_analyze (world : World) (config : Config) (logging : Log.Logging)
    (source output : Path) {result : Result} (hnone : result.escaped = none)
    (hcode : result.exitCode = 0) (hgrounded : (loggedTree world config logging source
      result.tree).Grounded) :
    Ending world config logging source output result.tree
      (analyze world config logging source output result) := by
  have hfresh : result.Fair := .inl ⟨hnone, hcode⟩
  rw [analyze]
  generalize hstarted : (if isQuiet config = true then result else banner source output result) =
    started
  obtain ⟨htree, hfair, hbegun⟩ : started.tree = result.tree ∧ started.Fair ∧
      (started.escaped = none ↔ config.verbosity = .text "quiet" ∨ Announced source output) := by
    rw [← hstarted, ← isQuiet_iff]
    split
    · next hquiet => exact ⟨rfl, hfresh, by simp [hnone, hquiet]⟩
    · next hloud =>
        refine ⟨tree_banner _ _ _, fair_banner hfresh _ _, ?_⟩
        rw [or_iff_right hloud, escaped_banner_iff hnone]
  rw [← htree] at hgrounded ⊢
  dsimp only
  rcases hfair with ⟨hnone, hcode⟩ | ⟨hsome, hcode⟩
  · rw [hnone]
    dsimp only
    refine ending_exportRun ?_ rfl (hbegun.mp hnone) ?_ ?_
    · split
      · exact hgrounded
      · exact hgrounded
    · split
      · exact hnone
      · simp [Result.printLines, hnone]
    · split
      · exact hcode
      · simp [Result.printLines, hnone, hcode]
  · obtain ⟨failure, hfailure⟩ := Option.isSome_iff_exists.mp hsome
    have hstopped := mt hbegun.mpr (by simp [hfailure])
    rw [not_or] at hstopped
    rw [hfailure]
    exact .stopped hstopped.1 hstopped.2 hcode rfl

theorem pathOf_eq_ok_iff {value : Settings.Value} {output : Path} :
    pathOf value = .ok output ↔ ∃ name, value = .text name ∧ output = Path.ofText name := by
  cases value with
  | text name => simp [pathOf, eq_comm]
  | _ => simp [pathOf]

/-- What is settled before a directory is analysed: where it is, what the settings are, where events
go and what the tree is then, and where the table goes. -/
structure Prepared (world : World) (arguments : Arguments) (source : Path) (config : Config)
    (logging : Log.Logging) (tree : Tree) (output : Path) : Prop where
  source_eq : arguments.source = some source
  loaded : Settings.load world.tree world.environment arguments.config (overrides arguments)
    world.codecs = .ok config
  logged : Log.setup config.verbosity.plain config.logFile world.tree = .ok (logging, tree)
  output_eq : ∃ name, config.outputFile = .text name ∧ output = Path.ofText name

section

variable {world : World} {arguments : Arguments} {texts : List String} {source output : Path}
  {config : Config} {logging : Log.Logging} {tree : Tree}

theorem run_cases (world : World) (hparse : parseArguments texts = some arguments)
    (hhelp : arguments.help = false) (hversion : arguments.version = false) :
    ((run world texts).exitCode = 1 ∧ (run world texts).tree = world.tree ∧
      ((arguments.verbose && arguments.quiet) = true ∨ arguments.source = none)) ∨
    ∃ source, arguments.source = some source ∧
      run world texts = execute world arguments source := by
  rw [run, hparse]
  simp only [hhelp, hversion, Bool.false_eq_true, if_false]
  split
  · next hboth => exact .inl ⟨Result.exitCode_fail _, Result.tree_fail _ _, .inl hboth⟩
  · cases hsource : arguments.source with
    | none =>
        exact .inl ⟨Result.exitCode_print (Result.exitCode_fail _) _, by simp, .inr rfl⟩
    | some source => exact .inr ⟨source, rfl, rfl⟩

theorem Prepared.execute_eq (h : Prepared world arguments source config logging tree output) :
    execute world arguments source = analyze world config logging source output { tree } := by
  rw [execute, h.loaded]
  dsimp only
  rw [h.logged]
  dsimp only
  rw [pathOf_eq_ok_iff.mpr h.output_eq]

theorem ending_execute (hgrounded : world.tree.Grounded)
    (h : Prepared world arguments source config logging tree output) :
    Ending world config logging source output tree (execute world arguments source) := by
  rw [h.execute_eq]
  have hnone : Result.escaped { tree } = none := rfl
  have hlogged := (changesAt_record hgrounded h.logged world.stamp
    (Analysis.runDirectory (world.setup config) tree source).events).extends_tree
  exact ending_analyze world config logging source output hnone rfl (hlogged.grounded hgrounded)

theorem exists_prepared (hsource : arguments.source = some source)
    (h : (execute world arguments source).exitCode = 0) :
    ∃ config logging tree output,
      Prepared world arguments source config logging tree output := by
  rw [execute] at h
  split at h
  · rw [Result.exitCode_failWith] at h
    cases h
  · next config hload =>
      split at h
      · rw [Result.exitCode_failWith] at h
        cases h
      · next logging tree hsetup =>
          dsimp only at h
          split at h
          · rw [Result.exitCode_failWith] at h
            cases h
          · next output houtput =>
              exact ⟨config, logging, tree, output, hsource, hload, hsetup,
                pathOf_eq_ok_iff.mp houtput⟩

theorem one_le_length_of_runDirectory {setup : Analysis.Setup} {records : List Record}
    (h : (Analysis.runDirectory setup tree source).result = .ok records) : 1 ≤ records.length := by
  rw [Analysis.runDirectory] at h
  split at h
  · cases h
  · dsimp only [Analysis.requireRecords] at h
    split at h
    · next hne =>
        cases h
        exact List.length_pos_iff.mpr (by simpa using hne)
    · split at h <;> cases h

/-! ## The number of workers -/

theorem config_of_other_workers {workers : Option Int} {other : Config}
    (h : Settings.load world.tree world.environment arguments.config (overrides arguments)
      world.codecs = .ok config)
    (h' : Settings.load world.tree world.environment arguments.config
      (overrides { arguments with workers }) world.codecs = .ok other) :
    other = { config with workers := other.workers } := by
  have hhand := (@Settings.load_eq_ok_iff (.ofCommand world arguments) config).mp h
  have hhand' := (@Settings.load_eq_ok_iff (.ofCommand world { arguments with workers }) other).mp h'
  obtain ⟨project, explicit, hreadable, rfl⟩ :=
    hhand.1.readable (Settings.nodup_overrides arguments)
  obtain ⟨project', explicit', hreadable', rfl⟩ :=
    hhand'.1.readable (Settings.nodup_overrides _)
  have hproject : Settings.projectLayer world.tree = .ok project :=
    Settings.projectLayer_eq hreadable
  have hproject' : Settings.projectLayer world.tree = .ok project' :=
    Settings.projectLayer_eq hreadable'
  have hexplicit : Settings.explicitLayer world.tree arguments.config = .ok explicit :=
    Settings.explicitLayer_eq hreadable
  have hexplicit' : Settings.explicitLayer world.tree arguments.config = .ok explicit' :=
    Settings.explicitLayer_eq hreadable'
  obtain rfl := Except.ok.inj (hproject.symm.trans hproject')
  obtain rfl := Except.ok.inj (hexplicit.symm.trans hexplicit')
  rfl

/-- The number of workers makes no difference if it is accepted at all. -/
theorem execute_of_other_workers {workers : Option Int} {other : Config}
    (h : Settings.load world.tree world.environment arguments.config (overrides arguments)
      world.codecs = .ok config)
    (h' : Settings.load world.tree world.environment arguments.config
      (overrides { arguments with workers }) world.codecs = .ok other) :
    execute world { arguments with workers } source = execute world arguments source := by
  rw [execute, execute, h, h', config_of_other_workers h h']
  rfl

end

/-! ## What the command leaves behind -/

/-- What is known of a command when it has ended. -/
structure CommandAccount (world : World) (arguments : Arguments) (result : Result) : Prop where
  /-- A fault of the settings changes nothing. -/
  unsettled : ∀ fault,
    Settings.load world.tree world.environment arguments.config (overrides arguments)
      world.codecs = .error (.fault fault) →
    result.exitCode = 1 ∧ result.tree = world.tree
  /-- A directory that cannot be analysed, or has no types in it, changes the log file only. -/
  unanalysed : ∀ source config logging tree output,
    Prepared world arguments source config logging tree output → ∀ fault,
    (Analysis.runDirectory (world.setup config) tree source).result =
      .error (.fault fault) →
    result.exitCode = 1 ∧
    ∀ place, ¬LogPlace world.tree config place →
      result.tree.contentAt place = world.tree.contentAt place
  /-- A table that cannot be written changes the log file only, and there may be new folders. -/
  unwritten : ∀ source config logging tree output,
    Prepared world arguments source config logging tree output → ∀ records fault,
    (Analysis.runDirectory (world.setup config) tree source).result = .ok records →
    (Report.write (if config.fullFormat.isTrue then .full else .short) records output
      (loggedTree world config logging source tree)).2 = .error (.fault fault) →
    result.exitCode = 1 ∧
    ∀ place, ¬LogPlace world.tree config place →
      result.tree.contentAt place = world.tree.contentAt place ∨
      (world.tree.contentAt place = none ∧ result.tree.contentAt place = some .folder ∧
        ∃ above, above <+: output.parent.names ∧ result.tree.Leads ⟨output.root, above⟩ place)
  /-- A command that has records and can write them ends well, if it is quiet or can print all that it
  has to. -/
  completed : ∀ source config logging tree output,
    Prepared world arguments source config logging tree output →
    (arguments.verbose && arguments.quiet) = false → ∀ records count,
    (Analysis.runDirectory (world.setup config) tree source).result = .ok records →
    (Report.write (if config.fullFormat.isTrue then .full else .short) records output
      (loggedTree world config logging source tree)).2 = .ok count →
    (result.exitCode = 0 ↔ config.verbosity = .text "quiet" ∨
      Announced source output ∧ Summed output records)
  /-- If the command ends well, the file holds the table of the records of the run, with all columns if
  they were asked for and else the measured ones. The number that is printed is that of the records,
  and nothing of it depends on the number of workers. -/
  written : result.exitCode = 0 → ∃ source config logging tree output records,
    Prepared world arguments source config logging tree output ∧
    (Analysis.runDirectory (world.setup config) tree source).result = .ok records ∧
    1 ≤ records.length ∧
    result.tree.read output = .ok (Text.Utf8.encode
      (Report.format (if config.fullFormat.isTrue then .full else .short) records).toList) ∧
    (config.verbosity = .text "quiet" ∨ Tells records.length result.output) ∧
    (∀ workers schedule pool outcome,
      Analysis.DirectoryRun.looking.run (world.setup config) tree source workers
        schedule = some (.ended pool outcome) → outcome.result = .ok records) ∧
    (∀ workers texts, parseArguments texts = some { arguments with workers } →
      (run world texts).exitCode = 0 →
      (run world texts).tree.read output = result.tree.read output)

section

variable {world : World} {arguments : Arguments} {texts : List String} {source output : Path}
  {config : Config} {logging : Log.Logging} {tree : Tree}

theorem contentAt_of_unanalysed (hgrounded : world.tree.Grounded)
    (h : Prepared world arguments source config logging tree output) {final : Result}
    (hending : Ending world config logging source output tree final) {failure : Failure}
    (hrun : (Analysis.runDirectory (world.setup config) tree source).result =
      .error failure) :
    final.exitCode = 1 ∧ ∀ place, ¬LogPlace world.tree config place →
      final.tree.contentAt place = world.tree.contentAt place := by
  cases hending with
  | stopped _ _ hcode htree =>
      refine ⟨hcode, fun place hplace => ?_⟩
      rw [htree]
      exact (changesAt_setup hgrounded h.logged).1.kept hplace
  | unanalysed _ hcode htree =>
      refine ⟨hcode, fun place hplace => ?_⟩
      rw [htree]
      exact (changesAt_record hgrounded h.logged _ _).kept hplace
  | unwritten hok =>
      rw [hok] at hrun
      cases hrun
  | written hok =>
      rw [hok] at hrun
      cases hrun

theorem contentAt_of_unwritten (hgrounded : world.tree.Grounded)
    (h : Prepared world arguments source config logging tree output) {final : Result}
    (hending : Ending world config logging source output tree final) {records : List Record}
    {failure : Failure}
    (hrun : (Analysis.runDirectory (world.setup config) tree source).result =
      .ok records)
    (hwrite : (Report.write (layoutOf config) records output
      (loggedTree world config logging source tree)).2 = .error failure) :
    final.exitCode = 1 ∧ ∀ place, ¬LogPlace world.tree config place →
      final.tree.contentAt place = world.tree.contentAt place ∨
      (world.tree.contentAt place = none ∧ final.tree.contentAt place = some .folder ∧
        ∃ above, above <+: output.parent.names ∧ final.tree.Leads ⟨output.root, above⟩ place) := by
  have hchanges := changesAt_record hgrounded h.logged world.stamp
    (Analysis.runDirectory (world.setup config) tree source).events
  cases hending with
  | stopped _ _ hcode htree =>
      refine ⟨hcode, fun place hplace => .inl ?_⟩
      rw [htree]
      exact (changesAt_setup hgrounded h.logged).1.kept hplace
  | unanalysed herror =>
      rw [herror] at hrun
      cases hrun
  | unwritten hok hfail hcode =>
      rw [hok] at hrun
      cases hrun
      have hgrows := Report.write_eq_error (hchanges.extends_tree.grounded hgrounded) hfail
      refine ⟨hcode, fun place hplace => ?_⟩
      rw [← hchanges.kept hplace]
      cases hbefore : (loggedTree world config logging source tree).contentAt place with
      | some stored => exact .inl ((hgrows.kept hbefore).trans hbefore.symm)
      | none =>
          rcases hgrows.added hbefore with hnone | ⟨hfolder, above, habove, hresolve⟩
          · exact .inl (hnone.trans hbefore.symm)
          · exact .inr ⟨hbefore, hfolder, above, habove, _, hresolve, rfl⟩
  | written hok hwritten =>
      rw [hok] at hrun
      cases hrun
      rw [hwritten] at hwrite
      cases hwrite

theorem exitCode_of_written {final : Result}
    (hending : Ending world config logging source output tree final) {records : List Record}
    {count : Nat}
    (hrun : (Analysis.runDirectory (world.setup config) tree source).result = .ok records)
    (hwrite : (Report.write (layoutOf config) records output
      (loggedTree world config logging source tree)).2 = .ok count) :
    final.exitCode = 0 ↔ config.verbosity = .text "quiet" ∨
      Announced source output ∧ Summed output records := by
  cases hending with
  | stopped hloud hstops hcode => simp [hloud, hstops, hcode]
  | unanalysed herror =>
      rw [herror] at hrun
      cases hrun
  | unwritten hok hfail =>
      rw [hok] at hrun
      cases hrun
      rw [hfail] at hwrite
      cases hwrite
  | written hok _ hbegun hcode =>
      rw [hok] at hrun
      cases hrun
      rw [hcode]
      rcases hbegun with hquiet | hannounced
      · simp [hquiet]
      · simp [hannounced]

theorem written_of_exitCode_zero (hgrounded : world.tree.Grounded)
    (h : Prepared world arguments source config logging tree output)
    (hzero : (execute world arguments source).exitCode = 0) :
    ∃ records,
      (Analysis.runDirectory (world.setup config) tree source).result = .ok records ∧
      (execute world arguments source).tree.read output =
        .ok (Report.tableBytes (layoutOf config) records) ∧
      (config.verbosity = .text "quiet" ∨
        Tells records.length (execute world arguments source).output) := by
  have hchanges := changesAt_record hgrounded h.logged world.stamp
    (Analysis.runDirectory (world.setup config) tree source).events
  cases ending_execute hgrounded h with
  | stopped _ _ hcode => omega
  | unanalysed _ hcode => omega
  | unwritten _ _ hcode => omega
  | written hrun hwrite _ _ hprinted =>
      have hread := Report.read_of_write (hchanges.extends_tree.grounded hgrounded) hwrite
      exact ⟨_, hrun, hread, hprinted hzero⟩

/-- Faults leave every file but the log file as it was, and a command that ends well has written the
table of the records of its run. -/
theorem command_leaves_files_intact (world : World) (texts : List String) (arguments : Arguments)
    (hparse : parseArguments texts = some arguments) (hhelp : arguments.help = false)
    (hversion : arguments.version = false) (hgrounded : world.tree.Grounded) :
    CommandAccount world arguments (run world texts) where
  unsettled fault hload := by
    rcases run_cases world hparse hhelp hversion with ⟨hcode, htree, -⟩ | ⟨source, -, hrun⟩
    · exact ⟨hcode, htree⟩
    · rw [hrun, execute, hload]
      exact ⟨Result.exitCode_failWith _, Result.tree_failWith _⟩
  unanalysed source config logging tree output hprepared fault hfault := by
    rcases run_cases world hparse hhelp hversion with ⟨hcode, htree, -⟩ | ⟨source', hsource, hrun⟩
    · exact ⟨hcode, fun place _ => by rw [htree]⟩
    · obtain rfl := Option.some.inj (hprepared.source_eq.symm.trans hsource)
      rw [hrun]
      exact contentAt_of_unanalysed hgrounded hprepared (ending_execute hgrounded hprepared) hfault
  unwritten source config logging tree output hprepared records fault hrecords hfault := by
    rcases run_cases world hparse hhelp hversion with ⟨hcode, htree, -⟩ | ⟨source', hsource, hrun⟩
    · exact ⟨hcode, fun place _ => .inl (by rw [htree])⟩
    · obtain rfl := Option.some.inj (hprepared.source_eq.symm.trans hsource)
      rw [hrun]
      exact contentAt_of_unwritten hgrounded hprepared (ending_execute hgrounded hprepared)
        hrecords hfault
  completed source config logging tree output hprepared hone records count hrecords hcount := by
    rcases run_cases world hparse hhelp hversion with
      ⟨-, -, hboth | hmissing⟩ | ⟨source', hsource, hrun⟩
    · rw [hone] at hboth
      cases hboth
    · rw [hprepared.source_eq] at hmissing
      cases hmissing
    · obtain rfl := Option.some.inj (hprepared.source_eq.symm.trans hsource)
      rw [hrun]
      exact exitCode_of_written (ending_execute hgrounded hprepared) hrecords hcount
  written hzero := by
    rcases run_cases world hparse hhelp hversion with ⟨hcode, -⟩ | ⟨source, hsource, hrun⟩
    · omega
    · rw [hrun] at hzero ⊢
      obtain ⟨config, logging, tree, output, hprepared⟩ := exists_prepared hsource hzero
      obtain ⟨records, hrecords, hread, hprinted⟩ :=
        written_of_exitCode_zero hgrounded hprepared hzero
      refine ⟨source, config, logging, tree, output, records, hprepared, hrecords,
        one_le_length_of_runDirectory hrecords, hread, hprinted, ?_, ?_⟩
      · intro workers schedule pool outcome hended
        have hlooking : Analysis.DirectoryRun.looking.Sound (world.setup config) tree source :=
          trivial
        have hsound := Analysis.DirectoryRun.run_sound hlooking hended
        exact (Analysis.DirectoryRun.outcome_eq_runDirectory hsound).1.trans hrecords
      · intro workers texts' hparse' hzero'
        rcases run_cases world hparse' hhelp hversion with ⟨hcode, -⟩ | ⟨source', hsource', hrun'⟩
        · omega
        · obtain rfl := Option.some.inj (hsource.symm.trans hsource')
          rw [hrun'] at hzero' ⊢
          obtain ⟨other, _, _, _, hother⟩ := exists_prepared hsource' hzero'
          rw [execute_of_other_workers hprepared.loaded hother.loaded]

end

/-- The table of an earlier run, and nothing to analyse. -/
def earlierTable : World where
  tree := { top := [("out.csv", .file [0x61])] }

/-- A directory that does not exist is refused before the table of an earlier run is opened. -/
theorem earlier_table_survives :
    (run earlierTable ["-q", "src", "out.csv"]).exitCode = 1 ∧
      (run earlierTable ["-q", "src", "out.csv"]).tree.contentAt ["out.csv"] =
        some (.file [0x61]) := by
  let arguments : Arguments :=
    { source := some ⟨"", ["src"]⟩, output := some ⟨"", ["out.csv"]⟩, quiet := true }
  let config : Settings.Config := { outputFile := .text "out.csv", verbosity := .text "quiet" }
  have haccount := command_leaves_files_intact earlierTable ["-q", "src", "out.csv"] arguments rfl
    rfl rfl rfl
  have hprepared : Prepared earlierTable arguments ⟨"", ["src"]⟩ config ⟨.error, none⟩
      earlierTable.tree ⟨"", ["out.csv"]⟩ := ⟨rfl, rfl, rfl, "out.csv", rfl, rfl⟩
  obtain ⟨hcode, hkept⟩ := haccount.unanalysed _ _ _ _ _ hprepared (.invalidPath _ _) rfl
  refine ⟨hcode, hkept ["out.csv"] ?_⟩
  rintro ⟨name, hname, -⟩
  cases hname

end JavaMetrics.CommandLine
