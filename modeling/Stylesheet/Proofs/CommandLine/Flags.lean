import Stylesheet.CommandLine
import Stylesheet.Proofs.Compilation.Context
import Stylesheet.Proofs.Storage.Register

/-!
# The flags of the command line

A flag changes what it names and nothing else. Without diagnostics on standard error a run ends as
it does with them, and context, which no output shows, makes no difference at all.
-/

namespace Stylesheet

variable {σ : Type}

/-- A path cannot be loaded, or its text is compiled, and which of them does not depend on who
compiles it. -/
theorem Database.compilePath_cases (db : Database) (disk : Disk) (path : List UInt8) :
    (∃ error, ∀ (σ : Type) (options : CompileOptions σ) (host : σ),
      db.compilePath options disk path host = ((.error error, host), db)) ∨
      ∃ db' url source, ∀ (σ : Type) (options : CompileOptions σ) (host : σ),
        db.compilePath options disk path host = (compile options url source host, db') := by
  cases hinput : db.input disk path with
  | error error =>
    refine .inl ⟨error, fun σ options host => ?_⟩
    rw [compilePath, hinput]
  | ok loaded =>
    obtain ⟨file, db'⟩ := loaded
    let source := (db'.source? file).getD ⟨none, ""⟩
    refine .inr ⟨db', source.url, source.text, fun σ options host => ?_⟩
    rw [compilePath, hinput]
    rfl

namespace CommandLine

/-! ## Options of the command -/

/-- The options that come of the flags. -/
def flagged (quiet context : Bool) : CompileOptions String where
  logger := if quiet then .silent else {}
  fallback := standardError
  includeContext := context

theorem options_eq (flags : List Flag) :
    options flags = flagged (flags.contains .quiet) (flags.contains .context) := rfl

/-- A diagnostic is dropped, or its text goes to the end of standard error. -/
theorem deliver_flagged (quiet context : Bool) (diagnostic : Diagnostic) (stderr : String) :
    (flagged quiet context).dispatcher.deliver diagnostic stderr =
      .ok () (if quiet then stderr else stderr ++ diagnostic.render) := by
  cases quiet <;> cases diagnostic <;> rfl

/-- Steps come to their end and leave the text of what they report on standard error, unless the
command is to be quiet. -/
theorem runAll_flagged (quiet context : Bool) (url : Option Url) (source : String)
    (steps : List Step) (stderr : String) :
    Step.runAll ((flagged quiet context).setting url source) steps stderr =
      .ok () (if quiet then stderr
        else stderr ++ String.join ((Step.reported steps).map Diagnostic.render)) := by
  let setting := (flagged quiet context).setting url source
  let told (taken : List Diagnostic) (stderr' : String) : Prop :=
    stderr' = if quiet then stderr else stderr ++ String.join (taken.map Diagnostic.render)
  have htakes (taken : List Diagnostic) (diagnostic : Diagnostic) (stderr' : String)
      (htold : told taken stderr') :
      ∃ next, setting.deliver diagnostic stderr' = .ok () next ∧
        told (taken ++ [diagnostic]) next := by
    have hdeliver : setting.dispatch diagnostic stderr' =
        .ok () (if quiet then stderr' else stderr' ++ diagnostic.render) :=
      deliver_flagged quiet context diagnostic stderr'
    refine ⟨_, by rw [Setting.deliver, EStateM.adaptExcept, hdeliver], ?_⟩
    cases quiet <;> simp_all [told, String.append_assoc]
  obtain ⟨_, hrun, rfl⟩ := Step.exists_runAll (fun _ => rfl) (fun _ _ => id) htakes steps [] stderr
    (by simp [told])
  exact hrun

/-- No sink of the command looks at context. -/
theorem flagged_ignoresContext (quiet context : Bool) :
    (flagged quiet context).IgnoresContext Eq where
  isCancelled_eq _ := rfl
  meanwhile := id
  deliver {stderr stderr'} diagnostic hsame := by
    subst hsame
    rw [deliver_flagged, deliver_flagged, diagnostic.render_mapSpan Span.toString_withoutContext]
    exact ⟨rfl, rfl⟩

/-! ## Outcomes -/

/-- What the command says of a failure. -/
def complaint : Except CompileError String → String
  | .ok _ => ""
  | .error error => s!"Error: {error.message}\n"

/-- How a run ends after a compilation that left something on standard error. -/
def ending (result : Except CompileError String) (stderr : String) : Outcome where
  code := if result.isOk then 0 else 1
  stdout := result.toOption.getD ""
  stderr := stderr ++ complaint result

theorem compileFile_eq (invocation : Invocation) (disk : Disk) :
    compileFile invocation disk =
      let run := (({} : Database).compilePath (options invocation.flags) disk invocation.file "").1
      ending run.1 run.2 := by
  rw [compileFile]
  generalize (({} : Database).compilePath (options invocation.flags) disk
    invocation.file "").1 = run
  obtain ⟨result, stderr⟩ := run
  cases result with
  | ok css => simp [ending, complaint, Except.isOk, Except.toBool, Except.toOption]
  | error error => rfl

theorem ending_mapError {f : CompileError → CompileError}
    (hf : ∀ error, (f error).message = error.message) (result : Except CompileError String)
    (stderr : String) : ending (result.mapError f) stderr = ending result stderr := by
  cases result with
  | ok css => rfl
  | error error =>
    have hcomplaint : complaint (.error (f error)) = complaint (.error error) := by
      rw [complaint, complaint, hf]
    simp only [ending, Except.mapError, hcomplaint]
    rfl

/-- With context a compilation ends as it does without. -/
theorem ending_compile_context (quiet : Bool) (url : Option Url) (source : String) :
    let asking := compile (flagged quiet true) url source ""
    let leaving := compile (flagged quiet false) url source ""
    ending asking.1 asking.2 = ending leaving.1 leaving.2 := by
  let options := flagged quiet false
  have hwatching := ((options.withContext true).watching_watched url source).of_withContext
  have hwatching' := ((options.withContext false).watching_watched url source).of_withContext
  obtain ⟨hresult, hhosts⟩ := (flagged_ignoresContext quiet false).compile_eq (fun _ => rfl)
    hwatching hwatching' rfl rfl (t := ⟨"", [], []⟩) ⟨rfl, rfl, rfl⟩
  intro asking leaving
  have hasking : asking = _ := compile_watched (options.withContext true) url source ⟨"", [], []⟩
  have hleaving : leaving = _ := compile_watched (options.withContext false) url source ⟨"", [], []⟩
  have hmessage (error : CompileError) :
      (error.mapSpan Span.withoutContext).message = error.message :=
    error.message_mapSpan Span.toString_withoutContext
  rw [hasking, hleaving, hresult, ending_mapError hmessage, hhosts.host]

theorem plain_neverFails : (flagged false false).NeverFails where
  logger := ⟨fun _ h => by contradiction, fun _ h => by contradiction⟩
  fallback := fun _ _ => ⟨_, rfl⟩

/-- Watched, the plain command takes every diagnostic. -/
theorem records_plain (url : Option Url) (source : String) :
    ((flagged false false).watched.setting url source).Records
      (Logger.sink ({} : Logger String)) fun _ => [] :=
  (flagged false false).records_watched plain_neverFails url source

/-- The diagnostics of a compilation, which are the same with and without an interest in them. -/
theorem compile_flagged (url : Option Url) (source : String) :
    let plain := compile (flagged false false).watched url source ⟨"", [], []⟩
    ∀ quiet, compile (flagged quiet false) url source "" =
      (plain.1, if quiet then "" else String.join (plain.2.diagnostics.map Diagnostic.render)) := by
  intro plain quiet
  obtain ⟨script, -, hscript⟩ := exists_script url source false
  obtain ⟨stderr, hplain⟩ :=
    Script.outcome_of_records (records_plain url source) (fun _ => rfl) script ""
  rw [← hscript.compile_eq _ rfl] at hplain
  have hdiagnostics : plain.2.diagnostics = Step.reported script.steps := by
    rw [show plain = _ from hplain]
    simp [Transcript.diagnostics, Function.comp_def]
  rw [hscript.compile_eq _ rfl,
    Script.outcome_of_runAll_ok (runAll_flagged quiet false url source _ ""),
    show plain.1 = script.result from congrArg Prod.fst hplain, hdiagnostics]
  cases quiet <;> simp

/-! ## Runs -/

/-- The command is asked to compile a file, to be quiet or not, and to give context or not. It is
not asked for more output. -/
def Asks (arguments : List (List UInt8)) (file : List UInt8) (quiet context : Bool) : Prop :=
  ∃ rest flags, arguments = Text.Utf8.encode "compile" :: rest ∧
    parseCommand [] [] rest = some ⟨file, flags⟩ ∧ flags.contains .quiet = quiet ∧
    flags.contains .context = context ∧ flags.contains .verbose = false

/-- How any run ends can be told from the compilation of the plain command, watched. -/
theorem execute_eq {arguments : List (List UInt8)} {file : List UInt8} {quiet context : Bool}
    (h : Asks arguments file quiet context) (disk : Disk) :
    let plain := (({} : Database).compilePath (options []).watched disk file ⟨"", [], []⟩).1
    execute arguments disk = ending plain.1
      (if quiet then "" else String.join (plain.2.diagnostics.map Diagnostic.render)) := by
  obtain ⟨rest, flags, rfl, hparse, rfl, rfl, -⟩ := h
  have hrun : execute (Text.Utf8.encode "compile" :: rest) disk =
      compileFile ⟨file, flags⟩ disk := by
    rw [execute, parse, if_pos rfl, hparse]
  have hplain : options [] = flagged false false := rfl
  rw [hrun, compileFile_eq, hplain]
  dsimp only
  rw [options_eq flags]
  obtain ⟨error, hpath⟩ | ⟨db, url, source, hpath⟩ :=
    ({} : Database).compilePath_cases disk file
  · simp [hpath, Transcript.diagnostics]
  · have hcompile := compile_flagged url source (flags.contains .quiet)
    simp only [hpath]
    cases flags.contains .context with
    | false => rw [hcompile]
    | true => rw [ending_compile_context, hcompile]

theorem parseCommand_flags {text : String} {flags more : List Flag} (hends : text ≠ "--")
    (hmarked : isFlags (Text.Utf8.encode text) = true) (hmore : flagsOfText? text = some more)
    (hnodup : (flags ++ more).Nodup) (files rest : List (List UInt8)) :
    parseCommand flags files (Text.Utf8.encode text :: rest) =
      parseCommand (flags ++ more) files rest := by
  have hends : Text.Utf8.encode text ≠ Text.Utf8.encode "--" := Text.Utf8.encode_injective.ne hends
  have hmore : flags? (Text.Utf8.encode text) = some more := by
    rw [flags?, Text.Utf8.decode?_encode, Option.bind_some, hmore]
  simp only [parseCommand, if_neg hends, hmarked, if_true, hmore, addFlags?, if_pos hnodup, bind,
    Option.bind]

/-- Arguments that ask for a file, whatever its name looks like. -/
def arguments (file : List UInt8) (quiet context : Bool) : List (List UInt8) :=
  (["compile"] ++ (if quiet then ["-q"] else []) ++ (if context then ["--context"] else []) ++
    ["--"]).map Text.Utf8.encode ++ [file]

theorem asks_arguments {file : List UInt8} (h : file ≠ []) (quiet context : Bool) :
    Asks (arguments file quiet context) file quiet context := by
  have hend (flags : List Flag) :
      parseCommand flags [] [Text.Utf8.encode "--", file] = some ⟨file, flags⟩ := by
    simp [parseCommand, invocation?, h]
  have hquiet (rest : List (List UInt8)) :
      parseCommand [] [] (Text.Utf8.encode "-q" :: rest) = parseCommand [.quiet] [] rest :=
    parseCommand_flags (by decide) (by decide +kernel) (by decide) (by decide) _ _
  have hcontext (flags : List Flag) (hnodup : (flags ++ [Flag.context]).Nodup)
      (rest : List (List UInt8)) : parseCommand flags [] (Text.Utf8.encode "--context" :: rest) =
        parseCommand (flags ++ [.context]) [] rest :=
    parseCommand_flags (by decide) (by decide +kernel) (by decide) hnodup _ _
  cases quiet <;> cases context
  · exact ⟨_, _, rfl, hend [], rfl, rfl, rfl⟩
  · exact ⟨_, _, rfl, (hcontext [] (by decide) _).trans (hend _), rfl, rfl, rfl⟩
  · exact ⟨_, _, rfl, (hquiet _).trans (hend _), rfl, rfl, rfl⟩
  · exact ⟨_, _, rfl, ((hquiet _).trans (hcontext _ (by decide) _)).trans (hend _), rfl, rfl, rfl⟩

/-- The four ways to ask for a file differ in nothing but diagnostics. To be quiet is to leave these
away, from in front of the complaint that a failure ends with; context makes no difference; and the
style sheet is put out as a whole or, if anything fails, not at all. -/
theorem flags_change_what_they_name {arguments : Bool → Bool → List (List UInt8)}
    {file : List UInt8} (h : ∀ quiet context, Asks (arguments quiet context) file quiet context)
    (disk : Disk) :
    let outcome quiet context := execute (arguments quiet context) disk
    let plain := (({} : Database).compilePath (options []).watched disk file ⟨"", [], []⟩).1
    (∀ context, (outcome true context).code = (outcome false context).code ∧
      (outcome true context).stdout = (outcome false context).stdout ∧
      (outcome true context).stderr = complaint plain.1 ∧
      (outcome false context).stderr =
        String.join (plain.2.diagnostics.map Diagnostic.render) ++ complaint plain.1) ∧
    (∀ quiet, outcome quiet true = outcome quiet false) ∧
    ∀ quiet context, match plain.1 with
      | .ok css => (outcome quiet context).code = 0 ∧ (outcome quiet context).stdout = css
      | .error _ => (outcome quiet context).code = 1 ∧ (outcome quiet context).stdout = "" := by
  intro outcome plain
  have hrun (quiet context : Bool) : outcome quiet context = ending plain.1
      (if quiet then "" else String.join (plain.2.diagnostics.map Diagnostic.render)) :=
    execute_eq (h quiet context) disk
  refine ⟨fun context => ?_, fun quiet => ?_, fun quiet context => ?_⟩
  · rw [hrun, hrun]
    exact ⟨rfl, rfl, by simp [ending], rfl⟩
  · rw [hrun, hrun]
  · rw [hrun]
    cases plain.1 with
    | ok css => exact ⟨rfl, rfl⟩
    | error error => exact ⟨rfl, rfl⟩

/-- A file with one message, under a name that is not text. -/
theorem flags_change_what_they_name_debug :
    let disk : Disk := ⟨.ok, fun _ => .ok (Text.Utf8.encode "@debug #;")⟩
    let outcome quiet context := execute (arguments [0xFF] quiet context) disk
    (∀ quiet context, Asks (arguments [0xFF] quiet context) [0xFF] quiet context) ∧
      (outcome true false).code = (outcome false false).code ∧ (outcome false false).code = 0 ∧
      (outcome true false).stderr = "" ∧
      (∃ url, Url.ofPath [0xFF] = .ok url ∧
        (outcome false false).stderr = url.text ++ " 1:1 DEBUG: #\n") ∧
      outcome false true = outcome false false := by
  intro disk outcome
  have hasks (quiet context : Bool) : Asks (arguments [0xFF] quiet context) [0xFF] quiet context :=
    asks_arguments (by decide) quiet context
  obtain ⟨hquiet, hcontext, hends⟩ := flags_change_what_they_name hasks disk
  obtain ⟨url, hurl, -⟩ := Url.exists_ofPath [0xFF]
  have hread : Database.readText disk [0xFF] = .ok "@debug #;" := by
    simp [Database.readText, disk, bind, Except.bind, Text.Utf8.decode?_encode, pure, Except.pure]
  have hpath : (({} : Database).compilePath (options []).watched disk [0xFF] ⟨"", [], []⟩).1 =
      compile (options []).watched (some url) "@debug #;" ⟨"", [], []⟩ := by
    rw [Database.compilePath, Database.input_eq,
      Database.load_of_unregistered rfl hurl rfl hread]
    rfl
  let message := (Message.hash (some url) false).diagnostic
  obtain ⟨stderr, hdeliver⟩ := (records_plain (some url) "@debug #;").deliver message ⟨"", [], []⟩
  have hplain : compile (options []).watched (some url) "@debug #;" ⟨"", [], []⟩ =
      (.ok "", ⟨stderr, [(.fallback, message)], []⟩) := compile_debug_hash (fun _ => rfl) hdeliver
  rw [hpath, hplain] at hquiet hends
  obtain ⟨hcode, -, hsilent, hloud⟩ := hquiet false
  refine ⟨hasks, hcode, (hends false false).1, hsilent, ⟨url, hurl, ?_⟩, hcontext false⟩
  have hspan : toString (Message.hash (some url) false).span = url.text ++ " " ++ "1:1" := by
    have hstart : toString Location.origin = "1:1" := by decide
    rw [← hstart]
    rfl
  have hrender : message.render = url.text ++ " 1:1 DEBUG: #\n" := by
    simp only [message, Message.diagnostic, Diagnostic.render, hspan]
    simp only [toString, String.append_assoc]
    rfl
  rw [hloud, ← hrender]
  simp [Transcript.diagnostics, complaint]

end CommandLine

end Stylesheet
