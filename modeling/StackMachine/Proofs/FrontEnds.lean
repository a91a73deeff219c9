import Mathlib
import StackMachine.Proofs.Encoding
import StackMachine.Proofs.MessageTexts
import StackMachine.Proofs.SequentialRuns
import StackMachine.Service.Route

/-!
# All front ends judge and execute a source alike

A source can be validated and executed through the service, and checked and run from a file. All four
go through the assembler, and the two that execute it through a machine with nothing else in it. So
they agree on whether a source is valid, on what is wrong with it, and on what it does.

* **`Service.answer_validateRequest`**, **`Service.answer_executeRequest`**: what requests come to.
* **`Command.commandLine_of_file`**: what a command for one file comes to.
* **`FrontEnds.Escape`**, **`FrontEnds.Reject`**, **`FrontEnds.Accept`**: the three ways in which the
  front ends agree.
* **`front_ends_agree`**: the headline.
-/

namespace StackMachine

/-! ## Requests -/

namespace Service

/-- The request to validate a source. -/
def validateRequest (source : String) : Request :=
  ⟨Route.validate.method, Route.validate.path, some (.object [("source", .string source)])⟩

/-- The request to execute a source with a step budget and without a limit on slices. -/
def executeRequest (source : String) (budget : Nat) : Request :=
  ⟨Route.execute.method, Route.execute.path,
    some (.object [("source", .string source), ("step_budget", .nat budget)])⟩

theorem withBody_object {α : Type} {fields : List (String × Json)}
    {read : Json → Except (List Problem) α} {a : α} (h : read (.object fields) = .ok a)
    (action : α → Except TooManyDigits Response) :
    withBody (some (.object fields)) read action = action a := by
  rw [withBody, requireObject, show Except.ok (Json.object fields) >>= read = .ok a from h]

/-- A request with a source in its body is read as that source. The body has the one field that is
asked for, so nothing of it is refused. -/
theorem answer_validateRequest (source : String) :
    answer (validateRequest source) = validate source := by
  have hsource : readSourceOnly (.object [("source", .string source)]) = .ok source := rfl
  exact withBody_object hsource validate

/-- The same for execution. A positive budget is taken as it is, and slices are not limited unless
that is asked for. -/
theorem answer_executeRequest (source : String) {budget : Nat} (h : 0 < budget) :
    answer (executeRequest source budget) = execute ⟨source, .withBudget budget h⟩ := by
  let body : Json := .object [("source", .string source), ("step_budget", .nat budget)]
  have hsource : readSource body = .ok source := rfl
  have hbudget : readStepBudget body = .ok ⟨budget, h⟩ := by
    show readPositive (.nat budget) = _
    simp [readPositive, readInt, Json.nat, h]
  have hslices : readMaxSlices body = .ok none := rfl
  have hjob : readJob body = .ok ⟨source, .withBudget budget h⟩ := by
    simp only [readJob, hsource, hbudget, hslices]
    rfl
  exact withBody_object hjob execute

end Service

/-! ## Commands for one file -/

namespace Command

/-- A command line that names one file which can be read is executed on its bytes. -/
theorem commandLine_of_file (screen : Text.Screen) {read : String → Option (List UInt8)} {args : List String}
    {invocation : Invocation} {file : String} {bytes : List UInt8} (hfile : read file = some bytes)
    (hargs : Invocation.read? args = some invocation) (hfiles : invocation.command.files = [file]) :
    commandLine screen read args = execute screen invocation [⟨file, bytes⟩] := by
  simp [commandLine, hargs, hfiles, hfile]

/-- A line without the escape character is written as it is: control sequences start with that
character, and a screen takes nothing else out. -/
theorem messages_singleton (screen : Text.Screen) {line : String} (h : '\x1b' ∉ line.toList) :
    messages screen [line] = line ++ "\n" := by
  rw [messages, List.map_singleton, screen.sent_eq_self line h, lines, List.map_singleton,
    String.join_cons]
  exact String.append_empty

/-- A program that is the only one is reported on as it runs alone. The machine gives it the first
id and the sink to itself. -/
theorem loneReports_singleton (config : Config) (file : String) (p : Program) :
    loneReports config [(file, p)] = [⟨(p.runAlone config).1, file, (p.runAlone config).2⟩] := by
  have hfresh : (Entry.mk 1 p.start 0 .shared).IsFresh p := ⟨rfl, rfl⟩
  have hpid : (p.runAlone config).1.pid = 1 := hfresh.pid_loneResult config
  show [loneReport config 1 file p] = _
  rw [loneReport, ← hpid]

section OneFile

variable (screen : Text.Screen) {file : String} {bytes : List UInt8} {config : Config}
  {interleave json : Bool}

/-- The check of one file that can be assembled, with its report or its plain line. -/
theorem executeCheck_of_ok {p : Program} (h : assembleBytes bytes = .ok p) :
    executeCheck screen false [⟨file, bytes⟩] json
      = .output ⟨0,
        if json then lines [(Json.array [(CheckReport.mk file (.ok p.length)).json]).text]
        else messages screen [(CheckReport.mk file (.ok p.length)).line], ""⟩ := by
  have hcheck : checkFiles [⟨file, bytes⟩] = .ok ([⟨file, .ok p.length⟩], [p]) := by
    simp only [checkFiles, h]
    rfl
  rw [executeCheck, hcheck]
  cases json <;> rfl

/-- The check of one file that is refused. The plain line goes to the other stream than the
report, and the exit code is the same. -/
theorem executeCheck_of_invalid {e : Assembly.SourceError}
    (h : assembleBytes bytes = .error (.invalid e)) :
    executeCheck screen false [⟨file, bytes⟩] json
      = .output ⟨1,
        if json then lines [(Json.array [(CheckReport.mk file (.error e)).json]).text] else "",
        if json then "" else messages screen [(CheckReport.mk file (.error e)).line]⟩ := by
  have hcheck : checkFiles [⟨file, bytes⟩] = .ok ([⟨file, .error e⟩], []) := by
    simp only [checkFiles, h]
    rfl
  rw [executeCheck, hcheck]
  cases json with
  | true => rfl
  | false => exact congrArg (fun text => Ending.output ⟨1, "", text⟩) String.empty_append

theorem executeCheck_of_tooManyDigits {e : TooManyDigits}
    (h : assembleBytes bytes = .error (.tooManyDigits e)) :
    executeCheck screen false [⟨file, bytes⟩] json = .tooManyDigits e := by
  simp [executeCheck, checkFiles, h]

theorem executeRun_of_tooManyDigits {e : TooManyDigits}
    (h : assembleBytes bytes = .error (.tooManyDigits e)) :
    executeRun screen false [⟨file, bytes⟩] config interleave json = .tooManyDigits e := by
  simp [executeRun, assembleFiles, h, rejected]

/-- A run of a file that is refused says so in a plain line, whether a report is asked for or not.
-/
theorem executeRun_of_invalid {e : Assembly.SourceError}
    (h : assembleBytes bytes = .error (.invalid e)) :
    executeRun screen false [⟨file, bytes⟩] config interleave json
      = .output ⟨1, "", messages screen [errorLine file e]⟩ := by
  simp [executeRun, assembleFiles, h, rejected, logText]

end OneFile

end Command

/-! ## The answers of all front ends -/

open Service Command

/-- What the front ends say of one source: the service when it is to validate and to execute it, and
the commands that check its file and run it, each without and with a report. -/
structure FrontEnds where
  validated : Except TooManyDigits Response
  executed : Except TooManyDigits Response
  checked : Ending
  checkReported : Ending
  ran : Ending
  reported : Ending

namespace FrontEnds

/-- The error leaves all of them alike. -/
structure Escape (f : FrontEnds) (e : TooManyDigits) : Prop where
  validated : f.validated = .error e
  executed : f.executed = .error e
  checked : f.checked = .tooManyDigits e
  checkReported : f.checkReported = .tooManyDigits e
  ran : f.ran = .tooManyDigits e
  reported : f.reported = .tooManyDigits e

/-- All of them refuse the source with the same message, and those that name a line name the same
one. What is said to people passes a screen that leaves out control sequences. -/
structure Reject (f : FrontEnds) (screen : Text.Screen) (file : String) (line : Nat)
    (message : String) : Prop where
  validated : f.validated = .ok ⟨200, .object [("valid", .bool false), ("instruction_count", .nat 0),
    ("line", .nat line), ("errors", .array [.string message])]⟩
  executed : f.executed = .ok ⟨400, .object [("detail", .string message)]⟩
  checked : f.checked = .output ⟨1, "", messages screen ["✗ " ++ file ++ ": " ++ message]⟩
  checkReported : f.checkReported = .output ⟨1, lines [(Json.array [.object [("file", .string file),
    ("valid", .bool false), ("line", .nat line), ("error", .string message)]]).text], ""⟩
  ran : f.ran = .output ⟨1, "", messages screen ["Error: " ++ file ++ ": " ++ message]⟩
  reported : f.reported = f.ran
  /-- Control sequences start with the escape character, and no message holds any. -/
  literally : '\x1b' ∉ file.toList →
    f.checked = .output ⟨1, "", "✗ " ++ file ++ ": " ++ message ++ "\n"⟩
      ∧ f.ran = .output ⟨1, "", "Error: " ++ file ++ ": " ++ message ++ "\n"⟩

/-- The fields that the answer of the service and the report of a run have in common. -/
def sharedFields : List String :=
  ["success", "output", "steps", "slices", "error", "error_kind"]

/-- All of them accept the source: the service and the check count the same instructions, and the
service and the report tell of the same result and output. -/
structure Accept (f : FrontEnds) (screen : Text.Screen) (file : String) (count : Nat)
    (result : Result) (output : String) : Prop where
  validated : f.validated = .ok ⟨200, .object [("valid", .bool true),
    ("instruction_count", .nat count), ("line", .null), ("errors", .array [])]⟩
  checked : f.checked = .output
    ⟨0, messages screen ["✓ " ++ file ++ ": " ++ Nat.repr count ++ " instructions"], ""⟩
  checkReported : f.checkReported = .output ⟨0, lines [(Json.array [.object [("file", .string file),
    ("valid", .bool true), ("instruction_count", .nat count)]]).text], ""⟩
  executed : f.executed = .ok ⟨200, executeBody result output⟩
  reported : ∃ o : Output, f.reported = .output o ∧ o.exit = (if result.success then 0 else 1)
    ∧ o.stdout = lines [(Json.array [(RunReport.mk result file output).json]).text]
  ran : ∃ o : Output, f.ran = .output o ∧ o.exit = (if result.success then 0 else 1)
    ∧ o.stdout = output
  shared : ∀ name ∈ sharedFields, ∃ value, (executeBody result output).field? name = some value
    ∧ (RunReport.mk result file output).json.field? name = some value

/-- All of them hold the source to be valid, or none does. A run that ends before anything is run
writes no report. -/
def Unanimous (f : FrontEnds) (valid : Prop) : Prop :=
  [valid,
    ∃ r, f.validated = .ok r ∧ r.body.field? "valid" = some (.bool true),
    ∃ o, f.checked = .output o ∧ o.exit = 0,
    ∃ o, f.checkReported = .output o ∧ o.exit = 0,
    ∃ r, f.executed = .ok r ∧ r.status ≠ 400,
    ∃ o, f.reported = .output o ∧ o.stdout ≠ ""].TFAE

variable {f : FrontEnds} {screen : Text.Screen} {file : String}

/-- Where the error escapes, no front end answers, so none holds the source to be valid. -/
theorem Escape.unanimous {e : TooManyDigits} (h : f.Escape e) : f.Unanimous False := by
  refine List.tfae_of_forall False _ ?_
  simp [h.validated, h.executed, h.checked, h.checkReported, h.reported]

/-- Where all refuse the source, each does it in its own form, and none of these is that of a
valid source. -/
theorem Reject.unanimous {line : Nat} {message : String} (h : f.Reject screen file line message) :
    f.Unanimous False := by
  refine List.tfae_of_forall False _ ?_
  simp [h.validated, h.executed, h.checked, h.checkReported, h.reported, h.ran, Json.field?]

/-- Where all accept the source, each says so, also if the run fails later. -/
theorem Accept.unanimous {count : Nat} {result : Result} {output : String}
    (h : f.Accept screen file count result output) : f.Unanimous True := by
  obtain ⟨o, ho, -, hout⟩ := h.reported
  refine List.tfae_of_forall True _ ?_
  simp [h.validated, h.executed, h.checked, h.checkReported, ho, hout, Json.field?, lines]

end FrontEnds

/-! ## The headline -/

/-- The command lines for one source, each without and with a report. -/
structure CommandLines where
  check : List String
  checkReport : List String
  run : List String
  report : List String

/-- The command lines are to check the file, and to run it with the given configuration. -/
structure CommandLines.Concern (c : CommandLines) (file : String) (config : Config) : Prop where
  check : Invocation.read? c.check = some ⟨false, .check [file] false⟩
  checkReport : Invocation.read? c.checkReport = some ⟨false, .check [file] true⟩
  run : Invocation.read? c.run = some ⟨false, .run [file] config false false⟩
  report : Invocation.read? c.report = some ⟨false, .run [file] config false true⟩

/-- The answers of all front ends. -/
def frontEnds (screen : Text.Screen) (read : String → Option (List UInt8)) (source : String)
    (budget : Nat) (c : CommandLines) : FrontEnds where
  validated := answer (validateRequest source)
  executed := answer (executeRequest source budget)
  checked := commandLine screen read c.check
  checkReported := commandLine screen read c.checkReport
  ran := commandLine screen read c.run
  reported := commandLine screen read c.report

section

variable (screen : Text.Screen) {read : String → Option (List UInt8)} {source file : String}
  {budget : Nat} (hbudget : 0 < budget) {c : CommandLines}
  (hfile : read file = some source.toUTF8.data.toList)
  (hc : c.Concern file (.withBudget budget hbudget))

include hfile hc

/-- An integer with too many digits leaves every front end as an error, the first time that the
source is assembled. -/
theorem frontEnds_escape {e : TooManyDigits} (h : assemble source = .error (.tooManyDigits e)) :
    (frontEnds screen read source budget c).Escape e := by
  have hbytes := (assembleBytes_encoded source).trans h
  have hchecked (json : Bool) :
      executeCheck screen false [⟨file, source.toUTF8.data.toList⟩] json = .tooManyDigits e :=
    executeCheck_of_tooManyDigits screen hbytes
  exact {
    validated := (answer_validateRequest source).trans (by rw [validate, h])
    executed := (answer_executeRequest source hbudget).trans (by rw [Service.execute, h])
    checked := (commandLine_of_file screen hfile hc.check rfl).trans (hchecked _)
    checkReported := (commandLine_of_file screen hfile hc.checkReport rfl).trans (hchecked _)
    ran := (commandLine_of_file screen hfile hc.run rfl).trans
      (executeRun_of_tooManyDigits screen hbytes)
    reported := (commandLine_of_file screen hfile hc.report rfl).trans
      (executeRun_of_tooManyDigits screen hbytes) }

/-- A source that the assembler refuses is refused by all front ends, with the line and the
message of the assembler. -/
theorem frontEnds_reject {e : Assembly.SourceError} (h : assemble source = .error (.invalid e)) :
    (frontEnds screen read source budget c).Reject screen file e.line e.message := by
  have hbytes := (assembleBytes_encoded source).trans h
  have hchecked := (commandLine_of_file screen hfile hc.check rfl).trans
    (executeCheck_of_invalid screen hbytes)
  have hran := (commandLine_of_file screen hfile hc.run rfl).trans
    (executeRun_of_invalid screen hbytes)
  have hreported := (commandLine_of_file screen hfile hc.report rfl).trans
    (executeRun_of_invalid screen hbytes)
  -- a visible message holds no escape character, so only the name of the file could
  have hmessage : '\x1b' ∉ e.message.toList :=
    fun hmem => absurd (Assembly.visible_message h _ hmem) (by decide)
  exact {
    validated := (answer_validateRequest source).trans (by rw [validate, h]; rfl)
    executed := (answer_executeRequest source hbudget).trans (by rw [Service.execute, h]; rfl)
    checked := hchecked
    checkReported := (commandLine_of_file screen hfile hc.checkReport rfl).trans
      (executeCheck_of_invalid screen hbytes)
    ran := hran
    reported := hreported.trans hran.symm
    literally := by
      intro hplain
      have hwrong : '\x1b' ∉ ("✗ " ++ file ++ ": " ++ e.message).toList := by simp [hplain, hmessage]
      have herror : '\x1b' ∉ ("Error: " ++ file ++ ": " ++ e.message).toList := by
        simp [hplain, hmessage]
      have hsaid {s t : String} (hst : s = t) : Ending.output ⟨1, "", s⟩ = .output ⟨1, "", t⟩ := by
        rw [hst]
      exact ⟨hchecked.trans (hsaid (messages_singleton screen hwrong)),
        hran.trans (hsaid (messages_singleton screen herror))⟩ }

/-- A source that the assembler accepts is accepted by all front ends, and they execute the
program that it gives. An assembled program is quiet, so its run does not crash and every report
is written. -/
theorem frontEnds_accept {p : Program} (h : assemble source = .ok p) :
    (frontEnds screen read source budget c).Accept screen file p.length
      (p.runAlone (.withBudget budget hbudget)).1 (p.runAlone (.withBudget budget hbudget)).2 := by
  have hbytes := (assembleBytes_encoded source).trans h
  have hfiles : ∀ x ∈ [(file, p)], ∃ bytes, read x.1 = some bytes ∧ assembleBytes bytes = .ok x.2 := by
    simpa using ⟨_, hfile, hbytes⟩
  have hq : ∀ x ∈ [(file, p)], x.2.Quiet := by
    simpa using Assembly.quiet_of_assembleLines h
  generalize hconfig : Config.withBudget budget hbudget = config at *
  have hreports := loneReports_singleton config file p
  -- there is one program, so what comes up to the first failure is all there is
  have hstarted : throughFirst (fun r => !r.result.success) (loneReports config [(file, p)])
      = [⟨(p.runAlone config).1, file, (p.runAlone config).2⟩] := by
    rw [hreports, throughFirst_cons]
    split <;> rfl
  have hexit : (if (loneReports config [(file, p)]).all (·.result.success) then 0 else 1)
      = if (p.runAlone config).1.success then 0 else 1 := by
    rw [hreports, List.all_cons, List.all_nil, Bool.and_true]
  exact {
    validated := (answer_validateRequest source).trans (by rw [validate, h]; rfl)
    checked := (commandLine_of_file screen hfile hc.check rfl).trans
      (executeCheck_of_ok screen hbytes)
    checkReported := (commandLine_of_file screen hfile hc.checkReport rfl).trans
      (executeCheck_of_ok screen hbytes)
    executed := (answer_executeRequest source hbudget).trans (by rw [Service.execute, h, hconfig])
    reported := ⟨_, commandLine_run screen hfiles hc.report,
      (exit_runPrograms screen _ hq _ _ _).trans hexit,
      (stdout_in_order_json screen _ hq _).trans (by rw [hstarted]; rfl)⟩
    ran := ⟨_, commandLine_run screen hfiles hc.run,
      (exit_runPrograms screen _ hq _ _ _).trans hexit,
      (stdout_in_order screen _ hq _).trans (by simp [hstarted])⟩
    shared := by simp [FrontEnds.sharedFields, executeBody, RunReport.json, Json.field?] }

end

/-- **All front ends judge and execute a source alike.** Let `file` hold the encoding of `source`, and
let the commands be to check it and to run it, each without and with a report, the service being asked
to validate the source and to execute it with the same step budget. Control sequences may be left out
of what is said to people in whatever way there is. If an integer of the source is too long to be read,
this ends all of them. If the source is invalid, all of them refuse it with the same message; if it is
valid, all of them accept it, and what is executed has the same result and output. So they are
unanimous on whether the source is valid. -/
theorem front_ends_agree (screen : Text.Screen) {read : String → Option (List UInt8)}
    {source file : String} {budget : Nat} (hbudget : 0 < budget) {c : CommandLines}
    (hfile : read file = some source.toUTF8.data.toList)
    (hc : c.Concern file (.withBudget budget hbudget)) :
    let f := frontEnds screen read source budget c
    (∀ e, assemble source = .error (.tooManyDigits e) → f.Escape e)
      ∧ (∀ e, assemble source = .error (.invalid e) → f.Reject screen file e.line e.message)
      ∧ (∀ p, assemble source = .ok p → f.Accept screen file p.length
          (p.runAlone (.withBudget budget hbudget)).1 (p.runAlone (.withBudget budget hbudget)).2)
      ∧ f.Unanimous (∃ p, assemble source = .ok p) := by
  intro f
  have hescape : ∀ e, assemble source = .error (.tooManyDigits e) → f.Escape e :=
    fun e => frontEnds_escape screen hbudget hfile hc
  have hreject : ∀ e, assemble source = .error (.invalid e) →
      f.Reject screen file e.line e.message :=
    fun e => frontEnds_reject screen hbudget hfile hc
  have haccept : ∀ p, assemble source = .ok p → f.Accept screen file p.length
      (p.runAlone (.withBudget budget hbudget)).1 (p.runAlone (.withBudget budget hbudget)).2 :=
    fun p => frontEnds_accept screen hbudget hfile hc
  refine ⟨hescape, hreject, haccept, ?_⟩
  -- the assembler has decided the case, and with it what all of them say
  cases h : assemble source with
  | ok p => simpa [h] using (haccept p h).unanimous
  | error e =>
    cases e with
    | tooManyDigits e => simpa [h] using (hescape e h).unanimous
    | invalid e => simpa [h] using (hreject e h).unanimous

/-- A valid source whose number is written with the digits of another script. All front ends take
it, as they share the reader. -/
theorem front_ends_agree_other_digits :
    let source := "push int8(\u0666\u0665)\nprint\nexit"
    let read (_ : String) : Option (List UInt8) := some source.toUTF8.data.toList
    let c : CommandLines :=
      ⟨["check", "a"], ["check", "-j", "a"], ["run", "a", "--budget=2"], ["run", "-jb2", "a"]⟩
    read "a" = some source.toUTF8.data.toList
      ∧ c.Concern "a" (.withBudget 2 (by decide))
      ∧ (frontEnds .plain read source 2 c).Accept .plain "a" 3 ⟨1, 3, 2, none⟩ "A" := by
  intro source read c
  let config : Config := .withBudget 2 (by decide)
  have hcheck : Invocation.read? c.check = some ⟨false, .check ["a"] false⟩ := by cbv
  have hcheckReport : Invocation.read? c.checkReport = some ⟨false, .check ["a"] true⟩ := by cbv
  have hrun : Invocation.read? c.run = some ⟨false, .run ["a"] config false false⟩ := by cbv
  have hreport : Invocation.read? c.report = some ⟨false, .run ["a"] config false true⟩ := by cbv
  have hassemble : assemble source
      = .ok [.push (.ofInt .int8 65 (by decide)), .print, .exit] := by cbv
  have halone : Program.runAlone [.push (.ofInt .int8 65 (by decide)), .print, .exit] config
      = (⟨1, 3, 2, none⟩, "A") := by cbv
  have hfile : read "a" = some source.toUTF8.data.toList := rfl
  have hc : c.Concern "a" config := ⟨hcheck, hcheckReport, hrun, hreport⟩
  have haccept := (front_ends_agree .plain (by decide) hfile hc).2.2.1 _ hassemble
  rw [halone] at haccept
  exact ⟨hfile, hc, haccept⟩

/-- A control sequence in the name of a file is not written, so the error line is not the name and
the message as they are. -/
theorem run_drops_control_sequences :
    let file := "\x1b[1mx"
    let read (_ : String) : Option (List UInt8) := some "x".toUTF8.data.toList
    let message := "line 1: unknown opcode: 'x'"
    answer (executeRequest "x" 7) = .ok ⟨400, .object [("detail", .string message)]⟩
      ∧ commandLine .plain read ["run", file] = .output ⟨1, "", "Error: x: " ++ message ++ "\n"⟩
      ∧ commandLine .plain read ["run", file]
        ≠ .output ⟨1, "", "Error: " ++ file ++ ": " ++ message ++ "\n"⟩ := by
  intro file read message
  let e : Assembly.SourceError := ⟨1, .line (.unknownOpcode ['x'])⟩
  have hassemble : assemble "x" = .error (.invalid e) := by rfl
  have hquoted : Text.quoted ['x'] = "'x'" := by rfl
  have hmessage : e.message = message := by
    show "line " ++ Nat.repr 1 ++ ": " ++ ("unknown opcode: " ++ Text.quoted ['x']) = _
    rw [hquoted]
    decide
  have hargs : Invocation.read? ["run", file] = some ⟨false, .run [file] .standard false false⟩ := by
    cbv
  have hstopped : commandLine .plain read ["run", file]
      = .output ⟨1, "", messages .plain [errorLine file e]⟩ :=
    (commandLine_of_file .plain rfl hargs rfl).trans
      (executeRun_of_invalid .plain ((assembleBytes_encoded "x").trans hassemble))
  have hran : commandLine .plain read ["run", file]
      = .output ⟨1, "", "Error: x: " ++ message ++ "\n"⟩ := by
    rw [hstopped]
    show Ending.output ⟨1, "", messages .plain ["Error: " ++ file ++ ": " ++ e.message]⟩ = _
    rw [hmessage]
    cbv
  refine ⟨?_, hran, ?_⟩
  · rw [answer_executeRequest "x" (by decide), Service.execute, hassemble]
    show Except.ok (detail 400 e.message) = _
    rw [hmessage]
    rfl
  · rw [hran]
    decide

end StackMachine
