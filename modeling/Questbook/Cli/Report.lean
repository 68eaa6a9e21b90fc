/-
Questbook.Cli.Report — what a run of the program prints, and how it ends.

A run is a value: the lines it prints on either stream, in order, and its exit
status. The checks of quests are computed first, one verdict for each name,
and the report follows from the verdicts; so what is printed of one quest
cannot depend on how the others fared.
-/
import Questbook.Cache
import Questbook.Cli.Arguments
import Questbook.Config
import Questbook.Quest.Finding
import Questbook.Quest.Json
import Questbook.Quest.Outline

namespace Questbook.Cli

/-- A line, and the stream it is printed on. -/
inductive Line where
  | out (text : String)
  | err (text : String)
deriving DecidableEq, Repr

/-- The output and the exit status of a run. -/
structure Report where
  lines : List Line := []
  status : Nat := 0
deriving DecidableEq, Repr

namespace Report

/-- What is printed on the standard output. -/
def stdout (r : Report) : String :=
  String.join (r.lines.map fun
    | .out text => text ++ "\n"
    | .err _ => "")

/-- What is printed on the standard error output. -/
def stderr (r : Report) : String :=
  String.join (r.lines.map fun
    | .out _ => ""
    | .err text => text ++ "\n")

end Report

/-- A failure of the whole run, and what caused it. -/
structure Failure where
  message : String
  cause? : Option String := none
deriving DecidableEq, Repr

namespace Failure

/-- A text with its further lines indented like the first. -/
def indent (text : String) : String :=
  String.ofList ("    ".toList ++
    text.toList.flatMap fun c => if c = '\n' then "\n    ".toList else [c])

/-- The failure in words. -/
def describe (f : Failure) : String :=
  match f.cause? with
  | none => "Error: " ++ f.message
  | some cause => "Error: " ++ f.message ++ "\n\nCaused by:\n" ++ indent cause

/-- The report of a run that fails after printing some lines. -/
def report (f : Failure) (lines : List Line) : Report :=
  ⟨lines ++ [.err f.describe], 1⟩

end Failure

variable {m : Type → Type} [Monad m]

/-- An error for the author of a quest. The place of a fault is looked up in
the quest's source, as it is now. -/
def describe (source : Source m) (e : QuestError) : m String := do
  match e with
  | .malformed name error =>
    match ← source (assetPath name) with
    | .found text =>
      let here := error.position text
      return s!"{e.message} [{assetPath name}:{here.line}:{here.column}]"
    | _ => return e.message
  | _ => return e.message

/-! ## 1. Showing a quest -/

/-- A quest in a form for reading. -/
def render (q : Quest) : Format → String
  | .outline => q.toOutline.render 0
  | .json => q.toJson.pretty 0

/-- Shows a quest. -/
def display (source : Source m) (cache : Cache) (name : String) (format : Format) :
    m Report := do
  let reply ← cache.request source name
  match reply.result with
  | .ok cached => return ⟨[.out (render cached.quest format)], 0⟩
  | .error e => return Failure.report ⟨← describe source e, none⟩ []

/-! ## 2. Checking quests -/

/-- What a check found out about a quest. -/
inductive Verdict where
  /-- The quest can be read, and these are its oddities. -/
  | readable (findings : List Finding)
  | failed (message : String)
deriving DecidableEq, Repr

namespace Verdict

/-- What is printed about a quest. -/
def lines (name : String) : Verdict → List Line
  | .readable [] => [.out s!"ok: {name}"]
  | .readable findings =>
    findings.map fun finding => .out s!"warning: {name}: {finding.message}"
  | .failed message => [.err s!"error: {message}"]

/-- The quest cannot be read. -/
def isFailed : Verdict → Bool
  | .readable _ => false
  | .failed _ => true

/-- The oddities found. -/
def findings : Verdict → List Finding
  | .readable findings => findings
  | .failed _ => []

end Verdict

/-- The verdicts on quests, one for each name. -/
def verdicts (source : Source m) (cache : Cache) : List String → m (List (String × Verdict))
  | [] => pure []
  | name :: names => do
    let reply ← cache.request source name
    let verdict ← match reply.result with
      | .ok cached => pure (Verdict.readable cached.quest.findings)
      | .error e => do pure (Verdict.failed (← describe source e))
    return (name, verdict) :: (← verdicts source reply.cache names)

/-- The report on verdicts. A quest that cannot be read makes the run fail;
with `strict`, so does any oddity. -/
def checkReport (strict : Bool) (vs : List (String × Verdict)) : Report :=
  let lines := vs.flatMap fun (name, verdict) => verdict.lines name
  let failed := vs.countP fun v => v.2.isFailed
  let found := (vs.flatMap fun v => v.2.findings).length
  if failed ≠ 0 then
    Failure.report { message := s!"{failed} of {vs.length} quest(s) failed to parse" } lines
  else if strict && found != 0 then
    Failure.report { message := s!"{found} validation finding(s) in strict mode" } lines
  else ⟨lines, 0⟩

/-- The failure to find out which quests there are. -/
def listingFailure (disk : Disk m) (root : String) : m Failure := do
  let cause ← disk.explain (.listing (Path.join root questFolder))
  return ⟨s!"while listing quests in '{root}'", some cause⟩

/-- Checks the quests of these names, or all quests. -/
def check (disk : Disk m) (root : String) (cache : Cache) (names : List String)
    (strict : Bool) : m Report := do
  let names? ← if names.isEmpty then disk.questNames? root else pure (some names)
  match names? with
  | none => return (← listingFailure disk root).report []
  | some names => return checkReport strict (← verdicts (disk.assets root) cache names)

/-! ## 3. Listing quests -/

/-- Lists all quests. -/
def list (disk : Disk m) (root : String) : m Report := do
  match ← disk.questNames? root with
  | none => return (← listingFailure disk root).report []
  | some [] => return ⟨[.out s!"no quests found under '{root}'"], 0⟩
  | some names => return ⟨names.map .out, 0⟩

/-! ## 4. The program -/

/-- Does the work of a command line: reads the configuration, reads the quests
it wants read first, and carries the command out. -/
def work (disk : Disk m) (surroundings : Surroundings) (invocation : Invocation) : m Report := do
  let detected ← surroundings.detectRoot disk
  let (config, _) ← Config.load disk detected
    (invocation.config?.getD (Config.defaultPath detected))
  let root := invocation.assets?.getD config.assetRoot
  let source := disk.assets root
  let preload ← Cache.preload source {} config.preload
  match preload.result with
  | .error e =>
    return Failure.report ⟨"while preloading quests from config", some (← describe source e)⟩ []
  | .ok _ =>
    match invocation.command with
    | .display name format => display source preload.cache name format
    | .check names strict => check disk root preload.cache names (strict || config.strict)
    | .list => list disk root

/-- The line that tells the version. -/
def versionLine : String := "quest_engine 0.3.0"

/-- A short reminder of how the program is called. -/
def usageLine : String :=
  "Usage: quest [--assets <DIR>] [--config <FILE>] <show <NAME> [--format <ron|json>] | check [--strict] [NAMES]... | list>"

/-- The exit status of a command line that is refused. -/
def usageStatus : Nat := 2

/-- A run of the program. -/
def run (disk : Disk m) (surroundings : Surroundings) (arguments : List String) : m Report := do
  match parse arguments with
  | .ok invocation => work disk surroundings invocation
  | .error .version => return ⟨[.out versionLine], 0⟩
  | .error .help => return ⟨[.out usageLine], 0⟩
  | .error (.fault e) => return ⟨[.err ("error: " ++ e.message), .err usageLine], usageStatus⟩

end Questbook.Cli
