/-
Questbook.Proofs.Cli.Check — a check accounts for every quest it is asked about.

What a check prints about a name goes by the file of that name alone
(`Cli.account`). It does not go by what was read before: the quests that the
configuration has read first, and the names checked earlier, are in one cache, but
a cache cannot be told from reading anew as long as the disk stays as it is
(`Cache.Faithful`). So the report is one account after the other in the order of
the names, a name that comes twice has two accounts, and a quest that cannot be
read says nothing about the next one.

The two counts that decide how the run ends are taken from the files in the same
way: the names whose quest cannot be read (`Cli.fails`), and the oddities of those
that can (`Cli.findingsOf`).
-/
import Questbook.Cli.Report
import Questbook.Proofs.Cache.Transparency

namespace Questbook

namespace Cli

open Text

/-! ## 1. What the files come to -/

/-- What is printed about a name, going by its file alone. -/
def account (assets : String → Lookup) (name : String) : List Line :=
  match assets (assetPath name) with
  | .missing =>
    [.err ("error: " ++ s!"quest '{name}' could not be found (looked for '{assetPath name}')")]
  | .unreadable => [.err ("error: " ++ s!"failed to read quest asset '{assetPath name}'")]
  | .found text =>
    match Quest.parse text with
    | .error e =>
      let here := Position.ofOffset text e.offset
      [.err ("error: " ++ (s!"quest '{name}' is malformed: {e.message}" ++
        s!" [{assetPath name}:{here.line}:{here.column}]"))]
    | .ok quest =>
      if quest.findings = [] then [.out s!"ok: {name}"]
      else quest.findings.map fun finding => .out s!"warning: {name}: {finding.message}"

/-- The quest of this name cannot be read. -/
def fails (assets : String → Lookup) (name : String) : Bool :=
  match questOf assets name with
  | .ok _ => false
  | .error _ => true

/-- The oddities of the quest of this name, if it can be read. -/
def findingsOf (assets : String → Lookup) (name : String) : List Finding :=
  match questOf assets name with
  | .ok quest => quest.findings
  | .error _ => []

/-- The verdict on a quest, going by its file alone. -/
def verdictOf (assets : String → Lookup) (name : String) : Verdict :=
  match questOf assets name with
  | .ok quest => .readable quest.findings
  | .error e => .failed (describe (m := Id) assets e)

theorem isFailed_verdictOf (assets : String → Lookup) (name : String) :
    (verdictOf assets name).isFailed = fails assets name := by
  unfold verdictOf fails
  cases questOf assets name <;> rfl

theorem findings_verdictOf (assets : String → Lookup) (name : String) :
    (verdictOf assets name).findings = findingsOf assets name := by
  unfold verdictOf findingsOf
  cases questOf assets name <;> rfl

theorem Verdict.lines_readable (name : String) (findings : List Finding) :
    (Verdict.readable findings).lines name =
      if findings = [] then [.out s!"ok: {name}"]
      else findings.map fun finding => .out s!"warning: {name}: {finding.message}" := by
  cases findings <;> rfl

/-- The place of a fault is looked up in the file that was read. -/
theorem describe_malformed {assets : String → Lookup} {name text : String}
    (hfound : assets (assetPath name) = .found text) (e : ParseError) :
    describe (m := Id) assets (.malformed name e) =
      (QuestError.malformed name e).message ++
        s!" [{assetPath name}:{(e.position text).line}:{(e.position text).column}]" := by
  have hdescribe : describe (m := Id) assets (.malformed name e) =
      let here := e.position text
      s!"{(QuestError.malformed name e).message} [{assetPath name}:{here.line}:{here.column}]" := by
    rw [describe, hfound]
    rfl
  rw [hdescribe]
  simp only [String.append_assoc]
  rfl

theorem lines_verdictOf (assets : String → Lookup) (name : String) :
    (verdictOf assets name).lines name = account assets name := by
  unfold verdictOf account questOf
  cases hfound : assets (assetPath name) with
  | missing => rfl
  | unreadable => rfl
  | found text =>
    cases hparse : Quest.parse text with
    | error e =>
      simp only [hparse, Except.mapError, Verdict.lines, describe_malformed hfound]
      rfl
    | ok quest =>
      simp only [hparse, Except.mapError]
      exact Verdict.lines_readable name quest.findings

/-! ## 2. Names one after the other -/

/-- Whatever the cache holds of the files, each verdict is that of the file. -/
theorem verdicts_eq {assets : String → Lookup} {cache : Cache} (h : cache.Faithful assets)
    (names : List String) :
    verdicts (m := Id) assets cache names =
      names.map fun name => (name, verdictOf assets name) := by
  induction names generalizing cache with
  | nil => rfl
  | cons name names ih =>
    have htells := Cache.tells_request_fixed h name
    have hverdicts : verdicts (m := Id) assets cache (name :: names) =
        (name, verdictOf assets name) ::
          verdicts (m := Id) assets (cache.request (m := Id) assets name).cache names := by
      rw [verdicts, verdictOf, ← htells.result_eq]
      generalize cache.request (m := Id) assets name = reply
      obtain ⟨result, after, notices⟩ := reply
      cases result <;> rfl
    rw [hverdicts, ih htells.faithful, List.map_cons]

/-- What is told at the end of a run that does not succeed. -/
def closing (strict : Bool) (failed total found : Nat) : List Line :=
  if failed ≠ 0 then [.err ("Error: " ++ s!"{failed} of {total} quest(s) failed to parse")]
  else if strict = true ∧ found ≠ 0 then
    [.err ("Error: " ++ s!"{found} validation finding(s) in strict mode")]
  else []

/-- The report is the accounts of the names, and an error behind them if the run
does not succeed. -/
theorem checkReport_verdictOf (strict : Bool) (assets : String → Lookup) (names : List String) :
    checkReport strict (names.map fun name => (name, verdictOf assets name)) =
      let failed := names.countP (fails assets)
      let found := (names.flatMap (findingsOf assets)).length
      ⟨names.flatMap (account assets) ++ closing strict failed names.length found,
        if failed = 0 ∧ (strict = false ∨ found = 0) then 0 else 1⟩ := by
  have hlines : ((names.map fun name => (name, verdictOf assets name)).flatMap
      fun v => v.2.lines v.1) = names.flatMap (account assets) := by
    simp only [List.flatMap_map, lines_verdictOf]
  have hfailed : (names.map fun name => (name, verdictOf assets name)).countP
      (fun v => v.2.isFailed) = names.countP (fails assets) := by
    rw [List.countP_map]
    congr 1
    funext name
    exact isFailed_verdictOf assets name
  have hfound : ((names.map fun name => (name, verdictOf assets name)).flatMap
      fun v => v.2.findings) = names.flatMap (findingsOf assets) := by
    simp only [List.flatMap_map, findings_verdictOf]
  simp only [checkReport, closing, hlines, hfailed, hfound, List.length_map]
  generalize names.countP (fails assets) = failed
  generalize (names.flatMap (findingsOf assets)).length = found
  by_cases hzero : failed = 0
  · cases strict <;> by_cases hnone : found = 0 <;>
      simp [hzero, hnone, Failure.report, Failure.describe]
  · simp [hzero, Failure.report, Failure.describe]

/-! ## 3. A run of the program -/

namespace Invocation

/-- The configuration that a run goes by. -/
def config (disk : Disk Id) (surroundings : Surroundings) (invocation : Invocation) : Config :=
  let detected : String := surroundings.detectRoot disk
  let loaded : Config × Notice :=
    Config.load disk detected (invocation.config?.getD (Config.defaultPath detected))
  loaded.1

/-- The asset root that a run goes by. -/
def root (disk : Disk Id) (surroundings : Surroundings) (invocation : Invocation) : String :=
  invocation.assets?.getD (invocation.config disk surroundings).assetRoot

/-- The assets that a run reads. -/
def assets (disk : Disk Id) (surroundings : Surroundings) (invocation : Invocation) :
    String → Lookup :=
  disk.assets (invocation.root disk surroundings)

/-- The names that a check is about: those that are given, or else those of all
quests there are. -/
def names? (disk : Disk Id) (surroundings : Surroundings) (invocation : Invocation)
    (given : List String) : Option (List String) :=
  if given = [] then disk.questNames? (invocation.root disk surroundings) else some given

end Invocation

/-- Checking goes by the names that are listed if none are given. -/
theorem check_eq {disk : Disk Id} {root : String} {cache : Cache} {given names : List String}
    (hnames : (if given = [] then disk.questNames? root else some given) = some names)
    (strict : Bool) :
    check disk root cache given strict =
      checkReport strict (verdicts (m := Id) (disk.assets root) cache names) := by
  cases given with
  | nil =>
    have hlist : disk.questNames? root = some names := hnames
    rw [check, hlist]
    rfl
  | cons name given =>
    cases hnames
    rfl

/-- A check whose preloading succeeds and whose names can be listed comes to the
report on the verdicts on its names. -/
theorem run_check {disk : Disk Id} {surroundings : Surroundings} {arguments : List String}
    {invocation : Invocation} {given names : List String} {strict : Bool} {preloaded : Nat}
    (hparse : parse arguments = .ok invocation)
    (hcommand : invocation.command = .check given strict)
    (hpreload : (Cache.preload (m := Id) (invocation.assets disk surroundings) {}
      (invocation.config disk surroundings).preload).result = .ok preloaded)
    (hnames : invocation.names? disk surroundings given = some names) :
    run disk surroundings arguments =
      checkReport (strict || (invocation.config disk surroundings).strict)
        (names.map fun name => (name, verdictOf (invocation.assets disk surroundings) name)) := by
  have hfaithful : Cache.Faithful (invocation.assets disk surroundings)
      (Cache.preload (m := Id) (invocation.assets disk surroundings) {}
        (invocation.config disk surroundings).preload).cache :=
    (Cache.tells_preload_fixed (Cache.faithful_empty _) _).2
  have hrun : run disk surroundings arguments = work disk surroundings invocation := by
    rw [run, hparse]
  have hwork : work disk surroundings invocation =
      check disk (invocation.root disk surroundings)
        (Cache.preload (m := Id) (invocation.assets disk surroundings) {}
          (invocation.config disk surroundings).preload).cache given
        (strict || (invocation.config disk surroundings).strict) := by
    simp only [Invocation.assets, Invocation.root, Invocation.config] at hpreload ⊢
    simp only [work, hcommand, bind]
    generalize Config.load (m := Id) disk (surroundings.detectRoot disk) _ = loaded
      at hpreload ⊢
    obtain ⟨config, notice⟩ := loaded
    simp only [hpreload]
  rw [hrun, hwork, check_eq hnames, ← verdicts_eq hfaithful]
  rfl

/-! ## 4. Main statement -/

/-- **A check accounts for every quest.** When the command line asks for a check,
the quests to be read first can be read and the names are known, then the report is
the accounts of the names one by one, each as its own file has it, and behind them
the error that tells how many quests cannot be read or, in a strict run, how many
oddities were found. The run succeeds if and only if all quests can be read and, in a
strict run, none has an oddity. -/
theorem check_accounts {disk : Disk Id} {surroundings : Surroundings} {arguments : List String}
    {invocation : Invocation} {given names : List String} {strict : Bool} {preloaded : Nat}
    (hparse : parse arguments = .ok invocation)
    (hcommand : invocation.command = .check given strict)
    (hpreload : (Cache.preload (m := Id) (invocation.assets disk surroundings) {}
      (invocation.config disk surroundings).preload).result = .ok preloaded)
    (hnames : invocation.names? disk surroundings given = some names) :
    let assets := invocation.assets disk surroundings
    let strictly := strict || (invocation.config disk surroundings).strict
    (run disk surroundings arguments).lines =
        names.flatMap (account assets) ++ closing strictly (names.countP (fails assets))
          names.length (names.flatMap (findingsOf assets)).length ∧
      ((run disk surroundings arguments).status = 0 ↔
        (∀ name ∈ names, fails assets name = false) ∧
          (strictly = false ∨ ∀ name ∈ names, findingsOf assets name = [])) := by
  intro assets strictly
  rw [run_check hparse hcommand hpreload hnames, checkReport_verdictOf]
  refine ⟨rfl, ?_⟩
  have hfailed : names.countP (fails assets) = 0 ↔ ∀ name ∈ names, fails assets name = false := by
    simp [List.countP_eq_zero]
  have hfound : (names.flatMap (findingsOf assets)).length = 0 ↔
      ∀ name ∈ names, findingsOf assets name = [] := by
    rw [List.length_eq_zero_iff, List.flatMap_eq_nil_iff]
  have hstatus {c : Prop} [Decidable c] : (if c then 0 else 1) = 0 ↔ c := by
    split <;> simp [*]
  rw [← hfailed, ← hfound]
  exact hstatus

/-- A folder `sea` with three quests and a configuration that has one of them read
first. The second quest cannot be read, and the third has no title. -/
def seaDisk : Disk Id where
  read path :=
    if path = "sea.toml" then .found "preload = [\"tides\"]\nstrict = true\n"
    else if path = "sea/quests/tides.qst" then .found "title : Tides\n"
    else if path = "sea/quests/fog.qst" then .found "foo : bar\n"
    else if path = "sea/quests/reef.qst" then .found "+background\n"
    else .missing
  isFolder path := path == "sea/quests"
  names? _ := none
  explain _ := "No such file or directory (os error 2)"

/-- Quests that cannot be read, quests with oddities and a name that comes twice, in
one check. -/
theorem check_accounts_sea :
    let report := run seaDisk {}
      ["--assets", "sea", "--config", "sea.toml", "check", "TIDES", "fog", "reef", "tides"]
    report.lines = [
        .out "ok: TIDES",
        .err "error: quest 'fog' is malformed: unknown directive 'foo' (byte 0) [quests/fog.qst:1:1]",
        .out "warning: reef: quest has no title",
        .out "ok: tides",
        .err "Error: 1 of 4 quest(s) failed to parse"] ∧
      report.status ≠ 0 := by
  let sea : Invocation :=
    ⟨some "sea", some "sea.toml", .check ["TIDES", "fog", "reef", "tides"] false⟩
  let assets := sea.assets seaDisk {}
  have hparse : parse ["--assets", "sea", "--config", "sea.toml", "check", "TIDES", "fog", "reef",
      "tides"] = .ok sea := by decide +kernel
  have hconfig : sea.config seaDisk {} = ⟨"assets", ["tides"], true⟩ := by decide +kernel
  have htides : Quest.parse "title : Tides\n" = .ok { title := "Tides" } :=
    Quest.parse_of_runFor (n := 20) (by cbv)
  have hfog : Quest.parse "foo : bar\n" = .error ⟨.unknownDirective "foo", 0⟩ :=
    Quest.parse_of_runFor (n := 20) (by cbv)
  have hreef : Quest.parse "+background\n" = .ok { runsInBackground := true } :=
    Quest.parse_of_runFor (n := 20) (by cbv)
  have hfirst : assets (assetPath "TIDES") = .found "title : Tides\n" := by decide +kernel
  have hsecond : assets (assetPath "fog") = .found "foo : bar\n" := by decide +kernel
  have hthird : assets (assetPath "reef") = .found "+background\n" := by decide +kernel
  have hquest : questOf assets "tides" = .ok { title := "Tides" } := by
    have hkey : Cache.key "TIDES" = Cache.key "tides" := by decide +kernel
    refine questOf_congr hkey ?_
    rw [questOf_of_found hfirst, htides]
    rfl
  have hpreload : (Cache.preload (m := Id) assets {} (sea.config seaDisk {}).preload).result =
      .ok 1 := by
    rw [(Cache.tells_preload_fixed (Cache.faithful_empty _) _).1, hconfig, List.mapM_cons, hquest]
    rfl
  have haccounts : ["TIDES", "fog", "reef", "tides"].flatMap (account assets) = [
      .out "ok: TIDES",
      .err "error: quest 'fog' is malformed: unknown directive 'foo' (byte 0) [quests/fog.qst:1:1]",
      .out "warning: reef: quest has no title",
      .out "ok: tides"] := by
    simp only [List.flatMap_cons, List.flatMap_nil, account, hfirst, hsecond, hthird, htides, hfog,
      hreef]
    decide +kernel
  have hfailed : ["TIDES", "fog", "reef", "tides"].countP (fails assets) = 1 := by
    simp [fails, hquest, questOf_of_found hfirst, questOf_of_found hsecond,
      questOf_of_found hthird, htides, hfog, hreef, Except.mapError]
  obtain ⟨hlines, hstatus⟩ := check_accounts hparse rfl hpreload rfl
  refine ⟨?_, fun hzero => ?_⟩
  · rw [hlines, haccounts, hfailed, closing, if_pos (by decide)]
    decide +kernel
  · have hfine := (hstatus.1 hzero).1 "fog" (by simp)
    rw [fails, questOf_of_found hsecond, hfog] at hfine
    cases hfine

end Cli

end Questbook
