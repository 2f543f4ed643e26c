import Tagmark.Proofs.Command.Report
import Tagmark.Proofs.Command.Steps
import Tagmark.Proofs.Files.Documents

/-!
What a check finds. It lists each document that cannot be read as a page, once and in order, and these
are the documents that cannot be rendered or shown as a tree (`Command.check_agrees`).
-/

namespace Tagmark.Command

open Attempt

section

variable {environment : Environment} {files : Files} {registry : Registry} {text : Place → String}

def findingAt? (environment : Environment) (registry : Registry) (text : Place → String)
    (way : Place) : Option Finding :=
  match (pageOf environment registry (text way)).result with
  | .ok _ => none
  | .error fault => some ⟨way, fault.kind, fault.message⟩

theorem findingAt?_eq_some {way : Place} {finding : Finding} :
    findingAt? environment registry text way = some finding ↔
      finding.way = way ∧ ∃ fault, (pageOf environment registry (text way)).result = .error fault ∧
        finding.kind = fault.kind ∧ finding.message = fault.message := by
  unfold findingAt?
  cases (pageOf environment registry (text way)).result with
  | ok page => simp
  | error fault =>
      obtain ⟨found, kind, message⟩ := finding
      simp [eq_comm]

theorem mem_findings {ways : List Place} {finding : Finding} :
    finding ∈ ways.filterMap (findingAt? environment registry text) ↔
      finding.way ∈ ways ∧
        ∃ fault, (pageOf environment registry (text finding.way)).result = .error fault ∧
          finding.kind = fault.kind ∧ finding.message = fault.message := by
  rw [List.mem_filterMap]
  constructor
  · rintro ⟨way, hmem, hfinding⟩
    obtain ⟨rfl, hfault⟩ := findingAt?_eq_some.1 hfinding
    exact ⟨hmem, hfault⟩
  · rintro ⟨hmem, hfault⟩
    exact ⟨finding.way, hmem, findingAt?_eq_some.2 ⟨rfl, hfault⟩⟩

theorem exists_finding_iff {ways : List Place} {way : Place} (hmem : way ∈ ways) :
    (∃ finding ∈ ways.filterMap (findingAt? environment registry text), finding.way = way) ↔
      ∃ fault, (pageOf environment registry (text way)).result = .error fault := by
  constructor
  · rintro ⟨finding, hfinding, rfl⟩
    obtain ⟨-, fault, hfault, -⟩ := mem_findings.1 hfinding
    exact ⟨fault, hfault⟩
  · rintro ⟨fault, hfault⟩
    exact ⟨⟨way, fault.kind, fault.message⟩, mem_findings.2 ⟨hmem, fault, hfault, rfl, rfl⟩, rfl⟩

theorem ascending_findings {ways : List Place} (hascending : ways.Pairwise (· < ·)) :
    (ways.filterMap (findingAt? environment registry text)).Pairwise
      fun left right => left.way < right.way := by
  refine hascending.filterMap _ fun left right hlt first hfirst second hsecond => ?_
  obtain ⟨rfl, -⟩ := findingAt?_eq_some.1 hfirst
  obtain ⟨rfl, -⟩ := findingAt?_eq_some.1 hsecond
  exact hlt

theorem gives_document {path text : String} (hread : files.read path = .ok text) :
    (document path).Gives files (.ok text) := by
  have hgives := gives_reading (fun files =>
    Noted.ofExcept ((files.read path).mapError (Failure.unreadable path))) files
  rwa [hread] at hgives

theorem gives_findings {root : String} {ways : List Place}
    (hreadable : ∀ way ∈ ways, files.read (Place.pathFrom root way) = .ok (text way)) :
    (findings environment registry root ways).Gives files
      (.ok (ways.filterMap (findingAt? environment registry text))) := by
  induction ways with
  | nil => exact gives_pure files []
  | cons way rest induction =>
      obtain ⟨hway, hrest⟩ := List.forall_mem_cons.1 hreadable
      refine (gives_document hway).bind_ok ((gives_reading _ files).bind_ok
        ((induction hrest).bind_ok ?_))
      rw [List.filterMap_cons, findingAt?]
      cases hpage : (pageOf environment registry (text way)).result with
      | ok page => exact gives_pure files _
      | error fault => exact gives_pure files _

section

variable {command : Command}
  (hloads : (registryOf environment files command.config).result = .ok registry)

include hloads

theorem gives_registry : (Command.registry environment command.config).Gives files (.ok registry) := by
  have hgives := gives_reading
    (fun files => (registryOf environment files command.config).mapReason Failure.fault) files
  change Gives _ files ((registryOf environment files command.config).result.mapError _) at hgives
  rwa [hloads] at hgives

theorem gives_page {path text : String} (hread : files.read path = .ok text) :
    (Command.page environment command.config path).Gives files
      ((pageOf environment registry text).result.mapError .fault) :=
  (gives_registry hloads).bind_ok ((gives_document hread).bind_ok (gives_reading _ files))

theorem runBy_page {path text : String} (hread : files.read path = .ok text) (action : Action)
    {print : Page → String}
    (hact : act environment (environment.coloured && !command.plain) command.config action =
      Command.page environment command.config path >>= fun page =>
        pure { output := print page }) :
    let outcome := (command.doing action).runBy environment files
    (outcome.ending.exitCode = 2 ↔
      ∃ fault, (pageOf environment registry text).result = .error fault) ∧
      ∀ page, (pageOf environment registry text).result = .ok page →
        outcome.ending.exitCode = 0 ∧ outcome.output = print page := by
  have hpage := gives_page hloads hread
  cases hresult : (pageOf environment registry text).result with
  | error fault =>
      rw [hresult] at hpage
      have hfails : (act environment (environment.coloured && !command.plain) command.config
          action).Gives files (.error (.fault fault)) := by
        rw [hact]
        exact hpage.bind_error
      obtain ⟨-, hending⟩ := runBy_of_gives_error (command.doing action) rfl hfails
      exact ⟨iff_of_true (congrArg Ending.exitCode hending) ⟨fault, rfl⟩, fun _ h => by cases h⟩
  | ok page =>
      rw [hresult] at hpage
      have hprints : (act environment (environment.coloured && !command.plain) command.config
          action).Gives files (.ok { output := print page }) := by
        rw [hact]
        exact hpage.bind_ok (gives_pure files _)
      obtain ⟨-, houtput, hending⟩ := runBy_of_gives_ok (command.doing action) rfl hprints
      have hzero : ((command.doing action).runBy environment files).ending.exitCode = 0 :=
        congrArg Ending.exitCode hending
      refine ⟨iff_of_false (fun htwo => ?_) fun ⟨_, h⟩ => (by cases h), fun other hother => ?_⟩
      · exact absurd (hzero.symm.trans htwo) (by decide)
      · cases hother
        exact ⟨hzero, houtput⟩

theorem runBy_check {directory : Option String} {found : List Walked}
    (hwalk : environment.walk files (directory.getD ".") = .ok found)
    (hreadable : ∀ way ∈ Walked.documents (directory.getD ".") found,
      files.read (Place.pathFrom (directory.getD ".") way) = .ok (text way))
    (format : ReportFormat) :
    let documents := Walked.documents (directory.getD ".") found
    let report : Report :=
      ⟨documents.length, documents.filterMap (findingAt? environment registry text)⟩
    let outcome := (command.doing (.check directory format)).runBy environment files
    outcome.output = report.print (environment.coloured && !command.plain) format ∧
      outcome.ending.exitCode = if report.findings = [] then 0 else 1 := by
  intro documents report outcome
  have hfound : (Attempt.reading fun files => .ofExcept
      ((environment.walk files (directory.getD ".")).mapError (.unwalkable (directory.getD ".")))).Gives
        files (.ok found) := by
    have hgives := gives_reading (fun files => Noted.ofExcept
      ((environment.walk files (directory.getD ".")).mapError
        (Failure.unwalkable (directory.getD ".")))) files
    rwa [hwalk] at hgives
  have hact : (act environment (environment.coloured && !command.plain) command.config
      (.check directory format)).Gives files (.ok {
        output := report.print (environment.coloured && !command.plain) format
        ending := if report.isClean then .success else .faulty }) :=
    (gives_registry hloads).bind_ok (hfound.bind_ok
      ((gives_findings hreadable).bind_ok (gives_pure files _)))
  obtain ⟨-, houtput, hending⟩ :=
    runBy_of_gives_ok (command.doing (.check directory format)) rfl hact
  refine ⟨houtput, ?_⟩
  rw [show outcome.ending = if report.isClean then .success else .faulty from hending,
    Report.isClean]
  by_cases hclean : report.findings = [] <;> simp [hclean, Ending.exitCode]

end

end

/-- Under a configuration that loads, and if all documents that a walk comes to can be read, a check
finds the documents among them that are no pages, each once and in order, and tells of each its path
and the kind and the message of its fault; its JSON can be read in no other way. Rendering a document
or showing its tree fails exactly if it is found, and otherwise prints its page. -/
theorem check_agrees (environment : Environment) (files : Files) (command : Command)
    {registry : Registry}
    (hloads : (registryOf environment files command.config).result = .ok registry)
    (directory : Option String) {found : List Walked}
    (hwalk : environment.walk files (directory.getD ".") = .ok found)
    (hdistinct : (found.map Walked.way).Nodup) {text : Place → String}
    (hreadable : ∀ way ∈ Walked.documents (directory.getD ".") found,
      files.read (Place.pathFrom (directory.getD ".") way) = .ok (text way)) :
    let root := directory.getD "."
    let documents := Walked.documents root found
    let coloured := environment.coloured && !command.plain
    let painted (start stop text : String) :=
      if coloured then "\x1b[" ++ start ++ "m" ++ text ++ "\x1b[" ++ stop ++ "m" else text
    let run (action : Action) := (command.doing action).runBy environment files
    (documents.Pairwise (· < ·) ∧
      ∀ way, way ∈ documents ↔ ⟨way, true⟩ ∈ found ∧
        (Place.ofText (Place.pathFrom root way)).getLast?.any isDocumentName = true) ∧
    ∃ findings : List Finding,
      (findings.Pairwise (fun left right => left.way < right.way) ∧
        ∀ finding, finding ∈ findings ↔ finding.way ∈ documents ∧
          ∃ fault, (pageOf environment registry (text finding.way)).result = .error fault ∧
            finding.kind = fault.kind ∧ finding.message = fault.message) ∧
      (run (.check directory .json)).output =
        (Data.mapping
          [("checked", .integer documents.length),
            ("failures", .list (findings.map fun finding => .mapping
              [("path", .text finding.way.print), ("kind", .text finding.kind.name),
                ("message", .text finding.message)]))]).json ++ "\n" ∧
      (∀ other : Report, other.print coloured .json = (run (.check directory .json)).output →
        other.checked = documents.length ∧
          other.findings.map Finding.shown = findings.map Finding.shown) ∧
      (run (.check directory .text)).output =
        String.join (findings.map fun finding =>
          painted "31" "39" "error:" ++ " " ++ painted "1" "0" finding.way.print ++ ": " ++
            finding.message ++ "\n") ++
        (if findings = [] then
          painted "32" "39" ("All " ++ toString documents.length ++ " document(s) are valid.") ++ "\n"
        else
          "\n" ++ toString findings.length ++ " of " ++ toString documents.length ++
            " document(s) failed.\n") ∧
      (∀ format, (run (.check directory format)).ending.exitCode =
        if findings = [] then 0 else 1) ∧
      ∀ way ∈ documents,
        let path := Place.pathFrom root way
        let isFound := ∃ finding ∈ findings, finding.way = way
        ((run (.render path none)).ending.exitCode = 2 ↔ isFound) ∧
        ((run (.tree path)).ending.exitCode = 2 ↔ isFound) ∧
        (¬isFound → ∃ page, (pageOf environment registry (text way)).result = .ok page ∧
          (run (.render path none)).ending.exitCode = 0 ∧
          (run (.render path none)).output = page.content.print ++ "\n" ∧
          (run (.tree path)).ending.exitCode = 0 ∧
          (run (.tree path)).output =
            (Data.mapping
              [("frontmatter", .mapping page.frontmatter.data.entries),
                ("content", page.content.toData)]).json ++ "\n" ∧
          ∀ other, (pageData ⟨page.frontmatter, other⟩).json ++ "\n" = (run (.tree path)).output →
            other = page.content) := by
  intro root documents coloured painted run
  have hascending : documents.Pairwise (· < ·) := Walked.ascending_documents hdistinct
  have hchecks := runBy_check hloads hwalk hreadable
  refine ⟨⟨hascending, fun way => Walked.mem_documents⟩,
    documents.filterMap (findingAt? environment registry text),
    ⟨ascending_findings hascending, fun _ => mem_findings⟩, (hchecks .json).1,
    fun other heq => Report.print_json_inj (heq.trans (hchecks .json).1),
    (hchecks .text).1.trans (Report.print_text ..), fun format => (hchecks format).2, ?_⟩
  intro way hmem path isFound
  have hread : files.read path = .ok (text way) := hreadable way hmem
  have hfound : isFound ↔ _ := exists_finding_iff hmem
  obtain ⟨hrenderFails, hrenders⟩ := runBy_page hloads hread (.render path none) rfl
  obtain ⟨htreeFails, hshows⟩ := runBy_page hloads hread (.tree path) rfl
  refine ⟨hrenderFails.trans hfound.symm, htreeFails.trans hfound.symm, fun hsound => ?_⟩
  cases hpage : (pageOf environment registry (text way)).result with
  | error fault => exact absurd (hfound.2 ⟨fault, hpage⟩) hsound
  | ok page =>
      obtain ⟨hrender, hprinted⟩ := hrenders page hpage
      obtain ⟨htree, hshown⟩ := hshows page hpage
      exact ⟨page, rfl, hrender, hprinted, htree, hshown, fun other heq =>
        content_of_json_pageData ((String.append_left_inj "\n").1 (heq.trans hshown))⟩

theorem check_agrees_docs :
    let files : Files := .ofList
      [("home/tbdoc.toml", .text "[tags.note]\nrender = \"aside\"\n"),
        ("srv/docs/.old/c.tinybird", .text "\x7b% if %\x7d\n"),
        ("srv/docs/a.tinybird", .text "\x7b% note /%\x7d\n"),
        ("srv/docs/sub/b.tinybird", .text "\x7b% end")] "home"
    let run (action : Action) := runBy (.standard true) files ⟨none, false, false, some action⟩
    (∀ format, (run (.check (some "/srv/docs") format)).ending.exitCode = 1) ∧
      (run (.tree "/srv/docs/a.tinybird")).ending.exitCode = 0 ∧
      (run (.render "/srv/docs/sub/b.tinybird" none)).ending.exitCode = 2 ∧
      ∃ findings : List Finding, (∃ finding ∈ findings, finding.way = ["sub", "b.tinybird"]) ∧
        (¬∃ finding ∈ findings, finding.way = ["a.tinybird"]) ∧
        (run (.check (some "/srv/docs") .json)).output =
          (Data.mapping
            [("checked", .integer 2),
              ("failures", .list (findings.map Finding.toData))]).json ++ "\n" := by
  intro files run
  let found : List Walked := [⟨["a.tinybird"], true⟩, ⟨["sub", "b.tinybird"], true⟩]
  let text (way : Place) : String :=
    if way = ["a.tinybird"] then "\x7b% note /%\x7d\n" else "\x7b% end"
  have hwalk : files.walk "/srv/docs" = .ok found := eq_ok_of_toOption (by decide +kernel)
  have hdocuments : Walked.documents "/srv/docs" found =
      [["a.tinybird"], ["sub", "b.tinybird"]] := by
    have hways : (found.filter (Walked.isDocument "/srv/docs")).map Walked.way =
        [["a.tinybird"], ["sub", "b.tinybird"]] := by
      decide +kernel
    rw [Walked.documents, hways]
    exact List.mergeSort_of_pairwise (by decide)
  have hreadable : ∀ way ∈ Walked.documents "/srv/docs" found,
      files.read (Place.pathFrom "/srv/docs" way) = .ok (text way) := by
    rw [hdocuments, List.forall_mem_cons, List.forall_mem_singleton]
    exact ⟨eq_ok_of_toOption (by decide +kernel), eq_ok_of_toOption (by decide +kernel)⟩
  have hloads : (registryOf (.standard true) files none).result.toOption.isSome = true := by
    decide +kernel
  obtain ⟨registry, hregistry⟩ := Option.isSome_iff_exists.1 hloads
  obtain ⟨-, findings, -, hjson, -, -, hcode, hagrees⟩ :=
    check_agrees (.standard true) files ⟨none, false, false, none⟩ (eq_ok_of_toOption hregistry)
      (some "/srv/docs") hwalk (Files.nodup_walk hwalk) hreadable
  rw [Option.getD_some, hdocuments] at hjson hagrees
  obtain ⟨hsound, hfaulty⟩ := List.forall_mem_cons.1 hagrees
  obtain ⟨hrender, -⟩ := List.forall_mem_singleton.1 hfaulty
  have hfound := hrender.1 (by decide +kernel)
  have hnotFound : ¬∃ finding ∈ findings, finding.way = ["a.tinybird"] := fun hthere =>
    absurd (hsound.1.2 hthere) (by decide +kernel)
  obtain ⟨-, -, -, -, htree, -⟩ := hsound.2.2 hnotFound
  have hsome : findings ≠ [] := by
    obtain ⟨finding, hmem, -⟩ := hfound
    exact List.ne_nil_of_mem hmem
  exact ⟨fun format => (hcode format).trans (if_neg hsome), htree,
    hrender.2 hfound, findings, hfound, hnotFound, hjson⟩

end Tagmark.Command
