import PlaybookPolicy.Proofs.CommandAgreement
import PlaybookPolicy.Proofs.NewFile

/-!
# A fresh configuration

The file that is written for a project without a configuration says what a run assumes without one:
it reads as a configuration with the same patterns, the same rules and the same choices on output.
It is no playbook, and its name matches none of the patterns.  So a check prints what it printed
before, if the new file does not take part in it otherwise: as one of its roots, or through a link
that makes it an ignore file.

## Main definitions

* `Config.SaysTheSame` — two configurations lead to the same runs.
* `FileTree.configPlace` — the place of the usual configuration file.

## Main results

* `Config.parse_configTemplate` — **the template says what is assumed without a configuration.**
* `FileTree.initHere_of_none` — the file is written where there is none.
* `FileTree.check_initHere` — **a fresh configuration changes nothing.**
* `FileTree.check_initHere_differs` — except through a link.
-/

namespace PlaybookPolicy

/-! ### The template -/

theorem toList_configTemplate :
    configTemplate.toList = templateLines.flatMap fun s => s.toList ++ ['\n'] := by
  rw [configTemplate, String.toList_join, List.flatMap_map]
  simp

namespace Config

/-- Runs under the configurations list the same files, lint them by the same rules and print in the
same form. -/
structure SaysTheSame (c c' : Config) : Prop where
  includes : c.includes = c'.includes
  excludes : c.excludes = c'.excludes
  format : c.format = c'.format
  color : c.color = c'.color
  rules : Registry.ofConfig c = Registry.ofConfig c'

instance (c c' : Config) : Decidable (c.SaysTheSame c') :=
  decidable_of_iff
    (c.includes = c'.includes ∧ c.excludes = c'.excludes ∧ c.format = c'.format ∧
      c.color = c'.color ∧ Registry.ofConfig c = Registry.ofConfig c')
    ⟨fun ⟨h₁, h₂, h₃, h₄, h₅⟩ => ⟨h₁, h₂, h₃, h₄, h₅⟩,
      fun ⟨h₁, h₂, h₃, h₄, h₅⟩ => ⟨h₁, h₂, h₃, h₄, h₅⟩⟩

/-- **The template says what is assumed without a configuration.** -/
theorem parse_configTemplate : ∃ c, parse configTemplate = .ok c ∧ c.SaysTheSame {} := by
  have h : (parse configTemplate).toOption.any fun c => c.SaysTheSame {} := by
    -- read line by line: taking the joined text apart again costs most of the evaluation
    rw [parse, Toml.read?, toList_configTemplate]
    decide +kernel
  cases hparse : parse configTemplate with
  | error e =>
    rw [hparse] at h
    cases h
  | ok c =>
    rw [hparse] at h
    exact ⟨c, rfl, of_decide_eq_true h⟩

end Config

/-- The octets of the template are read as the template. -/
theorem decode?_configTemplate :
    Text.Utf8.decode? (Text.Utf8.encode configTemplate) = some configTemplate := by
  have h : (Text.Utf8.decode (configTemplate.toList.flatMap String.utf8EncodeChar)).mapM id =
      some configTemplate.toList := by
    rw [toList_configTemplate]
    decide +kernel
  rw [Text.Utf8.decode?, Text.Utf8.encode, h, Option.map_some, String.ofList_toList]

namespace FileTree

variable {t : FileTree}

/-! ### Its place -/

/-- The place of the usual configuration file. -/
def configPlace (t : FileTree) : Place :=
  t.here ++ [Text.Utf8.encode configFileName]

theorem isEntryName_configFileName : IsEntryName (Text.Utf8.encode configFileName) := by
  decide

theorem isDescent_configPlace (ht : t.WellFormed) (hhere : t.node? t.here = some .directory) :
    IsDescent t.configPlace := by
  refine ⟨by simp [configPlace], fun n hn => ?_⟩
  rcases List.mem_append.mp hn with hn | hn
  · have hne : t.here ≠ [] := List.ne_nil_of_mem hn
    exact (ht.names _ (mem_nodes_of_node? hne hhere)).isEntryName n hn
  · rw [List.mem_singleton.mp hn]
    exact isEntryName_configFileName

/-- A name in a directory leads to its place if no link stands there. -/
theorem followSegments_name {enter : Place → List (List UInt8) → Except FileError Located}
    {q : Place} {n : EntryName} (hq : t.node? q = some .directory) (hn : IsEntryName n)
    (hlink : ∀ target, t.node? (q ++ [n]) ≠ some (.link target)) :
    t.followSegments true enter q [n] = .ok ⟨q ++ [n], t.node? (q ++ [n])⟩ := by
  have hlength : ¬n.length > nameLimit := by
    have hle := hn.length_le
    omega
  rw [followSegments, if_neg (by simp [hq]),
    if_neg (by simp [Path.isVoidSegment_of_isEntryName hn]), if_neg (by simpa using hn.ne_dotDot),
    if_neg hlength]
  cases hnode : t.node? (q ++ [n]) with
  | none => simp [hnode]
  | some node =>
    cases node with
    | file l => simp [followSegments, hnode]
    | directory => simp [followSegments, hnode]
    | link target => exact absurd hnode (hlink target)

/-- The name of the configuration file leads to its place, with or without a `.` before it. -/
theorem locate_configFile (hhere : t.node? t.here = some .directory)
    (hlink : ∀ target, t.node? t.configPlace ≠ some (.link target)) :
    t.locate true (.ofText configFileName) = .ok ⟨t.configPlace, t.node? t.configPlace⟩ ∧
      t.locate true ((Path.ofText ".").join (.ofText configFileName)) =
        .ok ⟨t.configPlace, t.node? t.configPlace⟩ := by
  have hname : ∀ enter, t.followSegments true enter t.here [Text.Utf8.encode configFileName] =
      .ok ⟨t.configPlace, t.node? t.configPlace⟩ :=
    fun enter => followSegments_name hhere isEntryName_configFileName hlink
  have hsegs : Path.segments (Path.ofText configFileName).octets =
      [Text.Utf8.encode configFileName] := by decide
  have hsegs' : Path.segments ((Path.ofText ".").join (.ofText configFileName)).octets =
      [Path.dot, Text.Utf8.encode configFileName] := by decide
  constructor
  · rw [locate_eq_of_le (by decide) (by decide) (by decide), hsegs, if_neg (by decide)]
    exact hname _
  · rw [locate_eq_of_le (by decide) (by decide) (by decide), hsegs', if_neg (by decide)]
    show t.followSegments true _ t.here _ = _
    rw [followSegments, if_neg (by simp [hhere]), if_pos (by decide)]
    exact hname _

/-- The usual root of a check is not the configuration file. -/
theorem not_leadsTo_of_default (hhere : t.node? t.here = some .directory) :
    ∀ path ∈ ({} : CheckOptions).paths, ¬t.LeadsTo (.ofText path) t.configPlace := by
  intro path hpath hleads
  rw [List.mem_singleton.mp hpath] at hleads
  have heq : t.configPlace = t.here := place_of_locate (locate_hereRoot hhere) hleads
  simp [configPlace] at heq

/-! ### Writing it -/

section

variable (hhere : t.node? t.here = some .directory) (hnone : t.node? t.configPlace = none)

/-- The tree with a fresh configuration file. -/
def withConfig (t : FileTree) : FileTree :=
  t.insert t.configPlace (.file (Text.Utf8.encode configTemplate))

include hhere hnone

/-- **The file is written where there is none.** -/
theorem initHere_of_none (force : Bool) :
    t.initHere force = ({ exitCode := 0, output := "Created playlint.toml.\n" }, t.withConfig) := by
  have hlocate := (locate_configFile hhere (by simp [hnone])).2
  rw [hnone] at hlocate
  have hhas : t.has ((Path.ofText ".").join (.ofText configFileName)) = false := by
    rw [has, look, hlocate]
    rfl
  have hwrite : t.write ((Path.ofText ".").join (.ofText configFileName))
      (Text.Utf8.encode configTemplate) = .ok t.withConfig := by
    rw [write, hlocate]
    rfl
  rw [initHere, initIn, hhas, hwrite]
  rfl

omit hhere hnone in
theorem loadConfig_of_located {q : Place} {l : List UInt8} {text : String}
    (hlocate : t.locate true (.ofText configFileName) = .ok ⟨q, some (.file l)⟩)
    (htext : Text.Utf8.decode? l = some text) : t.loadConfig none = Config.parse text := by
  have hhas : t.has (.ofText configFileName) = true := by
    rw [has, look, hlocate]
    rfl
  simp only [loadConfig, if_pos hhas, configAt, readText, read, hlocate, htext]

theorem loadConfig_of_none : t.loadConfig none = .ok {} := by
  have hlocate := (locate_configFile hhere (by simp [hnone])).1
  rw [hnone] at hlocate
  rw [loadConfig, has, look, hlocate]
  rfl

omit hnone in
theorem loadConfig_withConfig : t.withConfig.loadConfig none = Config.parse configTemplate := by
  have hnode : t.withConfig.node? t.withConfig.configPlace =
      some (.file (Text.Utf8.encode configTemplate)) :=
    node?_insert_self (by simp [configPlace])
  have hne : t.here ≠ t.configPlace := by simp [configPlace]
  have hlocate := (locate_configFile (t := t.withConfig)
    ((node?_insert_of_ne hne).trans hhere) (by simp [hnode])).1
  rw [hnode] at hlocate
  exact loadConfig_of_located hlocate decode?_configTemplate

theorem configures_of_none : t.Configures none {} :=
  loadConfig_eq_ok_iff.mp (loadConfig_of_none hhere hnone)

omit hnone in
theorem exists_configures_withConfig :
    ∃ c, t.withConfig.Configures none c ∧ c.SaysTheSame {} := by
  obtain ⟨c, hparse, hsame⟩ := Config.parse_configTemplate
  exact ⟨c, loadConfig_eq_ok_iff.mp ((loadConfig_withConfig hhere).trans hparse), hsame⟩

end

/-! ### The patterns that are assumed -/

theorem suffix_octets_ofNames {n : EntryName} {names : Place} :
    n <:+ (Path.ofNames (names ++ [n])).octets := by
  have hname : (Path.ofSegments [n]).octets = n := List.append_nil n
  show n <:+ (Path.ofSegments (names ++ [n])).octets
  by_cases hnames : names = []
  · simp only [hnames, List.nil_append, hname, List.suffix_refl]
  · rw [Path.ofSegments_append hnames (List.cons_ne_nil n []), hname]
    exact (List.suffix_cons _ n).trans (List.suffix_append _ _)

/-- A pattern of an extension that the name of the configuration file does not have. -/
theorem not_patternMatches_config {text : String} {cs : List Char} {names : Place}
    (hparse : Glob.parse text = .ok ⟨text, .leading :: .run :: cs.map .literal⟩)
    (hext : ¬cs.flatMap octetsOf <:+ Text.Utf8.encode configFileName)
    (hlength : (cs.flatMap octetsOf).length ≤ (Text.Utf8.encode configFileName).length) :
    ¬PatternMatches text (.ofNames (names ++ [Text.Utf8.encode configFileName])) := by
  rw [patternMatches_iff hparse]
  intro hmatch
  exact hext (List.suffix_of_suffix_length_le (suffix_of_matches_extension rfl hmatch)
    suffix_octets_ofNames hlength)

theorem leavesFile_configPlace : LeavesFile {} t.configPlace := by
  intro filter hfilter directory names happend hnames
  have hyml : Glob.parse "**/*.yml" =
      .ok ⟨"**/*.yml", .leading :: .run :: ".yml".toList.map .literal⟩ := rfl
  have hyaml : Glob.parse "**/*.yaml" =
      .ok ⟨"**/*.yaml", .leading :: .run :: ".yaml".toList.map .literal⟩ := rfl
  have hpatterns : ∀ s ∈ ({} : Config).includes ++ ({} : Config).excludes,
      ∃ g, Glob.parse s = .ok g := by
    intro s hs
    rcases List.mem_pair.mp hs with rfl | rfl
    · exact ⟨_, hyml⟩
    · exact ⟨_, hyaml⟩
  obtain ⟨filter', hfilter', htakes⟩ := exists_ofPatterns hpatterns
  cases hfilter.symm.trans hfilter'
  obtain ⟨init, rfl⟩ : ∃ init, names = init ++ [Text.Utf8.encode configFileName] := by
    rcases List.eq_nil_or_concat names with rfl | ⟨init, n, rfl⟩
    · exact absurd rfl hnames.ne_nil
    · rw [List.concat_eq_append, configPlace, ← List.append_assoc] at happend
      rw [List.concat_eq_append, (List.append_inj' happend rfl).2]
      exact ⟨init, rfl⟩
  rw [← Bool.not_eq_true, htakes]
  rintro ⟨hnil | ⟨s, hs, hmatch⟩, -⟩
  · cases hnil
  · rcases List.mem_pair.mp hs with rfl | rfl
    · exact not_patternMatches_config hyml (by decide) (by decide) hmatch
    · exact not_patternMatches_config hyaml (by decide) (by decide) hmatch

/-! ### The same runs -/

theorem discover_of_saysTheSame {c c' : Config} {roots : List Path} (h : c.SaysTheSame c') :
    t.discover c roots = t.discover c' roots := by
  rw [discover, discover, h.includes, h.excludes]

/-- A check prints the same in another tree, under a configuration that says the same, if the same
files are listed, or none can be, and they are linted with the same outcome. -/
theorem check_of_saysTheSame {t' : FileTree} {c c' : Config} {g : Registry} {options : CheckOptions}
    (hbefore : t.Configures options.config c) (hafter : t'.Configures options.config c')
    (hsame : c'.SaysTheSame c) (hg : Registry.ofConfig c = .ok g)
    (hlisted : (t'.discover c (options.paths.map Path.ofText)).toOption =
      (t.discover c (options.paths.map Path.ofText)).toOption)
    (hlint : ∀ files, t.discover c (options.paths.map Path.ofText) = .ok files →
      t'.lint g files = t.lint g files) (color : Option ColorChoice) :
    (t'.check options color).exitCode = (t.check options color).exitCode ∧
      (t'.check options color).output = (t.check options color).output := by
  have hg' : Registry.ofConfig c' = .ok g := hsame.rules.trans hg
  rw [← discover_of_saysTheSame hsame] at hlisted
  -- either both runs fail on the files, perhaps for other causes, or both lint the same ones
  cases hfiles : t.discover c (options.paths.map Path.ofText) <;>
    cases hfiles' : t'.discover c' (options.paths.map Path.ofText) <;>
      rw [hfiles, hfiles'] at hlisted <;> cases hlisted
  case error.error e e' =>
    obtain ⟨f, hcode, hcheck⟩ := check_of_failsToList ⟨hbefore, .inr ⟨g, e, hg, hfiles⟩⟩ color
    obtain ⟨f', hcode', hcheck'⟩ := check_of_failsToList ⟨hafter, .inr ⟨g, e', hg', hfiles'⟩⟩ color
    rw [hcheck, hcheck']
    exact ⟨hcode'.trans hcode.symm, rfl⟩
  case ok.ok files =>
    rw [check_of_lints ⟨hbefore, hg, hfiles⟩, check_of_lints ⟨hafter, hg', hfiles'⟩,
      hlint files hfiles, hsame.format, isColored, isColored, hsame.color]
    exact ⟨rfl, rfl⟩

theorem check_withConfig (ht : t.WellFormed) (hhere : t.node? t.here = some .directory)
    (hnone : t.node? t.configPlace = none) (hrules : t.NoRuleFileAt t.configPlace)
    {options : CheckOptions} (hconfig : options.config = none)
    (hpaths : ∀ path ∈ options.paths, ¬t.LeadsTo (.ofText path) t.configPlace)
    (color : Option ColorChoice) :
    (t.withConfig.check options color).exitCode = (t.check options color).exitCode ∧
      (t.withConfig.check options color).output = (t.check options color).output := by
  obtain ⟨c, hafter, hsame⟩ := exists_configures_withConfig hhere
  obtain ⟨g, hg⟩ : ∃ g, Registry.ofConfig {} = .ok g := ⟨_, rfl⟩
  have hbefore := configures_of_none hhere hnone
  rw [← hconfig] at hbefore hafter
  have hroots : ∀ root ∈ options.paths.map Path.ofText, ¬t.LeadsTo root t.configPlace := by
    intro root hroot
    obtain ⟨path, hpath, rfl⟩ := List.mem_map.mp hroot
    exact hpaths path hpath
  have hplace := isDescent_configPlace ht hhere
  exact check_of_saysTheSame hbefore hafter hsame hg
    (discover_insert hnone hrules leavesFile_configPlace hplace hroots)
    (fun files hfiles => lint_insert hnone ht hfiles) color

theorem listRules_withConfig (hhere : t.node? t.here = some .directory)
    (hnone : t.node? t.configPlace = none) {listing : ListOptions}
    (hconfig : listing.config = none) : t.withConfig.listRules listing = t.listRules listing := by
  obtain ⟨c, hafter, hsame⟩ := exists_configures_withConfig hhere
  obtain ⟨g, hg⟩ : ∃ g, Registry.ofConfig {} = .ok g := ⟨_, rfl⟩
  have hbefore := configures_of_none hhere hnone
  rw [← hconfig] at hbefore hafter
  rw [listRules_of_setUp (setUp_of_ok hbefore hg),
    listRules_of_setUp (setUp_of_ok hafter (hsame.rules.trans hg)), hsame.format]

/-- **A fresh configuration changes nothing.**  Where nothing has its name yet, it is written; then
the rules are listed as before, and a check ends with the same exit code and prints the same, in any
form and with any choice of colours, if none of its roots leads to the new file and no link makes it
an ignore file or the mark of a repository.  What is printed as an error when the rules are listed
is the same as well, but for the lines of the log, which no reply holds. -/
theorem check_initHere (ht : t.WellFormed) (hhere : t.node? t.here = some .directory)
    (hnone : t.node? t.configPlace = none) (force : Bool) :
    ∃ after, t.initHere force =
        ({ exitCode := 0, output := "Created playlint.toml.\n" }, after) ∧
      (t.NoRuleFileAt t.configPlace → ∀ (options : CheckOptions) (color : Option ColorChoice),
        options.config = none →
          (∀ path ∈ options.paths, ¬t.LeadsTo (.ofText path) t.configPlace) →
            (after.check options color).exitCode = (t.check options color).exitCode ∧
              (after.check options color).output = (t.check options color).output) ∧
      ∀ listing : ListOptions, listing.config = none →
        after.listRules listing = t.listRules listing :=
  ⟨t.withConfig, initHere_of_none hhere hnone force,
    fun hrules _ color hconfig hpaths =>
      check_withConfig ht hhere hnone hrules hconfig hpaths color,
    fun _ hconfig => listRules_withConfig hhere hnone hconfig⟩

theorem check_initHere_overlapTree :
    overlapTree.WellFormed ∧ overlapTree.node? overlapTree.here = some .directory ∧
      overlapTree.node? overlapTree.configPlace = none ∧
        overlapTree.NoRuleFileAt overlapTree.configPlace ∧
          ∃ after, overlapTree.initHere false =
              ({ exitCode := 0, output := "Created playlint.toml.\n" }, after) ∧
            (after.check {} none).exitCode = (overlapTree.check {} none).exitCode ∧
              (after.check {} none).output = (overlapTree.check {} none).output := by
  have hlinks : ∀ q target, overlapTree.node? q ≠ some (.link target) := by
    intro q target hq
    by_cases hne : q = []
    · rw [hne] at hq
      cases hq
    · have hmem := mem_nodes_of_node? hne hq
      rw [overlapTree, List.mem_singleton] at hmem
      cases hmem
  have hrules : overlapTree.NoRuleFileAt overlapTree.configPlace := by
    rw [configPlace]
    exact noRuleFileAt_of_no_links hlinks (by decide)
  obtain ⟨after, hinit, hcheck, -⟩ := check_initHere wellFormed_overlapTree rfl rfl false
  exact ⟨wellFormed_overlapTree, rfl, rfl, hrules, after, hinit,
    hcheck hrules {} none rfl (not_leadsTo_of_default rfl)⟩

/-! ### A link that led nowhere -/

/-- A directory with a playbook that lacks a collection, where `.git` is a link to a configuration
file that is not there yet.  Inside a repository, nothing would be linted. -/
def linkTree : FileTree :=
  { nodes := [([Text.Utf8.encode ".git"], .link (.ofText configFileName)),
      ([Text.Utf8.encode ".gitignore"], .file (Text.Utf8.encode "*\n")),
      ([Text.Utf8.encode "site.yml"], .file (Text.Utf8.encode "- hosts: all\n"))]
    here := [] }

theorem wellFormed_linkTree : linkTree.WellFormed :=
  ⟨fun e he => ⟨by revert e; decide, by revert e; decide⟩, by decide, by decide⟩

theorem node?_here_linkTree : linkTree.node? linkTree.here = some .directory :=
  rfl

theorem node?_configPlace_linkTree : linkTree.node? linkTree.configPlace = none :=
  rfl

theorem exitCode_check_linkTree : (linkTree.check {} none).exitCode = 1 := by
  have hmapM : [Path.ofText "."].mapM
      (linkTree.select ({} : Config).includes ({} : Config).excludes) =
        .ok [[.ofText "./site.yml"]] := by decide +kernel
  have hfound : (Registry.ofConfig {}).toOption.any fun g =>
      !(linkTree.findingsAt g (.ofText "./site.yml")).isEmpty := by decide +kernel
  have hsorted : sortedPaths [Path.ofText "./site.yml"] = [.ofText "./site.yml"] :=
    sortedPaths_of_pairwise (List.pairwise_singleton _ _)
  have hfiles : linkTree.discover {} [.ofText "."] = .ok [.ofText "./site.yml"] :=
    (discover_of_mapM hmapM).trans (congrArg Except.ok hsorted)
  obtain ⟨g, hg⟩ : ∃ g, Registry.ofConfig {} = .ok g := ⟨_, rfl⟩
  have hconfig : linkTree.Configures none {} :=
    configures_of_none node?_here_linkTree node?_configPlace_linkTree
  have hpassed : (linkTree.lint g [.ofText "./site.yml"]).passed ≠ true := by
    rw [Ne, passed_lint_iff]
    intro h
    rw [hg] at hfound
    have hnone := (h _ (List.mem_singleton_self _)).1
    simp [hnone, Except.toOption] at hfound
  rw [exitCode_of_lints ⟨hconfig, hg, hfiles⟩, if_neg hpassed]

theorem exitCode_check_linkTree_withConfig : (linkTree.withConfig.check {} none).exitCode = 0 := by
  have hmapM : [Path.ofText "."].mapM
      (linkTree.withConfig.select ({} : Config).includes ({} : Config).excludes) = .ok [[]] := by
    decide +kernel
  obtain ⟨c, hconfig, hsame⟩ :=
    exists_configures_withConfig node?_here_linkTree
  obtain ⟨g, hg⟩ : ∃ g, Registry.ofConfig {} = .ok g := ⟨_, rfl⟩
  have hfiles : linkTree.withConfig.discover c [.ofText "."] = .ok [] := by
    rw [discover_of_saysTheSame hsame]
    exact (discover_of_mapM hmapM).trans
      (congrArg Except.ok (sortedPaths_of_pairwise List.Pairwise.nil))
  have hlints : linkTree.withConfig.Lints {} c g [] := ⟨hconfig, hsame.rules.trans hg, hfiles⟩
  rw [exitCode_of_lints hlints, if_pos]
  exact passed_lint_iff.mpr fun p hp => by cases hp

/-- **A fresh configuration may change a check**, if a link that led nowhere leads to it. -/
theorem check_initHere_differs :
    ¬∀ (t : FileTree) (force : Bool), t.WellFormed → t.node? t.here = some .directory →
      t.node? t.configPlace = none →
        ∃ after, t.initHere force =
            ({ exitCode := 0, output := "Created playlint.toml.\n" }, after) ∧
          (∀ (options : CheckOptions) (color : Option ColorChoice), options.config = none →
            (∀ path ∈ options.paths, ¬t.LeadsTo (.ofText path) t.configPlace) →
              (after.check options color).exitCode = (t.check options color).exitCode ∧
                (after.check options color).output = (t.check options color).output) ∧
          ∀ listing : ListOptions, listing.config = none →
            after.listRules listing = t.listRules listing := by
  intro h
  obtain ⟨after, hinit, hcheck, -⟩ :=
    h linkTree false wellFormed_linkTree node?_here_linkTree node?_configPlace_linkTree
  rw [initHere_of_none node?_here_linkTree node?_configPlace_linkTree] at hinit
  obtain rfl : linkTree.withConfig = after := (Prod.mk.inj hinit).2
  have hsame := (hcheck {} none rfl (not_leadsTo_of_default node?_here_linkTree)).1
  rw [exitCode_check_linkTree, exitCode_check_linkTree_withConfig] at hsame
  cases hsame

end FileTree

end PlaybookPolicy
