import PlaybookPolicy.Rule.Collections
import PlaybookPolicy.Rule.Recipients
import PlaybookPolicy.RuleId

/-!
# Rules and findings

A rule inspects tasks or plays and complains about them; a finding is a complaint with its place.

## Main definitions

* `Check` — what a rule checks, with its resolved options.
* `Rule` — a check with the severity of its findings.
* `Finding` — one complaint.
* `Rule.taskFindings`, `Rule.playFindings` — what a rule finds in a task or a play.
* `Rule.recipients`, `Rule.collections` — the built-in rules for given settings.
-/

namespace PlaybookPolicy

/-- What a rule checks. -/
inductive Check where
  /-- Mail goes to allowed domains only. -/
  | recipients (allowed : AllowedDomains)
  /-- Plays declare the mandatory collections. -/
  | collections (mandatory : MandatoryCollections)
  deriving DecidableEq, Repr

/-- A rule. -/
structure Rule where
  /-- What the rule checks. -/
  check : Check
  /-- How grave its findings are. -/
  severity : Severity := .veryHigh
  deriving DecidableEq, Repr

/-- One complaint of a rule. -/
structure Finding where
  /-- The rule that complains. -/
  rule : RuleId
  /-- How grave the finding is. -/
  severity : Severity
  /-- What is wrong. -/
  message : String
  /-- The file it is wrong in. -/
  file : Path
  /-- The line, counted from one. -/
  line : Option Nat
  /-- The name of the task. -/
  task : Option String
  deriving DecidableEq

/-- The id of the recipients rule. -/
def recipientsId : RuleId :=
  ⟨"email-address-validation", by decide⟩

/-- The id of the collections rule. -/
def collectionsId : RuleId :=
  ⟨"must_include_collections", by decide⟩

/-- The id of the rule that makes the check. -/
def Check.id : Check → RuleId
  | recipients _ => recipientsId
  | collections _ => collectionsId

namespace Rule

/-- The id of a rule. -/
def id (r : Rule) : RuleId :=
  r.check.id

/-- The title of a rule. -/
def title (r : Rule) : String :=
  match r.check with
  | .recipients _ => "Sending email should only use valid email addresses"
  | .collections _ => "Must Include Collections"

/-- What a rule is for. -/
def description (r : Rule) : String :=
  match r.check with
  | .recipients _ =>
    "Tasks using the mail module (`mail` or `community.general.mail`) may only address " ++
      "recipients in the `to`, `cc` and `bcc` fields within the allowed email domains, so " ++
      "notifications do not leak outside the organisation."
  | .collections _ =>
    "Every play of a playbook must list the mandatory collections in its `collections` " ++
      "keyword. The list is set with the `mandatory_collections` option."

/-- The tags that group rules. -/
def tags (r : Rule) : List String :=
  match r.check with
  | .recipients _ => ["email", "customer"]
  | .collections _ => ["collections", "customer"]

/-- The version that introduced a rule. -/
def versionAdded (_ : Rule) : String :=
  "0.1.0"

/-- The resolved options of a rule, by name. -/
def options (r : Rule) : List (String × List String) :=
  match r.check with
  | .recipients allowed => [("allowed_email_domains", allowed.domains)]
  | .collections mandatory => [("mandatory_collections", mandatory.names)]

/-- The complaint of a rule about a task. -/
def taskComplaint? (r : Rule) (t : Task) : Option String :=
  match r.check with
  | .recipients allowed => t.recipientComplaint? allowed
  | .collections _ => none

/-- The complaints of a rule about a play. -/
def playComplaints (r : Rule) (p : Play) : List String :=
  match r.check with
  | .recipients _ => []
  | .collections mandatory => (p.missingCollections mandatory).map collectionComplaint

/-- What a rule finds in a task of a file. -/
def taskFindings (r : Rule) (file : Path) (t : Task) : List Finding :=
  (r.taskComplaint? t).toList.map fun message =>
    { rule := r.id, severity := r.severity, message, file, line := t.line, task := t.name }

/-- What a rule finds in a play. -/
def playFindings (r : Rule) (p : Play) : List Finding :=
  (r.playComplaints p).map fun message =>
    { rule := r.id, severity := r.severity, message, file := p.path, line := p.line, task := none }

/-- The severity that the settings ask for. -/
def severityOf (settings : Option RuleSettings) : Severity :=
  (settings.bind (·.severity)).getD .veryHigh

/-- The recipients rule for the given settings. It has no list of collections. -/
def recipients (settings : Option RuleSettings) : Except RuleError Rule :=
  if (settings.bind (·.mandatoryCollections)).isSome then
    .error (.invalidOption recipientsId.text "mandatory_collections")
  else
    let allowed := match settings.bind (·.allowedEmailDomains) with
      | some l => AllowedDomains.ofList l
      | none => .builtin
    .ok { check := .recipients allowed, severity := severityOf settings }

/-- The collections rule for the given settings. It has no list of domains. -/
def collections (settings : Option RuleSettings) : Except RuleError Rule :=
  if (settings.bind (·.allowedEmailDomains)).isSome then
    .error (.invalidOption collectionsId.text "allowed_email_domains")
  else
    let mandatory := match settings.bind (·.mandatoryCollections) with
      | some l => MandatoryCollections.ofList l
      | none => .builtin
    .ok { check := .collections mandatory, severity := severityOf settings }

end Rule

end PlaybookPolicy
