/-!
# The template of a configuration file

## Main definitions

* `templateLines` — the lines that a fresh configuration file gets.
* `configTemplate` — its text.
-/

namespace PlaybookPolicy

/-- The lines of a fresh configuration file: comments, and every option at its default. -/
def templateLines : List String :=
  ["[playlint]",
    "version = \"1\"",
    "",
    "# Files to lint (defaults to all YAML files)",
    "include = [\"**/*.yml\", \"**/*.yaml\"]",
    "",
    "# Files to skip",
    "# exclude = [\"**/molecule/**\"]",
    "",
    "[rules]",
    "# Every built-in rule is enabled by default.",
    "# Disable a rule: must_include_collections = false",
    "# Override severity: email-address-validation = \x7b severity = \"HIGH\" \x7d",
    "",
    "email-address-validation = \x7b allowed_email_domains = [\"customer.com.au\", " ++
      "\"customer.com\", \"cust.com.au\"] \x7d",
    "must_include_collections = \x7b mandatory_collections = [\"internal.collection.role\"] \x7d",
    "",
    "[output]",
    "format = \"human\"",
    "color = \"auto\""]

/-- The text of a fresh configuration file. -/
def configTemplate : String :=
  String.join (templateLines.map (· ++ "\n"))

end PlaybookPolicy
