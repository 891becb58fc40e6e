import PlaybookPolicy.Config.Decode
import PlaybookPolicy.Failure
import PlaybookPolicy.Glob.Syntax
import PlaybookPolicy.Text.Blank
import PlaybookPolicy.Toml.Reader

/-!
# Sound configurations

A configuration of the right shape may still make no sense: its version may be unknown, a pattern
may be no glob, or a list of options may hold a blank entry.

## Main definitions

* `Config.fault?` — the first fault of a configuration.
* `Config.validate` — the configuration itself if it has no fault.
* `Config.parse` — the configuration that a text writes.
-/

namespace PlaybookPolicy

/-- The only version of the format. -/
def configVersion : String := "1"

/-- The fault of a pattern that is no glob. -/
def patternFault? (role pattern : String) : Option String :=
  match Glob.parse pattern with
  | .ok _ => none
  | .error e =>
    some ("Invalid " ++ role ++ " glob pattern '" ++ pattern ++ "': " ++ e.message pattern)

/-- The fault of a list option with a blank entry. -/
def listFault? (rule option : String) (values : Option (List String)) : Option String :=
  if (values.getD []).any Text.isBlankText then
    some ("Empty entry in '" ++ option ++ "' for rule '" ++ rule ++ "'")
  else none

/-- The first fault of what is said about a rule. -/
def entryFault? (rule : String) (entry : RuleEntry) : Option String :=
  match entry with
  | .enabled _ => none
  | .settings s =>
    (listFault? rule "allowed_email_domains" s.allowedEmailDomains).or
      (listFault? rule "mandatory_collections" s.mandatoryCollections)

namespace Config

/-- The fault of an unknown version. -/
def versionFault? (c : Config) : Option String :=
  if c.version = configVersion then none
  else some ("Unsupported configuration version '" ++ c.version ++ "'. Expected '" ++
    configVersion ++ "'")

/-- The first fault of a configuration: its version, its patterns in order, and its rules in
ascending order of their ids. -/
def fault? (c : Config) : Option String :=
  c.versionFault?.or <|
    (c.includes.findSome? (patternFault? "include")).or <|
      (c.excludes.findSome? (patternFault? "exclude")).or <|
        c.rules.entries.findSome? fun (rule, entry) => entryFault? rule entry

/-- The configuration, unless it has a fault. -/
def validate (c : Config) : Except ConfigError Config :=
  match c.fault? with
  | none => .ok c
  | some reason => .error (.invalid reason)

/-- The configuration that a text writes. -/
def parse (text : String) : Except ConfigError Config :=
  match (Toml.read? text).bind ofDatum? with
  | none => .error .malformed
  | some c => c.validate

end Config

end PlaybookPolicy
