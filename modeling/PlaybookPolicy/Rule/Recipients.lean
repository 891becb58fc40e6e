import PlaybookPolicy.Config.Basic
import PlaybookPolicy.Failure
import PlaybookPolicy.Task.Basic
import PlaybookPolicy.Text.Listing
import PlaybookPolicy.Yaml.Printer

/-!
# Mail recipients

A mail task may address only recipients of the form `local@domain` whose domain is allowed. Whatever
else stands in a recipient field is reported: the rule fails closed.

## Main definitions

* `emailDomain?` — the domain of a plain address.
* `AllowedDomains` — the domains that mail may go to.
* `Task.recipients` — the recipients of a task, as texts.
* `Task.invalidRecipients` — the recipients of a mail task that are not allowed.
-/

namespace PlaybookPolicy

open Yaml (Value)

/-! ### Addresses -/

/-- The character may stand before the at sign of an address. -/
def isLocalChar (c : Char) : Bool :=
  c.isAlphanum || c == '.' || c == '_' || c == '%' || c == '+' || c == '-'

/-- The character may stand in a domain. -/
def isDomainChar (c : Char) : Bool :=
  c.isAlphanum || c == '.' || c == '-'

/-- The text is a domain: a non-empty text of domain characters, a point, and at least two letters
behind the last point. -/
def isDomain (l : List Char) : Bool :=
  match l.reverse.span (· != '.') with
  | (top, _ :: rest) =>
    top.length ≥ 2 && top.all Char.isAlpha && !rest.isEmpty && rest.all isDomainChar
  | (_, []) => false

/-- The domain of an address of the form `local@domain`. -/
def emailDomain? (l : List Char) : Option (List Char) :=
  match l.span isLocalChar with
  | (name, '@' :: domain) => if !name.isEmpty && isDomain domain then some domain else none
  | _ => none

/-! ### Allowed domains -/

/-- The domains that mail may go to. -/
structure AllowedDomains where
  /-- The domains, in configured order. -/
  domains : List String
  deriving DecidableEq, Repr

namespace AllowedDomains

/-- The domains allowed without a configuration. -/
def builtin : AllowedDomains :=
  ⟨["customer.com.au", "customer.com", "cust.com.au"]⟩

/-- The domains of a list: trimmed, in small letters and without repetitions. A list without any
text in it stands for the built-in domains. -/
def ofList (l : List String) : AllowedDomains :=
  let domains := Text.cleaned (fun s => Text.lowered (Text.trimmed s)) l
  if domains.isEmpty then builtin else ⟨domains⟩

/-- The domain is allowed, in whatever case its ASCII letters are. -/
def allows (a : AllowedDomains) (domain : String) : Bool :=
  a.domains.any fun d => Text.lowered d == Text.lowered domain

/-- The text is an address in an allowed domain. -/
def allowsAddress (a : AllowedDomains) (s : String) : Bool :=
  (emailDomain? s.toList).any fun d => a.allows (String.ofList d)

end AllowedDomains

/-! ### Recipients -/

/-- The modules that send mail. -/
def mailModules : List String :=
  ["mail", "community.general.mail"]

/-- The arguments that hold recipients, in the order of reports. -/
def recipientFields : List String :=
  ["to", "cc", "bcc"]

/-- The module sends mail. -/
def isMailModule (name : String) : Bool :=
  mailModules.contains name

/-- The text of a recipient. Values that are no scalars are written as YAML; one that cannot be
written has an empty text. -/
def recipientText : Value → String
  | .text s => s
  | .bool b => if b then "true" else "false"
  | .int n => Yaml.intText n
  | .float x => Yaml.floatText.write x
  | v => (Yaml.write? v).getD ""

/-- The recipients in a field: none if it is absent or null, each non-null item of a sequence, and
any other value by itself. -/
def fieldRecipients : Option Value → List String
  | none => []
  | some .null => []
  | some (.sequence items) => (items.filter fun v => !v.isNull).map recipientText
  | some v => [recipientText v]

namespace Task

/-- The recipients of a task, field by field. -/
def recipients (t : Task) : List String :=
  recipientFields.flatMap fun field => fieldRecipients (t.arg? field)

/-- The recipients of a mail task that are not allowed. Other tasks have none. -/
def invalidRecipients (t : Task) (allowed : AllowedDomains) : List String :=
  if isMailModule t.moduleName then t.recipients.filter fun s => !allowed.allowsAddress s else []

/-- The complaint about the recipients of a task, if some are not allowed. -/
def recipientComplaint? (t : Task) (allowed : AllowedDomains) : Option String :=
  let invalid := t.invalidRecipients allowed
  if invalid.isEmpty then none
  else some ("Email recipients must use an allowed domain: " ++ Text.joined ", " invalid)

end Task

end PlaybookPolicy
