import PlaybookPolicy.Play
import PlaybookPolicy.Text.Listing

/-!
# Mandatory collections

Every play of a playbook must declare certain collections.

## Main definitions

* `MandatoryCollections` — the collections that plays must declare.
* `Play.missingCollections` — those that a play does not declare.
-/

namespace PlaybookPolicy

/-- The collections that every play must declare. -/
structure MandatoryCollections where
  /-- The collections, in configured order. -/
  names : List String
  deriving DecidableEq, Repr

namespace MandatoryCollections

/-- The collections mandatory without a configuration. -/
def builtin : MandatoryCollections :=
  ⟨["internal.collection.role"]⟩

/-- The collections of a list: trimmed and without repetitions. A list without any text in it stands
for the built-in collections. -/
def ofList (l : List String) : MandatoryCollections :=
  let names := Text.cleaned Text.trimmed l
  if names.isEmpty then builtin else ⟨names⟩

end MandatoryCollections

namespace Play

/-- The mandatory collections that the play does not declare. Plays from files of other kinds than
playbooks are not checked. -/
def missingCollections (p : Play) (mandatory : MandatoryCollections) : List String :=
  if p.kind = .playbook then mandatory.names.filter fun name => !p.declares name else []

end Play

/-- The complaint about a collection that is not declared. -/
def collectionComplaint (name : String) : String :=
  "Collection " ++ name ++ " needs to be included"

end PlaybookPolicy
