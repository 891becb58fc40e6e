import PlaybookPolicy.Yaml.Node
import PlaybookPolicy.Yaml.Scalar
import PlaybookPolicy.Yaml.Token.Lexer

/-!
# Reading YAML

A text is cut into tokens, the tokens form a tree of nodes, and the tree becomes a value: aliases
are followed, tags applied and plain scalars resolved.

## Main definitions

* `Node.expand` — the value of a node.
* `Yaml.read?` — the value of the only document of a text.
-/

namespace PlaybookPolicy.Yaml

/-- Collections may be nested this deep, aliases included. -/
def maxDepth : Nat := 128

namespace Node

/-- A tag that begins with an exclamation mark is local to the document. Its name leaves the mark
out, unless the mark is all there is. -/
def localTag? (p : NodeProps Nat) : Option String :=
  p.tag.bind fun t => if t.startsWith "!" then some (tagName t) else none

/-- The value of a scalar. Under a local tag, or as a key of a mapping under one, its own tag is
not consulted. -/
def scalarValue (tagged : Bool) (p : NodeProps Nat) (plain : Bool) (text : String) :
    Option Value :=
  let bare := if plain then resolvePlain text else some (.text text)
  match (if tagged then none else p.tag) with
  | none => bare
  | some tag =>
    match localTag? p with
    | some name => bare.map (.tagged name)
    | none =>
      match CoreTag.ofTag? tag with
      | some core => resolveTagged core text
      | none => some (.text text)

/-- Wraps the value in the local tag of its node. -/
def wrapLocal (tagged : Bool) (p : NodeProps Nat) (v : Value) : Value :=
  match (if tagged then none else localTag? p) with
  | some name => .tagged name v
  | none => v

/-- The value of a node, with the number of aliases followed before and after. `depth` collections
may still be opened. The keys of a mapping under a local tag are read as if they were under it
themselves. -/
def expand (table : List (Nat × Node Nat)) (limit : Nat) :
    Nat → Bool → Node Nat → StateT Nat Option Value
  | depth, tagged, n => do
    let (n, tagged) ← follow n tagged
    match n with
    | .alias _ => failure
    | .scalar p plain text => StateT.lift (scalarValue tagged p plain text)
    | .sequence p items =>
      match depth with
      | 0 => failure
      | depth + 1 =>
        let values ← items.mapM (expand table limit depth false)
        return wrapLocal tagged p (.sequence values)
    | .mapping p entries =>
      match depth with
      | 0 => failure
      | depth + 1 =>
        let inTag := tagged || (localTag? p).isSome
        let values ← entries.mapM fun (k, v) => do
          let k ← expand table limit depth inTag k
          let v ← expand table limit depth false v
          return (k, v)
        if Mapping.distinctKeys values then
          return wrapLocal tagged p (.mapping values)
        else failure
where
  /-- The node that an alias refers to; other nodes refer to themselves. -/
  follow (n : Node Nat) (tagged : Bool) : StateT Nat Option (Node Nat × Bool) := do
    match n with
    | .alias a =>
      let jumps ← get
      set (jumps + 1)
      if jumps + 1 > limit then failure
      match table.lookup a with
      | some target => return (target, false)
      | none => failure
    | n => return (n, tagged)

end Node

/-- The value of the only document of a text. A text without a document is null. There is no value
if the text is no YAML, holds several documents, repeats a key, nests too deep or follows too many
aliases. -/
def read? (s : String) : Option Value := do
  let tokens ← Token.ofText? s.toList
  let tree ← Node.ofTokens? tokens
  let (root, _) ← tree.label []
  let limit := 100 * root.extent
  let (v, _) ← (Node.expand root.anchored limit maxDepth false root).run 0
  return v

end PlaybookPolicy.Yaml
