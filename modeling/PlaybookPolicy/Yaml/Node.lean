import PlaybookPolicy.Yaml.Token.Basic

/-!
# YAML nodes

The tree that the tokens of a document write, before aliases are followed and scalars resolved.

## Main definitions

* `Yaml.Node` — aliases, scalars, sequences and mappings, with their anchors and tags.
* `TagTable` — the tag handles in force in a document.
* `Node.ofTokens?` — the node of the only document of a token list.
* `Node.label` — anchor names replaced by numbers.
-/

namespace PlaybookPolicy.Yaml

/-- The anchor and the tag in front of a node. -/
structure NodeProps (α : Type) where
  /-- The anchor that aliases refer to. -/
  anchor : Option α := none
  /-- The full tag. -/
  tag : Option String := none

/-- A node of a document. Anchors are named by `α`. -/
inductive Node (α : Type) where
  /-- A reference to an anchored node. -/
  | alias (name : α)
  /-- A scalar, and whether it is plain. -/
  | scalar (props : NodeProps α) (plain : Bool) (text : String)
  /-- A sequence. -/
  | sequence (props : NodeProps α) (items : List (Node α))
  /-- A mapping. -/
  | mapping (props : NodeProps α) (entries : List (Node α × Node α))

/-! ### Reading tokens -/

/-- What each tag handle stands for. -/
abbrev TagTable := List (String × String)

/-- The handles that every document has. -/
def defaultTags : TagTable :=
  [("!", "!"), ("!!", "tag:yaml.org,2002:")]

namespace Node

/-- A node that is not written at all. -/
def empty : Node String :=
  .scalar {} true ""

/-- The full tag that a tag token writes. A handle that is not declared is a fault. -/
def fullTag? (tags : TagTable) (handle suffix : String) : Option String :=
  if handle.isEmpty then some suffix else (tags.lookup handle).map (· ++ suffix)

/-- The anchor and tag that a node begins with, in either order. -/
def scanProps (tags : TagTable) : List Token → Option (NodeProps String × List Token)
  | .anchor a :: .tag h s :: r => (fullTag? tags h s).map fun t => (⟨some a, some t⟩, r)
  | .tag h s :: .anchor a :: r => (fullTag? tags h s).map fun t => (⟨some a, some t⟩, r)
  | .anchor a :: r => some (⟨some a, none⟩, r)
  | .tag h s :: r => (fullTag? tags h s).map fun t => (⟨none, some t⟩, r)
  | r => some ({}, r)

/-- The lone mark as the tag of a scalar says no more than that it has no tag. -/
def scalarProps (p : NodeProps String) : NodeProps String :=
  if p.tag == some "!" then { p with tag := none } else p

/-- A block collection goes on or ends here, so the item or key before it is empty. -/
def endsBlockItem (stops : List Token) (ts : List Token) : Bool :=
  ts.head?.any stops.contains

mutual

/-- A node. `block` allows block collections, and `indentless` a sequence whose dashes stand at
the column of the enclosing mapping. Every nested call costs one unit of fuel. -/
def scanNode (tags : TagTable) :
    Nat → Bool → Bool → List Token → Option (Node String × List Token)
  | 0, _, _, _ => none
  | fuel + 1, block, indentless, ts =>
    match ts with
    | .alias name :: r => some (.alias name, r)
    | ts =>
      match scanProps tags ts with
      | none => none
      | some (props, r) =>
        let unwritten :=
          if props.anchor.isSome || props.tag.isSome then some (.scalar props true "", r) else none
        match r with
        | .scalar plain text :: r => some (.scalar (scalarProps props) plain text, r)
        | .blockEntry :: _ =>
          if indentless then
            (scanIndentless tags fuel r).map fun (items, r) => (.sequence props items, r)
          else unwritten
        | .flowSequenceStart :: r =>
          (scanFlowItems tags fuel true r).map fun (items, r) => (.sequence props items, r)
        | .flowMappingStart :: r =>
          (scanFlowEntries tags fuel true r).map fun (entries, r) => (.mapping props entries, r)
        | .blockSequenceStart :: r =>
          if block then (scanItems tags fuel r).map fun (items, r) => (.sequence props items, r)
          else unwritten
        | .blockMappingStart :: r =>
          if block then (scanEntries tags fuel r).map fun (entries, r) => (.mapping props entries, r)
          else unwritten
        | _ => unwritten

/-- The items of a block sequence, up to its end. -/
def scanItems (tags : TagTable) : Nat → List Token → Option (List (Node String) × List Token)
  | 0, _ => none
  | fuel + 1, ts =>
    match ts with
    | .blockEnd :: r => some ([], r)
    | .blockEntry :: r =>
      let item? :=
        if endsBlockItem [.blockEntry, .blockEnd] r then some (empty, r)
        else scanNode tags fuel true false r
      match item? with
      | none => none
      | some (item, r) => (scanItems tags fuel r).map fun (items, r) => (item :: items, r)
    | _ => none

/-- The items of a sequence without an indentation of its own. -/
def scanIndentless (tags : TagTable) :
    Nat → List Token → Option (List (Node String) × List Token)
  | 0, _ => none
  | fuel + 1, ts =>
    match ts with
    | .blockEntry :: r =>
      let item? :=
        if endsBlockItem [.blockEntry, .key, .value, .blockEnd] r then some (empty, r)
        else scanNode tags fuel true false r
      match item? with
      | none => none
      | some (item, r) => (scanIndentless tags fuel r).map fun (items, r) => (item :: items, r)
    | r => some ([], r)

/-- The entries of a block mapping, up to its end. -/
def scanEntries (tags : TagTable) :
    Nat → List Token → Option (List (Node String × Node String) × List Token)
  | 0, _ => none
  | fuel + 1, ts =>
    let side? (r : List Token) :=
      if endsBlockItem [.key, .value, .blockEnd] r then some (empty, r)
      else scanNode tags fuel true true r
    match ts with
    | .blockEnd :: r => some ([], r)
    | .key :: r =>
      match side? r with
      | none => none
      | some (k, r) =>
        let value? := match r with
          | .value :: r => side? r
          | r => some (empty, r)
        match value? with
        | none => none
        | some (v, r) => (scanEntries tags fuel r).map fun (entries, r) => ((k, v) :: entries, r)
    | _ => none

/-- The items of a flow sequence, up to its bracket. A key inside it is a mapping of one entry. -/
def scanFlowItems (tags : TagTable) :
    Nat → Bool → List Token → Option (List (Node String) × List Token)
  | 0, _, _ => none
  | fuel + 1, first, ts =>
    match ts with
    | .flowSequenceEnd :: r => some ([], r)
    | ts =>
      let body? := match first, ts with
        | true, ts => some ts
        | false, .flowEntry :: r => some r
        | false, _ => none
      match body? with
      | none => none
      | some (.flowSequenceEnd :: r) => some ([], r)
      | some body =>
        let item? := match body with
          | .key :: r =>
            (scanFlowPair tags fuel r).map fun (k, v, r) => (.mapping {} [(k, v)], r)
          | r => scanNode tags fuel false false r
        match item? with
        | none => none
        | some (item, r) =>
          (scanFlowItems tags fuel false r).map fun (items, r) => (item :: items, r)

/-- The one entry of a mapping inside a flow sequence. An empty key takes the token after it with
it. -/
def scanFlowPair (tags : TagTable) :
    Nat → List Token → Option (Node String × Node String × List Token)
  | 0, _ => none
  | fuel + 1, ts =>
    let key? :=
      if endsBlockItem [.value, .flowEntry, .flowSequenceEnd] ts then some (empty, ts.drop 1)
      else scanNode tags fuel false false ts
    match key? with
    | none => none
    | some (k, .value :: r) =>
      if endsBlockItem [.flowEntry, .flowSequenceEnd] r then some (k, empty, r)
      else (scanNode tags fuel false false r).map fun (v, r) => (k, v, r)
    | some (k, r) => some (k, empty, r)

/-- The entries of a flow mapping, up to its brace. -/
def scanFlowEntries (tags : TagTable) :
    Nat → Bool → List Token → Option (List (Node String × Node String) × List Token)
  | 0, _, _ => none
  | fuel + 1, first, ts =>
    match ts with
    | .flowMappingEnd :: r => some ([], r)
    | ts =>
      let body? := match first, ts with
        | true, ts => some ts
        | false, .flowEntry :: r => some r
        | false, _ => none
      match body? with
      | none => none
      | some (.flowMappingEnd :: r) => some ([], r)
      | some body =>
        let entry? := match body with
          | .key :: r =>
            let key? :=
              if endsBlockItem [.value, .flowEntry, .flowMappingEnd] r then some (empty, r)
              else scanNode tags fuel false false r
            match key? with
            | none => none
            | some (k, .value :: r) =>
              if endsBlockItem [.flowEntry, .flowMappingEnd] r then some ((k, empty), r)
              else (scanNode tags fuel false false r).map fun (v, r) => ((k, v), r)
            | some (k, r) => some ((k, empty), r)
          | r => (scanNode tags fuel false false r).map fun (k, r) => ((k, empty), r)
        match entry? with
        | none => none
        | some (entry, r) =>
          (scanFlowEntries tags fuel false r).map fun (entries, r) => (entry :: entries, r)

end

/-- The directives before a document: at most one version, which must be 1.1 or 1.2, and at most
one declaration of each tag handle. -/
def scanDirectives : Bool → TagTable → List Token → Option (TagTable × List Token)
  | seen, tags, .version major minor :: r =>
    if seen || major != 1 || (minor != 1 && minor != 2) then none else scanDirectives true tags r
  | seen, tags, .tagShorthand handle lead :: r =>
    if (tags.lookup handle).isSome then none else scanDirectives seen ((handle, lead) :: tags) r
  | _, tags, r => some (tags, r)

/-- The next token belongs to the frame of a document. -/
def atDocumentFrame : List Token → Bool
  | [] => true
  | .version _ _ :: _ => true
  | .tagShorthand _ _ :: _ => true
  | .documentStart :: _ => true
  | .documentEnd :: _ => true
  | _ => false

/-- The first document of a token list, and the tokens after it. -/
def scanDocument (ts : List Token) : Option (Node String × List Token) :=
  let fuel := 4 * ts.length + 8
  match ts with
  | .version _ _ :: _ | .tagShorthand _ _ :: _ | .documentStart :: _ =>
    match scanDirectives false [] ts with
    | some (tags, .documentStart :: r) =>
      if atDocumentFrame r then some (empty, r)
      else scanNode (tags ++ defaultTags) fuel true false r
    | _ => none
  | ts => scanNode defaultTags fuel true false ts

/-- The node of the only document. No token at all is an unwritten node, and two documents are
a fault. -/
def ofTokens? (ts : List Token) : Option (Node String) :=
  if ts.isEmpty then some empty
  else match scanDocument ts with
    | none => none
    | some (n, r) => if (r.dropWhile (· == .documentEnd)).isEmpty then some n else none

/-! ### Numbering anchors -/

/-- The number that each anchor name stands for so far. -/
abbrev AnchorTable := List (String × Nat)

/-- Gives the anchor of a node a number: the count of the names seen before. A name used again
refers to the later node from then on. -/
def labelProps (p : NodeProps String) (names : AnchorTable) : NodeProps Nat × AnchorTable :=
  match p.anchor with
  | none => ({ tag := p.tag }, names)
  | some a =>
    let number := names.length
    ({ anchor := some number, tag := p.tag }, (a, number) :: names.filter (·.1 != a))

mutual

/-- Replaces anchor names by numbers, in document order. An alias to an unknown name is a fault. -/
def label : Node String → AnchorTable → Option (Node Nat × AnchorTable)
  | .alias name, names => (names.lookup name).map fun n => (.alias n, names)
  | .scalar p plain text, names =>
    let (p, names) := labelProps p names
    some (.scalar p plain text, names)
  | .sequence p items, names =>
    let (p, names) := labelProps p names
    (labelItems items names).map fun (items, names) => (.sequence p items, names)
  | .mapping p entries, names =>
    let (p, names) := labelProps p names
    (labelEntries entries names).map fun (entries, names) => (.mapping p entries, names)

/-- Replaces anchor names in the items of a sequence. -/
def labelItems : List (Node String) → AnchorTable → Option (List (Node Nat) × AnchorTable)
  | [], names => some ([], names)
  | n :: ns, names =>
    match label n names with
    | none => none
    | some (n, names) => (labelItems ns names).map fun (ns, names) => (n :: ns, names)

/-- Replaces anchor names in the entries of a mapping. -/
def labelEntries : List (Node String × Node String) → AnchorTable →
    Option (List (Node Nat × Node Nat) × AnchorTable)
  | [], names => some ([], names)
  | (k, v) :: es, names =>
    match label k names with
    | none => none
    | some (k, names) =>
      match label v names with
      | none => none
      | some (v, names) => (labelEntries es names).map fun (es, names) => ((k, v) :: es, names)

end

/-- The number of a node, if it is anchored. -/
def anchor? {α : Type} : Node α → Option α
  | .alias _ => none
  | .scalar p _ _ => p.anchor
  | .sequence p _ => p.anchor
  | .mapping p _ => p.anchor

mutual

/-- A node and all nodes below it, in document order. -/
def nodes {α : Type} : Node α → List (Node α)
  | .sequence p items => .sequence p items :: itemNodes items
  | .mapping p entries => .mapping p entries :: entryNodes entries
  | n => [n]

/-- The nodes of a sequence's items. -/
def itemNodes {α : Type} : List (Node α) → List (Node α)
  | [] => []
  | n :: ns => nodes n ++ itemNodes ns

/-- The nodes of a mapping's entries. -/
def entryNodes {α : Type} : List (Node α × Node α) → List (Node α)
  | [] => []
  | (k, v) :: es => nodes k ++ (nodes v ++ entryNodes es)

end

/-- The anchored nodes under their numbers. Where two share a number the later one counts. -/
def anchored (root : Node Nat) : List (Nat × Node Nat) :=
  (root.nodes.filterMap fun n => n.anchor?.map fun a => (a, n)).reverse

/-- How many steps it takes to write the node down, with a step for each end of a collection. -/
def extent {α : Type} (root : Node α) : Nat :=
  root.nodes.foldr (fun n steps => match n with
    | .sequence _ _ => steps + 2
    | .mapping _ _ => steps + 2
    | _ => steps + 1) 0

end Node

end PlaybookPolicy.Yaml
