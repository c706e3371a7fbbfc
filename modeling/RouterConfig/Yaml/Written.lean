import RouterConfig.Yaml.Token

/-!
# RouterConfig — YAML nodes as written

A document as its tokens write it. Where a node is referred to by its anchor, the reference stands,
with the number of the anchor: a reference may mean a node that comes only later, because a name
which is used again gives its number away.
-/

namespace RouterConfig.Yaml

/-- The anchor of a node, by its number, and its tag. -/
structure Properties where
  mark? : Option Nat := none
  tag? : Option Tag := none

/-- A node as written. -/
inductive Written where
  | reference (mark : Nat)
  /-- A text; one that is missing is plain and empty. -/
  | scalar (properties : Properties) (text : String) (style : Style)
  | sequence (properties : Properties) (items : List Written)
  | mapping (properties : Properties) (entries : List (Written × Written))

/-- The node where none is written. -/
def Written.missing : Written := .scalar {} "" .plain

/-- The names of anchors with their numbers, and the handles of tags. -/
structure Names where
  anchors : List (String × Nat) := []
  handles : List Handle := standardHandles

/-- The number of a name. -/
def Names.anchor? (names : Names) (name : String) : Option Nat := names.anchors.lookup name

/-- Gives an anchor a number: that of the names known before. -/
def Names.openAnchor (names : Names) (name : String) : Names :=
  let others := names.anchors.filter fun known => known.1 ≠ name
  { names with anchors := (name, names.anchors.length) :: others }

/-- What a reader of nodes has read: the node, the tokens left, and the names known. -/
structure Parsed (α : Type) where
  value : α
  rest : List Token
  names : Names

/-! ## Properties -/

/-- The anchor and the tag before a node, one of each at most, in either order. -/
def splitProperties : List Token → (Option String × Option TagText) × List Token
  | .anchor a :: .tag t :: rest => ((some a, some t), rest)
  | .tag t :: .anchor a :: rest => ((some a, some t), rest)
  | .anchor a :: rest => ((some a, none), rest)
  | .tag t :: rest => ((none, some t), rest)
  | rest => ((none, none), rest)

/-- Reads the properties before a node. -/
def takeProperties? (names : Names) (tokens : List Token) : Option (Parsed Properties) := do
  let ((anchor?, text?), rest) := splitProperties tokens
  let tag? ←
    match text? with
    | some text => (text.tag? names.handles).map some
    | none => some none
  let names := anchor?.elim names names.openAnchor
  some ⟨⟨anchor?.bind names.anchor?, tag?⟩, rest, names⟩

/-- Whether there is a property. -/
def Properties.any (p : Properties) : Bool := p.mark?.isSome || p.tag?.isSome

/-- The properties of a scalar: the bare mark is no tag of its own. -/
def Properties.ofScalar (p : Properties) : Properties :=
  { p with tag? := p.tag?.filter (· ≠ Tag.bare) }

/-! ## Nodes -/

/-- The empty node behind properties that stand alone. -/
def takeEmptyNode? (p : Parsed Properties) : Option (Parsed Written) :=
  if p.value.any then some { p with value := .scalar p.value "" .plain } else none

/-- Whether there is a token, and it is none of `ends`. -/
def startsNode (ends : List Token) : List Token → Bool
  | t :: _ => !ends.contains t
  | [] => false

/-- Which collections may stand where a node is read. -/
structure Place where
  /-- Block collections may. -/
  block : Bool
  /-- A sequence at the indentation of the mapping around it may. -/
  indentless : Bool

mutual

/-- Reads one node. -/
def takeNode? (place : Place) :
    (fuel : Nat) → Names → List Token → Option (Parsed Written)
  | 0, _, _ => none
  | _ + 1, names, .alias name :: rest => do
    some ⟨.reference (← names.anchor? name), rest, names⟩
  | fuel + 1, names, tokens => do
    let p ← takeProperties? names tokens
    match p.rest with
    | .scalar text style :: rest => some ⟨.scalar p.value.ofScalar text style, rest, p.names⟩
    | .flowSequenceStart :: rest => do
      let items ← takeFlowItems? fuel true [] p.names rest
      some { items with value := .sequence p.value items.value }
    | .flowMappingStart :: rest => do
      let entries ← takeFlowEntries? fuel true [] p.names rest
      some { entries with value := .mapping p.value entries.value }
    | .blockSequenceStart :: rest =>
      if place.block then do
        let items ← takeBlockItems? fuel [] p.names rest
        some { items with value := .sequence p.value items.value }
      else takeEmptyNode? p
    | .blockMappingStart :: rest =>
      if place.block then do
        let entries ← takeBlockEntries? fuel [] p.names rest
        some { entries with value := .mapping p.value entries.value }
      else takeEmptyNode? p
    -- Without a start of its own, a sequence stands at the column of the mapping around it.
    | .blockEntry :: _ =>
      if place.indentless then do
        let items ← takeIndentlessItems? fuel [] p.names p.rest
        some { items with value := .sequence p.value items.value }
      else takeEmptyNode? p
    | _ => takeEmptyNode? p

/-- Reads a node unless one of `ends` or nothing stands here, which leaves the node missing. -/
def takeOptionalNode? (place : Place) (ends : List Token) :
    (fuel : Nat) → Names → List Token → Option (Parsed Written)
  | 0, _, _ => none
  | fuel + 1, names, tokens =>
    if startsNode ends tokens then takeNode? place fuel names tokens
    else some ⟨.missing, tokens, names⟩

/-- Reads the items of a block sequence. -/
def takeBlockItems? :
    (fuel : Nat) → List Written → Names → List Token → Option (Parsed (List Written))
  | 0, _, _, _ => none
  | fuel + 1, items, names, .blockEntry :: rest => do
    let node ← takeOptionalNode? ⟨true, false⟩ [.blockEntry, .blockEnd] fuel names rest
    takeBlockItems? fuel (items ++ [node.value]) node.names node.rest
  | _ + 1, items, names, .blockEnd :: rest => some ⟨items, rest, names⟩
  | _ + 1, _, _, _ => none

/-- Reads the items of a sequence at the indentation of the mapping around it. -/
def takeIndentlessItems? :
    (fuel : Nat) → List Written → Names → List Token → Option (Parsed (List Written))
  | 0, _, _, _ => none
  | fuel + 1, items, names, .blockEntry :: rest => do
    let node ←
      takeOptionalNode? ⟨true, false⟩ [.blockEntry, .key, .value, .blockEnd] fuel names rest
    takeIndentlessItems? fuel (items ++ [node.value]) node.names node.rest
  | _ + 1, items, names, rest => some ⟨items, rest, names⟩

/-- Reads the entries of a block mapping. -/
def takeBlockEntries? :
    (fuel : Nat) → List (Written × Written) → Names → List Token →
      Option (Parsed (List (Written × Written)))
  | 0, _, _, _ => none
  | fuel + 1, entries, names, .key :: rest => do
    let ends : List Token := [.key, .value, .blockEnd]
    let key ← takeOptionalNode? ⟨true, true⟩ ends fuel names rest
    match key.rest with
    | .value :: rest => do
      let value ← takeOptionalNode? ⟨true, true⟩ ends fuel key.names rest
      takeBlockEntries? fuel (entries ++ [(key.value, value.value)]) value.names value.rest
    | rest => takeBlockEntries? fuel (entries ++ [(key.value, .missing)]) key.names rest
  | _ + 1, entries, names, .blockEnd :: rest => some ⟨entries, rest, names⟩
  | _ + 1, _, _, _ => none

/-- Reads the items of a flow sequence; `first` tells that no comma is due. -/
def takeFlowItems? :
    (fuel : Nat) → (first : Bool) → List Written → Names → List Token →
      Option (Parsed (List Written))
  | 0, _, _, _, _ => none
  | fuel + 1, first, items, names, tokens =>
    match tokens with
    | .flowSequenceEnd :: rest => some ⟨items, rest, names⟩
    | _ => do
      let tokens ←
        if first then some tokens
        else
          match tokens with
          | .flowEntry :: rest => some rest
          | _ => none
      match tokens with
      | .flowSequenceEnd :: rest => some ⟨items, rest, names⟩
      -- A pair among the items is a mapping of its own.
      | .key :: rest => do
        let pair ← takeItemPair? fuel names rest
        takeFlowItems? fuel false (items ++ [.mapping {} [pair.value]]) pair.names pair.rest
      | _ => do
        let node ← takeNode? ⟨false, false⟩ fuel names tokens
        takeFlowItems? fuel false (items ++ [node.value]) node.names node.rest

/-- Reads the pair of a flow sequence behind the token of its key. A key that is missing takes the
token in its place with it. -/
def takeItemPair? :
    (fuel : Nat) → Names → List Token → Option (Parsed (Written × Written))
  | 0, _, _ => none
  | fuel + 1, names, tokens => do
    let ends : List Token := [.flowEntry, .flowSequenceEnd]
    let key ←
      if startsNode (.value :: ends) tokens then takeNode? ⟨false, false⟩ fuel names tokens
      else some ⟨.missing, tokens.drop 1, names⟩
    takeFlowValue? ends fuel key

/-- Reads the entries of a flow mapping; `first` tells that no comma is due. -/
def takeFlowEntries? :
    (fuel : Nat) → (first : Bool) → List (Written × Written) → Names → List Token →
      Option (Parsed (List (Written × Written)))
  | 0, _, _, _, _ => none
  | fuel + 1, first, entries, names, tokens =>
    match tokens with
    | .flowMappingEnd :: rest => some ⟨entries, rest, names⟩
    | _ => do
      let tokens ←
        if first then some tokens
        else
          match tokens with
          | .flowEntry :: rest => some rest
          | _ => none
      match tokens with
      | .flowMappingEnd :: rest => some ⟨entries, rest, names⟩
      | .key :: rest => do
        let ends : List Token := [.flowEntry, .flowMappingEnd]
        let key ← takeOptionalNode? ⟨false, false⟩ (.value :: ends) fuel names rest
        let pair ← takeFlowValue? ends fuel key
        takeFlowEntries? fuel false (entries ++ [pair.value]) pair.names pair.rest
      | _ => do
        let node ← takeNode? ⟨false, false⟩ fuel names tokens
        -- A key without a colon has no value.
        takeFlowEntries? fuel false (entries ++ [(node.value, .missing)]) node.names node.rest

/-- Reads the value behind the key of a flow collection, if there is one. -/
def takeFlowValue? (ends : List Token) :
    (fuel : Nat) → (key : Parsed Written) → Option (Parsed (Written × Written))
  | 0, _ => none
  | fuel + 1, key =>
    match key.rest with
    | .value :: rest => do
      let value ← takeOptionalNode? ⟨false, false⟩ ends fuel key.names rest
      some { value with value := (key.value, value.value) }
    | _ => some { key with value := (key.value, .missing) }

end

/-! ## Documents -/

/-- What a text holds: no document, or one. -/
inductive Document (α : Type) where
  | missing
  | one (root : α)

/-- Whether nothing but ends of documents is left. -/
def onlyDocumentEnds (tokens : List Token) : Bool := tokens.all (· = .documentEnd)

/-- Reads the directives before a document, and the line that starts it. There is one version at
most, and each handle is explained once. -/
def takeDirectives? (versioned : Bool) (handles : List Handle) :
    List Token → Option (List Handle × List Token)
  | .directive (.handle h) :: rest =>
    if handles.any fun known => known.name = h.name then none
    else takeDirectives? versioned (h :: handles) rest
  | .directive (.version major minor) :: rest =>
    if versioned || !(Directive.version major minor).known then none
    else takeDirectives? true handles rest
  | .documentStart :: rest => some (handles, rest)
  | _ => none

/-- The document of a list of tokens; more than one is too many. -/
def Document.ofTokens? (tokens : List Token) : Option (Document Written) := do
  -- Of four calls in a row at least one reads a token.
  let fuel := 4 * tokens.length + 4
  let root ←
    match tokens with
    | [] => return .missing
    | .directive _ :: _ | .documentStart :: _ => do
      let (handles, content) ← takeDirectives? false [] tokens
      let names : Names := { handles := handles ++ standardHandles }
      match content with
      | [] | .documentStart :: _ | .documentEnd :: _ | .directive _ :: _ =>
        some ⟨.missing, content, names⟩
      | _ => takeNode? ⟨true, false⟩ fuel names content
    | _ => takeNode? ⟨true, false⟩ fuel {} tokens
  if onlyDocumentEnds root.rest then some (.one root.value) else none

end RouterConfig.Yaml
