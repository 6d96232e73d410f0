import Phrasebook.Yaml.Token

/-!
# YAML nodes

A document is read from tokens as a tree of nodes, with aliases by name. Readers give what they read and the
tokens that follow. The number that nested readers count down is more than they can nest, because of three
nested readers one at least takes a token.
-/

namespace Phrasebook.Yaml

/-- What can stand before the content of a node. Anchors are named by `ι`. -/
structure Properties (ι : Type) where
  anchor : Option ι := none
  tag : Option String := none
  deriving Repr

/-- A node of a document. -/
inductive Node (ι : Type) where
  | alias (target : ι)
  | scalar (properties : Properties ι) (style : Style) (text : String)
  | list (properties : Properties ι) (items : List (Node ι))
  | record (properties : Properties ι) (entries : List (Node ι × Node ι))
  deriving Repr

namespace Node

/-- A scalar without text, which stands where a node is left out. -/
def missing {ι : Type} : Node ι := .scalar {} .plain ""

instance {ι : Type} : Inhabited (Node ι) := ⟨missing⟩

end Node

/-- What tag handles expand to. -/
abbrev Handles := List (String × String)

/-- The handles that need no directive. -/
def Handles.default : Handles := [("!", "!"), ("!!", "tag:yaml.org,2002:")]

/-- The tag that a handle and a suffix stand for. -/
def Handles.expand? (handles : Handles) (handle suffix : String) : Option String :=
  if handle = "" then some suffix else (handles.lookup handle).map (· ++ suffix)

/-- Whether the next token is one of those given, or there is none. -/
def nextIsAmong (ends : List Token) : List Token → Bool
  | [] => true
  | token :: _ => token ∈ ends

/-- Read the anchor and the tag of a node, in any order. -/
def properties? (handles : Handles) : List Token → Option (Properties String × List Token)
  | .anchor name :: .tag handle suffix :: rest | .tag handle suffix :: .anchor name :: rest =>
    (handles.expand? handle suffix).map fun tag => ({ anchor := some name, tag := some tag }, rest)
  | .anchor name :: rest => some ({ anchor := some name }, rest)
  | .tag handle suffix :: rest =>
    (handles.expand? handle suffix).map fun tag => ({ tag := some tag }, rest)
  | rest => some ({}, rest)

/-- The properties of a scalar: the exclamation mark alone says nothing about it. -/
def Properties.ofScalar {ι : Type} (p : Properties ι) : Properties ι :=
  if p.tag = some "!" then { p with tag := none } else p

mutual

/-- Read a node. Blocks, and lists that are indented no further, can only be in some places. -/
def node? (handles : Handles) :
    Nat → (block listHere : Bool) → List Token → Option (Node String × List Token)
  | 0, _, _, _ => none
  | _ + 1, _, _, .alias name :: rest => some (.alias name, rest)
  | fuel + 1, block, listHere, tokens =>
    match properties? handles tokens with
    | none => none
    | some (p, rest) =>
      match rest, block, listHere with
      | .blockEntry :: _, _, true =>
        (listHere? handles fuel rest).map fun (items, rest) => (.list p items, rest)
      | .scalar style text :: rest, _, _ => some (.scalar p.ofScalar style text, rest)
      | .flowList :: rest, _, _ =>
        (flowItems? handles fuel rest).map fun (items, rest) => (.list p items, rest)
      | .flowRecord :: rest, _, _ =>
        (flowEntries? handles fuel rest).map fun (entries, rest) => (.record p entries, rest)
      | .blockList :: rest, true, _ =>
        (blockItems? handles fuel rest).map fun (items, rest) => (.list p items, rest)
      | .blockRecord :: rest, true, _ =>
        (blockEntries? handles fuel rest).map fun (entries, rest) => (.record p entries, rest)
      | rest, _, _ =>
        if p.anchor.isSome || p.tag.isSome then some (.scalar p .plain "", rest) else none

/-- Read a node, or nothing before one of the tokens given. -/
def nodeUnless? (handles : Handles) :
    Nat → (ends : List Token) → (block listHere : Bool) → List Token → Option (Node String × List Token)
  | 0, _, _, _, _ => none
  | fuel + 1, ends, block, listHere, tokens =>
    if nextIsAmong ends tokens then some (.missing, tokens) else node? handles fuel block listHere tokens

/-- Read the items of a block list and its end. -/
def blockItems? (handles : Handles) : Nat → List Token → Option (List (Node String) × List Token)
  | 0, _ => none
  | _ + 1, .blockEnd :: rest => some ([], rest)
  | fuel + 1, .blockEntry :: rest =>
    match nodeUnless? handles fuel [.blockEntry, .blockEnd] true false rest with
    | none => none
    | some (item, rest) => (blockItems? handles fuel rest).map fun (items, rest) => (item :: items, rest)
  | _ + 1, _ => none

/-- Read the items of a list that is indented no further than the record around it. -/
def listHere? (handles : Handles) : Nat → List Token → Option (List (Node String) × List Token)
  | 0, _ => none
  | fuel + 1, .blockEntry :: rest =>
    match nodeUnless? handles fuel [.blockEntry, .key, .value, .blockEnd] true false rest with
    | none => none
    | some (item, rest) => (listHere? handles fuel rest).map fun (items, rest) => (item :: items, rest)
  | _ + 1, rest => some ([], rest)

/-- Read the entries of a block record and its end. -/
def blockEntries? (handles : Handles) :
    Nat → List Token → Option (List (Node String × Node String) × List Token)
  | 0, _ => none
  | _ + 1, .blockEnd :: rest => some ([], rest)
  | fuel + 1, .key :: rest => do
    let ends := [.key, .value, .blockEnd]
    let (key, rest) ← nodeUnless? handles fuel ends true true rest
    let (value, rest) ← match rest with
      | .value :: rest => nodeUnless? handles fuel ends true true rest
      | rest => some (.missing, rest)
    let (entries, rest) ← blockEntries? handles fuel rest
    return ((key, value) :: entries, rest)
  | _ + 1, _ => none

/-- Read the entry of a record that is an item of a list in brackets, after its key sign. Where the key is
left out, the token behind the sign is passed over. -/
def flowPair? (handles : Handles) : Nat → List Token → Option ((Node String × Node String) × List Token)
  | 0, _ => none
  | fuel + 1, tokens => do
    let (key, rest) ←
      if nextIsAmong [.value, .flowEntry, .flowListEnd] tokens then some (.missing, tokens.drop 1)
      else node? handles fuel false false tokens
    match rest with
    | .value :: rest =>
      let (value, rest) ← nodeUnless? handles fuel [.flowEntry, .flowListEnd] false false rest
      return ((key, value), rest)
    | rest => return ((key, .missing), rest)

/-- Read the items of a list in brackets and its end. -/
def flowItems? (handles : Handles) : Nat → List Token → Option (List (Node String) × List Token)
  | 0, _ => none
  | _ + 1, .flowListEnd :: rest => some ([], rest)
  | fuel + 1, tokens => do
    let (item, rest) ← match tokens with
      | .key :: rest =>
        (flowPair? handles fuel rest).map fun (entry, rest) => (Node.record {} [entry], rest)
      | tokens => node? handles fuel false false tokens
    match rest with
    | .flowListEnd :: rest => return ([item], rest)
    | .flowEntry :: rest =>
      let (items, rest) ← flowItems? handles fuel rest
      return (item :: items, rest)
    | _ => none

/-- Read the entries of a record in braces and its end. -/
def flowEntries? (handles : Handles) :
    Nat → List Token → Option (List (Node String × Node String) × List Token)
  | 0, _ => none
  | _ + 1, .flowRecordEnd :: rest => some ([], rest)
  | fuel + 1, tokens => do
    let ends := [.flowEntry, .flowRecordEnd]
    let (entry, rest) ← match tokens with
      | .key :: rest => do
        let (key, rest) ← nodeUnless? handles fuel (.value :: ends) false false rest
        match rest with
        | .value :: rest =>
          (nodeUnless? handles fuel ends false false rest).map fun (value, rest) => ((key, value), rest)
        | rest => some ((key, Node.missing), rest)
      | tokens => (node? handles fuel false false tokens).map fun (key, rest) => ((key, Node.missing), rest)
    match rest with
    | .flowRecordEnd :: rest => return ([entry], rest)
    | .flowEntry :: rest =>
      let (entries, rest) ← flowEntries? handles fuel rest
      return (entry :: entries, rest)
    | _ => none

end

/-- Read directives: the version at most once, and each handle at most once. -/
def directives? (hasVersion : Bool) (handles : Handles) : List Token → Option (Handles × List Token)
  | .version major minor :: rest =>
    if hasVersion || major ≠ 1 || (minor ≠ 1 && minor ≠ 2) then none else directives? true handles rest
  | .tagHandle handle expansion :: rest =>
    if (handles.lookup handle).isSome then none
    else directives? hasVersion ((handle, expansion) :: handles) rest
  | rest => some (handles, rest)

/-- Whether a token can only be outside of documents. -/
def Token.isOutside : Token → Bool
  | .version .. | .tagHandle .. | .documentStart | .documentEnd => true
  | _ => false

/-- Read the only document of a text. It needs no start unless directives precede it, and may have any
number of ends; a text without a document is like one that leaves the node out. -/
def document? (tokens : List Token) : Option (Node String) := do
  let fuel := 3 * tokens.length + 3
  let begins : Bool := match tokens with
    | .version .. :: _ | .tagHandle .. :: _ | .documentStart :: _ => true
    | _ => false
  let (root, rest) ←
    if begins then
      match ← directives? false [] tokens with
      | (handles, .documentStart :: rest) =>
        if (rest.head?).all Token.isOutside then some (.missing, rest)
        else node? (handles ++ Handles.default) fuel true false rest
      | _ => none
    else if tokens = [] then some (.missing, [])
    else node? Handles.default fuel true false tokens
  if rest.all (· = .documentEnd) then return root else none

end Phrasebook.Yaml
