import IngressControl.Yaml.Token
/-!
The tree that the tokens of a YAML document describe.

An alias stands for the node of its anchor as it is when the alias is met; inside the anchored
collection itself that is an unfinished node. Repeated keys stay as they are written.
-/

namespace IngressControl.Yaml

inductive Node where
  | scalar (text : String) (style : ScalarStyle) (tag : Option String)
  | sequence (items : List Node) (tag : Option String)
  | mapping (pairs : List (Node × Node)) (tag : Option String)
  | unfinished
  deriving Inhabited, Repr

/-- An anchor with the node it names; a later one of the same name hides it. -/
structure Anchor where
  name : String
  serial : Nat
  node : Node

structure Builder where
  tokens : List Token
  handles : List (String × String) := []
  anchors : List Anchor := []
  serial : Nat := 0

abbrev Build := StateT Builder Option

namespace Build

def fail {α : Type} : Build α := fun _ => none

def peek : Build (Option Token) := do return (← get).tokens.head?

def skip : Build Unit := modify fun builder => { builder with tokens := builder.tokens.drop 1 }

def skipIf (wanted : Token) : Build Bool := do
  if (← peek) = some wanted then
    skip
    return true
  else return false

def nextIsOneOf (tokens : List Token) : Build Bool := do
  return (← peek).all tokens.contains

def empty : Node := .scalar "" .plain none

def standardHandles : List (String × String) :=
  [("!", "!"), ("!!", "tag:yaml.org,2002:")]

def resolveTag (handle suffix : String) : Build String := do
  if handle.isEmpty then return suffix
  match ((← get).handles ++ standardHandles).find? fun entry => entry.1 = handle with
  | some (_, start) => return start ++ suffix
  | none => fail

def define (name : Option String) (node : Node) : Build Nat := do
  let serial := (← get).serial
  match name with
  | none => return serial
  | some name =>
      modify fun builder =>
        { builder with
          serial := serial + 1
          anchors := ⟨name, serial, node⟩ :: builder.anchors.filter fun anchor => anchor.name ≠ name }
      return serial

def finish (name : Option String) (serial : Nat) (node : Node) : Build Node := do
  if name.isSome then
    modify fun builder =>
      { builder with
        anchors := builder.anchors.map fun anchor =>
          if anchor.serial = serial then { anchor with node } else anchor }
  return node

def properties : Build (Option String × Option String) := do
  match ← peek with
  | some (.anchor name) =>
      skip
      match ← peek with
      | some (.tag handle suffix) =>
          skip
          return (some name, some (← resolveTag handle suffix))
      | _ => return (some name, none)
  | some (.tag handle suffix) =>
      skip
      match ← peek with
      | some (.anchor name) =>
          skip
          return (some name, some (← resolveTag handle suffix))
      | _ => return (none, some (← resolveTag handle suffix))
  | _ => return (none, none)

mutual

/-- A node. Block collections are only possible in block context; a sequence may stand at the
indentation of the key it belongs to. -/
def node (block indentless : Bool) : Nat → Build Node
  | 0 => fail
  | fuel + 1 => do
      match ← peek with
      | some (.anchorAlias name) =>
          skip
          match (← get).anchors.find? fun anchor => anchor.name = name with
          | some anchor => return anchor.node
          | none => fail
      | _ =>
          let (name, tag) ← properties
          match ← peek with
          | some (.scalar text style) =>
              skip
              let node := Node.scalar text style tag
              let _ ← define name node
              return node
          | some .flowSequenceStart =>
              skip
              let serial ← define name .unfinished
              finish name serial (.sequence (← flowItems true fuel) tag)
          | some .flowMappingStart =>
              skip
              let serial ← define name .unfinished
              finish name serial (.mapping (← flowPairs true fuel) tag)
          | some .blockSequenceStart =>
              if block then
                skip
                let serial ← define name .unfinished
                finish name serial (.sequence (← blockItems fuel) tag)
              else fallback name tag
          | some .blockMappingStart =>
              if block then
                skip
                let serial ← define name .unfinished
                finish name serial (.mapping (← blockPairs fuel) tag)
              else fallback name tag
          | some .blockEntry =>
              if indentless then
                let serial ← define name .unfinished
                finish name serial (.sequence (← indentlessItems fuel) tag)
              else fallback name tag
          | _ => fallback name tag

def fallback (name tag : Option String) : Build Node := do
  if name.isNone && tag.isNone then fail
  let node := Node.scalar "" .plain tag
  let _ ← define name node
  return node

def nodeUnless (tokens : List Token) (block indentless : Bool) : Nat → Build Node
  | 0 => fail
  | fuel + 1 => do
      if ← nextIsOneOf tokens then return empty
      node block indentless fuel

def blockItems : Nat → Build (List Node)
  | 0 => fail
  | fuel + 1 => do
      if ← skipIf .blockEntry then
        let item ← nodeUnless [.blockEntry, .blockEnd] true false fuel
        return item :: (← blockItems fuel)
      else if ← skipIf .blockEnd then return []
      else fail

def indentlessItems : Nat → Build (List Node)
  | 0 => fail
  | fuel + 1 => do
      if ← skipIf .blockEntry then
        let item ← nodeUnless [.blockEntry, .key, .value, .blockEnd] true false fuel
        return item :: (← indentlessItems fuel)
      else return []

def blockPairs : Nat → Build (List (Node × Node))
  | 0 => fail
  | fuel + 1 => do
      if ← skipIf .blockEnd then return []
      if !(← skipIf .key) then fail
      let key ← nodeUnless [.key, .value, .blockEnd] true true fuel
      let value ←
        if ← skipIf .value then nodeUnless [.key, .value, .blockEnd] true true fuel else pure empty
      return (key, value) :: (← blockPairs fuel)

def separated (isFirst : Bool) : Build Unit := do
  if isFirst then return ()
  if !(← skipIf .flowEntry) then fail

def flowItems (isFirst : Bool) : Nat → Build (List Node)
  | 0 => fail
  | fuel + 1 => do
      if ← skipIf .flowSequenceEnd then return []
      separated isFirst
      -- A comma may stand behind the last item.
      if ← skipIf .flowSequenceEnd then return []
      let item ←
        if ← skipIf .key then flowPairItem fuel else node false false fuel
      return item :: (← flowItems false fuel)

def flowPairItem : Nat → Build Node
  | 0 => fail
  | fuel + 1 => do
      let key ← nodeUnless [.value, .flowEntry, .flowSequenceEnd] false false fuel
      let value ←
        if ← skipIf .value then nodeUnless [.flowEntry, .flowSequenceEnd] false false fuel
        else pure empty
      return .mapping [(key, value)] none

def flowPairs (isFirst : Bool) : Nat → Build (List (Node × Node))
  | 0 => fail
  | fuel + 1 => do
      if ← skipIf .flowMappingEnd then return []
      separated isFirst
      if ← skipIf .flowMappingEnd then return []
      let pair ←
        if ← skipIf .key then do
          let key ← nodeUnless [.value, .flowEntry, .flowMappingEnd] false false fuel
          let value ←
            if ← skipIf .value then nodeUnless [.flowEntry, .flowMappingEnd] false false fuel
            else pure empty
          pure (key, value)
        else do
          let key ← node false false fuel
          pure (key, empty)
      return pair :: (← flowPairs false fuel)

end

def directives (hasVersion : Bool) (handles : List (String × String)) : Nat → Build Bool
  | 0 => fail
  | fuel + 1 => do
      match ← peek with
      | some (.versionDirective major minor) =>
          if hasVersion ∨ major ≠ 1 ∨ (minor ≠ 1 ∧ minor ≠ 2) then fail
          skip
          directives true handles fuel
      | some (.tagDirective handle start) =>
          if handles.any fun entry => entry.1 = handle then fail
          skip
          directives hasVersion (handles ++ [(handle, start)]) fuel
      | _ =>
          modify fun builder => { builder with handles }
          return hasVersion || !handles.isEmpty

def skipDocumentEnds : Nat → Build Unit
  | 0 => return ()
  | fuel + 1 => do if ← skipIf .documentEnd then skipDocumentEnds fuel

def document (fuel : Nat) : Build (Option Node) := do
  if (← peek).isNone then return none
  let directed ← directives false [] fuel
  let marked ← skipIf .documentStart
  -- Directives have to be followed by the mark that starts the document.
  if directed && !marked then fail
  let next ← peek
  let root ←
    if marked && (next.isNone || next = some .documentStart || next = some .documentEnd) then
      pure empty
    else node true false fuel
  skipDocumentEnds fuel
  if (← peek).isSome then fail
  return some root

end Build

def Node.ofText? (text : String) : Option (Option Node) := do
  let tokens ← Token.ofText? text
  let (root, _) ← (Build.document (4 * tokens.length + 8)).run { tokens }
  return root

end IngressControl.Yaml
