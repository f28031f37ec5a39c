import PositionSync.Yaml.Layout

/-!
# From tokens to events

The nodes of a document are told one after the other: a scalar by itself, a collection by its start,
its members and its end. Missing nodes appear as empty plain scalars.
-/

namespace PositionSync.Yaml

/-- A scalar with its tag. -/
structure Scalar where
  style : Style
  tag : Option Tag
  text : String
deriving DecidableEq

/-- What an event tells; nodes carry the name of their anchor. -/
inductive Event where
  | alias (name : String)
  | scalar (anchor : Option String) (scalar : Scalar)
  | sequenceStart (anchor : Option String)
  | sequenceEnd
  | mappingStart (anchor : Option String)
  | mappingEnd
  | documentStart
  | documentEnd
  | streamEnd
  | malformed
deriving DecidableEq

/-- What the grammar expects next. The states of collections differ in whether the first member is
still to come. -/
inductive Expectation where
  | firstDocument
  | nextDocument
  | documentContent
  | documentEnd
  | blockNode
  | blockSequence (first : Bool)
  | indentlessSequence
  | blockMappingKey (first : Bool)
  | blockMappingValue
  | flowSequence (first : Bool)
  | flowPairKey
  | flowPairValue
  | flowPairEnd
  | flowMappingKey (first : Bool)
  | flowMappingValue
  | flowMappingEmptyValue
  | nothing
deriving DecidableEq

/-- How far the tokens have been read: what is expected now and what after it, and the tag handles of
the current document. -/
structure Reader where
  tokens : List Token
  expected : Expectation
  after : List Expectation
  handles : List (String × Tag)

namespace Reader

abbrev Step := Option (Event × Reader)

def emptyNode (reader : Reader) (next : Expectation) : Step :=
  some (.scalar none ⟨.plain, none, ""⟩, { reader with expected := next })

/-- Go back to what was expected around the current node. -/
def finish (reader : Reader) (event : Event) : Step :=
  match reader.after with
  | [] => some (event, { reader with expected := .nothing })
  | expected :: after => some (event, { reader with expected, after })

def resolveTag? (handles : List (String × Tag)) (handle : String) (suffix : Tag) : Option Tag :=
  if handle = "" then some suffix
  else (handles.find? fun entry => entry.1 = handle).map fun entry => entry.2 ++ suffix

/-- The properties of a node: its anchor and its tag, in either order. -/
def properties? (handles : List (String × Tag)) :
    List Token → Option (Option String × Option Tag × List Token)
  | .anchor name :: .tag handle suffix :: rest => do
    return (some name, some (← resolveTag? handles handle suffix), rest)
  | .anchor name :: rest => some (some name, none, rest)
  | .tag handle suffix :: .anchor name :: rest => do
    return (some name, some (← resolveTag? handles handle suffix), rest)
  | .tag handle suffix :: rest => do
    return (none, some (← resolveTag? handles handle suffix), rest)
  | rest => some (none, none, rest)

/-- A node whose properties have been read. -/
def content (reader : Reader) (block indentless : Bool) (anchor : Option String)
    (tag : Option Tag) : Step :=
  let enter (event : Event) (expected : Expectation) (tokens : List Token) : Step :=
    some (event, { reader with expected, tokens })
  match reader.tokens with
  | .blockEntry :: rest =>
    if indentless then enter (.sequenceStart anchor) .indentlessSequence (.blockEntry :: rest)
    else if anchor.isSome || tag.isSome then reader.finish (.scalar anchor ⟨.plain, tag, ""⟩)
    else none
  | .scalar style text :: rest =>
    { reader with tokens := rest }.finish (.scalar anchor ⟨style, tag, text⟩)
  | .flowSequenceStart :: rest => enter (.sequenceStart anchor) (.flowSequence true) rest
  | .flowMappingStart :: rest => enter (.mappingStart anchor) (.flowMappingKey true) rest
  | token :: rest =>
    if block && token = .blockSequenceStart then
      enter (.sequenceStart anchor) (.blockSequence true) rest
    else if block && token = .blockMappingStart then
      enter (.mappingStart anchor) (.blockMappingKey true) rest
    else if token = .malformed then none
    else if anchor.isSome || tag.isSome then reader.finish (.scalar anchor ⟨.plain, tag, ""⟩)
    else none
  | [] => none

/-- A node. `block` allows block collections, `indentless` a sequence whose dashes are not indented
further than their key. -/
def node (reader : Reader) (block indentless : Bool) : Step :=
  match reader.tokens with
  | .alias name :: rest => { reader with tokens := rest }.finish (.alias name)
  | tokens =>
    match properties? reader.handles tokens with
    | some (anchor, tag, rest) =>
      { reader with tokens := rest }.content block indentless anchor tag
    | none => none

/-- A node behind which something is expected, or a missing one if one of certain tokens comes
instead. -/
def nodeUnless (reader : Reader) (ends : List Token) (block indentless : Bool)
    (next : Expectation) : Step :=
  match reader.tokens with
  | [] => none
  | .malformed :: _ => none
  | token :: _ =>
    if ends.contains token then reader.emptyNode next
    else { reader with after := next :: reader.after }.node block indentless

/-- The directives in front of a document: whether a version was given, and the tag handles. Neither
may be given twice, and the version has to be 1.1 or 1.2. -/
def directives? :
    Bool → List (String × Tag) → List Token → Option (List (String × Tag) × List Token)
  | versioned, handles, .version major minor :: rest =>
    if versioned || major ≠ 1 || (minor ≠ 1 && minor ≠ 2) then none
    else directives? true handles rest
  | versioned, handles, .tagHandle handle expansion :: rest =>
    if handles.any fun entry => entry.1 = handle then none
    else directives? versioned (handles ++ [(handle, expansion)]) rest
  | _, handles, rest => some (handles, rest)

/-- The handles that every document knows. -/
def standardHandles : List (String × Tag) :=
  [("!", Utf8.encode "!"), ("!!", Utf8.encode "tag:yaml.org,2002:")]

/-- A document that begins with directives or with its mark, or the end of the text. -/
def explicitDocument (reader : Reader) : Step :=
  match reader.tokens with
  | .streamEnd :: rest => some (.streamEnd, { reader with tokens := rest, expected := .nothing })
  | tokens =>
    match directives? false [] tokens with
    | some (handles, .documentStart :: rest) =>
      some (.documentStart, { reader with
        tokens := rest
        expected := .documentContent
        after := .documentEnd :: reader.after
        handles := handles ++ standardHandles })
    | _ => none

/-- The first document, which may begin without a mark. -/
def firstDocument (reader : Reader) : Step :=
  let explicit := match reader.tokens with
    | .version .. :: _ | .tagHandle .. :: _ | .documentStart :: _ | .streamEnd :: _ => true
    | _ => false
  if explicit then reader.explicitDocument
  else if reader.tokens.head? = some .malformed then none
  else some (.documentStart, { reader with
    expected := .blockNode
    after := .documentEnd :: reader.after
    handles := standardHandles })

def documentContent (reader : Reader) : Step :=
  match reader.tokens with
  | .version .. :: _ | .tagHandle .. :: _ | .documentStart :: _ | .documentEnd :: _
  | .streamEnd :: _ => reader.finish (.scalar none ⟨.plain, none, ""⟩)
  | _ => reader.node true false

def documentEnd (reader : Reader) : Step :=
  match reader.tokens with
  | [] | .malformed :: _ => none
  | .documentEnd :: rest =>
    some (.documentEnd, { reader with tokens := rest, expected := .nextDocument, handles := [] })
  | _ => some (.documentEnd, { reader with expected := .nextDocument, handles := [] })

def blockSequence (reader : Reader) : Step :=
  match reader.tokens with
  | .blockEntry :: rest =>
    { reader with tokens := rest }.nodeUnless [.blockEntry, .blockEnd] true false
      (.blockSequence false)
  | .blockEnd :: rest => { reader with tokens := rest }.finish .sequenceEnd
  | _ => none

/-- The next item of a sequence that has no block of its own. -/
def indentlessSequence (reader : Reader) : Step :=
  match reader.tokens with
  | [] | .malformed :: _ => none
  | .blockEntry :: rest =>
    { reader with tokens := rest }.nodeUnless [.blockEntry, .key, .value, .blockEnd] true false
      .indentlessSequence
  | _ => reader.finish .sequenceEnd

def blockMappingKey (reader : Reader) : Step :=
  match reader.tokens with
  | .key :: rest =>
    { reader with tokens := rest }.nodeUnless [.key, .value, .blockEnd] true true
      .blockMappingValue
  | .blockEnd :: rest => { reader with tokens := rest }.finish .mappingEnd
  | _ => none

def blockMappingValue (reader : Reader) : Step :=
  match reader.tokens with
  | [] | .malformed :: _ => none
  | .value :: rest =>
    { reader with tokens := rest }.nodeUnless [.key, .value, .blockEnd] true true
      (.blockMappingKey false)
  | _ => reader.emptyNode (.blockMappingKey false)

/-- Go over the comma between two members of a flow collection. -/
def comma? (first : Bool) (tokens : List Token) : Option (List Token) :=
  if first then some tokens
  else match tokens with
    | .flowEntry :: rest => some rest
    | _ => none

/-- The next item of a flow sequence. A key makes it a mapping of one pair. -/
def flowSequence (reader : Reader) (first : Bool) : Step :=
  match reader.tokens with
  | .flowSequenceEnd :: rest => { reader with tokens := rest }.finish .sequenceEnd
  | tokens =>
    match comma? first tokens with
    | some (.key :: rest) =>
      some (.mappingStart none, { reader with tokens := rest, expected := .flowPairKey })
    | some (.flowSequenceEnd :: rest) => { reader with tokens := rest }.finish .sequenceEnd
    | some rest =>
      { reader with tokens := rest, after := .flowSequence false :: reader.after }.node false false
    | none => none

/-- The key of a pair inside a flow sequence. Where it is missing, the token that comes instead is
taken with it. -/
def flowPairKey (reader : Reader) : Step :=
  match reader.tokens with
  | .value :: rest | .flowEntry :: rest | .flowSequenceEnd :: rest =>
    { reader with tokens := rest }.emptyNode .flowPairValue
  | _ => { reader with after := .flowPairValue :: reader.after }.node false false

/-- The value of a pair inside a flow sequence. -/
def flowPairValue (reader : Reader) : Step :=
  match reader.tokens with
  | [] | .malformed :: _ => none
  | .value :: rest =>
    { reader with tokens := rest }.nodeUnless [.flowEntry, .flowSequenceEnd] false false
      .flowPairEnd
  | _ => reader.emptyNode .flowPairEnd

def flowMappingKey (reader : Reader) (first : Bool) : Step :=
  match reader.tokens with
  | .flowMappingEnd :: rest => { reader with tokens := rest }.finish .mappingEnd
  | tokens =>
    match comma? first tokens with
    | some (.key :: rest) =>
      { reader with tokens := rest }.nodeUnless [.value, .flowEntry, .flowMappingEnd] false false
        .flowMappingValue
    | some (.flowMappingEnd :: rest) => { reader with tokens := rest }.finish .mappingEnd
    | some rest =>
      { reader with tokens := rest, after := .flowMappingEmptyValue :: reader.after }.node
        false false
    | none => none

def flowMappingValue (reader : Reader) : Step :=
  match reader.tokens with
  | [] | .malformed :: _ => none
  | .value :: rest =>
    { reader with tokens := rest }.nodeUnless [.flowEntry, .flowMappingEnd] false false
      (.flowMappingKey false)
  | _ => reader.emptyNode (.flowMappingKey false)

/-- The value of a member that is no key: none. -/
def flowMappingEmptyValue (reader : Reader) : Step :=
  match reader.tokens with
  | [] | .malformed :: _ => none
  | _ => reader.emptyNode (.flowMappingKey false)

def next (reader : Reader) : Step :=
  match reader.expected with
  | .firstDocument => reader.firstDocument
  | .nextDocument =>
    { reader with tokens := reader.tokens.dropWhile (· = Token.documentEnd) }.explicitDocument
  | .documentContent => reader.documentContent
  | .documentEnd => reader.documentEnd
  | .blockNode => reader.node true false
  | .blockSequence _ => reader.blockSequence
  | .indentlessSequence => reader.indentlessSequence
  | .blockMappingKey _ => reader.blockMappingKey
  | .blockMappingValue => reader.blockMappingValue
  | .flowSequence first => reader.flowSequence first
  | .flowPairKey => reader.flowPairKey
  | .flowPairValue => reader.flowPairValue
  | .flowPairEnd => some (.mappingEnd, { reader with expected := .flowSequence false })
  | .flowMappingKey first => reader.flowMappingKey first
  | .flowMappingValue => reader.flowMappingValue
  | .flowMappingEmptyValue => reader.flowMappingEmptyValue
  | .nothing => none

/-- The events that a reader comes across; `fuel` bounds their number. -/
def eventsWithin : Nat → Reader → List Event
  | 0, _ => [.malformed]
  | fuel + 1, reader =>
    match reader.next with
    | none => [.malformed]
    | some (.streamEnd, _) => [.streamEnd]
    | some (event, after) => event :: eventsWithin fuel after

end Reader

/-- The events of a text, up to its end or its first fault. No token brings more than three. -/
def events (text : List Char) : List Event :=
  let found := tokens text
  Reader.eventsWithin (4 * found.length + 8) ⟨found, .firstDocument, [], []⟩

end PositionSync.Yaml
