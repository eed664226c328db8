import SheddingQueue.Json.Token

/-!
# Reading an object

`Document.read` reads a text that holds one object and reports its members in the order in which
they are written, each with the places at which a complaint about it belongs. Of a text that
breaks off or goes wrong it still reports what was read before: the members that are complete, and
the one that is not. So whoever uses the members can complain about them in the order of the text.

The reader is a machine that is fed one token after another. It holds the containers that are open
and what it expects next.
-/

namespace SheddingQueue.Json

structure Key where
  name : String
  /-- Where a complaint about the key belongs: at the next token, or behind it if it closes the
  object. -/
  complaint : Nat
  deriving Repr

structure Member where
  key : Key
  value : Value
  /-- Where a complaint about the value belongs: behind a scalar, in front of a container. -/
  complaint : Nat
  deriving Repr

def Member.entry (m : Member) : String × Value := (m.key.name, m.value)

/-- A member that is not complete. -/
structure Pending where
  key : Key
  /-- If a container has been opened as its value: what it is, and where a complaint about it
  belongs. -/
  opened : Option (Found × Nat)
  deriving Repr

/-- What was read of an object. -/
structure Reading where
  members : List Member
  pending : Option Pending
  /-- What ended the reading, unless it came to its proper end. -/
  fault : Option Fault
  deriving Repr

/-- What has been read of a container, the last first. -/
inductive Content where
  | list (items : List Value)
  /-- `key` is the one whose value comes next. -/
  | object (members : List Member) (key : Option Key)
  deriving Repr

/-- An open container. -/
structure Container where
  start : Nat
  content : Content
  deriving Repr

inductive Expecting where
  | firstItem
  | item
  | value
  | firstKey
  | key
  | colon (name : String)
  | separator
  deriving DecidableEq, Repr

inductive Reader where
  /-- `nest` has the innermost container first. -/
  | within (nest : List Container) (expecting : Expecting)
  /-- The outermost object is complete. -/
  | complete (members : List Member)
  | failed (reading : Reading)
  deriving Repr

namespace Container

def found (c : Container) : Found :=
  match c.content with
  | .list _ => .sequence
  | .object .. => .map

def value (c : Container) : Value :=
  match c.content with
  | .list items => .list items.reverse
  | .object members _ => .object (Members.ofList (members.reverse.map Member.entry))

def members (c : Container) : List Member :=
  match c.content with
  | .list _ => []
  | .object members _ => members

def key (c : Container) : Option Key :=
  match c.content with
  | .list _ => none
  | .object _ key => key

/-- A value for the container. -/
def give (c : Container) (v : Value) (complaint : Nat) : Container :=
  match c.content with
  | .list items => { c with content := .list (v :: items) }
  | .object members (some key) =>
    { c with content := .object (⟨key, v, complaint⟩ :: members) none }
  | .object _ none => c

def setKey (c : Container) (key : Key) : Container :=
  match c.content with
  | .list _ => c
  | .object members _ => { c with content := .object members (some key) }

end Container

/-- What was read of the outermost of some open containers. -/
def Reading.ofNest (fault : Option Fault) : List Container → Reading
  | [] => ⟨[], none, fault⟩
  | [outer] => ⟨outer.members.reverse, outer.key.map (⟨·, none⟩), fault⟩
  | [inner, outer] =>
    ⟨outer.members.reverse, outer.key.map (⟨·, some (inner.found, inner.start)⟩), fault⟩
  | _ :: nest => ofNest fault nest

namespace Reader

/-- Most containers that may be open at once. -/
def maxDepth : Nat := 127

def fail (nest : List Container) (cause : Cause) (offset : Nat) : Reader :=
  .failed (Reading.ofNest (some ⟨cause, offset⟩) nest)

/-- Hand a value to the innermost container. -/
def give (v : Value) (complaint : Nat) : List Container → Reader
  | [] => .complete []
  | top :: below => .within (top.give v complaint :: below) .separator

/-- Close the innermost container. -/
def close : List Container → Reader
  | [] => .complete []
  | [outer] => .complete outer.members.reverse
  | top :: below => give top.value top.start below

/-- Open a container, unless there are too many open ones. -/
def enter (nest : List Container) (x : Lexeme) (content : Content) (expecting : Expecting) :
    Reader :=
  if nest.length < maxDepth then .within (⟨x.start, content⟩ :: nest) expecting
  else fail nest .tooDeep (x.start + 1)

/-- A token where a value is expected. -/
def value (nest : List Container) (x : Lexeme) : Reader :=
  match x.token with
  | .scalar s => give (.scalar s) x.stop nest
  | .leftBrace => enter nest x (.object [] none) .firstKey
  | .leftBracket => enter nest x (.list []) .firstItem
  | .broken fault => .failed (Reading.ofNest (some fault) nest)
  | .brokenText fault => .failed (Reading.ofNest (some fault) nest)
  | _ => fail nest .noValue (x.start + 1)

/-- A token where a key is expected. -/
def key (nest : List Container) (x : Lexeme) : Reader :=
  match x.token with
  | .scalar (.text name) => .within nest (.colon name)
  | .brokenText fault => .failed (Reading.ofNest (some fault) nest)
  | _ => fail nest .noKey (x.start + 1)

/-- The token after a key. Only here is it known where a complaint about the key belongs. -/
def colon (nest : List Container) (name : String) (x : Lexeme) : Reader :=
  let complaint := if x.token = .rightBrace then x.stop else x.start
  let nest := match nest with
    | [] => []
    | top :: below => top.setKey ⟨name, complaint⟩ :: below
  if x.token = .colon then .within nest .value
  else fail nest .noColon (x.start + 1)

/-- A token after a value. -/
def separator (nest : List Container) (x : Lexeme) : Reader :=
  match (nest.head?.map Container.found).getD .map with
  | .sequence =>
    match x.token with
    | .comma => .within nest .item
    | .rightBracket => close nest
    | _ => fail nest .noSeparatorInList (x.start + 1)
  | _ =>
    match x.token with
    | .comma => .within nest .key
    | .rightBrace => close nest
    | _ => fail nest .noSeparatorInObject (x.start + 1)

def step (r : Reader) (x : Lexeme) : Reader :=
  match r with
  | .failed reading => .failed reading
  | .complete members => .failed ⟨members, none, some ⟨.trailingCharacters, x.start + 1⟩⟩
  | .within nest expecting =>
    match expecting with
    | .firstItem => if x.token = .rightBracket then close nest else value nest x
    | .item =>
      if x.token = .rightBracket then fail nest .trailingComma (x.start + 1) else value nest x
    | .value => value nest x
    | .firstKey => if x.token = .rightBrace then close nest else key nest x
    | .key =>
      if x.token = .rightBrace then fail nest .trailingComma (x.start + 1) else key nest x
    | .colon name => colon nest name x
    | .separator => separator nest x

/-- What is missing where the text ends. -/
def missing (nest : List Container) : Expecting → Cause
  | .firstItem => .endInList
  | .item | .value | .key => .endInValue
  | .firstKey | .colon _ => .endInObject
  | .separator =>
    match (nest.head?.map Container.found).getD .map with
    | .sequence => .endInList
    | _ => .endInObject

/-- The text ends at an offset. -/
def finish (r : Reader) (offset : Nat) : Reading :=
  match r with
  | .failed reading => reading
  | .complete members => ⟨members, none, none⟩
  | .within nest expecting =>
    let fault := some ⟨missing nest expecting, offset⟩
    match nest, expecting with
    | top :: below, .colon name => .ofNest fault (top.setKey ⟨name, offset⟩ :: below)
    | nest, _ => .ofNest fault nest

end Reader

inductive Document where
  | object (reading : Reading)
  /-- Something that is no object, and where a complaint about it belongs. -/
  | other (found : Found) (complaint : Nat)
  /-- Not even the start of a value. -/
  | none (fault : Fault)
  deriving Repr

def Document.read (bytes : List UInt8) : Document :=
  match lexemes bytes with
  | [] => .none ⟨.endInValue, bytes.length⟩
  | x :: rest =>
    match x.token with
    | .leftBrace =>
      let start : Reader := .within [⟨x.start, .object [] Option.none⟩] .firstKey
      .object ((rest.foldl Reader.step start).finish bytes.length)
    | .leftBracket => .other .sequence x.start
    | .scalar s => .other (.scalar s) x.stop
    | .broken fault => .none fault
    | .brokenText fault => .none fault
    | _ => .none ⟨.noValue, x.start + 1⟩

/-- The members of an object, if the text holds one and nothing else. -/
def members? (bytes : List UInt8) : Option Members :=
  match Document.read bytes with
  | .object ⟨members, _, Option.none⟩ => some (Members.ofList (members.map Member.entry))
  | _ => Option.none

end SheddingQueue.Json
