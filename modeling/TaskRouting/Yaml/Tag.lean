/-!
Tags of YAML.

A tag says what kind of value a node is. It is written as characters, but
escapes may put any byte into it, so it is a sequence of bytes and need not be
a text; a zero byte ends it. A tag with an exclamation mark in front is local
to the document, and names something only if what follows is a text.
-/

namespace TaskRouting.Yaml

/-- A tag, as the bytes that its characters and escapes stand for. -/
structure Tag where
  bytes : List UInt8
  deriving DecidableEq

namespace Tag

/-- The tag that a text writes without escapes. -/
def ofString (s : String) : Tag := ⟨s.toUTF8.toList⟩

/-- The tag that some bytes write: those in front of the first zero. -/
def ofBytes (bytes : List UInt8) : Tag := ⟨bytes.takeWhile (· ≠ 0)⟩

/-- Whether the tag has no bytes. -/
def isEmpty (t : Tag) : Bool := t.bytes.isEmpty

/-- One tag with another after it. -/
def append (s t : Tag) : Tag := ⟨s.bytes ++ t.bytes⟩

/-- The byte of the exclamation mark. -/
def localMark : UInt8 := 33

/-- The tag that is an exclamation mark alone. -/
def bare : Tag := ⟨[localMark]⟩

/-- What the tags of the core schema begin with. -/
def corePrefix : Tag := ofString "tag:yaml.org,2002:"

/-- A tag of the core schema. -/
def core (name : String) : Tag := corePrefix.append (ofString name)

/-- Whether the tag is local to the document. -/
def isLocal (t : Tag) : Bool := t.bytes.head? == some localMark

/-- The name in a local tag: what follows the exclamation mark, or the mark
itself where nothing does. Bytes that are no text are no name. -/
def localName? (t : Tag) : Option String :=
  match t.bytes with
  | [] => none
  | b :: rest =>
    if b = localMark then
      String.fromUTF8?
        (ByteArray.mk (if rest.isEmpty then [b] else rest).toArray)
    else none

end Tag

end TaskRouting.Yaml
