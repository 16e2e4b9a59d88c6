import ScreenEditor.Gap.Basic
import ScreenEditor.Text.Utf8

/-!
# Documents

A document is a text under edit together with what is known about its file: the name, whether the
text was changed since it was read or written, whether a question about overwriting is open, and its
place in a chain of documents that share one file.
-/

namespace ScreenEditor

/-- The longest name a document keeps, in bytes of UTF-8. -/
def maxNameBytes : Nat := 64

/-- What is known about a document's file.  `part` is 0 for a document of its own and otherwise its
place, from 1, in a chain of documents with the same name. -/
structure Header where
  name : String
  modified : Bool
  awaitsOverwrite : Bool
  part : UInt8
  deriving DecidableEq, Repr

namespace Header

/-- The header of a document that has no file. -/
def blank : Header := ⟨"", false, false, 0⟩

instance : Inhabited Header := ⟨blank⟩

/-- The part of a name that a document keeps: its longest start of whole characters that takes at
most `maxNameBytes` bytes. -/
def clipName (name : String) : String :=
  String.ofList (Utf8.takeBytes maxNameBytes name.toList)

/-- Name the document, as far as the name can be kept. -/
def setName (h : Header) (name : String) : Header := { h with name := clipName name }

end Header

/-- A text and what is known about its file. -/
structure Document where
  header : Header
  buffer : GapBuffer

namespace Document

instance : Inhabited Document := ⟨⟨Header.blank, GapBuffer.empty 0⟩⟩

/-- Whether there is nothing worth keeping: no name, no text, no unsaved change. -/
def isUnused (d : Document) : Bool :=
  d.header.name.isEmpty && d.buffer.isEmpty && !d.header.modified

/-- Note that the text changed. -/
def markModified (d : Document) : Document :=
  { d with header := { d.header with modified := true } }

/-- Change the text only. -/
@[inline] def mapBuffer (d : Document) (f : GapBuffer → GapBuffer) : Document :=
  { d with buffer := f d.buffer }

end Document
end ScreenEditor
