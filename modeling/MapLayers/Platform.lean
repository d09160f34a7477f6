import MapLayers.Json.Reader
import MapLayers.Json.Writer
import MapLayers.Yaml.Reader

/-!
# Platforms

What the program takes from the platform it runs on: the reader of settings files, the room for documents
that are nested deep, the widest indent, and what is in a file once writing to it has been broken off. All
that is proved about runs holds on every platform.
-/

namespace MapLayers

class Platform where
  readSettings : String → Result Json
  /-- The depth to which a document that is read may be nested. -/
  readDepth : Nat
  /-- The same for descriptors that are turned into a document, and for a document that is written. -/
  convertDepth : Nat
  writeDepth : Nat
  maxIndent : Nat
  unfinished : Json → String

instance Platform.usual : Platform := ⟨Yaml.read, 900, 450, 900, 9223372036854775807, fun _ => ""⟩

namespace Platform

variable [Platform]

def readDocument (text : String) : Result Json :=
  match Json.readWithin readDepth text with
  | .ok document => .ok document
  | .error .syntaxFault => .error (.operation .jsonText)
  | .error .tooManyDigits => .error .badValue
  | .error .tooDeep => .error .nestedTooDeep
  | .error .unpairedSurrogate => .error (.operation .unpaired)

/-- A document that is not nested too deep to have been put together. -/
def converted (document : Json) : Result Json :=
  if convertDepth < document.depth then .error .nestedTooDeep else .ok document

def writeDocument (indent : Nat) (sorted : Bool) (document : Json) : Result String :=
  if maxIndent < indent then .error .tooLarge
  else if writeDepth < document.depth then .error .nestedTooDeep
  else if !document.wholesFit then .error .badValue
  else .ok (Json.write indent sorted document)

end Platform

end MapLayers
