import LineScript.Text.Bytes

namespace LineScript.Yaml

/-- How many bytes a chunk holds when it takes no further character. -/
def fullSize : Nat := 123

/-- The chunks of a text, the first of which begins with the given bytes. -/
def chunksAfter (chunk : Bytes) : List Char → List Bytes
  | [] => [chunk]
  | c :: rest =>
      if chunk.length < fullSize then chunksAfter (chunk ++ String.utf8EncodeChar c) rest
      else chunk :: chunksAfter (String.utf8EncodeChar c) rest

def chunks (text : List Char) : List Bytes :=
  chunksAfter [] text

end LineScript.Yaml
