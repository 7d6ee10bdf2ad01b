import LineScript.Builtin
import LineScript.Yaml.Encoder

namespace LineScript

namespace Dump

def ofValue (value : Value) : Yaml.Node :=
  .mapping [(utf8 "type", .text value.kind.name), (utf8 "value", .text value.text)]

def variableEntries (store : Store) : List (Bytes × Yaml.Node) :=
  store.values.map fun (name, value) => (name, ofValue value)

def functionEntries : List (Bytes × Yaml.Node) :=
  Builtin.all.map fun function => (function.name, .text function.contract.describe)

def labelEntries (store : Store) : List (Bytes × Yaml.Node) :=
  store.labels.map fun (name, index) => (name, .integer index)

def document (store : Store) : List (Bytes × Yaml.Node) :=
  [(utf8 "variables", .mapping (variableEntries store)),
    (utf8 "functions", .mapping functionEntries),
    (utf8 "labels", .mapping (labelEntries store))]

end Dump

/-- The dump of a store: the chunks that are written one after another, and the failure that ends it
before its time. -/
def Store.dump (store : Store) (encoder : Yaml.Encoder := .block) :
    List Bytes × Option Failure :=
  let output := encoder.write (Dump.document store)
  (output.chunks, if output.complete then none else some .undumpable)

end LineScript
