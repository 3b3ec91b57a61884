/-!
Families of objects. The instances of a family inherit the members of its
ancestor, and ancestors inherit from one another up to the one of ordinary
objects. Most of what an ancestor offers is functions; some members are worked
out from the very instance that is asked, and only instances can answer them.
-/
namespace NamedArguments

/-- What an object is an instance of. -/
inductive Family where
  /-- Ordinary objects. -/
  | record
  | list
  | function
  | map
  | set
  | date
  | failure
  | pattern
  | promise
  | octets
  /-- What all lists of machine numbers have in common. -/
  | machineList
  /-- The memory behind such a list. -/
  | memory
  /-- A class that the program makes itself. -/
  | made (className : String)
deriving DecidableEq, Repr

namespace Family

/-- The name of a family's constructor. -/
def className : Family → String
  | record => "Object"
  | list => "Array"
  | function => "Function"
  | map => "Map"
  | set => "Set"
  | date => "Date"
  | failure => "Error"
  | pattern => "RegExp"
  | promise => "Promise"
  | octets => "Uint8Array"
  | machineList => "TypedArray"
  | memory => "ArrayBuffer"
  | made name => name

/-- The classes of the language itself whose instances a program writes out. -/
def given : List Family := [map, set, date, failure, pattern, promise, octets]

/-- The family of instances of a class; any name but the given ones is a class
of the program's own. -/
def ofClass (name : String) : Family := (given.find? (·.className == name)).getD (made name)

/-- A family and those that its ancestor inherits from. -/
def line : Family → List Family
  | record => [record]
  | octets => [octets, machineList, record]
  | family => [family, record]

/-- The family that a family's ancestor inherits from directly. -/
def above (family : Family) : Option Family := family.line.tail.head?

/-- The functions that an ancestor offers, besides the constructor. -/
def functionNames : Family → List String
  | record =>
    ["__defineGetter__", "__defineSetter__", "hasOwnProperty", "__lookupGetter__",
      "__lookupSetter__", "isPrototypeOf", "propertyIsEnumerable", "toString", "valueOf",
      "toLocaleString"]
  | list =>
    ["at", "concat", "copyWithin", "fill", "find", "findIndex", "findLast", "findLastIndex",
      "lastIndexOf", "pop", "push", "reverse", "shift", "unshift", "slice", "sort", "splice",
      "includes", "indexOf", "join", "keys", "entries", "values", "forEach", "filter", "flat",
      "flatMap", "map", "every", "some", "reduce", "reduceRight", "toReversed", "toSorted",
      "toSpliced", "with", "toLocaleString", "toString"]
  | function => ["apply", "bind", "call", "toString"]
  | map => ["get", "set", "has", "delete", "clear", "entries", "forEach", "keys", "values"]
  | set =>
    ["has", "add", "delete", "clear", "entries", "forEach", "values", "keys", "union",
      "intersection", "difference", "symmetricDifference", "isSubsetOf", "isSupersetOf",
      "isDisjointFrom"]
  | date =>
    ["toString", "toDateString", "toTimeString", "toISOString", "toUTCString", "toGMTString",
      "getDate", "setDate", "getDay", "getFullYear", "setFullYear", "getHours", "setHours",
      "getMilliseconds", "setMilliseconds", "getMinutes", "setMinutes", "getMonth", "setMonth",
      "getSeconds", "setSeconds", "getTime", "setTime", "getTimezoneOffset", "getUTCDate",
      "setUTCDate", "getUTCDay", "getUTCFullYear", "setUTCFullYear", "getUTCHours",
      "setUTCHours", "getUTCMilliseconds", "setUTCMilliseconds", "getUTCMinutes",
      "setUTCMinutes", "getUTCMonth", "setUTCMonth", "getUTCSeconds", "setUTCSeconds",
      "valueOf", "getYear", "setYear", "toJSON", "toLocaleString", "toLocaleDateString",
      "toLocaleTimeString"]
  | failure => ["toString"]
  | pattern => ["exec", "compile", "toString", "test"]
  | promise => ["then", "catch", "finally"]
  | octets => []
  | machineList =>
    ["entries", "keys", "values", "at", "copyWithin", "every", "fill", "filter", "find",
      "findIndex", "findLast", "findLastIndex", "forEach", "includes", "indexOf", "join",
      "lastIndexOf", "map", "reverse", "reduce", "reduceRight", "set", "slice", "some", "sort",
      "subarray", "toReversed", "toSorted", "with", "toLocaleString", "toString"]
  | memory => ["slice", "resize", "transfer", "transferToFixedLength"]
  | made _ => []

/-- What the instances of a family are called where they have no text of their
own. -/
def tag : Family → String
  | map => map.className
  | set => set.className
  | promise => promise.className
  | octets => octets.className
  | memory => memory.className
  | _ => record.className

/-- The options of a pattern by member, with the letters they go by. -/
def patternOptions : List (String × String) :=
  [("hasIndices", "d"), ("global", "g"), ("ignoreCase", "i"), ("multiline", "m"),
    ("dotAll", "s"), ("unicode", "u"), ("unicodeSets", "v"), ("sticky", "y")]

/-- The members that are worked out from the instance asked. -/
def workedOutNames : Family → List String
  | map | set => ["size"]
  | pattern => "source" :: "flags" :: patternOptions.map (·.1)
  | machineList => ["buffer", "byteLength", "byteOffset", "length"]
  | memory => ["byteLength", "maxByteLength", "resizable", "detached"]
  | function => ["arguments", "caller"]
  | _ => []

/-- The family of a line whose instances alone can answer for a member. -/
def worksOut? (family : Family) (name : String) : Option Family :=
  family.line.find? fun ancestor => ancestor.workedOutNames.contains name

end Family
end NamedArguments
