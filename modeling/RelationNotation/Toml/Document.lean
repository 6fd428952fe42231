import RelationNotation.Toml.Scalar

/-!
TOML documents. Statements are taken one after the other, so that of several faults the first
counts. A table may be opened once; what is written inline, between brackets or braces, is never
added to.
-/

namespace RelationNotation

abbrev TomlKey := List Text

namespace TomlTable

/-- Changes the table at the end of a path, making tables that are missing on the way. With
`intoArrays`, the path goes on through the last table of an array. -/
def change (intoArrays : Bool) (f : TomlTable → Except TomlFault TomlTable) :
    TomlKey → TomlTable → Except TomlFault TomlTable
  | [], t => f t
  | k :: ks, t => do
    match t.get? k with
    | none => return t.put k (.table (← change intoArrays f ks []))
    | some (.table u) => return t.put k (.table (← change intoArrays f ks u))
    | some (.array items) =>
      match intoArrays, items.getLast? with
      | true, some (.table u) =>
        return t.put k (.array (items.dropLast ++ [.table (← change intoArrays f ks u)]))
      | _, _ => throw .malformed
    | some _ => throw .malformed

def addNew (k : Text) (x : Toml) (t : TomlTable) : Except TomlFault TomlTable :=
  if (t.get? k).isSome then .error .malformed else .ok (t.put k x)

def addItem (k : Text) (t : TomlTable) : Except TomlFault TomlTable :=
  match t.get? k with
  | none => .ok (t.put k (.array [.table []]))
  | some (.array items) => .ok (t.put k (.array (items ++ [.table []])))
  | some _ => .error .malformed

end TomlTable

namespace Toml

def hasParts : Toml → Bool
  | .array _ | .table _ => true
  | _ => false

end Toml

namespace TomlRead

/-- Reads a key, an equals sign and a value, given how to read a value. -/
def pairWith (value : TomlRead Toml) : TomlRead (TomlKey × Toml) := do
  let k ← key
  expect ['=']
  skipSpaces
  let x ← value
  return (k, x)

/-- Reads the rest of an array behind its opening bracket or a comma, given a bound on its length
and how to read a value. -/
def arrayRest (value : TomlRead Toml) : Nat → TomlRead (List Toml)
  | 0 => fail
  | k + 1 => do
    skipLayout
    if ← accept [']'] then return []
    let x ← value
    skipLayout
    if ← accept [']'] then return [x]
    expect [',']
    return x :: (← arrayRest value k)

/-- Reads the rest of an inline table behind its opening brace or a comma, given a bound on its
length, how to read a value, the table so far and the keys of values that have parts. -/
def inlineRest (value : TomlRead Toml) : Nat → TomlTable → List TomlKey → TomlRead TomlTable
  | 0, _, _ => fail
  | n + 1, t, closed => do
    skipSpaces
    let (k, x) ← pairWith value
    if closed.any fun c => c.isPrefixOf k then fail
    let t ← t.change false (TomlTable.addNew (k.getLastD []) x) k.dropLast
    skipSpaces
    if ← accept ['}'] then return t
    expect [',']
    inlineRest value n t (if x.hasParts then k :: closed else closed)

def inlineTable (value : TomlRead Toml) : TomlRead TomlTable := do
  skipSpaces
  if ← accept ['}'] then return []
  inlineRest value ((← get).length + 1) [] []

def valueWithin : Nat → TomlRead Toml
  | 0 => fail
  | k + 1 => do
    if ← accept ['"', '"', '"'] then return .string (← lines '"')
    if ← accept ['"'] then return .string (← basic false)
    if ← accept ['\x27', '\x27', '\x27'] then return .string (← lines '\x27')
    if ← accept ['\x27'] then return .string (← literal)
    if ← accept ['t', 'r', 'u', 'e'] then return .boolean true
    if ← accept ['f', 'a', 'l', 's', 'e'] then return .boolean false
    if ← accept ['['] then return .array (← arrayRest (valueWithin k) ((← get).length + 1))
    if ← accept ['{'] then return .table (← inlineTable (valueWithin k))
    dateOrNumber

def value : TomlRead Toml := do
  valueWithin ((← get).length + 1)

end TomlRead

/-- A document as far as it has been read: its table, the keys of tables that may not be opened
any more, those that may not once the next table is opened, the keys of values that may not be added
to, and the key of the table that is open. -/
structure TomlDraft where
  table : TomlTable := []
  opened : List TomlKey := []
  pending : List TomlKey := []
  closed : List TomlKey := []
  header : TomlKey := []

namespace TomlDraft

/-- Whether a key leads to or into a value that may not be added to. -/
def isClosed (d : TomlDraft) (k : TomlKey) : Bool := d.closed.any fun c => c.isPrefixOf k

def settle (d : TomlDraft) : TomlDraft :=
  { d with opened := d.pending ++ d.opened, pending := [] }

def openTable (d : TomlDraft) (k : TomlKey) : Except TomlFault TomlDraft := do
  if k ∈ d.opened ∨ d.isClosed k then throw .malformed
  let table ← d.table.change true .ok k
  return { d with table := table, opened := k :: d.opened, header := k }

/-- Opens the next table of an array of tables. What lies below the one before is forgotten. -/
def openItem (d : TomlDraft) (k : TomlKey) : Except TomlFault TomlDraft := do
  if d.isClosed k then throw .malformed
  let table ← d.table.change true (TomlTable.addItem (k.getLastD [])) k.dropLast
  return { d with
    table := table
    opened := k :: d.opened.filter fun o => !k.isPrefixOf o
    closed := d.closed.filter fun o => !k.isPrefixOf o
    header := k }

/-- The keys that lead from a key to a key below it, both left out. -/
def between (above : TomlKey) : TomlKey → List TomlKey
  | [] | [_] => []
  | k :: ks => (above ++ [k]) :: between (above ++ [k]) ks

def add (d : TomlDraft) (k : TomlKey) (x : Toml) : Except TomlFault TomlDraft := do
  let above := between d.header k
  if above.any (· ∈ d.opened) then throw .malformed
  let parent := d.header ++ k.dropLast
  if d.isClosed parent then throw .malformed
  let table ← d.table.change true (TomlTable.addNew (k.getLastD []) x) parent
  return { d with
    table := table
    pending := above ++ d.pending
    closed := if x.hasParts then (d.header ++ k) :: d.closed else d.closed }

/-- Reads a table header, if one stands in front, or a key with its value. -/
def statement (d : TomlDraft) : TomlRead TomlDraft := do
  if ← TomlRead.accept ['[', '['] then
    TomlRead.skipSpaces
    let k ← TomlRead.key
    let d ← d.settle.openItem k
    TomlRead.expect [']', ']']
    return d
  else if ← TomlRead.accept ['['] then
    TomlRead.skipSpaces
    let k ← TomlRead.key
    let d ← d.settle.openTable k
    TomlRead.expect [']']
    return d
  else
    let (k, x) ← TomlRead.pairWith TomlRead.value
    d.add k x

/-- Reads the lines of a document, given a bound on their number. -/
def lines : Nat → TomlDraft → TomlRead TomlDraft
  | 0, d => return d
  | n + 1, d => do
    TomlRead.skipSpaces
    let d ← match ← TomlRead.peek? with
      | none | some '\n' | some '#' => pure d
      | some _ => d.statement
    TomlRead.skipSpaces
    TomlRead.skipComment
    if (← get).isEmpty then return d
    TomlRead.expect ['\n']
    lines n d

end TomlDraft

def Toml.ofText? (t : Text) : Except TomlFault TomlTable := do
  let (d, _) ← (TomlDraft.lines (t.length + 1) {}).run t
  return d.table

end RelationNotation
